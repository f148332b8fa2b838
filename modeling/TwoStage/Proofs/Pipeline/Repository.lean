import TwoStage.Proofs.Digest
import TwoStage.Proofs.Pipeline.Reference

/-!
# Names of images without tag and digest

An image is written as a name, a tag behind a colon and a digest behind an at sign, where the colon
of a port is told from that of a tag by the slash behind it. What is left without tag and digest is
the name, and taking them away once more changes nothing. The image of the build stage is written
under the name of the finished image, with a tag of its own for each digest of the sources.

## Main definitions

- `referenceText` — a name with a tag and a digest
- `IsBare` — characters without tag and digest
- `IsImageName` — the names that images are written under
- `IsHash` — the texts that are hashes

## Main statements

- `IsBare.repository_append` — tag and digest are taken away
- `isBare_repository` — what is left has neither
- `Spec.builderTag_eq_iff` — equal tags of build stages
- `Spec.builderTag_unambiguous` — the tag of the build stage against the image and other digests
-/

namespace TwoStage

/-- An image as it is written: its name, the tag behind a colon, the digest behind an at sign. -/
def referenceText (name : String) (tag digest : Option String) : String :=
  name ++ tag.elim "" (":" ++ ·) ++ digest.elim "" ("@" ++ ·)

/-- Neither a slash nor an at sign occurs in a tag. -/
def IsTag (tag : String) : Prop := '/' ∉ tag.toList ∧ '@' ∉ tag.toList

instance (tag : String) : Decidable (IsTag tag) := inferInstanceAs (Decidable (_ ∧ _))

/-- Characters that are the name of an image alone: no at sign occurs in them, and no colon behind
the last slash, which does not stand at their start. -/
inductive IsBare : List Char → Prop
  | plain {last : List Char} (hslash : '/' ∉ last) (hcolon : ':' ∉ last) (hat : '@' ∉ last) :
      IsBare last
  | under {head last : List Char} (hne : head ≠ []) (hhead : '@' ∉ head) (hslash : '/' ∉ last)
      (hcolon : ':' ∉ last) (hat : '@' ∉ last) : IsBare (head ++ '/' :: last)

/-- A name of an image: not empty, not an absolute path, without a digest, and without a colon in
the last one of the components between its slashes. -/
structure IsImageName (name : String) : Prop where
  nonempty : name ≠ ""
  relative : name.toList.head? ≠ some '/'
  digestless : '@' ∉ name.toList
  tagless : ∀ last ∈ (splitAtEach '/' name.toList).getLast?, ':' ∉ last

/-- A text that can be a hash: 64 small hexadecimal digits. -/
structure IsHash (digest : String) : Prop where
  length : digest.toList.length = 64
  digits : ∀ c ∈ digest.toList, ∃ digit < 16, c = hexDigit digit

-- ════════════════════════════════════════════════════════════════════════
-- Cuts
-- ════════════════════════════════════════════════════════════════════════

theorem cutAt_of_not_mem {mark : Char} {cs : List Char} (h : mark ∉ cs) :
    cutAt mark cs = (cs, none) := by
  rcases cutAt_cases mark cs with ⟨hcut, -⟩ | ⟨before, after, rfl, -, -⟩
  · exact hcut
  · exact absurd (List.mem_append_right before List.mem_cons_self) h

/-- What stands behind a mark is cut off, whether there is one or not. -/
theorem cutAt_append_optional {mark : Char} {cs : List Char} (h : mark ∉ cs) {after : List Char}
    (hafter : after = [] ∨ after.head? = some mark) : (cutAt mark (cs ++ after)).1 = cs := by
  rcases hafter with rfl | hmark
  · rw [List.append_nil, cutAt_of_not_mem h]
  · obtain ⟨rest, rfl⟩ := List.head?_eq_some_iff.mp hmark
    rw [cutAt_append_cons h]

/-- Characters hold no slash, or come apart at their last one. -/
theorem splitAtLastSlash_cases (cs : List Char) :
    ('/' ∉ cs ∧ splitAtLastSlash cs = ([], cs)) ∨
      ∃ head last, cs = head ++ '/' :: last ∧ '/' ∉ last ∧ splitAtLastSlash cs = (head, last) := by
  rw [splitAtLastSlash]
  rcases cutAt_cases '/' cs.reverse with ⟨hcut, hnone⟩ | ⟨before, after, hcs, hbefore, hcut⟩
  · left
    rw [List.mem_reverse] at hnone
    rw [hcut]
    exact ⟨hnone, by simp only [List.reverse_reverse]⟩
  · right
    refine ⟨after.reverse, before.reverse, ?_, by rwa [List.mem_reverse], by rw [hcut]⟩
    rw [← List.reverse_reverse cs, hcs]
    simp

theorem splitAtLastSlash_of_not_mem {cs : List Char} (h : '/' ∉ cs) :
    splitAtLastSlash cs = ([], cs) := by
  rcases splitAtLastSlash_cases cs with ⟨-, hsplit⟩ | ⟨head, last, rfl, -, -⟩
  · exact hsplit
  · exact absurd (List.mem_append_right head List.mem_cons_self) h

theorem splitAtLastSlash_append_cons {last : List Char} (h : '/' ∉ last) (head : List Char) :
    splitAtLastSlash (head ++ '/' :: last) = (head, last) := by
  have hreverse : (head ++ '/' :: last).reverse = last.reverse ++ '/' :: head.reverse := by simp
  rw [splitAtLastSlash, hreverse, cutAt_append_cons (by rwa [List.mem_reverse])]
  simp only [List.reverse_reverse]

-- ════════════════════════════════════════════════════════════════════════
-- Names
-- ════════════════════════════════════════════════════════════════════════

theorem not_mem_cutAt (mark : Char) (cs : List Char) : mark ∉ (cutAt mark cs).1 := by
  rcases cutAt_cases mark cs with ⟨hcut, hnone⟩ | ⟨before, after, -, hbefore, hcut⟩
  · rwa [hcut]
  · rwa [hcut]

/-- What is left of an image has neither tag nor digest. -/
theorem isBare_repository (image : String) : IsBare (repository image).toList := by
  rw [repository, String.toList_ofList]
  have hbody := not_mem_cutAt '@' image.toList
  generalize (cutAt '@' image.toList).1 = body at hbody
  rcases splitAtLastSlash_cases body with ⟨hslash, hsplit⟩ | ⟨head, last, rfl, hslash, hsplit⟩
  · rw [hsplit]
    exact .plain (fun h => hslash (mem_of_mem_cutAt h)) (not_mem_cutAt ':' body)
      fun h => hbody (mem_of_mem_cutAt h)
  · rw [hsplit]
    rw [List.mem_append, List.mem_cons, not_or, not_or] at hbody
    have hlast : ('/' ∉ (cutAt ':' last).1) ∧ '@' ∉ (cutAt ':' last).1 :=
      ⟨fun h => hslash (mem_of_mem_cutAt h), fun h => hbody.2.2 (mem_of_mem_cutAt h)⟩
    dsimp only
    split
    · exact .plain hlast.1 (not_mem_cutAt ':' last) hlast.2
    · next hne =>
      exact .under (by simpa using hne) hbody.1 hlast.1 (not_mem_cutAt ':' last) hlast.2

/-- A tag without slash and at sign and a digest are taken away from characters without them. -/
theorem IsBare.repository_append {cs : List Char} (h : IsBare cs) {tag digest : List Char}
    (htag : tag = [] ∨ tag.head? = some ':') (hplain : '/' ∉ tag ∧ '@' ∉ tag)
    (hdigest : digest = [] ∨ digest.head? = some '@') :
    repository (String.ofList (cs ++ tag ++ digest)) = String.ofList cs := by
  rw [repository, String.toList_ofList]
  cases h with
  | plain hslash hcolon hat =>
    have hbody : '@' ∉ cs ++ tag := by simp [hat, hplain.2]
    have hlast : '/' ∉ cs ++ tag := by simp [hslash, hplain.1]
    rw [cutAt_append_optional hbody hdigest, splitAtLastSlash_of_not_mem hlast]
    dsimp only
    rw [cutAt_append_optional hcolon htag]
    rfl
  | @under head last hne hhead hslash hcolon hat =>
    have hbody : '@' ∉ head ++ '/' :: (last ++ tag) := by simp [hhead, hat, hplain.2]
    have hlast : '/' ∉ last ++ tag := by simp [hslash, hplain.1]
    rw [List.append_assoc head, List.cons_append, cutAt_append_optional hbody hdigest,
      splitAtLastSlash_append_cons hlast]
    dsimp only
    rw [cutAt_append_optional hcolon htag, if_neg (by simpa using hne)]

theorem IsBare.repository_referenceText {name : String} (h : IsBare name.toList)
    {tag : Option String} (htag : ∀ given ∈ tag, IsTag given) (digest : Option String) :
    repository (referenceText name tag digest) = name := by
  have htext : referenceText name tag digest = String.ofList (name.toList ++
      (tag.elim [] (':' :: ·.toList)) ++ digest.elim [] ('@' :: ·.toList)) := by
    rw [← String.toList_inj, referenceText]
    cases tag <;> cases digest <;> simp
  rw [htext, h.repository_append]
  · exact String.ofList_toList
  · cases tag with
    | none => exact Or.inl rfl
    | some given => exact Or.inr rfl
  · cases tag with
    | none => simp
    | some given => simpa [IsTag] using htag given rfl
  · cases digest with
    | none => exact Or.inl rfl
    | some given => exact Or.inr rfl

theorem IsImageName.isBare {name : String} (h : IsImageName name) : IsBare name.toList := by
  obtain ⟨-, hrelative, hat, htagless⟩ := h
  generalize name.toList = cs at hrelative hat htagless
  rcases splitAtLastSlash_cases cs with ⟨hslash, -⟩ | ⟨head, last, rfl, hslash, -⟩
  · rw [splitAtEach_of_not_mem hslash] at htagless
    exact .plain hslash (htagless cs rfl) hat
  · rw [splitAtEach_append_mark, splitAtEach_of_not_mem hslash, List.getLast?_concat] at htagless
    rw [List.mem_append, List.mem_cons, not_or, not_or] at hat
    refine .under ?_ hat.1 hslash (htagless last rfl) hat.2.2
    rintro rfl
    exact hrelative rfl

-- ════════════════════════════════════════════════════════════════════════
-- Tags of build stages
-- ════════════════════════════════════════════════════════════════════════

theorem isHash_sha256 (message : ByteArray) : IsHash (sha256 message) where
  length := by rw [String.length_toList, length_sha256]
  digits := fun _ h => mem_sha256 h

/-- A tag that is made unlike an image by what is put behind it is still told from one that is as
long. -/
theorem unlikeImage_eq_iff {tag other image : String} (hlength : tag.length = other.length) :
    (if tag = image then tag ++ "-stage" else tag) =
      (if other = image then other ++ "-stage" else other) ↔ tag = other := by
  have hlonger : ∀ s t : String, s.length = t.length → s ++ "-stage" ≠ t := by
    intro s t hsame heq
    have hstage : "-stage".length = 6 := by decide
    have hlengths := congrArg String.length heq
    rw [String.length_append] at hlengths
    omega
  split
  · next himage =>
    split
    · rw [String.append_left_inj]
    · next hother =>
      exact iff_of_false (hlonger tag other hlength) fun heq => hother (heq ▸ himage)
  · next htag =>
    split
    · next himage =>
      exact iff_of_false (hlonger other tag hlength.symm).symm fun heq => htag (heq ▸ himage)
    · rfl

namespace Spec

variable (spec : Spec)

/-- The tag of the build stage is a name of the image, with a tag that begins with the name of the
stage. -/
theorem builderTag_eq_referenceText (digest : String) :
    ∃ suffix ∈ ["", "-stage"], spec.builderTag digest =
      referenceText (repository spec.image)
        (some (spec.build.name ++ "-" ++ String.ofList (digest.toList.take 12) ++ suffix)) none := by
  rw [builderTag]
  split
  · refine ⟨"-stage", by simp, ?_⟩
    simp [referenceText, String.append_assoc]
  · refine ⟨"", by simp, ?_⟩
    simp [referenceText, String.append_assoc]

/-- The image of the build stage is written under the name of the finished image. -/
theorem repository_builderTag (hname : IsTag spec.build.name) {digest : String}
    (h : IsHash digest) : repository (spec.builderTag digest) = repository spec.image := by
  obtain ⟨suffix, hsuffix, heq⟩ := spec.builderTag_eq_referenceText digest
  rw [heq]
  refine (isBare_repository spec.image).repository_referenceText ?_ none
  rintro given ⟨⟩
  have hdigits : ∀ c ∈ ['/', '@'], c ∉ digest.toList.take 12 := by
    intro c hc hmem
    obtain ⟨digit, hdigit, rfl⟩ := h.digits c (List.mem_of_mem_take hmem)
    have hall : ∀ digit < 16, hexDigit digit ∉ ['/', '@'] := by decide
    exact hall digit hdigit hc
  have hsuffixes : ∀ suffix ∈ ["", "-stage"], IsTag suffix := by decide
  obtain ⟨hslash, hat⟩ := hsuffixes suffix hsuffix
  have hdash : IsTag "-" := by decide
  simp only [IsTag, mem_toList_append, String.toList_ofList, not_or]
  exact ⟨⟨⟨⟨hname.1, hdash.1⟩, hdigits '/' (by decide)⟩, hslash⟩,
    ⟨⟨hname.2, hdash.2⟩, hdigits '@' (by decide)⟩, hat⟩

/-- Two tags of a build stage are the same for digests with the same first twelve digits. -/
theorem builderTag_eq_iff {first second : String} (hfirst : IsHash first) (hsecond : IsHash second) :
    spec.builderTag first = spec.builderTag second ↔
      first.toList.take 12 = second.toList.take 12 := by
  have hlength : (String.ofList (first.toList.take 12)).length =
      (String.ofList (second.toList.take 12)).length := by
    rw [String.length_ofList, String.length_ofList, List.length_take, List.length_take,
      hfirst.length, hsecond.length]
  rw [builderTag, builderTag, unlikeImage_eq_iff]
  · rw [String.append_right_inj, String.ofList_inj]
  · simp only [String.length_append, hlength]

/-- The tag of the build stage is never that of the finished image, it is the same for two digests
exactly if these begin with the same twelve digits, and it is under the name of the finished image
unless the name of the stage has a slash or an at sign. The name is that of an image without its
tag and its digest, and taking these away twice is the same as taking them away once. -/
theorem builderTag_unambiguous {first second : String} (hfirst : IsHash first)
    (hsecond : IsHash second) :
    (spec.builderTag first ≠ spec.image ∧
      (spec.builderTag first = spec.builderTag second ↔
        first.toList.take 12 = second.toList.take 12) ∧
      ('/' ∉ spec.build.name.toList ∧ '@' ∉ spec.build.name.toList →
        repository (spec.builderTag first) = repository spec.image)) ∧
    (∀ image, repository (repository image) = repository image) ∧
    ∀ name, IsImageName name → ∀ tag digest : Option String,
      (∀ given ∈ tag, '/' ∉ given.toList ∧ '@' ∉ given.toList) →
        repository (referenceText name tag digest) = name := by
  refine ⟨⟨spec.builderTag_ne_image first, spec.builderTag_eq_iff hfirst hsecond,
    fun hname => spec.repository_builderTag hname hfirst⟩, ?_, ?_⟩
  · intro image
    have hnone : ∀ given ∈ (none : Option String), IsTag given := nofun
    have htwice := (isBare_repository image).repository_referenceText hnone none
    simpa [referenceText] using htwice
  · intro name hname tag digest htag
    exact hname.isBare.repository_referenceText htag digest

/-- The stock specification with the hashes of two texts, and an image of a registry with a port. -/
theorem builderTag_unambiguous_standard :
    standard.builderTag (sha256 .empty) ≠ standard.image ∧
      repository (standard.builderTag (sha256 .empty)) = repository standard.image ∧
      repository (referenceText "registry:5000/team/app" (some "1.2") (some "sha256:0f")) =
        "registry:5000/team/app" := by
  have himage : IsImageName "registry:5000/team/app" :=
    ⟨by decide, by decide, by decide, by decide⟩
  obtain ⟨⟨hne, -, hsame⟩, -, hname⟩ := standard.builderTag_unambiguous
    (isHash_sha256 .empty) (isHash_sha256 (utf8Bytes "src"))
  exact ⟨hne, hsame (by decide), hname _ himage (some "1.2") (some "sha256:0f") (by decide)⟩

end Spec

end TwoStage
