import TwoStage.Pipeline.Reference
import TwoStage.Proofs.Json.Quoted
import TwoStage.Proofs.Text.Pieces
import TwoStage.Digest.Tree

/-!
# Tags of build stages

The tag of the image of the build stage is made of characters of the image, of the stage's name and
of the digest of the sources, whose first twelve stand in it.

## Main statements

- `Spec.mem_builderTag` — the characters of the tag
- `Spec.exists_builderTag_eq` — the digits of the digest in it
- `Spec.builderTag_ne_image` — the two tags of a pipeline are different
-/

namespace TwoStage

variable {c : Char}

theorem mem_of_mem_cutAt {mark : Char} {cs : List Char} (h : c ∈ (cutAt mark cs).1) : c ∈ cs := by
  rcases cutAt_cases mark cs with ⟨hcut, -⟩ | ⟨before, after, rfl, -, hcut⟩
  · rwa [hcut] at h
  · rw [hcut] at h
    exact List.mem_append_left _ h

theorem mem_splitAtLastSlash {cs : List Char} (h : c ∈ (splitAtLastSlash cs).1 ∨
    c ∈ (splitAtLastSlash cs).2) : c ∈ cs := by
  rw [splitAtLastSlash] at h
  rcases cutAt_cases '/' cs.reverse with ⟨hcut, -⟩ | ⟨before, after, hcs, -, hcut⟩
  · simpa [hcut] using h
  · rw [← List.mem_reverse, hcs, List.mem_append, List.mem_cons]
    simp only [hcut, List.mem_reverse] at h
    rcases h with hafter | hbefore
    · exact Or.inr (Or.inr hafter)
    · exact Or.inl hbefore

/-- Nothing but a slash stands in the name of an image that does not stand in the image. -/
theorem mem_repository {image : String} (h : c ∈ (repository image).toList) :
    c ∈ image.toList ∨ c = '/' := by
  rw [repository] at h
  dsimp only at h
  rw [String.toList_ofList] at h
  have hname : c ∈ (cutAt ':' (splitAtLastSlash (cutAt '@' image.toList).1).2).1 →
      c ∈ image.toList := fun hmem =>
    mem_of_mem_cutAt (mem_splitAtLastSlash (Or.inr (mem_of_mem_cutAt hmem)))
  split at h
  · exact Or.inl (hname h)
  · rcases List.mem_append.mp h with hhead | htail
    · exact Or.inl (mem_of_mem_cutAt (mem_splitAtLastSlash (Or.inl hhead)))
    · rcases List.mem_cons.mp htail with hslash | hlast
      · exact Or.inr hslash
      · exact Or.inl (hname hlast)

/-- The characters of the tag of the build stage. -/
theorem Spec.mem_builderTag {spec : Spec} {digest : String}
    (h : c ∈ (spec.builderTag digest).toList) :
    c ∈ spec.image.toList ∨ c ∈ spec.build.name.toList ∨ c ∈ digest.toList ∨
      c ∈ ("/:-stage" : String).toList := by
  have htag : c ∈ (repository spec.image ++ ":" ++ spec.build.name ++ "-" ++
      String.ofList (digest.toList.take 12)).toList ∨ c ∈ ("-stage" : String).toList := by
    rw [builderTag] at h
    split at h
    · rwa [mem_toList_append] at h
    · exact Or.inl h
  have hmarks : ∀ c ∈ (":" ++ "-" ++ "-stage" : String).toList,
      c ∈ ("/:-stage" : String).toList := by simp
  simp only [mem_toList_append, String.toList_ofList] at htag hmarks
  rcases htag with ((((hrepository | hcolon) | hname) | hdash) | hdigest) | hstage
  · rcases mem_repository hrepository with himage | rfl
    · exact Or.inl himage
    · exact Or.inr (Or.inr (Or.inr (by decide)))
  · exact Or.inr (Or.inr (Or.inr (hmarks c (Or.inl (Or.inl hcolon)))))
  · exact Or.inr (Or.inl hname)
  · exact Or.inr (Or.inr (Or.inr (hmarks c (Or.inl (Or.inr hdash)))))
  · exact Or.inr (Or.inr (Or.inl (List.mem_of_mem_take hdigest)))
  · exact Or.inr (Or.inr (Or.inr (hmarks c (Or.inr hstage))))

/-- The first twelve digits of the digest stand in the tag of the build stage. -/
theorem Spec.exists_builderTag_eq (spec : Spec) (digest : String) :
    ∃ before after, spec.builderTag digest =
      before ++ String.ofList (digest.toList.take 12) ++ after := by
  rw [builderTag]
  split
  · exact ⟨_, _, rfl⟩
  · exact ⟨_, "", String.append_empty.symm⟩

/-- The image of the build stage never has the tag of the finished image. -/
theorem Spec.builderTag_ne_image (spec : Spec) (digest : String) :
    spec.builderTag digest ≠ spec.image := by
  unfold builderTag
  dsimp only
  split
  · next hsame =>
    intro h
    have hlength := congrArg String.length (h.trans hsame.symm)
    rw [String.length_append] at hlength
    have hstage : "-stage".length = 6 := by decide
    omega
  · next hother => exact hother

/-- A hash is made of digits. -/
theorem mem_sha256 {message : ByteArray} (h : c ∈ (sha256 message).toList) :
    ∃ digit < 16, c = hexDigit digit := by
  rw [sha256, String.toList_ofList, Sha256.State.digits] at h
  obtain ⟨word, -, hword⟩ := List.mem_flatMap.mp h
  exact mem_hexDigits hword

/-- No hash has a character that is no small digit in base sixteen. -/
theorem not_mem_sha256 (hc : ∀ digit < 16, c ≠ hexDigit digit) (message : ByteArray) :
    c ∉ (sha256 message).toList := by
  intro hmem
  obtain ⟨digit, hdigit, heq⟩ := mem_sha256 hmem
  exact hc digit hdigit heq

/-- A character that is neither a digit of a hash nor one of the marks between the parts is in the
tag of the build stage only if it is in the image or in the name of the stage. -/
theorem Spec.not_mem_builderTag {spec : Spec} (hdigits : ∀ digit < 16, c ≠ hexDigit digit)
    (hmarks : c ∉ ("/:-stage" : String).toList) (himage : c ∉ spec.image.toList)
    (hname : c ∉ spec.build.name.toList) (t : FileTree) (loc : Location) :
    c ∉ (spec.builderTag (t.digest loc)).toList := by
  intro hmem
  rcases mem_builderTag hmem with h | h | h | h
  · exact himage h
  · exact hname h
  · exact not_mem_sha256 hdigits _ h
  · exact hmarks h

end TwoStage
