import Mathlib.Data.Bool.AllAny
import TwoStage.Proofs.Digest
import TwoStage.Proofs.Spec.PlainText

/-!
# Spellings of digests

A digest may be spelled with blanks around it, with the name of its algorithm in front, and with
capital letters. Without all of that it is in its canonical spelling. What is compared has lost the
name first, where it was in small letters, and has been made small only then: a name that is not in
small letters stays. So spellings are compared as their canonical ones if both of them have such a
name, or none of them has.

## Main definitions

- `canonicalDigest` — the canonical spelling
- `NamedInCapitals` — spellings with a name that is not in small letters
- `Spells` — the spellings of a digest in base sixteen
- `Tolerated` — pairs of spellings that are compared as their canonical ones

## Main statements

- `bareDigest_eq` — what is compared, from the canonical spelling
- `canonicalDigest_of_spells` — all spellings of a digest have one canonical spelling
- `sameDigest_tolerant_iff` — which spellings are compared as their canonical ones
-/

namespace TwoStage

/-- The name of the algorithm in front of a digest. -/
def algorithmName : List Char := "sha256:".toList

/-- The canonical spelling of a digest: without blanks, in small letters, and then without the name
of the algorithm. -/
def canonicalDigest (digest : String) : String :=
  let small := (lower (strip digest)).toList
  String.ofList ((afterStart? algorithmName small).getD small)

/-- Two spellings have one canonical spelling, and it is not empty. -/
def SameCanonical (got recorded : String) : Prop :=
  canonicalDigest got = canonicalDigest recorded ∧ canonicalDigest recorded ≠ ""

/-- Whether a digest has the name of the algorithm in front, but not in small letters. -/
def NamedInCapitals (digest : String) : Prop :=
  let name := (stripChars digest.toList).take algorithmName.length
  name.map Char.toLower = algorithmName ∧ name ≠ algorithmName

instance (digest : String) : Decidable (NamedInCapitals digest) :=
  inferInstanceAs (Decidable (_ ∧ _))

/-- Whether a text spells a digest in base sixteen: blanks, the name of the algorithm or nothing,
the digits, and blanks, where capital letters stand for small ones. -/
def Spells (digest text : String) : Prop :=
  ∃ before name digits after, text.toList = before ++ (name ++ digits) ++ after ∧
    (∀ c ∈ before, isBlank c = true) ∧ (∀ c ∈ after, isBlank c = true) ∧
    (name = [] ∨ name.map Char.toLower = algorithmName) ∧
    digits.map Char.toLower = digest.toList

/-- Whether a text is a digest in base sixteen, in small letters. -/
def IsHexDigest (digest : String) : Prop :=
  digest ≠ "" ∧ ∀ c ∈ digest.toList, ∃ digit < 16, c = hexDigit digit

/-- The pairs of spellings that are compared as their canonical ones. If both have a name that is
not in small letters, something must follow one of them. If one of them has, they must not have one
canonical spelling, and that of the other must not be the name with that of the first behind it. -/
structure Tolerated (got recorded : String) : Prop where
  both : NamedInCapitals got → NamedInCapitals recorded →
    canonicalDigest got ≠ "" ∨ canonicalDigest recorded ≠ ""
  first : NamedInCapitals got → ¬ NamedInCapitals recorded →
    canonicalDigest recorded ≠ "sha256:" ++ canonicalDigest got ∧ ¬ SameCanonical got recorded
  second : ¬ NamedInCapitals got → NamedInCapitals recorded →
    canonicalDigest got ≠ "sha256:" ++ canonicalDigest recorded ∧ ¬ SameCanonical got recorded

variable {digest text got recorded : String}

-- ════════════════════════════════════════════════════════════════════════
-- What is compared
-- ════════════════════════════════════════════════════════════════════════

/-- The name is one of small letters, digits and a mark. -/
theorem plain_algorithmName : ∀ c ∈ algorithmName, IsOwnSmall c ∧ isBlank c = false :=
  List.all_iff_forall_prop.mp (by decide)

theorem ascii_algorithmName : ∀ c ∈ algorithmName, c.toNat < 0x80 :=
  fun c hc => (plain_algorithmName c hc).1.1

theorem ascii_of_map_toLower {cs small : List Char} (hsmall : ∀ c ∈ small, c.toNat < 0x80)
    (h : cs.map Char.toLower = small) : ∀ c ∈ cs, c.toNat < 0x80 :=
  fun _ hc => ascii_of_toLower (hsmall _ (h ▸ List.mem_map_of_mem hc))

/-- A name that is not in small letters, and what follows it. -/
theorem namedInCapitals_iff :
    NamedInCapitals digest ↔ ∃ name rest, stripChars digest.toList = name ++ rest ∧
      name.map Char.toLower = algorithmName ∧ name ≠ algorithmName := by
  constructor
  · intro h
    exact ⟨_, _, (List.take_append_drop algorithmName.length _).symm, h⟩
  · rintro ⟨name, rest, hdigest, hname⟩
    have hlength : algorithmName.length = name.length := by rw [← hname.1, List.length_map]
    rw [NamedInCapitals, hdigest, hlength, List.take_left]
    exact hname

/-- Digits and marks are small letters of themselves alone. -/
theorem eq_of_toLower {c small : Char} (hsmall : small ∈ ['6', ':']) (h : c.toLower = small) :
    c = small := by
  have hascii : c.toNat < 0x80 := by
    refine ascii_of_toLower ?_
    rw [h]
    rcases List.mem_pair.mp hsmall with rfl | rfl <;> decide
  subst h
  exact forall_ascii (P := fun c => c.toLower ∈ ['6', ':'] → c = c.toLower) (by decide) hascii
    hsmall

/-- No letter stands behind the number in the name. -/
theorem meetsCased_reverse_name {name : List Char}
    (hname : name.map Char.toLower = algorithmName) : meetsCased name.reverse = false := by
  obtain ⟨front, back, rfl, -, hback⟩ := List.map_eq_append_iff.mp
    (hname.trans (show algorithmName = "sha25".toList ++ ['6', ':'] from rfl))
  obtain ⟨number, _, rfl, hnumber, hback⟩ := List.map_eq_cons_iff.mp hback
  obtain ⟨mark, _, rfl, hmark, hback⟩ := List.map_eq_cons_iff.mp hback
  rw [eq_of_toLower (by decide) hnumber, eq_of_toLower (by decide) hmark,
    List.map_eq_nil_iff.mp hback, List.reverse_append]
  change meetsCased (':' :: '6' :: front.reverse) = false
  rw [meetsCased, if_pos (by decide +kernel), meetsCased, if_neg (by decide +kernel)]
  decide +kernel

/-- The small letters of the name with something behind it. -/
theorem lowerFrom_name {name : List Char} (hname : name.map Char.toLower = algorithmName)
    (rest : List Char) : lowerFrom [] (name ++ rest) = algorithmName ++ lowerFrom [] rest := by
  rw [lowerFrom_append_of_ascii (ascii_of_map_toLower ascii_algorithmName hname), hname,
    ← List.nil_append (name.reverse ++ []), List.append_nil,
    lowerFrom_append_context (meetsCased_reverse_name hname)]

theorem toList_canonicalDigest (digest : String) :
    (canonicalDigest digest).toList =
      (afterStart? algorithmName (lowerFrom [] (stripChars digest.toList))).getD
        (lowerFrom [] (stripChars digest.toList)) := by
  simp only [canonicalDigest, lower, strip, String.toList_ofList]

theorem toList_bareDigest (digest : String) :
    (bareDigest digest).toList =
      lowerFrom [] ((afterStart? algorithmName (stripChars digest.toList)).getD
        (stripChars digest.toList)) := by
  rw [bareDigest, lower, String.toList_ofList, String.toList_ofList]
  rfl

/-- Behind the name in any letters stands the canonical spelling. -/
theorem canonicalDigest_of_name {name rest : List Char}
    (hdigest : stripChars digest.toList = name ++ rest)
    (hname : name.map Char.toLower = algorithmName) :
    (canonicalDigest digest).toList = lowerFrom [] rest := by
  rw [toList_canonicalDigest, hdigest, lowerFrom_name hname]
  rw [afterStart?_eq_some_iff.mpr rfl, Option.getD_some]

/-- What is compared is the canonical spelling. A name that is not in small letters stays in front
of it. -/
theorem bareDigest_eq (digest : String) :
    bareDigest digest =
      if NamedInCapitals digest then "sha256:" ++ canonicalDigest digest
      else canonicalDigest digest := by
  refine String.toList_injective ?_
  rw [toList_bareDigest]
  split_ifs with hcapitals
  · obtain ⟨name, rest, hdigest, hname, hne⟩ := namedInCapitals_iff.mp hcapitals
    have hstays : afterStart? algorithmName (name ++ rest) = none := by
      refine Option.eq_none_iff_forall_ne_some.mpr fun tail htail => ?_
      have hlength : name.length = algorithmName.length := by rw [← hname, List.length_map]
      exact hne (List.append_inj (afterStart?_eq_some_iff.mp htail) hlength).1
    rw [String.toList_append, canonicalDigest_of_name hdigest hname]
    rw [hdigest, hstays, Option.getD_none, lowerFrom_name hname]
    rfl
  · cases hstart : afterStart? algorithmName (stripChars digest.toList) with
    | some rest =>
      rw [canonicalDigest_of_name (afterStart?_eq_some_iff.mp hstart) (by decide), Option.getD_some]
    | none =>
      rw [toList_canonicalDigest]
      cases hsmall : afterStart? algorithmName (lowerFrom [] (stripChars digest.toList)) with
      | none => rw [Option.getD_none, Option.getD_none]
      | some tail =>
        obtain ⟨name, rest, hdigest, hname⟩ := eq_append_of_lowerFrom
          (fun c hc => (plain_algorithmName c hc).1) (afterStart?_eq_some_iff.mp hsmall)
        -- a name in small letters would have been found
        have hne : name ≠ algorithmName := by
          rintro rfl
          rw [hdigest, afterStart?_eq_some_iff.mpr rfl] at hstart
          cases hstart
        exact absurd (namedInCapitals_iff.mpr ⟨name, rest, hdigest, hname, hne⟩) hcapitals

-- ════════════════════════════════════════════════════════════════════════
-- Spellings of one digest
-- ════════════════════════════════════════════════════════════════════════

/-- What has small letters without blanks has no blanks itself. -/
theorem not_blank_of_map_toLower {cs small : List Char}
    (hsmall : ∀ c ∈ small, c.toNat < 0x80 ∧ isBlank c = false) (h : cs.map Char.toLower = small) :
    ∀ c ∈ cs, isBlank c = false := by
  intro c hc
  obtain ⟨hascii, hblank⟩ := hsmall _ (h ▸ List.mem_map_of_mem hc)
  exact forall_ascii (P := fun c => isBlank c.toLower = false → isBlank c = false) (by decide)
    (ascii_of_toLower hascii) hblank

theorem IsHexDigest.plain (h : IsHexDigest digest) :
    ∀ c ∈ digest.toList, c.toNat < 0x80 ∧ isBlank c = false := by
  intro c hc
  obtain ⟨digit, hlt, rfl⟩ := h.2 c hc
  exact (show ∀ digit < 16, (hexDigit digit).toNat < 0x80 ∧ isBlank (hexDigit digit) = false by
    decide) digit hlt

theorem IsHexDigest.afterStart?_name (h : IsHexDigest digest) :
    afterStart? algorithmName digest.toList = none := by
  refine Option.eq_none_iff_forall_ne_some.mpr fun rest hrest => ?_
  have hmark : ':' ∈ digest.toList := by
    rw [afterStart?_eq_some_iff.mp hrest]
    exact List.mem_append_left _ (by decide)
  obtain ⟨digit, hlt, heq⟩ := h.2 ':' hmark
  exact absurd heq ((show ∀ digit < 16, ':' ≠ hexDigit digit by decide) digit hlt)

/-- All spellings of a digest have one canonical spelling: the digest. -/
theorem canonicalDigest_of_spells (hdigest : IsHexDigest digest) (h : Spells digest text) :
    canonicalDigest text = digest := by
  obtain ⟨before, name, digits, after, htext, hbefore, hafter, hname, hdigits⟩ := h
  have hascii := ascii_of_map_toLower (fun c hc => (hdigest.plain c hc).1) hdigits
  have hsmall : lowerFrom [] digits = digest.toList := by rw [lowerFrom_of_ascii hascii, hdigits]
  have hplain : ∀ c ∈ name ++ digits, isBlank c = false := by
    intro c hc
    rcases List.mem_append.mp hc with hc | hc
    · rcases hname with rfl | hname
      · cases hc
      · refine not_blank_of_map_toLower (fun c hc => ?_) hname c hc
        exact ⟨ascii_algorithmName c hc, (plain_algorithmName c hc).2⟩
    · exact not_blank_of_map_toLower hdigest.plain hdigits c hc
  have hstrip : stripChars text.toList = name ++ digits := by
    rw [htext, stripChars_append_blanks hbefore hplain hafter]
  refine String.toList_injective ?_
  rcases hname with rfl | hname
  · rw [toList_canonicalDigest, hstrip, List.nil_append, hsmall, hdigest.afterStart?_name,
      Option.getD_none]
  · rw [canonicalDigest_of_name hstrip hname, hsmall]

-- ════════════════════════════════════════════════════════════════════════
-- Comparing spellings
-- ════════════════════════════════════════════════════════════════════════

theorem sameDigest_iff :
    sameDigest got recorded = true ↔
      bareDigest recorded ≠ "" ∧ bareDigest got = bareDigest recorded := by
  rw [sameDigest, Bool.and_eq_true, Bool.not_eq_true', String.isEmpty_eq_false_iff, beq_iff_eq]

theorem sameDigest_comm : sameDigest got recorded = true ↔ sameDigest recorded got = true := by
  rw [sameDigest_iff, sameDigest_iff, eq_comm]
  exact and_congr_left fun heq => by rw [heq]

theorem sameDigest_trans {other : String} (h : sameDigest got recorded = true)
    (h' : sameDigest recorded other = true) : sameDigest got other = true := by
  obtain ⟨-, heq⟩ := sameDigest_iff.mp h
  obtain ⟨hne, heq'⟩ := sameDigest_iff.mp h'
  exact sameDigest_iff.mpr ⟨hne, heq.trans heq'⟩

theorem named_ne_empty (s : String) : "sha256:" ++ s ≠ "" := by
  simp [String.append_eq_empty_iff]

theorem named_ne_self (s : String) : "sha256:" ++ s ≠ s := by
  intro heq
  have hlength := congrArg String.length heq
  rw [String.length_append] at hlength
  exact absurd hlength (by simp)

/-- Two names that are not in small letters do not matter. -/
theorem sameDigest_of_both (hgot : NamedInCapitals got) (hrecorded : NamedInCapitals recorded) :
    sameDigest got recorded = true ↔ canonicalDigest got = canonicalDigest recorded := by
  rw [sameDigest_iff, bareDigest_eq, bareDigest_eq, if_pos hgot, if_pos hrecorded,
    and_iff_right (named_ne_empty _), ← String.toList_inj, String.toList_append,
    String.toList_append, List.append_right_inj, String.toList_inj]

theorem sameDigest_of_neither (hgot : ¬ NamedInCapitals got)
    (hrecorded : ¬ NamedInCapitals recorded) :
    sameDigest got recorded = true ↔ SameCanonical got recorded := by
  rw [sameDigest_iff, bareDigest_eq, bareDigest_eq, if_neg hgot, if_neg hrecorded, and_comm]
  rfl

/-- A single name that is not in small letters is taken for a part of the digest. -/
theorem sameDigest_of_first (hgot : NamedInCapitals got) (hrecorded : ¬ NamedInCapitals recorded) :
    sameDigest got recorded = true ↔
      canonicalDigest recorded = "sha256:" ++ canonicalDigest got := by
  rw [sameDigest_iff, bareDigest_eq, bareDigest_eq, if_pos hgot, if_neg hrecorded, eq_comm]
  exact and_iff_right_of_imp fun heq => heq ▸ named_ne_empty _

theorem not_named_and_sameCanonical :
    ¬ (canonicalDigest recorded = "sha256:" ++ canonicalDigest got ∧
      SameCanonical got recorded) := by
  rintro ⟨hnamed, hsame, -⟩
  exact named_ne_self _ (hnamed.symm.trans hsame.symm)

theorem sameCanonical_comm : SameCanonical got recorded ↔ SameCanonical recorded got := by
  rw [SameCanonical, SameCanonical, eq_comm]
  exact and_congr_right fun heq => by rw [heq]

/-- Where one spelling alone has a name that is not in small letters, it does not matter only if the
two differ by the rule and by their canonical spellings. -/
theorem tolerated_of_first (hgot : NamedInCapitals got) (hrecorded : ¬ NamedInCapitals recorded) :
    (sameDigest got recorded = true ↔ SameCanonical got recorded) ↔
      canonicalDigest recorded ≠ "sha256:" ++ canonicalDigest got ∧
        ¬ SameCanonical got recorded := by
  rw [sameDigest_of_first hgot hrecorded]
  constructor
  · intro hiff
    exact ⟨fun hnamed => not_named_and_sameCanonical ⟨hnamed, hiff.mp hnamed⟩,
      fun hsame => not_named_and_sameCanonical ⟨hiff.mpr hsame, hsame⟩⟩
  · rintro ⟨hnamed, hsame⟩
    exact iff_of_false hnamed hsame

theorem tolerated_iff :
    Tolerated got recorded ↔ (sameDigest got recorded = true ↔ SameCanonical got recorded) := by
  by_cases hgot : NamedInCapitals got
  · by_cases hrecorded : NamedInCapitals recorded
    · rw [sameDigest_of_both hgot hrecorded]
      constructor
      · intro h
        refine ⟨fun heq => ⟨heq, fun hempty => ?_⟩, And.left⟩
        exact (h.both hgot hrecorded).elim (fun hne => hne (heq.trans hempty)) fun hne => hne hempty
      · intro hiff
        refine ⟨fun _ _ => ?_, fun _ h' => absurd hrecorded h', fun h' => absurd hgot h'⟩
        by_contra hempty
        obtain ⟨hempty, hempty'⟩ := not_or.mp hempty
        rw [not_not] at hempty hempty'
        exact (hiff.mp (hempty.trans hempty'.symm)).2 hempty'
    · rw [tolerated_of_first hgot hrecorded]
      exact ⟨fun h => h.first hgot hrecorded,
        fun h => ⟨fun _ h' => absurd h' hrecorded, fun _ _ => h, fun h' => absurd hgot h'⟩⟩
  · by_cases hrecorded : NamedInCapitals recorded
    · rw [sameDigest_comm, sameCanonical_comm, tolerated_of_first hrecorded hgot,
        sameCanonical_comm]
      exact ⟨fun h => h.second hgot hrecorded,
        fun h => ⟨fun h' => absurd h' hgot, fun h' => absurd h' hgot, fun _ _ => h⟩⟩
    · exact iff_of_true
        ⟨fun h' => absurd h' hgot, fun h' => absurd h' hgot, fun _ h' => absurd h' hrecorded⟩
        (sameDigest_of_neither hgot hrecorded)

/-- Spellings of one digest in base sixteen agree exactly where both of them or none has a name that
is not in small letters. -/
theorem sameDigest_of_spells (hdigest : IsHexDigest digest) (hgot : Spells digest got)
    (hrecorded : Spells digest recorded) :
    sameDigest got recorded = true ↔ (NamedInCapitals got ↔ NamedInCapitals recorded) := by
  have hcanonical := canonicalDigest_of_spells hdigest hgot
  have hcanonical' := canonicalDigest_of_spells hdigest hrecorded
  by_cases hnamed : NamedInCapitals got <;> by_cases hnamed' : NamedInCapitals recorded
  · rw [sameDigest_of_both hnamed hnamed', hcanonical, hcanonical']
    exact iff_of_true rfl (iff_of_true hnamed hnamed')
  · rw [sameDigest_of_first hnamed hnamed', hcanonical, hcanonical']
    exact iff_of_false (named_ne_self digest).symm fun h => hnamed' (h.mp hnamed)
  · rw [sameDigest_comm, sameDigest_of_first hnamed' hnamed, hcanonical, hcanonical']
    exact iff_of_false (named_ne_self digest).symm fun h => hnamed (h.mpr hnamed')
  · rw [sameDigest_of_neither hnamed hnamed', SameCanonical, hcanonical, hcanonical']
    exact iff_of_true ⟨rfl, hdigest.1⟩ (iff_of_false hnamed hnamed')

/-- Spellings agree exactly where they have one canonical spelling that is not empty, if the pair is
tolerated, and only then. Spellings of one digest in base sixteen have one canonical spelling, and
agree exactly where both of them or none has a name that is not in small letters. Agreeing does not
depend on the order, and passes on from one pair to the next. -/
theorem sameDigest_tolerant_iff (got recorded : String) :
    ((sameDigest got recorded = true ↔ SameCanonical got recorded) ↔ Tolerated got recorded) ∧
    (∀ digest, IsHexDigest digest → Spells digest got → Spells digest recorded →
      SameCanonical got recorded ∧
      (sameDigest got recorded = true ↔ (NamedInCapitals got ↔ NamedInCapitals recorded))) ∧
    (sameDigest got recorded = true ↔ sameDigest recorded got = true) ∧
    ∀ other, sameDigest got recorded = true → sameDigest recorded other = true →
      sameDigest got other = true := by
  refine ⟨tolerated_iff.symm, fun digest hdigest hgot hrecorded => ⟨?_, ?_⟩, sameDigest_comm,
    fun other => sameDigest_trans⟩
  · have hcanonical := canonicalDigest_of_spells hdigest hgot
    have hcanonical' := canonicalDigest_of_spells hdigest hrecorded
    exact ⟨hcanonical.trans hcanonical'.symm, hcanonical' ▸ hdigest.1⟩
  · exact sameDigest_of_spells hdigest hgot hrecorded

/-- Blanks and capital letters, those in the name included, do not matter. -/
theorem sameDigest_tolerant_of_capitals :
    IsHexDigest "ab" ∧ Spells "ab" "Sha256:AB" ∧ Spells "ab" " SHA256:aB\n" ∧
      sameDigest "Sha256:AB" " SHA256:aB\n" = true := by
  have hdigest : IsHexDigest "ab" := ⟨by decide, List.all_iff_forall_prop.mp (by decide)⟩
  have hgot : Spells "ab" "Sha256:AB" :=
    ⟨[], "Sha256:".toList, ['A', 'B'], [], by decide, nofun, nofun, by decide, by decide⟩
  have hrecorded : Spells "ab" " SHA256:aB\n" :=
    ⟨[' '], "SHA256:".toList, ['a', 'B'], ['\n'], by decide,
      List.forall_mem_singleton.mpr (by decide), List.forall_mem_singleton.mpr (by decide),
      by decide, by decide⟩
  refine ⟨hdigest, hgot, hrecorded, ?_⟩
  have hsame := ((sameDigest_tolerant_iff "Sha256:AB" " SHA256:aB\n").2.1 "ab" hdigest hgot
    hrecorded).2
  exact hsame.mpr (iff_of_true (by decide) (by decide))

/-- A name that is not in small letters is not tolerated on one side alone. -/
theorem sameDigest_not_tolerant :
    SameCanonical "SHA256:AB" "ab" ∧ ¬ sameDigest "SHA256:AB" "ab" = true := by
  refine ⟨⟨?_, ?_⟩, ?_⟩
  · decide +kernel
  · decide +kernel
  · decide +kernel

end TwoStage
