import Mathlib.Data.List.Infix
import Mathlib.Tactic.SplitIfs
import TwoStage.Json.Reader

/-!
# Integers that are too long

Every part of the reader leaves a last part of the characters that it gets, so that the digits of an
integer that is refused for its length are a run of digits of the text.

## Main definitions

- `Json.LongRun` — characters with a run of decimal digits of some length above the limit
- `Json.Stays` — what a part of the reader may do with the characters that it gets

## Main statements

- `Json.longRun_of_read` — a text that is refused for a long integer has a run of its digits
-/

namespace TwoStage.Json

/-- Characters with a run of `length` decimal digits, more than an integer may have. -/
def LongRun (length : Nat) (cs : List Char) : Prop :=
  integerDigitLimit < length ∧
    ∃ digits, digits <:+: cs ∧ digits.length = length ∧ ∀ c ∈ digits, isDecimal c = true

/-- What a part of the reader does stays within the characters `cs`: it leaves a last part of them,
and refuses an integer only for the length of a run of their digits. -/
def Stays {α : Type} (cs : List Char) : Step α → Prop
  | .ok (_, rest) => rest <:+ cs
  | .error (.longInteger length) => LongRun length cs
  | .error (.complaint _ _) => True

section

variable {α : Type} {cs more : List Char}

theorem LongRun.of_suffix {length : Nat} (h : LongRun length cs) (hsuffix : cs <:+ more) :
    LongRun length more := by
  obtain ⟨hlong, digits, hdigits, hrun⟩ := h
  exact ⟨hlong, digits, hdigits.trans hsuffix.isInfix, hrun⟩

theorem Stays.of_suffix {step : Step α} (h : Stays cs step) (hsuffix : cs <:+ more) :
    Stays more step := by
  cases step with
  | ok result => exact h.trans hsuffix
  | error stop =>
    cases stop with
    | complaint what left => trivial
    | longInteger length => exact LongRun.of_suffix h hsuffix

theorem Stays.error {β : Type} {stop : Stop} (h : Stays cs (.error stop : Step α)) :
    Stays cs (.error stop : Step β) := by
  cases stop with
  | complaint what left => trivial
  | longInteger length => exact h

end

theorem skipSpace_suffix (cs : List Char) : skipSpace cs <:+ cs := List.dropWhile_suffix _

/-- What is behind the first character that is no blank is a last part. -/
theorem suffix_of_skipSpace {cs rest after : List Char} {c : Char}
    (h : skipSpace rest = c :: after) (hrest : rest <:+ cs) : after <:+ cs := by
  have hskip := skipSpace_suffix rest
  rw [h] at hskip
  exact ((List.suffix_cons _ _).trans hskip).trans hrest

-- ════════════════════════════════════════════════════════════════════════
-- Strings, numbers and words
-- ════════════════════════════════════════════════════════════════════════

theorem stays_stringFrom (opening : List Char) (half : Option Nat) (done cs : List Char) :
    Stays cs (stringFrom opening half done cs) := by
  fun_induction stringFrom opening half done cs with
  | case2 half done rest => exact List.suffix_cons _ _
  -- six characters for a unit, two for any other escape, one for what stands for itself
  | case5 | case6 | case7 | case8 | case9 =>
    rename_i ih
    exact ih.of_suffix ⟨[_, _, _, _, _, _], rfl⟩
  | case12 half done c rest hother hc meant hescape ih => exact ih.of_suffix ⟨[_, _], rfl⟩
  | case15 half done c rest hquote hunit hescape hslash hspace ih => exact ih.of_suffix ⟨[_], rfl⟩
  | _ => trivial

theorem fractionFrom_suffix (cs : List Char) : (fractionFrom cs).2 <:+ cs := by
  fun_cases fractionFrom cs with
  | case2 rest digits hempty => exact (List.dropWhile_suffix _).trans (List.suffix_cons _ _)
  | _ => exact List.suffix_refl _

theorem exponentFrom_suffix (cs : List Char) : (exponentFrom cs).2 <:+ cs := by
  fun_cases exponentFrom cs with
  | case2 e rest he negative tail hsign digits hdigits size =>
    have htail : tail <:+ rest := by
      split at hsign <;> cases hsign
      · exact List.suffix_cons _ _
      · exact List.suffix_cons _ _
      · exact List.suffix_refl _
    exact ((List.dropWhile_suffix _).trans htail).trans (List.suffix_cons _ _)
  | _ => exact List.suffix_refl _

theorem wholeFrom_eq_some {cs digits rest : List Char} (h : wholeFrom cs = some (digits, rest)) :
    cs = digits ++ rest ∧ ∀ c ∈ digits, isDecimal c = true := by
  unfold wholeFrom at h
  split at h
  · obtain ⟨rfl, rfl⟩ := Prod.mk.inj (Option.some.inj h)
    refine ⟨rfl, fun c hc => ?_⟩
    rw [List.mem_singleton.mp hc]
    decide
  · dsimp only at h
    split_ifs at h
    obtain ⟨rfl, rfl⟩ := Prod.mk.inj (Option.some.inj h)
    exact ⟨List.takeWhile_append_dropWhile.symm, List.all_eq_true.mp List.all_takeWhile⟩

theorem stays_numberFrom (start : List Char) (negative : Bool) (cs : List Char) :
    Stays cs (numberFrom start negative cs) := by
  rw [numberFrom]
  cases hwhole : wholeFrom cs with
  | none => trivial
  | some found =>
    obtain ⟨whole, after⟩ := found
    obtain ⟨rfl, hdigits⟩ := wholeFrom_eq_some hwhole
    have hrest : (exponentFrom (fractionFrom after).2).2 <:+ whole ++ after :=
      ((exponentFrom_suffix _).trans (fractionFrom_suffix _)).trans (List.suffix_append _ _)
    dsimp only
    split
    · by_cases hlong : integerDigitLimit < whole.length
      · rw [if_pos hlong]
        exact ⟨hlong, whole, (List.prefix_append _ _).isInfix, rfl, hdigits⟩
      · rw [if_neg hlong]
        exact hrest
    · exact hrest

theorem wordFrom?_suffix {cs rest : List Char} {value : Json}
    (h : wordFrom? cs = some (value, rest)) : rest <:+ cs := by
  obtain ⟨⟨word, meant⟩, -, hword⟩ := List.exists_of_findSome?_eq_some h
  dsimp only at hword
  split_ifs at hword
  obtain ⟨-, rfl⟩ := Prod.mk.inj (Option.some.inj hword)
  exact List.drop_suffix _ _

theorem stays_scalarFrom (cs : List Char) : Stays cs (scalarFrom cs) := by
  fun_cases scalarFrom cs with
  | case1 value rest hword => exact wordFrom?_suffix hword
  | case2 rest hword => exact (stays_numberFrom _ _ _).of_suffix (List.suffix_cons _ _)
  | case3 hword hsign => exact stays_numberFrom _ _ _

-- ════════════════════════════════════════════════════════════════════════
-- Values
-- ════════════════════════════════════════════════════════════════════════

/-- The reader with some fuel stays within the characters that it gets. -/
structure StaysWithin (fuel : Nat) : Prop where
  value : ∀ cs, Stays cs (valueFrom fuel cs)
  items : ∀ done cs, Stays cs (itemsFrom fuel done cs)
  members : ∀ done cs, Stays cs (membersFrom fuel done cs)

theorem stays_valueFrom {fuel : Nat} (ih : StaysWithin fuel) (cs : List Char) :
    Stays cs (valueFrom (fuel + 1) cs) := by
  unfold valueFrom
  split
  · next rest =>
    have hstring := stays_stringFrom ('\x22' :: rest) none [] rest
    split
    · next stop hstop =>
      rw [hstop] at hstring
      exact hstring.error.of_suffix (List.suffix_cons _ _)
    · next text after htext =>
      rw [htext] at hstring
      exact List.IsSuffix.trans hstring (List.suffix_cons _ _)
  · next rest =>
    split
    · next after hclose => exact suffix_of_skipSpace hclose (List.suffix_cons _ _)
    · exact (ih.items _ _).of_suffix ((skipSpace_suffix rest).trans (List.suffix_cons _ _))
  · next rest =>
    split
    · next after hclose => exact suffix_of_skipSpace hclose (List.suffix_cons _ _)
    · exact (ih.members _ _).of_suffix ((skipSpace_suffix rest).trans (List.suffix_cons _ _))
  · exact stays_scalarFrom cs

theorem stays_itemsFrom {fuel : Nat} (ih : StaysWithin fuel) (done : List Json) (cs : List Char) :
    Stays cs (itemsFrom (fuel + 1) done cs) := by
  have hvalue := ih.value cs
  unfold itemsFrom
  split
  · next stop hstop =>
    rw [hstop] at hvalue
    exact hvalue.error
  · next item rest hitem =>
    rw [hitem] at hvalue
    split
    · next after hclose => exact suffix_of_skipSpace hclose hvalue
    · next after hcomma =>
      exact (ih.items _ _).of_suffix
        ((skipSpace_suffix after).trans (suffix_of_skipSpace hcomma hvalue))
    · trivial

theorem stays_membersFrom {fuel : Nat} (ih : StaysWithin fuel) (done : Bindings Json)
    (cs : List Char) : Stays cs (membersFrom (fuel + 1) done cs) := by
  unfold membersFrom
  split
  · next rest =>
    have hstring := (stays_stringFrom ('\x22' :: rest) none [] rest).of_suffix
      (List.suffix_cons '\x22' rest)
    split
    · next stop hstop =>
      rw [hstop] at hstring
      exact hstring.error
    · next name after hname =>
      rw [hname] at hstring
      split
      · next behind hcolon =>
        have hvalue := (ih.value (skipSpace behind)).of_suffix
          ((skipSpace_suffix behind).trans (suffix_of_skipSpace hcolon hstring))
        split
        · next stop hstop =>
          rw [hstop] at hvalue
          exact hvalue.error
        · next value last hlast =>
          rw [hlast] at hvalue
          split
          · next beyond hclose => exact suffix_of_skipSpace hclose hvalue
          · next beyond hcomma =>
            exact (ih.members _ _).of_suffix
              ((skipSpace_suffix beyond).trans (suffix_of_skipSpace hcomma hvalue))
          · trivial
      · trivial
  · trivial

theorem staysWithin (fuel : Nat) : StaysWithin fuel := by
  induction fuel with
  | zero => exact ⟨fun _ => trivial, fun _ _ => trivial, fun _ _ => trivial⟩
  | succ fuel ih => exact ⟨stays_valueFrom ih, stays_itemsFrom ih, stays_membersFrom ih⟩

/-- A text that is refused for a long integer has a run of as many digits. -/
theorem longRun_of_read {s : String} {length : Nat} (h : read s = .error (.longInteger length)) :
    LongRun length s.toList := by
  rw [read] at h
  split at h
  · cases h
  · cases h
  · next digits hread =>
    cases h
    unfold readChars at hread
    split at hread
    · cases hread
    · have hvalue := ((staysWithin (2 * s.toList.length + 2)).value
        (skipSpace s.toList)).of_suffix (skipSpace_suffix s.toList)
      split at hread
      · next stop hstop =>
        cases hread
        rw [hstop] at hvalue
        exact hvalue
      · split at hread <;> cases hread

end TwoStage.Json
