import Mathlib.Algebra.Group.Nat.Defs
import TwoStage.Json.Shown
import TwoStage.Proofs.Json.LongIntegers

/-!
# Values that messages can show

A value cannot be shown where an integer in it is too long to be written. No such value is read from
a text, since the reader takes no more digits than are written.

## Main definitions

- `Json.Shows` — a part of the reader gives what can be shown

## Main statements

- `Json.areShowable_iff`, `Json.membersAreShowable_iff` — items and members one by one
- `Json.isShowable_of_read` — what is read from a text can be shown
- `Json.isWritable_eq_false_iff` — the integers that cannot be written, by their size
-/

namespace TwoStage.Json

theorem areShowable_iff {items : List Json} :
    areShowable items = true ↔ ∀ item ∈ items, item.isShowable = true := by
  induction items with
  | nil => simp [areShowable]
  | cons item rest ih => rw [areShowable, Bool.and_eq_true, ih, List.forall_mem_cons]

theorem membersAreShowable_iff {members : List (String × Json)} :
    membersAreShowable members = true ↔ ∀ member ∈ members, member.2.isShowable = true := by
  induction members with
  | nil => simp [membersAreShowable]
  | cons member rest ih => rw [membersAreShowable, Bool.and_eq_true, ih, List.forall_mem_cons]

theorem isShowable_arr_iff {items : List Json} :
    (arr items).isShowable = true ↔ ∀ item ∈ items, item.isShowable = true := by
  rw [isShowable, areShowable_iff]

theorem isShowable_obj_iff {members : List (String × Json)} :
    (obj members).isShowable = true ↔ ∀ member ∈ members, member.2.isShowable = true := by
  rw [isShowable, membersAreShowable_iff]

/-- An integer is too long to be written from a power of ten on. -/
theorem isWritable_eq_false_iff {n : Int} :
    isWritable n = false ↔ 10 ^ integerDigitLimit ≤ n.natAbs := by
  rw [isWritable, decide_eq_false_iff_not, Nat.length_toDigits_le_iff (by decide) (by decide),
    not_lt]

-- ════════════════════════════════════════════════════════════════════════
-- What is read
-- ════════════════════════════════════════════════════════════════════════

/-- What a part of the reader gives, if it gives a value, can be shown. -/
def Shows (step : Step Json) : Prop :=
  ∀ value rest, step = .ok (value, rest) → value.isShowable = true

theorem shows_ok_iff {value : Json} {rest : List Char} :
    Shows (.ok (value, rest)) ↔ value.isShowable = true := by
  constructor
  · exact fun h => h value rest rfl
  · rintro h _ _ ⟨⟩
    exact h

theorem shows_error (stop : Stop) : Shows (.error stop) := nofun

/-- Bound values can be shown if those before can and the new one can. -/
theorem forall_isShowable_put {done : Bindings Json} {value : Json}
    (hdone : ∀ member ∈ done, member.2.isShowable = true) (hvalue : value.isShowable = true)
    (name : String) : ∀ member ∈ done.put name value, member.2.isShowable = true := by
  induction done with
  | nil => simpa [Bindings.put] using hvalue
  | cons binding rest ih =>
    rw [List.forall_mem_cons] at hdone
    rw [Bindings.put]
    split
    · exact List.forall_mem_cons.mpr ⟨hvalue, hdone.2⟩
    · exact List.forall_mem_cons.mpr ⟨hdone.1, ih hdone.2⟩

/-- Decimal digits stand for a number below the power of ten of their length. -/
theorem decimalValue_lt {digits : List Char} (h : ∀ c ∈ digits, isDecimal c = true) :
    decimalValue digits < 10 ^ digits.length := by
  have hdigit : ∀ c, isDecimal c = true → c.toNat - 0x30 < 10 := by
    intro c hc
    simp only [isDecimal, Bool.and_eq_true, decide_eq_true_eq] at hc
    have hle : c.toNat ≤ '9'.toNat := hc.2
    have hnine : '9'.toNat = 0x39 := rfl
    omega
  suffices hall : ∀ (digits : List Char) (before : Nat), (∀ c ∈ digits, isDecimal c = true) →
      digits.foldl (fun n c => 10 * n + (c.toNat - 0x30)) before <
        (before + 1) * 10 ^ digits.length by
    simpa [decimalValue] using hall digits 0 h
  intro digits
  induction digits with
  | nil => intro before _; simp
  | cons c rest ih =>
    intro before hrun
    rw [List.forall_mem_cons] at hrun
    rw [List.foldl_cons, List.length_cons]
    calc _ < (10 * before + (c.toNat - 0x30) + 1) * 10 ^ rest.length := ih _ hrun.2
      _ ≤ (before + 1) * 10 * 10 ^ rest.length := by
        have := hdigit c hrun.1
        exact Nat.mul_le_mul_right _ (by omega)
      _ = (before + 1) * 10 ^ (rest.length + 1) := by
        rw [Nat.pow_succ, Nat.mul_assoc, Nat.mul_comm 10]

theorem shows_numberFrom (start : List Char) (negative : Bool) (cs : List Char) :
    Shows (numberFrom start negative cs) := by
  rw [numberFrom]
  cases hwhole : wholeFrom cs with
  | none => exact shows_error _
  | some found =>
    obtain ⟨whole, after⟩ := found
    obtain ⟨-, hdigits⟩ := wholeFrom_eq_some hwhole
    dsimp only
    split
    · by_cases hlong : integerDigitLimit < whole.length
      · rw [if_pos hlong]
        exact shows_error _
      · rw [if_neg hlong, shows_ok_iff, isShowable, ← Bool.not_eq_false, isWritable_eq_false_iff,
          not_le]
        have hpow : 10 ^ whole.length ≤ 10 ^ integerDigitLimit :=
          Nat.pow_le_pow_right (by decide) (not_lt.mp hlong)
        have hsize := decimalValue_lt hdigits
        cases negative with
        | true => simpa using hsize.trans_le hpow
        | false => simpa using hsize.trans_le hpow
    · exact shows_ok_iff.mpr rfl

theorem shows_scalarFrom (cs : List Char) : Shows (scalarFrom cs) := by
  fun_cases scalarFrom cs with
  | case1 value rest hword =>
    obtain ⟨⟨word, meant⟩, hmem, hfound⟩ := List.exists_of_findSome?_eq_some hword
    dsimp only at hfound
    split_ifs at hfound
    obtain ⟨rfl, -⟩ := Prod.mk.inj (Option.some.inj hfound)
    have hall : ∀ meant ∈ wordValues, meant.2.isShowable = true := by decide
    exact shows_ok_iff.mpr (hall _ hmem)
  | case2 rest hword => exact shows_numberFrom _ _ _
  | case3 hword hsign => exact shows_numberFrom _ _ _

/-- The reader with some fuel gives what can be shown, if all that was read before can be. -/
structure ShowsWithin (fuel : Nat) : Prop where
  value : ∀ cs, Shows (valueFrom fuel cs)
  items : ∀ done cs, (∀ item ∈ done, item.isShowable = true) → Shows (itemsFrom fuel done cs)
  members : ∀ done cs, (∀ member ∈ done, member.2.isShowable = true) →
    Shows (membersFrom fuel done cs)

theorem shows_valueFrom {fuel : Nat} (ih : ShowsWithin fuel) (cs : List Char) :
    Shows (valueFrom (fuel + 1) cs) := by
  unfold valueFrom
  split
  · split
    · exact shows_error _
    · exact shows_ok_iff.mpr rfl
  · split
    · exact shows_ok_iff.mpr rfl
    · exact ih.items _ _ (List.forall_mem_nil _)
  · split
    · exact shows_ok_iff.mpr rfl
    · exact ih.members _ _ (List.forall_mem_nil _)
  · exact shows_scalarFrom cs

theorem shows_itemsFrom {fuel : Nat} (ih : ShowsWithin fuel) {done : List Json} (cs : List Char)
    (hdone : ∀ item ∈ done, item.isShowable = true) : Shows (itemsFrom (fuel + 1) done cs) := by
  unfold itemsFrom
  split
  · exact shows_error _
  · next item rest hitem =>
    have hall : ∀ value ∈ item :: done, value.isShowable = true :=
      List.forall_mem_cons.mpr ⟨ih.value cs item rest hitem, hdone⟩
    split
    · rw [shows_ok_iff, isShowable_arr_iff]
      simpa only [List.mem_reverse] using hall
    · exact ih.items _ _ hall
    · exact shows_error _

theorem shows_membersFrom {fuel : Nat} (ih : ShowsWithin fuel) {done : Bindings Json}
    (cs : List Char) (hdone : ∀ member ∈ done, member.2.isShowable = true) :
    Shows (membersFrom (fuel + 1) done cs) := by
  unfold membersFrom
  split
  · split
    · exact shows_error _
    · split
      · split
        · exact shows_error _
        · next value rest hvalue =>
          have hall := forall_isShowable_put hdone (ih.value _ value rest hvalue)
          split
          · exact shows_ok_iff.mpr (isShowable_obj_iff.mpr (hall _))
          · exact ih.members _ _ (hall _)
          · exact shows_error _
      · exact shows_error _
  · exact shows_error _

theorem showsWithin (fuel : Nat) : ShowsWithin fuel := by
  induction fuel with
  | zero => exact ⟨fun _ => shows_error _, fun _ _ _ => shows_error _, fun _ _ _ => shows_error _⟩
  | succ fuel ih =>
    exact ⟨shows_valueFrom ih, fun _ => shows_itemsFrom ih, fun _ => shows_membersFrom ih⟩

/-- What is read from a text can be shown. -/
theorem isShowable_of_read {s : String} {value : Json} (h : read s = .ok value) :
    value.isShowable = true := by
  rw [read] at h
  split at h
  · next found hread =>
    cases h
    unfold readChars at hread
    split at hread
    · cases hread
    · split at hread
      · cases hread
      · next rest hvalue =>
        split at hread
        · cases hread
          exact (showsWithin _).value _ _ _ hvalue
        · cases hread
  · cases h
  · cases h

end TwoStage.Json
