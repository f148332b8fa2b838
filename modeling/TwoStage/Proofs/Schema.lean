import TwoStage.Config
import TwoStage.Proofs.Json.Members
import TwoStage.Proofs.Json.Shown
import TwoStage.Proofs.Spec.Pattern

/-!
# Values that conform to a schema

Conformance to a schema as a relation with one rule for each form of value, apart from the check
that looks for the first violation. The check finds none exactly in the values that conform.

## Main definitions

- `TextShape.language` — the texts of a shape
- `TextRule.Holds` — texts that a rule lets pass
- `Schema.Conforms` — the values of a form

## Main statements

- `Schema.violation?_eq_none_iff` — the check agrees with the relation
- `Config.validate_eq_ok_iff` — so does the check of a configuration
- `Schema.isShowable_of_violation?` — what is wrong in a value that can be shown can be worded
- `Config.parse_eq_ok_iff` — a specification comes from what conforms and is accepted
-/

namespace TwoStage

/-- The texts of a shape. -/
def TextShape.language : TextShape → Language Char
  | absolute => absolutePaths
  | plainPath => plainPaths
  | digest => digests * lineEnd

theorem TextShape.fits_iff {shape : TextShape} {s : String} :
    shape.fits s = true ↔ s.toList ∈ shape.language := by
  cases shape with
  | absolute => exact decide_eq_true_iff.trans head?_eq_slash_iff
  | plainPath => exact isPlainPath_iff
  | digest => exact isDigestLine_iff

/-- The texts that a rule lets pass. -/
def TextRule.Holds : TextRule → String → Prop
  | nonEmpty, s => s ≠ ""
  | not word, s => s ≠ word
  | shape wanted, s => s.toList ∈ wanted.language

namespace Schema

/-- The values of a form: a record has all members that it requires, none that it has no field for,
and each in the form of its field. -/
inductive Conforms : Schema → Json → Prop where
  | text {nullable : Bool} {rules : List TextRule} {s : String} (h : ∀ rule ∈ rules, rule.Holds s) :
    Conforms (text nullable rules) (.str s)
  | noText {rules : List TextRule} : Conforms (text true rules) .null
  | flag (b : Bool) : Conforms flag (.bool b)
  | count {n : Int} (h : 0 ≤ n) : Conforms count (.int n)
  /-- A number without fraction counts as an integer. -/
  | wholeCount {x : Binary64} {n : Int} (hx : x.toInt? = some n) (h : 0 ≤ n) :
    Conforms count (.float x)
  | choice {words : List String} {s : String} (h : s ∈ words) : Conforms (choice words) (.str s)
  | noChoice {words : List String} : Conforms (choice words) .null
  | list {nonEmpty : Bool} {item : Schema} {items : List Json}
    (hne : nonEmpty = true → items ≠ []) (h : ∀ value ∈ items, Conforms item value) :
    Conforms (list nonEmpty item) (.arr items)
  | table {members : List (String × Json)} (h : ∀ member ∈ members, ∃ s, member.2 = .str s) :
    Conforms table (.obj members)
  | record {required : List String} {fields : List (String × Schema)}
    {members : List (String × Json)}
    (hrequired : ∀ name ∈ required, ∃ value, members.lookup name = some value)
    (hknown : ∀ name ∈ members.map Prod.fst, name ∈ fields.map Prod.fst)
    (hfields : ∀ field ∈ fields, ∀ value, members.lookup field.1 = some value →
      Conforms field.2 value) :
    Conforms (record required fields) (.obj members)

-- ════════════════════════════════════════════════════════════════════════
-- Values that conform
-- ════════════════════════════════════════════════════════════════════════

namespace Conforms

variable {value : Json}

theorem exists_text {rules : List TextRule} (h : Conforms (.text false rules) value) :
    ∃ s, value = .str s ∧ ∀ rule ∈ rules, rule.Holds s := by
  cases h with
  | text h => exact ⟨_, rfl, h⟩

theorem null_or_text {rules : List TextRule} (h : Conforms (.text true rules) value) :
    value = .null ∨ ∃ s, value = .str s ∧ ∀ rule ∈ rules, rule.Holds s := by
  cases h with
  | text h => exact Or.inr ⟨_, rfl, h⟩
  | noText => exact Or.inl rfl

theorem exists_flag (h : Conforms .flag value) : ∃ b, value = .bool b := by
  cases h with
  | flag b => exact ⟨b, rfl⟩

theorem null_or_choice {words : List String} (h : Conforms (.choice words) value) :
    value = .null ∨ ∃ s ∈ words, value = .str s := by
  cases h with
  | choice h => exact Or.inr ⟨_, h, rfl⟩
  | noChoice => exact Or.inl rfl

theorem exists_texts {nonEmpty : Bool} {rules : List TextRule}
    (h : Conforms (.list nonEmpty (.text false rules)) value) :
    ∃ texts, value = .ofStrings texts ∧ (nonEmpty = true → texts ≠ []) ∧
      ∀ s ∈ texts, ∀ rule ∈ rules, rule.Holds s := by
  cases h with
  | @list _ _ items hne h =>
    have hitems : ∃ texts : List String, items = texts.map .str ∧
        ∀ s ∈ texts, ∀ rule ∈ rules, rule.Holds s := by
      clear hne
      induction items with
      | nil => exact ⟨[], rfl, by simp⟩
      | cons item rest ih =>
        rw [List.forall_mem_cons] at h
        obtain ⟨s, rfl, hs⟩ := h.1.exists_text
        obtain ⟨texts, rfl, hrest⟩ := ih h.2
        exact ⟨s :: texts, rfl, List.forall_mem_cons.mpr ⟨hs, hrest⟩⟩
    obtain ⟨texts, rfl, hrules⟩ := hitems
    refine ⟨texts, rfl, fun hnonEmpty hnil => ?_, hrules⟩
    exact hne hnonEmpty (by rw [hnil, List.map_nil])

theorem exists_table (h : Conforms .table value) : ∃ bindings, value = .ofBindings bindings := by
  cases h with
  | @table members h =>
    induction members with
    | nil => exact ⟨[], rfl⟩
    | cons member rest ih =>
      rw [List.forall_mem_cons] at h
      obtain ⟨s, hs⟩ := h.1
      obtain ⟨bindings, hrest⟩ := ih h.2
      rw [Json.ofBindings, Json.obj.injEq] at hrest
      refine ⟨(member.1, s) :: bindings, ?_⟩
      rw [Json.ofBindings, List.map_cons, ← hrest]
      exact congrArg Json.obj (congrArg (· :: rest) (Prod.ext rfl hs))

theorem exists_members {required : List String} {fields : List (String × Schema)}
    (h : Conforms (.record required fields) value) : ∃ members, value = .obj members ∧
      (∀ name ∈ required, ∃ inner, members.lookup name = some inner) ∧
      (∀ name ∈ members.map Prod.fst, name ∈ fields.map Prod.fst) ∧
      ∀ field ∈ fields, ∀ inner, members.lookup field.1 = some inner →
        Conforms field.2 inner := by
  cases h with
  | record hrequired hknown hfields => exact ⟨_, rfl, hrequired, hknown, hfields⟩

end Conforms

-- ════════════════════════════════════════════════════════════════════════
-- Parts of the check
-- ════════════════════════════════════════════════════════════════════════

theorem brokenRule?_eq_none_iff {s : String} {rules : List TextRule} :
    brokenRule? s rules = none ↔ ∀ rule ∈ rules, rule.Holds s := by
  induction rules with
  | nil => simp [brokenRule?]
  | cons rule rest ih =>
    rw [List.forall_mem_cons, ← ih]
    cases rule with
    | nonEmpty => by_cases hs : s = "" <;> simp [brokenRule?, TextRule.Holds, hs]
    | not word => by_cases hs : s = word <;> simp [brokenRule?, TextRule.Holds, hs]
    | shape shape =>
      by_cases hs : shape.fits s = true
      · simp [brokenRule?, TextRule.Holds, hs, TextShape.fits_iff.mp hs]
      · simp [brokenRule?, TextRule.Holds, hs, ← TextShape.fits_iff]

theorem nonText?_eq_none_iff {members : List (String × Json)} :
    nonText? members = none ↔ ∀ member ∈ members, ∃ s, member.2 = .str s := by
  induction members with
  | nil => simp [nonText?]
  | cons member rest ih =>
    obtain ⟨name, value⟩ := member
    cases value <;> simp [nonText?, ih]

theorem strayNames_eq_nil_iff {fields : List String} {members : List (String × Json)} :
    strayNames fields members = [] ↔ ∀ name ∈ members.map Prod.fst, name ∈ fields := by
  have hsorted : strayNames fields members = [] ↔
      (members.map Prod.fst).filter (fun name => !fields.contains name) = [] := by
    rw [← List.length_eq_zero_iff, strayNames, List.length_mergeSort, List.length_eq_zero_iff]
  rw [hsorted, List.filter_eq_nil_iff]
  simp

theorem inItems_eq_none_iff {check : Json → Option (Place × Violation)} {items : List Json}
    {index : Nat} : inItems check index items = none ↔ ∀ value ∈ items, check value = none := by
  induction items generalizing index with
  | nil => simp [inItems]
  | cons item rest ih =>
    rw [inItems, List.forall_mem_cons]
    cases hitem : check item with
    | none => simp [ih]
    | some found => simp

theorem find?_required_eq_none_iff {required : List String} {members : List (String × Json)} :
    (required.find? fun name => (members.lookup name).isNone) = none ↔
      ∀ name ∈ required, ∃ value, members.lookup name = some value := by
  rw [List.find?_eq_none]
  refine forall₂_congr fun name _ => ?_
  rw [Option.isNone_iff_eq_none, ← ne_eq, Option.ne_none_iff_exists']

-- ════════════════════════════════════════════════════════════════════════
-- The check, form by form
-- ════════════════════════════════════════════════════════════════════════

section Forms

variable {value : Json}

theorem violation?_text_iff {nullable : Bool} {rules : List TextRule} :
    violation? (text nullable rules) value = none ↔ Conforms (text nullable rules) value := by
  cases value with
  | str s =>
    rw [violation?, Option.map_eq_none_iff, brokenRule?_eq_none_iff]
    exact ⟨.text, fun h => by cases h with | text h => exact h⟩
  | null =>
    cases nullable with
    | true => exact iff_of_true rfl .noText
    | false => exact iff_of_false (by simp [violation?]) (by rintro ⟨⟩)
  | _ => exact iff_of_false (by simp [violation?]) (by rintro ⟨⟩)

theorem violation?_flag_iff : violation? flag value = none ↔ Conforms flag value := by
  cases value with
  | bool b => exact iff_of_true rfl (.flag b)
  | _ => exact iff_of_false (by simp [violation?]) (by rintro ⟨⟩)

theorem violation?_count_iff : violation? count value = none ↔ Conforms count value := by
  cases value with
  | int n =>
    by_cases hn : n < 0
    · exact iff_of_false (by simp [violation?, integer?, hn]) (by rintro ⟨⟩; omega)
    · exact iff_of_true (by simp [violation?, integer?, hn]) (.count (by omega))
  | float x =>
    cases hx : x.toInt? with
    | none => exact iff_of_false (by simp [violation?, integer?, hx]) (by rintro ⟨⟩; simp_all)
    | some n =>
      by_cases hn : n < 0
      · refine iff_of_false (by simp [violation?, integer?, hx, hn]) fun h => ?_
        cases h with
        | wholeCount hm hle =>
          rw [hx, Option.some.injEq] at hm
          omega
      · exact iff_of_true (by simp [violation?, integer?, hx, hn]) (.wholeCount hx (by omega))
  | _ => exact iff_of_false (by simp [violation?, integer?]) (by rintro ⟨⟩)

theorem violation?_choice_iff {words : List String} :
    violation? (choice words) value = none ↔ Conforms (choice words) value := by
  cases value with
  | null => exact iff_of_true rfl .noChoice
  | str s =>
    by_cases hs : s ∈ words
    · exact iff_of_true (by simp [violation?, hs]) (.choice hs)
    · refine iff_of_false (by simp [violation?, hs]) fun h => ?_
      cases h with
      | choice hmem => exact hs hmem
  | _ => exact iff_of_false (by simp [violation?]) (by rintro ⟨⟩)

theorem violation?_table_iff : violation? table value = none ↔ Conforms table value := by
  cases value with
  | obj members =>
    rw [violation?, nonText?_eq_none_iff]
    exact ⟨.table, fun h => by cases h with | table h => exact h⟩
  | _ => exact iff_of_false (by simp [violation?]) (by rintro ⟨⟩)

theorem violation?_list_iff {nonEmpty : Bool} {item : Schema}
    (hitem : ∀ {value}, violation? item value = none ↔ Conforms item value) :
    violation? (list nonEmpty item) value = none ↔ Conforms (list nonEmpty item) value := by
  cases value with
  | arr items =>
    have hitems : inItems (fun v => violation? item v) 0 items = none ↔
        ∀ value ∈ items, Conforms item value :=
      inItems_eq_none_iff.trans (forall₂_congr fun _ _ => hitem)
    rw [violation?]
    split
    · next hempty =>
      refine iff_of_false (by simp) fun h => ?_
      rw [Bool.and_eq_true, List.isEmpty_iff] at hempty
      cases h with
      | list hne _ => exact hne hempty.1 hempty.2
    · next hsome =>
      rw [hitems]
      constructor
      · refine .list fun hne hnil => hsome ?_
        rw [hne, hnil]
        rfl
      · intro h
        cases h with
        | list _ h => exact h
  | _ => exact iff_of_false (by simp [violation?]) (by rintro ⟨⟩)

theorem violation?_record_iff {required : List String} {fields : List (String × Schema)}
    (hfields : ∀ {members}, inFields fields members = none ↔
      ∀ field ∈ fields, ∀ value, members.lookup field.1 = some value → Conforms field.2 value) :
    violation? (record required fields) value = none ↔
      Conforms (record required fields) value := by
  cases value with
  | obj members =>
    have hconforms : Conforms (record required fields) (.obj members) ↔
        (required.find? fun name => (members.lookup name).isNone) = none ∧
          strayNames (fields.map Prod.fst) members = [] ∧ inFields fields members = none := by
      rw [find?_required_eq_none_iff, strayNames_eq_nil_iff, hfields]
      constructor
      · intro h
        cases h with
        | record hrequired hknown hall => exact ⟨hrequired, hknown, hall⟩
      · rintro ⟨hrequired, hknown, hall⟩
        exact .record hrequired hknown hall
    rw [hconforms, violation?]
    split
    · next hmissing => simp [hmissing]
    · next hthere =>
      split
      · next hnone => simp [hthere, hnone]
      · next hstray => exact iff_of_false (by simp) fun h => hstray h.2.1
  | _ => exact iff_of_false (by simp [violation?]) (by rintro ⟨⟩)

end Forms

mutual

/-- The check finds no violation exactly in the values that conform. -/
theorem violation?_eq_none_iff :
    ∀ {schema : Schema} {value : Json}, violation? schema value = none ↔ Conforms schema value
  | text _ _, _ => violation?_text_iff
  | flag, _ => violation?_flag_iff
  | count, _ => violation?_count_iff
  | choice _, _ => violation?_choice_iff
  | list _ _, _ => violation?_list_iff violation?_eq_none_iff
  | table, _ => violation?_table_iff
  | record _ _, _ => violation?_record_iff inFields_eq_none_iff

theorem inFields_eq_none_iff :
    ∀ {fields : List (String × Schema)} {members : List (String × Json)},
      inFields fields members = none ↔
        ∀ field ∈ fields, ∀ value, members.lookup field.1 = some value → Conforms field.2 value
  | [], members => by simp [inFields]
  | (name, schema) :: rest, members => by
    rw [inFields, List.forall_mem_cons, ← @inFields_eq_none_iff rest members]
    cases hlookup : members.lookup name with
    | none => simp
    | some value =>
      have hvalue := @violation?_eq_none_iff schema value
      cases hfound : violation? schema value with
      | none => simp [← hvalue, hfound]
      | some found => simp [← hvalue, hfound]

end

-- ════════════════════════════════════════════════════════════════════════
-- Violations that can be worded
-- ════════════════════════════════════════════════════════════════════════

section Wording

variable {value : Json} {place : Place} {what : Violation}

theorem isShowable_of_brokenRule? {s : String} {rules : List TextRule}
    (h : brokenRule? s rules = some what) : what.isShowable = true := by
  induction rules with
  | nil => cases h
  | cons rule rest ih =>
    cases rule with
    | nonEmpty =>
      rw [brokenRule?] at h
      split at h
      · cases h
        rfl
      · exact ih h
    | not word =>
      rw [brokenRule?] at h
      split at h
      · cases h
        rfl
      · exact ih h
    | shape shape =>
      rw [brokenRule?] at h
      split at h
      · exact ih h
      · cases h
        rfl

theorem isShowable_of_nonText? {members : List (String × Json)}
    (hshow : ∀ member ∈ members, member.2.isShowable = true)
    (h : nonText? members = some (place, what)) : what.isShowable = true := by
  fun_induction nonText? members with
  | case1 => cases h
  | case2 name s rest ih => exact ih (List.forall_mem_cons.mp hshow).2 h
  | case3 name value rest hother =>
    cases h
    exact (List.forall_mem_cons.mp hshow).1

theorem isShowable_of_inItems {check : Json → Option (Place × Violation)} {items : List Json}
    {index : Nat} (hcheck : ∀ item ∈ items, ∀ place what, check item = some (place, what) →
      what.isShowable = true)
    (h : inItems check index items = some (place, what)) : what.isShowable = true := by
  induction items generalizing index with
  | nil => cases h
  | cons item rest ih =>
    rw [List.forall_mem_cons] at hcheck
    rw [inItems] at h
    split at h
    · next found =>
      cases h
      exact hcheck.1 _ _ found
    · exact ih hcheck.2 h

variable (hshow : value.isShowable = true)

include hshow

theorem isShowable_of_text {nullable : Bool} {rules : List TextRule}
    (h : violation? (text nullable rules) value = some (place, what)) : what.isShowable = true := by
  cases value with
  | str s =>
    obtain ⟨broken, hbroken, hsame⟩ := Option.map_eq_some_iff.mp h
    cases hsame
    exact isShowable_of_brokenRule? hbroken
  | null =>
    cases nullable <;> cases h
    rfl
  | _ =>
    cases h
    exact hshow

theorem isShowable_of_flag (h : violation? flag value = some (place, what)) :
    what.isShowable = true := by
  cases value <;> cases h
  all_goals exact hshow

theorem isShowable_of_count (h : violation? count value = some (place, what)) :
    what.isShowable = true := by
  unfold violation? at h
  split at h
  · cases h
    exact hshow
  · split at h <;> cases h
    exact hshow

theorem isShowable_of_choice {words : List String}
    (h : violation? (choice words) value = some (place, what)) : what.isShowable = true := by
  cases value with
  | null => cases h
  | str s =>
    rw [violation?] at h
    split at h <;> cases h
    rfl
  | _ =>
    cases h
    exact hshow

theorem isShowable_of_list {nonEmpty : Bool} {item : Schema}
    (hitem : ∀ {value place what}, value.isShowable = true →
      violation? item value = some (place, what) → what.isShowable = true)
    (h : violation? (list nonEmpty item) value = some (place, what)) : what.isShowable = true := by
  cases value with
  | arr items =>
    rw [violation?] at h
    split at h
    · cases h
      exact hshow
    · exact isShowable_of_inItems
        (fun _ hmem _ _ => hitem (Json.isShowable_arr_iff.mp hshow _ hmem)) h
  | _ =>
    cases h
    exact hshow

theorem isShowable_of_table (h : violation? table value = some (place, what)) :
    what.isShowable = true := by
  cases value with
  | obj members => exact isShowable_of_nonText? (Json.isShowable_obj_iff.mp hshow) h
  | _ =>
    cases h
    exact hshow

theorem isShowable_of_record {required : List String} {fields : List (String × Schema)}
    (hfields : ∀ {members place what}, (∀ member ∈ members, member.2.isShowable = true) →
      inFields fields members = some (place, what) → what.isShowable = true)
    (h : violation? (record required fields) value = some (place, what)) :
    what.isShowable = true := by
  cases value with
  | obj members =>
    rw [violation?] at h
    split at h
    · cases h
      rfl
    · split at h
      · exact hfields (Json.isShowable_obj_iff.mp hshow) h
      · cases h
        rfl
  | _ =>
    cases h
    exact hshow

end Wording

mutual

/-- What is wrong in a value that can be shown can be worded. -/
theorem isShowable_of_violation? :
    ∀ {schema : Schema} {value : Json} {place : Place} {what : Violation},
      value.isShowable = true → violation? schema value = some (place, what) →
      what.isShowable = true
  | text _ _, _, _, _ => (isShowable_of_text ·)
  | flag, _, _, _ => isShowable_of_flag
  | count, _, _, _ => isShowable_of_count
  | choice _, _, _, _ => (isShowable_of_choice ·)
  | list _ _, _, _, _ => (isShowable_of_list · isShowable_of_violation?)
  | table, _, _, _ => isShowable_of_table
  | record _ _, _, _, _ => (isShowable_of_record · isShowable_of_inFields)

theorem isShowable_of_inFields :
    ∀ {fields : List (String × Schema)} {members : List (String × Json)} {place : Place}
      {what : Violation}, (∀ member ∈ members, member.2.isShowable = true) →
      inFields fields members = some (place, what) → what.isShowable = true
  | [], members, place, what => by
    intro hshow h
    cases h
  | (name, schema) :: rest, members, place, what => by
    intro hshow h
    rw [inFields] at h
    split at h
    · exact isShowable_of_inFields hshow h
    · next value hlookup =>
      split at h
      · next found =>
        cases h
        obtain ⟨before, after, rfl, -⟩ := List.lookup_eq_some_iff.mp hlookup
        exact isShowable_of_violation? (hshow (name, value) (by simp)) found
      · exact isShowable_of_inFields hshow h

end

end Schema

namespace Config

variable {value : Json}

/-- A configuration passes the check exactly where it conforms to the schema. -/
theorem validate_eq_ok_iff : validate value = .ok () ↔ Schema.pipeline.Conforms value := by
  rw [← Schema.violation?_eq_none_iff, validate]
  cases hfound : Schema.pipeline.violation? value with
  | none => simp
  | some found => simp

/-- What does not conform is refused for its first violation, if that can be worded. -/
theorem parse_of_not_conforms (h : ¬Schema.pipeline.Conforms value) :
    ∃ place what, Schema.pipeline.violation? value = some (place, what) ∧
      parse value =
        .error (if what.isShowable then .violation place what else .longInteger) := by
  cases hfound : Schema.pipeline.violation? value with
  | none => exact absurd (Schema.violation?_eq_none_iff.mp hfound) h
  | some found => exact ⟨found.1, found.2, rfl, by rw [parse, validate, hfound]⟩

/-- What conforms is refused for what the readers find, if they find anything. -/
theorem parse_of_refused {found : List Fault} (h : Schema.pipeline.Conforms value)
    (hread : Spec.ofJson value = .refused found) : parse value = .error (.faults found) := by
  simp only [parse, validate_eq_ok_iff.mpr h, hread]

theorem parse_eq_ok_iff {spec : Spec} :
    parse value = .ok spec ↔
      Schema.pipeline.Conforms value ∧ Spec.ofJson value = .accepted spec := by
  by_cases h : Schema.pipeline.Conforms value
  · rw [and_iff_right h]
    cases hread : Spec.ofJson value with
    | accepted found => simp [parse, validate_eq_ok_iff.mpr h, hread]
    | refused found => simp [parse_of_refused h hread]
  · obtain ⟨place, what, -, hviolation⟩ := parse_of_not_conforms h
    simp [hviolation, h]

/-- Of a value that can be shown, all that is wrong can be worded. -/
theorem parse_ne_longInteger (h : value.isShowable = true) :
    parse value ≠ .error .longInteger := by
  intro hparse
  by_cases hconforms : Schema.pipeline.Conforms value
  · cases hread : Spec.ofJson value with
    | accepted spec => cases hparse.symm.trans (parse_eq_ok_iff.mpr ⟨hconforms, hread⟩)
    | refused found => cases hparse.symm.trans (parse_of_refused hconforms hread)
  · obtain ⟨place, what, hfound, hviolation⟩ := parse_of_not_conforms hconforms
    rw [if_pos (Schema.isShowable_of_violation? h hfound)] at hviolation
    cases hparse.symm.trans hviolation

end Config

end TwoStage
