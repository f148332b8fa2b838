import TwoStage.Json.Value

/-!
# The members of JSON values

How a value is reached from an object that holds it, and values without fractions.

## Main definitions

- `Json.member?`, `Json.at?` — the member of a name, and the value below several names
- `Json.Given` — what holds of a member, if it is there
- `Json.OnText`, `Json.OnTexts`, `Json.OnTable` — what holds of the texts of a value
- `Json.textOr` — the text that a value is, or a usual one
- `Json.Integral` — values all of whose numbers are integers

## Main statements

- `Json.Integral.member` — the members of such values are such values
-/

namespace TwoStage.Json

/-- The member of a name. -/
def member? : Json → String → Option Json
  | obj members, name => members.lookup name
  | _, _ => none

/-- The value below several names, each of them a member of what is below those before it. -/
def at? (value : Json) : List String → Option Json
  | [] => some value
  | name :: rest =>
    match value.member? name with
    | some inner => inner.at? rest
    | none => none

/-- A property holds of the member of a name, if there is one. -/
def Given (value : Json) (name : String) (P : Json → Prop) : Prop :=
  ∀ inner, value.member? name = some inner → P inner

/-- A property holds of a value if it is a text. -/
def OnText (P : String → Prop) (value : Json) : Prop := ∀ s, value = str s → P s

/-- A property holds of each text of an array. -/
def OnTexts (P : String → Prop) (value : Json) : Prop :=
  ∀ items, value = arr items → ∀ s, str s ∈ items → P s

/-- A property holds of each member of an object that is a text, and its name. -/
def OnTable (P : String → String → Prop) (value : Json) : Prop :=
  ∀ members, value = obj members → ∀ name s, (name, str s) ∈ members → P name s

@[simp] theorem member?_obj (members : List (String × Json)) (name : String) :
    (obj members).member? name = members.lookup name := rfl

@[simp] theorem at?_nil (value : Json) : value.at? [] = some value := rfl

theorem at?_cons {value : Json} {name : String} {rest : List String} :
    value.at? (name :: rest) = (value.member? name).bind fun inner => inner.at? rest := by
  rw [at?]
  cases value.member? name <;> rfl

theorem at?_obj_of_some {members : List (String × Json)} {name : String} {inner : Json}
    {rest : List String} (h : members.lookup name = some inner) :
    (obj members).at? (name :: rest) = inner.at? rest := by
  rw [at?_cons, member?_obj, h, Option.bind_some]

theorem at?_obj_of_none {members : List (String × Json)} {name : String} {rest : List String}
    (h : members.lookup name = none) : (obj members).at? (name :: rest) = none := by
  rw [at?_cons, member?_obj, h, Option.bind_none]

theorem given_obj_of_some {members : List (String × Json)} {name : String} {inner : Json}
    {P : Json → Prop} (h : members.lookup name = some inner) :
    (obj members).Given name P ↔ P inner := by
  simp [Given, h]

theorem given_obj_of_none {members : List (String × Json)} {name : String} {P : Json → Prop}
    (h : members.lookup name = none) : (obj members).Given name P := by
  simp [Given, h]

theorem ofStrings_inj {texts others : List String} : ofStrings texts = ofStrings others ↔
    texts = others := by
  rw [ofStrings, ofStrings, arr.injEq]
  exact List.map_inj_right fun _ _ => str.inj

theorem ofBindings_inj {bindings others : Bindings String} :
    ofBindings bindings = ofBindings others ↔ bindings = others := by
  rw [ofBindings, ofBindings, obj.injEq]
  refine List.map_inj_right fun a b h => ?_
  rw [Prod.mk.injEq, str.injEq] at h
  exact Prod.ext h.1 h.2

theorem at?_singleton {value : Json} {name : String} : value.at? [name] = value.member? name := by
  rw [at?_cons]
  exact Option.bind_fun_some _

theorem at?_append {value : Json} {path rest : List String} :
    value.at? (path ++ rest) = (value.at? path).bind fun inner => inner.at? rest := by
  induction path generalizing value with
  | nil => rfl
  | cons name path ih =>
    rw [List.cons_append, at?_cons, at?_cons]
    cases value.member? name with
    | none => rfl
    | some inner => exact ih

section Texts

variable {P : String → Prop}

@[simp] theorem onText_str {s : String} : OnText P (str s) ↔ P s := by
  simp [OnText]

theorem onTexts_ofStrings {texts : List String} :
    OnTexts P (ofStrings texts) ↔ ∀ s ∈ texts, P s := by
  simp [OnTexts, ofStrings]

theorem onTable_ofBindings {P : String → String → Prop} {bindings : Bindings String} :
    OnTable P (ofBindings bindings) ↔ ∀ binding ∈ bindings, P binding.1 binding.2 := by
  simp [OnTable, ofBindings]

end Texts

/-- The text that a value is, or a usual one in place of a value that is none. -/
def textOr (usual : String) : Option Json → String
  | some (str s) => s
  | _ => usual

/-- All numbers of a value are integers. -/
inductive Integral : Json → Prop where
  | null : Integral null
  | bool (b : Bool) : Integral (bool b)
  | int (n : Int) : Integral (int n)
  | str (s : String) : Integral (str s)
  | arr {items : List Json} (h : ∀ item ∈ items, Integral item) : Integral (arr items)
  | obj {members : List (String × Json)} (h : ∀ member ∈ members, Integral member.2) :
    Integral (obj members)

theorem integral_obj_iff {members : List (String × Json)} :
    (obj members).Integral ↔ ∀ member ∈ members, member.2.Integral := by
  constructor
  · intro h
    cases h with
    | obj h => exact h
  · exact .obj

theorem Integral.member {value inner : Json} {name : String} (h : value.Integral)
    (hmember : value.member? name = some inner) : inner.Integral := by
  cases h with
  | obj h =>
    obtain ⟨before, after, rfl, -⟩ := List.lookup_eq_some_iff.mp hmember
    exact h (name, inner) (by simp)
  | _ => cases hmember

end TwoStage.Json
