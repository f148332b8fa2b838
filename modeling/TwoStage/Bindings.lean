/-!
# Bindings in order of first mention

A list of names with values in which a name keeps the place where it was first bound and the value
it was last given.

## Main definitions

- `Bindings` — names with values, in order
- `Bindings.put` — binds a name, in place if it is bound already
- `Bindings.overlay` — binds one name after the other
- `Bindings.sorted` — the same bindings in order of their names
-/

namespace TwoStage

/-- Names with values, in order of first mention. -/
abbrev Bindings (α : Type) := List (String × α)

namespace Bindings

/-- Binds a name: in its old place if it has one, else behind the others. -/
def put {α : Type} (name : String) (value : α) : Bindings α → Bindings α
  | [] => [(name, value)]
  | (other, old) :: rest =>
    if other = name then (name, value) :: rest else (other, old) :: put name value rest

/-- Binds the second names over the first ones, one after the other. -/
def overlay {α : Type} (base : Bindings α) : Bindings α → Bindings α
  | [] => base
  | (name, value) :: rest => overlay (put name value base) rest

/-- Sets a binding in front of the first one whose name is not before its own. -/
def insert {α : Type} (binding : String × α) : Bindings α → Bindings α
  | [] => [binding]
  | other :: rest =>
    if binding.1 ≤ other.1 then binding :: other :: rest else other :: insert binding rest

/-- The bindings in order of their names; those of one name keep their order. -/
def sorted {α : Type} : Bindings α → Bindings α
  | [] => []
  | binding :: rest => insert binding (sorted rest)

theorem map_fst_put {α : Type} (name : String) (value : α) (bindings : Bindings α) :
    (put name value bindings).map Prod.fst =
      if name ∈ bindings.map Prod.fst then bindings.map Prod.fst
      else bindings.map Prod.fst ++ [name] := by
  induction bindings with
  | nil => simp [put]
  | cons binding rest ih =>
    obtain ⟨other, old⟩ := binding
    by_cases h : other = name
    · simp [put, h]
    · by_cases hm : name ∈ rest.map Prod.fst <;> simp_all [put, Ne.symm h]

end Bindings

end TwoStage
