import TwoStage.Bindings
import Mathlib.Data.List.Nodup
import Mathlib.Data.List.Sort
import Mathlib.Data.String.Basic

/-!
# Bindings over bindings

Putting bindings over others keeps the names apart, and what is bound in the end is either an old
binding whose name is not bound again or one of the new ones.

## Main definitions

- `Bindings.last?`, `Bindings.updated` — the last value of a name, and bindings with these values

## Main statements

- `Bindings.put_of_not_mem` — what a new name does
- `Bindings.nodup_overlay` — names stay distinct
- `Bindings.mem_overlay`, `Bindings.mem_overlay_of_not_mem` — where the bindings come from
- `Bindings.mem_of_mem_overlay_of_mem` — a name that is bound again loses its old value
- `Bindings.overlay_append` — old names are updated in place, and new names follow
- `Bindings.sorted_perm`, `Bindings.pairwise_sorted`, `Bindings.pairwise_lt_sorted` — sorting
  keeps the bindings and puts their names in order
-/

namespace TwoStage.Bindings

variable {α : Type}

theorem lookup_cons (name other : String) (value : α) (bindings : Bindings α) :
    List.lookup name ((other, value) :: bindings) =
      if name = other then some value else bindings.lookup name := by
  by_cases h : name = other
  · rw [if_pos h, h, List.lookup_cons_self]
  · rw [if_neg h, List.lookup_cons, beq_false_of_ne h]

/-- A name that is not bound yet goes behind the others. -/
theorem put_of_not_mem {name : String} (value : α) {bindings : Bindings α}
    (h : name ∉ bindings.map Prod.fst) : put name value bindings = bindings ++ [(name, value)] := by
  induction bindings with
  | nil => rfl
  | cons first rest ih =>
    obtain ⟨other, old⟩ := first
    rw [List.map_cons, List.mem_cons, not_or] at h
    rw [put, if_neg (Ne.symm h.1), ih h.2, List.cons_append]

theorem mem_put {name : String} {value : α} {bindings : Bindings α} {binding : String × α}
    (h : binding ∈ put name value bindings) : binding = (name, value) ∨ binding ∈ bindings := by
  induction bindings with
  | nil => simpa [put] using h
  | cons first rest ih =>
    obtain ⟨other, old⟩ := first
    rw [put] at h
    split at h
    · rcases List.mem_cons.mp h with hnew | hrest
      · exact Or.inl hnew
      · exact Or.inr (List.mem_cons_of_mem _ hrest)
    · rcases List.mem_cons.mp h with hfirst | hrest
      · exact Or.inr (hfirst ▸ List.mem_cons_self)
      · rcases ih hrest with hnew | hold
        · exact Or.inl hnew
        · exact Or.inr (List.mem_cons_of_mem _ hold)

theorem mem_put_self (name : String) (value : α) (bindings : Bindings α) :
    (name, value) ∈ put name value bindings := by
  induction bindings with
  | nil => simp [put]
  | cons first rest ih =>
    obtain ⟨other, old⟩ := first
    rw [put]
    split
    · exact List.mem_cons_self
    · exact List.mem_cons_of_mem _ ih

theorem mem_put_of_ne {name : String} (value : α) {bindings : Bindings α} {binding : String × α}
    (hmem : binding ∈ bindings) (hne : binding.1 ≠ name) : binding ∈ put name value bindings := by
  induction bindings with
  | nil => cases hmem
  | cons first rest ih =>
    obtain ⟨other, old⟩ := first
    rw [put]
    split
    · next hother =>
      rcases List.mem_cons.mp hmem with rfl | hrest
      · exact absurd hother hne
      · exact List.mem_cons_of_mem _ hrest
    · rcases List.mem_cons.mp hmem with hfirst | hrest
      · exact hfirst ▸ List.mem_cons_self
      · exact List.mem_cons_of_mem _ (ih hrest)

theorem nodup_put {bindings : Bindings α} (h : (bindings.map Prod.fst).Nodup) (name : String)
    (value : α) : ((put name value bindings).map Prod.fst).Nodup := by
  rw [map_fst_put]
  split
  · exact h
  · next hnew =>
    rw [← List.concat_eq_append]
    exact h.concat hnew

/-- The value of a name that is bound again is the new one. -/
theorem eq_of_mem_put {bindings : Bindings α} (h : (bindings.map Prod.fst).Nodup) {name : String}
    {value other : α} (hmem : (name, other) ∈ put name value bindings) : other = value := by
  have hnodup := nodup_put h name value
  have hsame := List.inj_on_of_nodup_map hnodup hmem (mem_put_self name value bindings) rfl
  exact (Prod.mk.inj hsame).2

/-- Distinct names stay distinct. -/
theorem nodup_overlay {base : Bindings α} (h : (base.map Prod.fst).Nodup) (extra : Bindings α) :
    ((base.overlay extra).map Prod.fst).Nodup := by
  induction extra generalizing base with
  | nil => exact h
  | cons binding rest ih => exact ih (nodup_put h binding.1 binding.2)

theorem mem_overlay {base extra : Bindings α} {binding : String × α}
    (h : binding ∈ base.overlay extra) : binding ∈ base ∨ binding ∈ extra := by
  induction extra generalizing base with
  | nil => exact Or.inl h
  | cons first rest ih =>
    rcases ih h with hbase | hrest
    · rcases mem_put hbase with hfirst | hbase
      · exact Or.inr (hfirst ▸ List.mem_cons_self)
      · exact Or.inl hbase
    · exact Or.inr (List.mem_cons_of_mem _ hrest)

/-- A name that is not bound again keeps its value. -/
theorem mem_overlay_of_not_mem {base extra : Bindings α} {binding : String × α}
    (hmem : binding ∈ base) (hnot : binding.1 ∉ extra.map Prod.fst) :
    binding ∈ base.overlay extra := by
  induction extra generalizing base with
  | nil => exact hmem
  | cons first rest ih =>
    rw [List.map_cons, List.mem_cons, not_or] at hnot
    exact ih (mem_put_of_ne first.2 hmem hnot.1) hnot.2

/-- The names of both are bound in the end. -/
theorem mem_map_fst_overlay {base extra : Bindings α} {name : String} :
    name ∈ (base.overlay extra).map Prod.fst ↔
      name ∈ base.map Prod.fst ∨ name ∈ extra.map Prod.fst := by
  induction extra generalizing base with
  | nil => simp [overlay]
  | cons first rest ih =>
    obtain ⟨other, value⟩ := first
    rw [overlay, ih, map_fst_put, List.map_cons, List.mem_cons]
    split
    · next hother =>
      constructor
      · rintro (hbase | hrest)
        · exact Or.inl hbase
        · exact Or.inr (Or.inr hrest)
      · rintro (hbase | rfl | hrest)
        · exact Or.inl hbase
        · exact Or.inl hother
        · exact Or.inr hrest
    · rw [List.mem_append, List.mem_singleton, or_assoc]

/-- A name that is bound again has one of its new values. -/
theorem mem_of_mem_overlay_of_mem {base extra : Bindings α} {binding : String × α}
    (hbase : (base.map Prod.fst).Nodup) (h : binding ∈ base.overlay extra)
    (hmem : binding.1 ∈ extra.map Prod.fst) : binding ∈ extra := by
  induction extra generalizing base with
  | nil => cases hmem
  | cons first rest ih =>
    have hput := nodup_put hbase first.1 first.2
    by_cases hrest : binding.1 ∈ rest.map Prod.fst
    · exact List.mem_cons_of_mem _ (ih hput h hrest)
    · -- only the first of the new bindings can have that name
      rw [List.map_cons, List.mem_cons] at hmem
      have hname : binding.1 = first.1 := hmem.resolve_right hrest
      have hover : binding ∈ (put first.1 first.2 base).overlay rest := h
      rcases mem_overlay hover with hmem | hmem
      · have hvalue : binding.2 = first.2 := eq_of_mem_put hbase (hname ▸ hmem)
        have hfirst : binding = first := Prod.ext hname hvalue
        exact hfirst ▸ List.mem_cons_self
      · exact absurd (List.mem_map_of_mem hmem) hrest

-- ════════════════════════════════════════════════════════════════════════
-- What the bindings are in the end
-- ════════════════════════════════════════════════════════════════════════

/-- A name that is bound in the first part keeps its place there, any other goes to the second. -/
theorem put_append (name : String) (value : α) (first second : Bindings α) :
    put name value (first ++ second) =
      if name ∈ first.map Prod.fst then put name value first ++ second
      else first ++ put name value second := by
  induction first with
  | nil => rfl
  | cons binding rest ih =>
    obtain ⟨other, old⟩ := binding
    rw [List.cons_append, put]
    by_cases hother : other = name
    · simp [put, hother]
    · rw [if_neg hother, ih]
      by_cases hrest : name ∈ rest.map Prod.fst <;> simp [put, hother, hrest, Ne.symm hother]

/-- The last value that is given to a name. -/
def last? (bindings : Bindings α) (name : String) : Option α := bindings.reverse.lookup name

theorem last?_cons_self (name : String) (value : α) (rest : Bindings α) :
    last? ((name, value) :: rest) name = some ((last? rest name).getD value) := by
  rw [last?, List.reverse_cons, List.lookup_append, ← last?]
  cases last? rest name <;> simp

theorem last?_cons_of_ne {name other : String} (h : other ≠ name) (value : α) (rest : Bindings α) :
    last? ((name, value) :: rest) other = last? rest other := by
  have hne : (other == name) = false := by simpa using h
  rw [last?, List.reverse_cons, List.lookup_append, ← last?]
  simp [List.lookup_cons, hne]

/-- The bindings with the last values that others give to their names. -/
def updated (base extra : Bindings α) : Bindings α :=
  base.map fun (name, value) => (name, (extra.last? name).getD value)

theorem updated_cons_of_not_mem {base : Bindings α} {name : String}
    (h : name ∉ base.map Prod.fst) (value : α) (rest : Bindings α) :
    base.updated ((name, value) :: rest) = base.updated rest := by
  refine List.map_congr_left fun binding hmem => ?_
  have hne : binding.1 ≠ name := by
    rintro rfl
    exact h (List.mem_map_of_mem hmem)
  simp only [last?_cons_of_ne hne]

theorem updated_cons_of_mem {base : Bindings α} (hbase : (base.map Prod.fst).Nodup) {name : String}
    (h : name ∈ base.map Prod.fst) (value : α) (rest : Bindings α) :
    base.updated ((name, value) :: rest) = (put name value base).updated rest := by
  induction base with
  | nil => cases h
  | cons binding base ih =>
    obtain ⟨other, old⟩ := binding
    rw [List.map_cons, List.nodup_cons] at hbase
    rw [List.map_cons, List.mem_cons] at h
    rw [put]
    split
    · next hother =>
      subst hother
      have htail := updated_cons_of_not_mem hbase.1 value rest
      simp only [updated, List.map_cons, last?_cons_self, Option.getD_some] at htail ⊢
      rw [htail]
    · next hother =>
      have htail := ih hbase.2 (h.resolve_left (Ne.symm hother))
      simp only [updated, List.map_cons, last?_cons_of_ne hother] at htail ⊢
      rw [htail]

/-- Binding over two parts: the first is updated in place, and what it does not name goes over the
second. -/
theorem overlay_append {first : Bindings α} (hfirst : (first.map Prod.fst).Nodup)
    (second extra : Bindings α) :
    (first ++ second).overlay extra =
      first.updated extra ++
        second.overlay (extra.filter fun binding => binding.1 ∉ first.map Prod.fst) := by
  induction extra generalizing first second with
  | nil => simp [overlay, updated, last?]
  | cons binding rest ih =>
    obtain ⟨name, value⟩ := binding
    rw [overlay, put_append]
    split
    · next hmem =>
      have hnames := (map_fst_put name value first).trans (if_pos hmem)
      rw [ih (nodup_put hfirst name value), hnames, ← updated_cons_of_mem hfirst hmem,
        List.filter_cons_of_neg (by simpa using hmem)]
    · next hnot =>
      rw [ih hfirst, updated_cons_of_not_mem hnot, List.filter_cons_of_pos (by simpa using hnot),
        overlay]

/-- Names that are all new stay in their order. -/
theorem overlay_eq_append {base extra : Bindings α} (h : ((base ++ extra).map Prod.fst).Nodup) :
    base.overlay extra = base ++ extra := by
  induction extra generalizing base with
  | nil => simp [overlay]
  | cons binding rest ih =>
    have hnew : binding.1 ∉ base.map Prod.fst := by
      rw [List.map_append, List.nodup_append] at h
      intro hmem
      exact h.2.2 _ hmem _ (by simp) rfl
    rw [overlay, put_of_not_mem binding.2 hnew, ih (by simpa using h), List.append_assoc]
    rfl

/-- Sorting by name is the insertion sort of the library. -/
theorem sorted_eq_insertionSort (bindings : Bindings α) :
    bindings.sorted = bindings.insertionSort fun a b => a.1 ≤ b.1 := by
  have hinsert : ∀ (binding : String × α) (bindings : Bindings α),
      insert binding bindings = bindings.orderedInsert (fun a b => a.1 ≤ b.1) binding := by
    intro binding bindings
    induction bindings with
    | nil => rfl
    | cons other rest ih => rw [insert, List.orderedInsert_cons, ih]
  induction bindings with
  | nil => rfl
  | cons binding rest ih => rw [sorted, ih, hinsert, List.insertionSort_cons]

theorem sorted_perm (bindings : Bindings α) : bindings.sorted.Perm bindings := by
  rw [sorted_eq_insertionSort]
  exact List.perm_insertionSort _ bindings

theorem mem_sorted {bindings : Bindings α} {binding : String × α} :
    binding ∈ bindings.sorted ↔ binding ∈ bindings :=
  bindings.sorted_perm.mem_iff

theorem pairwise_sorted (bindings : Bindings α) :
    bindings.sorted.Pairwise fun a b => a.1 ≤ b.1 := by
  have : Std.Total fun a b : String × α => a.1 ≤ b.1 := ⟨fun a b => le_total a.1 b.1⟩
  have : IsTrans (String × α) fun a b => a.1 ≤ b.1 := ⟨fun _ _ _ hab hbc => hab.trans hbc⟩
  rw [sorted_eq_insertionSort]
  exact List.pairwise_insertionSort _ bindings

/-- Different names are sorted strictly. -/
theorem pairwise_lt_sorted {bindings : Bindings α} (h : (bindings.map Prod.fst).Nodup) :
    bindings.sorted.Pairwise fun a b => a.1 < b.1 := by
  have hnames : (bindings.sorted.map Prod.fst).Nodup :=
    (bindings.sorted_perm.map Prod.fst).nodup_iff.mpr h
  refine List.Pairwise.imp₂ (fun a b hle hne => ?_) bindings.pairwise_sorted
    (List.pairwise_map.mp hnames)
  exact lt_of_le_of_ne hle hne

end TwoStage.Bindings
