import TwoStage.FileTree.Basic
import Mathlib.Data.List.Nodup
import Mathlib.Data.List.Perm.Subperm

/-!
# What stays as it is in a file tree

A change under a location does not show in the tree with that location removed, so that two trees
agree outside a location when they are equal without it. A free location adds nothing to a tree:
what is put there and removed again leaves the tree as it was, entry by entry.

## Main statements

- `FileTree.removeBelow_put` — a change under a location, seen from outside
- `FileTree.node?_eq_of_removeBelow_eq` — what trees that agree outside a location hold there
- `FileTree.removeBelow_put_of_isFree` — a free location that is taken and given back
- `FileTree.isFree_firstFree` — the search for a free location finds one
-/

namespace TwoStage.FileTree

-- ════════════════════════════════════════════════════════════════════════
-- Changes under a location
-- ════════════════════════════════════════════════════════════════════════

/-- Setting a node under a location changes only entries that go with the location. -/
theorem removeBelow_put {t : FileTree} {loc other : Location} (node : Node) (h : loc <+: other) :
    (t.put other node).removeBelow loc = t.removeBelow loc := by
  have hp : loc.isPrefixOf other = true := List.isPrefixOf_iff_prefix.mpr h
  obtain ⟨entries⟩ := t
  simp only [removeBelow, put, mk.injEq]
  induction entries with
  | nil => simp [putEntry, hp]
  | cons entry rest ih =>
    obtain ⟨first, old⟩ := entry
    by_cases hf : first = other
    · subst hf
      simp [putEntry, hp]
    · simp only [putEntry, hf, if_false, List.filter_cons, ih]

private theorem lookup_filter_of_not_below {loc other : Location} (h : ¬ loc <+: other)
    (entries : List (Location × Node)) :
    (entries.filter fun entry => !loc.isPrefixOf entry.1).lookup other = entries.lookup other := by
  induction entries with
  | nil => rfl
  | cons entry rest ih =>
    obtain ⟨first, node⟩ := entry
    by_cases hf : other = first
    · subst hf
      have hp : loc.isPrefixOf other = false := by
        rw [Bool.eq_false_iff]
        exact fun hp => h (List.isPrefixOf_iff_prefix.mp hp)
      simp [hp]
    · have hb : (other == first) = false := by simpa using hf
      rw [List.filter_cons]
      split
      · rw [List.lookup_cons, List.lookup_cons, hb, ih]
      · rw [ih, List.lookup_cons, hb]

/-- Removing a location leaves what is not under it. -/
theorem node?_removeBelow_of_not_below {t : FileTree} {loc other : Location}
    (h : ¬ loc <+: other) : (t.removeBelow loc).node? other = t.node? other := by
  unfold node? removeBelow
  rw [lookup_filter_of_not_below h]

/-- Trees that are equal without a location hold the same outside it. -/
theorem node?_eq_of_removeBelow_eq {t t' : FileTree} {loc other : Location}
    (h : t'.removeBelow loc = t.removeBelow loc) (ho : ¬ loc <+: other) :
    t'.node? other = t.node? other := by
  rw [← node?_removeBelow_of_not_below ho, h, node?_removeBelow_of_not_below ho]

-- ════════════════════════════════════════════════════════════════════════
-- Free locations
-- ════════════════════════════════════════════════════════════════════════

theorem isFree_iff {t : FileTree} {loc : Location} :
    t.isFree loc = true ↔ ∀ entry ∈ t.entries, ¬ loc <+: entry.1 := by
  simp only [isFree, List.all_eq_true, Bool.not_eq_true', Bool.eq_false_iff, ne_eq,
    List.isPrefixOf_iff_prefix]

/-- There is nothing to remove at a free location. -/
theorem removeBelow_of_isFree {t : FileTree} {loc : Location} (h : t.isFree loc = true) :
    t.removeBelow loc = t := by
  obtain ⟨entries⟩ := t
  simp only [removeBelow, mk.injEq, List.filter_eq_self]
  intro entry hmem
  simpa [isFree] using List.all_eq_true.mp h entry hmem

/-- A free location that is taken and given back leaves no trace. -/
theorem removeBelow_put_of_isFree {t : FileTree} {loc : Location} (node : Node)
    (h : t.isFree loc = true) : (t.put loc node).removeBelow loc = t := by
  rw [removeBelow_put node (List.prefix_refl loc), removeBelow_of_isFree h]

theorem node?_of_isFree {t : FileTree} {loc other : Location} (h : t.isFree loc = true)
    (hne : other ≠ []) (ho : loc <+: other) : t.node? other = none := by
  rw [node?, if_neg (by simpa using hne), List.lookup_eq_none_iff]
  intro entry hmem
  have hfree := isFree_iff.mp h entry hmem
  simp only [bne_iff_ne, ne_eq]
  rintro rfl
  exact hfree ho

/-- Below a location that was free and is made a directory nothing stands yet. -/
theorem node?_put_directory {t : FileTree} {loc : Location} (hfree : t.isFree loc = true)
    (hne : loc ≠ []) (rel : List String) :
    (t.put loc .directory).node? (loc ++ rel) = if rel = [] then some .directory else none := by
  by_cases hrel : rel = []
  · rw [if_pos hrel, hrel, List.append_nil, node?_put_self _ hne]
  · rw [if_neg hrel, node?_put_of_ne _ (by simpa using hrel),
      node?_of_isFree hfree (by simp [hrel]) (List.prefix_append _ _)]

-- ════════════════════════════════════════════════════════════════════════
-- The search for a free location
-- ════════════════════════════════════════════════════════════════════════

/-- The search stops at a free location, or every location that it has tried is taken. -/
private theorem firstFree_spec (t : FileTree) (place : Nat → Location) (tries n : Nat) :
    t.isFree (place (t.firstFree place tries n)) = true ∨
      (t.firstFree place tries n = n + tries ∧
        ∀ i < tries, t.isFree (place (n + i)) = false) := by
  induction tries generalizing n with
  | zero => exact Or.inr ⟨rfl, fun i hi => absurd hi (Nat.not_lt_zero i)⟩
  | succ tries ih =>
    rw [firstFree]
    by_cases hfree : t.isFree (place n) = true
    · rw [if_pos hfree]
      exact Or.inl hfree
    · rw [if_neg hfree]
      rcases ih (n + 1) with h | ⟨hn, htaken⟩
      · exact Or.inl h
      · refine Or.inr ⟨by omega, fun i hi => ?_⟩
        cases i with
        | zero => simpa using hfree
        | succ i =>
          have := htaken i (by omega)
          rwa [show n + 1 + i = n + (i + 1) by omega] at this

/-- The search for a free location finds one. The places have one length, so that an entry stands
in the way of at most one of them, and there is one try more than there are entries. -/
theorem isFree_firstFree {t : FileTree} {place : Nat → Location} (size : Nat)
    (hplace : Function.Injective place) (hsize : ∀ n, (place n).length = size) (n : Nat) :
    t.isFree (place (t.firstFree place t.entries.length n)) = true := by
  rcases firstFree_spec t place t.entries.length n with h | ⟨hn, htaken⟩
  · exact h
  · by_contra hlast
    rw [hn] at hlast
    -- all places tried, and the one behind them, are heads of entries
    let heads := t.entries.map fun entry => entry.1.take size
    let tried := (List.range (t.entries.length + 1)).map fun i => place (n + i)
    have hsub : tried ⊆ heads := by
      intro loc hloc
      obtain ⟨i, hi, rfl⟩ := List.mem_map.mp hloc
      have htaken' : t.isFree (place (n + i)) = false := by
        rcases Nat.lt_or_ge i t.entries.length with hlt | hge
        · exact htaken i hlt
        · have : i = t.entries.length := by
            have := List.mem_range.mp hi
            omega
          subst this
          simpa using hlast
      rw [Bool.eq_false_iff, ne_eq, isFree_iff] at htaken'
      push Not at htaken'
      obtain ⟨entry, hmem, hpre⟩ := htaken'
      refine List.mem_map.mpr ⟨entry, hmem, ?_⟩
      rw [← hsize (n + i)]
      exact (List.prefix_iff_eq_take.mp hpre).symm
    have hnodup : tried.Nodup :=
      List.Nodup.map (fun i j hij => by have := hplace hij; omega) List.nodup_range
    have hlen := (List.subperm_of_subset hnodup hsub).length_le
    simp only [tried, heads, List.length_map, List.length_range] at hlen
    omega

end TwoStage.FileTree
