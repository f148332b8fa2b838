import TwoStage.Proofs.FileTree.Linkless

/-!
# The image of a tree

Sources that are copied from below a root to the same places below another location leave there an
image of what stands below the root: the same nodes at all names that the copies reach, and nothing
at the others.

## Main definitions

- `FileTree.Mirrors` — an image of a tree at the names of a predicate
- `FileTree.IsSource` — a place below the root that can be copied
- `FileTree.ReachedFrom` — the names that the copy of a place reaches

## Main statements

- `FileTree.Mirrors.laidOut` — directories that are made for a source
- `FileTree.Mirrors.copyDirectory`, `FileTree.Mirrors.copyFile` — a source that is copied
-/

namespace TwoStage.FileTree

/-- A tree that has below a location the image of what another one has below a root, at the names
that are reached, and that is the other one outside. -/
structure Mirrors (t₀ t : FileTree) (root loc : Location) (reached : List String → Prop) :
    Prop where
  ground : t.Ground loc
  outside : ∀ other, ¬ loc <+: other → t.node? other = t₀.node? other
  same : ∀ rel, reached rel → t.node? (loc ++ rel) = t₀.node? (root ++ rel)
  beyond : ∀ rel, ¬ reached rel → t.node? (loc ++ rel) = none

/-- Something that stands at a place below the root and can be copied to the same place below a
location: not from there, and not from above it where the copy could not see itself. -/
structure IsSource (t₀ : FileTree) (root loc : Location) (skipped place : List String) : Prop where
  ne : place ≠ []
  there : ∃ node, t₀.node? (root ++ place) = some node
  apart : ¬ loc <+: root ++ place
  aside : Kept skipped place ∨ ¬ root ++ place <+: loc

/-- The names that the copy of a place reaches: those on the way to it, and those below it of which
none is skipped. -/
def ReachedFrom (skipped place rel : List String) : Prop :=
  rel <+: place ∨ ∃ rest, Kept skipped rest ∧ rel = place ++ rest

theorem ReachedFrom.above {skipped place rel above : List String}
    (h : ReachedFrom skipped place rel) (habove : above <+: rel) :
    ReachedFrom skipped place above := by
  rcases h with hrel | ⟨rest, hrest, rfl⟩
  · exact Or.inl (habove.trans hrel)
  · rcases prefix_append_cases habove with hplace | ⟨more, rfl, hmore⟩
    · exact Or.inl hplace
    · exact Or.inr ⟨more, fun name hname => hrest name (hmore.subset hname), rfl⟩

namespace IsSource

variable {t₀ : FileTree} {root loc : Location} {skipped place : List String}
  (h : IsSource t₀ root loc skipped place) (ht₀ : t₀.Sound)

include h

theorem root_apart : ¬ loc <+: root := fun hroot => h.apart (hroot.trans (List.prefix_append _ _))

theorem ne_loc : root ++ place ≠ loc := fun heq => h.apart ⟨[], by rw [List.append_nil, heq]⟩

include ht₀

theorem isName : ∀ name ∈ place, IsName name := by
  obtain ⟨node, hnode⟩ := h.there
  exact fun name hname => ht₀.isName_of_node? hnode name (List.mem_append_right _ hname)

/-- Directories stand on the way to a source. -/
theorem way {rel : List String} (hrel : rel <+: place.dropLast) :
    t₀.node? (root ++ rel) = some .directory := by
  obtain ⟨node, hnode⟩ := h.there
  obtain ⟨rest, hrest⟩ := hrel
  have hbelow : t₀.node? ((root ++ rel) ++ (rest ++ [place.getLast h.ne])) = some node := by
    rw [← List.append_assoc, List.append_assoc root, hrest, List.append_assoc,
      List.dropLast_append_getLast h.ne, hnode]
  exact ht₀.leads_append _ (by simp) hbelow

end IsSource

section

variable {t₀ t t' : FileTree} {root loc : Location} {reached : List String → Prop}
  {skipped place : List String}

/-- What an image holds depends only on which names are reached. -/
theorem Mirrors.congr {other : List String → Prop} (h : Mirrors t₀ t root loc reached)
    (heq : ∀ rel, reached rel ↔ other rel) : Mirrors t₀ t root loc other :=
  ⟨h.ground, h.outside, fun rel hrel => h.same rel ((heq rel).mpr hrel),
    fun rel hrel => h.beyond rel fun hreached => hrel ((heq rel).mp hreached)⟩

/-- The root is as enclosed as before. -/
theorem Mirrors.ground_root (h : Mirrors t₀ t root loc reached) (hroot : t₀.Ground root)
    (hapart : ¬ loc <+: root) : t.Ground root :=
  ⟨h.ground.sound, hroot.enclosed.of_outside h.ground.sound h.outside
    (fun below link => h.ground.enclosed.linkless below link) hapart⟩

/-- Directories that are made on the way to a source are those of the tree. -/
theorem Mirrors.laidOut (h : Mirrors t₀ t root loc reached) (ht₀ : t₀.Sound)
    (hs : IsSource t₀ root loc skipped place)
    (hlaid : LaidOut t t' loc (loc ++ place.dropLast)) :
    Mirrors t₀ t' root loc fun rel => reached rel ∨ rel <+: place.dropLast := by
  refine ⟨hlaid.ground, fun other hother => ?_, fun rel hrel => ?_, fun rel hrel => ?_⟩
  · by_cases hway : other <+: loc ++ place.dropLast
    · have hbefore : other <+: loc :=
        (prefix_append_cases hway).resolve_right fun ⟨rest, hrest, _⟩ =>
          hother ⟨rest, hrest.symm⟩
      rw [hlaid.leads hway, ← h.outside other hother, h.ground.enclosed.leads other hbefore]
    · rw [hlaid.elsewhere other hway, h.outside other hother]
  · by_cases hway : rel <+: place.dropLast
    · rw [hlaid.leads ((List.prefix_append_right_inj loc).mpr hway), hs.way ht₀ hway]
    · rw [hlaid.elsewhere _ fun hbefore => hway ((List.prefix_append_right_inj loc).mp hbefore)]
      exact h.same rel (hrel.resolve_right hway)
  · rw [not_or] at hrel
    rw [hlaid.elsewhere _ fun hbefore => hrel.2 ((List.prefix_append_right_inj loc).mp hbefore)]
    exact h.beyond rel hrel.1

/-- A directory that is copied reaches what is below it, but for what no copy takes. Nothing of it
was reached before. -/
theorem Mirrors.grafted (h : Mirrors t₀ t root loc reached)
    (hclosed : ∀ rest, reached (place ++ rest) → reached place)
    (hdirectory : t₀.node? (root ++ place) = some .directory)
    (hapart : ∀ rest, Kept skipped rest → ¬ loc <+: root ++ place ++ rest)
    (hgraft : Grafted t t' loc skipped (root ++ place) (loc ++ place)) :
    Mirrors t₀ t' root loc fun rel =>
      reached rel ∨ ∃ rest, Kept skipped rest ∧ rel = place ++ rest := by
  have hnew : ∀ rest, ¬ reached (place ++ rest) := by
    intro rest hrest
    have hsame := h.same place (hclosed rest hrest)
    rw [hgraft.grown.free, hdirectory] at hsame
    cases hsame
  have hothers : ∀ rel, ¬ place <+: rel → t'.node? (loc ++ rel) = t.node? (loc ++ rel) :=
    fun rel hrel => hgraft.grown.outside _ fun hbelow =>
      hrel ((List.prefix_append_right_inj loc).mp hbelow)
  refine ⟨hgraft.grown.ground, fun other hother => ?_, fun rel hrel => ?_, fun rel hrel => ?_⟩
  · rw [hgraft.grown.outside other fun hbelow => hother ((List.prefix_append _ _).trans hbelow),
      h.outside other hother]
  · rcases hrel with hreached | ⟨rest, hrest, rfl⟩
    · rw [hothers rel fun ⟨rest, hrest⟩ => hnew rest (hrest ▸ hreached)]
      exact h.same rel hreached
    · rw [← List.append_assoc, hgraft.kept rest hrest, h.outside _ (hapart rest hrest),
        List.append_assoc]
  · rw [not_or] at hrel
    by_cases hbelow : place <+: rel
    · obtain ⟨rest, rfl⟩ := hbelow
      rw [← List.append_assoc]
      exact hgraft.left rest fun hrest => hrel.2 ⟨rest, hrest, rfl⟩
    · rw [hothers rel hbelow]
      exact h.beyond rel hrel.1

/-- A copy that succeeds does not run into itself: no directory above the location can be copied
into it, unless the copy skips one of the names on the way. -/
theorem Mirrors.apart_of_copied {depth : Nat} (h : Mirrors t₀ t root loc reached)
    (hroot : t₀.Ground root) (hs : IsSource t₀ root loc skipped place)
    (hasked : t.isDirectory? [] (Path.ofLocation (root ++ place)) = .ok true)
    (hc : copyDirectoryFrom skipped depth t (Path.ofLocation (root ++ place))
      (Path.ofLocation (loc ++ place)) = .ok (t', false))
    (rest : List String) (hrest : Kept skipped rest) : ¬ loc <+: root ++ place ++ rest := by
  intro hbelow
  rcases prefix_append_cases hbelow with habove | ⟨more, rfl, hmore⟩
  · exact hs.apart habove
  · have hkept : Kept skipped more := fun name hname => hrest name (hmore.subset hname)
    have hplace : Kept skipped place :=
      hs.aside.resolve_right fun hnot => hnot (List.prefix_append _ _)
    cases more with
    | nil => exact hs.apart (by simp)
    | cons name more =>
      have hnext : t.node? (root ++ place ++ [name]) = some .directory :=
        h.ground.enclosed.leads _ ⟨more, by simp⟩
      exact h.ground.copyDirectoryFrom_into_ne depth (h.ground_root hroot hs.root_apart)
        (hs.isName hroot.sound) (hs.isName hroot.sound) hasked
        (List.append_assoc (root ++ place) (name :: more) place)
        (kept_append_iff.mpr ⟨hkept, hplace⟩) ⟨_, hnext⟩ hc

theorem copyDirectory_eq_none {source target : Path}
    (h : t.copyDirectory skipped source target = (t', none)) :
    copyDirectoryFrom skipped (pathLimit / 2) t source target = .ok (t', false) := by
  rw [copyDirectory] at h
  split at h
  · cases h
  · next hcopied =>
    cases h
    exact hcopied
  · cases h

/-- A directory is copied to its image. -/
theorem Mirrors.copyDirectory (h : Mirrors t₀ t root loc reached) (hroot : t₀.Ground root)
    (hs : IsSource t₀ root loc skipped place)
    (hclosed : ∀ rest, reached (place ++ rest) → reached place)
    (hasked : t.isDirectory? [] (Path.ofLocation (root ++ place)) = .ok true)
    (hc : t.copyDirectory skipped (Path.ofLocation (root ++ place))
      (Path.ofLocation (loc ++ place)) = (t', none)) :
    Mirrors t₀ t' root loc fun rel =>
      reached rel ∨ ∃ rest, Kept skipped rest ∧ rel = place ++ rest := by
  have hground := h.ground_root hroot hs.root_apart
  have hnames := hs.isName hroot.sound
  have hcopied := copyDirectory_eq_none hc
  have hapart := h.apart_of_copied hroot hs hasked hcopied
  have hdirectory := (hground.isDirectory?_eq_true hnames hasked).2
  rw [h.outside _ hs.apart] at hdirectory
  refine h.grafted hclosed hdirectory hapart ?_
  exact h.ground.copyDirectoryFrom_grafted _ hground hnames hnames hasked
    (fun rest hrest hbelow => hapart rest hrest ((List.prefix_append _ _).trans hbelow)) hcopied

/-- A file is copied to its image, also where that stands already. -/
theorem Mirrors.copyFile (h : Mirrors t₀ t root loc reached) (hroot : t₀.Ground root)
    (hs : IsSource t₀ root loc skipped place)
    (hc : t.copyFile (Path.ofLocation (root ++ place)) (Path.ofLocation (loc ++ place)) =
      .ok t') :
    Mirrors t₀ t' root loc fun rel =>
      reached rel ∨ ∃ rest, Kept skipped rest ∧ rel = place ++ rest := by
  have hnames := hs.isName hroot.sound
  obtain ⟨bytes, hread, -, rfl, hground⟩ := h.ground.copyFile_eq_ok hnames hc
  have hfile := (h.ground_root hroot hs.root_apart).read_eq_ok hnames hread
  rw [h.outside _ hs.apart] at hfile
  have hself : (t.put (loc ++ place) (.file bytes)).node? (loc ++ place) = some (.file bytes) :=
    node?_put_self _ (by simp [hs.ne])
  -- below a file there is nothing, in the image as in the tree
  have hbelow : ∀ rest, (t.put (loc ++ place) (.file bytes)).node? (loc ++ (place ++ rest)) =
      t₀.node? (root ++ (place ++ rest)) := by
    intro rest
    rw [← List.append_assoc, ← List.append_assoc]
    by_cases hrest : rest = []
    · rw [hrest, List.append_nil, List.append_nil, hself, hfile]
    · rw [hground.sound.below_none (by simp [hself]) hrest,
        hroot.sound.below_none (by simp [hfile]) hrest]
  have hothers : ∀ rel, ¬ place <+: rel →
      (t.put (loc ++ place) (.file bytes)).node? (loc ++ rel) = t.node? (loc ++ rel) := by
    intro rel hrel
    refine node?_put_of_ne _ fun heq => hrel ?_
    have hsame : rel = place := List.append_cancel_left heq
    exact hsame ▸ List.prefix_refl place
  refine ⟨hground, fun other hother => ?_, fun rel hrel => ?_, fun rel hrel => ?_⟩
  · rw [node?_put_of_ne, h.outside other hother]
    rintro rfl
    exact hother (List.prefix_append _ _)
  · by_cases hunder : place <+: rel
    · obtain ⟨rest, rfl⟩ := hunder
      exact hbelow rest
    · rw [hothers rel hunder]
      exact h.same rel (hrel.resolve_right fun ⟨rest, _, heq⟩ => hunder ⟨rest, heq.symm⟩)
  · rw [not_or] at hrel
    by_cases hunder : place <+: rel
    · obtain ⟨rest, rfl⟩ := hunder
      have hne : rest ≠ [] := by
        rintro rfl
        exact hrel.2 ⟨[], kept_nil skipped, rfl⟩
      rw [← List.append_assoc]
      exact hground.sound.below_none (by simp [hself]) hne
    · rw [hothers rel hunder]
      exact h.beyond rel hrel.1

end

end TwoStage.FileTree
