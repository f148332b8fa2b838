import Mathlib.Data.Nat.Find
import TwoStage.Proofs.FileTree.Linkless

/-!
# Ways through links

A walk may be cut anywhere: it goes to a directory first, and from there on along the rest, with the
links that are left to it. What it ends at stands where the path is resolved to. So a path that
starts with a directory without links and never goes up ends below this directory, unless a link on
its way leads out.

## Main definitions

- `FileTree.SameLinks` — trees with the same links
- `FileTree.Inside` — locations below the one that a root is resolved to
- `FileTree.Escapes` — a link on the way along a path leads out of a root

## Main statements

- `FileTree.directory_before`, `FileTree.walkFrom_append` — a walk in two parts
- `FileTree.resolveFrom_of_walkFrom` — a walk ends where the path is resolved to
- `FileTree.SameLinks.resolveFrom`, `FileTree.SameLinks.resolve_of_walk` — the links decide where
  that is
- `FileTree.SameLinks.walk_under` — where paths below a root end
-/

namespace TwoStage.FileTree

-- ════════════════════════════════════════════════════════════════════════
-- Walks in two parts
-- ════════════════════════════════════════════════════════════════════════

/-- Where a descent halts that goes on along more components. -/
def Halt.goOn (t : FileTree) (more : List String) : Halt → Except Errno Halt
  | .done (.node place .directory) => t.descend true place more
  | .done (.node _ _) => .error .notDirectory
  | .done (.free _ _) => .error .noEntry
  | .link parent target rest => .ok (.link parent target (rest ++ more))

/-- A descent goes along the first components, and then on along the others. -/
theorem descend_append (t : FileTree) {more : List String} (hmore : more ≠ []) (loc : Location)
    (parts : List String) :
    t.descend true loc (parts ++ more) = t.descend true loc parts >>= Halt.goOn t more := by
  obtain ⟨next, later, rfl⟩ := List.exists_cons_of_ne_nil hmore
  fun_induction descend t true loc parts with
  | case1 loc node hnode =>
    cases node with
    | directory => rfl
    | file bytes => rw [List.nil_append, descend, hnode]; rfl
    | link target => rw [List.nil_append, descend, hnode]; rfl
  | case2 loc hnone => rw [List.nil_append, descend, hnone]; rfl
  | case3 loc rest hhere ih =>
    rw [List.cons_append, descend, hhere]
    exact ih
  | case4 loc rest hhere hdot ih =>
    rw [List.cons_append, descend, hhere]
    exact ih
  | case5 loc name rest hhere hdot hup hlong =>
    rw [List.cons_append, descend, hhere]
    simp only [hdot, hup, hlong, if_false, if_true]
    rfl
  | case6 loc name rest hhere hdot hup hshort hnone hlast =>
    rw [List.cons_append, descend, hhere, hnone]
    simp only [hdot, hup, hshort, if_false]
    obtain rfl := List.isEmpty_iff.mp hlast
    rfl
  | case7 loc name rest hhere hdot hup hshort hnone hnotLast =>
    rw [List.cons_append, descend, hhere, hnone]
    simp only [hdot, hup, hshort, if_false]
    rw [if_neg (by simp)]
    rfl
  | case8 loc name rest hhere hdot hup hshort target hlink hlast => simp at hlast
  | case9 loc name rest hhere hdot hup hshort target hlink hlast =>
    rw [List.cons_append, descend, hhere, hlink]
    simp only [hdot, hup, hshort, if_false, Bool.not_true, Bool.and_false, Bool.false_eq_true]
    rfl
  | case10 loc name rest hhere hdot hup hshort node hnolink hnode ih =>
    rw [List.cons_append, descend, hhere, hnode]
    simp only [hdot, hup, hshort, if_false]
    cases node with
    | link target => exact absurd rfl (hnolink target)
    | file bytes => exact ih
    | directory => exact ih
  | case11 loc name rest node hnot hhere =>
    rw [List.cons_append, descend, hhere]
    cases node with
    | directory => exact absurd rfl hnot
    | file bytes => rfl
    | link target => rfl
  | case12 loc name rest hnone =>
    rw [List.cons_append, descend, hnone]
    rfl

/-- A walk that goes on behind a directory is a walk from there, with the links that are left. -/
theorem walkFrom_append {t : FileTree} {links : Nat} {parts : List String} {loc place : Location}
    (h : t.walkFrom true links loc parts = .ok (.node place .directory)) :
    ∃ left ≤ links, ∀ more, more ≠ [] →
      t.walkFrom true links loc (parts ++ more) = t.walkFrom true left place more := by
  refine walkFrom_induct (motive := fun links loc parts => ∃ left ≤ links, ∀ more, more ≠ [] →
    t.walkFrom true links loc (parts ++ more) = t.walkFrom true left place more) ?_ ?_ h
  · intro links loc parts hdone
    refine ⟨links, Nat.le_refl links, fun more hmore => ?_⟩
    have hon : t.descend true loc (parts ++ more) = t.descend true place more := by
      rw [descend_append t hmore, hdone]
      rfl
    cases links <;> rw [walkFrom, walkFrom, hon]
  · rintro links loc parts parent target rest hmet ⟨left, hleft, hall⟩
    refine ⟨left, Nat.le_succ_of_le hleft, fun more hmore => ?_⟩
    have hon : t.descend true loc (parts ++ more) = .ok (.link parent target (rest ++ more)) := by
      rw [descend_append t hmore, hmet]
      rfl
    rw [walkFrom_of_link hon, ← List.append_assoc]
    exact hall more hmore

/-- A path is walked from the root of the tree, unless it is refused for its characters or for its
length. -/
theorem walk_eq_ok_iff {t : FileTree} {cwd loc : Location} {followLast : Bool}
    {destination : Destination} :
    t.walk cwd followLast (Path.ofLocation loc) = .ok destination ↔
      (∀ name ∈ loc, '\x00' ∉ name.toList) ∧
        (Path.ofLocation loc).text.utf8ByteSize < pathLimit ∧
        t.walkFrom followLast linkLimit [] loc = .ok destination := by
  refine walk_eq_ok_iff_walkFrom.trans
    (and_congr_left' ⟨fun hnull name hname hc => ?_, Path.contains_null_ofLocation⟩)
  rw [List.contains_iff_mem.mpr (Path.mem_text_of_holds ⟨name, hname, hc⟩)] at hnull
  cases hnull

/-- No name along a location without links is refused by a descent that goes there. -/
theorem Linkless.narrow_of_descend {t : FileTree} {followLast : Bool} (pre : Location)
    {rest : List String} (h : t.Linkless (pre ++ rest)) {halt : Halt}
    (hd : t.descend followLast pre rest = .ok halt) :
    ∀ name ∈ rest, name.utf8ByteSize ≤ componentLimit := by
  induction rest generalizing pre with
  | nil => simp
  | cons name rest ih =>
    obtain ⟨hshort, hcases⟩ := descend_cons_eq_ok (h.plain name (by simp)) hd
    rw [List.forall_mem_cons]
    refine ⟨hshort, ?_⟩
    rcases hcases with ⟨-, rfl, -⟩ | ⟨target, hlink⟩ | ⟨-, hd⟩
    · simp
    · exact absurd hlink (h.clear _ (by simp) target)
    · rw [append_cons_eq] at h
      exact ih _ h hd

/-- A location without links is walkable if a walk goes there. -/
theorem Linkless.walkable {t : FileTree} {cwd loc : Location} (h : t.Linkless loc)
    {followLast : Bool} {destination : Destination}
    (hw : t.walk cwd followLast (Path.ofLocation loc) = .ok destination) : Walkable loc := by
  obtain ⟨hnull, hshort, hfrom⟩ := walk_eq_ok_iff.mp hw
  refine ⟨hnull, ?_, hshort⟩
  rcases walkFrom_cases hfrom with hdone | ⟨_, _, _, _, -, hmet, -⟩
  · exact Linkless.narrow_of_descend [] h hdone
  · exact Linkless.narrow_of_descend [] h hmet

/-- What the first part of a walk in two parts ends at: a directory. -/
theorem directory_before {t : FileTree} {links : Nat} {parts more : List String}
    (hmore : more ≠ []) {loc : Location} {destination : Destination}
    (h : t.walkFrom true links loc (parts ++ more) = .ok destination) :
    ∃ place, t.walkFrom true links loc parts = .ok (.node place .directory) := by
  refine walkFrom_induct (motive := fun links loc whole => ∀ parts, whole = parts ++ more →
    ∃ place, t.walkFrom true links loc parts = .ok (.node place .directory)) ?_ ?_ h parts rfl
  · rintro links loc _ hdone parts rfl
    rw [descend_append t hmore] at hdone
    cases hd : t.descend true loc parts with
    | error why =>
      rw [hd] at hdone
      cases hdone
    | ok halt =>
      rw [hd] at hdone
      rcases halt with (⟨place, bytes | _ | target⟩ | ⟨parent, name⟩) | ⟨parent, target, rest⟩
      · cases hdone
      · exact ⟨place, walkFrom_of_done hd links⟩
      · cases hdone
      · cases hdone
      · cases hdone
  · rintro links loc _ parent target rest hmet ih parts rfl
    rw [descend_append t hmore] at hmet
    cases hd : t.descend true loc parts with
    | error why =>
      rw [hd] at hmet
      cases hmet
    | ok halt =>
      rw [hd] at hmet
      rcases halt with (⟨place, bytes | _ | held⟩ | ⟨above, name⟩) | ⟨above, held, before⟩
      · cases hmet
      · exact ⟨place, walkFrom_of_done hd _⟩
      · cases hmet
      · cases hmet
      · cases hmet
        rw [walkFrom_of_link hd]
        exact ih _ (List.append_assoc _ _ _).symm

/-- A walk that ends somewhere finds something under its first name. -/
theorem exists_node_of_walkFrom {t : FileTree} {links : Nat} {loc place : Location} {name : String}
    {rest : List String} {node : Node} (hname : name ≠ "." ∧ name ≠ "..")
    (h : t.walkFrom true links loc (name :: rest) = .ok (.node place node)) :
    ∃ found, t.node? (loc ++ [name]) = some found := by
  cases hfound : t.node? (loc ++ [name]) with
  | some found => exact ⟨found, rfl⟩
  | none =>
    have hdescend : ∀ halt, t.descend true loc (name :: rest) = .ok halt →
        halt = .done (.free loc name) := by
      intro halt hd
      rcases (descend_cons_eq_ok hname hd).2 with ⟨-, -, hhalt⟩ | ⟨_, hlink⟩ | ⟨⟨_, hnode⟩, -⟩
      · exact hhalt
      · cases hfound.symm.trans hlink
      · cases hfound.symm.trans hnode
    rcases walkFrom_cases h with hdone | ⟨_, _, _, _, -, hmet, -⟩
    · cases hdescend _ hdone
    · cases hdescend _ hmet

-- ════════════════════════════════════════════════════════════════════════
-- Walks with more links
-- ════════════════════════════════════════════════════════════════════════

/-- A walk that ends somewhere ends there with more links as well. -/
theorem walkFrom_mono {t : FileTree} {followLast : Bool} {links more : Nat} {loc : Location}
    {parts : List String} {destination : Destination}
    (h : t.walkFrom followLast links loc parts = .ok destination) (hmore : links ≤ more) :
    t.walkFrom followLast more loc parts = .ok destination := by
  refine walkFrom_induct (motive := fun links loc parts => ∀ more, links ≤ more →
    t.walkFrom followLast more loc parts = .ok destination) ?_ ?_ h more hmore
  · exact fun _ _ _ hdone more _ => walkFrom_of_done hdone more
  · intro links loc parts parent target rest hmet ih more hmore
    obtain ⟨more, rfl⟩ := Nat.exists_eq_add_of_le' (Nat.le_of_add_left_le hmore)
    rw [walkFrom_of_link hmet]
    exact ih more (Nat.le_of_add_le_add_right hmore)

/-- A walk along some components is one along the first of them. -/
theorem walkFrom_before {t : FileTree} {links : Nat} {loc : Location} {parts more : List String}
    {destination : Destination} (h : t.walkFrom true links loc (parts ++ more) = .ok destination) :
    ∃ ended, t.walkFrom true links loc parts = .ok ended := by
  cases more with
  | nil =>
    rw [List.append_nil] at h
    exact ⟨destination, h⟩
  | cons =>
    obtain ⟨place, hplace⟩ := directory_before (List.cons_ne_nil _ _) h
    exact ⟨_, hplace⟩

theorem descend_true {t : FileTree} {loc : Location} {parts : List String} {halt : Halt}
    (h : t.descend false loc parts = .ok halt)
    (hnot : ∀ place target, halt ≠ .done (.node place (.link target))) :
    t.descend true loc parts = .ok halt := by
  fun_induction FileTree.descend t false loc parts with
  | case1 loc node hnode =>
    rw [descend, hnode]
    exact h
  | case2 | case5 | case7 | case11 | case12 => cases h
  | case3 loc rest hhere ih =>
    rw [descend, hhere]
    exact ih h
  | case4 loc rest hhere hdot ih =>
    rw [descend, hhere]
    exact ih h
  | case6 loc name rest hhere hdot hup hshort hnone hlast =>
    rw [descend, hhere]
    simp only [hdot, hup, hshort, if_false, hnone, hlast, if_true]
    exact h
  | case8 loc name rest hhere hdot hup hshort target hlink hlast =>
    cases h
    exact absurd rfl (hnot _ target)
  | case9 loc name rest hhere hdot hup hshort target hlink hlast =>
    rw [descend, hhere]
    simp only [hdot, hup, hshort, if_false, hlink, Bool.not_true, Bool.and_false,
      Bool.false_eq_true]
    exact h
  | case10 loc name rest hhere hdot hup hshort node hnolink hnode ih =>
    rw [descend, hhere]
    simp only [hdot, hup, hshort, if_false, hnode]
    cases node with
    | link target => exact absurd rfl (hnolink target)
    | file bytes => exact ih h
    | directory => exact ih h

/-- A walk that follows no link at the end ends where one does that follows it, unless it ends at a
link. -/
theorem walkFrom_true {t : FileTree} {followLast : Bool} {links : Nat} {loc : Location}
    {parts : List String} {destination : Destination}
    (h : t.walkFrom followLast links loc parts = .ok destination)
    (hfollows : followLast = true ∨ ∀ place target, destination ≠ .node place (.link target)) :
    t.walkFrom true links loc parts = .ok destination := by
  cases followLast with
  | true => exact h
  | false =>
    have hnot := hfollows.resolve_left Bool.false_ne_true
    refine walkFrom_induct (motive := fun links loc parts =>
      t.walkFrom true links loc parts = .ok destination) ?_ ?_ h
    · intro links loc parts hdone
      refine walkFrom_of_done (descend_true hdone fun place target heq => ?_) links
      cases heq
      exact hnot place target rfl
    · intro links loc parts parent target rest hmet ih
      rw [walkFrom_of_link (descend_true hmet nofun)]
      exact ih

-- ════════════════════════════════════════════════════════════════════════
-- Where a path is resolved to
-- ════════════════════════════════════════════════════════════════════════

/-- The location that a destination stands for. -/
def Destination.place : Destination → Location
  | .node loc _ => loc
  | .free parent name => parent ++ [name]

/-- Resolving a path goes along it as a descent does. -/
theorem passAlong_of_done {t : FileTree} {parts : List String} {loc : Location}
    {destination : Destination} (h : t.descend true loc parts = .ok (.done destination))
    (follow : Location → String → String → Resolution) :
    t.passAlong follow loc parts = .reached destination.place := by
  fun_induction descend t true loc parts with
  | case1 loc node hnode =>
    cases h
    rfl
  | case3 loc rest hhere ih =>
    rw [passAlong, if_pos rfl]
    exact ih h
  | case4 loc rest hhere hdot ih =>
    rw [passAlong, if_neg hdot, if_pos rfl]
    exact ih h
  | case6 loc name rest hhere hdot hup hshort hnone hlast =>
    cases h
    rw [passAlong, if_neg hdot, if_neg hup, hnone, List.isEmpty_iff.mp hlast]
    rfl
  | case8 loc name rest hhere hdot hup hshort target hlink hlast => simp at hlast
  | case10 loc name rest hhere hdot hup hshort node hnolink hnode ih =>
    rw [passAlong, if_neg hdot, if_neg hup, hnode]
    cases node with
    | link target => exact absurd rfl (hnolink target)
    | file bytes => exact ih h
    | directory => exact ih h
  | case2 | case5 | case7 | case9 | case11 | case12 => cases h

/-- It does so up to the first link, whatever is left of the path behind that. -/
theorem exists_passAlong_of_link {t : FileTree} {loc parent : Location}
    {parts rest : List String} {target : String}
    (h : t.descend true loc parts = .ok (.link parent target rest)) :
    ∃ name, (∀ other, t.descend true parent (name :: other) = .ok (.link parent target other)) ∧
      ∀ follow, t.passAlong follow loc parts =
        match follow parent name target with
        | .reached inner => t.passAlong follow inner rest
        | .circled inner => .circled (takeAlong inner rest) := by
  fun_induction descend t true loc parts with
  | case3 loc later hhere ih =>
    obtain ⟨name, hmeets, hpass⟩ := ih h
    refine ⟨name, hmeets, fun follow => ?_⟩
    rw [passAlong, if_pos rfl]
    exact hpass follow
  | case4 loc later hhere hdot ih =>
    obtain ⟨name, hmeets, hpass⟩ := ih h
    refine ⟨name, hmeets, fun follow => ?_⟩
    rw [passAlong, if_neg hdot, if_pos rfl]
    exact hpass follow
  | case8 loc name later hhere hdot hup hshort held hlink hlast => simp at hlast
  | case9 loc name later hhere hdot hup hshort held hlink hlast =>
    cases h
    refine ⟨name, fun other => ?_, fun follow => ?_⟩
    · rw [descend, hhere]
      simp only [hdot, hup, hshort, if_false, hlink, Bool.not_true, Bool.and_false,
        Bool.false_eq_true]
    · cases hfollow : follow parent name target <;>
      · rw [passAlong, if_neg hdot, if_neg hup, hlink]
        simp only [hfollow]
  | case10 loc next later hhere hdot hup hshort node hnolink hnode ih =>
    obtain ⟨name, hmeets, hpass⟩ := ih h
    refine ⟨name, hmeets, fun follow => ?_⟩
    rw [passAlong, if_neg hdot, if_neg hup, hnode]
    cases node with
    | link target => exact absurd rfl (hnolink target)
    | file bytes => exact hpass follow
    | directory => exact hpass follow
  | case1 | case2 | case5 | case6 | case7 | case11 | case12 => cases h

/-- Of the walks that start with a name, one has the fewest links. -/
theorem exists_least_walk {t : FileTree} {links : Nat} {parent : Location} {name : String}
    {rest : List String} {destination : Destination}
    (h : t.walkFrom true links parent (name :: rest) = .ok destination) :
    ∃ least ≤ links,
      (∃ other ended, t.walkFrom true least parent (name :: other) = .ok ended) ∧
      ∀ fewer < least, ∀ other ended, t.walkFrom true fewer parent (name :: other) ≠ .ok ended := by
  classical
  have hsome : ∃ links other ended, t.walkFrom true links parent (name :: other) = .ok ended :=
    ⟨links, rest, destination, h⟩
  exact ⟨Nat.find hsome, Nat.find_min' hsome ⟨rest, destination, h⟩, Nat.find_spec hsome,
    fun fewer hfewer other ended hwalk => Nat.find_min hsome hfewer ⟨other, ended, hwalk⟩⟩

/-- The target of a link is walked with fewer links than any walk that starts with the link has. -/
theorem exists_fewer_links {t : FileTree} {links : Nat} {parent : Location} {name target : String}
    {rest : List String} {destination ended : Destination}
    (hmeets : ∀ other, t.descend true parent (name :: other) = .ok (.link parent target other))
    (h : t.walkFrom true (links + 1) parent (name :: rest) = .ok destination)
    (hended : t.walkFrom true links (targetStart parent target) (targetParts target) = .ok ended) :
    ∃ fewer ≤ links,
      t.walkFrom true fewer (targetStart parent target) (targetParts target) = .ok ended ∧
      ∀ other last, t.walkFrom true fewer parent (name :: other) ≠ .ok last := by
  obtain ⟨least, hleast, ⟨other, last, hwalk⟩, hminimal⟩ := exists_least_walk h
  rcases walkFrom_cases hwalk with hdone | ⟨fewer, _, _, _, rfl, hlink, hother⟩
  · cases (hmeets other).symm.trans hdone
  · cases (hmeets other).symm.trans hlink
    have hfewer : fewer ≤ links := Nat.le_of_add_le_add_right hleast
    obtain ⟨found, hfound⟩ := walkFrom_before hother
    have hsame := walkFrom_mono hfound hfewer
    rw [hended] at hsame
    obtain rfl : ended = found := Except.ok.inj hsame
    exact ⟨fewer, hfewer, hfound, hminimal fewer (Nat.lt_succ_self fewer)⟩

/-- A walk ends where the path is resolved to, as long as no walk that starts with a pending link
gets by with as few links. So no link on the way is pending. -/
theorem resolveFrom_of_walkFrom {t : FileTree} {links depth : Nat} {pending : List Location}
    {parts : List String} {loc : Location} {destination : Destination}
    (h : t.walkFrom true links loc parts = .ok destination) (hdepth : links ≤ depth)
    (hpending : ∀ parent name, parent ++ [name] ∈ pending →
      ∀ rest ended, t.walkFrom true links parent (name :: rest) ≠ .ok ended) :
    t.resolveFrom depth pending loc parts = .reached destination.place := by
  induction links using Nat.strongRecOn generalizing depth pending loc parts destination with
  | ind links ih =>
    rcases walkFrom_cases h with hdone | ⟨less, parent, target, rest, rfl, hmet, hrest⟩
    · cases depth <;> exact passAlong_of_done hdone _
    · obtain ⟨depth, rfl⟩ := Nat.exists_eq_add_of_le' (Nat.le_of_add_left_le hdepth)
      have hless : less ≤ depth := Nat.le_of_add_le_add_right hdepth
      obtain ⟨name, hmeets, hpass⟩ := exists_passAlong_of_link hmet
      have hhere : t.walkFrom true (less + 1) parent (name :: rest) = .ok destination := by
        rw [walkFrom_of_link (hmeets rest)]
        exact hrest
      have hfree : pending.contains (parent ++ [name]) = false := by
        rw [Bool.eq_false_iff, ne_eq, List.contains_iff_mem]
        exact fun hmem => hpending _ _ hmem _ _ hhere
      have htarget : ∀ ended,
          t.walkFrom true less (targetStart parent target) (targetParts target) = .ok ended →
          t.resolveFrom depth ((parent ++ [name]) :: pending) (targetStart parent target)
            (targetParts target) = .reached ended.place := by
        intro ended hended
        obtain ⟨fewer, hfewer, hfound, hnone⟩ := exists_fewer_links hmeets hhere hended
        refine ih fewer (Nat.lt_succ_of_le hfewer) hfound (Nat.le_trans hfewer hless) ?_
        intro above last hmem later ended hwalk
        rcases List.mem_cons.mp hmem with heq | hmem
        · obtain ⟨rfl, hname⟩ := List.append_inj' heq rfl
          cases hname
          exact hnone _ _ hwalk
        · exact hpending _ _ hmem _ _ (walkFrom_mono hwalk (Nat.le_succ_of_le hfewer))
      rw [resolveFrom, hpass]
      dsimp only
      rw [hfree, if_neg Bool.false_ne_true]
      cases rest with
      | nil =>
        rw [List.append_nil] at hrest
        rw [htarget _ hrest]
        rfl
      | cons next later =>
        obtain ⟨place, hplace⟩ := directory_before (List.cons_ne_nil _ _) hrest
        obtain ⟨left, hleft, hall⟩ := walkFrom_append hplace
        rw [hall _ (List.cons_ne_nil _ _)] at hrest
        rw [htarget _ hplace]
        have hlater : t.resolveFrom (depth + 1) pending place (next :: later) =
            .reached destination.place :=
          ih left (Nat.lt_succ_of_le hleft) hrest (Nat.le_trans hleft (Nat.le_succ_of_le hless))
            fun _ _ hmem _ _ hwalk =>
              hpending _ _ hmem _ _ (walkFrom_mono hwalk (Nat.le_succ_of_le hleft))
        rw [resolveFrom] at hlater
        exact hlater

-- ════════════════════════════════════════════════════════════════════════
-- Trees with the same links
-- ════════════════════════════════════════════════════════════════════════

/-- Trees in which the same links stand. -/
def SameLinks (t t' : FileTree) : Prop :=
  ∀ loc target, t'.node? loc = some (.link target) ↔ t.node? loc = some (.link target)

namespace SameLinks

theorem refl (t : FileTree) : t.SameLinks t := fun _ _ => Iff.rfl

variable {t t' : FileTree} (h : t.SameLinks t')

include h

theorem passAlong (follow : Location → String → String → Resolution) (loc : Location)
    (parts : List String) : t'.passAlong follow loc parts = t.passAlong follow loc parts := by
  fun_induction FileTree.passAlong t follow loc parts with
  | case1 loc => rfl
  | case2 loc rest ih =>
    rw [FileTree.passAlong, if_pos rfl]
    exact ih
  | case3 loc rest hdot ih =>
    rw [FileTree.passAlong, if_neg hdot, if_pos rfl]
    exact ih
  | case4 loc name rest hdot hup target hlink inner hreached ih =>
    rw [FileTree.passAlong, if_neg hdot, if_neg hup, (h _ target).mpr hlink]
    dsimp only
    rw [hreached]
    exact ih
  | case5 loc name rest hdot hup target hlink inner hcircled =>
    rw [FileTree.passAlong, if_neg hdot, if_neg hup, (h _ target).mpr hlink]
    dsimp only
    rw [hcircled]
  | case6 loc name rest hdot hup hnolink ih =>
    rw [FileTree.passAlong, if_neg hdot, if_neg hup]
    split
    · next target hlink => exact absurd ((h _ target).mp hlink) (hnolink target)
    · exact ih

/-- The links decide where a path comes to. -/
theorem resolveFrom (depth : Nat) (pending : List Location) (loc : Location)
    (parts : List String) :
    t'.resolveFrom depth pending loc parts = t.resolveFrom depth pending loc parts := by
  induction depth generalizing pending loc parts with
  | zero => exact h.passAlong _ loc parts
  | succ depth ih =>
    rw [FileTree.resolveFrom, FileTree.resolveFrom, h.passAlong]
    simp only [ih]

/-- A walk ends where the path is resolved to in any tree with the same links, unless it ends at a
link. -/
theorem resolve_of_walk {cwd : Location} {followLast : Bool} {p : Path} {destination : Destination}
    (hw : t'.walk cwd followLast p = .ok destination)
    (hfollows : followLast = true ∨ ∀ place target, destination ≠ .node place (.link target)) :
    t.resolve cwd p = .ok destination.place := by
  obtain ⟨hnull, -, hfrom⟩ := walk_eq_ok_iff_walkFrom.mp hw
  have hreached := resolveFrom_of_walkFrom (walkFrom_true hfrom hfollows)
    (show linkLimit ≤ resolveLimit by decide) (fun _ _ hmem => absurd hmem List.not_mem_nil)
  rw [h.resolveFrom] at hreached
  rw [resolve, hnull, if_neg Bool.false_ne_true, hreached]

/-- So does a walk from the root of the tree. -/
theorem resolve_of_walkFrom {cwd loc place : Location} {node : Node}
    (hnull : ∀ name ∈ loc, '\x00' ∉ name.toList)
    (hw : t'.walkFrom true linkLimit [] loc = .ok (.node place node)) :
    t.resolve cwd (Path.ofLocation loc) = .ok place := by
  have hreached := resolveFrom_of_walkFrom hw (show linkLimit ≤ resolveLimit by decide)
    (fun _ _ hmem => absurd hmem List.not_mem_nil)
  rw [h.resolveFrom] at hreached
  have habsolute : (Path.ofLocation loc).isAbsolute = true := rfl
  have hparts : (Path.ofLocation loc).parts = loc := rfl
  rw [resolve, Path.contains_null_ofLocation hnull, if_neg Bool.false_ne_true, habsolute,
    if_pos rfl, hparts, hreached]
  rfl

end SameLinks

-- ════════════════════════════════════════════════════════════════════════
-- Links that lead out
-- ════════════════════════════════════════════════════════════════════════

/-- A location is at or below the one that a root is resolved to. -/
def Inside (t : FileTree) (root place : Location) : Prop :=
  ∃ real, t.resolve [] (Path.ofLocation root) = .ok real ∧ real <+: place

/-- On the way along a path below a root, a link that stands inside the root leads to a location that
does not. -/
def Escapes (t : FileTree) (root : Location) (rel : List String) : Prop :=
  ∃ before name after, rel = before ++ name :: after ∧
    ∃ inside, t.resolve [] (Path.ofLocation (root ++ before)) = .ok inside ∧ t.Inside root inside ∧
      (∃ target, t.node? (inside ++ [name]) = some (.link target)) ∧
      ∃ outside, t.resolve [] (Path.ofLocation (root ++ (before ++ [name]))) = .ok outside ∧
        ¬ t.Inside root outside

/-- A walk of one component ends below the directory, unless a link stands there. -/
theorem walkFrom_singleton {t : FileTree} {links : Nat} {loc place : Location} {name : String}
    {node : Node} (hname : name ≠ "." ∧ name ≠ "..")
    (h : t.walkFrom true links loc [name] = .ok (.node place node)) :
    place = loc ++ [name] ∨ ∃ target, t.node? (loc ++ [name]) = some (.link target) := by
  by_cases hlink : ∃ target, t.node? (loc ++ [name]) = some (.link target)
  · exact Or.inr hlink
  · have hdescend : ∀ halt, t.descend true loc [name] = .ok halt →
        (∃ node, halt = .done (.node (loc ++ [name]) node)) ∨ halt = .done (.free loc name) := by
      intro halt hd
      rcases (descend_cons_eq_ok hname hd).2 with ⟨-, -, hhalt⟩ | hthere | ⟨-, hd⟩
      · exact Or.inr hhalt
      · exact absurd hthere hlink
      · obtain ⟨node, -, hhalt⟩ := descend_nil_eq_ok hd
        exact Or.inl ⟨node, hhalt⟩
    rcases walkFrom_cases h with hdone | ⟨_, _, _, _, -, hmet, -⟩
    · rcases hdescend _ hdone with ⟨_, heq⟩ | heq
      · cases heq
        exact Or.inl rfl
      · cases heq
    · rcases hdescend _ hmet with ⟨_, heq⟩ | heq <;> cases heq

namespace SameLinks

variable {t t' : FileTree} (h : t.SameLinks t')

include h

/-- A path below a root ends inside the root, or on its way a link leads out: with each component it
is inside the root still, or has just left it by a link. -/
theorem walkFrom_under {root : Location} {rel : List String} (hrel : Plain rel)
    (hnull : ∀ name ∈ root ++ rel, '\x00' ∉ name.toList) {place : Location} {node : Node}
    (hw : t'.walkFrom true linkLimit [] (root ++ rel) = .ok (.node place node)) :
    t.Inside root place ∨ t.Escapes root rel := by
  induction rel using List.reverseRecOn generalizing place node with
  | nil =>
    rw [List.append_nil] at hw hnull
    exact Or.inl ⟨place, h.resolve_of_walkFrom hnull hw, List.prefix_refl place⟩
  | append_singleton rel name ih =>
    have hwhole := hw
    rw [← List.append_assoc] at hw hnull
    obtain ⟨inside, hinside⟩ := directory_before (List.cons_ne_nil _ _) hw
    have hbefore : ∀ other ∈ root ++ rel, '\x00' ∉ other.toList :=
      fun other hother => hnull other (List.mem_append_left _ hother)
    rcases ih (fun other hother => hrel other (List.mem_append_left _ hother)) hbefore hinside with
      hunder | ⟨before, first, after, rfl, hescape⟩
    · obtain ⟨left, -, hall⟩ := walkFrom_append hinside
      rw [hall [name] (List.cons_ne_nil _ _)] at hw
      rcases walkFrom_singleton (hrel name (by simp)) hw with rfl | ⟨target, hlink⟩
      · obtain ⟨real, hreal, hprefix⟩ := hunder
        exact Or.inl ⟨real, hreal, hprefix.trans (List.prefix_append _ _)⟩
      · by_cases hplace : t.Inside root place
        · exact Or.inl hplace
        · rw [List.append_assoc] at hnull
          exact Or.inr ⟨rel, name, [], rfl, inside, h.resolve_of_walkFrom hbefore hinside, hunder,
            ⟨target, (h _ _).mp hlink⟩, place, h.resolve_of_walkFrom hnull hwhole, hplace⟩
    · exact Or.inr ⟨before, first, after ++ [name], by simp, hescape⟩

/-- What a path below a root leads to stands where the path is resolved to: inside the root, unless a
link leads out. -/
theorem walk_under {root : Location} {rel : List String} (hrel : Plain rel) {cwd place : Location}
    {node : Node}
    (hw : t'.walk cwd true (Path.ofLocation (root ++ rel)) = .ok (.node place node)) :
    t.resolve [] (Path.ofLocation (root ++ rel)) = .ok place ∧
      (t.Inside root place ∨ t.Escapes root rel) := by
  obtain ⟨hnull, -, hfrom⟩ := walk_eq_ok_iff.mp hw
  exact ⟨h.resolve_of_walkFrom hnull hfrom, h.walkFrom_under hrel hnull hfrom⟩

end SameLinks

end TwoStage.FileTree
