import Mathlib.Data.List.Induction
import TwoStage.Proofs.FileTree.Reading
import TwoStage.Proofs.Path

/-!
# Sound file trees

A file tree is sound when no location is listed twice, when everything stands in a directory, and
when all names are names that a component of a path can have. Nothing stands then below a file or
below a place where nothing stands, and a path without links leads where it says, as long as it is
not refused for its length.

## Main definitions

- `IsName` — names that a component of a path can have
- `FileTree.Sound` — sound trees
- `Walkable` — locations whose paths are not refused for their characters or for their length

## Main statements

- `FileTree.Sound.leads`, `FileTree.Sound.below_none` — what stands above and below a location
- `FileTree.Sound.put` — a node set where nothing or a file stood
- `FileTree.Sound.walk_node`, `FileTree.Sound.walk_free` — where walks without links end
-/

namespace TwoStage

/-- A name that a component of a path can have. -/
def IsName (name : String) : Prop :=
  name ≠ "" ∧ name ≠ "." ∧ name ≠ ".." ∧ '/' ∉ name.toList

instance (name : String) : Decidable (IsName name) := by
  unfold IsName
  infer_instance

theorem isName_concat {parts : List String} {name : String} (h : ∀ other ∈ parts, IsName other)
    (hname : IsName name) : ∀ other ∈ parts ++ [name], IsName other :=
  List.forall_mem_append.mpr ⟨h, List.forall_mem_singleton.mpr hname⟩

theorem isName_dropLast {parts : List String} (h : ∀ name ∈ parts, IsName name) :
    ∀ name ∈ parts.dropLast, IsName name :=
  fun name hname => h name (List.dropLast_subset parts hname)

theorem plain_of_isName {parts : List String} (h : ∀ name ∈ parts, IsName name) : Plain parts :=
  fun name hname => ⟨(h name hname).2.1, (h name hname).2.2.1⟩

namespace FileTree

/-- A tree in which no location is listed twice, everything stands in a directory, and all names are
names of components. -/
structure Sound (t : FileTree) : Prop where
  distinct : (t.entries.map Prod.fst).Nodup
  based : ∀ entry ∈ t.entries, entry.1 ≠ [] ∧ t.node? entry.1.dropLast = some .directory
  named : ∀ entry ∈ t.entries, ∀ name ∈ entry.1, IsName name

instance (node : Option Node) : Decidable (node = some .directory) :=
  match node with
  | some .directory => isTrue rfl
  | none | some (.file _) | some (.link _) => isFalse nofun

instance (t : FileTree) : Decidable t.Sound :=
  decidable_of_iff
    ((t.entries.map Prod.fst).Nodup ∧
      (∀ entry ∈ t.entries, entry.1 ≠ [] ∧ t.node? entry.1.dropLast = some .directory) ∧
      ∀ entry ∈ t.entries, ∀ name ∈ entry.1, IsName name)
    ⟨fun h => ⟨h.1, h.2.1, h.2.2⟩, fun h => ⟨h.distinct, h.based, h.named⟩⟩

-- ════════════════════════════════════════════════════════════════════════
-- What stands where
-- ════════════════════════════════════════════════════════════════════════

theorem mem_entries_of_node? {t : FileTree} {loc : Location} {node : Node} (hne : loc ≠ [])
    (h : t.node? loc = some node) : (loc, node) ∈ t.entries := by
  rw [node?, if_neg (by simpa using hne), List.lookup_eq_some_iff] at h
  obtain ⟨before, after, hentries, -⟩ := h
  rw [hentries]
  exact List.mem_append_right _ List.mem_cons_self

theorem lookup_of_mem {entries : List (Location × Node)} (h : (entries.map Prod.fst).Nodup)
    {loc : Location} {node : Node} (hmem : (loc, node) ∈ entries) :
    entries.lookup loc = some node := by
  induction entries with
  | nil => cases hmem
  | cons entry rest ih =>
    obtain ⟨first, old⟩ := entry
    rw [List.map_cons, List.nodup_cons] at h
    rcases List.mem_cons.mp hmem with heq | hrest
    · cases heq
      simp
    · have hne : (loc == first) = false := by
        simp only [beq_eq_false_iff_ne, ne_eq]
        rintro rfl
        exact h.1 (List.mem_map.mpr ⟨(loc, node), hrest, rfl⟩)
      rw [List.lookup_cons, hne, ih h.2 hrest]

namespace Sound

variable {t : FileTree} (h : t.Sound)

include h

/-- The entries of a sound tree are what stands somewhere but at the root. -/
theorem mem_entries_iff {loc : Location} {node : Node} :
    (loc, node) ∈ t.entries ↔ loc ≠ [] ∧ t.node? loc = some node := by
  constructor
  · intro hmem
    have hne := (h.based _ hmem).1
    rw [node?, if_neg (by simpa using hne)]
    exact ⟨hne, lookup_of_mem h.distinct hmem⟩
  · exact fun hnode => mem_entries_of_node? hnode.1 hnode.2

theorem isName_of_node? {loc : Location} {node : Node} (hnode : t.node? loc = some node) :
    ∀ name ∈ loc, IsName name := by
  cases loc with
  | nil => simp
  | cons first rest => exact h.named _ (mem_entries_of_node? (List.cons_ne_nil _ _) hnode)

/-- Whatever stands somewhere stands in directories all the way. -/
theorem leads_append {above : Location} (rest : List String) (hrest : rest ≠ []) {node : Node}
    (hnode : t.node? (above ++ rest) = some node) : t.node? above = some .directory := by
  induction rest using List.reverseRecOn generalizing node with
  | nil => exact absurd rfl hrest
  | append_singleton rest name ih =>
    have hne : above ++ (rest ++ [name]) ≠ [] := by simp
    have hparent := (h.based _ (mem_entries_of_node? hne hnode)).2
    simp only [← List.append_assoc, List.dropLast_concat] at hparent
    cases rest with
    | nil => simpa using hparent
    | cons first more => exact ih (List.cons_ne_nil _ _) hparent

theorem leads {above loc : Location} (habove : above <+: loc) (hne : above ≠ loc) {node : Node}
    (hnode : t.node? loc = some node) : t.node? above = some .directory := by
  obtain ⟨rest, rfl⟩ := habove
  exact h.leads_append rest (by rintro rfl; simp at hne) hnode

/-- Nothing stands below a place where no directory stands. -/
theorem below_none {loc : Location} (hnode : t.node? loc ≠ some .directory) {rest : List String}
    (hrest : rest ≠ []) : t.node? (loc ++ rest) = none := by
  cases hbelow : t.node? (loc ++ rest) with
  | none => rfl
  | some node => exact absurd (h.leads_append rest hrest hbelow) hnode

/-- Nothing stands at or below a place where nothing stands. -/
theorem below_free {loc : Location} (hnone : t.node? loc = none) (rest : List String) :
    t.node? (loc ++ rest) = none := by
  cases rest with
  | nil => rwa [List.append_nil]
  | cons name rest => exact h.below_none (by simp [hnone]) (List.cons_ne_nil _ _)

end Sound

-- ════════════════════════════════════════════════════════════════════════
-- Setting a node
-- ════════════════════════════════════════════════════════════════════════

theorem map_fst_putEntry (loc : Location) (node : Node) (entries : List (Location × Node)) :
    (putEntry loc node entries).map Prod.fst =
      if loc ∈ entries.map Prod.fst then entries.map Prod.fst
      else entries.map Prod.fst ++ [loc] := by
  induction entries with
  | nil => simp [putEntry]
  | cons entry rest ih =>
    obtain ⟨first, old⟩ := entry
    by_cases hf : first = loc
    · simp [putEntry, hf]
    · simp only [putEntry, if_neg hf, List.map_cons, ih, List.mem_cons, Ne.symm hf, false_or]
      split <;> rfl

/-- A tree stays sound when a node is set in a directory where nothing or a file stood. -/
theorem Sound.put {t : FileTree} (h : t.Sound) {loc : Location} (node : Node) (hne : loc ≠ [])
    (hparent : t.node? loc.dropLast = some .directory) (hnames : ∀ name ∈ loc, IsName name)
    (hold : ∀ old, t.node? loc = some old → ∃ bytes, old = .file bytes) :
    (t.put loc node).Sound := by
  refine ⟨?_, fun entry hmem => ?_, fun entry hmem => ?_⟩
  · rw [FileTree.put, map_fst_putEntry]
    split
    · exact h.distinct
    · next hnew => simpa using h.distinct.concat hnew
  · have hways := SameWays.put node hold
    rcases mem_putEntry hmem with hmem | rfl
    · obtain ⟨hentry, hbase⟩ := h.based entry hmem
      exact ⟨hentry, hways _ _ hbase (by simp)⟩
    · exact ⟨hne, hways _ _ hparent (by simp)⟩
  · rcases mem_putEntry hmem with hmem | rfl
    · exact h.named entry hmem
    · exact hnames

end FileTree

-- ════════════════════════════════════════════════════════════════════════
-- Paths that are not refused
-- ════════════════════════════════════════════════════════════════════════

/-- A location whose path is not refused for its characters or for its length. -/
structure Walkable (loc : Location) : Prop where
  noNull : ∀ name ∈ loc, '\x00' ∉ name.toList
  narrow : ∀ name ∈ loc, name.utf8ByteSize ≤ FileTree.componentLimit
  short : (Path.ofLocation loc).text.utf8ByteSize < FileTree.pathLimit

theorem walkable_iff {loc : Location} :
    Walkable loc ↔ (∀ name ∈ loc, '\x00' ∉ name.toList) ∧
      (∀ name ∈ loc, name.utf8ByteSize ≤ FileTree.componentLimit) ∧
      (Path.ofLocation loc).text.utf8ByteSize < FileTree.pathLimit :=
  ⟨fun h => ⟨h.noNull, h.narrow, h.short⟩, fun h => ⟨h.1, h.2.1, h.2.2⟩⟩

instance (loc : Location) : Decidable (Walkable loc) := decidable_of_iff' _ walkable_iff

/-- The path of a location holds no null character that is not in one of its names. -/
theorem Path.contains_null_ofLocation {loc : Location} (h : ∀ name ∈ loc, '\x00' ∉ name.toList) :
    (ofLocation loc).text.toList.contains '\x00' = false := by
  rw [Bool.eq_false_iff, ne_eq, List.contains_iff_mem]
  intro hmem
  rcases mem_text hmem with heq | heq | ⟨name, hname, hc⟩
  · exact absurd heq (by decide)
  · exact absurd heq (by decide)
  · exact h name hname hc

/-- The bytes that texts take, each with a separator. -/
def bytesWith (separator : Nat) : List String → Nat
  | [] => 0
  | text :: rest => separator + text.utf8ByteSize + bytesWith separator rest

theorem bytesWith_append (separator : Nat) (before after : List String) :
    bytesWith separator (before ++ after) =
      bytesWith separator before + bytesWith separator after := by
  induction before with
  | nil => rw [List.nil_append, bytesWith, Nat.zero_add]
  | cons text before ih =>
    rw [List.cons_append, bytesWith, bytesWith, ih]
    omega

theorem utf8ByteSize_joinWith {separator : String} (first : String) (rest : List String) :
    (joinWith separator (first :: rest)).utf8ByteSize =
      first.utf8ByteSize + bytesWith separator.utf8ByteSize rest := by
  induction rest generalizing first with
  | nil => simp [joinWith, bytesWith]
  | cons next rest ih =>
    rw [joinWith_cons_cons, String.utf8ByteSize_append, String.utf8ByteSize_append, ih, bytesWith]
    omega

/-- The length of the path of a location: each name comes with a slash. -/
theorem Path.utf8ByteSize_text_ofLocation {loc : Location} (h : loc ≠ []) :
    (ofLocation loc).text.utf8ByteSize = bytesWith 1 loc := by
  cases loc with
  | nil => exact absurd rfl h
  | cons first rest =>
    have hslash : (String.ofList (List.replicate 1 '/')).utf8ByteSize = 1 := by decide
    have hseparator : ("/" : String).utf8ByteSize = 1 := by decide
    rw [text, ofLocation]
    simp only [Nat.succ_ne_self, decide_false, Bool.false_and, Bool.false_eq_true, if_false,
      String.utf8ByteSize_append, hslash, utf8ByteSize_joinWith, hseparator, bytesWith]
    omega

/-- Each name takes two bytes of a path at least. -/
private theorem two_mul_length_le {names : List String} (h : ∀ name ∈ names, IsName name) :
    2 * names.length ≤ bytesWith 1 names := by
  induction names with
  | nil => simp
  | cons name rest ih =>
    have hrest := ih fun other hother => h other (List.mem_cons_of_mem _ hother)
    have hpos : name.utf8ByteSize ≠ 0 := by
      rw [ne_eq, String.utf8ByteSize_eq_zero_iff]
      exact (h name List.mem_cons_self).1
    rw [List.length_cons, bytesWith]
    omega

/-- What is above a location has a path that is no longer. -/
theorem Path.utf8ByteSize_text_le {above loc : Location} (h : above <+: loc) :
    (ofLocation above).text.utf8ByteSize ≤ (ofLocation loc).text.utf8ByteSize := by
  obtain ⟨rest, rfl⟩ := h
  cases above with
  | nil =>
    cases rest with
    | nil => exact Nat.le_refl _
    | cons first more =>
      have hroot : (ofLocation []).text.utf8ByteSize = 1 := by decide
      rw [List.nil_append, utf8ByteSize_text_ofLocation (List.cons_ne_nil _ _), hroot, bytesWith]
      omega
  | cons first more =>
    rw [utf8ByteSize_text_ofLocation (List.cons_ne_nil _ _), utf8ByteSize_text_ofLocation (by simp),
      bytesWith_append]
    omega

namespace Walkable

variable {loc : Location} (h : Walkable loc)

include h

/-- What is above a walkable location is walkable. -/
theorem above {above : Location} (habove : above <+: loc) : Walkable above :=
  ⟨fun name hname => h.noNull name (habove.subset hname),
    fun name hname => h.narrow name (habove.subset hname),
    Nat.lt_of_le_of_lt (Path.utf8ByteSize_text_le habove) h.short⟩

/-- A walkable location has no more names than fit into the limit with their slashes. -/
theorem length_lt (hnames : ∀ name ∈ loc, IsName name) :
    loc.length < FileTree.pathLimit / 2 := by
  have hshort := h.short
  by_cases hne : loc = []
  · rw [hne]
    decide
  · rw [Path.utf8ByteSize_text_ofLocation hne] at hshort
    have hlength := two_mul_length_le hnames
    have hlimit : FileTree.pathLimit / 2 * 2 = FileTree.pathLimit := by decide
    omega

end Walkable

/-- A location stays walkable where one of its names is replaced by another one that is no longer. -/
theorem Walkable.replace {base rest : List String} {name other : String}
    (h : Walkable (base ++ name :: rest)) (hnull : '\x00' ∉ other.toList)
    (hshort : other.utf8ByteSize ≤ name.utf8ByteSize) : Walkable (base ++ other :: rest) := by
  have hall : ∀ {P : String → Prop}, P other → (∀ part ∈ base ++ name :: rest, P part) →
      ∀ part ∈ base ++ other :: rest, P part := by
    intro P hother hparts
    simp only [List.forall_mem_append, List.forall_mem_cons] at hparts ⊢
    exact ⟨hparts.1, hother, hparts.2.2⟩
  have hnarrow := h.narrow name (by simp)
  have hsize := h.short
  rw [Path.utf8ByteSize_text_ofLocation (by simp), bytesWith_append, bytesWith] at hsize
  refine ⟨hall hnull h.noNull, hall (Nat.le_trans hshort hnarrow) h.narrow, ?_⟩
  rw [Path.utf8ByteSize_text_ofLocation (by simp), bytesWith_append, bytesWith]
  omega

namespace FileTree

-- ════════════════════════════════════════════════════════════════════════
-- Walks without links
-- ════════════════════════════════════════════════════════════════════════

/-- A step of a descent from a directory to a name that a component can have. -/
theorem descend_cons {t : FileTree} {followLast : Bool} {loc : Location} {name : String}
    (hhere : t.node? loc = some .directory) (hname : IsName name)
    (hnarrow : name.utf8ByteSize ≤ componentLimit) (rest : List String) :
    t.descend followLast loc (name :: rest) =
      match t.node? (loc ++ [name]) with
      | none => if rest.isEmpty then .ok (.done (.free loc name)) else .error .noEntry
      | some (.link target) =>
        if rest.isEmpty && !followLast then .ok (.done (.node (loc ++ [name]) (.link target)))
        else .ok (.link loc target rest)
      | some _ => t.descend followLast (loc ++ [name]) rest := by
  rw [descend, hhere]
  cases t.node? (loc ++ [name]) with
  | none => simp only [hname.2.1, hname.2.2.1, Nat.not_lt.mpr hnarrow, if_false]
  | some node =>
    cases node <;> simp only [hname.2.1, hname.2.2.1, Nat.not_lt.mpr hnarrow, if_false]

/-- A descent goes through a directory. -/
theorem descend_through {t : FileTree} {followLast : Bool} {loc : Location} {name : String}
    (hhere : t.node? loc = some .directory) (hname : IsName name)
    (hnarrow : name.utf8ByteSize ≤ componentLimit)
    (hnext : t.node? (loc ++ [name]) = some .directory) (rest : List String) :
    t.descend followLast loc (name :: rest) = t.descend followLast (loc ++ [name]) rest := by
  rw [descend_cons hhere hname hnarrow, hnext]

/-- A descent through directories stops where one of them is missing. -/
theorem descend_missing {t : FileTree} {followLast : Bool} {pre : Location} {rest : List String}
    (hdirectory : t.node? pre = some .directory)
    (hclear : ∀ above, above <+: rest → ∀ node, t.node? (pre ++ above) = some node →
      node = .directory)
    (hnone : t.node? (pre ++ rest.dropLast) = none) (hnames : ∀ name ∈ rest, IsName name)
    (hnarrow : ∀ name ∈ rest, name.utf8ByteSize ≤ componentLimit) :
    t.descend followLast pre rest = .error .noEntry := by
  induction rest generalizing pre with
  | nil => simp [hdirectory] at hnone
  | cons name rest ih =>
    have hname := hnames name List.mem_cons_self
    have hshort := hnarrow name List.mem_cons_self
    have hrest : rest ≠ [] := by
      rintro rfl
      simp [hdirectory] at hnone
    cases hnext : t.node? (pre ++ [name]) with
    | none => simp [descend_cons hdirectory hname hshort, hnext, hrest]
    | some node =>
      obtain rfl := hclear [name] (List.prefix_append [name] rest) node hnext
      rw [descend_through hdirectory hname hshort hnext]
      rw [List.dropLast_cons_of_ne_nil hrest, ← List.singleton_append, ← List.append_assoc] at hnone
      refine ih hnext (fun above habove node hnode => ?_) hnone
        (fun other hother => hnames other (List.mem_cons_of_mem _ hother))
        fun other hother => hnarrow other (List.mem_cons_of_mem _ hother)
      rw [List.append_assoc, List.singleton_append] at hnode
      exact hclear (name :: above) (List.cons_prefix_cons.mpr ⟨rfl, habove⟩) node hnode

namespace Sound

variable {t : FileTree} (h : t.Sound) {followLast : Bool}

include h

/-- A descent to a directory goes through it, whatever follows. -/
theorem descend_directory (pre : Location) {rest : List String}
    (hnode : t.node? (pre ++ rest) = some .directory)
    (hnarrow : ∀ name ∈ rest, name.utf8ByteSize ≤ componentLimit) (more : List String) :
    t.descend followLast pre (rest ++ more) = t.descend followLast (pre ++ rest) more := by
  induction rest generalizing pre with
  | nil => rw [List.nil_append, List.append_nil]
  | cons name rest ih =>
    have hhere := h.leads_append _ (List.cons_ne_nil _ _) hnode
    have hname := h.isName_of_node? hnode name (by simp)
    rw [← List.singleton_append, ← List.append_assoc] at hnode
    have hnext : t.node? (pre ++ [name]) = some .directory := by
      by_cases hrest : rest = []
      · rwa [hrest, List.append_nil] at hnode
      · exact h.leads_append _ hrest hnode
    rw [List.cons_append, descend_through hhere hname (hnarrow name List.mem_cons_self) hnext,
      ih _ hnode fun other hother => hnarrow other (List.mem_cons_of_mem _ hother),
      List.append_assoc, List.singleton_append]

/-- A descent to a node ends there, unless the node is a link. -/
theorem descend_node {loc : Location} {node : Node} (hnode : t.node? loc = some node)
    (hlink : ∀ target, node ≠ .link target)
    (hnarrow : ∀ name ∈ loc, name.utf8ByteSize ≤ componentLimit) :
    t.descend followLast [] loc = .ok (.done (.node loc node)) := by
  rcases List.eq_nil_or_concat' loc with rfl | ⟨parent, name, rfl⟩
  · rw [descend, hnode]
  · have hparent := h.leads_append [name] (List.cons_ne_nil _ _) hnode
    have hname := h.isName_of_node? hnode name (by simp)
    rw [h.descend_directory [] hparent
        fun other hother => hnarrow other (List.mem_append_left _ hother),
      List.nil_append, descend_cons hparent hname (hnarrow name (by simp)), hnode]
    cases node with
    | link target => exact absurd rfl (hlink target)
    | file bytes => simp [descend, hnode]
    | directory => simp [descend, hnode]

/-- A descent to a free name in a directory ends there. -/
theorem descend_free {parent : Location} {name : String}
    (hparent : t.node? parent = some .directory) (hname : IsName name)
    (hnone : t.node? (parent ++ [name]) = none)
    (hnarrow : ∀ other ∈ parent ++ [name], other.utf8ByteSize ≤ componentLimit) :
    t.descend followLast [] (parent ++ [name]) = .ok (.done (.free parent name)) := by
  rw [h.descend_directory [] hparent
      fun other hother => hnarrow other (List.mem_append_left _ hother),
    List.nil_append, descend_cons hparent hname (hnarrow name (by simp)), hnone]
  rfl

end Sound

/-- A walk along a walkable location is a descent, if that meets no link. -/
theorem walk_eq {t : FileTree} {cwd : Location} {followLast : Bool} {loc : Location}
    (hwalkable : Walkable loc) :
    t.walk cwd followLast (Path.ofLocation loc) =
      (t.walkFrom followLast linkLimit [] loc).mapError
        fun why => FileFault.refused why (Path.ofLocation loc).text := by
  have hnull := Path.contains_null_ofLocation hwalkable.noNull
  have hshort := Nat.not_le.mpr hwalkable.short
  have hfrom : t.walkFrom followLast linkLimit (if (Path.ofLocation loc).isAbsolute then [] else cwd)
      (Path.ofLocation loc).parts = t.walkFrom followLast linkLimit [] loc := rfl
  simp only [walk, hnull, Bool.false_eq_true, if_false, hshort, hfrom]
  cases t.walkFrom followLast linkLimit [] loc <;> rfl

namespace Sound

variable {t : FileTree} (h : t.Sound) {cwd : Location} {followLast : Bool} {loc : Location}

include h

/-- A walk to a node that is no link ends there. -/
theorem walk_node {node : Node} (hnode : t.node? loc = some node)
    (hlink : ∀ target, node ≠ .link target) (hwalkable : Walkable loc) :
    t.walk cwd followLast (Path.ofLocation loc) = .ok (.node loc node) := by
  rw [walk_eq hwalkable, walkFrom, h.descend_node hnode hlink hwalkable.narrow]
  rfl

/-- A walk to a free name in a directory ends there. -/
theorem walk_free {name : String} (hdirectory : t.node? loc = some .directory)
    (hname : IsName name) (hnone : t.node? (loc ++ [name]) = none)
    (hwalkable : Walkable (loc ++ [name])) :
    t.walk cwd followLast (Path.ofLocation (loc ++ [name])) = .ok (.free loc name) := by
  rw [walk_eq hwalkable, walkFrom, h.descend_free hdirectory hname hnone hwalkable.narrow]
  rfl

end Sound

end FileTree

end TwoStage
