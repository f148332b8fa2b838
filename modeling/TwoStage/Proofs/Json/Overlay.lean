import TwoStage.Proofs.Json.Members

/-!
# Overlaying JSON values

One value laid over another: objects are taken together member by member, anything else is replaced.
What the upper value gives is there in the result, and what it leaves out is as in the lower one.

## Main definitions

- `Json.overlay` — one value laid over another
- `Json.overlaid` — a value with what is laid over it, if anything
- `Json.without` — an object without the members of a name
- `Json.adjust` — a value with the part below some names changed

## Main statements

- `Json.overlay_of_known` — an object over one that has its names
- `Json.exists_at?_overlay`, `Json.at?_overlay_of_missing` — what is given, and what is left out
- `Json.at?_adjust_of_apart`, `Json.at?_adjust_congr` — what a change leaves as it is
-/

namespace TwoStage.Json

mutual

/-- A value with another one laid over it: an object keeps its members in place, each with what is
laid over it, and gets those that it does not have behind them. -/
def overlay : Json → Json → Json
  | obj members, obj upper =>
    obj (overlayMembers members upper ++
      upper.filter fun member => (members.lookup member.1).isNone)
  | _, upper => upper

/-- Members with others laid over them by name. -/
def overlayMembers : List (String × Json) → List (String × Json) → List (String × Json)
  | [], _ => []
  | (name, value) :: rest, upper =>
    (name,
      match upper.lookup name with
      | some given => value.overlay given
      | none => value) :: overlayMembers rest upper

end

/-- A value with what is laid over it, if anything. -/
def overlaid (value : Json) : Option Json → Json
  | some upper => value.overlay upper
  | none => value

/-- An object without the members of a name. -/
def without (name : String) : Json → Json
  | obj members => obj (members.filter fun member => member.1 ≠ name)
  | value => value

/-- A value with the part below some names changed, if there is one. -/
def adjust (f : Json → Json) : List String → Json → Json
  | [], value => f value
  | name :: rest, obj members =>
    obj (members.map fun member =>
      (member.1, if member.1 = name then adjust f rest member.2 else member.2))
  | _ :: _, value => value

-- ════════════════════════════════════════════════════════════════════════
-- The members of an overlay
-- ════════════════════════════════════════════════════════════════════════

section Members

variable {members upper : List (String × Json)} {name : String}

theorem overlayMembers_eq_map : overlayMembers members upper =
    members.map fun member => (member.1, member.2.overlaid (upper.lookup member.1)) := by
  induction members with
  | nil => rw [overlayMembers, List.map_nil]
  | cons member rest ih =>
    obtain ⟨other, value⟩ := member
    rw [overlayMembers, ih, List.map_cons]
    cases hlookup : upper.lookup other <;> simp [overlaid]

/-- An object over one that has all of its names. -/
theorem overlay_of_known (h : ∀ name ∈ upper.map Prod.fst, name ∈ members.map Prod.fst) :
    (obj members).overlay (obj upper) =
      obj (members.map fun member => (member.1, member.2.overlaid (upper.lookup member.1))) := by
  have hnew : upper.filter (fun member => (members.lookup member.1).isNone) = [] := by
    rw [List.filter_eq_nil_iff]
    intro member hmember
    have hname := h member.1 (List.mem_map_of_mem hmember)
    simpa [List.lookup_eq_none_iff] using hname
  rw [overlay, hnew, List.append_nil, overlayMembers_eq_map]

theorem overlay_nil : (obj []).overlay (obj upper) = obj upper := by
  simp [overlay, overlayMembers]

/-- A change of the values by name changes what is found under a name. -/
theorem lookup_map_value (g : String → Json → Json) :
    (members.map fun member => (member.1, g member.1 member.2)).lookup name =
      (members.lookup name).map (g name) := by
  induction members with
  | nil => rfl
  | cons member rest ih =>
    obtain ⟨other, value⟩ := member
    rw [List.map_cons, List.lookup_cons, List.lookup_cons]
    by_cases hname : name = other
    · simp [hname]
    · simp [beq_eq_false_iff_ne.mpr hname, ih]

theorem lookup_overlayMembers : (overlayMembers members upper).lookup name =
    (members.lookup name).map fun value => value.overlaid (upper.lookup name) := by
  rw [overlayMembers_eq_map]
  exact lookup_map_value fun name value => value.overlaid (upper.lookup name)

/-- A filter by name keeps or drops what is found under a name. -/
theorem lookup_filter_fst (p : String → Bool) :
    (members.filter fun member => p member.1).lookup name =
      if p name then members.lookup name else none := by
  induction members with
  | nil => simp
  | cons member rest ih =>
    obtain ⟨other, value⟩ := member
    rw [List.filter_cons, List.lookup_cons]
    by_cases hname : name = other
    · subst hname
      cases hp : p name <;> simp [hp, ih]
    · cases hp : p other <;> simp [List.lookup_cons, beq_eq_false_iff_ne.mpr hname, ih]

theorem member?_without_of_ne {value : Json} {gone : String} (h : name ≠ gone) :
    (value.without gone).member? name = value.member? name := by
  cases value with
  | obj members =>
    rw [without, member?_obj, member?_obj, lookup_filter_fst (· ≠ gone)]
    simp [h]
  | _ => rfl

theorem mem_of_without {kept : List (String × Json)} {gone : String}
    (h : (obj members).without gone = obj kept) (hname : name ∈ kept.map Prod.fst) :
    name ∈ members.map Prod.fst ∧ name ≠ gone := by
  cases h
  obtain ⟨member, hmember, rfl⟩ := List.mem_map.mp hname
  rw [List.mem_filter, decide_eq_true_eq] at hmember
  exact ⟨List.mem_map_of_mem hmember.1, hmember.2⟩

/-- What an overlay has under a name: what is given, over what was there, or what was there. -/
theorem member?_overlay_obj (base : Json) :
    (base.overlay (obj upper)).member? name =
      match upper.lookup name with
      | some given =>
        some (match base.member? name with
          | some value => value.overlay given
          | none => given)
      | none => base.member? name := by
  cases base with
  | obj members =>
    rw [overlay, member?_obj, member?_obj, List.lookup_append, lookup_overlayMembers,
      lookup_filter_fst fun name => (members.lookup name).isNone]
    cases upper.lookup name <;> cases members.lookup name <;> simp [overlaid]
  | _ => cases hlookup : upper.lookup name <;> simpa [overlay, member?] using hlookup

/-- What is given for a member lies over what was there. -/
theorem member?_overlay_of_some {base upper given : Json} (h : upper.member? name = some given) :
    (base.overlay upper).member? name =
      some (match base.member? name with
        | some value => value.overlay given
        | none => given) := by
  cases upper with
  | obj upper =>
    rw [member?_obj] at h
    rw [member?_overlay_obj, h]
  | _ => cases h

/-- A member that is left out is as it was. -/
theorem member?_overlay_of_none {base : Json} (h : upper.lookup name = none) :
    (base.overlay (obj upper)).member? name = base.member? name := by
  rw [member?_overlay_obj, h]

end Members

-- ════════════════════════════════════════════════════════════════════════
-- What is below names
-- ════════════════════════════════════════════════════════════════════════

section Paths

variable {base upper value : Json} {path : List String}

theorem at?_without {gone name : String} (h : name ≠ gone) :
    (value.without gone).at? (name :: path) = value.at? (name :: path) := by
  rw [at?_cons, at?_cons, member?_without_of_ne h]

/-- What is given below some names has a counterpart below them. -/
theorem exists_at?_overlay (h : upper.at? path = some value) :
    ∃ kept, (base.overlay upper).at? path = some kept := by
  induction path generalizing base upper with
  | nil => exact ⟨_, rfl⟩
  | cons name rest ih =>
    rw [at?_cons, Option.bind_eq_some_iff] at h
    obtain ⟨given, hgiven, hrest⟩ := h
    rw [at?_cons, member?_overlay_of_some hgiven, Option.bind_some]
    cases base.member? name with
    | none => exact ⟨value, hrest⟩
    | some under => exact ih hrest

/-- What is given lies over what was there. -/
theorem at?_overlay_of_some {inner : Json} (h : upper.at? path = some value)
    (hbase : base.at? path = some inner) :
    (base.overlay upper).at? path = some (inner.overlay value) := by
  induction path generalizing base upper with
  | nil =>
    cases h
    cases hbase
    rfl
  | cons name rest ih =>
    rw [at?_cons, Option.bind_eq_some_iff] at h hbase
    obtain ⟨given, hgiven, hrest⟩ := h
    obtain ⟨under, hunder, hbaseRest⟩ := hbase
    rw [at?_cons, member?_overlay_of_some hgiven, Option.bind_some, hunder]
    exact ih hrest hbaseRest

/-- A member that an object below some names leaves out is as it was. -/
theorem at?_overlay_of_missing {members : List (String × Json)} {name : String}
    (h : upper.at? path = some (obj members)) (hmissing : members.lookup name = none) :
    (base.overlay upper).at? (path ++ [name]) = base.at? (path ++ [name]) := by
  induction path generalizing base upper with
  | nil =>
    cases h
    rw [List.nil_append, at?_singleton, at?_singleton, member?_overlay_of_none hmissing]
  | cons first rest ih =>
    rw [at?_cons, Option.bind_eq_some_iff] at h
    obtain ⟨given, hgiven, hrest⟩ := h
    rw [List.cons_append, at?_cons, at?_cons, member?_overlay_of_some hgiven, Option.bind_some]
    cases base.member? first with
    | none =>
      show given.at? (rest ++ [name]) = none
      rw [at?_append, hrest, Option.bind_some, at?_obj_of_none hmissing]
    | some under => exact ih hrest

end Paths

-- ════════════════════════════════════════════════════════════════════════
-- Changes in one place
-- ════════════════════════════════════════════════════════════════════════

section Adjusting

variable {f : Json → Json} {value : Json} {path target : List String}

theorem member?_adjust {first name : String} {rest : List String} :
    (adjust f (first :: rest) value).member? name =
      (value.member? name).map fun inner =>
        if name = first then adjust f rest inner else inner := by
  cases value with
  | obj members =>
    exact lookup_map_value fun name inner => if name = first then adjust f rest inner else inner
  | _ => rfl

theorem at?_adjust_cons_self {first : String} {rest more : List String} :
    (adjust f (first :: rest) value).at? (first :: more) =
      (value.member? first).bind fun inner => (adjust f rest inner).at? more := by
  rw [at?_cons, member?_adjust, Option.bind_map]
  exact Option.bind_congr fun inner _ => by rw [Function.comp_apply, if_pos rfl]

theorem at?_adjust_cons_of_ne {first name : String} {rest more : List String}
    (h : name ≠ first) :
    (adjust f (first :: rest) value).at? (name :: more) = value.at? (name :: more) := by
  rw [at?_cons, at?_cons, member?_adjust, Option.bind_map]
  exact Option.bind_congr fun inner _ => by rw [Function.comp_apply, if_neg h]

/-- A change leaves as it is what is neither above nor below its place. -/
theorem at?_adjust_of_apart (habove : ¬path <+: target) (hbelow : ¬target <+: path) :
    (adjust f target value).at? path = value.at? path := by
  induction target generalizing value path with
  | nil => exact absurd List.nil_prefix hbelow
  | cons first rest ih =>
    cases path with
    | nil => exact absurd List.nil_prefix habove
    | cons name more =>
      by_cases hname : name = first
      · subst hname
        rw [List.cons_prefix_cons, not_and] at habove hbelow
        rw [at?_adjust_cons_self, at?_cons]
        exact Option.bind_congr fun inner _ => ih (habove rfl) (hbelow rfl)
      · exact at?_adjust_cons_of_ne hname

/-- A change that keeps the members of a value neither adds nor takes places. -/
theorem isSome_at?_adjust (hf : ∀ value name, (f value).member? name = value.member? name) :
    ((adjust f target value).at? path).isSome = (value.at? path).isSome := by
  induction target generalizing value path with
  | nil =>
    cases path with
    | nil => rfl
    | cons name more => rw [adjust, at?_cons, at?_cons, hf]
  | cons first rest ih =>
    cases path with
    | nil => rfl
    | cons name more =>
      by_cases hname : name = first
      · subst hname
        rw [at?_adjust_cons_self, at?_cons]
        cases value.member? name with
        | none => rfl
        | some inner => exact ih
      · rw [at?_adjust_cons_of_ne hname]

/-- Such a change does the same to what is the same below some names. -/
theorem at?_adjust_congr (hf : ∀ value name, (f value).member? name = value.member? name)
    {other : Json} (h : value.at? path = other.at? path) :
    (adjust f target value).at? path = (adjust f target other).at? path := by
  induction target generalizing value other path with
  | nil =>
    cases path with
    | nil =>
      cases h
      rfl
    | cons name more => rwa [adjust, adjust, at?_cons, at?_cons, hf, hf, ← at?_cons, ← at?_cons]
  | cons first rest ih =>
    cases path with
    | nil =>
      cases h
      rfl
    | cons name more =>
      by_cases hname : name = first
      · subst hname
        rw [at?_cons, at?_cons] at h
        rw [at?_adjust_cons_self, at?_adjust_cons_self]
        -- a place that one value has and the other lacks is not there after the change either
        have hnone : ∀ inner : Json, inner.at? more = none →
            (adjust f rest inner).at? more = none := by
          intro inner hinner
          rw [← Option.isNone_iff_eq_none, ← Option.not_isSome, isSome_at?_adjust hf, hinner]
          rfl
        cases hv : value.member? name <;> cases ho : other.member? name <;>
          rw [hv, ho] at h <;> simp only [Option.bind_none, Option.bind_some] at h ⊢
        · exact (hnone _ h.symm).symm
        · exact hnone _ h
        · exact ih h
      · rwa [at?_adjust_cons_of_ne hname, at?_adjust_cons_of_ne hname]

end Adjusting

end TwoStage.Json
