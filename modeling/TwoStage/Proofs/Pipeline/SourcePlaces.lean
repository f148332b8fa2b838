import TwoStage.Proofs.Dockerfile.Directives
import TwoStage.Proofs.Path
import TwoStage.Proofs.Pipeline.Delivery

/-!
# One place for each source path

A source path is read four times: when it is accepted, when it is looked for under the source root,
when it is copied into a context, and as the operand of the line that copies it from there. The line
takes the text without the slashes at its end, the others take it as a path. All of them come to the
same place, which lies below every directory that it is taken under.

## Main definitions

- `SourceInput.NamesPlace` — a text names a place, whichever way it is read

## Main statements

- `SourceInput.namesPlace` — a path that stays inside names its components
- `SourceInput.copySources_eq` — where the sources are copied
- `SourceInput.paths_name_places` — both, for a source input that is accepted
-/

namespace TwoStage

open Act StagedContext

namespace SourceInput

/-- A text names a place below every directory: its path is the place, with names for components; it
goes on below whatever path it is taken under and is the place as seen from there; and the text
without the slashes at its end, which is not empty, is a path to the place as well. -/
structure NamesPlace (path : String) (place : Path) : Prop where
  read : Path.ofText path = place
  relative : place.slashes = 0
  nonempty : place.parts ≠ []
  names : ∀ name ∈ place.parts, IsName name
  below : ∀ root : Path, (root.join (.ofText path)).IsBelow root
  fromRoot : ∀ root : Path, (root.join (.ofText path)).relativeTo? root = some place
  operand_ne : withoutFinalSlashes path ≠ ""
  operand : Path.ofText (withoutFinalSlashes path) = place

variable {path : String}

theorem isAbsolute_of_staysInside (h : staysInside path = true) :
    (Path.ofText path).isAbsolute = false := by
  simp only [staysInside, Bool.and_eq_true, Bool.not_eq_true'] at h
  exact h.1.1

/-- A path that stays inside names the place that its components lead to. -/
theorem namesPlace (h : staysInside path = true) : NamesPlace path (.ofText path) := by
  have hrelative := isAbsolute_of_staysInside h
  have hparts : (Path.ofText path).parts ≠ [] := placeOf_ne_nil h
  obtain ⟨⟨count, hslashes⟩, -⟩ := withoutFinalSlashes_spec path
  have hoperand : Path.ofText (withoutFinalSlashes path) = .ofText path :=
    Path.ofText_of_append_slashes hslashes hrelative
  refine ⟨rfl, Path.isAbsolute_eq_false_iff.mp hrelative, hparts, isName_placeOf h,
    fun root => Path.isBelow_join hrelative root hparts,
    fun root => Path.relativeTo?_join hrelative root, fun hempty => ?_, hoperand⟩
  rw [hempty] at hoperand
  exact hparts (congrArg Path.parts hoperand.symm)

/-- Each source is copied from its place under the root to the same place in the context. -/
theorem copySources_eq (root context : Location) {paths : List String}
    (h : ∀ path ∈ paths, staysInside path = true) :
    copySources root context (paths.map (pathUnder root)) =
      paths.forM fun path => copySource ((Path.ofLocation root).join (.ofText path))
        ((Path.ofLocation context).join (.ofText path)) := by
  induction paths with
  | nil => rfl
  | cons path rest ih =>
    have hpath := h path List.mem_cons_self
    have htarget : (Path.ofLocation context).join (.ofText path) =
        Path.ofLocation (context ++ placeOf path) :=
      Path.join_of_relative (isAbsolute_of_staysInside hpath) _
    rw [List.map_cons, copySources, drop_pathUnder root hpath,
      ih fun other hother => h other (List.mem_cons_of_mem _ hother), List.forM, htarget]
    rfl

/-- Every path of a source input that is accepted names one place, which lies below the source root,
below the context and below every other directory. What is found under a root are the paths to these
places, each is copied from there to the same place in the context, and the lines that copy them
name the paths without the slashes at their ends. -/
theorem paths_name_places {json : Json} {sources : SourceInput}
    (h : ofJson json = .accepted sources) :
    (∀ path ∈ sources.paths, NamesPlace path (.ofText path)) ∧
    (∀ (root : Location) (host : Host) (w w' : World) (found : List Path),
      sources.locate root host w = (.ok found, w') →
        found = sources.paths.map fun path => (Path.ofLocation root).join (.ofText path)) ∧
    (∀ root context : Location,
      copySources root context
          (sources.paths.map fun path => (Path.ofLocation root).join (.ofText path)) =
        sources.paths.forM fun path => copySource ((Path.ofLocation root).join (.ofText path))
          ((Path.ofLocation context).join (.ofText path))) ∧
    ∀ stage : BuildStage, stage.sources = sources →
      Dockerfile.withKeyword "COPY" stage.instructions =
        sources.paths.map fun path => .copySource (withoutFinalSlashes path) := by
  have hinside := (staysInside_of_accepted h).2
  refine ⟨fun path hpath => namesPlace (hinside path hpath), ?_,
    fun root context => copySources_eq root context hinside, ?_⟩
  · intro root host w w' found hfound
    exact (locate_eq_ok hfound).1
  · rintro stage rfl
    rw [Dockerfile.withKeyword_buildStage (by decide)]
    simp

/-- Dots and slashes that are of no account do not keep a path from naming its place. -/
theorem paths_name_places_untidy :
    ofJson (.obj [("paths", .ofStrings [".//src/./bin//"])]) =
        .accepted ⟨[".//src/./bin//"], standard.workdir⟩ ∧
      NamesPlace ".//src/./bin//" ⟨0, ["src", "bin"]⟩ ∧
      withoutFinalSlashes ".//src/./bin//" = ".//src/./bin" := by
  have haccepted : ofJson (.obj [("paths", .ofStrings [".//src/./bin//"])]) =
      .accepted ⟨[".//src/./bin//"], standard.workdir⟩ :=
    ofJson_eq_accepted_iff.mpr ⟨_, rfl,
      Read.optional_eq_accepted_iff.mpr (Or.inr ⟨_, rfl,
        pathsOfJson_eq_accepted_iff.mpr ⟨rfl, by decide, by decide +kernel⟩⟩),
      Read.optional_eq_accepted_iff.mpr (Or.inl ⟨rfl, rfl⟩)⟩
  have hplace : Path.ofText ".//src/./bin//" = ⟨0, ["src", "bin"]⟩ := by decide +kernel
  have hnames := (paths_name_places haccepted).1 _ List.mem_cons_self
  rw [hplace] at hnames
  exact ⟨haccepted, hnames, by decide +kernel⟩

end SourceInput

end TwoStage
