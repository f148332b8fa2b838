import TwoStage.Proofs.Pipeline.Record
import TwoStage.Proofs.Pipeline.StateHistory

/-!
# Sources that are missing

A run looks for its sources before it does anything else. Where some are missing it ends with an
error that names all of them, and it has done nothing: no call, no directory, no record, no step of
the pipeline, which can be run again as if for the first time. That is promised for every source
root; it is kept for every one that can be resolved. The root of which the links lead in a circle is
not looked under at all, and an error of the file system ends the run there.

## Main definitions

- `FileTree.leads` — whether a path leads to something
- `Spec.absentSources` — the declared sources that are missing, in order
- `Pipeline.AbortsCleanly` — what is promised of a run whose sources are missing

## Main statements

- `SourceInput.sift_eq` — what looking for the sources finds
- `Spec.stage_eq_sourcesMissing_iff` — when staging tells of missing sources
- `Pipeline.run_eq_sourcesMissing_iff` — when a run does
- `Pipeline.abortsCleanly_iff` — the source roots for which the promise is kept
- `Pipeline.not_abortsCleanly_of_loop` — a source root that is a link to itself
-/

namespace TwoStage

namespace FileTree

/-- Whether a path leads to something. -/
def leads (t : FileTree) (cwd : Location) (p : Path) : Bool :=
  match t.walk cwd true p with
  | .ok (.node _ _) => true
  | _ => false

/-- A path is refused for its length or for that of a name on its way. -/
def TooLong (t : FileTree) (cwd : Location) (p : Path) : Prop :=
  ∃ text, t.walk cwd true p = .error (.refused .nameTooLong text)

end FileTree

/-- The declared sources that are missing below a source root, in order and as often as they are
declared. Nothing is below a root that leads nowhere. -/
def Spec.absentSources (spec : Spec) (t : FileTree) (cwd : Location) (sourceRoot : Path) :
    List String :=
  match t.resolve cwd sourceRoot with
  | .ok root =>
    spec.build.sources.paths.filter fun path => !t.leads cwd (SourceInput.pathUnder root path)
  | .error _ => spec.build.sources.paths

/-- A run tells of missing sources exactly if there are some. Then the message names them, the world
is as it was, and so is the pipeline, which runs later like one that has not run before. -/
structure Pipeline.AbortsCleanly (p : Pipeline) (start : Progress) (host : Host) (w : World) :
    Prop where
  raises_iff : (∃ root missing progress w',
      p.run start host w = (.ok (.error (.sourcesMissing root missing), progress), w')) ↔
    p.spec.absentSources w.files host.cwd p.sourceRoot ≠ []
  message : ∀ root missing progress w',
    p.run start host w = (.ok (.error (.sourcesMissing root missing), progress), w') →
      ∃ location, w.files.resolve host.cwd p.sourceRoot = .ok location ∧
        missing = p.spec.absentSources w.files host.cwd p.sourceRoot ∧
        (Error.sourcesMissing root missing).message =
          "source input missing under " ++ (Path.ofLocation location).text ++ ": " ++
            joinWith ", " (p.spec.absentSources w.files host.cwd p.sourceRoot)
  untouched : ∀ root missing progress w',
    p.run start host w = (.ok (.error (.sourcesMissing root missing), progress), w') →
      w' = w ∧ progress.state = .start ∧ progress.history = [.start] ∧
        ∀ host' later, p.run progress host' later = p.run .initial host' later

-- ════════════════════════════════════════════════════════════════════════
-- Looking for sources
-- ════════════════════════════════════════════════════════════════════════

namespace FileTree

variable {t : FileTree} {cwd : Location} {p : Path}

theorem descend_error {followLast : Bool} {loc : Location} {parts : List String} {why : Errno}
    (h : t.descend followLast loc parts = .error why) :
    why ∈ [Errno.noEntry, .notDirectory, .nameTooLong] := by
  fun_induction descend t followLast loc parts with
  | case1 | case6 | case8 | case9 => cases h
  | case2 | case5 | case7 | case11 | case12 =>
    cases h
    decide
  | case3 _ _ _ ih | case4 _ _ _ _ ih | case10 _ _ _ _ _ _ _ _ _ _ ih => exact ih h

theorem walkFrom_error {followLast : Bool} {links : Nat} {loc : Location} {parts : List String}
    {why : Errno} (h : t.walkFrom followLast links loc parts = .error why) :
    why ∈ [Errno.noEntry, .notDirectory, .nameTooLong, .tooManyLinks] := by
  fun_induction walkFrom t followLast links loc parts with
  | case1 links loc parts fault hdescend =>
    cases h
    exact List.mem_append_left [.tooManyLinks] (descend_error hdescend)
  | case2 => cases h
  | case3 =>
    cases h
    decide
  | case4 _ _ _ _ _ _ _ ih => exact ih h

/-- Where a walk fails there is nothing, unless a name is too long. -/
theorem walk_error {followLast : Bool} {fault : FileFault}
    (h : t.walk cwd followLast p = .error fault) :
    meansNothingThere fault = true ∨ ∃ text, fault = .refused .nameTooLong text := by
  rcases t.walk_cases cwd followLast p with hwalk | hwalk | hwalk
  · cases hwalk.symm.trans h
    exact Or.inl rfl
  · cases hwalk.symm.trans h
    exact Or.inr ⟨_, rfl⟩
  · rw [hwalk] at h
    cases hfrom : t.walkFrom followLast linkLimit (if p.isAbsolute then [] else cwd) p.parts with
    | ok destination =>
      rw [hfrom] at h
      cases h
    | error why =>
      rw [hfrom] at h
      cases h
      have hwhy := walkFrom_error hfrom
      cases why with
      | noEntry | notDirectory | tooManyLinks => exact Or.inl rfl
      | nameTooLong => exact Or.inr ⟨_, rfl⟩
      | taken | isDirectory => exact absurd hwhy (by decide)

/-- Whether a path leads to something is answered, unless it is refused for its length. -/
theorem exists?_eq_leads (h : ¬ t.TooLong cwd p) : t.exists? cwd p = .ok (t.leads cwd p) := by
  rw [exists?, find?, leads]
  cases hwalk : t.walk cwd true p with
  | ok destination => cases destination <;> rfl
  | error fault =>
    rcases walk_error hwalk with hnothing | ⟨text, rfl⟩
    · dsimp only
      rw [if_pos hnothing]
      rfl
    · exact absurd ⟨text, hwalk⟩ h

end FileTree

/-- Looking for sources finds those that lead to something, and the others are missing. -/
theorem SourceInput.sift_eq {root : Location} {host : Host} {w : World} {paths : List String}
    (hshort : ∀ path ∈ paths, ¬ w.files.TooLong host.cwd (pathUnder root path)) :
    sift root paths host w =
      (.ok (paths.filter fun path => w.files.leads host.cwd (pathUnder root path),
        paths.filter fun path => !w.files.leads host.cwd (pathUnder root path)), w) := by
  induction paths with
  | nil => rfl
  | cons path rest ih =>
    have hask := FileTree.exists?_eq_leads (hshort path List.mem_cons_self)
    have hrest := ih fun other hother => hshort other (List.mem_cons_of_mem _ hother)
    rw [sift, Act.bind_of_ok (Act.ask_of_ok hask), Act.bind_of_ok hrest]
    cases hleads : w.files.leads host.cwd (pathUnder root path) with
    | true => simp [hleads, Pure.pure, Act.pure]
    | false => simp [hleads, Pure.pure, Act.pure]

-- ════════════════════════════════════════════════════════════════════════
-- Staging
-- ════════════════════════════════════════════════════════════════════════

section

variable {spec : Spec} {sourceRoot : Path} {root : Location} {host : Host} {w : World}

theorem Spec.absentSources_of_resolve (h : w.files.resolve host.cwd sourceRoot = .ok root) :
    spec.absentSources w.files host.cwd sourceRoot = spec.build.sources.paths.filter fun path =>
      !w.files.leads host.cwd (SourceInput.pathUnder root path) := by
  rw [absentSources, h]

variable (hroot : w.files.resolve host.cwd sourceRoot = .ok root)
  (hshort : ∀ path ∈ spec.build.sources.paths,
    ¬ w.files.TooLong host.cwd (SourceInput.pathUnder root path))

include hroot hshort

/-- Where sources are missing, staging says which, and does nothing. -/
theorem Spec.stage_of_absent
    (habsent : spec.absentSources w.files host.cwd sourceRoot ≠ []) :
    spec.stage sourceRoot host w =
      (.error (.sourcesMissing (Path.ofLocation root).text
        (spec.absentSources w.files host.cwd sourceRoot)), w) := by
  rw [absentSources_of_resolve hroot] at habsent ⊢
  rw [stage, Act.bind_of_ok (Act.ask_of_ok hroot)]
  apply Act.bind_of_error
  rw [SourceInput.locate, Act.bind_of_ok (SourceInput.sift_eq hshort)]
  dsimp only
  rw [if_neg (by simpa using habsent)]
  rfl

/-- Where no source is missing, staging does not say so. -/
theorem Spec.stage_ne_sourcesMissing
    (habsent : spec.absentSources w.files host.cwd sourceRoot = []) (text : String)
    (missing : List String) :
    (spec.stage sourceRoot host w).1 ≠ .error (.sourcesMissing text missing) := by
  rw [absentSources_of_resolve hroot] at habsent
  have hlocate : spec.build.sources.locate root host w =
      (.ok ((spec.build.sources.paths.filter fun path =>
        w.files.leads host.cwd (SourceInput.pathUnder root path)).map
          (SourceInput.pathUnder root)), w) := by
    rw [SourceInput.locate, Act.bind_of_ok (SourceInput.sift_eq hshort), habsent]
    rfl
  rw [stage, Act.bind_of_ok (Act.ask_of_ok hroot), Act.bind_of_ok hlocate]
  intro hmissing
  have hfile : ∀ fault, Error.file fault ≠ .sourcesMissing text missing := by simp
  exact failsWith_fillScratch (P := fun e => e ≠ .sourcesMissing text missing) hfile (by simp)
    spec root _ host w _ hmissing rfl

/-- Staging tells of missing sources exactly if there are some, and has done nothing then. -/
theorem Spec.stage_eq_sourcesMissing_iff {text : String} {missing : List String} {w' : World} :
    spec.stage sourceRoot host w = (.error (.sourcesMissing text missing), w') ↔
      spec.absentSources w.files host.cwd sourceRoot ≠ [] ∧ text = (Path.ofLocation root).text ∧
        missing = spec.absentSources w.files host.cwd sourceRoot ∧ w' = w := by
  constructor
  · intro hstage
    have habsent : spec.absentSources w.files host.cwd sourceRoot ≠ [] := by
      intro hnone
      exact stage_ne_sourcesMissing hroot hshort hnone text missing (by rw [hstage])
    rw [stage_of_absent hroot hshort habsent] at hstage
    cases hstage
    exact ⟨habsent, rfl, rfl, rfl⟩
  · rintro ⟨habsent, rfl, rfl, rfl⟩
    exact stage_of_absent hroot hshort habsent

end

-- ════════════════════════════════════════════════════════════════════════
-- Runs
-- ════════════════════════════════════════════════════════════════════════

/-- A progress that stands at the first state is that of a pipeline that has not started. -/
theorem Progress.Lawful.eq_initial {progress : Progress} (h : progress.Lawful)
    (hstate : progress.state = .start) : progress = .initial := by
  obtain ⟨before, hhistory⟩ := List.getLast?_eq_some_iff.mp h.ends
  have hbefore : before = [] := by
    rcases List.eq_nil_or_concat before with hnil | ⟨earlier, old, rfl⟩
    · exact hnil
    · have hlegal := h.legal
      rw [hhistory, hstate, List.isChain_append] at hlegal
      have hstep := hlegal.2.2 old (by simp) .start rfl
      exact absurd hstep old.start_not_mem_successors
  rw [hbefore, hstate] at hhistory
  obtain ⟨state, history, builderTagged⟩ := progress
  cases hstate
  cases hhistory
  cases h.untagged rfl
  rfl

namespace Pipeline

variable {p : Pipeline} {start : Progress} {host : Host} {w w' : World}

/-- A run whose staging fails ends with that error where it started. -/
theorem run_of_stage_error (hstate : start.state = .start) {e : Error}
    (h : p.spec.stage p.sourceRoot host w = (.error e, w')) :
    p.run start host w = (.ok (.error e, start), w') := by
  have hstaged : p.staged start host w = (.ok (.error e, start), w') := by
    rw [staged, Act.bind_apply, Act.outcome, Spec.inContext_of_stage_error _ h]
    rfl
  rw [run, if_neg (not_not_intro hstate), Act.bind_of_ok hstaged]
  rfl

/-- A run tells of missing sources only where staging does. -/
theorem stage_of_run_sourcesMissing (hstart : start.Lawful) (hstate : start.state = .start)
    {text : String} {missing : List String} {progress : Progress}
    (h : p.run start host w = (.ok (.error (.sourcesMissing text missing), progress), w')) :
    (p.spec.stage p.sourceRoot host w).1 = .error (.sourcesMissing text missing) := by
  obtain ⟨result, reached, ended, talk, hrun, hending, -, -, -⟩ :=
    p.run_ending (hstart.fresh hstate) host w
  cases h.symm.trans hrun
  cases hending with
  | failed hstaged hcourse =>
    cases hcourse with
    | unstaged hstage => rw [hstage]
    | stopped hstage hran hbuild => cases hbuild
    | halted hstage hran hbuild hfinal => cases hfinal

/-- A run tells of missing sources exactly if there are some, and ends where it started. -/
theorem run_eq_sourcesMissing_iff (hstart : start.Lawful) (hstate : start.state = .start)
    {root : Location} (hroot : w.files.resolve host.cwd p.sourceRoot = .ok root)
    (hshort : ∀ path ∈ p.spec.build.sources.paths,
      ¬ w.files.TooLong host.cwd (SourceInput.pathUnder root path))
    {text : String} {missing : List String} {progress : Progress} :
    p.run start host w = (.ok (.error (.sourcesMissing text missing), progress), w') ↔
      p.spec.absentSources w.files host.cwd p.sourceRoot ≠ [] ∧
        text = (Path.ofLocation root).text ∧
        missing = p.spec.absentSources w.files host.cwd p.sourceRoot ∧ w' = w ∧
        progress = .initial := by
  constructor
  · intro hrun
    have hstage := eq_mk_of_fst (stage_of_run_sourcesMissing hstart hstate hrun)
    cases hrun.symm.trans (run_of_stage_error hstate hstage)
    obtain ⟨habsent, htext, hmissing, hworld⟩ :=
      (Spec.stage_eq_sourcesMissing_iff hroot hshort).mp hstage
    exact ⟨habsent, htext, hmissing, hworld, hstart.eq_initial hstate⟩
  · rintro ⟨habsent, rfl, rfl, rfl, rfl⟩
    rw [← hstart.eq_initial hstate]
    exact run_of_stage_error hstate (Spec.stage_of_absent hroot hshort habsent)

/-- Where the source root cannot be resolved, a run does not tell of missing sources. -/
theorem exists_resolve_of_run_sourcesMissing (hstart : start.Lawful) (hstate : start.state = .start)
    {text : String} {missing : List String} {progress : Progress}
    (h : p.run start host w = (.ok (.error (.sourcesMissing text missing), progress), w')) :
    ∃ root, w.files.resolve host.cwd p.sourceRoot = .ok root := by
  have hstage := stage_of_run_sourcesMissing hstart hstate h
  cases hroot : w.files.resolve host.cwd p.sourceRoot with
  | ok root => exact ⟨root, rfl⟩
  | error fault =>
    rw [Spec.stage, Act.bind_of_error (Act.ask_of_error hroot)] at hstage
    cases hstage

/-- The promise is kept only where the source root can be resolved. -/
theorem AbortsCleanly.exists_resolve (h : p.AbortsCleanly start host w) (hstart : start.Lawful)
    (hstate : start.state = .start) (hpaths : p.spec.build.sources.paths ≠ []) :
    ∃ root, w.files.resolve host.cwd p.sourceRoot = .ok root := by
  cases hroot : w.files.resolve host.cwd p.sourceRoot with
  | ok root => exact ⟨root, rfl⟩
  | error fault =>
    have habsent : p.spec.absentSources w.files host.cwd p.sourceRoot ≠ [] := by
      rw [Spec.absentSources, hroot]
      exact hpaths
    obtain ⟨text, missing, progress, w', hrun⟩ := h.raises_iff.mpr habsent
    obtain ⟨root, hresolved⟩ := exists_resolve_of_run_sourcesMissing hstart hstate hrun
    cases hroot.symm.trans hresolved

/-- A run from the first state tells of all sources that are missing and does nothing then, exactly
if the source root can be resolved, no path being refused for its length. -/
theorem abortsCleanly_iff (hspec : p.spec.Accepted) (hstart : start.Lawful)
    (hstate : start.state = .start)
    (hshort : ∀ root, w.files.resolve host.cwd p.sourceRoot = .ok root →
      ∀ path ∈ p.spec.build.sources.paths,
        ¬ w.files.TooLong host.cwd (SourceInput.pathUnder root path)) :
    p.AbortsCleanly start host w ↔
      ∃ root, w.files.resolve host.cwd p.sourceRoot = .ok root := by
  constructor
  · intro hclean
    exact hclean.exists_resolve hstart hstate hspec.paths_ne_nil
  · rintro ⟨root, hroot⟩
    have hiff := fun ended =>
      @run_eq_sourcesMissing_iff p start host w ended hstart hstate root hroot (hshort root hroot)
    refine ⟨⟨?_, ?_⟩, ?_, ?_⟩
    · rintro ⟨text, missing, progress, w', hrun⟩
      exact ((hiff w').mp hrun).1
    · intro habsent
      exact ⟨_, _, _, w, (hiff w).mpr ⟨habsent, rfl, rfl, rfl, rfl⟩⟩
    · intro text missing progress w' hrun
      obtain ⟨-, rfl, rfl, -, -⟩ := (hiff w').mp hrun
      exact ⟨root, hroot, rfl, rfl⟩
    · intro text missing progress w' hrun
      obtain ⟨-, -, -, rfl, rfl⟩ := (hiff w').mp hrun
      exact ⟨rfl, rfl, rfl, fun _ _ => rfl⟩

/-- The stock pipeline where only one of its three sources is there. -/
theorem abortsCleanly_iff_standard :
    Spec.standard.pipeline.AbortsCleanly .initial willingHost (.holding ["src"]) ∧
      Spec.standard.absentSources (World.holding ["src"]).files willingHost.cwd (.ofText ".") =
        ["build.rs", "Cargo.toml"] := by
  have hroot : (World.holding ["src"]).files.resolve willingHost.cwd (.ofText ".") =
      .ok ["work"] := by decide
  have hwalks : ∀ path ∈ Spec.standard.build.sources.paths,
      ((World.holding ["src"]).files.walk willingHost.cwd true
        (SourceInput.pathUnder ["work"] path)).isOk = true := by decide +kernel
  refine ⟨(abortsCleanly_iff Spec.accepted_standard Progress.lawful_initial rfl ?_).mpr
    ⟨_, hroot⟩, by decide +kernel⟩
  rintro root hresolved path hpath ⟨text, hwalk⟩
  cases hroot.symm.trans hresolved
  have hok := hwalks path hpath
  rw [hwalk] at hok
  cases hok

end Pipeline

/-- A world in which the working directory holds a link to itself. -/
def World.looping : World :=
  { World.holding [] with files := (World.holding []).files.put ["work", "loop"] (.link "loop") }

/-- The stock pipeline with that link for its source root. -/
def loopingPipeline : Pipeline := { Spec.standard.pipeline with sourceRoot := .ofText "loop" }

/-- No source is below a link to itself, and a run does not say so: it ends with an error of the file
system. -/
theorem Pipeline.not_abortsCleanly_of_loop :
    loopingPipeline.spec.absentSources World.looping.files willingHost.cwd
        loopingPipeline.sourceRoot = ["src", "build.rs", "Cargo.toml"] ∧
      (∃ fault, loopingPipeline.run .initial willingHost .looping =
        (.ok (.error (.file fault), .initial), .looping)) ∧
      ¬ loopingPipeline.AbortsCleanly .initial willingHost .looping := by
  have hloop : World.looping.files.resolve willingHost.cwd loopingPipeline.sourceRoot =
      .error (.linkLoop "/work/loop") := rfl
  refine ⟨?_, ⟨.linkLoop "/work/loop", ?_⟩, ?_⟩
  · rw [Spec.absentSources, hloop]
    rfl
  · apply run_of_stage_error rfl
    exact Act.bind_of_error (Act.ask_of_error hloop)
  · intro hclean
    obtain ⟨root, hroot⟩ := hclean.exists_resolve Progress.lawful_initial rfl (by decide)
    cases hloop.symm.trans hroot

end TwoStage
