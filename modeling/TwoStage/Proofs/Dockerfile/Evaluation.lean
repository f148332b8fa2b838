import Mathlib.Logic.Function.Basic
import TwoStage.Proofs.Dockerfile.Reading

/-!
# Building in two steps

The engine builds the stages of a file one after the other. A stage starts from the finished state
of an earlier stage, if the name behind its `FROM` is that of one, and else from an image in the
store; a `COPY --from` reads the finished state of the stage that it names. What a statement does to
a state is left open.

Two builds give the same image as one: the file with the final stage alone, built on an image of the
finished build stage, ends in the state that the final stage of the file with both stages ends in.

## Main definitions

- `Dockerfile.evaluate` — the state of a stage of a file

## Main statements

- `Dockerfile.evaluate_finalOnly` — the final stage on top of the finished build stage
-/

namespace TwoStage

variable {σ : Type}

/-- The stage that a `COPY` reads from, if it names one. -/
def Statement.source? (statement : Statement) : Option String :=
  if statement.keyword = "COPY" then
    (afterStart? "--from=".toList statement.operand.toList).map fun rest =>
      String.ofList (cutAt ' ' rest).1
  else none

/-- The state in which a stage ends, `done` being the finished states of earlier stages. -/
def StageText.finish (step : Statement → Option σ → σ → σ) (store : String → σ)
    (done : List (String × σ)) (stage : StageText) : σ :=
  let start := (done.lookup stage.base).getD (store stage.base)
  let source (statement : Statement) := statement.source?.bind fun name => done.lookup name
  stage.body.foldl (fun state statement => step statement (source statement) state) start

/-- The finished states of all stages, the last one first. -/
def finishAll (step : Statement → Option σ → σ → σ) (store : String → σ) :
    List (String × σ) → List StageText → List (String × σ)
  | done, [] => done
  | done, stage :: rest =>
    finishAll step store ((stage.name, stage.finish step store done) :: done) rest

/-- The state in which the named stage of a file ends, if there is such a stage. `step` says what a
statement does to a state, given the state of the stage that it reads from. -/
def Dockerfile.evaluate (step : Statement → Option σ → σ → σ) (store : String → σ) (s : String)
    (target : String) : Option σ :=
  (finishAll step store [] (stagesOf (read s))).lookup target

section Finish

variable (step : Statement → Option σ → σ → σ) (store : String → σ)

/-- A stage without statements ends where it starts. -/
theorem StageText.finish_nil (name base : String) :
    (StageText.mk name base []).finish step store [] = store base := rfl

/-- A stage does not depend on an image in the store that it does not start from. -/
theorem StageText.finish_update {stage : StageText} {image : String} (h : image ≠ stage.base)
    (state : σ) (done : List (String × σ)) :
    stage.finish step (Function.update store image state) done = stage.finish step store done := by
  rw [finish, finish, Function.update_of_ne (Ne.symm h)]

/-- Of two stages with different names, both are found under their names. -/
theorem lookup_finishAll_pair (first second : StageText) (h : first.name ≠ second.name) :
    (finishAll step store [] [first, second]).lookup first.name =
        some (first.finish step store []) ∧
      (finishAll step store [] [first, second]).lookup second.name =
        some (second.finish step store [(first.name, first.finish step store [])]) := by
  have hne : (first.name == second.name) = false := by simpa using h
  constructor
  · simp [finishAll, List.lookup_cons, hne]
  · simp [finishAll]

end Finish

namespace Dockerfile

/-- The final stage comes out the same from the file with both stages, where this can be written, and
from the file with the final stage alone, if the store holds the finished build stage under the name
that this file starts from. That file has no statement of the build stage but the `FROM` that
introduces its name. -/
theorem evaluate_finalOnly (step : Statement → Option σ → σ → σ) (store : String → σ)
    {spec : Spec} {builder file : String} (hfile : render spec = .ok file)
    (hnames : spec.build.name ≠ spec.final.name)
    (hlacks : spec.Lacks '\n') (hbuild : Unspaced spec.build.base.reference)
    (hfinal : Unspaced spec.final.base.reference) (hbuilder : Unspaced builder)
    (hne : builder ≠ spec.final.base.reference) :
    ∃ built finished,
      evaluate step store file spec.build.name = some built ∧
      evaluate step store file spec.final.name = some finished ∧
      evaluate step (Function.update store builder built) (text (finalOnly spec builder))
        spec.final.name = some finished ∧
      stagesOf (read (text (finalOnly spec builder))) =
        [⟨spec.build.name, builder, []⟩, spec.finalStageText] := by
  obtain ⟨-, rfl⟩ := render_eq_ok_iff.mp hfile
  have hboth := stagesOf_twoStage hlacks hbuild.space_not_mem hfinal.space_not_mem
  have halone := stagesOf_finalOnly hlacks hbuilder.newline_not_mem hbuilder.space_not_mem
    hfinal.space_not_mem
  let built := spec.buildStageText.finish step store []
  let finished := spec.finalStageText.finish step store [(spec.build.name, built)]
  obtain ⟨hfirst, hsecond⟩ := lookup_finishAll_pair step store
    spec.buildStageText spec.finalStageText hnames
  obtain ⟨-, hreused⟩ := lookup_finishAll_pair step (Function.update store builder built)
    ⟨spec.build.name, builder, []⟩ spec.finalStageText hnames
  -- the stage that stands for the build stage ends where the build stage ended
  rw [StageText.finish_nil, Function.update_self, StageText.finish_update step store hne] at hreused
  refine ⟨built, finished, ?_, ?_, ?_, halone⟩
  · rw [evaluate, hboth]
    exact hfirst
  · rw [evaluate, hboth]
    exact hsecond
  · rw [evaluate, halone]
    exact hreused

/-- Notes the keyword of a statement behind what it reads. -/
def noteKeyword (statement : Statement) (source : Option (List String)) (state : List String) :
    List String :=
  state ++ source.getD [] ++ [statement.keyword]

theorem evaluate_finalOnly_standard :
    Spec.standard.Lacks '\n' ∧ Unspaced "refact-lsp:builder" ∧
    render Spec.standard = .ok (text (twoStage Spec.standard)) ∧
    ∃ built finished,
      evaluate noteKeyword (fun image => [image]) (text (twoStage Spec.standard)) "builder" =
        some built ∧
      evaluate noteKeyword (fun image => [image]) (text (twoStage Spec.standard)) "final" =
        some finished ∧
      evaluate noteKeyword (Function.update (fun image => [image]) "refact-lsp:builder" built)
        (text (finalOnly Spec.standard "refact-lsp:builder")) "final" = some finished ∧
      stagesOf (read (text (finalOnly Spec.standard "refact-lsp:builder"))) =
        [⟨"builder", "refact-lsp:builder", []⟩, Spec.standard.finalStageText] := by
  have hlacks : Spec.standard.Lacks '\n' := Spec.lacks_standard (Or.inl rfl)
  have hbuilder : Unspaced "refact-lsp:builder" := by decide
  have hnames : Spec.standard.build.name ≠ Spec.standard.final.name := by decide
  have hfile : render Spec.standard = .ok (text (twoStage Spec.standard)) := if_pos (by decide)
  have hevaluate := evaluate_finalOnly noteKeyword (fun image => [image]) hfile hnames hlacks
    (by decide) (by decide) hbuilder (by decide)
  exact ⟨hlacks, hbuilder, hfile, hevaluate⟩

end Dockerfile

end TwoStage
