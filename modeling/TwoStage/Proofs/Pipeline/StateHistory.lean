import TwoStage.Proofs.Pipeline.Outcome
import Mathlib.Data.List.Chain

/-!
# The history of states

What holds of a pipeline at any time, however it is used: it can be run and it can be moved by hand,
in any order and any number of times, while hosts and worlds change in between. The history is a
path through the states that starts at the first one and ends at the present one, and only one run
ever gets to talk to the engine.

## Main definitions

- `Turn`, `Episode` — something done with a pipeline, and what came of it
- `Pipeline.episodes` — what comes of turns one after the other
- `Progress.Lawful` — what holds of a progress at any time
- `Turned` — what can come of a single turn

## Main statements

- `Pipeline.episode_turned` — one turn
- `Turned.lawful` — one turn keeps the progress lawful
- `Pipeline.episodes_lawful` — any turns
-/

namespace TwoStage

/-- What can be done with a pipeline. -/
inductive Deed where
  | run
  | advance (new : State)

/-- Something done with a pipeline, and the host and the world that it meets. -/
structure Turn where
  deed : Deed
  host : Host
  world : World

/-- What came of a turn. -/
structure Episode where
  turn : Turn
  before : Progress
  result : Except Error Unit
  after : Progress
  world : World

/-- In an episode the engine is talked to. -/
def Episode.Speaks (episode : Episode) : Prop := episode.world.calls ≠ episode.turn.world.calls

/-- The errors that say that a pipeline is not in the state for what is done with it. -/
def Error.isOfState : Error → Bool
  | .illegalTransition .. | .ranBefore => true
  | _ => false

namespace Pipeline

/-- Does something with a pipeline. -/
def perform (p : Pipeline) : Deed → Stride Unit
  | .run => do let _ ← p.run
  | .advance new => Stride.advance new

/-- What comes of a turn. -/
def episode (p : Pipeline) (before : Progress) (turn : Turn) : Episode :=
  match p.perform turn.deed before turn.host turn.world with
  | (.ok (result, after), world) => ⟨turn, before, result, after, world⟩
  | (.error e, world) => ⟨turn, before, .error e, before, world⟩

/-- What comes of turns one after the other. -/
def episodes (p : Pipeline) (before : Progress) : List Turn → List Episode
  | [] => []
  | turn :: rest => p.episode before turn :: p.episodes (p.episode before turn).after rest

end Pipeline

/-- What holds of a progress at any time: the history is a path from the first state to the present
one, and at the first state there is no image of the build stage. -/
structure Progress.Lawful (progress : Progress) : Prop where
  starts : progress.history.head? = some .start
  legal : progress.history.IsChain fun old new => new ∈ old.successors
  ends : progress.history.getLast? = some progress.state
  untagged : progress.state = .start → progress.builderTagged = false

/-- What can come of a turn: the pipeline moves; or it must not move there; or it is run again; or
it is run, which ends in one of the ways in which a run ends. -/
inductive Turned (p : Pipeline) (before : Progress) :
    Turn → Except Error Unit → Progress → World → Prop
  | moved {host w w' new} (hnew : new ∈ before.state.successors) (hsilent : w'.calls = w.calls) :
      Turned p before ⟨.advance new, host, w⟩ (.ok ()) (before.move new) w'
  | refused {host w new} (hnew : new ∉ before.state.successors) :
      Turned p before ⟨.advance new, host, w⟩ (.error (.illegalTransition before.state new)) before w
  | barred {host w} (hstate : before.state ≠ .start) :
      Turned p before ⟨.run, host, w⟩ (.error .ranBefore) before w
  | ran {host w w' result after talk} (hstate : before.state = .start)
      (hending : Ending p host w before result after talk) (htalked : host.Talked w w' talk) :
      Turned p before ⟨.run, host, w⟩ (result.map fun _ => ()) after w'

-- ════════════════════════════════════════════════════════════════════════
-- One turn
-- ════════════════════════════════════════════════════════════════════════

theorem Progress.lawful_initial : Progress.initial.Lawful :=
  ⟨rfl, List.isChain_singleton _, rfl, fun _ => rfl⟩

theorem Progress.Lawful.fresh {progress : Progress} (h : progress.Lawful)
    (hstate : progress.state = .start) : progress.Fresh := ⟨hstate, h.untagged hstate⟩

theorem State.start_not_mem_successors (state : State) : .start ∉ state.successors := by
  cases state <;> decide

theorem Progress.Lawful.move {progress : Progress} (h : progress.Lawful) {new : State}
    (hnew : new ∈ progress.state.successors) : (progress.move new).Lawful := by
  have hne : progress.history ≠ [] := by
    intro hnil
    have hstarts := h.starts
    rw [hnil] at hstarts
    cases hstarts
  refine ⟨?_, ?_, ?_, ?_⟩
  · rw [Progress.history_move, List.head?_append_of_ne_nil _ hne]
    exact h.starts
  · rw [Progress.history_move, List.isChain_append]
    refine ⟨h.legal, List.isChain_singleton _, fun old hold other hother => ?_⟩
    rw [h.ends] at hold
    cases hold
    cases hother
    exact hnew
  · rw [Progress.history_move, List.getLast?_concat, Progress.state_move]
  · intro hstate
    rw [Progress.state_move] at hstate
    rw [hstate] at hnew
    exact absurd hnew progress.state.start_not_mem_successors

theorem Progress.Lawful.tagged {progress : Progress} (h : progress.Lawful)
    (hstate : progress.state ≠ .start) : progress.tagged.Lawful :=
  ⟨h.starts, h.legal, h.ends, fun hstart => absurd hstart hstate⟩

@[simp]
theorem Pipeline.episode_turn (p : Pipeline) (before : Progress) (turn : Turn) :
    (p.episode before turn).turn = turn := by
  rw [episode]
  split <;> rfl

@[simp]
theorem Pipeline.episode_before (p : Pipeline) (before : Progress) (turn : Turn) :
    (p.episode before turn).before = before := by
  rw [episode]
  split <;> rfl

/-- Every turn comes to one of these. -/
theorem Pipeline.episode_turned (p : Pipeline) {before : Progress} (h : before.Lawful)
    (turn : Turn) :
    Turned p before turn (p.episode before turn).result (p.episode before turn).after
      (p.episode before turn).world := by
  obtain ⟨deed, host, w⟩ := turn
  cases deed with
  | advance new =>
    by_cases hnew : new ∈ before.state.successors
    · obtain ⟨w', hadvance, hspoke⟩ := Stride.advance_of_mem before new hnew host w
      have hsilent := hspoke.talked.calls_eq_iff.mpr rfl
      rw [episode]
      dsimp only [perform]
      rw [hadvance]
      exact .moved hnew hsilent
    · rw [episode]
      dsimp only [perform]
      rw [Stride.advance_of_not_mem hnew host w]
      exact .refused hnew
  | run =>
    by_cases hstate : before.state = .start
    · obtain ⟨result, after, w', talk, hrun, hending, htalked, -⟩ :=
        p.run_ending (h.fresh hstate) host w
      have hepisode : p.episode before ⟨.run, host, w⟩ =
          ⟨⟨.run, host, w⟩, before, result.map fun _ => (), after, w'⟩ := by
        rw [episode]
        dsimp only [perform]
        rw [Stride.bind_apply, hrun]
        cases result <;> rfl
      rw [hepisode]
      exact .ran hstate hending htalked
    · have hrun : p.run before host w = (.ok (.error .ranBefore, before), w) := by
        rw [run, if_pos hstate]
        rfl
      rw [episode]
      dsimp only [perform]
      rw [Stride.bind_apply, hrun]
      exact .barred hstate

section

variable {p : Pipeline} {host : Host} {w : World} {context : StagedContext}
  {start progress : Progress} {talk : Talk}

theorem BuildCourse.lawful {result : Except Error String}
    (h : BuildCourse p host context start result progress talk) (hstart : start.Lawful)
    (hstate : start.state = .start) : progress.Lawful := by
  have hbegun : (start.move .buildInProgress).Lawful := hstart.move (by rw [hstate]; decide)
  have htagged : (start.move .buildInProgress).tagged.Lawful := hbegun.tagged (by simp)
  cases h with
  | engineMissing => exact hbegun.move (by simp [State.successors])
  | unsaid => exact hbegun
  | refused => exact hbegun.move (by simp [State.successors])
  | unprobed => exact htagged
  | notExecutable => exact htagged.move (by simp [State.successors])
  | confirmed => exact htagged.move (by simp [State.successors])

theorem FinalCourse.lawful {t : FileTree} {result : Except Error String}
    (h : FinalCourse p host t context start result progress talk) (hstart : start.Lawful)
    (hstate : start.state = .artifactReady) : progress.Lawful := by
  have hbegun : (start.move .finalInProgress).Lawful := hstart.move (by rw [hstate]; decide)
  cases h with
  | unwritable => exact hbegun
  | unsaid => exact hbegun
  | refused => exact hbegun.move (by simp [State.successors])
  | made => exact hbegun.move (by simp [State.successors])

theorem BuildCourse.state_of_ok {id : String}
    (h : BuildCourse p host context start (.ok id) progress talk) :
    progress.state = .artifactReady := by
  cases h with
  | confirmed => rfl

/-- The stages keep the progress lawful. -/
theorem Course.lawful {result : Except Error (String × String × StagedContext)}
    (h : Course p host w start result progress talk) (hstart : start.Lawful)
    (hstate : start.state = .start) : progress.Lawful := by
  cases h with
  | unstaged => exact hstart
  | stopped hstage hran hbuild => exact hbuild.lawful hstart hstate
  | halted hstage hran hbuild hfinal =>
    exact hfinal.lawful (hbuild.lawful hstart hstate) hbuild.state_of_ok
  | finished hstage hran hbuild hfinal =>
    exact hfinal.lawful (hbuild.lawful hstart hstate) hbuild.state_of_ok

/-- Whoever talks to the engine has left the first state. -/
theorem Course.state_ne_start {result : Except Error (String × String × StagedContext)}
    (h : Course p host w start result progress talk) (htalk : talk ≠ []) :
    progress.state ≠ .start := by
  cases h with
  | unstaged => exact absurd rfl htalk
  | stopped hstage hran hbuild => cases hbuild <;> simp
  | halted hstage hran hbuild hfinal => cases hfinal <;> simp
  | finished hstage hran hbuild hfinal =>
    cases hfinal with
    | made => simp

/-- The stages never end with an error about the state. -/
theorem Course.not_isOfState {e : Error} (h : Course p host w start (.error e) progress talk) :
    e.isOfState = false := by
  cases h with
  | unstaged hstage =>
    have hkind := Spec.failsWith_stage p.spec p.sourceRoot host w e (by rw [hstage])
    cases e with
    | sourcesMissing => rfl
    | file => rfl
    | config => rfl
    | _ => cases hkind
  | stopped hstage hran hbuild => cases hbuild <;> rfl
  | halted hstage hran hbuild hfinal => cases hfinal <;> rfl

end

namespace Turned

variable {p : Pipeline} {before after : Progress} {turn : Turn} {result : Except Error Unit}
  {w' : World}

/-- A turn keeps the progress lawful. -/
theorem lawful (h : Turned p before turn result after w') (hbefore : before.Lawful) :
    after.Lawful := by
  cases h with
  | moved hnew => exact hbefore.move hnew
  | refused => exact hbefore
  | barred => exact hbefore
  | ran hstate hending =>
    obtain ⟨reached, hcourse, -⟩ := hending.course
    exact hcourse.lawful hbefore hstate

/-- A turn that moves nothing by hand leaves the progress as it was. -/
theorem after_eq_of_advance (h : Turned p before turn result after w') {new : State}
    (hdeed : turn.deed = .advance new) (hresult : result.isOk = false) : after = before := by
  cases h with
  | moved => cases hresult
  | refused => rfl
  | barred => cases hdeed
  | ran => cases hdeed

/-- A state that nothing can follow is not left. -/
theorem state_eq_of_terminal (h : Turned p before turn result after w')
    (hterminal : before.state.successors = []) : after.state = before.state := by
  cases h with
  | moved hnew =>
    rw [hterminal] at hnew
    cases hnew
  | refused => rfl
  | barred => rfl
  | ran hstate =>
    rw [hstate] at hterminal
    cases hterminal

/-- A run that begins at the first state never fails for the state. -/
theorem not_isOfState (h : Turned p before turn result after w') (hdeed : turn.deed = .run)
    (hstate : before.state = .start) {e : Error} (hresult : result = .error e) :
    e.isOfState = false := by
  cases h with
  | moved => cases hdeed
  | refused => cases hdeed
  | barred hne => exact absurd hstate hne
  | ran _ hending =>
    cases hending with
    | failed hstaged hcourse =>
      cases hresult
      exact hcourse.not_isOfState
    | unlocked =>
      cases hresult
      rfl
    | returned => cases hresult

/-- A run that begins at another state does nothing but fail. -/
theorem barred_of_run (h : Turned p before turn result after w') (hdeed : turn.deed = .run)
    (hstate : before.state ≠ .start) :
    result = .error .ranBefore ∧ after = before ∧ w' = turn.world := by
  cases h with
  | moved => cases hdeed
  | refused => cases hdeed
  | barred => exact ⟨rfl, rfl, rfl⟩
  | ran hstart => exact absurd hstart hstate

/-- Only a run that begins at the first state talks to the engine, and it leaves that state. -/
theorem of_speaks (h : Turned p before turn result after w')
    (hspeaks : w'.calls ≠ turn.world.calls) : before.state = .start ∧ after.state ≠ .start := by
  cases h with
  | moved hnew hsilent => exact absurd hsilent hspeaks
  | refused => exact absurd rfl hspeaks
  | barred => exact absurd rfl hspeaks
  | ran hstate hending htalked =>
    obtain ⟨reached, hcourse, -⟩ := hending.course
    refine ⟨hstate, hcourse.state_ne_start fun hnil => hspeaks ?_⟩
    exact htalked.calls_eq_iff.mpr hnil

/-- The first state is not entered again. -/
theorem state_ne_start (h : Turned p before turn result after w') (hstate : before.state ≠ .start) :
    after.state ≠ .start := by
  cases h with
  | moved hnew =>
    intro hstart
    rw [Progress.state_move] at hstart
    rw [hstart] at hnew
    exact before.state.start_not_mem_successors hnew
  | refused => exact hstate
  | barred => exact hstate
  | ran hstart => exact absurd hstart hstate

end Turned

-- ════════════════════════════════════════════════════════════════════════
-- Any turns
-- ════════════════════════════════════════════════════════════════════════

namespace Pipeline

/-- Each episode is a turn from a lawful progress. -/
theorem turned_of_mem_episodes (p : Pipeline) {start : Progress} (hstart : start.Lawful)
    {turns : List Turn} {episode : Episode} (h : episode ∈ p.episodes start turns) :
    episode.before.Lawful ∧
      Turned p episode.before episode.turn episode.result episode.after episode.world := by
  induction turns generalizing start with
  | nil => cases h
  | cons turn rest ih =>
    have hturned := p.episode_turned hstart turn
    rcases List.mem_cons.mp h with rfl | hrest
    · rw [episode_before, episode_turn]
      exact ⟨hstart, hturned⟩
    · exact ih (hturned.lawful hstart) hrest

/-- Once the first state is left, the engine is not talked to. -/
theorem not_speaks_of_ne_start (p : Pipeline) {start : Progress} (hstart : start.Lawful)
    (hstate : start.state ≠ .start) {turns : List Turn} {episode : Episode}
    (h : episode ∈ p.episodes start turns) : ¬ episode.Speaks := by
  induction turns generalizing start with
  | nil => cases h
  | cons turn rest ih =>
    have hturned := p.episode_turned hstart turn
    rcases List.mem_cons.mp h with rfl | hrest
    · intro hspeaks
      rw [Episode.Speaks, episode_turn] at hspeaks
      exact hstate (hturned.of_speaks hspeaks).1
    · exact ih (hturned.lawful hstart) (hturned.state_ne_start hstate) hrest

/-- The engine is talked to in one episode at most. -/
theorem pairwise_episodes (p : Pipeline) {start : Progress} (hstart : start.Lawful)
    (turns : List Turn) :
    (p.episodes start turns).Pairwise fun one other => ¬ (one.Speaks ∧ other.Speaks) := by
  induction turns generalizing start with
  | nil => exact List.Pairwise.nil
  | cons turn rest ih =>
    have hturned := p.episode_turned hstart turn
    refine List.pairwise_cons.mpr ⟨?_, ih (hturned.lawful hstart)⟩
    rintro other hother ⟨hspeaks, hagain⟩
    rw [Episode.Speaks, episode_turn] at hspeaks
    exact p.not_speaks_of_ne_start (hturned.lawful hstart) (hturned.of_speaks hspeaks).2 hother hagain

/-- However a fresh pipeline is used: its history is a path from the first state to the present one;
moving it where it must not go changes nothing; the states of failure and the last state are not
left; a run from the first state never fails for the state, and any other run does nothing but fail
for it; and the engine is talked to in one episode at most. -/
theorem episodes_lawful (p : Pipeline) (turns : List Turn) :
    (∀ episode ∈ p.episodes .initial turns,
      episode.before.Lawful ∧ episode.after.Lawful ∧
      (∀ new, episode.turn.deed = .advance new → episode.result.isOk = false →
        episode.after = episode.before) ∧
      (episode.before.state ∈ [.buildFailed, .finalFailed, .imageReady] →
        episode.after.state = episode.before.state) ∧
      (episode.turn.deed = .run → episode.before.state = .start →
        ∀ e, episode.result = .error e → e.isOfState = false) ∧
      (episode.turn.deed = .run → episode.before.state ≠ .start →
        episode.result = .error .ranBefore ∧ episode.after = episode.before ∧
          episode.world = episode.turn.world)) ∧
    (p.episodes .initial turns).Pairwise fun one other => ¬ (one.Speaks ∧ other.Speaks) := by
  refine ⟨fun episode h => ?_, p.pairwise_episodes Progress.lawful_initial turns⟩
  obtain ⟨hbefore, hturned⟩ := p.turned_of_mem_episodes Progress.lawful_initial h
  refine ⟨hbefore, hturned.lawful hbefore, fun new hdeed hresult => ?_, fun hterminal => ?_,
    fun hdeed hstate e hresult => ?_, fun hdeed hstate => ?_⟩
  · exact hturned.after_eq_of_advance hdeed hresult
  · refine hturned.state_eq_of_terminal ?_
    rcases List.mem_cons.mp hterminal with hstate | hterminal
    · rw [hstate]
      rfl
    · rcases List.mem_cons.mp hterminal with hstate | hterminal
      · rw [hstate]
        rfl
      · rw [List.mem_singleton.mp hterminal]
        rfl
  · exact hturned.not_isOfState hdeed hstate hresult
  · exact hturned.barred_of_run hdeed hstate

end Pipeline

end TwoStage
