import TwoStage.Pipeline.Run
import TwoStage.Proofs.Engine.Client

/-!
# Strides

How the parts of a stride follow each other. A stride never ends without a progress: what goes wrong
in it is an error beside the progress that was made, and moving to a state that can come next says
nothing to the engine and touches no file.

## Main definitions

- `Progress.move`, `Progress.tagged` — how a progress changes
- `Stride.phase` — a stride between two states, with a state of failure

## Main statements

- `Stride.bind_apply` — one stride after another
- `Stride.advance_of_mem`, `Stride.advance_of_not_mem` — moving to another state
- `Stride.orElse_of_deliberate`, `Stride.orElse_of_other` — a stride with a state of failure
- `Stride.phase_apply` — where a phase leads
- `Stride.bind_eq_ok`, `Stride.phase_eq_ok` — the parts of a stride that ends with a value
-/

namespace TwoStage

/-- The progress behind a move to another state. -/
def Progress.move (progress : Progress) (new : State) : Progress :=
  { progress with state := new, history := progress.history ++ [new] }

/-- The progress from which on the image of the build stage exists. -/
def Progress.tagged (progress : Progress) : Progress := { progress with builderTagged := true }

@[simp]
theorem Progress.state_move (progress : Progress) (new : State) :
    (progress.move new).state = new := rfl

@[simp]
theorem Progress.state_tagged (progress : Progress) : progress.tagged.state = progress.state := rfl

@[simp]
theorem Progress.builderTagged_move (progress : Progress) (new : State) :
    (progress.move new).builderTagged = progress.builderTagged := rfl

@[simp]
theorem Progress.builderTagged_tagged (progress : Progress) :
    progress.tagged.builderTagged = true := rfl

@[simp]
theorem Progress.history_move (progress : Progress) (new : State) :
    (progress.move new).history = progress.history ++ [new] := rfl

@[simp]
theorem Progress.history_tagged (progress : Progress) :
    progress.tagged.history = progress.history := rfl

/-- Where a phase leads from what its attempt reaches. -/
def Progress.settle {α : Type} (progress : Progress) (done failure : State) :
    Except Error α → Progress
  | .ok _ => progress.move done
  | .error e => if e.isDeliberate then progress.move failure else progress

/-- A stride between two states, with an attempt in the middle: an error raised on purpose there
leads to a state of failure. -/
def Stride.phase {α : Type} (begun done failure : State) (attempt : Stride α) : Stride α := do
  Stride.advance begun
  let value ← Stride.orElse failure attempt
  Stride.advance done
  return value

namespace Stride

variable {α β : Type} {host : Host} {w w' : World} {progress progress' : Progress}

theorem pure_apply (value : α) :
    (Pure.pure value : Stride α) progress host w = (.ok (.ok value, progress), w) := rfl

/-- One stride after another: the second goes on where the first one ends, unless with an error. -/
theorem bind_apply (x : Stride α) (f : α → Stride β) :
    (x >>= f) progress host w =
      match x progress host w with
      | (.ok (.ok value, reached), w') => f value reached host w'
      | (.ok (.error e, reached), w') => (.ok (.error e, reached), w')
      | (.error e, w') => (.error e, w') := by
  show Act.bind (x progress) _ host w = _
  rw [Act.bind]
  rcases x progress host w with ⟨_ | ⟨_ | _, _⟩, _⟩ <;> rfl

theorem bind_of_ok {x : Stride α} {value : α}
    (h : x progress host w = (.ok (.ok value, progress'), w')) (f : α → Stride β) :
    (x >>= f) progress host w = f value progress' host w' := by
  rw [bind_apply, h]

theorem bind_of_error {x : Stride α} {e : Error}
    (h : x progress host w = (.ok (.error e, progress'), w')) (f : α → Stride β) :
    (x >>= f) progress host w = (.ok (.error e, progress'), w') := by
  rw [bind_apply, h]

theorem ofAct_apply {x : Act α} {result : Except Error α} (h : x host w = (result, w')) :
    ofAct x progress host w = (.ok (result, progress), w') := by
  rw [ofAct, Act.bind_apply, Act.outcome, h]
  rfl

theorem noteBuilder_apply :
    noteBuilder progress host w = (.ok (.ok (), progress.tagged), w) := rfl

theorem advance_of_mem (progress : Progress) (new : State) (h : new ∈ progress.state.successors)
    (host : Host) (w : World) :
    ∃ w', advance new progress host w = (.ok (.ok (), progress.move new), w') ∧
      host.Spoke w w' [] := by
  obtain ⟨w', hreport, hspoke⟩ := Client.report_spoke (.plain .info "core"
    ("pipeline " ++ progress.state.name ++ " -> " ++ new.name)) host w
  refine ⟨w', ?_, hspoke⟩
  rw [advance, if_pos h, Act.bind_apply, hreport]
  rfl

theorem advance_of_not_mem {new : State} (h : new ∉ progress.state.successors) (host : Host)
    (w : World) :
    advance new progress host w =
      (.ok (.error (.illegalTransition progress.state new), progress), w) := by
  rw [advance, if_neg h]
  rfl

theorem orElse_of_ok {failure : State} {body : Stride α} {value : α}
    (h : body progress host w = (.ok (.ok value, progress'), w')) :
    orElse failure body progress host w = (.ok (.ok value, progress'), w') := by
  rw [orElse, Act.bind_apply, h]
  rfl

/-- An error raised on purpose leads to the state of failure. -/
theorem orElse_of_deliberate (failure : State) {body : Stride α} {e : Error}
    (h : body progress host w = (.ok (.error e, progress'), w')) (he : e.isDeliberate = true)
    (hf : failure ∈ progress'.state.successors) :
    ∃ w'', orElse failure body progress host w =
        (.ok (.error e, progress'.move failure), w'') ∧ host.Spoke w' w'' [] := by
  obtain ⟨w'', hadvance, hspoke⟩ := advance_of_mem progress' failure hf host w'
  refine ⟨w'', ?_, hspoke⟩
  rw [orElse, Act.bind_apply, h]
  simp only [he, if_true]
  rw [Act.bind_apply, hadvance]
  rfl

/-- Any other error leaves the pipeline in the state that it happened in. -/
theorem orElse_of_other {failure : State} {body : Stride α} {e : Error}
    (h : body progress host w = (.ok (.error e, progress'), w')) (he : e.isDeliberate = false) :
    orElse failure body progress host w = (.ok (.error e, progress'), w') := by
  rw [orElse, Act.bind_apply, h]
  simp only [he, Bool.false_eq_true, if_false]
  rfl

/-- A phase leads from what its attempt reaches to where the result of the attempt says. -/
theorem phase_apply (start : Progress) (begun done failure : State)
    (hbegun : begun ∈ start.state.successors) (hdone : done ∈ begun.successors)
    (hfailure : failure ∈ begun.successors) (attempt : Stride α) (host : Host) (w : World) :
    ∃ w₁, host.Spoke w w₁ [] ∧ ∀ result reached w₂,
      attempt (start.move begun) host w₁ = (.ok (result, reached), w₂) → reached.state = begun →
      ∃ w₃, phase begun done failure attempt start host w =
          (.ok (result, reached.settle done failure result), w₃) ∧ host.Spoke w₂ w₃ [] := by
  obtain ⟨w₁, hbegin, hs₁⟩ := advance_of_mem start begun hbegun host w
  refine ⟨w₁, hs₁, fun result reached w₂ hattempt hstate => ?_⟩
  rw [phase, bind_of_ok hbegin]
  cases result with
  | ok value =>
    obtain ⟨w₃, hend, hs₃⟩ := advance_of_mem reached done (by rwa [hstate]) host w₂
    refine ⟨w₃, ?_, hs₃⟩
    rw [bind_of_ok (orElse_of_ok hattempt), bind_of_ok hend, pure_apply]
    rfl
  | error e =>
    cases he : e.isDeliberate with
    | true =>
      obtain ⟨w₃, hfailed, hs₃⟩ := orElse_of_deliberate failure hattempt he (by rwa [hstate])
      refine ⟨w₃, ?_, hs₃⟩
      rw [bind_of_error hfailed, Progress.settle, if_pos he]
    | false =>
      refine ⟨w₂, ?_, .refl rfl rfl⟩
      rw [bind_of_error (orElse_of_other hattempt he), Progress.settle, if_neg (by simp [he])]

-- ════════════════════════════════════════════════════════════════════════
-- Strides that end with a value
-- ════════════════════════════════════════════════════════════════════════

theorem bind_eq_ok {x : Stride α} {f : α → Stride β} {result : β}
    (h : (x >>= f) progress host w = (.ok (.ok result, progress'), w')) :
    ∃ value reached w₁, x progress host w = (.ok (.ok value, reached), w₁) ∧
      f value reached host w₁ = (.ok (.ok result, progress'), w') := by
  rw [bind_apply] at h
  split at h
  · next value reached w₁ hx => exact ⟨value, reached, w₁, hx, h⟩
  · cases h
  · cases h

theorem ofAct_eq_ok {x : Act α} {value : α}
    (h : ofAct x progress host w = (.ok (.ok value, progress'), w')) :
    progress' = progress ∧ x host w = (.ok value, w') := by
  cases hx : x host w with
  | mk result w₁ =>
    cases h.symm.trans (ofAct_apply hx)
    exact ⟨rfl, rfl⟩

theorem ofAct_bind_eq_ok {x : Act α} {f : α → Stride β} {result : β}
    (h : (ofAct x >>= f) progress host w = (.ok (.ok result, progress'), w')) :
    ∃ value w₁, x host w = (.ok value, w₁) ∧
      f value progress host w₁ = (.ok (.ok result, progress'), w') := by
  obtain ⟨value, reached, w₁, hx, hf⟩ := bind_eq_ok h
  obtain ⟨rfl, hvalue⟩ := ofAct_eq_ok hx
  exact ⟨value, w₁, hvalue, hf⟩

theorem advance_eq_ok {new : State}
    (h : advance new progress host w = (.ok (.ok (), progress'), w')) :
    progress' = progress.move new ∧ host.Spoke w w' [] := by
  by_cases hnew : new ∈ progress.state.successors
  · obtain ⟨w₁, hadvance, hspoke⟩ := advance_of_mem progress new hnew host w
    cases h.symm.trans hadvance
    exact ⟨rfl, hspoke⟩
  · cases h.symm.trans (advance_of_not_mem hnew host w)

theorem orElse_eq_ok {failure : State} {body : Stride α} {value : α}
    (h : orElse failure body progress host w = (.ok (.ok value, progress'), w')) :
    body progress host w = (.ok (.ok value, progress'), w') := by
  rw [orElse] at h
  obtain ⟨⟨result, reached⟩, w₁, hbody, h⟩ := Act.bind_eq_ok h
  cases result with
  | ok made =>
    cases h
    exact hbody
  | error e =>
    dsimp only at h
    split at h
    · obtain ⟨⟨moved, last⟩, w₂, -, h⟩ := Act.bind_eq_ok h
      cases moved <;> cases h
    · cases h

/-- A phase that ends with a value is its attempt, between moves that say nothing. -/
theorem phase_eq_ok {begun done failure : State} {attempt : Stride α} {value : α}
    (h : phase begun done failure attempt progress host w = (.ok (.ok value, progress'), w')) :
    ∃ w₁ reached w₂, host.Spoke w w₁ [] ∧
      attempt (progress.move begun) host w₁ = (.ok (.ok value, reached), w₂) ∧
      progress' = reached.move done ∧ host.Spoke w₂ w' [] := by
  rw [phase] at h
  obtain ⟨⟨⟩, _, w₁, hbegin, h⟩ := bind_eq_ok h
  obtain ⟨made, reached, w₂, hattempt, h⟩ := bind_eq_ok h
  obtain ⟨⟨⟩, last, w₃, hend, h⟩ := bind_eq_ok h
  obtain ⟨rfl, hs₁⟩ := advance_eq_ok hbegin
  obtain ⟨rfl, hs₃⟩ := advance_eq_ok hend
  cases h
  exact ⟨w₁, reached, w₂, hs₁, orElse_eq_ok hattempt, rfl, hs₃⟩

end Stride

end TwoStage
