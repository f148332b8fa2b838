import TwoStage.Proofs.Engine.Client
import TwoStage.Verify

/-!
# Operations that only look

Checking an image reads the files and talks to the engine; what was recorded, shown or counted
before does not matter to it. So it ends in the same way, and leaves the same things open, wherever
the files are the same and the engine replies alike from there on.

## Main definitions

- `Engine.RepliesAlike` — calls after which an engine goes on in the same way
- `Host.LooksAlike` — worlds that are the same to whoever reads files and talks to the engine
- `Act.Steady` — operations that end in the same way at such worlds

## Main statements

- `Act.Steady.bind` — one operation after another
- `Client.steady_run`, `Client.steady_inspect` — what the client does
- `steady_verify` — checking an image
-/

namespace TwoStage

/-- After some calls the engine replies to all that follows as it does after some others. -/
def Engine.RepliesAlike (engine : Engine) (before other : List Call) : Prop :=
  ∀ made call, engine.reply (before ++ made) call = engine.reply (other ++ made) call

/-- Two worlds with the same files, at which the engine replies alike. -/
structure Host.LooksAlike (host : Host) (w v : World) : Prop where
  files : w.files = v.files
  replies : host.engine.RepliesAlike w.calls v.calls

theorem Engine.RepliesAlike.reply {engine : Engine} {before other : List Call}
    (h : engine.RepliesAlike before other) (call : Call) :
    engine.reply before call = engine.reply other call := by
  simpa using h [] call

theorem Host.LooksAlike.refl (host : Host) (w : World) : host.LooksAlike w w :=
  ⟨rfl, fun _ _ => rfl⟩

/-- The same call on both sides changes nothing. -/
theorem Engine.RepliesAlike.append {engine : Engine} {before other : List Call}
    (h : engine.RepliesAlike before other) (call : Call) :
    engine.RepliesAlike (before ++ [call]) (other ++ [call]) := by
  intro made next
  rw [List.append_assoc, List.append_assoc]
  exact h _ next

namespace Act

variable {α β : Type}

/-- An operation that ends in the same way at worlds that look alike, and leaves them alike. -/
def Steady (x : Act α) : Prop :=
  ∀ host w v, host.LooksAlike w v →
    (x host w).1 = (x host v).1 ∧ host.LooksAlike (x host w).2 (x host v).2

namespace Steady

theorem pure (value : α) : Steady (Pure.pure value : Act α) := fun _ _ _ h => ⟨rfl, h⟩

theorem fail (e : Error) : Steady (Act.fail e : Act α) := fun _ _ _ h => ⟨rfl, h⟩

theorem ofExcept (x : Except Error α) : Steady (Act.ofExcept x) := fun _ _ _ h => ⟨rfl, h⟩

theorem bind {x : Act α} {f : α → Act β} (hx : Steady x) (hf : ∀ value, Steady (f value)) :
    Steady (x >>= f) := by
  intro host w v h
  obtain ⟨hends, hafter⟩ := hx host w v h
  rw [bind_apply, bind_apply]
  generalize x host w = ended at hends hafter ⊢
  generalize x host v = ended' at hends hafter ⊢
  obtain ⟨result, w₁⟩ := ended
  obtain ⟨result', v₁⟩ := ended'
  obtain rfl : result = result' := hends
  cases result with
  | error e => exact ⟨rfl, hafter⟩
  | ok value => exact hf value host w₁ v₁ hafter

/-- What is reported depends on the level, and no one looks at it. -/
theorem report (record : LogRecord) : Steady (Act.report record) := by
  intro host w v h
  obtain ⟨records, hw⟩ := report_apply record host w
  obtain ⟨records', hv⟩ := report_apply record host v
  rw [hw, hv]
  exact ⟨rfl, h.files, h.replies⟩

theorem call (program : String) (command : Command) : Steady (Act.call program command) := by
  intro host w v h
  cases hsay : command.isSayable program with
  | true =>
    simp only [Act.call, hsay, if_true, h.files]
    exact ⟨congrArg Except.ok (h.replies.reply _), rfl, h.replies.append _⟩
  | false =>
    rw [Client.call_of_unsayable hsay, Client.call_of_unsayable hsay]
    exact ⟨rfl, h⟩

end Steady

end Act

open Act

theorem Client.steady_locate (client : Client) : Steady client.locate := by
  intro host w v h
  rw [locate, locate]
  split <;> exact ⟨rfl, h⟩

theorem Client.steady_run (client : Client) (command : RunCommand) :
    Steady (client.run command) :=
  .bind client.steady_locate fun _ => .bind (.report _) fun _ => .bind (.call _ _) fun _ => .pure _

theorem Client.steady_inspect (client : Client) (image : String) :
    Steady (client.inspect image) := by
  refine .bind client.steady_locate fun program => .bind (.call _ _) fun reply => ?_
  split
  · exact .fail _
  · exact .bind (.ofExcept _) fun _ => .ofExcept _

namespace Check

theorem steady_imageConfig (client : Client) (image : String) :
    Steady (imageConfig client image) :=
  .bind (client.steady_inspect image) fun _ => .bind (.ofExcept _) fun _ => .pure _

theorem steady_perform (check : Check) (spec : Spec) (client : Client) (image : String) :
    Steady (check.perform spec client image) := by
  cases check with
  | entrypoint =>
    exact .bind (steady_imageConfig client image) fun _ => .bind (.ofExcept _) fun _ =>
      .bind (.ofExcept _) fun _ => .pure _
  | user =>
    exact .bind (steady_imageConfig client image) fun _ => .bind (.ofExcept _) fun _ => .pure _
  | uid => exact .bind (client.steady_run _) fun _ => .pure _
  | artifact => exact .bind (client.steady_run _) fun _ => .pure _
  | noToolchain => exact .bind (client.steady_run _) fun _ => .pure _
  | systemPaths => exact .bind (client.steady_run _) fun _ => .pure _
  | libraries =>
    refine .bind (client.steady_run _) fun _ => ?_
    split <;> exact .pure _

theorem steady_performAll (spec : Spec) (client : Client) (image : String)
    (checks : List Check) : Steady (performAll spec client image checks) := by
  induction checks with
  | nil => exact .pure _
  | cons check rest ih =>
    exact .bind (check.steady_perform spec client image) fun _ => .bind ih fun _ => .pure _

end Check

/-- Checking an image comes to the same at worlds that look alike. -/
theorem steady_verify (spec : Spec) (client : Client) (image : String) :
    Steady (verify spec client image) :=
  .bind (Check.steady_performAll spec client image _) fun _ => .pure _

end TwoStage
