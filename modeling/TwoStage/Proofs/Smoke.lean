import TwoStage.Proofs.Engine.Client
import TwoStage.Proofs.Pipeline.Outcome
import TwoStage.Smoke

/-!
# What an image is started with

Starting an image is one call, and nothing that was asked for is lost in its words: a reader that
takes flags with their operands up to the first other word gets back the ports, the environment, the
image and the arguments. Where an entry of the environment is no pair, the first such one ends the
operation before anything is said.

## Main definitions

- `SmokeOrder.command` — the command for an order
- `SmokeOrder.ofWords?` — the order that the words of a command are read as

## Main statements

- `SmokeOrder.run_of_notPair`, `SmokeOrder.run_called` — how starting an image ends
- `SmokeOrder.ofWords?_words` — the words of the command are read as the order
- `SmokeOrder.run_recoverable` — both for any order
-/

namespace TwoStage

open Act

theorem isPair_iff {text : String} : isPair text = true ↔ '=' ∈ text.toList :=
  List.contains_iff_mem

namespace SmokeOrder

/-- The command for an order. -/
def command (order : SmokeOrder) : RunCommand :=
  { image := order.image, args := order.args, entrypoint := none, publish := order.publish
    env := order.env, capture := false }

-- ════════════════════════════════════════════════════════════════════════
-- Reading the words of a command
-- ════════════════════════════════════════════════════════════════════════

/-- What a flag with an operand adds to an order. -/
def adds? : String → Option (String → SmokeOrder → SmokeOrder)
  | "--publish" => some fun port order => { order with publish := port :: order.publish }
  | "--env" => some fun pair order => { order with env := pair :: order.env }
  | _ => none

/-- Reads words as an order: flags, some of them with an operand, up to the first other word. That
one is the image, and all words behind it are arguments. -/
def ofWords? : List String → Option SmokeOrder
  | [] => none
  | word :: rest =>
    if word = "--rm" ∨ word = "-i" then ofWords? rest
    else
      match adds? word with
      | none => some ⟨word, rest, [], []⟩
      | some add =>
        match rest with
        | [] => none
        | operand :: rest => (ofWords? rest).map (add operand)

/-- No text of an order, and not the program either, holds a null character. -/
def CanBeAsked (order : SmokeOrder) (program : String) : Prop :=
  ∀ text ∈ program :: order.image :: (order.publish ++ order.env ++ order.args), isWord text = true

/-- The words of the command for an order, without the name of the command. -/
def words (order : SmokeOrder) : List String :=
  "--rm" :: "-i" :: (flagged "--publish" order.publish ++
    (flagged "--env" order.env ++ order.image :: order.args))

theorem argv_command (order : SmokeOrder) : order.command.argv = "run" :: order.words := by
  simp [command, RunCommand.argv, words]

theorem not_flag_of_head? {word : String} (h : word.toList.head? ≠ some '-') :
    ¬ (word = "--rm" ∨ word = "-i") ∧ adds? word = none := by
  refine ⟨?_, ?_⟩
  · rintro (rfl | rfl) <;> exact h rfl
  · rw [adds?.eq_def]
    split
    · exact absurd rfl h
    · exact absurd rfl h
    · rfl

/-- A word that does not start with a dash is the image. -/
theorem ofWords?_image {image : String} (h : image.toList.head? ≠ some '-') (args : List String) :
    ofWords? (image :: args) = some ⟨image, args, [], []⟩ := by
  obtain ⟨hflag, hadds⟩ := not_flag_of_head? h
  rw [ofWords?, if_neg hflag, hadds]

/-- Operands behind the same flag are added one by one. -/
theorem ofWords?_flagged {flag : String} {add : String → SmokeOrder → SmokeOrder}
    (hadds : adds? flag = some add) (operands : List String) {rest : List String}
    {order : SmokeOrder} (hrest : ofWords? rest = some order) :
    ofWords? (flagged flag operands ++ rest) = some (operands.foldr add order) := by
  have hflag : ¬ (flag = "--rm" ∨ flag = "-i") := by
    rintro (rfl | rfl) <;> simp [adds?] at hadds
  induction operands with
  | nil => exact hrest
  | cons operand operands ih =>
    have hwords : flagged flag (operand :: operands) ++ rest =
        flag :: operand :: (flagged flag operands ++ rest) := rfl
    rw [hwords, ofWords?, if_neg hflag, hadds]
    dsimp only
    rw [ih, Option.map_some, List.foldr_cons]

theorem foldr_publish (ports : List String) (order : SmokeOrder) :
    ports.foldr (fun port order => { order with publish := port :: order.publish }) order =
      { order with publish := ports ++ order.publish } := by
  induction ports with
  | nil => rfl
  | cons port ports ih => rw [List.foldr_cons, ih, List.cons_append]

theorem foldr_env (pairs : List String) (order : SmokeOrder) :
    pairs.foldr (fun pair order => { order with env := pair :: order.env }) order =
      { order with env := pairs ++ order.env } := by
  induction pairs with
  | nil => rfl
  | cons pair pairs ih => rw [List.foldr_cons, ih, List.cons_append]

/-- The words of the command for an order are read as the order. -/
theorem ofWords?_words {order : SmokeOrder} (himage : order.image.toList.head? ≠ some '-') :
    ofWords? order.words = some order := by
  have hrest := ofWords?_image himage order.args
  have henv := ofWords?_flagged (show adds? "--env" = some _ from rfl) order.env hrest
  have hpublish := ofWords?_flagged (show adds? "--publish" = some _ from rfl) order.publish henv
  rw [foldr_env, foldr_publish, List.append_nil, List.append_nil] at hpublish
  rw [words, ofWords?, if_pos (Or.inl rfl), ofWords?, if_pos (Or.inr rfl), hpublish]

-- ════════════════════════════════════════════════════════════════════════
-- Starting an image
-- ════════════════════════════════════════════════════════════════════════

section

variable {order : SmokeOrder} {client : Client} {host : Host} {program : String}

/-- The first entry of the environment that is no pair ends the operation, and nothing was done. -/
theorem run_of_notPair {before after : List String} {text : String}
    (henv : order.env = before ++ text :: after) (hbefore : ∀ pair ∈ before, isPair pair = true)
    (htext : isPair text = false) (w : World) :
    order.run client host w = (.error (.notPair text), w) := by
  have hnone : before.find? (fun pair => !isPair pair) = none :=
    List.find?_eq_none.mpr fun pair hpair => by simp [hbefore pair hpair]
  have hfirst : order.env.find? (fun pair => !isPair pair) = some text := by
    rw [henv, List.find?_append, hnone, Option.none_or, List.find?_cons_of_pos (by simp [htext])]
  rw [run, hfirst]
  rfl

theorem run_of_pairs (henv : ∀ pair ∈ order.env, isPair pair = true) :
    order.run client = do
      log ("running " ++ order.image ++ " " ++ joinWith " " order.args)
      let outcome ← client.run order.command
      log (order.image ++ " exited with " ++ toString outcome.code)
      return outcome.code := by
  have hnone : order.env.find? (fun pair => !isPair pair) = none :=
    List.find?_eq_none.mpr fun pair hpair => by simp [henv pair hpair]
  rw [run, hnone]
  rfl

/-- The words of the command for an order, and those of its texts that can differ. -/
theorem isSayable_command_iff :
    (Command.run order.command).isSayable program = true ↔ order.CanBeAsked program := by
  rw [isSayable_iff_texts, CanBeAsked, List.forall_mem_cons]
  simp [Command.texts, command]

/-- Starting an image whose environment consists of pairs is one call, and comes to the exit code in
the reply. -/
theorem run_called (henv : ∀ pair ∈ order.env, isPair pair = true)
    (hfound : host.engine.find? client.program = some program) (hask : order.CanBeAsked program)
    (w : World) :
    ∃ w', let call : Call := ⟨program, .run order.command, w.files⟩
      order.run client host w = (.ok (host.engine.reply w.calls call).code, w') ∧
        w.Called w' call := by
  rw [run_of_pairs henv]
  obtain ⟨w₁, hbefore, hs₁⟩ := Client.report_spoke (.plain .info "conformance.runner"
    ("running " ++ order.image ++ " " ++ joinWith " " order.args)) host w
  obtain ⟨w₂, hrun, hcalled⟩ := Client.run_called hfound (isSayable_command_iff.mpr hask) w₁
  rw [hs₁.files, hs₁.calls] at hrun
  rw [hs₁.files] at hcalled
  obtain ⟨w₃, hafter, hs₃⟩ := Client.report_spoke (.plain .info "conformance.runner"
    (order.image ++ " exited with " ++
      toString (host.engine.reply w.calls ⟨program, .run order.command, w.files⟩).code)) host w₂
  refine ⟨w₃, ?_, (hcalled.after hs₁).before hs₃⟩
  have hrun' : client.run order.command host w₁ = _ := hrun
  exact (bind_of_ok hbefore).trans ((bind_of_ok hrun').trans (bind_of_ok hafter))

/-- A command that ends with an error before anything is said ends the operation with it. -/
theorem run_of_error {e : Error} (henv : ∀ pair ∈ order.env, isPair pair = true)
    (hfails : ∀ w, ∃ w', client.run order.command host w = (.error e, w') ∧ host.Spoke w w' [])
    (w : World) : ∃ w', order.run client host w = (.error e, w') ∧ host.Spoke w w' [] := by
  rw [run_of_pairs henv]
  obtain ⟨w₁, hbefore, hs₁⟩ := Client.report_spoke (.plain .info "conformance.runner"
    ("running " ++ order.image ++ " " ++ joinWith " " order.args)) host w
  obtain ⟨w₂, hrun, hs₂⟩ := hfails w₁
  exact ⟨w₂, (bind_of_ok hbefore).trans (bind_of_error hrun), hs₁.trans hs₂⟩

/-- Nothing is said where the engine is not there. -/
theorem run_of_missing (henv : ∀ pair ∈ order.env, isPair pair = true)
    (hmissing : host.engine.find? client.program = none) (w : World) :
    ∃ w', order.run client host w = (.error (.engineNotFound client.program), w') ∧
      host.Spoke w w' [] :=
  run_of_error henv
    (fun w => ⟨w, Client.run_of_missing hmissing order.command w, .refl rfl rfl⟩) w

/-- Nothing is said where a text of the order is no word of a command line. -/
theorem run_of_not_canBeAsked (henv : ∀ pair ∈ order.env, isPair pair = true)
    (hfound : host.engine.find? client.program = some program) (hask : ¬ order.CanBeAsked program)
    (w : World) :
    ∃ w', order.run client host w = (.error (.file .nullByte), w') ∧ host.Spoke w w' [] := by
  rw [← isSayable_command_iff, Bool.not_eq_true] at hask
  exact run_of_error henv (Client.run_of_unsayable hfound hask) w

end

/-- Starting an image fails with the first entry of the environment that is no pair, if there is
one, before anything is done. Otherwise it is one call, if the engine is there and can be asked: the
call collects nothing and comes to the exit code in the reply, and its words are read as what was
asked for. If the engine is not there, or a text holds a null character, nothing is said. -/
theorem run_recoverable (order : SmokeOrder) (himage : order.image.toList.head? ≠ some '-')
    (client : Client) (host : Host) (w : World) :
    (∀ before text after, order.env = before ++ text :: after →
      (∀ pair ∈ before, '=' ∈ pair.toList) → '=' ∉ text.toList →
        order.run client host w = (.error (.notPair text), w) ∧
          (Error.notPair text).message = "expected KEY=VAL, got " ++ literal text) ∧
    ((∀ pair ∈ order.env, '=' ∈ pair.toList) →
      (∀ program, host.engine.find? client.program = some program → order.CanBeAsked program →
        ∃ command words w', let call : Call := ⟨program, .run command, w.files⟩
          order.run client host w = (.ok (host.engine.reply w.calls call).code, w') ∧
            w.Called w' call ∧ command.capture = false ∧
            call.command.argv = "run" :: words ∧ ofWords? words = some order) ∧
      (∀ program, host.engine.find? client.program = some program → ¬ order.CanBeAsked program →
        ∃ w', order.run client host w = (.error (.file .nullByte), w') ∧ host.Spoke w w' []) ∧
      (host.engine.find? client.program = none →
        ∃ w', order.run client host w = (.error (.engineNotFound client.program), w') ∧
          host.Spoke w w' [])) := by
  simp only [← isPair_iff, Bool.not_eq_true]
  refine ⟨fun before text after henv hbefore htext => ⟨run_of_notPair henv hbefore htext w, rfl⟩,
    fun henv => ⟨fun program hfound hask => ?_,
      fun program hfound hask => run_of_not_canBeAsked henv hfound hask w,
      fun hmissing => run_of_missing henv hmissing w⟩⟩
  obtain ⟨w', hrun, hcalled⟩ := run_called henv hfound hask w
  exact ⟨order.command, order.words, w', hrun, hcalled, rfl, argv_command order,
    ofWords?_words himage⟩

/-- Flags among the operands and behind the image are read as what they are. -/
theorem run_recoverable_of_flags :
    let order : SmokeOrder := ⟨"img", ["--env", "-i", ""], ["--env", "--env"], ["--rm=", "A=1"]⟩
    order.image.toList.head? ≠ some '-' ∧ (∀ pair ∈ order.env, '=' ∈ pair.toList) ∧
      order.CanBeAsked "docker" ∧
      (∃ command words w',
        order.run ⟨"docker"⟩ (.replying fun _ => .quiet 3 none) .stocked = (.ok 3, w') ∧
          World.stocked.Called w' ⟨"docker", .run command, World.stocked.files⟩ ∧
          command.argv = "run" :: words ∧ ofWords? words = some order) ∧
      SmokeOrder.run ⟨"img", [], [], ["A=1", "B", "C"]⟩ ⟨"docker"⟩
        (.replying fun _ => .quiet 3 none) .stocked = (.error (.notPair "B"), .stocked) := by
  intro order
  have himage : order.image.toList.head? ≠ some '-' := by decide
  have henv : ∀ pair ∈ order.env, '=' ∈ pair.toList := by decide
  have hask : order.CanBeAsked "docker" := by
    simp only [CanBeAsked, order]
    decide
  refine ⟨himage, henv, hask, ?_, ?_⟩
  · obtain ⟨command, words, w', hrun, hcalled, -, hargv, hread⟩ :=
      ((run_recoverable order himage ⟨"docker"⟩ (.replying fun _ => .quiet 3 none)
        .stocked).2 henv).1 "docker" rfl hask
    exact ⟨command, words, w', hrun, hcalled, hargv, hread⟩
  · exact ((run_recoverable ⟨"img", [], [], ["A=1", "B", "C"]⟩ (by decide) ⟨"docker"⟩
      (.replying fun _ => .quiet 3 none) .stocked).1 ["A=1"] "B" ["C"] rfl (by decide)
      (by decide)).1

/-- A host without an engine. -/
def deserted : Host :=
  { Host.replying fun _ => .quiet 0 none with
    engine := ⟨fun _ => none, fun _ _ => .quiet 0 none⟩ }

/-- No call is made where the engine is not there, and none for an argument that holds a null
character. -/
theorem not_called_of_missing_or_null :
    (∃ w', run ⟨"img", [], [], []⟩ ⟨"docker"⟩ deserted .stocked =
        (.error (.engineNotFound "docker"), w') ∧ deserted.Spoke .stocked w' []) ∧
      ∃ w', run ⟨"img", ["\x00"], [], []⟩ ⟨"docker"⟩ (.replying fun _ => .quiet 0 none) .stocked =
          (.error (.file .nullByte), w') ∧
        (Host.replying fun _ => .quiet 0 none).Spoke .stocked w' [] := by
  have hask : ¬ CanBeAsked ⟨"img", ["\x00"], [], []⟩ "docker" := by
    intro h
    have hword := h "\x00" (by simp)
    revert hword
    decide
  refine ⟨run_of_missing ?_ rfl .stocked, run_of_not_canBeAsked ?_ rfl hask .stocked⟩
  · exact fun pair hpair => absurd hpair List.not_mem_nil
  · exact fun pair hpair => absurd hpair List.not_mem_nil

end SmokeOrder

end TwoStage
