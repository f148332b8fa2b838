import TwoStage.Engine.Client
import TwoStage.Proofs.Act.Keeps
import TwoStage.Proofs.Bindings
import TwoStage.Proofs.Path
import TwoStage.Proofs.Text.Blank

/-!
# What is said to the engine

Each of the client's operations either ends without a call, because the program of the engine is not
there or because a word of the command holds a null character, or makes one call. What is said
between two worlds is the list of the commands in the calls that the later world has and the earlier
one has not, each with the reply that the engine gives to it.

## Main definitions

- `Talk` — commands with the replies to them
- `Host.Talked` — what was said between two worlds
- `Host.Spoke` — the same, the files being as before
- `World.Called` — one call was made between two worlds, the files being as before
- `Reply.NamesImage` — replies that name an image
- `Call.isSayable` — calls whose words a command line can hold
- `Command.texts` — what the words of a command are made of
- `Client.BuildOrder.IsCall` — the calls for an order

## Main statements

- `Host.Talked.unique` — the worlds determine what was said
- `Client.made?_isSome_iff` — a build made an image exactly when the reply names one
- `isSayable_iff_texts` — which texts of a command have to be words
- `Client.build_of_missing`, `Client.run_of_missing`, `Client.inspect_of_missing` — the operations
  without the engine
- `Client.build_called`, `Client.remove_of_found` — the operations with it
- `Client.build_called`, `Client.run_called`, `Client.inspect_called` — the calls, with the files
  that the engine sees
- `Client.run_of_unsayable`, `Client.inspect_of_unsayable` — commands that no command line holds
- `Client.build_eq_ok` — a build that comes to something was one call
-/

namespace TwoStage

/-- Commands with the replies to them, in order. -/
abbrev Talk := List (Command × Reply)

/-- What is said in some calls, after the calls `before`. -/
def Engine.talk (engine : Engine) (before : List Call) : List Call → Talk
  | [] => []
  | call :: rest =>
    (call.command, engine.reply before call) :: engine.talk (before ++ [call]) rest

/-- What was said between two worlds: the later one has the calls of the earlier one and then those
of the talk. -/
def Host.Talked (host : Host) (w w' : World) (talk : Talk) : Prop :=
  ∃ made, w'.calls = w.calls ++ made ∧ host.engine.talk w.calls made = talk

/-- What was said between two worlds that hold the same files. -/
structure Host.Spoke (host : Host) (w w' : World) (talk : Talk) : Prop where
  files : w'.files = w.files
  talked : host.Talked w w' talk

/-- One call was made between two worlds that hold the same files. -/
structure World.Called (w w' : World) (call : Call) : Prop where
  files : w'.files = w.files
  calls : w'.calls = w.calls ++ [call]

/-- A reply that names an image: the engine exits with zero, and the text that it leaves for the
identifier is not blank. -/
def Reply.NamesImage (reply : Reply) : Prop :=
  reply.code = 0 ∧ ∃ text, reply.identifier = some text ∧ ¬ Blank text

/-- Whether the words of a call can be those of a command line. -/
def Call.isSayable (call : Call) : Bool := call.command.isSayable call.program

/-- The texts that the words of a command are made of, but for those that are the same in every
command of its kind. -/
def Command.texts : Command → List String
  | build command =>
    command.target :: command.tag :: command.idFile.text :: command.file.text ::
      command.context.text :: command.arguments.flatMap fun (name, value) => [name, value]
  | run command =>
    command.image :: command.entrypoint.toList ++ command.publish ++ command.env ++ command.args
  | inspect image => [image]
  | remove image => [image]

-- ════════════════════════════════════════════════════════════════════════
-- Words of command lines
-- ════════════════════════════════════════════════════════════════════════

theorem isWord_iff {text : String} : isWord text = true ↔ '\x00' ∉ text.toList := by
  simp [isWord]

@[simp]
theorem isWord_append {one other : String} :
    isWord (one ++ other) = (isWord one && isWord other) := by
  simp [isWord]

/-- The path of a location is a word if all names on the way are. -/
theorem isWord_ofLocation_iff {loc : Location} :
    isWord (Path.ofLocation loc).text = true ↔ ∀ name ∈ loc, isWord name = true := by
  simp only [isWord_iff]
  constructor
  · intro htext name hname hnull
    exact htext (Path.mem_text_of_holds ⟨name, hname, hnull⟩)
  · intro hnames hnull
    rcases Path.mem_text hnull with hslash | hdot | ⟨name, hname, hheld⟩
    · exact absurd hslash (by decide)
    · exact absurd hdot (by decide)
    · exact hnames name hname hheld

/-- The texts behind a flag are words if the flag is one and all of them are. -/
theorem forall_mem_flagged {flag : String} (hflag : isWord flag = true) {texts : List String} :
    (∀ word ∈ flagged flag texts, isWord word = true) ↔ ∀ text ∈ texts, isWord text = true := by
  simp only [flagged, List.forall_mem_flatMap, List.forall_mem_cons, hflag, true_and,
    List.not_mem_nil, false_imp_iff, implies_true, and_true]

/-- The words of a build are those that are the same in every build, and its texts. -/
theorem forall_argv_build_iff {command : BuildCommand} :
    (∀ word ∈ command.argv, isWord word = true) ↔
      ∀ text ∈ (Command.build command).texts, isWord text = true := by
  have hcache : ∀ word ∈ if command.noCache then ["--no-cache"] else [], isWord word = true := by
    cases command.noCache <;> decide
  have harguments : (∀ word ∈ flagged "--build-arg"
        (command.arguments.sorted.map fun (name, value) =>
          name ++ "=" ++ value), isWord word = true) ↔
      ∀ text ∈ command.arguments.flatMap fun (name, value) => [name, value],
        isWord text = true := by
    have hequals : isWord "=" = true := rfl
    rw [forall_mem_flagged rfl]
    simp only [List.forall_mem_map, Bindings.mem_sorted,
      List.forall_mem_flatMap, List.forall_mem_cons, isWord_append, hequals, Bool.and_eq_true,
      and_true, List.not_mem_nil, false_imp_iff, implies_true]
  have hflags : isWord "build" = true ∧ isWord "--progress=plain" = true ∧
      isWord "--target" = true ∧ isWord "--tag" = true ∧ isWord "--iidfile" = true ∧
      isWord "--file" = true := by decide
  rw [BuildCommand.argv, Command.texts, List.forall_mem_append, List.forall_mem_append,
    List.forall_mem_append, harguments]
  simp only [List.forall_mem_cons, List.not_mem_nil, false_imp_iff, implies_true, hflags, true_and,
    and_true, iff_true_intro hcache, and_assoc]
  exact and_congr_right' (and_congr_right' (and_congr_right' (and_congr_right' and_comm)))

/-- The words of a run are those that are the same in every run, and its texts. -/
theorem forall_argv_run_iff {command : RunCommand} :
    (∀ word ∈ command.argv, isWord word = true) ↔
      ∀ text ∈ (Command.run command).texts, isWord text = true := by
  have hcapture : ∀ word ∈ if command.capture then [] else ["-i"], isWord word = true := by
    cases command.capture <;> decide
  have hflags : isWord "run" = true ∧ isWord "--rm" = true ∧ isWord "--entrypoint" = true := by
    decide
  rw [RunCommand.argv, Command.texts, List.forall_mem_append, List.forall_mem_append,
    List.forall_mem_append, List.forall_mem_append, List.forall_mem_append,
    forall_mem_flagged rfl, forall_mem_flagged rfl]
  cases command.entrypoint <;>
    · simp only [Option.toList_none, Option.toList_some, List.forall_mem_append,
        List.forall_mem_cons, List.not_mem_nil, false_imp_iff, implies_true, hflags, true_and,
        and_true, iff_true_intro hcapture, and_assoc]
      tauto

/-- A command can be said exactly if the program and the texts in it are words. -/
theorem isSayable_iff_texts {program : String} {command : Command} :
    command.isSayable program = true ↔
      isWord program = true ∧ ∀ text ∈ command.texts, isWord text = true := by
  rw [Command.isSayable, List.all_cons, Bool.and_eq_true, List.all_eq_true]
  refine and_congr_right' ?_
  cases command with
  | build command => exact forall_argv_build_iff
  | run command => exact forall_argv_run_iff
  | inspect image => simp [Command.argv, Command.texts, isWord]
  | remove image => simp [Command.argv, Command.texts, isWord]

-- ════════════════════════════════════════════════════════════════════════
-- Talks
-- ════════════════════════════════════════════════════════════════════════

theorem Engine.talk_append (engine : Engine) (before made more : List Call) :
    engine.talk before (made ++ more) =
      engine.talk before made ++ engine.talk (before ++ made) more := by
  induction made generalizing before with
  | nil => simp [talk]
  | cons call rest ih =>
    rw [List.cons_append, talk, talk, ih, List.cons_append, List.append_assoc,
      List.singleton_append]

theorem Engine.map_fst_talk (engine : Engine) (before made : List Call) :
    (engine.talk before made).map Prod.fst = made.map Call.command := by
  induction made generalizing before with
  | nil => rfl
  | cons call rest ih => rw [talk, List.map_cons, List.map_cons, ih]

namespace Host

variable {host : Host} {w w' w'' : World} {talk more : Talk}

theorem Talked.of_calls_eq (h : w'.calls = w.calls) : host.Talked w w' [] :=
  ⟨[], by rw [h, List.append_nil], rfl⟩

theorem Talked.trans (h : host.Talked w w' talk) (h' : host.Talked w' w'' more) :
    host.Talked w w'' (talk ++ more) := by
  obtain ⟨made, hcalls, rfl⟩ := h
  obtain ⟨next, hcalls', rfl⟩ := h'
  refine ⟨made ++ next, by rw [hcalls', hcalls, List.append_assoc], ?_⟩
  rw [Engine.talk_append, ← hcalls]

/-- The worlds determine what was said between them. -/
theorem Talked.unique (h : host.Talked w w' talk) (h' : host.Talked w w' more) : talk = more := by
  obtain ⟨made, hcalls, rfl⟩ := h
  obtain ⟨next, hcalls', rfl⟩ := h'
  have hmade : made = next := List.append_cancel_left (hcalls.symm.trans hcalls')
  rw [hmade]

theorem Talked.calls_eq_iff (h : host.Talked w w' talk) : w'.calls = w.calls ↔ talk = [] := by
  constructor
  · exact fun heq => h.unique (.of_calls_eq heq)
  · intro hnil
    obtain ⟨made, hcalls, htalk⟩ := h
    cases made with
    | nil => rw [hcalls, List.append_nil]
    | cons call rest => simp [Engine.talk, hnil] at htalk

/-- No call is taken back. -/
theorem Talked.grows (h : host.Talked w w' talk) : w.calls <+: w'.calls := by
  obtain ⟨made, hcalls, -⟩ := h
  exact ⟨made, hcalls.symm⟩

theorem Spoke.refl (h : w'.files = w.files) (hc : w'.calls = w.calls) : host.Spoke w w' [] :=
  ⟨h, .of_calls_eq hc⟩

theorem Spoke.trans (h : host.Spoke w w' talk) (h' : host.Spoke w' w'' more) :
    host.Spoke w w'' (talk ++ more) :=
  ⟨h'.files.trans h.files, h.talked.trans h'.talked⟩

theorem Spoke.calls (h : host.Spoke w w' []) : w'.calls = w.calls :=
  h.talked.calls_eq_iff.mpr rfl

end Host

section

variable {host : Host} {w w' w'' : World} {call : Call}

theorem World.Called.spoke (h : w.Called w' call) (host : Host) :
    host.Spoke w w' [(call.command, host.engine.reply w.calls call)] :=
  ⟨h.files, [call], h.calls, rfl⟩

/-- What is done without a word before a call does not count. -/
theorem World.Called.after (h : w'.Called w'' call) (hspoke : host.Spoke w w' []) :
    w.Called w'' call :=
  ⟨h.files.trans hspoke.files, by rw [h.calls, hspoke.calls]⟩

/-- What is done without a word behind a call does not count. -/
theorem World.Called.before (h : w.Called w' call) (hspoke : host.Spoke w' w'' []) :
    w.Called w'' call :=
  ⟨hspoke.files.trans h.files, by rw [hspoke.calls, h.calls]⟩

end

-- ════════════════════════════════════════════════════════════════════════
-- Replies
-- ════════════════════════════════════════════════════════════════════════

/-- What a build came to, read off the reply. -/
def BuildOutcome.ofReply (reply : Reply) : BuildOutcome :=
  ⟨reply.code, reply.out, Client.identifier? reply⟩

/-- A build made an image exactly when the reply names one. -/
theorem BuildOutcome.made?_isSome_iff (reply : Reply) :
    (ofReply reply).made?.isSome = true ↔ reply.NamesImage := by
  rw [Reply.NamesImage, made?, ofReply, Client.identifier?, Client.nonEmpty?]
  by_cases hcode : reply.code = 0
  · simp only [hcode, if_true, true_and]
    cases reply.identifier with
    | none => simp
    | some text =>
      have hblank : (strip (unifyNewlines text)).isEmpty = true ↔ Blank text := by
        rw [String.isEmpty_iff, strip_eq_empty_iff, blank_unifyNewlines_iff]
      by_cases hb : Blank text
      · simp [hb, hblank.mpr hb]
      · have hfull : (strip (unifyNewlines text)).isEmpty = false := by
          rw [Bool.eq_false_iff]
          exact fun he => hb (hblank.mp he)
        simp [hb, hfull]
  · simp [hcode]

theorem BuildOutcome.namesImage_of_made? {reply : Reply} {id : String}
    (h : (ofReply reply).made? = some id) : reply.NamesImage :=
  (made?_isSome_iff reply).mp (by rw [h]; rfl)

/-- The identifier of an image is the text that the engine leaves for it, without the blanks around
it. -/
theorem BuildOutcome.identifier_of_made? {reply : Reply} {id : String}
    (h : (ofReply reply).made? = some id) :
    ∃ text, reply.identifier = some text ∧ id = strip (unifyNewlines text) := by
  rw [made?, ofReply, Client.identifier?, Client.nonEmpty?] at h
  by_cases hcode : reply.code = 0
  · rw [if_pos hcode, if_pos hcode] at h
    have htext := (Option.filter_eq_some_iff.mp (Option.filter_eq_some_iff.mp h).1).1
    obtain ⟨text, hsome, rfl⟩ := Option.map_eq_some_iff.mp htext
    exact ⟨text, hsome, rfl⟩
  · rw [if_neg hcode] at h
    cases h

theorem BuildOutcome.not_namesImage_of_made? {reply : Reply}
    (h : (ofReply reply).made? = none) : ¬ reply.NamesImage := by
  intro hnames
  have hsome := (made?_isSome_iff reply).mpr hnames
  rw [h] at hsome
  cases hsome

-- ════════════════════════════════════════════════════════════════════════
-- The operations of the client
-- ════════════════════════════════════════════════════════════════════════

namespace Client

variable {client : Client} {host : Host} {program : String}

/-- The command for an order. -/
def BuildOrder.command (order : BuildOrder) (context idFile : Path) : BuildCommand :=
  { target := order.target, tag := order.tag, context, dockerfile := .ofText order.dockerfile
    noCache := order.noCache, arguments := order.arguments, idFile }

theorem locate_of_missing (h : host.engine.find? client.program = none) (w : World) :
    client.locate host w = (.error (.engineNotFound client.program), w) := by
  simp only [locate, h]

theorem locate_of_found (h : host.engine.find? client.program = some program) (w : World) :
    client.locate host w = (.ok program, w) := by
  simp only [locate, h]

theorem report_spoke (record : LogRecord) (host : Host) (w : World) :
    ∃ w', Act.report record host w = (.ok (), w') ∧ host.Spoke w w' [] := by
  obtain ⟨records, hr⟩ := Act.report_apply record host w
  exact ⟨_, hr, .refl rfl rfl⟩

theorem call_called {program : String} {command : Command}
    (h : command.isSayable program = true) (host : Host) (w : World) :
    ∃ w', Act.call program command host w =
        (.ok (host.engine.reply w.calls ⟨program, command, w.files⟩), w') ∧
      w.Called w' ⟨program, command, w.files⟩ := by
  refine ⟨{ w with calls := w.calls ++ [⟨program, command, w.files⟩] }, ?_, rfl, rfl⟩
  rw [Act.call, if_pos h]

theorem call_of_unsayable {program : String} {command : Command}
    (h : command.isSayable program = false) (host : Host) (w : World) :
    Act.call program command host w = (.error (.file .nullByte), w) := by
  rw [Act.call, h, if_neg Bool.false_ne_true]

theorem reportLines_spoke (host : Host) (stage : String) (lines : List String) (w : World) :
    ∃ w', reportLines stage lines host w = (.ok (), w') ∧ host.Spoke w w' [] := by
  induction lines generalizing w with
  | nil => exact ⟨w, rfl, .refl rfl rfl⟩
  | cons line rest ih =>
    obtain ⟨w₁, hfirst, hs⟩ :=
      report_spoke { LogRecord.plain .debug "package.docker" line with stage } host w
    obtain ⟨w₂, hrest, hs'⟩ := ih w₁
    refine ⟨w₂, ?_, hs.trans hs'⟩
    rw [reportLines, Act.bind_apply, hfirst]
    exact hrest

/-- Nothing is left of a build where the engine is not there. -/
theorem build_of_missing (h : host.engine.find? client.program = none) (context : Path)
    (order : BuildOrder) (w : World) :
    ∃ w', client.build context order host w = (.error (.engineNotFound client.program), w') ∧
      host.Spoke w w' [] := by
  rw [build]
  obtain ⟨n, hfree, happly⟩ := Act.inScratch_apply "lspib-iid-" _ host w
  rw [happly]
  simp only [Act.bind_apply, locate_of_missing h]
  exact ⟨_, rfl, .refl (FileTree.removeBelow_put_of_isFree _ hfree) rfl⟩

/-- Where the engine leaves the identifier of an image, in the scratch directory of that number. -/
def idFile (host : Host) (n : Nat) : Path :=
  (Path.ofLocation (Act.scratchPlace host "lspib-iid-" n)).child "iid"

/-- A call for a build: its command is that of the order, and the engine sees the files as they are
and an empty directory in which it leaves the identifier of the image. -/
structure BuildOrder.IsCall (order : BuildOrder) (host : Host) (context : Path) (t : FileTree)
    (call : Call) : Prop where
  command : ∃ n, call.command = .build (order.command context (idFile host n))
  files : ∃ n, t.isFree (Act.scratchPlace host "lspib-iid-" n) = true ∧
    call.files = t.put (Act.scratchPlace host "lspib-iid-" n) .directory

/-- A build is one call, or none if its words cannot be said. -/
theorem build_called (h : host.engine.find? client.program = some program) (context : Path)
    (order : BuildOrder) (w : World) :
    ∃ call, order.IsCall host context w.files call ∧ call.program = program ∧
      (call.isSayable = true → ∃ w', client.build context order host w =
          (.ok (.ofReply (host.engine.reply w.calls call)), w') ∧ w.Called w' call) ∧
      (call.isSayable = false → ∃ w', client.build context order host w =
          (.error (.file .nullByte), w') ∧ host.Spoke w w' []) := by
  rw [build]
  obtain ⟨n, hfree, happly⟩ := Act.inScratch_apply "lspib-iid-" _ host w
  rw [happly]
  have hfiles : ∃ m, w.files.isFree (Act.scratchPlace host "lspib-iid-" m) = true ∧
      w.files.put (Act.scratchPlace host "lspib-iid-" n) .directory =
        w.files.put (Act.scratchPlace host "lspib-iid-" m) .directory := ⟨n, hfree, rfl⟩
  have hcommand : ∃ m, Command.build (order.command context
      ((Path.ofLocation (Act.scratchPlace host "lspib-iid-" n)).child "iid")) =
        .build (order.command context (idFile host m)) := ⟨n, rfl⟩
  generalize Act.scratchPlace host "lspib-iid-" n = loc at hfree hfiles hcommand
  let call : Call :=
    ⟨program, .build (order.command context ((Path.ofLocation loc).child "iid")),
      w.files.put loc .directory⟩
  obtain ⟨w₁, hlog, hs₁⟩ := report_spoke (.plain .info "package.docker"
      ("docker build --target " ++ order.target ++ " --tag " ++ order.tag)) host
    { w with files := w.files.put loc .directory, scratchCount := n + 1 }
  refine ⟨call, ⟨hcommand, hfiles⟩, rfl, fun hsay => ?_, fun hsay => ?_⟩
  · obtain ⟨w₂, hcall, hc₂⟩ :=
      call_called (show call.command.isSayable program = true from hsay) host w₁
    rw [hs₁.files, hs₁.calls] at hcall
    rw [hs₁.files] at hc₂
    obtain ⟨w₃, hlines, hs₃⟩ := reportLines_spoke host order.target
      (splitLines (host.engine.reply w.calls call).out) w₂
    have hcalled := (hc₂.after hs₁).before hs₃
    have hback : w₃.files.removeBelow loc = w.files := by
      rw [hcalled.files]
      exact FileTree.removeBelow_put_of_isFree _ hfree
    refine ⟨{ w₃ with files := w₃.files.removeBelow loc }, ?_, hback, hcalled.calls⟩
    simp only [call, BuildOrder.command] at hcall hlines ⊢
    simp only [Act.bind_apply, locate_of_found h, log, hlog, hcall, hlines]
    rfl
  · have hcall := call_of_unsayable (show call.command.isSayable program = false from hsay) host w₁
    have hback : w₁.files.removeBelow loc = w.files := by
      rw [hs₁.files]
      exact FileTree.removeBelow_put_of_isFree _ hfree
    refine ⟨{ w₁ with files := w₁.files.removeBelow loc }, ?_, .refl hback hs₁.calls⟩
    simp only [call, BuildOrder.command] at hcall
    simp only [Act.bind_apply, locate_of_found h, log, hlog, hcall]

/-- A build that comes to something was one call. -/
theorem build_eq_ok {context : Path} {order : BuildOrder} {outcome : BuildOutcome}
    {w w' : World} (h : client.build context order host w = (.ok outcome, w')) :
    ∃ program call, host.engine.find? client.program = some program ∧ call.program = program ∧
      call.isSayable = true ∧ order.IsCall host context w.files call ∧
      outcome = .ofReply (host.engine.reply w.calls call) ∧ w.Called w' call := by
  cases hfind : host.engine.find? client.program with
  | none =>
    obtain ⟨w₁, hbuild, -⟩ := build_of_missing hfind context order w
    cases h.symm.trans hbuild
  | some program =>
    obtain ⟨call, hcall, hprogram, hsaid, hunsaid⟩ := build_called hfind context order w
    cases hsay : call.isSayable with
    | true =>
      obtain ⟨w₁, hbuild, hcalled⟩ := hsaid hsay
      cases h.symm.trans hbuild
      exact ⟨program, call, rfl, hprogram, hsay, hcall, rfl, hcalled⟩
    | false =>
      obtain ⟨w₁, hbuild, -⟩ := hunsaid hsay
      cases h.symm.trans hbuild

/-- Nothing is run where the engine is not there. -/
theorem run_of_missing (h : host.engine.find? client.program = none) (command : RunCommand)
    (w : World) : client.run command host w = (.error (.engineNotFound client.program), w) :=
  Act.bind_of_error (locate_of_missing h w)

/-- A run is one call. -/
theorem run_called (h : host.engine.find? client.program = some program) {command : RunCommand}
    (hsay : (Command.run command).isSayable program = true) (w : World) :
    ∃ w', let call : Call := ⟨program, .run command, w.files⟩
      let reply := host.engine.reply w.calls call
      client.run command host w =
          (.ok (if command.capture then ⟨reply.code, some reply.out, some reply.err⟩
            else ⟨reply.code, none, none⟩), w') ∧
        w.Called w' call := by
  obtain ⟨w₁, hlog, hs₁⟩ := report_spoke
    (.plain .debug "package.docker" ("docker " ++ joinWith " " command.argv)) host w
  obtain ⟨w₂, hcall, hc₂⟩ := call_called hsay host w₁
  rw [hs₁.files, hs₁.calls] at hcall
  rw [hs₁.files] at hc₂
  refine ⟨w₂, ?_, hc₂.after hs₁⟩
  rw [run]
  simp only [Act.bind_apply, locate_of_found h, log, hlog, hcall]
  rfl

/-- Nothing is run whose words cannot be said. -/
theorem run_of_unsayable (h : host.engine.find? client.program = some program)
    {command : RunCommand} (hsay : (Command.run command).isSayable program = false) (w : World) :
    ∃ w', client.run command host w = (.error (.file .nullByte), w') ∧ host.Spoke w w' [] := by
  obtain ⟨w₁, hlog, hs₁⟩ := report_spoke
    (.plain .debug "package.docker" ("docker " ++ joinWith " " command.argv)) host w
  refine ⟨w₁, ?_, hs₁⟩
  exact (Act.bind_of_ok (locate_of_found h w)).trans
    ((Act.bind_of_ok hlog).trans (Act.bind_of_error (call_of_unsayable hsay host w₁)))

/-- Nothing is inspected where the engine is not there. -/
theorem inspect_of_missing (h : host.engine.find? client.program = none) (image : String)
    (w : World) : client.inspect image host w = (.error (.engineNotFound client.program), w) :=
  Act.bind_of_error (locate_of_missing h w)

/-- An inspection is one call. It comes to an error where the engine exits with anything but zero,
and else to the first item of what the engine tells. -/
theorem inspect_called (h : host.engine.find? client.program = some program) {image : String}
    (hsay : (Command.inspect image).isSayable program = true) (w : World) :
    ∃ w', let call : Call := ⟨program, .inspect image, w.files⟩
      let reply := host.engine.reply w.calls call
      client.inspect image host w =
          (if reply.code ≠ 0 then .error (.imageNotFound image (strip reply.err))
            else ((Json.read reply.out).mapError .notJson).bind fun value =>
              (firstItem value).mapError .shape, w') ∧
        w.Called w' call := by
  obtain ⟨w₁, hcall, hc₁⟩ := call_called hsay host w
  refine ⟨w₁, ?_, hc₁⟩
  generalize host.engine.reply w.calls ⟨program, .inspect image, w.files⟩ = reply at hcall ⊢
  rw [inspect]
  simp only [Act.bind_apply, locate_of_found h, hcall]
  by_cases hcode : reply.code = 0
  · rw [if_neg (not_not_intro hcode), if_neg (not_not_intro hcode), Act.bind_apply]
    cases (Json.read reply.out).mapError Error.notJson <;> rfl
  · rw [if_pos hcode, if_pos hcode]
    rfl

/-- Nothing is inspected whose name cannot be said. -/
theorem inspect_of_unsayable (h : host.engine.find? client.program = some program) {image : String}
    (hsay : (Command.inspect image).isSayable program = false) (w : World) :
    client.inspect image host w = (.error (.file .nullByte), w) :=
  (Act.bind_of_ok (locate_of_found h w)).trans (Act.bind_of_error (call_of_unsayable hsay host w))

/-- A removal is one call, and what comes back is no error. -/
theorem remove_of_found (h : host.engine.find? client.program = some program) {image : String}
    (hsay : (Command.remove image).isSayable program = true) (w : World) :
    ∃ reply w', client.remove image host w = (.ok (), w') ∧
      host.Spoke w w' [(.remove image, reply)] := by
  obtain ⟨w₁, hcall, hc₁⟩ := call_called hsay host w
  have hs₁ := hc₁.spoke host
  generalize host.engine.reply w.calls ⟨program, .remove image, w.files⟩ = reply at hcall hs₁
  rw [remove]
  by_cases hcode : reply.code = 0
  · refine ⟨reply, w₁, ?_, hs₁⟩
    simp only [Act.bind_apply, locate_of_found h, hcall, hcode, ne_eq, not_true_eq_false, if_false]
    rfl
  · obtain ⟨w₂, hlog, hs₂⟩ := report_spoke (.plain .warning "package.docker"
      ("could not remove " ++ image ++ ": " ++ strip reply.err)) host w₁
    refine ⟨reply, w₂, ?_, hs₁.trans hs₂⟩
    simp only [Act.bind_apply, locate_of_found h, hcall, log, if_pos hcode, ne_eq]
    exact hlog

end Client

end TwoStage
