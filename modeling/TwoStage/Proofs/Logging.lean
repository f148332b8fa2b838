import TwoStage.Logging
import TwoStage.Proofs.Json.Roundtrip

/-!
# One line for each record

However often loggers are asked for and levels are set, the program's own logger has one handler,
and the level that was set last. So a record from a logger under it is written as one line, or as
none if its level does not count, and the line tells the record. Which loggers belong to the program
does not depend on the other ones, but for names in which two dots follow that of the program's own
one.

## Main definitions

- `LogRecord.says?`, `LogRecord.Tells` — what a record says, and a line that tells it
- `Logging.Under` — the names under the program's own one
- `Logging.ReportsEach` — a logger of which each record that counts is told in one line

## Main statements

- `LogRecord.tells_line` — the line of a record tells it
- `Logging.ready_run` — the state after any requests
- `Logging.isOwnLogger_of_under`, `Logging.not_isOwnLogger_doubled` — loggers with one dot, and with
  more, behind the name of the program's own one
- `Logging.reportsEach_iff` — the loggers whose records are told
-/

namespace TwoStage

-- ════════════════════════════════════════════════════════════════════════
-- Lines
-- ════════════════════════════════════════════════════════════════════════

namespace LogRecord

/-- What a record made at `time` says under a name, if anything. -/
def says? (time : String) (record : LogRecord) : String → Option String
  | "ts" => some time
  | "level" => some record.level.name
  | "name" => some record.logger
  | "msg" => some record.message
  | "stage" => if record.stage = "" then none else some record.stage
  | "exc_info" => record.exception
  | _ => none

/-- A line tells a record: it holds no control character, and is read as an object with exactly what
the record says, each text once. -/
structure Tells (time : String) (record : LogRecord) (line : String) : Prop where
  space_le : ∀ c ∈ line.toList, 0x20 ≤ c.toNat
  read : ∃ members : Bindings String, Json.read line = .ok (.ofBindings members) ∧
    (members.map Prod.fst).Nodup ∧ ∀ name, members.lookup name = record.says? time name

/-- The members of a record, in order. -/
def members (time : String) (record : LogRecord) : Bindings String :=
  [("ts", time), ("level", record.level.name), ("name", record.logger), ("msg", record.message)] ++
    (if record.stage.isEmpty then [] else [("stage", record.stage)]) ++
    record.exception.toList.map fun text => ("exc_info", text)

variable (time : String) (record : LogRecord)

theorem toJson_eq : record.toJson time = .ofBindings (record.members time) := by
  obtain ⟨level, logger, message, stage, exception⟩ := record
  by_cases hstage : stage.isEmpty = true <;> cases exception <;>
    simp [toJson, Json.ofBindings, members, hstage]

theorem nodup_members : ((record.members time).map Prod.fst).Nodup := by
  obtain ⟨level, logger, message, stage, exception⟩ := record
  by_cases hstage : stage.isEmpty = true <;> cases exception <;> simp [members, hstage]

theorem lookup_members (name : String) :
    (record.members time).lookup name = record.says? time name := by
  obtain ⟨level, logger, message, stage, exception⟩ := record
  unfold says?
  split <;> by_cases hstage : stage = "" <;> cases exception <;>
    simp_all [members, Bindings.lookup_cons]

/-- The line of a record tells it. -/
theorem tells_line : record.Tells time (record.line time) := by
  have hexact : Json.Exact (record.toJson time) := by
    rw [toJson_eq]
    exact Json.exact_ofBindings (record.nodup_members time)
  refine ⟨fun c hc => hexact.space_le_of_mem_compact hc, record.members time, ?_,
    record.nodup_members time, record.lookup_members time⟩
  rw [line, hexact.read_compact, toJson_eq]

end LogRecord

namespace Logging

-- ════════════════════════════════════════════════════════════════════════
-- The state
-- ════════════════════════════════════════════════════════════════════════

/-- The program's own logger is set up: it has one handler and the level of a verbosity. -/
structure Ready (state : Logging) (verbose : Bool) : Prop where
  handlers : state.handlers = 1
  least : state.least = some (.threshold verbose)

/-- The verbosity that a request sets, if it sets one. -/
def Request.verbosity? : Request → Option Bool
  | .logger _ => none
  | .verbosity verbose => some verbose

/-- The verbosity that was set last. Before it is set, the details are left out. -/
def lastVerbosity (requests : List Request) : Bool :=
  (requests.filterMap Request.verbosity?).getLast?.getD false

theorem Ready.perform {state : Logging} {verbose : Bool} (h : state.Ready verbose)
    (request : Request) :
    (state.perform request).Ready (request.verbosity?.getD verbose) := by
  have hnot : state.handlers ≠ 0 := by rw [h.handlers]; decide
  cases request with
  | logger name =>
    rw [Logging.perform, withLogger]
    dsimp only
    rw [if_neg hnot]
    exact ⟨h.handlers, h.least⟩
  | verbosity verbose =>
    rw [Logging.perform, withVerbosity, withLogger]
    dsimp only
    rw [if_neg hnot]
    exact ⟨h.handlers, rfl⟩

/-- The first request sets up the program's own logger. -/
theorem ready_initial (request : Request) :
    (initial.perform request).Ready (request.verbosity?.getD false) := by
  cases request with
  | logger name => exact ⟨rfl, rfl⟩
  | verbosity verbose => exact ⟨rfl, rfl⟩

/-- A first request counts as what was set before the others. -/
theorem getLast?_verbosity_cons (request : Request) (rest : List Request) (verbose : Bool) :
    ((request :: rest).filterMap Request.verbosity?).getLast?.getD verbose =
      (rest.filterMap Request.verbosity?).getLast?.getD (request.verbosity?.getD verbose) := by
  rw [List.filterMap_cons]
  cases request.verbosity? with
  | none => rfl
  | some chosen =>
    rw [List.getLast?_cons]
    rfl

/-- No later request adds a handler, and the level is that of the last one that sets it. -/
theorem Ready.foldl {state : Logging} {verbose : Bool} (h : state.Ready verbose)
    (requests : List Request) :
    (requests.foldl Logging.perform state).Ready
      ((requests.filterMap Request.verbosity?).getLast?.getD verbose) := by
  induction requests generalizing state verbose with
  | nil => exact h
  | cons request rest ih =>
    rw [List.foldl_cons, getLast?_verbosity_cons]
    exact ih (h.perform request)

/-- After any requests the program's own logger has one handler, and the level that was set last. -/
theorem ready_run {requests : List Request} (h : requests ≠ []) :
    (run requests).Ready (lastVerbosity requests) := by
  cases requests with
  | nil => exact absurd rfl h
  | cons request rest =>
    rw [run, List.foldl_cons, lastVerbosity, getLast?_verbosity_cons]
    exact (ready_initial request).foldl rest

-- ════════════════════════════════════════════════════════════════════════
-- Loggers under the program's own one
-- ════════════════════════════════════════════════════════════════════════

/-- The names that stand under the name of the program's own logger: this one, and those in which a
dot follows it. -/
def Under (name : String) : Prop :=
  name = rootLogger ∨ (rootLogger ++ ".").toList <+: name.toList

/-- The names in which two dots follow that of the program's own logger. -/
def Doubled (name : String) : Prop := (rootLogger ++ "..").toList <+: name.toList

instance : DecidablePred Under := fun name =>
  inferInstanceAs (Decidable (name = rootLogger ∨ (rootLogger ++ ".").toList <+: name.toList))

instance : DecidablePred Doubled := fun name =>
  inferInstanceAs (Decidable ((rootLogger ++ "..").toList <+: name.toList))

theorem length_forwards (reversed : List Char) : (forwards reversed).length = reversed.length := by
  simp [forwards]

section

variable {loggers : List String} {part below : List Char}

theorem passesUp_cons_of_ne {c : Char} (hc : c ≠ '.') (rest : List Char) :
    passesUp loggers (c :: rest) = passesUp loggers rest := by
  rw [passesUp]
  exact fun _ _ heq => absurd heq hc

/-- A dot that no logger is named before counts for nothing. -/
theorem passesUp_dot {c : Char} {rest : List Char}
    (h : forwards (c :: rest) ∉ rootLogger :: loggers) :
    passesUp loggers ('.' :: c :: rest) = passesUp loggers rest := by
  rw [List.mem_cons, not_or] at h
  rw [passesUp, if_neg h.1, if_neg h.2]

theorem getLast?_of_cons {c d : Char} {more : List Char} (h : (c :: more).getLast? ≠ some d) :
    more.getLast? ≠ some d := by
  intro hlast
  rw [List.getLast?_cons, hlast] at h
  exact h rfl

/-- What is behind one dot is cut away dot by dot, until that dot is reached. -/
theorem passesUp_append (hpart : part.getLast? ≠ some '.') :
    passesUp loggers (part ++ '.' :: rootLogger.toList.reverse) = true := by
  generalize hcs : part ++ '.' :: rootLogger.toList.reverse = cs
  fun_induction passesUp loggers cs generalizing part with
  | case1 => simp at hcs
  | case2 => rfl
  | case3 c rest hne hmem ih =>
    cases part with
    | nil =>
      obtain ⟨-, hroot⟩ := List.cons.inj hcs
      exact absurd (by simp [forwards, ← hroot]) hne
    | cons first more =>
      obtain ⟨rfl, hmore⟩ := List.cons.inj hcs
      exact ih (getLast?_of_cons hpart) hmore
  | case4 c rest hne hnot ih =>
    cases part with
    | nil =>
      obtain ⟨-, hroot⟩ := List.cons.inj hcs
      exact absurd (by simp [forwards, ← hroot]) hne
    | cons first more =>
      obtain ⟨rfl, hmore⟩ := List.cons.inj hcs
      cases more with
      | nil => exact absurd rfl hpart
      | cons next more =>
        exact ih (getLast?_of_cons (getLast?_of_cons hpart)) (List.cons.inj hmore).2
  | case5 first rest hother ih =>
    cases part with
    | nil =>
      obtain ⟨rfl, hroot⟩ := List.cons.inj hcs
      exact (hother _ _ rfl hroot.symm).elim
    | cons first more => exact ih (getLast?_of_cons hpart) (List.cons.inj hcs).2

/-- A part of a name in which no logger is named is cut away without effect. -/
theorem passesUp_skip : ∀ {part : List Char}, part.getLast? ≠ some '.' →
    (∀ logger ∈ rootLogger :: loggers,
      logger.length ≤ below.length ∨ part.length + below.length ≤ logger.length) →
    passesUp loggers (part ++ below) = passesUp loggers below
  | [], _, _ => rfl
  | [c], hpart, _ => passesUp_cons_of_ne (fun hc => hpart (hc ▸ rfl)) below
  | c :: next :: more, hpart, hloggers => by
    have hlast := getLast?_of_cons hpart
    by_cases hc : c = '.'
    · subst hc
      have hnot : forwards (next :: (more ++ below)) ∉ rootLogger :: loggers := by
        intro hmem
        have hlength := hloggers _ hmem
        simp only [length_forwards, List.length_cons, List.length_append] at hlength
        omega
      have hmore := getLast?_of_cons hlast
      refine (passesUp_dot hnot).trans (passesUp_skip hmore fun logger hmem => ?_)
      have hlength := hloggers logger hmem
      simp only [List.length_cons] at hlength
      omega
    · refine (passesUp_cons_of_ne hc _).trans (passesUp_skip hlast fun logger hmem => ?_)
      have hlength := hloggers logger hmem
      simp only [List.length_cons] at hlength ⊢
      omega

/-- Of an even number of dots none is next to the name of the program's own logger. -/
theorem passesUp_dots (count : Nat)
    (hloggers : ∀ logger ∈ rootLogger :: loggers,
      logger.length ≤ rootLogger.length ∨ rootLogger.length + 2 * count ≤ logger.length) :
    passesUp loggers (List.replicate (2 * count) '.' ++ rootLogger.toList.reverse) = false := by
  induction count with
  | zero => rfl
  | succ count ih =>
    have hnot : forwards ('.' :: (List.replicate (2 * count) '.' ++ rootLogger.toList.reverse)) ∉
        rootLogger :: loggers := by
      intro hmem
      have hlength := hloggers _ hmem
      simp only [length_forwards, List.length_cons, List.length_append, List.length_replicate,
        List.length_reverse, String.length_toList] at hlength
      omega
    refine (passesUp_dot hnot).trans (ih fun logger hmem => ?_)
    have hlength := hloggers logger hmem
    omega

end

/-- A logger with just one dot behind the name of the program's own one belongs to the program,
whichever other loggers there are. -/
theorem isOwnLogger_of_under {name : String} (hunder : Under name) (hsingle : ¬ Doubled name)
    (loggers : List String) : isOwnLogger loggers name = true := by
  rw [isOwnLogger, Bool.or_eq_true, decide_eq_true_eq]
  rcases hunder with hroot | ⟨rest, hname⟩
  · exact Or.inl hroot
  · have hrest : rest.reverse.getLast? ≠ some '.' := by
      rw [List.getLast?_reverse]
      intro hdot
      obtain ⟨more, hmore⟩ := List.head?_eq_some_iff.mp hdot
      refine hsingle ⟨more, ?_⟩
      rw [← hname, hmore]
      simp
    have hreversed : name.toList.reverse = rest.reverse ++ '.' :: rootLogger.toList.reverse := by
      rw [← hname]
      simp
    rw [hreversed]
    exact Or.inr (passesUp_append hrest)

/-- A name is that of the program's own logger with dots behind it. -/
def dotted (count : Nat) : String := rootLogger ++ String.ofList (List.replicate count '.')

theorem length_dotted (count : Nat) : (dotted count).length = rootLogger.length + count := by
  simp [dotted]

theorem forwards_dots (count : Nat) :
    forwards (List.replicate count '.' ++ rootLogger.toList.reverse) = dotted count := by
  rw [← String.toList_inj]
  simp [forwards, dotted]

/-- A name in which two dots or more follow that of the program's own logger, up to the last of
these dots. -/
theorem exists_dots {name : String} (h : Doubled name) :
    ∃ count tail, 2 ≤ count ∧ tail.getLast? ≠ some '.' ∧
      name.toList.reverse =
        tail ++ (List.replicate count '.' ++ rootLogger.toList.reverse) := by
  obtain ⟨rest, hname⟩ := h
  have hdots : rest.takeWhile (· = '.') =
      List.replicate (rest.takeWhile (· = '.')).length '.' :=
    List.eq_replicate_of_mem fun c hc => by simpa using List.mem_takeWhile_imp hc
  refine ⟨(rest.takeWhile (· = '.')).length + 2, (rest.dropWhile (· = '.')).reverse, by omega,
    ?_, ?_⟩
  · rw [List.getLast?_reverse]
    intro hdot
    have hnot := List.head?_dropWhile_not (· = '.') rest
    rw [hdot] at hnot
    simp at hnot
  · have hrest : rest = List.replicate (rest.takeWhile (· = '.')).length '.' ++
        rest.dropWhile (· = '.') := by
      rw [← hdots, List.takeWhile_append_dropWhile]
    conv_lhs => rw [← hname, hrest]
    simp [List.replicate_succ']

/-- Nor of an odd number of dots, if there is a logger that is named up to the last but one of
them. -/
theorem passesUp_odd_dots {loggers : List String} {count : Nat} (hpos : 0 < count)
    (hmem : dotted (2 * count) ∈ loggers)
    (hloggers : ∀ logger ∈ rootLogger :: loggers,
      logger.length ≤ rootLogger.length ∨ rootLogger.length + 2 * count ≤ logger.length) :
    passesUp loggers (List.replicate (2 * count + 1) '.' ++ rootLogger.toList.reverse) = false := by
  obtain ⟨fewer, hfewer⟩ : ∃ fewer, 2 * count = fewer + 1 := ⟨2 * count - 1, by omega⟩
  have hbelow : List.replicate (2 * count) '.' ++ rootLogger.toList.reverse =
      '.' :: (List.replicate fewer '.' ++ rootLogger.toList.reverse) := by
    rw [hfewer, List.replicate_succ, List.cons_append]
  have hnamed : forwards ('.' :: (List.replicate fewer '.' ++ rootLogger.toList.reverse)) =
      dotted (2 * count) := by
    rw [← hbelow, forwards_dots]
  have hne : dotted (2 * count) ≠ rootLogger := by
    intro heq
    have hlength := length_dotted (2 * count)
    rw [heq] at hlength
    omega
  rw [List.replicate_succ, List.cons_append, hbelow, passesUp, hnamed, if_neg hne, if_pos hmem,
    ← hbelow]
  exact passesUp_dots count hloggers

/-- A logger with more than one dot behind the name of the program's own one does not belong to the
program, once a logger was asked for that ends between two of these dots. -/
theorem not_isOwnLogger_doubled {name : String} (h : Doubled name) :
    ∃ above, isOwnLogger [name, rootLogger, above, rootLogger] name = false := by
  obtain ⟨count, tail, hcount, htail, hname⟩ := exists_dots h
  obtain ⟨half, hhalf⟩ : ∃ half, count = 2 * half ∨ count = 2 * half + 1 := ⟨count / 2, by omega⟩
  have hlength : name.length = tail.length + (count + rootLogger.length) := by
    have hreversed := congrArg List.length hname
    rw [List.length_reverse, String.length_toList, List.length_append, List.length_append,
      List.length_replicate, List.length_reverse, String.length_toList] at hreversed
    exact hreversed
  have hlengths : ∀ logger ∈ rootLogger :: [name, rootLogger, dotted (2 * half), rootLogger],
      logger.length = rootLogger.length ∨ logger.length = name.length ∨
        logger.length = rootLogger.length + 2 * half := by
    intro logger hmem
    simp only [List.mem_cons, List.not_mem_nil, or_false] at hmem
    rcases hmem with rfl | rfl | rfl | rfl | rfl
    · exact Or.inl rfl
    · exact Or.inr (Or.inl rfl)
    · exact Or.inl rfl
    · exact Or.inr (Or.inr (length_dotted _))
    · exact Or.inl rfl
  have hdots : ∀ logger ∈ rootLogger :: [name, rootLogger, dotted (2 * half), rootLogger],
      logger.length ≤ rootLogger.length ∨ rootLogger.length + 2 * half ≤ logger.length := by
    intro logger hmem
    rcases hlengths logger hmem with hlog | hlog | hlog <;> omega
  refine ⟨dotted (2 * half), ?_⟩
  rw [isOwnLogger, Bool.or_eq_false_iff, decide_eq_false_iff_not, hname]
  constructor
  · rintro rfl
    omega
  · rw [passesUp_skip htail]
    · rcases hhalf with rfl | rfl
      · exact passesUp_dots half hdots
      · exact passesUp_odd_dots (by omega) (by simp) hdots
    · intro logger hmem
      simp only [List.length_append, List.length_replicate, List.length_reverse,
        String.length_toList]
      rcases hlengths logger hmem with hlog | hlog | hlog <;> omega

-- ════════════════════════════════════════════════════════════════════════
-- What is written
-- ════════════════════════════════════════════════════════════════════════

/-- Each record that is given to the logger of this name, after it was asked for and whatever else
was asked for before and since, is written as one line that tells it, or not at all if it is below
the level that was set last. -/
def ReportsEach (name : String) : Prop :=
  ∀ (before after : List Request) (time : String) (record : LogRecord), record.logger = name →
    if record.level.reaches (.threshold (lastVerbosity (before ++ .logger name :: after))) then
      (run (before ++ .logger name :: after)).written time record = [record.line time] ∧
        record.Tells time (record.line time)
    else (run (before ++ .logger name :: after)).written time record = []

/-- What is written for a record of a logger that belongs to the program, and of one that does
not. -/
theorem written_run {requests : List Request} (h : requests ≠ []) (time : String)
    (record : LogRecord) :
    (run requests).written time record =
      if isOwnLogger (run requests).loggers record.logger ∧
          record.level.reaches (.threshold (lastVerbosity requests)) then [record.line time]
      else [] := by
  have hready := ready_run h
  rw [written, hready.handlers, hready.least, Option.getD_some, List.replicate_one]
  simp only [Bool.and_eq_true]

/-- Of the loggers under the program's own one, those report each record in one line that have no
second dot behind its name. Below a name with more dots the hierarchy of loggers does not lead to
the program's own one, at least once certain other loggers were asked for. -/
theorem reportsEach_iff {name : String} (h : Under name) : ReportsEach name ↔ ¬ Doubled name := by
  constructor
  · intro hreports hdoubled
    obtain ⟨above, hnot⟩ := not_isOwnLogger_doubled hdoubled
    have hrecord := hreports [.logger above] [] "" ⟨.critical, name, "", "", none⟩ rfl
    have hreaches : ∀ least, Level.critical.reaches least = true := by
      intro least
      cases least <;> rfl
    rw [if_pos (hreaches _), written_run (by simp)] at hrecord
    have hloggers : (run ([.logger above] ++ [.logger name])).loggers =
        [name, rootLogger, above, rootLogger] := rfl
    rw [hloggers, if_neg (by simp [hnot])] at hrecord
    cases hrecord.1
  · intro hsingle before after time record hname
    have hown := isOwnLogger_of_under h hsingle
    rw [written_run (by simp), hname, hown]
    split
    · next hreaches => exact ⟨if_pos ⟨rfl, hreaches⟩, record.tells_line time⟩
    · next hreaches => exact if_neg fun hboth => hreaches hboth.2

/-- The logger of the client of the engine is one of those. -/
theorem reportsEach_docker :
    Under "lsp_image_builder.package.docker" ∧ ¬ Doubled "lsp_image_builder.package.docker" ∧
      ReportsEach "lsp_image_builder.package.docker" := by
  have hunder : Under "lsp_image_builder.package.docker" := by decide +kernel
  have hsingle : ¬ Doubled "lsp_image_builder.package.docker" := by decide +kernel
  exact ⟨hunder, hsingle, (reportsEach_iff hunder).mpr hsingle⟩

/-- With two dots behind the name of the program's own logger, nothing is written for a record that
counts. -/
theorem not_reportsEach_doubled :
    Under "lsp_image_builder..x" ∧ ¬ ReportsEach "lsp_image_builder..x" := by
  refine ⟨by decide +kernel, fun hreports => ?_⟩
  have hrecord := hreports [] [] "" ⟨.info, "lsp_image_builder..x", "m", "", none⟩ rfl
  have hnothing : (run [.logger "lsp_image_builder..x"]).written ""
      ⟨.info, "lsp_image_builder..x", "m", "", none⟩ = [] := by decide +kernel
  rw [if_pos (by decide), List.nil_append, hnothing] at hrecord
  cases hrecord.1

end Logging

end TwoStage
