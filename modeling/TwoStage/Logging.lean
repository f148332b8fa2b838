import TwoStage.Log

/-!
# Loggers

The state that all loggers share: which of them there are, and what was set at the program's own
one. Asking for a logger sets up the one of the program first, once for all; the loggers under it
pass their records on to it.

## Main definitions

- `Logging` — what there is and what was set
- `Logging.withLogger`, `Logging.withVerbosity` — asking for a logger, setting the level
- `Logging.run` — any number of these requests
- `Logging.written` — the lines that are written for a record
-/

namespace TwoStage

/-- The state of all loggers. -/
structure Logging where
  /-- The names of the loggers that there are. -/
  loggers : List String
  /-- How many handlers the program's own logger has. Each writes a line for every record that
  reaches this logger. -/
  handlers : Nat
  /-- The level from which on the program's own logger takes records, if one was set. -/
  least : Option Level
  deriving Repr, DecidableEq

namespace Logging

/-- Before any logger is asked for. -/
def initial : Logging := ⟨[], 0, none⟩

/-- After a logger was asked for: the program's own one has a handler and a level. -/
def withLogger (state : Logging) (name : String) : Logging :=
  let state := { state with loggers := name :: rootLogger :: state.loggers }
  if state.handlers = 0 then { state with handlers := 1, least := some .info } else state

/-- After the level was set: all records count, or all but the details. -/
def withVerbosity (state : Logging) (verbose : Bool) : Logging :=
  { state.withLogger rootLogger with least := some (.threshold verbose) }

/-- What the state can be asked for. -/
inductive Request where
  | logger (name : String)
  | verbosity (verbose : Bool)
  deriving Repr, DecidableEq

/-- After one request. -/
def perform (state : Logging) : Request → Logging
  | .logger name => state.withLogger name
  | .verbosity verbose => state.withVerbosity verbose

/-- After any number of requests. -/
def run (requests : List Request) : Logging := requests.foldl perform initial

/-- The lines that the handlers of the program's own logger write for a record made at `time`. Where
no level was set, only warnings and what is worse count. Writing leaves the state as it is. -/
def written (state : Logging) (time : String) (record : LogRecord) : List String :=
  let counts := record.level.reaches (state.least.getD .warning)
  if isOwnLogger state.loggers record.logger && counts then
    List.replicate state.handlers (record.line time)
  else []

end Logging

end TwoStage
