import TwoStage.Json.Printer
import TwoStage.Json.Shown

/-!
# Log records

What the program reports while it works: one JSON object on one line for each record at or above
the level that is set.

## Main definitions

- `Level`, `LogRecord` — the records
- `LogRecord.line` — the line of a record
- `fillIn?` — a message with its arguments in place
-/

namespace TwoStage

/-- How much a record matters. -/
inductive Level where
  | debug
  | info
  | warning
  | error
  | critical
  deriving Repr, DecidableEq

namespace Level

/-- The name of a level. -/
def name : Level → String
  | debug => "DEBUG"
  | info => "INFO"
  | warning => "WARNING"
  | error => "ERROR"
  | critical => "CRITICAL"

/-- The rank of a level. -/
def rank : Level → Nat
  | debug => 0
  | info => 1
  | warning => 2
  | error => 3
  | critical => 4

/-- The least level that is reported: all, or all but the details. -/
def threshold (verbose : Bool) : Level := if verbose then debug else info

/-- Whether a record of this level is reported from a threshold on. -/
def reaches (level least : Level) : Bool := least.rank ≤ level.rank

end Level

/-- One report. `stage` names the stage that it is about and may be empty; `exception` is the text
of an error that goes with it. -/
structure LogRecord where
  level : Level
  logger : String
  message : String
  stage : String
  exception : Option String
  deriving Repr, DecidableEq

/-- The name that all loggers of the program start with. -/
def rootLogger : String := "lsp_image_builder"

/-- A name that is given last character first. -/
def forwards (reversed : List Char) : String := String.ofList reversed.reverse

/-- Whether what a logger is given reaches the logger of the program, `loggers` being the names of
all that there are. The name is given last character first. A logger passes on to the nearest one
above it, which is found by cutting the name at its dots from behind. The character before a dot
that was cut at is not looked at, so that of two dots side by side only the second one counts. -/
def passesUp (loggers : List String) : List Char → Bool
  | [] => false
  | '.' :: c :: rest =>
    if forwards (c :: rest) = rootLogger then true
    else if forwards (c :: rest) ∈ loggers then passesUp loggers (c :: rest)
    else passesUp loggers rest
  | _ :: rest => passesUp loggers rest

/-- Whether a logger belongs to the program: it is the program's own one, or passes on to it. -/
def isOwnLogger (loggers : List String) (name : String) : Bool :=
  name = rootLogger || passesUp loggers name.toList.reverse

namespace LogRecord

/-- A record of the program without stage and exception; `part` names the part of the program. -/
def plain (level : Level) (part message : String) : LogRecord :=
  ⟨level, rootLogger ++ "." ++ part, message, "", none⟩

/-- A record in JSON; `time` is when it was made. -/
def toJson (time : String) (record : LogRecord) : Json :=
  .obj
    ([("ts", .str time), ("level", .str record.level.name), ("name", .str record.logger),
      ("msg", .str record.message)] ++
      (if record.stage.isEmpty then [] else [("stage", .str record.stage)]) ++
      match record.exception with
      | none => []
      | some text => [("exc_info", .str text)])

/-- The line of a record. -/
def line (time : String) (record : LogRecord) : String := (record.toJson time).compact

/-- Whether a record is written: it is one of the program's own, and of a level that counts. -/
def isWritten (least : Level) (record : LogRecord) : Bool :=
  isOwnLogger [] record.logger && record.level.reaches least

end LogRecord

/-- The integer part of a number for a `%d`. -/
def integerPart? : Json → Option Int
  | .int n => some n
  | .bool b => some (if b then 1 else 0)
  | .float (.finite negative mantissa exponent) =>
    let size : Nat :=
      if 0 ≤ exponent then mantissa * Nat.pow 2 exponent.toNat
      else mantissa / Nat.pow 2 (-exponent).toNat
    some (if negative then -(size : Int) else size)
  | _ => none

/-- Puts arguments in place of the marks in a message; `none` if they do not match or cannot be
shown. -/
def fillChars? : List Char → List Json → Option (List Char)
  | [], [] => some []
  | [], _ :: _ => none
  | '%' :: '%' :: rest, args => (fillChars? rest args).map ('%' :: ·)
  | '%' :: mark :: rest, arg :: args =>
    let shown :=
      match mark with
      | 's' => some arg.plain
      | 'r' => some arg.shown
      | 'd' | 'i' => (integerPart? arg).map toString
      | _ => none
    (shown.filter fun _ => arg.isShowable).bind fun text =>
      (fillChars? rest args).map (text.toList ++ ·)
  | c :: rest, args => if c = '%' then none else (fillChars? rest args).map (c :: ·)

/-- A message with its arguments in place of the marks; without arguments it stays as it is. -/
def fillIn? (message : String) (args : List Json) : Option String :=
  if args.isEmpty then some message else (fillChars? message.toList args).map String.ofList

/-- The text of an error of the named kind. -/
def exceptionText (kind message : String) : String :=
  if message.isEmpty then kind else kind ++ ": " ++ message

end TwoStage
