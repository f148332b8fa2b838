import TwoStage.Json.Value
import TwoStage.Text.Hex

/-!
# Reading JSON

Text to value. Beyond the standard, `NaN`, `Infinity` and `-Infinity` are numbers, a number too
large for binary64 is infinite, an integer may have at most 4300 digits, and of two members of one
name the place of the first and the value of the second count. A fault is reported where the text
first cannot go on.

## Main definitions

- `Json.Fault` — what is missing or wrong, and where
- `Json.ReadError` — why a text has no value
- `Json.read` — the value of a text
-/

namespace TwoStage.Json

/-- What is missing or wrong in a text. -/
inductive Complaint where
  | expectingValue
  | expectingName
  | expectingColon
  | expectingComma
  | extraData
  | unterminatedString
  | controlCharacter
  | unknownEscape
  | badUnit
  | byteOrderMark
  deriving Repr, DecidableEq

/-- The wording of a complaint. -/
def Complaint.message : Complaint → String
  | expectingValue => "Expecting value"
  | expectingName => "Expecting property name enclosed in double quotes"
  | expectingColon => "Expecting ':' delimiter"
  | expectingComma => "Expecting ',' delimiter"
  | extraData => "Extra data"
  | unterminatedString => "Unterminated string starting at"
  | controlCharacter => "Invalid control character at"
  | unknownEscape => "Invalid \\escape"
  | badUnit => "Invalid \\uXXXX escape"
  | byteOrderMark => "Unexpected UTF-8 BOM (decode using utf-8-sig)"

/-- A complaint with its place: line and column count from one, the offset from zero. -/
structure Fault where
  complaint : Complaint
  line : Nat
  column : Nat
  offset : Nat
  deriving Repr, DecidableEq

/-- The wording of a fault. -/
def Fault.message (fault : Fault) : String :=
  fault.complaint.message ++ ": line " ++ toString fault.line ++ " column " ++
    toString fault.column ++ " (char " ++ toString fault.offset ++ ")"

/-- Why a text has no value. -/
inductive ReadError where
  | malformed (fault : Fault)
  /-- An integer has this many digits, more than are read. -/
  | longInteger (digits : Nat)
  deriving Repr, DecidableEq

/-- The wording for an integer of too many digits. -/
def longIntegerMessage (digits : Nat) : String :=
  "Exceeds the limit (" ++ toString integerDigitLimit ++
    " digits) for integer string conversion: value has " ++ toString digits ++
    " digits; use sys.set_int_max_str_digits() to increase the limit"

/-- The wording of an error. -/
def ReadError.message : ReadError → String
  | malformed fault => fault.message
  | longInteger digits => longIntegerMessage digits

/-- Why reading stops, seen from inside: a complaint stands at the first of the characters left. -/
inductive Stop where
  | complaint (what : Complaint) (left : List Char)
  | longInteger (digits : Nat)

/-- What reading a part of a text gives: the part and the characters behind it. -/
abbrev Step (α : Type) := Except Stop (α × List Char)

/-- The blanks of the format. -/
def isSpace (c : Char) : Bool := c = ' ' || c = '\t' || c = '\n' || c = '\r'

/-- The characters without leading blanks. -/
def skipSpace (cs : List Char) : List Char := cs.dropWhile isSpace

/-- One of the ten digits. -/
def isDecimal (c : Char) : Bool := '0' ≤ c && c ≤ '9'

/-- The number that decimal digits stand for. -/
def decimalValue (digits : List Char) : Nat :=
  digits.foldl (fun n c => 10 * n + (c.toNat - 0x30)) 0

/-- The character that a letter behind a backslash stands for. -/
def escape? : Char → Option Char
  | '\x22' => some '\x22'
  | '\\' => some '\\'
  | '/' => some '/'
  | 'b' => some '\x08'
  | 'f' => some '\x0c'
  | 'n' => some '\n'
  | 'r' => some '\r'
  | 't' => some '\t'
  | _ => none

/-- The value of four hexadecimal digits. -/
def unit? (a b c d : Char) : Option Nat := do
  let a ← hexValue? a
  let b ← hexValue? b
  let c ← hexValue? c
  let d ← hexValue? d
  return ((a * 16 + b) * 16 + c) * 16 + d

/-- Whether a unit is the first half of a character beyond the first plane. -/
def isFirstHalf (unit : Nat) : Bool := 0xd800 ≤ unit && unit < 0xdc00

/-- Whether a unit is the second half of a character beyond the first plane. -/
def isSecondHalf (unit : Nat) : Bool := 0xdc00 ≤ unit && unit < 0xe000

/-- The character of a unit; a half that stands alone becomes the replacement character. -/
def unitChar (unit : Nat) : Char :=
  if isFirstHalf unit || isSecondHalf unit then '\ufffd' else Char.ofNat unit

/-- The character of two halves. -/
def pairChar (first second : Nat) : Char :=
  Char.ofNat (0x10000 + (first - 0xd800) * 0x400 + (second - 0xdc00))

/-- The characters read so far, with a first half that waits for its second one settled. -/
def settle (half : Option Nat) (done : List Char) : List Char :=
  match half with
  | none => done
  | some _ => '\ufffd' :: done

/-- Reads a string behind its opening quote. `opening` is the text from that quote on, `done` holds
the characters so far, last one first, and `half` a first half that waits for its second. -/
def stringFrom (opening : List Char) (half : Option Nat) (done : List Char) :
    List Char → Step String
  | [] => .error (.complaint .unterminatedString opening)
  | '\x22' :: rest => .ok (String.ofList (settle half done).reverse, rest)
  | '\\' :: 'u' :: a :: b :: c :: d :: rest =>
    match unit? a b c d with
    | none => .error (.complaint .badUnit ('u' :: a :: b :: c :: d :: rest))
    | some unit =>
      if rest.isEmpty then .error (.complaint .badUnit ('u' :: a :: b :: c :: d :: rest))
      else
        match half with
        | some first =>
          if isSecondHalf unit then stringFrom opening none (pairChar first unit :: done) rest
          else if isFirstHalf unit then
            stringFrom opening (some unit) ('\ufffd' :: done) rest
          else stringFrom opening none (unitChar unit :: '\ufffd' :: done) rest
        | none =>
          if isFirstHalf unit then stringFrom opening (some unit) done rest
          else stringFrom opening none (unitChar unit :: done) rest
  | '\\' :: c :: rest =>
    if c = 'u' then .error (.complaint .badUnit (c :: rest))
    else
      match escape? c with
      | none => .error (.complaint .unknownEscape ('\\' :: c :: rest))
      | some meant => stringFrom opening none (meant :: settle half done) rest
  | c :: rest =>
    if c = '\\' then .error (.complaint .unterminatedString opening)
    else if c.toNat < 0x20 then .error (.complaint .controlCharacter (c :: rest))
    else stringFrom opening none (c :: settle half done) rest

/-- Reads the fraction of a number, if there is one: its digits. -/
def fractionFrom (cs : List Char) : Option (List Char) × List Char :=
  match cs with
  | '.' :: rest =>
    let digits := rest.takeWhile isDecimal
    if digits.isEmpty then (none, cs) else (some digits, rest.dropWhile isDecimal)
  | _ => (none, cs)

/-- Reads the exponent of a number, if there is one. -/
def exponentFrom (cs : List Char) : Option Int × List Char :=
  match cs with
  | e :: rest =>
    if e = 'e' || e = 'E' then
      let (negative, tail) :=
        match rest with
        | '-' :: tail => (true, tail)
        | '+' :: tail => (false, tail)
        | _ => (false, rest)
      let digits := tail.takeWhile isDecimal
      if digits.isEmpty then (none, cs)
      else
        let size : Int := decimalValue digits
        (some (if negative then -size else size), tail.dropWhile isDecimal)
    else (none, cs)
  | [] => (none, [])

/-- Reads the digits before the point: a zero alone, or a run that starts with another digit. -/
def wholeFrom (cs : List Char) : Option (List Char × List Char) :=
  match cs with
  | '0' :: rest => some (['0'], rest)
  | _ =>
    let digits := cs.takeWhile isDecimal
    if digits.isEmpty then none else some (digits, cs.dropWhile isDecimal)

/-- Reads a number without its sign. `start` is the text from the sign on. -/
def numberFrom (start : List Char) (negative : Bool) (cs : List Char) : Step Json :=
  match wholeFrom cs with
  | none => .error (.complaint .expectingValue start)
  | some (whole, afterWhole) =>
    let (fraction, afterFraction) := fractionFrom afterWhole
    let (exponent, rest) := exponentFrom afterFraction
    match fraction, exponent with
    | none, none =>
      if integerDigitLimit < whole.length then .error (.longInteger whole.length)
      else
        let size : Int := decimalValue whole
        .ok (int (if negative then -size else size), rest)
    | _, _ =>
      let places := fraction.getD []
      let power := exponent.getD 0 - places.length
      .ok (float (Binary64.ofDecimal negative (decimalValue (whole ++ places)) power), rest)

/-- The words that are values. -/
def wordValues : List (List Char × Json) :=
  [("null".toList, null), ("true".toList, bool true), ("false".toList, bool false),
   ("NaN".toList, float .nan), ("Infinity".toList, float (.infinite false)),
   ("-Infinity".toList, float (.infinite true))]

/-- Reads a word that is a value. -/
def wordFrom? (cs : List Char) : Option (Json × List Char) :=
  wordValues.findSome? fun (word, value) =>
    if word.isPrefixOf cs then some (value, cs.drop word.length) else none

/-- Reads a value that holds no other: a word or a number. -/
def scalarFrom (cs : List Char) : Step Json :=
  match wordFrom? cs with
  | some found => .ok found
  | none =>
    match cs with
    | '-' :: rest => numberFrom cs true rest
    | _ => numberFrom cs false cs

mutual

/-- Reads a value. -/
def valueFrom : (fuel : Nat) → List Char → Step Json
  | 0, cs => .error (.complaint .expectingValue cs)
  | fuel + 1, cs =>
    match cs with
    | '\x22' :: rest =>
      match stringFrom cs none [] rest with
      | .error stop => .error stop
      | .ok (text, rest) => .ok (str text, rest)
    | '[' :: rest =>
      match skipSpace rest with
      | ']' :: rest => .ok (arr [], rest)
      | rest => itemsFrom fuel [] rest
    | '{' :: rest =>
      match skipSpace rest with
      | '}' :: rest => .ok (obj [], rest)
      | rest => membersFrom fuel [] rest
    | _ => scalarFrom cs

/-- Reads the items of an array up to its end; `done` holds those before, last one first. -/
def itemsFrom : (fuel : Nat) → (done : List Json) → List Char → Step Json
  | 0, _, cs => .error (.complaint .expectingValue cs)
  | fuel + 1, done, cs =>
    match valueFrom fuel cs with
    | .error stop => .error stop
    | .ok (item, rest) =>
      match skipSpace rest with
      | ']' :: rest => .ok (arr (item :: done).reverse, rest)
      | ',' :: rest => itemsFrom fuel (item :: done) (skipSpace rest)
      | rest => .error (.complaint .expectingComma rest)

/-- Reads the members of an object up to its end; `done` holds those before. -/
def membersFrom : (fuel : Nat) → (done : Bindings Json) → List Char → Step Json
  | 0, _, cs => .error (.complaint .expectingName cs)
  | fuel + 1, done, cs =>
    match cs with
    | '\x22' :: rest =>
      match stringFrom cs none [] rest with
      | .error stop => .error stop
      | .ok (name, rest) =>
        match skipSpace rest with
        | ':' :: rest =>
          match valueFrom fuel (skipSpace rest) with
          | .error stop => .error stop
          | .ok (value, rest) =>
            match skipSpace rest with
            | '}' :: rest => .ok (obj (done.put name value), rest)
            | ',' :: rest => membersFrom fuel (done.put name value) (skipSpace rest)
            | rest => .error (.complaint .expectingComma rest)
        | rest => .error (.complaint .expectingColon rest)
    | _ => .error (.complaint .expectingName cs)

end

/-- Where a complaint stands in a text of which `left` are the last characters. -/
def locate (cs : List Char) (what : Complaint) (left : List Char) : Fault :=
  let offset := cs.length - left.length
  let before := cs.take offset
  let lineStart := (before.reverse.takeWhile (· ≠ '\n')).length
  ⟨what, before.count '\n' + 1, lineStart + 1, offset⟩

/-- Reads a value and what may stand around it. Every character is read at most twice, so the fuel
never runs out. -/
def readChars (cs : List Char) : Except Stop Json :=
  match cs with
  | '\ufeff' :: _ => .error (.complaint .byteOrderMark cs)
  | _ =>
    match valueFrom (2 * cs.length + 2) (skipSpace cs) with
    | .error stop => .error stop
    | .ok (value, rest) =>
      match skipSpace rest with
      | [] => .ok value
      | left => .error (.complaint .extraData left)

/-- The value of a text. -/
def read (s : String) : Except ReadError Json :=
  let cs := s.toList
  match readChars cs with
  | .ok value => .ok value
  | .error (.complaint what left) => .error (.malformed (locate cs what left))
  | .error (.longInteger digits) => .error (.longInteger digits)

end TwoStage.Json
