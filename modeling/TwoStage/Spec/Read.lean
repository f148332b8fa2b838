import TwoStage.Spec.Verdict
import TwoStage.Json.Reader
import TwoStage.Text.Search

/-!
# Reading the fields of a record

Texts, flags, counts, lists and tables are read from JSON values. Flags and counts are read
generously: a count may be written as a text or as a number without fraction, a flag as one of a few
words. The members of a record are looked up by name; members without a field are passed over.

## Main definitions

- `Read.text`, `Read.flag`, `Read.count`, `Read.textList`, `Read.textTable` — values by kind
- `Read.required`, `Read.optional` — the field of a record
-/

namespace TwoStage.Read

variable {α : Type}

/-- Reads a text. -/
def text : Json → Verdict String
  | .str s => .accepted s
  | _ => .problem .notText

/-- Reads what may also be null. -/
def nullable (read : Json → Verdict α) : Json → Verdict (Option α)
  | .null => .accepted none
  | value => (read value).map some

/-- The words for "yes". -/
def yesWords : List String := ["1", "on", "t", "true", "y", "yes"]

/-- The words for "no". -/
def noWords : List String := ["0", "off", "f", "false", "n", "no"]

/-- The flag that a number stands for. -/
def numberFlag (n : Int) : Verdict Bool :=
  if n = 0 then .accepted false else if n = 1 then .accepted true else .problem .unreadableFlag

/-- Reads a flag: a truth value, zero or one, or a word in any mixture of cases. -/
def flag : Json → Verdict Bool
  | .bool b => .accepted b
  | .int n => numberFlag n
  | .float x =>
    match x.toInt? with
    | some n => numberFlag n
    | none => .problem .notFlag
  | .str s =>
    let word := s.toLower
    if word ∈ yesWords then .accepted true
    else if word ∈ noWords then .accepted false
    else .problem .unreadableFlag
  | _ => .problem .notFlag

/-- The blanks that may stand around the digits of a count. -/
def isPadding (c : Char) : Bool :=
  c.toNat ∈ [0x9, 0xa, 0xb, 0xc, 0xd, 0x20, 0x85, 0xa0, 0x1680, 0x2028, 0x2029, 0x202f, 0x205f,
    0x3000] || 0x2000 ≤ c.toNat && c.toNat ≤ 0x200a

/-- The characters without padding at either end. -/
def unpadded (cs : List Char) : List Char :=
  ((cs.dropWhile isPadding).reverse.dropWhile isPadding).reverse

/-- The integer of characters that are a plain decimal number: an optional minus sign and digits,
of which the first is zero only if it stands alone. -/
def plainInteger? (cs : List Char) : Option Int :=
  let (negative, digits) :=
    match cs with
    | '-' :: digits => (true, digits)
    | _ => (false, cs)
  let wellFormed :=
    match digits with
    | [] => false
    | '0' :: rest => rest.isEmpty
    | _ => digits.all Json.isDecimal
  if wellFormed then
    let size : Int := Json.decimalValue digits
    some (if negative then -size else size)
  else none

/-- Whether characters start with more digits than an integer may have. -/
def isOverlong (cs : List Char) : Bool :=
  let digits := match cs with
    | '-' :: digits => digits
    | _ => cs
  digits.head? != some '0' && Json.integerDigitLimit < (digits.takeWhile Json.isDecimal).length

/-- Drops zeros, and underscores among them, in front of the digits that count; one character stays.
`last` is the character before. -/
def dropZeros (last : Char) : List Char → Option (List Char)
  | [] => some [last]
  | c :: rest =>
    if c = '0' || c = '_' then dropZeros c rest
    else if '1' ≤ c && c ≤ '9' then some (c :: rest)
    else if c = '.' then some (last :: c :: rest)
    else none

/-- The characters of a number without leading zeros. -/
def withoutLeadingZeros : List Char → Option (List Char)
  | [] => none
  | c :: rest =>
    if c = '0' then dropZeros c rest
    else if '1' ≤ c && c ≤ '9' || c = '-' then some (c :: rest)
    else none

/-- The characters without a point behind which only zeros stand. -/
def withoutZeroFraction (cs : List Char) : List Char :=
  match cutAt '.' cs with
  | (whole, some fraction) => if fraction.all (· == '0') then whole else cs
  | _ => cs

/-- Whether underscores stand only between other characters, one at a time. -/
def separatesWell (cs : List Char) : Bool :=
  cs.head? != some '_' && cs.getLast? != some '_' && !containsChars ['_', '_'] cs

/-- The characters without underscores, if these separate well. -/
def withoutUnderscores (cs : List Char) : List Char :=
  if separatesWell cs then cs.filter (· ≠ '_') else cs

/-- The plain form of a number that is written with padding, a plus sign, leading zeros, a fraction
of zeros or underscores. -/
def plainForm (cs : List Char) : Option (List Char) := do
  let cs := unpadded cs
  let cs ←
    match cs with
    | '+' :: '-' :: _ => none
    | '+' :: rest => some rest
    | _ => some cs
  let cs ← withoutLeadingZeros cs
  return withoutUnderscores (withoutZeroFraction cs)

/-- Reads an integer written as a text. -/
def integerText (s : String) : Verdict Int :=
  let cs := s.toList
  if isOverlong cs then .problem .hugeInteger
  else
    match plainInteger? cs with
    | some n => .accepted n
    | none =>
      match (plainForm cs).filter (fun cs => !isOverlong cs) >>= plainInteger? with
      | some n => .accepted n
      | none => .problem .unreadableInteger

/-- Reads a number in binary64 that is an integer strictly between minus and plus `2 ^ 63`. -/
def integerFloat (x : Binary64) : Verdict Int :=
  match x with
  | .finite .. =>
    match x.toInt? with
    | some n =>
      if -Int.pow 2 63 < n && n < Int.pow 2 63 then .accepted n else .problem .hugeInteger
    | none => .problem .fractionalInteger
  | _ => .problem .notFinite

/-- Reads an integer. -/
def integer : Json → Verdict Int
  | .int n => .accepted n
  | .bool b => .accepted (if b then 1 else 0)
  | .float x => integerFloat x
  | .str s => integerText s
  | _ => .problem .notInteger

/-- Reads an integer that is not negative. -/
def count (value : Json) : Verdict Nat :=
  (integer value).andThen fun n =>
    match n with
    | .ofNat n => .accepted n
    | .negSucc _ => .problem (.belowMinimum 0)

/-- Reads each item of a list, the first one being number `index`. -/
def items (read : Json → Verdict α) (index : Nat) : List Json → Verdict (List α)
  | [] => .accepted []
  | item :: rest =>
    List.cons <$> (read item).within (.item index) <*> items read (index + 1) rest

/-- Reads a list. -/
def list (read : Json → Verdict α) : Json → Verdict (List α)
  | .arr values => items read 0 values
  | _ => .problem .notList

/-- Reads the value of each binding. -/
def bindings (read : Json → Verdict α) : List (String × Json) → Verdict (Bindings α)
  | [] => .accepted []
  | (name, value) :: rest =>
    (fun v vs => (name, v) :: vs) <$> (read value).within (.member name) <*> bindings read rest

/-- Reads a table of texts. -/
def textTable : Json → Verdict (Bindings String)
  | .obj members => bindings text members
  | _ => .problem .notTable

/-- Reads a field that must be there. -/
def required (name : String) (read : Json → Verdict α) (members : List (String × Json)) :
    Verdict α :=
  match members.lookup name with
  | some value => (read value).within (.member name)
  | none => (Verdict.problem .missing).within (.member name)

/-- Reads a field that has a value if it is left out. -/
def optional (name : String) (default : α) (read : Json → Verdict α)
    (members : List (String × Json)) : Verdict α :=
  match members.lookup name with
  | some value => (read value).within (.member name)
  | none => .accepted default

/-- Reads a record of the named kind from its members. -/
def record (kind : String) (read : List (String × Json) → Verdict α) : Json → Verdict α
  | .obj members => read members
  | _ => .problem (.notRecord kind)

end TwoStage.Read
