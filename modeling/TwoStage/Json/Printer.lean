import TwoStage.Json.Value
import TwoStage.Number.Shortest
import TwoStage.Text.Hex
import TwoStage.Text.Lines

/-!
# Writing JSON

Value to text, in two layouts: all on one line, where only what must be escaped is, or one item a
line with two spaces for each level, where everything but printable ASCII is escaped.

## Main definitions

- `Json.compact` — a value on one line
- `Json.indented` — a value with one item a line, in ASCII
-/

namespace TwoStage.Json

/-- The short escape of a character, if it has one. -/
def shortEscape? (c : Char) : Option Char :=
  if c = '\x22' then some '\x22'
  else if c = '\\' then some '\\'
  else if c = '\n' then some 'n'
  else if c = '\r' then some 'r'
  else if c = '\t' then some 't'
  else if c = '\x08' then some 'b'
  else if c = '\x0c' then some 'f'
  else none

/-- The escape of one unit by its number. -/
def unitEscape (unit : Nat) : List Char := '\\' :: 'u' :: hexDigits 4 unit

/-- The escape of a character by number: two halves beyond the first plane. -/
def numericEscape (c : Char) : List Char :=
  let n := c.toNat
  if n < 0x10000 then unitEscape n
  else
    let beyond := n - 0x10000
    unitEscape (0xd800 + beyond / 0x400) ++ unitEscape (0xdc00 + beyond % 0x400)

/-- Whether a character is shown as it is when the text is to be ASCII. -/
def isPlainAscii (c : Char) : Bool := ' ' ≤ c && c ≤ '~'

/-- One character of a string. -/
def stringChar (ascii : Bool) (c : Char) : List Char :=
  match shortEscape? c with
  | some letter => ['\\', letter]
  | none =>
    if c.toNat < 0x20 || ascii && !isPlainAscii c then numericEscape c else [c]

/-- The characters of a string between quotes. -/
def stringChars (ascii : Bool) (cs : List Char) : List Char :=
  '\x22' :: cs.flatMap (stringChar ascii) ++ ['\x22']

/-- A string between quotes. -/
def quoted (ascii : Bool) (s : String) : String := String.ofList (stringChars ascii s.toList)

/-- A number in binary64; the infinities and the value that is no number have words. -/
def floatText : Binary64 → String
  | .nan => "NaN"
  | .infinite negative => if negative then "-Infinity" else "Infinity"
  | x => x.text

mutual

/-- A value on one line. -/
def compact : Json → String
  | null => "null"
  | bool b => if b then "true" else "false"
  | int n => toString n
  | float x => floatText x
  | str s => quoted false s
  | arr items => "[" ++ joinWith ", " (compactItems items) ++ "]"
  | obj members => "\x7b" ++ joinWith ", " (compactMembers members) ++ "\x7d"

/-- Each item on one line. -/
def compactItems : List Json → List String
  | [] => []
  | item :: rest => compact item :: compactItems rest

/-- Each member on one line. -/
def compactMembers : List (String × Json) → List String
  | [] => []
  | (name, value) :: rest => (quoted false name ++ ": " ++ compact value) :: compactMembers rest

end

/-- A line end and the spaces of a level. -/
def freshLine (level : Nat) : String := String.ofList ('\n' :: List.replicate (2 * level) ' ')

/-- The parts of an array or object, each on a line of its own. -/
def block (opening closing : String) (level : Nat) (parts : List String) : String :=
  opening ++ freshLine (level + 1) ++ joinWith ("," ++ freshLine (level + 1)) parts ++
    freshLine level ++ closing

mutual

/-- A value with one item a line, in ASCII, its first line being at `level`. -/
def indentedAt (level : Nat) : Json → String
  | null => "null"
  | bool b => if b then "true" else "false"
  | int n => toString n
  | float x => floatText x
  | str s => quoted true s
  | arr [] => "[]"
  | arr items => block "[" "]" level (indentedItems level items)
  | obj [] => "\x7b\x7d"
  | obj members => block "\x7b" "\x7d" level (indentedMembers level members)

/-- Each item of a block. -/
def indentedItems (level : Nat) : List Json → List String
  | [] => []
  | item :: rest => indentedAt (level + 1) item :: indentedItems level rest

/-- Each member of a block. -/
def indentedMembers (level : Nat) : List (String × Json) → List String
  | [] => []
  | (name, value) :: rest =>
    (quoted true name ++ ": " ++ indentedAt (level + 1) value) :: indentedMembers level rest

end

/-- A value with one item a line, in ASCII. -/
def indented (value : Json) : String := indentedAt 0 value

end TwoStage.Json
