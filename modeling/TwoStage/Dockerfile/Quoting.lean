import TwoStage.Json.Printer
import TwoStage.Text.Lines

/-!
# Quoting in Dockerfiles

How words stand in the lines of a Dockerfile: in double quotes where the engine would expand
variables, in single quotes where a shell reads them, and as JSON in the exec form.

## Main definitions

- `Dockerfile.quote` — a text in double quotes, nothing in it being expanded
- `Dockerfile.assignment` — the operand of an `ENV` line
- `Dockerfile.execForm` — the words of a command as JSON
- `Dockerfile.shellWords` — the words of a command for a shell
-/

namespace TwoStage.Dockerfile

/-- One character in double quotes. -/
def quoteChar (c : Char) : List Char :=
  if c = '\\' || c = '\x22' || c = '$' then ['\\', c] else [c]

/-- Characters in double quotes. -/
def quoteChars (cs : List Char) : List Char := '\x22' :: cs.flatMap quoteChar ++ ['\x22']

/-- A text in double quotes, with the characters escaped that mean something there. -/
def quote (s : String) : String := String.ofList (quoteChars s.toList)

/-- Whether a character needs no quotes in an `ENV` line. -/
def isBareChar (c : Char) : Bool :=
  c.isAlphanum || c ∈ ['.', '_', '-', '/', ':', '+', '=', ',']

/-- The value of a variable: bare if it is not empty and needs no quotes. -/
def envValue (value : String) : String :=
  if !value.isEmpty && value.toList.all isBareChar then value else quote value

/-- The operand of an `ENV` line. -/
def assignment (name value : String) : String := name ++ "=" ++ envValue value

/-- The words of a command as a JSON array. -/
def execForm (argv : List String) : String := (Json.ofStrings argv).compact

/-- Whether a shell takes a character for itself. -/
def isShellSafe (c : Char) : Bool :=
  c.isAlphanum || c ∈ ['_', '@', '%', '+', '=', ':', ',', '.', '/', '-']

/-- One character in single quotes: a single quote stands in double quotes between two parts. -/
def shellChar (c : Char) : List Char :=
  if c = '\x27' then ['\x27', '\x22', '\x27', '\x22', '\x27'] else [c]

/-- A word for a shell, in single quotes unless it is plain. -/
def shellWord (s : String) : String :=
  let cs := s.toList
  if !cs.isEmpty && cs.all isShellSafe then s
  else String.ofList ('\x27' :: cs.flatMap shellChar ++ ['\x27'])

/-- The words of a command for a shell. -/
def shellWords (argv : List String) : String := joinWith " " (argv.map shellWord)

end TwoStage.Dockerfile
