import TwoStage.Text.Hex
import TwoStage.Text.Printable

/-!
# Texts as literals in messages

A message shows a text between quotes: single ones, or double ones when the text holds a single
quote and no double one. Backslashes, the enclosing quote and characters that are not printable are
escaped, each non-printable one by the shortest of three fixed widths that holds its code point.

## Main definitions

- `literal` — a text as messages show it
-/

namespace TwoStage

/-- One character between `quote`s. -/
def literalChar (quote c : Char) : List Char :=
  if c = quote || c = '\\' then ['\\', c]
  else if c = '\t' then ['\\', 't']
  else if c = '\n' then ['\\', 'n']
  else if c = '\r' then ['\\', 'r']
  else if isPrintable c then [c]
  else if c.toNat < 0x100 then '\\' :: 'x' :: hexDigits 2 c.toNat
  else if c.toNat < 0x10000 then '\\' :: 'u' :: hexDigits 4 c.toNat
  else '\\' :: 'U' :: hexDigits 8 c.toNat

/-- The quote that encloses the characters. -/
def literalQuote (cs : List Char) : Char :=
  if '\x27' ∈ cs && !('\x22' ∈ cs) then '\x22' else '\x27'

/-- A text as messages show it: quoted, with escapes. -/
def literal (s : String) : String :=
  let cs := s.toList
  let quote := literalQuote cs
  String.ofList (quote :: cs.flatMap (literalChar quote) ++ [quote])

end TwoStage
