/-!
# Lines of a text

A text is split at every character that ends a line on some system: line feed, carriage return
(alone or before a line feed), vertical tab, form feed, the three information separators, the next
line control and the two Unicode separators. Reading a file in text mode knows only the first two
and turns both of them into a line feed.

## Main definitions

- `isLineBreak` — the characters that end a line
- `splitLines` — the lines, without their ends; a final line end opens no further line
- `unifyNewlines` — line ends as a file read in text mode shows them
- `joinWith` — texts with a separator between them
-/

namespace TwoStage

/-- The characters that end a line. -/
def isLineBreak (c : Char) : Bool :=
  c ∈ ['\n', '\r', '\x0b', '\x0c', '\x1c', '\x1d', '\x1e', '\u0085', '\u2028', '\u2029']

/-- The lines of the characters, `current` being the line that is read, last character first. -/
def splitLinesFrom (current : List Char) : List Char → List (List Char)
  | [] => if current.isEmpty then [] else [current.reverse]
  | '\r' :: '\n' :: rest => current.reverse :: splitLinesFrom [] rest
  | c :: rest =>
    if isLineBreak c then current.reverse :: splitLinesFrom [] rest
    else splitLinesFrom (c :: current) rest

/-- The lines of a text, without their ends. -/
def splitLines (s : String) : List String := (splitLinesFrom [] s.toList).map String.ofList

/-- Both `\r\n` and a lone `\r` become `\n`. -/
def unifyNewlineChars : List Char → List Char
  | [] => []
  | '\r' :: '\n' :: rest => '\n' :: unifyNewlineChars rest
  | c :: rest => (if c = '\r' then '\n' else c) :: unifyNewlineChars rest

/-- A text with every carriage return, alone or before a line feed, read as a line feed. -/
def unifyNewlines (s : String) : String := String.ofList (unifyNewlineChars s.toList)

/-- The texts one after the other, with the separator between any two. -/
def joinWith (separator : String) (texts : List String) : String :=
  String.intercalate separator texts

end TwoStage
