import TwoStage.Text.Range

/-!
# Blank characters

The twenty-nine characters that count as white space, and the two things done with them: cutting
them off both ends of a text and splitting a text into words at them.

## Main definitions

- `isBlank` — the white-space characters
- `strip` — a text without the blanks at its ends
- `words` — the maximal runs of characters that are not blank
-/

namespace TwoStage

/-- White space: the ASCII controls that move the cursor or separate records, the space, the next
line control, and the Unicode spaces and separators. -/
def blankRanges : List CodeRange :=
  [(0x9, 0xd), (0x1c, 0x20), (0x85, 0x85), (0xa0, 0xa0), (0x1680, 0x1680), (0x2000, 0x200a),
   (0x2028, 0x2029), (0x202f, 0x202f), (0x205f, 0x205f), (0x3000, 0x3000)]

/-- Whether a character is white space. -/
def isBlank (c : Char) : Bool := inRanges blankRanges c

/-- The characters without leading blanks. -/
def dropBlanks (cs : List Char) : List Char := cs.dropWhile isBlank

/-- The characters without the blanks at either end. -/
def stripChars (cs : List Char) : List Char := (dropBlanks (dropBlanks cs).reverse).reverse

/-- The text without the blanks at either end. -/
def strip (s : String) : String := String.ofList (stripChars s.toList)

/-- Splits at blanks: `current` holds the word being read, last character first. -/
def wordsFrom (current : List Char) : List Char → List (List Char)
  | [] => if current.isEmpty then [] else [current.reverse]
  | c :: rest =>
    if isBlank c then
      if current.isEmpty then wordsFrom [] rest else current.reverse :: wordsFrom [] rest
    else wordsFrom (c :: current) rest

/-- The words of a text: its maximal runs of characters that are not blank. -/
def words (s : String) : List String := (wordsFrom [] s.toList).map String.ofList

end TwoStage
