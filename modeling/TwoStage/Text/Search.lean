/-!
# Searching in a text

Substring tests and cuts at the first or last occurrence of a character, over lists of characters.

## Main definitions

- `contains` — whether one text occurs in another
- `afterFirst?` — what follows the first occurrence of a text
- `cutAt` — the text before and after the first occurrence of a character
- `splitAtEach` — the pieces between the occurrences of a character
-/

namespace TwoStage

/-- Whether `part` occurs somewhere in the characters. -/
def containsChars (part : List Char) : List Char → Bool
  | [] => part.isEmpty
  | c :: rest => part.isPrefixOf (c :: rest) || containsChars part rest

/-- Whether `part` occurs somewhere in `whole`. -/
def contains (whole part : String) : Bool := containsChars part.toList whole.toList

/-- What follows `start`, if the characters begin with it. -/
def afterStart? : (start : List Char) → List Char → Option (List Char)
  | [], cs => some cs
  | _ :: _, [] => none
  | p :: start, c :: cs => if p = c then afterStart? start cs else none

/-- What follows the first occurrence of `part`. -/
def afterFirst? (part : List Char) : List Char → Option (List Char)
  | [] => if part.isEmpty then some [] else none
  | c :: rest =>
    match afterStart? part (c :: rest) with
    | some tail => some tail
    | none => afterFirst? part rest

/-- The characters before the first `mark`, and those after it if there is one. -/
def cutAt (mark : Char) : List Char → List Char × Option (List Char)
  | [] => ([], none)
  | c :: rest =>
    if c = mark then ([], some rest)
    else
      let (before, after) := cutAt mark rest
      (c :: before, after)

/-- The pieces between the occurrences of `mark`; there is always one more piece than marks. -/
def splitAtEach (mark : Char) : List Char → List (List Char)
  | [] => [[]]
  | c :: rest =>
    if c = mark then [] :: splitAtEach mark rest
    else
      match splitAtEach mark rest with
      | piece :: pieces => (c :: piece) :: pieces
      | [] => [[c]]

theorem afterStart?_eq_some_iff {start cs tail : List Char} :
    afterStart? start cs = some tail ↔ cs = start ++ tail := by
  induction start generalizing cs with
  | nil => simp [afterStart?, eq_comm]
  | cons p start ih =>
    cases cs with
    | nil => simp [afterStart?]
    | cons c cs =>
      by_cases h : p = c
      · simp [afterStart?, h, ih]
      · simp [afterStart?, h, Ne.symm h]

theorem splitAtEach_ne_nil (mark : Char) (cs : List Char) : splitAtEach mark cs ≠ [] := by
  induction cs with
  | nil => simp [splitAtEach]
  | cons c rest ih =>
    unfold splitAtEach
    split
    · simp
    · split <;> simp

end TwoStage
