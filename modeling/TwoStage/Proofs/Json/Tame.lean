import TwoStage.Json.Reader

/-!
# Texts that all readers take alike

A character beyond the first plane can be written as two halves, and a half that stands alone is no
character: some readers keep it, others replace it. And a text can be nested deeper than a reader
can follow. What is said of any reader is said of texts without either.

## Main definitions

- `Json.pairsHalves` — no half of a character stands alone
- `Json.nestingFrom` — how deep the brackets of a text are nested
- `Json.IsTame` — texts with neither fault
-/

namespace TwoStage.Json

/-- Whether the halves of characters that are written with an escape make pairs. `half` tells that a
first one stands right before the text. Where an escape has no digits, the text is no JSON. -/
def pairsHalves : (half : Bool) → List Char → Bool
  | half, [] => !half
  | half, '\\' :: 'u' :: a :: b :: c :: d :: rest =>
    match unit? a b c d with
    | none => true
    | some unit =>
      if isSecondHalf unit then half && pairsHalves false rest
      else !half && pairsHalves (isFirstHalf unit) rest
  | half, '\\' :: _ :: rest => !half && pairsHalves false rest
  | half, _ :: rest => !half && pairsHalves false rest

/-- How deep the brackets are nested that stand outside of strings, from the depth on at which the
text starts. -/
def nestingFrom : (inString : Bool) → (depth : Nat) → List Char → Nat
  | _, depth, [] => depth
  | true, depth, '\\' :: _ :: rest => nestingFrom true depth rest
  | true, depth, c :: rest => nestingFrom (c ≠ '\x22') depth rest
  | false, depth, c :: rest =>
    if c = '\x22' then nestingFrom true depth rest
    else if c = '[' || c = '{' then nestingFrom false (depth + 1) rest
    else if c = ']' || c = '}' then max depth (nestingFrom false (depth - 1) rest)
    else nestingFrom false depth rest

/-- How deep a text may be nested for any reader. -/
def nestingLimit : Nat := 500

/-- A text in which no half of a character stands alone, and which is not nested too deep. -/
structure IsTame (text : String) : Prop where
  halves : pairsHalves false text.toList = true
  nesting : nestingFrom false 0 text.toList ≤ nestingLimit

instance (text : String) : Decidable (IsTame text) :=
  decidable_of_iff
    (pairsHalves false text.toList = true ∧ nestingFrom false 0 text.toList ≤ nestingLimit)
    ⟨fun h => ⟨h.1, h.2⟩, fun h => ⟨h.halves, h.nesting⟩⟩

end TwoStage.Json
