import TwoStage.Bindings
import TwoStage.Number.Binary64

/-!
# JSON values

Values with their members in order, and with integers kept apart from numbers in binary64.

## Main definitions

- `Json` — a value
- `Json.ofStrings`, `Json.ofBindings` — arrays and objects of texts
- `Json.isWritable` — integers that are not too long to be written
-/

namespace TwoStage

/-- A JSON value. The names of an object's members are distinct and their order counts. -/
inductive Json where
  | null
  | bool (b : Bool)
  | int (n : Int)
  | float (x : Binary64)
  | str (s : String)
  | arr (items : List Json)
  | obj (members : List (String × Json))
  deriving Repr

namespace Json

/-- The greatest number of digits of an integer that is read or written. -/
def integerDigitLimit : Nat := 4300

/-- Whether an integer has few enough digits to be written. -/
def isWritable (n : Int) : Bool := (Nat.toDigits 10 n.natAbs).length ≤ integerDigitLimit

/-- An array of texts. -/
def ofStrings (texts : List String) : Json := arr (texts.map str)

/-- An object of texts. -/
def ofBindings (bindings : Bindings String) : Json := obj (bindings.map fun (k, v) => (k, str v))

/-- Whether a value stands for "something": not null, false, zero or empty. -/
def isTruthy : Json → Bool
  | null => false
  | bool b => b
  | int n => n != 0
  | float x => !x.isZero
  | str s => !s.isEmpty
  | arr items => !items.isEmpty
  | obj members => !members.isEmpty

end Json

end TwoStage
