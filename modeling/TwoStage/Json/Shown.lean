import TwoStage.Json.Value
import TwoStage.Number.Shortest
import TwoStage.Text.Lines
import TwoStage.Text.Literal

/-!
# JSON values in messages

Messages show a value with its texts as literals, and with the words `None`, `True` and `False`. A
value with an integer that is too long to be written cannot be shown at all.

## Main definitions

- `Json.isShowable` — whether messages can show a value
- `Json.shown` — a value as messages show it
- `Json.plain` — the same, but a text that is the whole value stands without quotes
-/

namespace TwoStage.Json

mutual

/-- Whether a value can be shown: none of the integers in it is too long to be written. -/
def isShowable : Json → Bool
  | int n => isWritable n
  | arr items => areShowable items
  | obj members => membersAreShowable members
  | _ => true

/-- Whether all items can be shown. -/
def areShowable : List Json → Bool
  | [] => true
  | item :: rest => isShowable item && areShowable rest

/-- Whether all members can be shown. -/
def membersAreShowable : List (String × Json) → Bool
  | [] => true
  | (_, value) :: rest => isShowable value && membersAreShowable rest

end

mutual

/-- A value as messages show it. -/
def shown : Json → String
  | null => "None"
  | bool b => if b then "True" else "False"
  | int n => toString n
  | float x => x.text
  | str s => literal s
  | arr items => "[" ++ joinWith ", " (shownItems items) ++ "]"
  | obj members => "\x7b" ++ joinWith ", " (shownMembers members) ++ "\x7d"

/-- Each item as messages show it. -/
def shownItems : List Json → List String
  | [] => []
  | item :: rest => shown item :: shownItems rest

/-- Each member as messages show it. -/
def shownMembers : List (String × Json) → List String
  | [] => []
  | (name, value) :: rest => (literal name ++ ": " ++ shown value) :: shownMembers rest

end

/-- A value inside a sentence: a text as it is, anything else as messages show it. -/
def plain : Json → String
  | str s => s
  | value => shown value

end TwoStage.Json
