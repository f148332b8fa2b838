import TwoStage.Text.Search

/-!
# Reading arguments

Words of a command line are options or operands. A long option starts with two dashes and may carry
its value behind `=`; short options are single letters behind one dash and can stand together, the
last of them with its value behind it. A value is the next word if it is not attached. The word `--`
ends the options.

## Main definitions

- `Switch` — an option that a command knows
- `Arguments` — the options and operands that were read
- `Arguments.read` — reads words; `none` if they make no sense
-/

namespace TwoStage.Cli

/-- An option that a command knows: its long name, its letter if it has one, and whether it takes a
value. -/
structure Switch where
  name : String
  letter : Option Char
  takesValue : Bool
  deriving Repr, DecidableEq

/-- How a command reads its words: its options, whether operands may stand before options, and
whether options that it does not know are taken for operands. -/
structure Grammar where
  switches : List Switch
  mixed : Bool
  lenient : Bool
  deriving Repr, DecidableEq

/-- The options in order, each with its value if it takes one, and the operands in order. -/
structure Arguments where
  options : List (String × Option String)
  operands : List String
  deriving Repr, DecidableEq

/-- What one word comes to. -/
inductive Meaning where
  | operand
  /-- Options, and an operand made of what is not known. -/
  | options (found : List (String × Option String)) (unknown : List String)
  /-- The same, with one more option whose value is the next word. -/
  | pending (found : List (String × Option String)) (name : String) (unknown : List String)
  | nonsense
  deriving Repr, DecidableEq

namespace Grammar

/-- The option of a long name. -/
def byName? (g : Grammar) (name : String) : Option Switch :=
  g.switches.find? fun switch => "--" ++ switch.name = name

/-- The option of a letter. -/
def byLetter? (g : Grammar) (letter : Char) : Option Switch :=
  g.switches.find? fun switch => switch.letter = some letter

/-- The operand that letters which are not known come to. -/
def strayLetters (letters : List Char) : List String :=
  if letters.isEmpty then [] else [String.ofList ('-' :: letters)]

/-- Reads letters that stand together. `found` holds the options before, `stray` the letters before
that are not known, last one first. -/
def readLetters (g : Grammar) (found : List (String × Option String)) (stray : List Char) :
    List Char → Meaning
  | [] => .options found (strayLetters stray.reverse)
  | c :: rest =>
    match g.byLetter? c with
    | none => if g.lenient then readLetters g found (c :: stray) rest else .nonsense
    | some switch =>
      if switch.takesValue then
        if rest.isEmpty then .pending found switch.name (strayLetters stray.reverse)
        else
          .options (found ++ [(switch.name, some (String.ofList rest))])
            (strayLetters stray.reverse)
      else readLetters g (found ++ [(switch.name, none)]) stray rest

/-- Reads a word that starts with a dash and goes on. -/
def readDashed (g : Grammar) (word : String) : Meaning :=
  let (name, value) := cutAt '=' word.toList
  match g.byName? (String.ofList name) with
  | some switch =>
    match value with
    | none =>
      if switch.takesValue then .pending [] switch.name []
      else .options [(switch.name, none)] []
    | some value =>
      if switch.takesValue then .options [(switch.name, some (String.ofList value))] []
      else .nonsense
  | none =>
    match word.toList with
    | '-' :: '-' :: _ => if g.lenient then .options [] [word] else .nonsense
    | _ :: letters => readLetters g [] [] letters
    | [] => .nonsense

/-- What a word comes to. -/
def meaning (g : Grammar) (word : String) : Meaning :=
  match word.toList with
  | '-' :: _ :: _ => g.readDashed word
  | _ => .operand

end Grammar

namespace Arguments

/-- Adds options and operands behind those read. -/
def add (a : Arguments) (options : List (String × Option String)) (operands : List String) :
    Arguments :=
  ⟨a.options ++ options, a.operands ++ operands⟩

/-- Reads words behind those read already. -/
def readFrom (g : Grammar) (a : Arguments) : List String → Option Arguments
  | [] => some a
  | word :: rest =>
    if word = "--" then some (a.add [] rest)
    else
      match g.meaning word with
      | .nonsense => none
      | .operand =>
        if g.mixed then readFrom g (a.add [] [word]) rest else some (a.add [] (word :: rest))
      | .options found unknown => readFrom g (a.add found unknown) rest
      | .pending found name unknown =>
        match rest with
        | [] => none
        | value :: rest => readFrom g (a.add (found ++ [(name, some value)]) unknown) rest

/-- Reads words; `none` if an option is not known, lacks its value or has one that it must not
have. -/
def read (g : Grammar) (words : List String) : Option Arguments := readFrom g ⟨[], []⟩ words

/-- Whether an option was given. -/
def has (a : Arguments) (name : String) : Bool := a.options.any fun option => option.1 = name

/-- All values of an option, in order. -/
def values (a : Arguments) (name : String) : List String :=
  a.options.filterMap fun option => if option.1 = name then option.2 else none

/-- The last value of an option. -/
def value? (a : Arguments) (name : String) : Option String := (a.values name).getLast?

end Arguments

end TwoStage.Cli
