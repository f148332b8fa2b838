import TwoStage.Json.Shown
import TwoStage.Spec.Pattern
import TwoStage.Spec.Verdict

/-!
# Schemas of configurations

Which members a configuration may have and what form their values must have. A value is checked
against a schema depth first, and the first violation ends the check: first its kind, then the
members that must be there, then those that must not, then the members in the order of the schema.

## Main definitions

- `Schema` — the forms of values
- `Violation` — how a value can fall short of its form
- `Schema.violation?` — the first violation in a value, and where it stands
- `Schema.pipeline` — the form of a configuration of a pipeline
-/

namespace TwoStage

/-- Shapes that a text can be required to have. -/
inductive TextShape where
  | absolute
  | plainPath
  | digest
  deriving Repr, DecidableEq

namespace TextShape

/-- The pattern that messages give for a shape. -/
def pattern : TextShape → String
  | absolute => "^/"
  | plainPath => "^/[A-Za-z0-9._/-]+$"
  | digest => "^sha256:[0-9a-f]\x7b64\x7d$"

/-- Whether a text has a shape. -/
def fits : TextShape → String → Bool
  | absolute, s => s.toList.head? = some '/'
  | plainPath, s => isPlainPath s
  | digest, s => isDigestLine s

end TextShape

/-- Rules for texts. -/
inductive TextRule where
  | nonEmpty
  | not (word : String)
  | shape (shape : TextShape)
  deriving Repr, DecidableEq

/-- The forms of values. -/
inductive Schema where
  | text (nullable : Bool) (rules : List TextRule)
  | flag
  /-- An integer that is not negative. -/
  | count
  /-- One of some words, or null. -/
  | choice (words : List String)
  | list (nonEmpty : Bool) (item : Schema)
  /-- An object of texts. -/
  | table
  | record (required : List String) (fields : List (String × Schema))
  deriving Repr

/-- How a value can fall short of its form. -/
inductive Violation where
  | kind (value : Json) (kinds : List String)
  | missing (name : String)
  | unexpected (names : List String)
  | empty (value : Json)
  | forbidden (text word : String)
  | shape (text : String) (shape : TextShape)
  | choice (value : Json) (words : List String)
  | minimum (value : Json)
  deriving Repr

namespace Violation

/-- Whether a violation can be worded: the wording of some shows the value. -/
def isShowable : Violation → Bool
  | kind value _ | empty value | choice value _ | minimum value => value.isShowable
  | _ => true

/-- The wording of a violation. -/
def message : Violation → String
  | kind value kinds => value.shown ++ " is not of type " ++ joinWith ", " (kinds.map literal)
  | missing name => literal name ++ " is a required property"
  | unexpected names =>
    "Additional properties are not allowed (" ++ joinWith ", " (names.map literal) ++
      (if names.length = 1 then " was" else " were") ++ " unexpected)"
  | empty value => value.shown ++ " should be non-empty"
  | forbidden text word =>
    literal text ++ " should not be valid under \x7b'const': " ++ literal word ++ "\x7d"
  | shape text wanted => literal text ++ " does not match " ++ literal wanted.pattern
  | choice value words =>
    value.shown ++ " is not one of [" ++ joinWith ", " (words.map literal ++ ["None"]) ++ "]"
  | minimum value => value.shown ++ " is less than the minimum of 0"

end Violation

namespace Schema

/-- The first rule that a text breaks. -/
def brokenRule? (s : String) : List TextRule → Option Violation
  | [] => none
  | .nonEmpty :: rest => if s.isEmpty then some (.empty (.str s)) else brokenRule? s rest
  | .not word :: rest => if s = word then some (.forbidden s word) else brokenRule? s rest
  | .shape shape :: rest => if shape.fits s then brokenRule? s rest else some (.shape s shape)

/-- The integer that a value is; a number without fraction is one. -/
def integer? : Json → Option Int
  | .int n => some n
  | .float x => x.toInt?
  | _ => none

/-- The first value of a table that is no text. -/
def nonText? : List (String × Json) → Option (Place × Violation)
  | [] => none
  | (_, .str _) :: rest => nonText? rest
  | (name, value) :: _ => some ([.member name], .kind value ["string"])

/-- The names of members that a record has no field for, in order of code points. -/
def strayNames (fields : List String) (members : List (String × Json)) : List String :=
  ((members.map Prod.fst).filter fun name => !fields.contains name).mergeSort (· ≤ ·)

/-- The first violation in the items of a list, the first one being number `index`. -/
def inItems (check : Json → Option (Place × Violation)) (index : Nat) :
    List Json → Option (Place × Violation)
  | [] => none
  | item :: rest =>
    match check item with
    | some (place, what) => some (.item index :: place, what)
    | none => inItems check (index + 1) rest

mutual

/-- The first violation in a value, and where it stands. -/
def violation? : Schema → Json → Option (Place × Violation)
  | text nullable rules, value =>
    match value with
    | .str s => (brokenRule? s rules).map ([], ·)
    | .null => if nullable then none else some ([], .kind value ["string"])
    | _ => some ([], .kind value (if nullable then ["string", "null"] else ["string"]))
  | flag, value =>
    match value with
    | .bool _ => none
    | _ => some ([], .kind value ["boolean"])
  | count, value =>
    match integer? value with
    | none => some ([], .kind value ["integer"])
    | some n => if n < 0 then some ([], .minimum value) else none
  | choice words, value =>
    match value with
    | .null => none
    | .str s => if words.contains s then none else some ([], .choice value words)
    | _ => some ([], .choice value words)
  | list nonEmpty item, value =>
    match value with
    | .arr items =>
      if nonEmpty && items.isEmpty then some ([], .empty value)
      else inItems (fun v => violation? item v) 0 items
    | _ => some ([], .kind value ["array"])
  | table, value =>
    match value with
    | .obj members => nonText? members
    | _ => some ([], .kind value ["object"])
  | record required fields, value =>
    match value with
    | .obj members =>
      match required.find? fun name => (members.lookup name).isNone with
      | some name => some ([], .missing name)
      | none =>
        match strayNames (fields.map Prod.fst) members with
        | [] => inFields fields members
        | stray => some ([], .unexpected stray)
    | _ => some ([], .kind value ["object"])

/-- The first violation in the members for which there are fields, in the order of these. -/
def inFields : List (String × Schema) → List (String × Json) → Option (Place × Violation)
  | [], _ => none
  | (name, schema) :: rest, members =>
    match members.lookup name with
    | none => inFields rest members
    | some value =>
      match violation? schema value with
      | some (place, what) => some (.member name :: place, what)
      | none => inFields rest members

end

/-- The form of a text that is not empty. -/
def name : Schema := text false [.nonEmpty]

/-- The form of a plain absolute path. -/
def plainPath : Schema := text false [.shape .plainPath]

/-- The form of a base image. -/
def baseImage : Schema :=
  record ["image", "tag"]
    [("image", name),
     ("tag", text false [.nonEmpty, .not "latest"]),
     ("digest", text true [.shape .digest]),
     ("package_manager", choice ["apk", "apt"])]

/-- The form of a set of packages. -/
def packageSet : Schema := record [] [("packages", list false name)]

/-- The form of a source input. -/
def sourceInput : Schema :=
  record [] [("paths", list true name), ("workdir", text false [.shape .absolute])]

/-- The form of a build environment. -/
def buildEnvironment : Schema :=
  record []
    [("incremental", flag), ("net_retry", count), ("linker", text true []), ("crt_static", flag),
     ("extra", table)]

/-- The form of a build stage. -/
def buildStage : Schema :=
  record []
    [("name", name), ("base", baseImage), ("toolchain", packageSet), ("sources", sourceInput),
     ("env", buildEnvironment), ("command", list true (text false [])),
     ("install_root", plainPath), ("binary", name)]

/-- The form of an identity. -/
def identity : Schema :=
  record [] [("name", text false [.nonEmpty, .not "root"]), ("shell", plainPath)]

/-- The form of an entrypoint. -/
def entrypoint : Schema := record [] [("path", plainPath)]

/-- The form of a final stage. -/
def finalStage : Schema :=
  record []
    [("name", name), ("base", baseImage), ("runtime", packageSet), ("identity", identity),
     ("entrypoint", entrypoint)]

/-- The form of a configuration. -/
def pipeline : Schema :=
  record []
    [("$schema", text false []), ("image", name), ("labels", table), ("build", buildStage),
     ("final", finalStage)]

end Schema

end TwoStage
