import TwoStage.Json.Reader
import TwoStage.Schema
import TwoStage.Spec.Spec

/-!
# Configurations

A configuration is a JSON object that changes the stock pipeline in part. It must fit the schema
first, and then the rules of its fields. Integers of any length are read in it; but one that is too
long to be written ends what was to be done where it is to be written, be it in the wording of a
violation or in a Dockerfile.

## Main definitions

- `ConfigError` — why there is no specification
- `Config.validate` — refuses what does not fit the schema
- `Config.parse` — the specification that a configuration stands for
-/

namespace TwoStage

/-- Why a configuration gives no specification, or none that can be rendered. -/
inductive ConfigError where
  /-- The first violation of the schema. -/
  | violation (place : Place) (what : Violation)
  /-- All that breaks the rules of the fields. -/
  | faults (found : List Fault)
  /-- There is no file of that name. -/
  | notFound (path : String)
  /-- The file holds no JSON. -/
  | notJson (path : String) (fault : Json.Fault)
  /-- The file holds JSON, but no object. -/
  | notObject (path : String)
  /-- An integer is too long to be written. No error is raised on purpose for that. -/
  | longInteger
  deriving Repr

/-- The first line of a report on faults in a record of the named kind. -/
def faultsSummary (kind : String) (found : List Fault) : String :=
  toString found.length ++ (if found.length = 1 then " validation error" else " validation errors")
    ++ " for " ++ kind

/-- The wording of an error; of a report on faults, its first line. -/
def ConfigError.message : ConfigError → String
  | violation place what =>
    let site := joinWith "/" (place.map Step.text)
    "pipeline config invalid at " ++ (if site.isEmpty then "<root>" else site) ++ ": " ++
      what.message
  | faults found => "pipeline config invalid: " ++ faultsSummary "PipelineSpec" found
  | notFound path => "config file not found: " ++ path
  | notJson path fault => "config file is not valid JSON: " ++ path ++ ": " ++ fault.message
  | notObject path => "config file must hold a JSON object: " ++ path
  | longInteger =>
    "Exceeds the limit (" ++ toString Json.integerDigitLimit ++
      " digits) for integer string conversion; use sys.set_int_max_str_digits() to increase the limit"

namespace Config

/-- Refuses a value that does not fit the schema, with the first violation if that can be worded. -/
def validate (value : Json) : Except ConfigError Unit :=
  match Schema.pipeline.violation? value with
  | some (place, what) => .error (if what.isShowable then .violation place what else .longInteger)
  | none => .ok ()

/-- The specification that a configuration stands for. -/
def parse (value : Json) : Except ConfigError Spec :=
  match validate value with
  | .error e => .error e
  | .ok () =>
    match Spec.ofJson value with
    | .accepted spec => .ok spec
    | .refused found => .error (.faults found)

end Config

end TwoStage
