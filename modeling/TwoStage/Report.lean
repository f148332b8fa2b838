import TwoStage.Spec.Read

/-!
# Reports on an image

What checking an image finds: one finding a check.

## Main definitions

- `Finding` — the outcome of one check
- `Report` — the outcomes of all checks of an image
-/

namespace TwoStage

/-- The outcome of one check. -/
structure Finding where
  name : String
  passed : Bool
  skipped : Bool
  detail : String
  deriving Repr, DecidableEq

namespace Finding

/-- Reads a finding. -/
def ofJson (value : Json) : Verdict Finding :=
  Read.record "CheckResult"
    (fun members =>
      mk <$> Read.required "name" Read.text members
        <*> Read.required "passed" Read.flag members
        <*> Read.optional "skipped" false Read.flag members
        <*> Read.optional "detail" "" Read.text members)
    value

/-- A finding in JSON. -/
def toJson (finding : Finding) : Json :=
  .obj [("name", .str finding.name), ("passed", .bool finding.passed),
    ("skipped", .bool finding.skipped), ("detail", .str finding.detail)]

end Finding

/-- The findings on an image, in the order of the checks. -/
structure Report where
  image : String
  checks : List Finding
  deriving Repr, DecidableEq

namespace Report

/-- Whether no check failed. -/
def isOk (report : Report) : Bool := report.checks.all fun check => check.passed || check.skipped

/-- Reads a report. -/
def ofJson (value : Json) : Verdict Report :=
  Read.record "VerifyReport"
    (fun members =>
      mk <$> Read.required "image" Read.text members
        <*> Read.optional "checks" [] (Read.list Finding.ofJson) members)
    value

/-- A report in JSON. -/
def toJson (report : Report) : Json :=
  .obj [("image", .str report.image), ("checks", .arr (report.checks.map Finding.toJson))]

end Report

end TwoStage
