import TwoStage.Spec.Pattern
import TwoStage.Spec.Read
import TwoStage.Text.Lines

/-!
# Build environment

The knobs of compiler and linker, and the environment variables they come down to.

## Main definitions

- `BuildEnvironment` — the knobs
- `BuildEnvironment.compilerFlags` — the flags of the compiler
- `BuildEnvironment.assignments` — the environment variables of the build stage, in order
- `BuildEnvironment.isWritable` — whether these can be written
-/

namespace TwoStage

/-- The knobs of the build stage. -/
structure BuildEnvironment where
  incremental : Bool
  netRetry : Nat
  linker : Option String
  staticRuntime : Bool
  extra : Bindings String
  deriving Repr, DecidableEq

namespace BuildEnvironment

/-- The stock knobs. -/
def standard : BuildEnvironment := ⟨false, 10, some "lld", false, []⟩

/-- The flag that chooses the linker. -/
def linkerFlags (env : BuildEnvironment) : List String :=
  match env.linker with
  | none => []
  | some linker => if linker.isEmpty then [] else ["-C link-arg=-fuse-ld=" ++ linker]

/-- The flags of the compiler. -/
def compilerFlags (env : BuildEnvironment) : String :=
  let sign := if env.staticRuntime then "+" else "-"
  joinWith " " (env.linkerFlags ++ ["-C target-feature=" ++ sign ++ "crt-static"])

/-- The environment variables that the knobs come down to. -/
def builtin (env : BuildEnvironment) : Bindings String :=
  [("CARGO_INCREMENTAL", if env.incremental then "1" else "0"),
   ("CARGO_NET_RETRY", toString env.netRetry),
   ("RUSTFLAGS", env.compilerFlags)]

/-- The environment variables of the build stage: the extra ones go over those of the knobs. -/
def assignments (env : BuildEnvironment) : Bindings String := env.builtin.overlay env.extra

/-- Whether the environment variables can be written: the count is not too long for that. -/
def isWritable (env : BuildEnvironment) : Bool := Json.isWritable env.netRetry

/-- Whether a value fits on one line. -/
def isSingleLine (value : String) : Bool := !value.toList.any fun c => c = '\n' || c = '\r'

/-- The first objection to extra variables. -/
def objectionTo? : Bindings String → Option Objection
  | [] => none
  | (name, value) :: rest =>
    if !isVariableName name then some (.variableName name)
    else if !isSingleLine value then some (.variableLines name)
    else objectionTo? rest

/-- Reads the extra variables. -/
def extraOfJson (value : Json) : Verdict (Bindings String) :=
  (Read.textTable value).subjectTo objectionTo?

/-- Reads a build environment. -/
def ofJson (value : Json) : Verdict BuildEnvironment :=
  Read.record "BuildEnvironment"
    (fun members =>
      mk <$> Read.optional "incremental" standard.incremental Read.flag members
        <*> Read.optional "net_retry" standard.netRetry Read.count members
        <*> Read.optional "linker" standard.linker (Read.nullable Read.text) members
        <*> Read.optional "crt_static" standard.staticRuntime Read.flag members
        <*> Read.optional "extra" standard.extra extraOfJson members)
    value

/-- A build environment in JSON. -/
def toJson (env : BuildEnvironment) : Json :=
  .obj [("incremental", .bool env.incremental), ("net_retry", .int env.netRetry),
    ("linker", env.linker.elim .null .str), ("crt_static", .bool env.staticRuntime),
    ("extra", .ofBindings env.extra)]

end BuildEnvironment

end TwoStage
