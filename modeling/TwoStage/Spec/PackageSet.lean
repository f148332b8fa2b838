import TwoStage.Spec.Pattern
import TwoStage.Spec.Read

/-!
# Packages to install

The packages that a stage adds to its base image: the toolchain of the build stage and the libraries
that the finished program needs.

## Main definitions

- `PackageSet` — names of packages, in order
- `PackageSet.toolchain`, `PackageSet.runtime` — the stock sets of the two stages
-/

namespace TwoStage

/-- Names of packages, in the order in which they are installed. -/
structure PackageSet where
  packages : List String
  deriving Repr, DecidableEq

namespace PackageSet

/-- No packages. -/
def empty : PackageSet := ⟨[]⟩

/-- The stock toolchain of the build stage. -/
def toolchain : PackageSet :=
  ⟨["git", "clang", "lld", "musl-dev", "nodejs", "npm", "openssl-dev", "pkgconfig", "g++",
    "protobuf-dev"]⟩

/-- The stock libraries of the final stage. -/
def runtime : PackageSet := ⟨["libstdc++"]⟩

/-- Reads names of packages. -/
def packagesOfJson (value : Json) : Verdict (List String) :=
  (Read.list Read.text value).subjectTo fun names =>
    (names.find? fun name => !isPackageName name).map Objection.packageName

/-- Reads a set of packages, `default` being the one that an empty object stands for. -/
def ofJson (kind : String) (default : PackageSet) (value : Json) : Verdict PackageSet :=
  Read.record kind
    (fun members => mk <$> Read.optional "packages" default.packages packagesOfJson members) value

/-- A set of packages in JSON. -/
def toJson (set : PackageSet) : Json := .obj [("packages", .ofStrings set.packages)]

end PackageSet

end TwoStage
