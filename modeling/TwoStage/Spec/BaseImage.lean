import TwoStage.Spec.Pattern
import TwoStage.Spec.Read
import TwoStage.Text.Blank

/-!
# Base images

The image that a stage starts from: a name, a tag that pins its version, perhaps a digest, and the
package manager inside it, which is guessed when it is not given.

## Main definitions

- `PackageManager`, `BaseImage` — the types
- `BaseImage.reference` — how a `FROM` line names the image
- `BaseImage.manager` — the package manager inside it
- `BaseImage.ofJson`, `BaseImage.toJson` — from and to JSON
-/

namespace TwoStage

/-- The package managers that can install packages into a stage. -/
inductive PackageManager where
  | apk
  | apt
  deriving Repr, DecidableEq

/-- The name of a package manager. -/
def PackageManager.name : PackageManager → String
  | apk => "apk"
  | apt => "apt"

/-- Reads the name of a package manager. -/
def PackageManager.ofJson : Json → Verdict PackageManager
  | .str s =>
    if s = "apk" then .accepted apk
    else if s = "apt" then .accepted apt
    else .problem (.notChoice "apk" "apt")
  | _ => .problem (.notChoice "apk" "apt")

/-- The image that a stage starts from. -/
structure BaseImage where
  image : String
  tag : String
  digest : Option String
  packageManager : Option PackageManager
  deriving Repr, DecidableEq

namespace BaseImage

/-- How a `FROM` line names the image. -/
def reference (base : BaseImage) : String :=
  let pinned := base.image ++ ":" ++ base.tag
  match base.digest with
  | none => pinned
  | some digest => if digest.isEmpty then pinned else pinned ++ "@" ++ digest

/-- The last component of a name of an image. -/
def lastComponent (image : String) : String :=
  String.ofList ((splitAtEach '/' image.toList).getLast?.getD [])

/-- The package manager inside the image: the one given, else by what the name and tag tell. -/
def manager (base : BaseImage) : PackageManager :=
  match base.packageManager with
  | some manager => manager
  | none =>
    if lastComponent base.image = "alpine" || isAlpineTag base.tag then .apk else .apt

/-- Reads a tag without the blanks around it; it must pin a version. -/
def tagOfJson (value : Json) : Verdict String :=
  ((Read.text value).map strip).subjectTo fun tag =>
    if tag.isEmpty || tag = "latest" then some .unpinnedTag else none

/-- Reads a digest, which may be null. -/
def digestOfJson (value : Json) : Verdict (Option String) :=
  (Read.nullable Read.text value).subjectTo fun digest =>
    if digest.all isDigestText then none else some .digestForm

/-- Reads a base image from the members of an object. -/
def ofMembers (members : List (String × Json)) : Verdict BaseImage :=
  mk <$> Read.required "image" Read.text members
    <*> Read.required "tag" tagOfJson members
    <*> Read.optional "digest" none digestOfJson members
    <*> Read.optional "package_manager" none (Read.nullable PackageManager.ofJson) members

/-- Reads a base image. -/
def ofJson (value : Json) : Verdict BaseImage := Read.record "BaseEnvironment" ofMembers value

/-- A base image in JSON. -/
def toJson (base : BaseImage) : Json :=
  .obj [("image", .str base.image), ("tag", .str base.tag),
    ("digest", base.digest.elim .null .str),
    ("package_manager", base.packageManager.elim .null fun manager => .str manager.name)]

end BaseImage

end TwoStage
