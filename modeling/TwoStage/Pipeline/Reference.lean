import TwoStage.Spec.Spec

/-!
# Names of images

## Main definitions

- `repository` — the name of an image without tag and digest
- `Spec.builderTag` — the name of the image that the build stage becomes
-/

namespace TwoStage

/-- The characters before the last `/` and those behind it. -/
def splitAtLastSlash (cs : List Char) : List Char × List Char :=
  let reversed := cs.reverse
  match cutAt '/' reversed with
  | (last, some head) => (head.reverse, last.reverse)
  | (last, none) => ([], last.reverse)

/-- The name of an image without tag and digest. -/
def repository (image : String) : String :=
  let (head, last) := splitAtLastSlash (cutAt '@' image.toList).1
  let name := (cutAt ':' last).1
  String.ofList (if head.isEmpty then name else head ++ '/' :: name)

/-- The tag of the image of the build stage. The digest of the sources makes it one of its own for
each source tree, and it never is the tag of the finished image. -/
def Spec.builderTag (spec : Spec) (sourceDigest : String) : String :=
  let tag := repository spec.image ++ ":" ++ spec.build.name ++ "-" ++
    String.ofList (sourceDigest.toList.take 12)
  if tag = spec.image then tag ++ "-stage" else tag

end TwoStage
