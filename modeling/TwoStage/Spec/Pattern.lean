import TwoStage.Text.Search

/-!
# Patterns of names and paths

The shapes that names, paths and digests must have. Most of them look at a text up to its end or up
to a line feed that ends it.

## Main definitions

- `isPackageName`, `isVariableName`, `isUserName`, `isBinaryName` — names
- `isPlainPath` — absolute paths of plain characters
- `isDigestText` — digests of images
- `isAlpineTag` — tags of images that are built on Alpine
-/

namespace TwoStage

/-- The characters without a line feed that ends them. -/
def dropFinalNewline (cs : List Char) : List Char :=
  if cs.getLast? = some '\n' then cs.dropLast else cs

/-- Whether the first character is of one class and all others of another. -/
def startsAndGoesOn (start goOn : Char → Bool) : List Char → Bool
  | [] => false
  | c :: rest => start c && rest.all goOn

/-- Whether a text names a package, perhaps with a version behind it. -/
def isPackageName (s : String) : Bool :=
  startsAndGoesOn Char.isAlphanum
    (fun c => c.isAlphanum || c ∈ ['.', '+', '_', ':', '=', '~', '-']) (dropFinalNewline s.toList)

/-- Whether a text names an environment variable. -/
def isVariableName (s : String) : Bool :=
  startsAndGoesOn (fun c => c.isAlpha || c = '_') (fun c => c.isAlphanum || c = '_')
    (dropFinalNewline s.toList)

/-- Whether a text names a user: at most 32 characters, small letters, digits, `_` and `-`, with no
digit or `-` in front. -/
def isUserName (s : String) : Bool :=
  let cs := dropFinalNewline s.toList
  startsAndGoesOn (fun c => c.isLower || c = '_')
    (fun c => c.isLower || c.isDigit || c = '_' || c = '-') cs && cs.length ≤ 32

/-- Whether a text names an executable. -/
def isBinaryName (s : String) : Bool :=
  startsAndGoesOn Char.isAlphanum (fun c => c.isAlphanum || c ∈ ['.', '_', '-'])
    (dropFinalNewline s.toList)

/-- Whether a character may stand in a plain path. -/
def isPathChar (c : Char) : Bool := c.isAlphanum || c ∈ ['.', '_', '/', '-']

/-- Whether a text is an absolute path of plain characters, and not the root alone. -/
def isPlainPath (s : String) : Bool :=
  match dropFinalNewline s.toList with
  | '/' :: c :: rest => (c :: rest).all isPathChar
  | _ => false

/-- Whether characters are a digest: its algorithm and 64 small hexadecimal digits. -/
def isDigestChars (cs : List Char) : Bool :=
  match afterStart? "sha256:".toList cs with
  | some digits =>
    digits.length = 64 && digits.all fun c => c.isDigit || 'a' ≤ c && c ≤ 'f'
  | none => false

/-- Whether a text is a digest. -/
def isDigestText (s : String) : Bool := isDigestChars s.toList

/-- Whether a text is a digest up to a line feed that ends it. -/
def isDigestLine (s : String) : Bool := isDigestChars (dropFinalNewline s.toList)

/-- Whether a tag says that an image is built on Alpine. -/
def isAlpineTag (tag : String) : Bool :=
  "alpine".toList.isPrefixOf tag.toList || contains tag "-alpine"

end TwoStage
