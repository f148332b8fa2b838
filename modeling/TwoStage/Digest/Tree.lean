import TwoStage.Digest.Sha256
import TwoStage.FileTree.Basic
import TwoStage.Text.Utf8

/-!
# Digests of file trees

The names and the bytes of all files under a location, in order of the names, make one digest. It
does not depend on times or on the order in which a directory is read.
-/

namespace TwoStage.FileTree

/-- What one file adds to the digest of a tree: its name, a zero byte, its hash and a line end. -/
def digestEntry (name : String) (bytes : ByteArray) : ByteArray :=
  (utf8Bytes name).push 0 ++ (utf8Bytes (sha256 bytes)).push 0x0a

/-- What all files add, one after the other. -/
def digestInput (files : List (String × ByteArray)) : ByteArray :=
  files.foldl (fun input file => input ++ digestEntry file.1 file.2) ByteArray.empty

/-- The digest of all files under a location. -/
def digest (t : FileTree) (loc : Location) : String :=
  sha256 (digestInput (t.sortedFilesBelow loc))

end TwoStage.FileTree
