import TwoStage.Text.Blank
import TwoStage.Text.Case
import TwoStage.Text.Search

/-!
# Comparing digests

Two spellings of a digest agree if they differ only in the blanks around them, in the name of the
algorithm in front, and in capital letters.
-/

namespace TwoStage

/-- A digest without blanks and without the name of its algorithm, in small letters. -/
def bareDigest (digest : String) : String :=
  let cs := stripChars digest.toList
  lower (String.ofList ((afterStart? "sha256:".toList cs).getD cs))

/-- Whether two spellings of a digest agree; an empty one agrees with none. -/
def sameDigest (got recorded : String) : Bool :=
  !(bareDigest recorded).isEmpty && bareDigest got == bareDigest recorded

end TwoStage
