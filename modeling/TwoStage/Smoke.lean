import TwoStage.Engine.Client

/-!
# Starting an image

Arguments, ports and environment are those of the program inside: they are passed through as they
are, and its exit code is given back.
-/

namespace TwoStage

/-- Whether a text is a name and a value with `=` between them. -/
def isPair (text : String) : Bool := text.toList.contains '='

/-- What an image is started with. -/
structure SmokeOrder where
  image : String
  args : List String
  publish : List String
  env : List String
  deriving Repr, DecidableEq

namespace SmokeOrder

/-- Reports on a run. -/
def log (message : String) : Act Unit :=
  Act.report (.plain .info "conformance.runner" message)

/-- Starts the image: the exit code of the program inside. -/
def run (order : SmokeOrder) (client : Client) : Act Int :=
  match order.env.find? fun text => !isPair text with
  | some text => Act.fail (.notPair text)
  | none => do
    log ("running " ++ order.image ++ " " ++ joinWith " " order.args)
    let outcome ← client.run
      { image := order.image, args := order.args, entrypoint := none, publish := order.publish
        env := order.env, capture := false }
    log (order.image ++ " exited with " ++ toString outcome.code)
    return outcome.code

end SmokeOrder

end TwoStage
