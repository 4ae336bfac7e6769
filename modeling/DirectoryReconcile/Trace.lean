import DirectoryReconcile.Json

/-!
# Traces

What a reconciliation looked up, decided and sent, in order.
-/

namespace DirectoryReconcile

inductive Stage where
  | validate
  | find
  | plan
  | call
  | skipped
  | fault
  | done
deriving DecidableEq, Repr, Inhabited

structure Event where
  stage : Stage
  method : Option String
  detail : String
deriving DecidableEq, Repr

namespace Stage

def all : List Stage := [.validate, .find, .plan, .call, .skipped, .fault, .done]

def name : Stage → String
  | .validate => "validate"
  | .find => "find"
  | .plan => "plan"
  | .call => "call"
  | .skipped => "skipped"
  | .fault => "fault"
  | .done => "done"

def ofName? (name : String) : Option Stage := all.find? fun stage ↦ stage.name = name

end Stage

namespace Event

def toJson (event : Event) : Json :=
  .obj <| ("stage", .str event.stage.name) ::
    Json.optionalField "method" (event.method.map .str) ++ [("detail", .str event.detail)]

/-- The methods of the events that sent a call. -/
def calledMethods (events : List Event) : List String :=
  (events.filter fun event ↦ event.stage = .call).filterMap (·.method)

end Event

end DirectoryReconcile
