import DirectoryReconcile.Config.Error
import DirectoryReconcile.Failure
import DirectoryReconcile.Filter
import DirectoryReconcile.Logging
import DirectoryReconcile.Task

/-!
# Failures of commands

Whatever makes a command fail is shown as an entry of the catalogue, with the error and what was
being done in its detail.
-/

namespace DirectoryReconcile

inductive CommandError where
  | reconciliation (failure : Failure)
  | config (error : Config.Error)
  | override (error : Config.VariableError)
  | task (error : TaskError)
  | filter (error : FilterError)
  | logging (error : LogError)
  | unknown (message : String)

namespace CommandError

def code : CommandError → ErrorCode
  | .reconciliation failure => failure.code
  | .config error => error.code
  | .override _ => .configEnvError
  | .task error => error.code
  | .filter _ => .validationFilterError
  | .logging error => error.code
  | .unknown _ => .internalSerializationError

/-- The text of the error, followed by the text of what caused it, if anything did. -/
def chain : CommandError → List String
  | .reconciliation failure => failure.message :: failure.cause?.toList
  | .config error => [error.message]
  | .override error => [error.message]
  | .task error => [error.message]
  | .filter error => [error.message]
  | .logging error => [error.message]
  | .unknown message => [message]

end CommandError

/-- An error and what was being done when it occurred, the outermost first. -/
structure CommandFailure where
  context : List String
  error : CommandError

namespace CommandFailure

def ofError (error : CommandError) : CommandFailure := ⟨[], error⟩

def within (text : String) (failure : CommandFailure) : CommandFailure :=
  { failure with context := text :: failure.context }

def detail (failure : CommandFailure) : String :=
  Text.joinWith ": " (failure.context ++ failure.error.chain)

def entry (failure : CommandFailure) : ErrorEntry := ⟨failure.error.code, some failure.detail⟩

end CommandFailure

end DirectoryReconcile
