import DirectoryReconcile.Failure.Catalogue
import DirectoryReconcile.Failure.Objection
import DirectoryReconcile.Schema.Fault

/-!
# Failures of a reconciliation

A declaration may be at fault, the service may not be reached or may refuse a call, and a request
may not fit the declaration of its type.
-/

namespace DirectoryReconcile

/-- What comes back instead of the body of a response. -/
inductive RemoteError where
  | transport (method message : String) (cause : Option String)
  | fault (method : String) (code : Option Int64) (message : String)
deriving DecidableEq, Repr

inductive Failure where
  | schema (error : SchemaError)
  | remote (error : RemoteError)
  | validation (attr : String) (objection : Objection)
deriving DecidableEq, Repr

namespace RemoteError

def loginMethod : String := "login"

def method : RemoteError → String
  | .transport method _ _ => method
  | .fault method _ _ => method

def message : RemoteError → String
  | .transport method message _ => "transport failure during " ++ method ++ ": " ++ message
  | .fault method code message =>
    let code := (code.map fun c ↦ " (code " ++ toString c ++ ")").getD ""
    method ++ " failed" ++ code ++ ": " ++ message

/-- Codes from 400 to 599 are statuses of the connection. -/
def isStatus (code : Int64) : Bool := 400 ≤ code && code < 600

def code : RemoteError → ErrorCode
  | .transport method _ _ =>
    if method = loginMethod then .transportLoginFailed else .transportRequestFailed
  | .fault method code _ =>
    if method = loginMethod then .remoteLoginRejected
    else if code.any isStatus then .remoteHttpStatus
    else .remoteFault

end RemoteError

namespace Failure

/-- What kept a call from reaching the service, where it is known. -/
def cause? : Failure → Option String
  | .remote (.transport _ _ cause) => cause
  | _ => none

/-- The remote method of the call that failed. -/
def method? : Failure → Option String
  | .remote error => some error.method
  | _ => none

def message : Failure → String
  | .schema error => error.message
  | .remote error => error.message
  | .validation attr objection => "invalid value for '" ++ attr ++ "': " ++ objection.message

def code : Failure → ErrorCode
  | .schema (.unknownType _) => .schemaUnknownType
  | .schema _ => .schemaInvalid
  | .remote error => error.code
  | .validation _ _ => .validationInvalidValue

end Failure

end DirectoryReconcile
