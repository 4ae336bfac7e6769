import DirectoryReconcile.Json
import DirectoryReconcile.Text.Blank
import DirectoryReconcile.Text.Pieces

/-!
# The endpoint of the service

The addresses that requests go to, the statuses that count as success, the cookie that a login
hands out, and the body of a request.
-/

namespace DirectoryReconcile

/-- A base address without slashes at its end. -/
structure Endpoint where
  base : String
deriving DecidableEq, Repr

namespace Endpoint

def ofUrl (url : String) : Endpoint := ⟨String.ofList (Text.dropEndWhile (· = '/') url.toList)⟩

def loginUrl (endpoint : Endpoint) : String := endpoint.base ++ "/ipa/session/login_password"

def callUrl (endpoint : Endpoint) : String := endpoint.base ++ "/ipa/session/json"

def referer (endpoint : Endpoint) : String := endpoint.base ++ "/ipa"

/-- Whether a status means success. -/
def isSuccess (status : Nat) : Bool := status = 200 || status = 201 || status = 204

/-- The name and value of a cookie, without its attributes; a cookie needs a name. -/
def cookie? (header : String) : Option String :=
  let pair := Text.trim ((Text.splitAll ';' header).headD "")
  match Text.splitFirst '=' pair with
  | some (name, _) => if name = "" then none else some pair
  | none => none

def requestBody (method : String) (params : Json) : Json :=
  .obj [("method", .str method), ("params", params)]

end Endpoint

end DirectoryReconcile
