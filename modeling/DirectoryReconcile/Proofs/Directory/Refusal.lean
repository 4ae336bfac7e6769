import DirectoryReconcile.Proofs.Dict
import DirectoryReconcile.Proofs.Directory.OneEntry

/-!
# Calls that are refused

Operations change the entries in place, and a refusal takes nothing back. A refused call still
leaves no trace, because an operation changes nothing before the last check that can end it.
-/

namespace DirectoryReconcile

namespace Directory

open Operation

/-- What a directory does with a call: its reply and the directory afterwards. -/
inductive Posted (directory : Directory) (method : String) (params : Json) :
    Reply → Directory → Prop
  /-- A call that does not reach the service. -/
  | lost (error : RemoteError) :
    Posted directory method params (.error error) (directory.receive method params)
  /-- A call that no operation is tried for. -/
  | rejected (refusal : Refusal) :
    Posted directory method params (.ok (refusalBody refusal)) (directory.receive method params)
  | refused {schema : ObjectSchema} {operation : Operation} (refusal : Refusal)
      (hdispatch : directory.dispatch? method (.ofParams params) = some (schema, operation)) :
    Posted directory method params (.ok (refusalBody refusal))
      ((directory.receive method params).withEntries schema.name (directory.entriesOf schema.name))
  | carriedOut {schema : ObjectSchema} {operation : Operation} {result : Json}
      {entries : List Entry}
      (hdispatch : directory.dispatch? method (.ofParams params) = some (schema, operation))
      (hperform : operation.perform schema.toDeclaration (directory.entriesOf schema.name)
        (.ofParams params) = .ok (result, entries)) :
    Posted directory method params (.ok (resultBody result))
      ((directory.receive method params).withEntries schema.name entries)

theorem posted (directory : Directory) (method : String) (params : Json) :
    Posted directory method params (directory.post method params).1
      (directory.post method params).2 := by
  have hfaults : (directory.receive method params).faults = directory.faults := rfl
  have hdispatches : (directory.receive method params).dispatch? method (.ofParams params) =
      directory.dispatch? method (.ofParams params) := rfl
  have hentries (type : String) : (directory.receive method params).entriesOf type =
      directory.entriesOf type := rfl
  simp only [post, handle, hfaults, hdispatches, hentries]
  cases directory.faults.get? method with
  | some fault =>
    cases fault with
    | transport message => exact .lost _
    | fault code message => exact .rejected _
  | none =>
    cases hdispatch : directory.dispatch? method (.ofParams params) with
    | none => exact .rejected _
    | some found =>
      obtain ⟨schema, operation⟩ := found
      simp only [execute_eq]
      cases hperform : operation.perform schema.toDeclaration (directory.entriesOf schema.name)
          (.ofParams params) with
      | error refusal => exact .refused refusal hdispatch
      | ok done => exact .carriedOut hdispatch hperform

/-- Writing the entries of a type back as they are changes no entry. -/
theorem entriesOf_withEntries_self (directory : Directory) (type other : String) :
    (directory.withEntries type (directory.entriesOf type)).entriesOf other =
      directory.entriesOf other := by
  rw [entriesOf_withEntries]
  split
  next h => rw [h]
  next => rfl

/-- Whether a reply has no body, or a body with an error. -/
def reportsError : Reply → Bool
  | .error _ => true
  | .ok body => (body.get? "error").any fun error ↦ !error.isNull

theorem reportsError_resultBody (result : Json) :
    reportsError (.ok (resultBody result)) = false := by
  rw [reportsError, resultBody, Json.get?_ofFields (by simp)]
  simp [Dict.lookupEntry, Json.isNull]

/-- A call that is answered with an error leaves all entries as they were, and so does a search,
whatever the answer to it is. -/
theorem post_unchanged (directory : Directory) (method : String) (params : Json)
    (h : reportsError (directory.post method params).1 = true ∨
      ∃ schema, directory.dispatch? method (.ofParams params) = some (schema, .find))
    (type : String) : (directory.post method params).2.entriesOf type = directory.entriesOf type := by
  have hposted := posted directory method params
  generalize directory.post method params = answer at h hposted ⊢
  obtain ⟨reply, after⟩ := answer
  cases hposted with
  | lost | rejected => rfl
  | refused => exact entriesOf_withEntries_self (directory.receive method params) _ type
  | carriedOut hdispatch hperform =>
    rcases h with herror | ⟨schema, hfind⟩
    · rw [reportsError_resultBody] at herror
      contradiction
    · obtain ⟨rfl, rfl⟩ := Prod.mk.inj (Option.some.inj (hdispatch.symm.trans hfind))
      rw [perform_find] at hperform
      obtain ⟨-, rfl⟩ := Prod.mk.inj (Except.ok.inj hperform)
      exact entriesOf_withEntries_self (directory.receive method params) _ type

/-- A directory with one group. -/
def operators : Directory :=
  (ofRegistry .builtin).withEntries "group" [⟨["ops"], .ofList [("cn", .arr [.str "ops"]),
    ("description", .arr [.str "Operations"])]⟩]

/-- The parameters of a modification of which the first part can be carried out and the second
cannot. -/
def halfDone : Json := .arr [.arr [.str "ops"], .ofFields [("addattr", .str "mail=ops@example.org"),
  ("delattr", .str "description=Office")]]

theorem post_unchanged_halfDone :
    reportsError (operators.post "group_mod" halfDone).1 = true ∧
      (operators.post "group_mod" halfDone).2.entriesOf "group" = operators.entriesOf "group" :=
  have herror : reportsError (operators.post "group_mod" halfDone).1 = true := by decide +kernel
  ⟨herror, post_unchanged operators "group_mod" halfDone (.inl herror) "group"⟩

end Directory

end DirectoryReconcile
