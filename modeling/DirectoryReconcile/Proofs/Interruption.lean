import DirectoryReconcile.Proofs.Ensure.Runs

/-!
# Interrupted runs

What an exchange posts next depends on the replies that it has had, and on nothing else of the
service. A run of a request goes on only after a reply that reports no error: the first error ends
it, whichever call it answers, and is the failure of the run.
-/

namespace DirectoryReconcile

/-! ## Errors in replies -/

namespace Reply

/-- The error that a reply to a call of this method reports. -/
def error? (method : String) : Reply → Option RemoteError
  | .error error => some error
  | .ok body => Response.fault? method body

/-- A reply without a body, or with a body whose error member is not null. -/
def Fails (reply : Reply) : Prop :=
  ∀ body, reply = .ok body → ∃ member, body.get? "error" = some member ∧ member ≠ .null

end Reply

namespace Response

/-- The code and the message that an error member gives. A message that is no text, or missing,
is replaced by the member as it is written. -/
inductive Tells : Json → Option Int64 → String → Prop
  | bare (message : String) : Tells (.str message) none message
  | described {member : Json} {message : String}
      (hmessage : member.get? "message" = some (.str message)) :
    Tells member ((member.get? "code").bind Json.asSigned64?) message
  | written {member : Json} (hbare : ∀ message, member ≠ .str message)
      (hmessage : ∀ message, member.get? "message" ≠ some (.str message)) :
    Tells member ((member.get? "code").bind Json.asSigned64?) member.compact

theorem fault?_of_get? {body member : Json} (hmember : body.get? "error" = some member)
    (hnull : member ≠ .null) (method : String) :
    ∃ code message, Tells member code message ∧
      fault? method body = some (.fault method code message) := by
  by_cases hbare : ∃ message, member = .str message
  · obtain ⟨message, rfl⟩ := hbare
    refine ⟨none, message, .bare message, ?_⟩
    unfold fault?
    rw [hmember]
  · have hfault : fault? method body = some (.fault method
        ((member.get? "code").bind Json.asSigned64?)
        (((member.get? "message").bind Json.asString?).getD member.compact)) := by
      unfold fault?
      rw [hmember]
      cases member <;> simp_all
    refine ⟨_, _, ?_, hfault⟩
    cases hmessage : (member.get? "message").bind Json.asString? with
    | some message =>
      obtain ⟨value, hvalue, htext⟩ := Option.bind_eq_some_iff.1 hmessage
      have hstr : value = .str message := by cases value <;> simp_all [Json.asString?]
      exact .described (hvalue.trans (congrArg some hstr))
    | none =>
      refine .written (fun message h ↦ hbare ⟨message, h⟩) fun message hstr ↦ ?_
      rw [hstr] at hmessage
      simp [Json.asString?] at hmessage

end Response

/-! ## Exchanges that errors end -/

namespace Exchange

variable {α β σ τ : Type}

/-- An exchange that a reply with an error ends at once, with this error as its failure. -/
def Heeds : Exchange α → Prop
  | .done _ | .fail _ => True
  | .note _ next => Heeds next
  | .post call next => ∀ reply, Heeds (next reply) ∧
      ∀ error, Reply.error? call.method reply = some error → next reply = .fail (.remote error)

theorem Heeds.bind {exchange : Exchange α} {f : α → Exchange β} (heeds : exchange.Heeds)
    (hf : ∀ result, (f result).Heeds) : (exchange.bind f).Heeds := by
  induction exchange with
  | done result => exact hf result
  | fail failure => trivial
  | note event next ih => exact ih heeds
  | post call next ih =>
    intro reply
    obtain ⟨hnext, hfail⟩ := heeds reply
    exact ⟨ih reply hnext, fun error herror ↦ congrArg (Exchange.bind · f) (hfail error herror)⟩

theorem heeds_ofExcept (result : Except Failure α) : (ofExcept result).Heeds := by
  cases result <;> trivial

/-- Two services give an exchange the same replies up to one that reports an error at the second
one: there the exchange is over, with the error as its failure. -/
theorem Heeds.run_of_error {exchange : Exchange α} (heeds : exchange.Heeds)
    {transport : Transport σ} {other : Transport τ} {state : σ} {state' : τ}
    {before after : List RemoteCall} {call : RemoteCall} {reply : Reply} {error : RemoteError}
    (hposted : (run transport exchange state).1.posted = before ++ call :: after)
    (hreplies : other.replies (before ++ [call]) state' = transport.replies before state ++ [reply])
    (herror : reply.error? call.method = some error) :
    (run other exchange state').1.posted = before ++ [call] ∧
      (run other exchange state').1.result = .error (.remote error) := by
  induction exchange generalizing before state state' with
  | done | fail => simp [run] at hposted
  | note event next ih => exact ih heeds hposted hreplies
  | post first next ih =>
    cases before with
    | nil =>
      obtain ⟨rfl, -⟩ := List.cons.inj hposted
      obtain ⟨hreply, -⟩ := List.cons.inj hreplies
      have hfail := (heeds reply).2 error herror
      simp only [run, hreply, hfail, List.nil_append, and_self]
    | cons head rest =>
      obtain ⟨rfl, hrest⟩ := List.cons.inj hposted
      obtain ⟨hreply, hreplies⟩ := List.cons.inj hreplies
      obtain ⟨hposted, hresult⟩ := ih _ (heeds _).1 hrest hreplies
      simp only [run, hreply]
      exact ⟨congrArg _ hposted, hresult⟩

end Exchange

/-! ## Runs of requests -/

theorem Declaration.heeds_exchange (declaration : Declaration) (call : RemoteCall)
    (keep : Json → Bool) (identity : Identity) :
    (declaration.exchange call keep identity).Heeds := by
  intro reply
  cases reply with
  | error error => exact ⟨trivial, by rintro _ ⟨⟩; rfl⟩
  | ok body =>
    simp only [Exchange.bind, Reply.error?]
    cases Response.fault? call.method body with
    | none => exact ⟨trivial, by simp⟩
    | some error => exact ⟨trivial, by rintro _ ⟨⟩; rfl⟩

namespace Ensure

open Exchange

variable (declaration : Declaration) (desired : DesiredState)

theorem heeds_issue (dryRun : Bool) (call : RemoteCall) :
    (issue declaration dryRun call).Heeds := by
  cases dryRun with
  | true => trivial
  | false => exact (declaration.heeds_exchange call _ _).bind fun _ ↦ trivial

theorem heeds_issueAll (dryRun : Bool) (last : Option RemoteObject) (calls : List RemoteCall) :
    (issueAll declaration dryRun last calls).Heeds := by
  induction calls generalizing last with
  | nil => trivial
  | cons call rest ih => exact (heeds_issue declaration dryRun call).bind fun _ ↦ ih _

theorem heeds_apply (identity : Identity) (found : RemoteObject) (changes : ChangeSet) :
    (apply declaration desired identity found changes).Heeds := by
  refine (heeds_issueAll declaration _ _ _).bind fun created ↦ ?_
  refine (heeds_ofExcept _).bind fun enabling ↦ ?_
  refine (heeds_issueAll declaration _ _ _).bind fun flagged ↦ ?_
  exact (heeds_issueAll declaration _ _ _).bind fun listed ↦ trivial

theorem heeds_conclude (identity : Identity) (found : RemoteObject) :
    (conclude declaration desired identity found).Heeds := by
  unfold conclude
  split
  · trivial
  split
  · exact (heeds_issue declaration _ _).bind fun _ ↦ trivial
  · exact (heeds_ofExcept _).bind fun changes ↦
      heeds_apply declaration desired identity found changes

theorem heeds_run : (run declaration desired).Heeds := by
  cases hvalidate : validate declaration desired with
  | error failure =>
    unfold run
    rw [hvalidate]
    trivial
  | ok identity =>
    rw [run_eq hvalidate]
    exact (declaration.heeds_exchange _ _ _).bind fun found ↦
      heeds_conclude declaration desired identity found

/-- A service that answers a run as another one does, up to a call that it answers with an error,
gets the same calls up to this one and none after it. The failure of the run is the error of the
transport, or a fault of the call with the code and the message of the error member. -/
theorem ensure_ends_at_error {σ τ : Type} (schema : ObjectSchema) (transport : Transport σ)
    (other : Transport τ) (state : σ) (state' : τ) {before after : List RemoteCall}
    {call : RemoteCall} {reply : Reply}
    (hposted : (Exchange.run transport (run schema.toDeclaration desired) state).1.posted =
      before ++ call :: after)
    (hreplies : other.replies (before ++ [call]) state' = transport.replies before state ++ [reply])
    (hfails : reply.Fails) :
    let interrupted := (Exchange.run other (run schema.toDeclaration desired) state').1
    interrupted.posted = before ++ [call] ∧
      match reply with
      | .error error => interrupted.result = .error (.remote error)
      | .ok body => ∃ member code message, body.get? "error" = some member ∧
          Response.Tells member code message ∧
            interrupted.result = .error (.remote (.fault call.method code message)) := by
  intro interrupted
  have heeds := heeds_run schema.toDeclaration desired
  cases reply with
  | error error => exact heeds.run_of_error hposted hreplies rfl
  | ok body =>
    obtain ⟨member, hmember, hnull⟩ := hfails body rfl
    obtain ⟨code, message, htells, hfault⟩ := Response.fault?_of_get? hmember hnull call.method
    obtain ⟨hcalls, hresult⟩ := heeds.run_of_error hposted hreplies hfault
    exact ⟨hcalls, member, code, message, hmember, htells, hresult⟩

/-- A group that is to have a member. -/
def staffedGroup : DesiredState where
  identity := .ofList [("cn", .scalar (.str "ops"))]
  attributes := .ofList [("member_user", .list [.str "alice"])]
  state := .present
  dryRun := false

/-- The body of a reply that refuses a call. -/
def refusedBody : Json :=
  .obj [("result", .null), ("error", .obj [("code", .int 4002), ("message", .str "already exists")])]

/-- The second of three calls is refused, so the member is never added. -/
theorem ensure_ends_at_error_staffedGroup :
    let before : List RemoteCall := [⟨"group_find", [.str "ops"], .ofList [("all", .bool true)]⟩]
    let call : RemoteCall := ⟨"group_add", [.str "ops"], .ofList [("all", .bool true)]⟩
    let interrupted := (Exchange.run Transport.scripted
      (run ObjectSchema.group.toDeclaration staffedGroup) [.ok (.obj []), .ok refusedBody]).1
    let skipped : RemoteCall :=
      ⟨"group_add_member", [.str "ops"], .ofList [("user", .arr [.str "alice"])]⟩
    (Exchange.run Transport.scripted (run ObjectSchema.group.toDeclaration staffedGroup)
        []).1.posted = before ++ call :: [skipped] ∧
      interrupted.posted = before ++ [call] ∧ ∃ member code message,
        refusedBody.get? "error" = some member ∧ Response.Tells member code message ∧
          interrupted.result = .error (.remote (.fault call.method code message)) := by
  intro before call interrupted skipped
  have hposted : (Exchange.run Transport.scripted
      (run ObjectSchema.group.toDeclaration staffedGroup) []).1.posted =
        before ++ call :: [skipped] := by decide +kernel
  have hreplies : Transport.scripted.replies (before ++ [call]) [.ok (.obj []), .ok refusedBody] =
      Transport.scripted.replies before [] ++ [.ok refusedBody] := rfl
  have hfails : Reply.Fails (.ok refusedBody) := by
    rintro body ⟨⟩
    exact ⟨_, rfl, by simp⟩
  exact ⟨hposted, ensure_ends_at_error staffedGroup ObjectSchema.group Transport.scripted
    Transport.scripted [] [.ok (.obj []), .ok refusedBody] hposted hreplies hfails⟩

end Ensure

end DirectoryReconcile
