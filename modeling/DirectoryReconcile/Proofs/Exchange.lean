import DirectoryReconcile.Response

/-!
# Runs of exchanges

A run of one exchange after another is a run of both. What a run leaves behind in the service, and
what the service replies, is settled by the calls posted, and two exchanges may take turns at one
service.
-/

namespace DirectoryReconcile

namespace Transport

variable {σ : Type}

/-- The state of a service after these calls. -/
def after (transport : Transport σ) (calls : List RemoteCall) (state : σ) : σ :=
  calls.foldl (fun state call ↦ (transport state call.method call.params).2) state

@[simp] theorem after_nil (transport : Transport σ) (state : σ) : transport.after [] state = state :=
  rfl

@[simp] theorem after_cons (transport : Transport σ) (call : RemoteCall) (calls : List RemoteCall)
    (state : σ) : transport.after (call :: calls) state =
      transport.after calls (transport state call.method call.params).2 := rfl

/-- The replies to these calls, posted one after the other. -/
def replies (transport : Transport σ) : List RemoteCall → σ → List Reply
  | [], _ => []
  | call :: calls, state =>
    let (reply, state) := transport state call.method call.params
    reply :: replies transport calls state

end Transport

namespace Exchange

variable {α β σ : Type}

/-- Only calls posted settle the state that a run leaves. -/
theorem run_state (transport : Transport σ) (exchange : Exchange α) (state : σ) :
    (run transport exchange state).2 = transport.after (run transport exchange state).1.posted state := by
  induction exchange generalizing state with
  | done | fail => rfl
  | note event next ih => exact ih state
  | post call next ih => exact ih _ _

/-- A run that ended well goes on, one that failed is over. -/
theorem run_bind (transport : Transport σ) (exchange : Exchange α) (f : α → Exchange β) (state : σ) :
    run transport (exchange.bind f) state =
      let (first, state) := run transport exchange state
      match first.result with
      | .ok result =>
        let (second, state) := run transport (f result) state
        (⟨second.result, first.events ++ second.events, first.posted ++ second.posted⟩, state)
      | .error failure => (⟨.error failure, first.events, first.posted⟩, state) := by
  induction exchange generalizing state with
  | done result => rfl
  | fail failure => rfl
  | note event next ih =>
    unfold bind
    rw [run, ih]
    simp only [run]
    split <;> simp_all
  | post call next ih =>
    unfold bind
    rw [run]
    simp only [ih, run]
    split <;> simp_all

/-- What a call comes to, by the reply to it. -/
def answer (declaration : Declaration) (call : RemoteCall) (keep : Json → Bool)
    (identity : Identity) : Reply → Except Failure RemoteObject
  | .error error => .error (.remote error)
  | .ok body =>
    match Response.fault? call.method body with
    | some error => .error (.remote error)
    | none => .ok (Response.object declaration keep identity body)

theorem answer_eq_ok_iff {declaration : Declaration} {call : RemoteCall} {keep : Json → Bool}
    {identity : Identity} {reply : Reply} {object : RemoteObject} :
    answer declaration call keep identity reply = .ok object ↔
      ∃ body, reply = .ok body ∧ Response.fault? call.method body = none ∧
        Response.object declaration keep identity body = object := by
  cases reply with
  | error error => simp [answer]
  | ok body =>
    unfold answer
    cases hfault : Response.fault? call.method body <;> simp [hfault]

/-- What a run of one call leaves behind. -/
theorem run_exchange (transport : Transport σ) (declaration : Declaration) (call : RemoteCall)
    (keep : Json → Bool) (identity : Identity) (state : σ) :
    run transport (declaration.exchange call keep identity) state =
      (⟨answer declaration call keep identity (transport state call.method call.params).1, [],
        [call]⟩, (transport state call.method call.params).2) := by
  simp only [Declaration.exchange, request, bind_eq, bind, run]
  cases (transport state call.method call.params).1 with
  | error error => rfl
  | ok body =>
    simp only [bind, answer]
    cases Response.fault? call.method body <;> rfl

/-- If a run ends well, its result and the state that it leaves are good. -/
def Yields (transport : Transport σ) (exchange : Exchange α) (state : σ) (good : α → σ → Prop) :
    Prop :=
  ∀ result, (run transport exchange state).1.result = .ok result →
    good result (run transport exchange state).2

section

variable {transport : Transport σ} {state : σ} {good : α → σ → Prop} {good' : β → σ → Prop}

theorem Yields.done {result : α} (h : good result state) :
    Yields transport (.done result) state good := by
  rintro _ ⟨⟩
  exact h

theorem Yields.note {exchange : Exchange α} (event : Event)
    (h : Yields transport exchange state good) : Yields transport (.note event exchange) state good :=
  h

theorem Yields.bind {exchange : Exchange α} {f : α → Exchange β}
    (h : Yields transport exchange state good)
    (hf : ∀ result next, good result next → Yields transport (f result) next good') :
    Yields transport (exchange.bind f) state good' := by
  unfold Yields at h ⊢
  rw [run_bind]
  generalize run transport exchange state = ran at h ⊢
  obtain ⟨⟨ended, events, posted⟩, next⟩ := ran
  cases ended with
  | error failure => exact fun _ hresult ↦ by simp at hresult
  | ok result => exact hf result next (h result rfl)

theorem Yields.ofExcept_bind {x : Except Failure α} {f : α → Exchange β}
    (hf : ∀ result, x = .ok result → Yields transport (f result) state good') :
    Yields transport ((ofExcept x).bind f) state good' := by
  cases x with
  | error failure => exact fun _ hresult ↦ by cases hresult
  | ok result => exact hf result rfl

end

/-- Two exchanges at one service. Each turn lets one side, the left one when it is true, record its
next event or post its next call; after the last turn the left side runs to its end, then the
right one. -/
def interleave (transport : Transport σ) :
    List Bool → Exchange α → Exchange β → σ → (Transcript α × Transcript β) × σ
  | [], left, right, state =>
    let (left, state) := run transport left state
    let (right, state) := run transport right state
    ((left, right), state)
  | true :: turns, .note event next, right, state =>
    let ((left, right), state) := interleave transport turns next right state
    (({ left with events := event :: left.events }, right), state)
  | true :: turns, .post call next, right, state =>
    let (reply, state) := transport state call.method call.params
    let ((left, right), state) := interleave transport turns (next reply) right state
    (({ left with posted := call :: left.posted }, right), state)
  | false :: turns, left, .note event next, state =>
    let ((left, right), state) := interleave transport turns left next state
    ((left, { right with events := event :: right.events }), state)
  | false :: turns, left, .post call next, state =>
    let (reply, state) := transport state call.method call.params
    let ((left, right), state) := interleave transport turns left (next reply) state
    ((left, { right with posted := call :: right.posted }), state)
  | _ :: turns, left, right, state => interleave transport turns left right state

end Exchange

end DirectoryReconcile
