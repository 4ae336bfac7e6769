import DirectoryReconcile.RemoteCall
import DirectoryReconcile.Trace

/-!
# Exchanges with a service

An exchange posts calls one after the other and goes on with each reply. It is a value, so the same
exchange can be run against any transport: a function from its own state, the method and the
arguments to a reply and the next state.
-/

namespace DirectoryReconcile

/-- The body of a response, or what came instead. -/
abbrev Reply := Except RemoteError Json

/-- Answers one call at a time, with a state of its own. -/
abbrev Transport (σ : Type) := σ → String → Json → Reply × σ

inductive Exchange (α : Type) where
  | done (result : α)
  | fail (failure : Failure)
  | note (event : Event) (next : Exchange α)
  | post (call : RemoteCall) (next : Reply → Exchange α)

/-- What a run left behind: its result, its events and the calls it posted. -/
structure Transcript (α : Type) where
  result : Except Failure α
  events : List Event
  posted : List RemoteCall

namespace Exchange

variable {α β σ : Type}

def bind : Exchange α → (α → Exchange β) → Exchange β
  | .done result, f => f result
  | .fail failure, _ => .fail failure
  | .note event next, f => .note event (bind next f)
  | .post call next, f => .post call fun reply ↦ bind (next reply) f

instance : Monad Exchange where
  pure := .done
  bind := bind

/-- A result or failure without any call. -/
def ofExcept : Except Failure α → Exchange α
  | .ok result => .done result
  | .error failure => .fail failure

/-- Records an event. -/
def record (stage : Stage) (method : Option String) (detail : String) : Exchange Unit :=
  .note ⟨stage, method, detail⟩ (.done ())

/-- Posts a call and returns the body of the response. -/
def request (call : RemoteCall) : Exchange Json :=
  .post call fun
    | .ok body => .done body
    | .error error => .fail (.remote error)

/-- Runs an exchange against a transport. -/
def run (transport : Transport σ) : Exchange α → σ → Transcript α × σ
  | .done result, state => (⟨.ok result, [], []⟩, state)
  | .fail failure, state => (⟨.error failure, [], []⟩, state)
  | .note event next, state =>
    let (rest, state) := run transport next state
    ({ rest with events := event :: rest.events }, state)
  | .post call next, state =>
    let (reply, state) := transport state call.method call.params
    let (rest, state) := run transport (next reply) state
    ({ rest with posted := call :: rest.posted }, state)

@[simp] theorem pure_eq_done (result : α) : (pure result : Exchange α) = .done result := rfl

@[simp] theorem bind_eq (exchange : Exchange α) (f : α → Exchange β) :
    exchange >>= f = exchange.bind f := rfl

theorem bind_done (exchange : Exchange α) : exchange.bind .done = exchange := by
  induction exchange with
  | done | fail => rfl
  | note event next ih => exact congrArg _ ih
  | post call next ih => exact congrArg _ (funext ih)

theorem bind_assoc {γ : Type} (exchange : Exchange α) (f : α → Exchange β) (g : β → Exchange γ) :
    (exchange.bind f).bind g = exchange.bind fun a ↦ (f a).bind g := by
  induction exchange with
  | done | fail => rfl
  | note event next ih => exact congrArg _ ih
  | post call next ih => exact congrArg _ (funext ih)

instance : LawfulMonad Exchange :=
  LawfulMonad.mk' Exchange bind_done (fun _ _ ↦ rfl) bind_assoc

end Exchange

/-- A transport that answers with the bodies and failures of a list in turn, and with an empty body
after them. -/
def Transport.scripted : Transport (List (Except String Json))
  | [], _, _ => (.ok (.obj []), [])
  | .ok body :: rest, _, _ => (.ok body, rest)
  | .error message :: rest, method, _ => (.error (.transport method message none), rest)

end DirectoryReconcile
