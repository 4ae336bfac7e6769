import DirectoryReconcile.Text.Ascii

/-!
# Target states

The end states that a request may ask for.
-/

namespace DirectoryReconcile

inductive TargetState where
  | present
  | absent
  | exact
  | enabled
  | disabled
deriving DecidableEq, Repr, Inhabited

namespace TargetState

def all : List TargetState := [.present, .absent, .exact, .enabled, .disabled]

def name : TargetState → String
  | .present => "present"
  | .absent => "absent"
  | .exact => "exact"
  | .enabled => "enabled"
  | .disabled => "disabled"

/-- The enable flag that a state forces, if any. -/
def forcedEnable : TargetState → Option Bool
  | .enabled => some true
  | .disabled => some false
  | _ => none

/-- The state with exactly this name. -/
def ofName? (name : String) : Option TargetState := all.find? fun state ↦ state.name = name

/-- The state with this name, in any case of ASCII letters. -/
def ofText? (text : String) : Option TargetState := ofName? (Text.lowerAscii text)

/-- What is said of a text that names no state. -/
def unknownMessage (text : String) : String :=
  "unknown state '" ++ Text.lowerAscii text ++
    "' (expected present, absent, exact, enabled or disabled)"

theorem forcedEnable_eq_some_iff {state : TargetState} {enabled : Bool} :
    state.forcedEnable = some enabled ↔ state = if enabled then .enabled else .disabled := by
  cases state <;> cases enabled <;> decide

theorem forcedEnable_eq_none_iff {state : TargetState} :
    state.forcedEnable = none ↔ state ≠ .enabled ∧ state ≠ .disabled := by
  cases state <;> decide

theorem ne_absent_of_forcedEnable {state : TargetState} {enabled : Bool}
    (h : state.forcedEnable = some enabled) : state ≠ .absent := by
  rintro rfl
  cases h

theorem ofName?_name (state : TargetState) : ofName? state.name = some state := by
  cases state <;> decide

end TargetState

end DirectoryReconcile
