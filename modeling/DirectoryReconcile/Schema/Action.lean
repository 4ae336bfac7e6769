import DirectoryReconcile.Text.Pieces

/-!
# Actions

What a request does with an object, and sets of such actions.
-/

namespace DirectoryReconcile

inductive Action where
  | add
  | modify
  | remove
  | find
deriving DecidableEq, Repr, Inhabited

namespace Action

def all : List Action := [.add, .modify, .remove, .find]

def name : Action → String
  | .add => "add"
  | .modify => "modify"
  | .remove => "remove"
  | .find => "find"

def title : Action → String
  | .add => "Add"
  | .modify => "Modify"
  | .remove => "Remove"
  | .find => "Find"

def ofName? (name : String) : Option Action := all.find? fun action ↦ action.name = name

end Action

structure ActionSet where
  add : Bool
  modify : Bool
  remove : Bool
  find : Bool
deriving DecidableEq, Repr, Inhabited

namespace ActionSet

def contains (set : ActionSet) : Action → Bool
  | .add => set.add
  | .modify => set.modify
  | .remove => set.remove
  | .find => set.find

def ofList (actions : List Action) : ActionSet :=
  ⟨actions.contains .add, actions.contains .modify, actions.contains .remove, actions.contains .find⟩

/-- The members in the fixed order of actions. -/
def toList (set : ActionSet) : List Action := Action.all.filter set.contains

def every : ActionSet := ofList Action.all

/-- Attributes are written when an object is created or changed, and can be removed. -/
def managed : ActionSet := ofList [.add, .modify, .remove]

def display (set : ActionSet) : String :=
  "\x7b" ++ Text.joinWith ", " (set.toList.map Action.title) ++ "\x7d"

@[simp] theorem contains_ofList (actions : List Action) (action : Action) :
    (ofList actions).contains action = actions.contains action := by
  cases action <;> rfl

end ActionSet

end DirectoryReconcile
