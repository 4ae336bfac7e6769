import DirectoryReconcile.Document

/-!
# TOML tables under construction

Headers open tables and dotted keys open tables on their way. No table is opened twice, a dotted
key never adds to a table that a header opened, and inline tables and arrays are closed.
-/

namespace DirectoryReconcile.Toml

inductive Node where
  | value (document : Document)
  /-- A table that no header has opened yet is implicit. -/
  | table (implicit dotted : Bool) (entries : List (String × Node))
  | tables (items : List (List (String × Node)))
deriving Inhabited

abbrev Entries := List (String × Node)

namespace Entries

/-- Puts a node in the place of the first one with this key, or at the end. -/
def put (key : String) (node : Node) : Entries → Entries
  | [] => [(key, node)]
  | (k, other) :: rest => if k = key then (k, node) :: rest else (k, other) :: put key node rest

/-- Changes the last table of a list of tables. -/
def changeLast? (change? : Entries → Option Entries) (items : List Entries) :
    Option (List Entries) := do
  let last ← items.getLast?
  return items.dropLast ++ [← change? last]

/-- Changes the entries under the node that a header's key leads to; a missing table is opened
implicitly. -/
def under? (key : String) (change? : Entries → Option Entries) (entries : Entries) :
    Option Entries :=
  match entries.lookup key with
  | none => do return entries.put key (.table true false (← change? []))
  | some (.table implicit dotted inner) => do
    return entries.put key (.table implicit dotted (← change? inner))
  | some (.tables items) => do return entries.put key (.tables (← changeLast? change? items))
  | some (.value _) => none

/-- Opens the table that a header names. -/
def openTable? : List String → Entries → Option Entries
  | [], _ => none
  | [key], entries =>
    match entries.lookup key with
    | none => some (entries.put key (.table false false []))
    | some (.table true false inner) => some (entries.put key (.table false false inner))
    | some _ => none
  | key :: rest, entries => under? key (openTable? rest) entries

/-- Opens one more table of the list that a header names. -/
def openItem? : List String → Entries → Option Entries
  | [], _ => none
  | [key], entries =>
    match entries.lookup key with
    | none => some (entries.put key (.tables [[]]))
    | some (.tables items) => some (entries.put key (.tables (items ++ [[]])))
    | some _ => none
  | key :: rest, entries => under? key (openItem? rest) entries

/-- Sets the value of a dotted key. -/
def assign? : List String → Document → Entries → Option Entries
  | [], _, _ => none
  | [key], document, entries =>
    match entries.lookup key with
    | none => some (entries.put key (.value document))
    | some _ => none
  | key :: rest, document, entries =>
    match entries.lookup key with
    | none => do return entries.put key (.table true true (← assign? rest document []))
    | some (.table implicit dotted inner) => do
      if !implicit || (rest.length = 1 && !dotted) then none
      else return entries.put key (.table implicit dotted (← assign? rest document inner))
    | some (.tables items) => do
      if rest.length = 1 then none
      else return entries.put key (.tables (← changeLast? (assign? rest document) items))
    | some (.value _) => none

/-- Sets the value of a dotted key under the header that was opened last. -/
def assignUnder? : List String → List String → Document → Entries → Option Entries
  | [], path, document, entries => assign? path document entries
  | key :: header, path, document, entries =>
    under? key (assignUnder? header path document) entries

end Entries

mutual

def Node.toDocument : Node → Document
  | .value document => document
  | .table _ _ entries => .table (Entries.toFields entries)
  | .tables items => .list (Entries.toTables items)

def Entries.toFields : Entries → List (String × Document)
  | [] => []
  | (key, node) :: rest => (key, node.toDocument) :: Entries.toFields rest

def Entries.toTables : List Entries → List Document
  | [] => []
  | entries :: rest => .table (Entries.toFields entries) :: Entries.toTables rest

end

end DirectoryReconcile.Toml
