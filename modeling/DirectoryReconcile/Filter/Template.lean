/-!
# Templates

A template is a sequence of tokens: doubled braces stand for single ones, an empty pair of braces
or one around the digit zero for the item, and every other character but a brace for itself.
-/

namespace DirectoryReconcile.Template

inductive Token where
  | literal (c : Char)
  | openBrace
  | closeBrace
  | item
  | numberedItem
deriving DecidableEq, Repr

/-- The tokens of a template; nothing when a brace belongs to no token. -/
def parse? : List Char → Option (List Token)
  | [] => some []
  | '{' :: '{' :: rest => (parse? rest).map (.openBrace :: ·)
  | '}' :: '}' :: rest => (parse? rest).map (.closeBrace :: ·)
  | '{' :: '}' :: rest => (parse? rest).map (.item :: ·)
  | '{' :: '0' :: '}' :: rest => (parse? rest).map (.numberedItem :: ·)
  | c :: rest => if c = '{' || c = '}' then none else (parse? rest).map (.literal c :: ·)

/-- What a token stands for. -/
def Token.fill (item : List Char) : Token → List Char
  | .literal c => [c]
  | .openBrace => ['{']
  | .closeBrace => ['}']
  | .item | .numberedItem => item

def fill (tokens : List Token) (item : String) : String :=
  String.ofList (tokens.flatMap (Token.fill item.toList))

/-- The template filled with each item in turn; without items it is not looked at. -/
def fillEach? (template : String) (items : List String) : Option (List String) :=
  if items.isEmpty then some []
  else (parse? template.toList).map fun tokens ↦ items.map (fill tokens)

end DirectoryReconcile.Template
