import DirectoryReconcile.Text.Integer

/-!
# TOML dates and times

A date, a time of day, or both with an optional offset from universal time. Seconds may be left
out. The canonical text has a `T` between date and time.
-/

namespace DirectoryReconcile.Toml

/-- The number of exactly two digits. -/
def twoDigits? : List Char → Option (Nat × List Char)
  | a :: b :: rest => (Text.natOfDigits? [a, b]).map fun n ↦ (n, rest)
  | _ => none

def fourDigits? : List Char → Option (Nat × List Char)
  | a :: b :: c :: d :: rest => (Text.natOfDigits? [a, b, c, d]).map fun n ↦ (n, rest)
  | _ => none

def isLeapYear (year : Nat) : Bool := year % 4 = 0 && (year % 100 ≠ 0 || year % 400 = 0)

def daysOf (year month : Nat) : Nat :=
  if month = 2 then if isLeapYear year then 29 else 28
  else if month = 4 || month = 6 || month = 9 || month = 11 then 30
  else 31

/-- A number with leading zeros. -/
def padded (width n : Nat) : String :=
  let digits := (toString n).toList
  String.ofList (List.replicate (width - digits.length) '0' ++ digits)

/-- The text of a date at the start of a text. -/
def date? (cs : List Char) : Option (String × List Char) := do
  let (year, rest) ← fourDigits? cs
  let '-' :: rest := rest | none
  let (month, rest) ← twoDigits? rest
  let '-' :: rest := rest | none
  let (day, rest) ← twoDigits? rest
  if 1 ≤ month && month ≤ 12 && 1 ≤ day && day ≤ daysOf year month then
    return (padded 4 year ++ "-" ++ padded 2 month ++ "-" ++ padded 2 day, rest)
  else none

/-- The fraction of a second in at most nine digits, without zeros at its end. -/
def fractionText (digits : List Char) : String :=
  match ((digits.take 9).reverse.dropWhile (· = '0')).reverse with
  | [] => ""
  | kept => String.ofList ('.' :: kept)

/-- The seconds after a minute, which may be left out. -/
def seconds? : List Char → Option (String × List Char)
  | ':' :: rest => do
    let (second, rest) ← twoDigits? rest
    if 60 < second then none
    else
      match rest with
      | '.' :: rest =>
        match rest.takeWhile Text.isDigit with
        | [] => none
        | digits =>
          return (":" ++ padded 2 second ++ fractionText digits, rest.dropWhile Text.isDigit)
      | rest => return (":" ++ padded 2 second, rest)
  | rest => some ("", rest)

/-- The text of a time at the start of a text. -/
def time? (cs : List Char) : Option (String × List Char) := do
  let (hour, rest) ← twoDigits? cs
  let ':' :: rest := rest | none
  let (minute, rest) ← twoDigits? rest
  if 23 < hour || 59 < minute then none
  else
    let (seconds, rest) ← seconds? rest
    return (padded 2 hour ++ ":" ++ padded 2 minute ++ seconds, rest)

/-- The text of an offset, if there is one, at the end of a text. -/
def offset? : List Char → Option String
  | [] => some ""
  | [c] => if c = 'Z' || c = 'z' then some "Z" else none
  | sign :: rest => do
    if sign ≠ '+' && sign ≠ '-' then none
    else
      let (hours, rest) ← twoDigits? rest
      let ':' :: rest := rest | none
      let (minutes, rest) ← twoDigits? rest
      if rest.isEmpty && hours ≤ 23 && minutes ≤ 59 then
        return String.singleton sign ++ padded 2 hours ++ ":" ++ padded 2 minutes
      else none

/-- The canonical text of a date, a time, or both. -/
def moment? (cs : List Char) : Option String :=
  match date? cs with
  | some (date, []) => some date
  | some (date, c :: rest) => do
    if c ≠ 'T' && c ≠ 't' && c ≠ ' ' then none
    else
      let (time, rest) ← time? rest
      return date ++ "T" ++ time ++ (← offset? rest)
  | none => do
    let (time, rest) ← time? cs
    if rest.isEmpty then some time else none

end DirectoryReconcile.Toml
