import LocalNames.Data

namespace LocalNames.Toml

structure Date where
  year : Nat
  month : Nat
  day : Nat

structure Time where
  hour : Nat
  minute : Nat
  second : Nat
  fraction : Text

inductive Offset where
  | universal
  | shifted (minutes : Int)

structure Moment where
  date : Option Date := none
  time : Option Time := none
  offset : Option Offset := none

def fixed? (width : Nat) (text : Text) : Option (Nat × Text) :=
  let digits := text.take width
  if digits.length = width ∧ digits.all Char.isDigit then
    some (fromDigits 10 digits, text.drop width)
  else none

def mark? (marks : Text) : Text → Option Text
  | c :: rest => if c ∈ marks then some rest else none
  | [] => none

def daysIn (year month : Nat) : Nat :=
  if month = 2 then
    if year % 4 = 0 ∧ (year % 100 ≠ 0 ∨ year % 400 = 0) then 29 else 28
  else if month ∈ [4, 6, 9, 11] then 30
  else 31

namespace Date

def read? (text : Text) : Option (Date × Text) := do
  let (year, text) ← fixed? 4 text
  let (month, text) ← fixed? 2 (← mark? "-" text)
  let (day, text) ← fixed? 2 (← mark? "-" text)
  guard (1 ≤ month ∧ month ≤ 12 ∧ 1 ≤ day ∧ day ≤ daysIn year month)
  return (⟨year, month, day⟩, text)

def text (d : Date) : Text :=
  padded 4 d.year ++ "-" ++ padded 2 d.month ++ "-" ++ padded 2 d.day

end Date

namespace Time

/-- The second 60 is a leap second. -/
def read? (text : Text) : Option (Time × Text) := do
  let (hour, text) ← fixed? 2 text
  let (minute, text) ← fixed? 2 (← mark? ":" text)
  let (second, text) ← fixed? 2 (← mark? ":" text)
  guard (hour ≤ 23 ∧ minute ≤ 59 ∧ second ≤ 60)
  match text with
  | '.' :: rest =>
    let fraction := rest.takeWhile Char.isDigit
    guard (fraction ≠ [])
    return (⟨hour, minute, second, fraction⟩, rest.drop fraction.length)
  | _ => return (⟨hour, minute, second, []⟩, text)

def text (t : Time) : Text :=
  let fraction := ((t.fraction.take 9).reverse.dropWhile (· = '0')).reverse
  padded 2 t.hour ++ ":" ++ padded 2 t.minute ++ ":" ++ padded 2 t.second ++
    if fraction = [] then [] else '.' :: fraction

end Time

namespace Offset

def read? : Text → Option (Option Offset × Text)
  | [] => some (none, [])
  | c :: rest =>
    if c = 'Z' ∨ c = 'z' then some (some .universal, rest)
    else if c = '+' ∨ c = '-' then do
      let (hours, text) ← fixed? 2 rest
      let (minutes, text) ← fixed? 2 (← mark? ":" text)
      guard (hours ≤ 23 ∧ minutes ≤ 59)
      let distance : Int := hours * 60 + minutes
      return (some (.shifted (if c = '-' then -distance else distance)), text)
    else none

def text : Offset → Text
  | universal => "Z"
  | shifted minutes =>
    (if minutes < 0 then "-" else "+") ++ padded 2 (minutes.natAbs / 60) ++ ":" ++
      padded 2 (minutes.natAbs % 60)

end Offset

namespace Moment

def read? (text : Text) : Option Moment :=
  match Date.read? text with
  | some (date, []) => some { date }
  | some (date, rest) => do
    let (time, rest) ← Time.read? (← mark? "Tt " rest)
    let (offset, rest) ← Offset.read? rest
    guard rest.isEmpty
    return { date, time, offset }
  | none => do
    let (time, rest) ← Time.read? text
    guard rest.isEmpty
    return { time }

def text (m : Moment) : Text :=
  let date := (m.date.map Date.text).getD []
  let time := (m.time.map Time.text).getD []
  let offset := (m.offset.map Offset.text).getD []
  date ++ (if date ≠ [] ∧ time ≠ [] then ['T'] else []) ++ time ++ offset

/-- A moment is handed on as a record of a single field, whose name no document uses by chance. -/
def toData (m : Moment) : Data := .record [("$__toml_private_datetime", .text m.text)]

end Moment

end LocalNames.Toml
