/-!
# Toml.Moment: dates and times

A moment is a date, a time of day, or both with a delimiter between them; only both together may name their
distance from universal time.  Numbers have a fixed width, and a date has to be in the calendar.
-/
namespace PseudoVm

namespace Toml

/-- A day of the calendar. -/
structure Date where
  year : Nat
  month : Nat
  day : Nat
  deriving DecidableEq, Repr

/-- A time of day; the second 60 is a leap second. -/
structure Time where
  hour : Nat
  minute : Nat
  second : Nat
  nanosecond : Nat
  deriving DecidableEq, Repr

/-- A date, a time, or both; both may have a distance from universal time in minutes. -/
structure Moment where
  date : Option Date
  time : Option Time
  offset : Option Int
  deriving DecidableEq, Repr

def isLeap (year : Nat) : Bool := year % 4 == 0 && (year % 100 != 0 || year % 400 == 0)

def daysIn (year month : Nat) : Nat :=
  if month = 2 then (if isLeap year then 29 else 28)
  else if month ∈ [4, 6, 9, 11] then 30
  else 31

/-- A number of two digits in a range. -/
def pair? (low high : Nat) : List Char → Option (Nat × List Char)
  | a :: b :: rest =>
    let n := (a.toNat - 48) * 10 + (b.toNat - 48)
    if a.isDigit && b.isDigit && low ≤ n && n ≤ high then some (n, rest) else none
  | _ => none

def after? (c : Char) : List Char → Option (List Char)
  | d :: rest => if d = c then some rest else none
  | [] => none

def date? (cs : List Char) : Option (Date × List Char) := do
  let (century, cs) ← pair? 0 99 cs
  let (year, cs) ← pair? 0 99 cs
  let (month, cs) ← pair? 1 12 (← after? '-' cs)
  let year := century * 100 + year
  let (day, cs) ← pair? 1 (daysIn year month) (← after? '-' cs)
  return (⟨year, month, day⟩, cs)

/-- The part of a second after a point, of which nine digits count. -/
def fraction (cs : List Char) : Nat × List Char :=
  match cs with
  | '.' :: rest =>
    let digits := rest.takeWhile Char.isDigit
    if digits.isEmpty then (0, cs)
    else
      let nine := (digits ++ List.replicate 9 '0').take 9
      (nine.foldl (fun n c => n * 10 + (c.toNat - 48)) 0, rest.dropWhile Char.isDigit)
  | _ => (0, cs)

def time? (cs : List Char) : Option (Time × List Char) := do
  let (hour, cs) ← pair? 0 23 cs
  let (minute, cs) ← pair? 0 59 (← after? ':' cs)
  let (second, cs) ← pair? 0 60 (← after? ':' cs)
  let (nanosecond, cs) := fraction cs
  return (⟨hour, minute, second, nanosecond⟩, cs)

def offset? : List Char → Option (Option Int × List Char)
  | 'Z' :: rest | 'z' :: rest => some (some 0, rest)
  | c :: rest =>
    if c = '+' || c = '-' then do
      let (hours, rest) ← pair? 0 23 rest
      let (minutes, rest) ← pair? 0 59 (← after? ':' rest)
      let distance : Int := hours * 60 + minutes
      return (some (if c = '-' then -distance else distance), rest)
    else some (none, c :: rest)
  | [] => some (none, [])

/-- A moment that is a text as a whole. -/
def moment? (cs : List Char) : Option Moment :=
  match date? cs with
  | some (date, []) => some ⟨some date, none, none⟩
  | some (date, delimiter :: rest) => do
    guard (delimiter ∈ ['T', 't', ' '])
    let (time, rest) ← time? rest
    let (offset, rest) ← offset? rest
    guard rest.isEmpty
    return ⟨some date, some time, offset⟩
  | none => do
    let (time, rest) ← time? cs
    guard rest.isEmpty
    return ⟨none, some time, none⟩

end Toml

end PseudoVm
