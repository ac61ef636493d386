/-!
# Dates and times

A date, a time of day, or both, with an offset from universal time where both are given.

* `Moment.read?`    the moment that a text writes;
* `Moment.render`   its text: a `T` before the time, and no zeros at the end of a fraction.
-/

namespace Splittable.Toml

structure Date where
  year : Nat
  month : Nat
  day : Nat
deriving DecidableEq, Repr

structure Time where
  hour : Nat
  minute : Nat
  second : Nat
  nanosecond : Nat
deriving DecidableEq, Repr

inductive Offset
  | universal
  /-- so many minutes before or after -/
  | minutes (n : Int)
deriving DecidableEq, Repr

inductive Moment
  | date (date : Date)
  | time (time : Time)
  | both (date : Date) (time : Time) (offset : Option Offset)
deriving DecidableEq, Repr

/-! ## reading -/

def digitValue? (c : Char) : Option Nat :=
  if '0' ≤ c ∧ c ≤ '9' then some (c.toNat - '0'.toNat) else none

/-- a number of exactly `n` digits, and what follows it -/
def fixedDigits? : (n value : Nat) → List Char → Option (Nat × List Char)
  | 0, value, cs => some (value, cs)
  | _ + 1, _, [] => none
  | n + 1, value, c :: cs => do fixedDigits? n (value * 10 + (← digitValue? c)) cs

def expect? (c : Char) : List Char → Option (List Char)
  | d :: cs => if c = d then some cs else none
  | [] => none

namespace Date

def isLeap (year : Nat) : Bool := year % 4 == 0 && (year % 100 != 0 || year % 400 == 0)

def daysIn (year month : Nat) : Nat :=
  match month with
  | 2 => if isLeap year then 29 else 28
  | 4 | 6 | 9 | 11 => 30
  | _ => 31

def isValid (d : Date) : Bool :=
  1 ≤ d.month && d.month ≤ 12 && 1 ≤ d.day && d.day ≤ daysIn d.year d.month

def take? (cs : List Char) : Option (Date × List Char) := do
  let (year, cs) ← fixedDigits? 4 0 cs
  let cs ← expect? '-' cs
  let (month, cs) ← fixedDigits? 2 0 cs
  let cs ← expect? '-' cs
  let (day, cs) ← fixedDigits? 2 0 cs
  let date : Date := ⟨year, month, day⟩
  if date.isValid then some (date, cs) else none

end Date

namespace Time

/-- A fraction of a second in nanoseconds; digits beyond the ninth are left out. -/
def nanoseconds (digits : List Char) : Nat :=
  let nine := (digits ++ List.replicate 9 '0').take 9
  nine.foldl (fun n c => n * 10 + (c.toNat - '0'.toNat)) 0

/-- the seconds and their fraction, where they are given -/
def takeSeconds? (cs : List Char) : Option (Nat × Nat × List Char) :=
  match cs with
  | ':' :: cs => do
    let (second, cs) ← fixedDigits? 2 0 cs
    match cs with
    | '.' :: cs =>
      let digits := cs.takeWhile fun c => (digitValue? c).isSome
      if digits.isEmpty then none
      else some (second, nanoseconds digits, cs.drop digits.length)
    | _ => some (second, 0, cs)
  | _ => some (0, 0, cs)

/-- a minute may have a leap second -/
def isValid (t : Time) : Bool := t.hour ≤ 23 && t.minute ≤ 59 && t.second ≤ 60

def take? (cs : List Char) : Option (Time × List Char) := do
  let (hour, cs) ← fixedDigits? 2 0 cs
  let cs ← expect? ':' cs
  let (minute, cs) ← fixedDigits? 2 0 cs
  let (second, nanosecond, cs) ← takeSeconds? cs
  let time : Time := ⟨hour, minute, second, nanosecond⟩
  if time.isValid then some (time, cs) else none

end Time

def Offset.take? (cs : List Char) : Option (Offset × List Char) :=
  match cs with
  | c :: cs =>
    if c = 'Z' ∨ c = 'z' then some (.universal, cs)
    else if c = '+' ∨ c = '-' then do
      let (h, cs) ← fixedDigits? 2 0 cs
      let cs ← expect? ':' cs
      let (m, cs) ← fixedDigits? 2 0 cs
      if h ≤ 23 ∧ m ≤ 59 then
        let total : Int := h * 60 + m
        some (.minutes (if c = '-' then -total else total), cs)
      else none
    else none
  | [] => none

/-- what stands between a date and a time -/
def isTimeMark (c : Char) : Bool := c == 'T' || c == 't' || c == ' '

/-- The whole text is a date, a time, or both. -/
def Moment.read? (cs : List Char) : Option Moment :=
  match Date.take? cs with
  | some (day, []) => some (.date day)
  | some (day, mark :: cs) =>
    if isTimeMark mark then
      match Time.take? cs with
      | some (clock, []) => some (.both day clock none)
      | some (clock, cs) =>
        match Offset.take? cs with
        | some (offset, []) => some (.both day clock (some offset))
        | _ => none
      | none => none
    else none
  | none =>
    match Time.take? cs with
    | some (clock, []) => some (.time clock)
    | _ => none

/-! ## writing -/

/-- a number with zeros before it, up to `width` digits -/
def padded (width n : Nat) : List Char :=
  let ds := Nat.toDigits 10 n
  List.replicate (width - ds.length) '0' ++ ds

def Date.chars (d : Date) : List Char :=
  padded 4 d.year ++ '-' :: padded 2 d.month ++ '-' :: padded 2 d.day

def Time.chars (t : Time) : List Char :=
  padded 2 t.hour ++ ':' :: padded 2 t.minute ++ ':' :: padded 2 t.second ++
    if t.nanosecond = 0 then []
    else '.' :: ((padded 9 t.nanosecond).reverse.dropWhile (· == '0')).reverse

def Offset.chars : Offset → List Char
  | .universal => ['Z']
  | .minutes n =>
    (if n < 0 then '-' else '+') :: padded 2 (n.natAbs / 60) ++ ':' :: padded 2 (n.natAbs % 60)

def Moment.chars : Moment → List Char
  | .date day => day.chars
  | .time clock => clock.chars
  | .both day clock offset =>
    day.chars ++ 'T' :: clock.chars ++
      match offset with
      | none => []
      | some offset => offset.chars

def Moment.render (m : Moment) : String := String.ofList m.chars

end Splittable.Toml
