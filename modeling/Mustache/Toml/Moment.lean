import Mustache.Decimal.Reader

/-!
# Dates and times of TOML

A moment is a date, a time of day, or both with an optional offset. It has a text of its own, in
which the parts are joined by `T` and the offset counts hours and minutes.

* `Date`, `Clock`, `Offset`, `Moment` and `Moment.render`;
* `date?`, `clock?`, `offset?`: a part at the front of a text;
* `Moment.read?`: the moment that a text is.
-/

namespace Mustache.Toml

/-- A day of the calendar. -/
structure Date where
  year : Nat
  month : Nat
  day : Nat
  deriving DecidableEq, Repr

/-- A time of day, to the nanosecond. -/
structure Clock where
  hour : Nat
  minute : Nat
  second : Nat
  nanosecond : Nat
  deriving DecidableEq, Repr

/-- The distance to universal time, in minutes unless it is universal time itself. -/
inductive Offset where
  | universal
  | minutes (n : Int)
  deriving DecidableEq, Repr

/-- A date, a time of day, or both. -/
structure Moment where
  date : Option Date
  clock : Option Clock
  offset : Option Offset
  deriving DecidableEq, Repr

/-! ## Writing -/

/-- A number with zeros in front, up to a width. -/
def padded (width n : Nat) : String :=
  let digits := toString n
  String.ofList (List.replicate (width - digits.length) '0') ++ digits

/-- The text of a day. -/
def Date.render (d : Date) : String :=
  padded 4 d.year ++ "-" ++ padded 2 d.month ++ "-" ++ padded 2 d.day

/-- The text of a time, without zeros at the end of its fraction. -/
def Clock.render (t : Clock) : String :=
  let fraction := (padded 9 t.nanosecond).toList.reverse.dropWhile (· == '0')
  padded 2 t.hour ++ ":" ++ padded 2 t.minute ++ ":" ++ padded 2 t.second ++
    if fraction.isEmpty then "" else "." ++ String.ofList fraction.reverse

/-- The text of an offset. -/
def Offset.render : Offset → String
  | .universal => "Z"
  | .minutes n =>
    (if n < 0 then "-" else "+") ++ padded 2 (n.natAbs / 60) ++ ":" ++ padded 2 (n.natAbs % 60)

/-- The text of a moment. -/
def Moment.render (m : Moment) : String :=
  let date := (m.date.map Date.render).getD ""
  let clock := (m.clock.map Clock.render).getD ""
  (if m.date.isSome && m.clock.isSome then date ++ "T" ++ clock else date ++ clock) ++
    (m.offset.map Offset.render).getD ""

/-! ## Reading -/

/-- A number of `count` digits at the front, if it is in the range. -/
def digits? (count least greatest : Nat) (cs : List Char) : Option (Nat × List Char) :=
  let run := cs.take count
  let n := Decimal.valueOf 0 run
  if run.length = count ∧ run.all Char.isDigit ∧ least ≤ n ∧ n ≤ greatest then
    some (n, cs.drop count)
  else none

/-- The text after a character. -/
def past? (c : Char) : List Char → Option (List Char)
  | [] => none
  | d :: rest => if c = d then some rest else none

/-- The number of days of a month. -/
def daysOf (year month : Nat) : Nat :=
  if month = 2 then
    if year % 4 = 0 ∧ (year % 100 ≠ 0 ∨ year % 400 = 0) then 29 else 28
  else if month = 4 ∨ month = 6 ∨ month = 9 ∨ month = 11 then 30
  else 31

/-- A day at the front. -/
def date? (cs : List Char) : Option (Date × List Char) := do
  let (year, rest) ← digits? 4 0 9999 cs
  let (month, rest) ← digits? 2 1 12 (← past? '-' rest)
  let (day, rest) ← digits? 2 1 (daysOf year month) (← past? '-' rest)
  pure (⟨year, month, day⟩, rest)

/-- The nanoseconds of a fraction of a second; digits after the ninth do not count. -/
def nanoseconds (digits : List Char) : Nat :=
  let kept := digits.take 9
  Decimal.valueOf 0 (kept ++ List.replicate (9 - kept.length) '0')

/-- A time of day at the front. -/
def clock? (cs : List Char) : Option (Clock × List Char) := do
  let (hour, rest) ← digits? 2 0 23 cs
  let (minute, rest) ← digits? 2 0 59 (← past? ':' rest)
  let (second, rest) ← digits? 2 0 60 (← past? ':' rest)
  match rest with
  | '.' :: rest =>
    let fraction := rest.takeWhile Char.isDigit
    if fraction = [] then none
    else pure (⟨hour, minute, second, nanoseconds fraction⟩, rest.dropWhile Char.isDigit)
  | rest => pure (⟨hour, minute, second, 0⟩, rest)

/-- The offset that ends a text. -/
def offset? : List Char → Option Offset
  | [] => none
  | c :: rest =>
    if (c = 'Z' ∨ c = 'z') ∧ rest = [] then some .universal
    else if c = '+' ∨ c = '-' then do
      let (hour, rest) ← digits? 2 0 23 rest
      let (minute, rest) ← digits? 2 0 59 (← past? ':' rest)
      let n : Int := hour * 60 + minute
      if rest = [] then some (.minutes (if c = '-' then -n else n)) else none
    else none

/-- The moment that a text is. -/
def Moment.read? (cs : List Char) : Option Moment :=
  match date? cs with
  | some (date, []) => some ⟨some date, none, none⟩
  | some (date, mark :: rest) =>
    if mark = 'T' ∨ mark = 't' ∨ mark = ' ' then
      match clock? rest with
      | some (clock, []) => some ⟨some date, some clock, none⟩
      | some (clock, rest) => (offset? rest).map fun offset => ⟨some date, some clock, some offset⟩
      | none => none
    else none
  | none =>
    match clock? cs with
    | some (clock, []) => some ⟨none, some clock, none⟩
    | _ => none

end Mustache.Toml
