import HazardDispatch.Json.Decode
import HazardDispatch.Text.Blank
import HazardDispatch.Time.Duration

/-!
# Points in time

An instant is counted in seconds and nanoseconds from the start of 1970, in UTC. Its text is that of
RFC 3339. Reading is lenient about blanks and about leading zeros: blanks may stand before each
number and before the zone, a blank may stand for the `T`, and the colon of the zone may be left
out. A sixtieth second is a leap second and is kept as such.

* `Instant.ofText?`   reading; dates run over the years from -262143 to 262142;
* `Instant.text`      writing, with 0, 3, 6 or 9 digits of the fraction, the fewest that are exact,
                      and with the given word for the zone.
-/

namespace HazardDispatch

@[ext] structure Instant where
  /-- Whole seconds since the start of 1970. -/
  seconds : Int
  /-- Nanoseconds after that; `10 ^ 9` or more inside a leap second. -/
  nanos : Nat
deriving DecidableEq, Repr, Inhabited

namespace Instant

/-! ## calendar -/

def isLeapYear (y : Int) : Bool := y % 4 == 0 && (y % 100 != 0 || y % 400 == 0)

def daysInMonth (y : Int) (m : Nat) : Nat :=
  if m = 2 then (if isLeapYear y then 29 else 28)
  else if m = 4 ∨ m = 6 ∨ m = 9 ∨ m = 11 then 30
  else 31

/-- Days from the start of 1970 to a date. Years are counted from March, so that the leap day is the
last day of its year. -/
def daysFromDate (y : Int) (m d : Nat) : Int :=
  let y := if m ≤ 2 then y - 1 else y
  let era := y.fdiv 400
  let yearOfEra := y - era * 400
  let month := (m + 9) % 12
  let dayOfYear : Int := (153 * month + 2) / 5 + d - 1
  let dayOfEra := yearOfEra * 365 + yearOfEra.fdiv 4 - yearOfEra.fdiv 100 + dayOfYear
  era * 146097 + dayOfEra - 719468

/-- Year, month and day of the date so many days after the start of 1970. -/
def dateOfDays (days : Int) : Int × Nat × Nat :=
  let z := days + 719468
  let era := z.fdiv 146097
  let doe := (z - era * 146097).toNat
  let yoe := (doe - doe / 1460 + doe / 36524 - doe / 146096) / 365
  let doy := doe - (365 * yoe + yoe / 4 - yoe / 100)
  let mp := (5 * doy + 2) / 153
  let d := doy - (153 * mp + 2) / 5 + 1
  let m := if mp < 10 then mp + 3 else mp - 9
  let y : Int := yoe + era * 400
  (if m ≤ 2 then y + 1 else y, m, d)

def leastYear : Int := -262143

def greatestYear : Int := 262142

/-! ## writing -/

def yearText (y : Int) : String :=
  if 0 ≤ y ∧ y ≤ 9999 then Decimal.padded 4 y.toNat
  else (if y < 0 then "-" else "+") ++ Decimal.padded 4 y.natAbs

/-- The fraction of a second with its point, in groups of three digits. -/
def fractionText (n : Nat) : String :=
  if n = 0 then ""
  else if n % 1000000 = 0 then "." ++ Decimal.padded 3 (n / 1000000)
  else if n % 1000 = 0 then "." ++ Decimal.padded 6 (n / 1000)
  else "." ++ Decimal.padded 9 n

/-- The date and time in UTC, followed by the word `zone`. -/
def text (zone : String) (t : Instant) : String :=
  let days := t.seconds.fdiv 86400
  let second := (t.seconds - days * 86400).toNat
  let (y, m, d) := dateOfDays days
  let leap := if Duration.nanosPerSecond ≤ t.nanos then 1 else 0
  let two := Decimal.padded 2
  yearText y ++ "-" ++ two m ++ "-" ++ two d ++ "T" ++ two (second / 3600) ++ ":" ++
    two (second / 60 % 60) ++ ":" ++ two (second % 60 + leap) ++
    fractionText (t.nanos % Duration.nanosPerSecond) ++ zone

/-! ## reading -/

/-- A number of at least one digit and at most `most`, if there is such a bound. -/
def number? (most : Option Nat) (cs : List Char) : Option (Nat × List Char) :=
  let run := cs.takeWhile Char.isDigit
  let ds := match most with
    | some n => run.take n
    | none => run
  (Decimal.natural? ds).map (·, cs.drop ds.length)

/-- A number of one or two digits after blanks, within bounds. -/
def field? (least most : Nat) (cs : List Char) : Option (Nat × List Char) := do
  let (n, cs) ← number? (some 2) (Text.trimStart cs)
  if least ≤ n ∧ n ≤ most then some (n, cs) else none

/-- A year after blanks: four digits at most, or any number of them after a sign. -/
def year? (cs : List Char) : Option (Int × List Char) :=
  match Text.trimStart cs with
  | '-' :: r => (number? none r).map fun (n, t) => (-(n : Int), t)
  | '+' :: r => (number? none r).map fun (n, t) => ((n : Int), t)
  | r => (number? (some 4) r).map fun (n, t) => ((n : Int), t)

/-- The separator `c`, after blanks. -/
def separator? (c : Char) (cs : List Char) : Option (List Char) :=
  match Text.trimStart cs with
  | d :: r => if d = c then some r else none
  | [] => none

/-- A fraction of a second in nanoseconds, if one stands here; digits after the ninth are dropped. -/
def fraction? : List Char → Option (Nat × List Char)
  | '.' :: r =>
    let run := r.takeWhile Char.isDigit
    let ds := run.take 9
    (Decimal.natural? ds).map fun n => (n * Nat.pow 10 (9 - ds.length), r.drop run.length)
  | r => some (0, r)

/-- Hours and minutes of a zone, with anything between them that is a colon or blank. -/
def zoneMinutes? : List Char → Option (Nat × List Char)
  | a :: b :: r => do
    let h ← Decimal.natural? [a, b]
    match r.dropWhile fun c => c == ':' || Text.isBlank c with
    | c :: d :: t => do
      let m ← Decimal.natural? [c, d]
      if m < 60 then some (h * 60 + m, t) else none
    | _ => none
  | _ => none

/-- The offset of a zone in minutes. -/
def zone? (cs : List Char) : Option (Int × List Char) :=
  let signed (negative : Bool) (r : List Char) := do
    let (m, t) ← zoneMinutes? r
    if m < 24 * 60 then some (if negative then -(m : Int) else m, t) else none
  match cs with
  | 'Z' :: r => some (0, r)
  | 'z' :: r => some (0, r)
  | '+' :: r => signed false r
  | '-' :: r => signed true r
  | '−' :: r => signed true r
  | a :: b :: c :: r =>
    if [a.toUpper, b.toUpper, c.toUpper] = ['U', 'T', 'C'] then some (0, r) else none
  | _ => none

/-- The instant of a date, a time of day and an offset; nothing if the calendar has no such date. -/
def ofParts? (y : Int) (m d hour minute second nanos : Nat) (offset : Int) : Option Instant :=
  if leastYear ≤ y ∧ y ≤ greatestYear ∧ d ≤ daysInMonth y m then
    let leap := second == 60
    let local_ : Int := daysFromDate y m d * 86400 + hour * 3600 + minute * 60 +
      (if leap then 59 else second)
    let utc := local_ - offset * 60
    let (year, _, _) := dateOfDays (utc.fdiv 86400)
    if leastYear ≤ year ∧ year ≤ greatestYear then
      some ⟨utc, if leap then nanos + Duration.nanosPerSecond else nanos⟩
    else none
  else none

/-- The instant that a text names. -/
def ofText? (s : String) : Option Instant := do
  let (y, cs) ← year? s.toList
  let (m, cs) ← field? 1 12 (← separator? '-' cs)
  let (d, cs) ← field? 1 31 (← separator? '-' cs)
  let cs ← match cs with
    | 'T' :: r => some r
    | 't' :: r => some r
    | ' ' :: r => some r
    | _ => none
  let (hour, cs) ← field? 0 23 cs
  let (minute, cs) ← field? 0 59 (← separator? ':' cs)
  let (second, cs) ← field? 0 60 (← separator? ':' cs)
  let (nanos, cs) ← fraction? cs
  let (offset, rest) ← zone? (Text.trimStart cs)
  if rest.isEmpty then ofParts? y m d hour minute second nanos offset else none

def toJson (t : Instant) : Json := .text (t.text "Z")

def ofJson : Reader Instant := fun j => do
  match ofText? (← Json.asText j) with
  | some t => return t
  | none => throw .mismatch

end Instant
end HazardDispatch
