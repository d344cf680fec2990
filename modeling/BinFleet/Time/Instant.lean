import BinFleet.Text.Hex
import BinFleet.Time.Calendar
import BinFleet.Time.Span

namespace BinFleet.Time

/-- Seconds and nanoseconds since 1970-01-01 in UTC, shown at an offset from UTC. -/
structure Instant where
  seconds : Int
  nanos : Nat
  offset : Int
  deriving DecidableEq, Repr

namespace Instant

/-- The first instant of year 1, which stands for no time at all. -/
def zero : Instant := ⟨-62135596800, 0, 0⟩

instance : Inhabited Instant := ⟨zero⟩

def isZero (t : Instant) : Bool := t.seconds == zero.seconds && t.nanos == 0

/-- Seconds as they are counted: in 64 bits from year 1, where a greater count wraps around. -/
def counted (seconds : Int) : Int := (seconds - zero.seconds).bmod (Nat.pow 2 64) + zero.seconds

def totalNanos (t : Instant) : Int := t.seconds * 1000000000 + t.nanos

def ofTotalNanos (n offset : Int) : Instant :=
  ⟨n / 1000000000, (n % 1000000000).toNat, offset⟩

def add (t : Instant) (s : Span) : Instant := ofTotalNanos (t.totalNanos + s.nanos) t.offset

def toUtc (t : Instant) : Instant := { t with offset := 0 }

def before (a b : Instant) : Bool := a.totalNanos < b.totalNanos

/-- Padded with zeros to a least width, the sign in front. -/
def paddedInt (width : Nat) (n : Int) : List Char :=
  let ds := Nat.toDigits 10 n.natAbs
  (if n < 0 then ['-'] else []) ++ (List.replicate (width - ds.length) '0' ++ ds)

/-- The first second of the calendar, in a year so far away that the cycle of leap years starts
there. -/
def firstSecond : Int := zero.seconds - (730692556 * 146097 + 306) * 86400

/-- Seconds on the clock at the offset. The calendar has `2 ^ 64` seconds and then starts again. -/
def clockSeconds (t : Instant) : Int :=
  (t.seconds + t.offset - firstSecond) % Int.pow 2 64 + firstSecond

def date (t : Instant) : Date := Date.ofDays (t.clockSeconds / 86400)

def renderOffset (offset : Int) : List Char :=
  if offset = 0 then ['Z']
  else
    -- Seconds are cut off first, so less than a minute has no sign of its own.
    let minutes := offset.tdiv 60
    (if minutes < 0 then '-' else '+') ::
      (paddedInt 2 (minutes.natAbs / 60) ++ ':' :: paddedInt 2 (minutes.natAbs % 60))

/-- RFC 3339 with as many digits of the fraction as there are. -/
def renderChars (t : Instant) : List Char :=
  let d := t.date
  let s := (t.clockSeconds % 86400).toNat
  paddedInt 4 d.year ++ '-' :: (paddedInt 2 d.month ++ '-' :: (paddedInt 2 d.day ++ 'T' ::
    (paddedInt 2 (s / 3600) ++ ':' :: (paddedInt 2 (s / 60 % 60) ++ ':' ::
      (paddedInt 2 (s % 60) ++ Span.fraction 9 t.nanos ++ renderOffset t.offset)))))

def render (t : Instant) : String := String.ofList t.renderChars

/-- Why an instant has no RFC 3339 text that can be exchanged. -/
inductive Unwritable where
  | year
  | offset
  deriving DecidableEq, Repr

def Unwritable.message : Unwritable → String
  | .year => "year outside of range [0,9999]"
  | .offset => "timezone hour outside of range [0,23]"

/-- The text for exchange: a year of four digits, an offset below a day. -/
def text (t : Instant) : Except Unwritable String :=
  if t.date.year < 0 ∨ 9999 < t.date.year then .error .year
  else if 24 * 3600 ≤ t.offset.natAbs then .error .offset
  else .ok t.render

def digit? (c : Char) : Option Nat :=
  if '0' ≤ c ∧ c ≤ '9' then some (c.toNat - '0'.toNat) else none

def twoDigits? : List Char → Option (Nat × List Char)
  | a :: b :: rest => do return ((← digit? a) * 10 + (← digit? b), rest)
  | _ => none

/-- One or two digits. -/
def hourDigits? (cs : List Char) : Option (Nat × List Char) :=
  match twoDigits? cs with
  | some r => some r
  | none =>
    match cs with
    | a :: rest => (digit? a).map (·, rest)
    | [] => none

def mark? (c : Char) : List Char → Option (List Char)
  | x :: rest => if x = c then some rest else none
  | [] => none

/-- A fraction of a second after a point or a comma; digits after the ninth are dropped. -/
def fraction (cs : List Char) : Nat × List Char :=
  match cs with
  | p :: d :: rest =>
    if (p = '.' ∨ p = ',') ∧ (digit? d).isSome then
      let isDigit := fun c => (digit? c).isSome
      let ds := (d :: rest).takeWhile isDigit
      let nine := (ds ++ List.replicate 9 '0').take 9
      (nine.foldl (fun n c => n * 10 + (digit? c).getD 0) 0, (d :: rest).dropWhile isDigit)
    else (0, cs)
  | _ => (0, cs)

/-- `Z`, or a sign with hours up to 24 and minutes up to 60. -/
def offset? (cs : List Char) : Option (Int × List Char) :=
  match cs with
  | 'Z' :: rest => some (0, rest)
  | s :: rest => do
    let (h, rest) ← twoDigits? rest
    let rest ← mark? ':' rest
    let (m, rest) ← twoDigits? rest
    if 24 < h ∨ 60 < m then none
    else if s = '+' then some (((h * 60 + m) * 60 : Nat), rest)
    else if s = '-' then some (-((h * 60 + m) * 60 : Nat), rest)
    else none
  | [] => none

/-- Reads an RFC 3339 text; the hour may have one digit. -/
def parseChars? (cs : List Char) : Option Instant := do
  let (century, cs) ← twoDigits? cs
  let (yearOfCentury, cs) ← twoDigits? cs
  let (month, cs) ← twoDigits? (← mark? '-' cs)
  let (day, cs) ← twoDigits? (← mark? '-' cs)
  let (hour, cs) ← hourDigits? (← mark? 'T' cs)
  let (minute, cs) ← twoDigits? (← mark? ':' cs)
  let (second, cs) ← twoDigits? (← mark? ':' cs)
  let (nanos, cs) := fraction cs
  let (offset, cs) ← offset? cs
  let year : Int := century * 100 + yearOfCentury
  if cs.isEmpty ∧ 1 ≤ month ∧ month ≤ 12 ∧ 1 ≤ day ∧ day ≤ daysInMonth year month ∧
      hour < 24 ∧ minute < 60 ∧ second < 60 then
    let local_ := Date.toDays ⟨year, month, day⟩ * 86400 + (hour * 3600 + minute * 60 + second : Nat)
    some ⟨local_ - offset, nanos, offset⟩
  else none

def parse? (s : String) : Option Instant := parseChars? s.toList

end Instant

end BinFleet.Time
