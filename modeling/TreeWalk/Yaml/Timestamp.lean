import TreeWalk.Numeric.Numeral
import TreeWalk.Value.Display
import TreeWalk.Yaml.Error

/-! # Times of YAML documents

A time is a calendar day, or a day with a time of day: hours, minutes and seconds between
colons, then a fraction of a second if there is one, then the distance from universal time
if it is known.

## Key results

* `Timestamp.isPlain` says which plain scalars are times.
* `Timestamp.read` gives the day, or the day with its time. -/

namespace TreeWalk

namespace Yaml

namespace Timestamp

/-! ## The parts of a text -/

/-- The distance from universal time, as it is written. -/
inductive Zone where
  | universal
  | offset (isNegative : Bool) (hours minutes : List Char)

/-- The digits of a time of day. -/
structure Clock where
  hour : List Char
  minute : List Char
  second : List Char
  fraction : List Char
  zone : Option Zone

/-- The digits of a time. -/
structure Parts where
  year : List Char
  month : List Char
  day : List Char
  clock : Option Clock

/-- As many digits as there are, from `least` to `most`, and what follows them. -/
def digits? (least most : Nat) (cs : List Char) : Option (List Char × List Char) :=
  let digits := (cs.take most).takeWhile Char.isDigit
  if least ≤ digits.length then some (digits, cs.drop digits.length) else none

/-- What follows the given character, if it comes first. -/
def after? (c : Char) : List Char → Option (List Char)
  | first :: rest => if first = c then some rest else none
  | [] => none

def isGap (c : Char) : Bool :=
  c == ' ' || c == '\t'

/-- The distance from universal time that ends a text, if there is one. -/
def zone? (cs : List Char) : Option (Option Zone) :=
  -- Without a zone nothing may be left, not even blanks.
  match cs.dropWhile isGap with
  | [] => if cs.isEmpty then some none else none
  | ['Z'] => some (some .universal)
  | sign :: rest => do
    guard (sign == '+' || sign == '-')
    let (hours, rest) ← digits? 1 2 rest
    match rest with
    | [] => return some (.offset (sign == '-') hours [])
    | _ =>
      let (minutes, rest) ← digits? 2 2 (← after? ':' rest)
      guard rest.isEmpty
      return some (.offset (sign == '-') hours minutes)

/-- The time of day that ends a text. -/
def clock? (cs : List Char) : Option Clock := do
  let (hour, rest) ← digits? 1 2 cs
  let (minute, rest) ← digits? 2 2 (← after? ':' rest)
  let (second, rest) ← digits? 2 2 (← after? ':' rest)
  let (fraction, rest) := match rest with
    | '.' :: rest => (rest.takeWhile Char.isDigit, rest.dropWhile Char.isDigit)
    | _ => ([], rest)
  return { hour, minute, second, fraction, zone := ← zone? rest }

/-- The parts of a text that is a time. -/
def parts? (cs : List Char) : Option Parts := do
  let (year, rest) ← digits? 4 4 cs
  let (month, rest) ← digits? 1 2 (← after? '-' rest)
  let (day, rest) ← digits? 1 2 (← after? '-' rest)
  match rest with
  | [] => return { year, month, day, clock := none }
  | 'T' :: rest | 't' :: rest => return { year, month, day, clock := some (← clock? rest) }
  | c :: rest =>
    -- A blank may stand in place of the letter.
    guard (isGap c)
    return { year, month, day, clock := some (← clock? (rest.dropWhile isGap)) }

/-- Whether a plain scalar is a time; a day alone has two digits for the month and the day. -/
def isPlain (cs : List Char) : Bool :=
  match parts? cs with
  | some parts => parts.clock.isSome || (parts.month.length == 2 && parts.day.length == 2)
  | none => false

/-! ## Days -/

/-- The number of days of a month. -/
def daysIn (year month : Nat) : Nat :=
  if month = 2 then
    -- Years of whole centuries are leap years only every four hundred years.
    if year % 4 = 0 ∧ (year % 100 ≠ 0 ∨ year % 400 = 0) then 29 else 28
  else if month ∈ [4, 6, 9, 11] then 30
  else 31

/-- The day of a calendar date, if there is one. -/
def calendarDay (year month day : Nat) : Except Error Date :=
  if year = 0 then .error (.yearRange year)
  else if month = 0 ∨ 12 < month then .error .monthRange
  else if day = 0 ∨ daysIn year month < day then .error .dayRange
  else .ok ⟨year, month, day⟩

/-! ## Days with their time -/

/-- A length of time in minutes, as messages show it: in whole days and the seconds left. -/
def displayMinutes (minutes : Int) : String :=
  let days := minutes / 1440
  let seconds := minutes % 1440 * 60
  let parts := (if days = 0 then [] else ["days=" ++ toString days]) ++
    if seconds = 0 then [] else ["seconds=" ++ toString seconds]
  "datetime.timedelta(" ++ (if parts.isEmpty then "0" else ", ".intercalate parts) ++ ")"

/-- A day with its time, in universal time or so many minutes ahead of it if that is known. -/
structure Moment where
  day : Date
  hour : Nat
  minute : Nat
  second : Nat
  microsecond : Nat
  offset : Option Int

namespace Moment

/-- The moment inside a sentence. -/
def plain (m : Moment) : String :=
  m.day.plain ++ " " ++ paddedNat 2 m.hour ++ ":" ++ paddedNat 2 m.minute ++ ":" ++
    paddedNat 2 m.second ++
    (if m.microsecond = 0 then "" else "." ++ paddedNat 6 m.microsecond) ++
    match m.offset with
    | none => ""
    | some minutes =>
      let distance := minutes.natAbs
      (if minutes < 0 then "-" else "+") ++ paddedNat 2 (distance / 60) ++ ":" ++
        paddedNat 2 (distance % 60)

/-- The moment as messages show it, without seconds that are zero. -/
def display (m : Moment) : String :=
  let seconds := if m.microsecond ≠ 0 then [m.second, m.microsecond]
    else if m.second ≠ 0 then [m.second] else []
  let numbers := [m.day.year, m.day.month, m.day.day, m.hour, m.minute] ++ seconds
  let zone := match m.offset with
    | none => []
    | some 0 => ["tzinfo=datetime.timezone.utc"]
    | some minutes => ["tzinfo=datetime.timezone(" ++ displayMinutes minutes ++ ")"]
  "datetime.datetime(" ++ ", ".intercalate (numbers.map toString ++ zone) ++ ")"

/-- The moment as a value. -/
def value (m : Moment) : Value :=
  let value : Foreign := { typeName := "datetime.datetime", display := m.display, plain := m.plain }
  .record (.foreign value) [] []

end Moment

/-- The number that digits spell; without digits it is zero. -/
def number (digits : List Char) : Nat :=
  Numeral.value 10 digits

/-- The minutes that a zone is ahead of universal time; they are less than a day. -/
def Zone.minutes : Zone → Except Error Int
  | .universal => .ok 0
  | .offset isNegative hours minutes =>
    let distance : Int := (60 * number hours + number minutes : Nat)
    let signed := if isNegative then -distance else distance
    if distance < 1440 then .ok signed else .error (.offsetRange (displayMinutes signed))

/-- The moment that the parts of a time give. -/
def moment (parts : Parts) (clock : Clock) : Except Error Moment := do
  let offset ← clock.zone.mapM Zone.minutes
  let day ← calendarDay (number parts.year) (number parts.month) (number parts.day)
  let hour := number clock.hour
  let minute := number clock.minute
  let second := number clock.second
  -- The limits are checked in the order of the parts.
  if 23 < hour then throw .hourRange
  if 59 < minute then throw .minuteRange
  if 59 < second then throw .secondRange
  -- Six digits count; fewer are filled up, and more are left out.
  let microsecond := number ((clock.fraction ++ List.replicate 6 '0').take 6)
  return { day, hour, minute, second, microsecond, offset }

/-- The day or moment that a text spells. -/
def read (text : String) : Except Error Value :=
  match parts? text.toList with
  | none => .error .notTime
  | some parts => match parts.clock with
    | none => .date <$> calendarDay (number parts.year) (number parts.month) (number parts.day)
    | some clock => Moment.value <$> moment parts clock

end Timestamp

end Yaml

end TreeWalk
