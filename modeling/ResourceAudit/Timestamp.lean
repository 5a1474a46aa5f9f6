import ResourceAudit.Text.Digits

/-!
# Timestamps

A date and a time of day with the offset of its clock from UTC, as RFC 3339 writes them. The text
is read from the left, and a component that cannot be read is reported before one that is out of
range. A sixtieth second is read as the last nanosecond of the one before it, and only where a
leap second can be: at the end of a month in UTC.
-/

namespace ResourceAudit

/-! ## Calendar -/

def isLeapYear (year : Nat) : Bool := year % 4 == 0 && (year % 100 != 0 || year % 400 == 0)

/-- The number of days of a month, for months from 1 to 12. -/
def daysInMonth (year month : Nat) : Nat :=
  if month = 2 then if isLeapYear year then 29 else 28
  else if month = 4 || month = 6 || month = 9 || month = 11 then 30
  else 31

/-- A point of time as a clock shows it, and the minutes that the clock is ahead of UTC. -/
structure Timestamp where
  year : Nat
  month : Nat
  day : Nat
  hour : Nat
  minute : Nat
  second : Nat
  nanosecond : Nat
  offset : Int
  year_lt : year < 10000
  month_pos : 1 ≤ month
  month_le : month ≤ 12
  day_pos : 1 ≤ day
  day_le : day ≤ daysInMonth year month
  hour_lt : hour < 24
  minute_lt : minute < 60
  second_lt : second < 60
  nanosecond_lt : nanosecond < 1000000000
  offset_lt : offset.natAbs < 24 * 60
deriving DecidableEq, Repr

namespace Timestamp

def epoch : Timestamp where
  year := 1970
  month := 1
  day := 1
  hour := 0
  minute := 0
  second := 0
  nanosecond := 0
  offset := 0
  year_lt := by decide
  month_pos := by decide
  month_le := by decide
  day_pos := by decide
  day_le := by decide
  hour_lt := by decide
  minute_lt := by decide
  second_lt := by decide
  nanosecond_lt := by decide
  offset_lt := by decide

/-! ## Writing -/

/-- The digits of a number, filled up with zeros in front to a width. -/
def padded (width n : Nat) : List Char :=
  let ds := Nat.toDigits 10 n
  List.replicate (width - ds.length) '0' ++ ds

/-- The fraction of a second, without zeros at its end. -/
def writeFraction (nanosecond : Nat) : List Char :=
  if nanosecond = 0 then []
  else '.' :: ((padded 9 nanosecond).reverse.dropWhile (· == '0')).reverse

/-- The offset, as hours and minutes with a sign; none is `Z`. -/
def writeOffset (offset : Int) : List Char :=
  if offset = 0 then ['Z']
  else
    (if offset < 0 then '-' else '+') ::
      padded 2 (offset.natAbs / 60) ++ ':' :: padded 2 (offset.natAbs % 60)

def write (t : Timestamp) : List Char :=
  padded 4 t.year ++ '-' :: padded 2 t.month ++ '-' :: padded 2 t.day ++
    'T' :: padded 2 t.hour ++ ':' :: padded 2 t.minute ++ ':' :: padded 2 t.second ++
    writeFraction t.nanosecond ++ writeOffset t.offset

def toText (t : Timestamp) : String := String.ofList t.write

/-! ## Faults -/

/-- A part of the text of a timestamp. -/
inductive Component where
  | year
  | month
  | day
  | separator
  | hour
  | minute
  | second
  | subsecond
  | offsetHour
  | offsetMinute
deriving DecidableEq, Repr

def Component.name : Component → String
  | year => "year"
  | month => "month"
  | day => "day"
  | separator => "separator"
  | hour => "hour"
  | minute => "minute"
  | second => "second"
  | subsecond => "subsecond"
  | offsetHour => "offset hour"
  | offsetMinute => "offset minute"

/-- Why a text is no timestamp. -/
inductive Fault where
  | unreadable (component : Component)
  | literal
  | outOfRange (component : Component)
  | trailing
deriving DecidableEq, Repr

def Fault.message : Fault → String
  | unreadable c => s!"the '{c.name}' component could not be parsed"
  | literal => "a character literal was not valid"
  | outOfRange c => s!"{c.name} was not in range"
  | trailing => "unexpected trailing characters; the end of input was expected"

/-! ## Reading -/

/-- Reads a number of exactly so many digits that satisfies a condition. -/
def readDigits (c : Component) (width : Nat) (ok : Nat → Bool) (s : List Char) :
    Except Fault (Nat × List Char) :=
  let ds := s.take width
  if ds.length = width && ds.all Char.isDigit && ok (Text.decimal ds) then
    .ok (Text.decimal ds, s.drop width)
  else .error (.unreadable c)

def readLiteral (c : Char) : List Char → Except Fault (List Char)
  | [] => .error .literal
  | d :: rest => if d = c then .ok rest else .error .literal

/-- Reads the character between date and time, which may be any of ASCII. -/
def readSeparator : List Char → Except Fault (List Char)
  | [] => .error (.unreadable .separator)
  | c :: rest => if c.toNat < 128 then .ok rest else .error (.unreadable .hour)

/-- Reads the fraction of a second, if there is one, in nanoseconds. Digits behind the ninth do
not count. -/
def readFraction : List Char → Except Fault (Nat × List Char)
  | '.' :: s =>
    let ds := s.takeWhile Char.isDigit
    if ds.isEmpty then .error (.unreadable .subsecond)
    else
      let nine := ds.take 9
      .ok (Text.decimal (nine ++ List.replicate (9 - nine.length) '0'), s.dropWhile Char.isDigit)
  | s => .ok (0, s)

/-- Reads the hours and minutes of an offset, behind its sign. -/
def readOffsetParts (s : List Char) : Except Fault ((Nat × Nat) × List Char) := do
  let (hours, s) ← readDigits .offsetHour 2 (· ≤ 23) s
  let s ← readLiteral ':' s
  let (minutes, s) ← readDigits .offsetMinute 2 (fun _ => true) s
  if minutes < 60 then return ((hours, minutes), s) else throw (.outOfRange .offsetMinute)

/-- Reads the offset, in minutes. -/
def readOffset : List Char → Except Fault (Int × List Char)
  | 'Z' :: s => .ok (0, s)
  | 'z' :: s => .ok (0, s)
  | '+' :: s => (readOffsetParts s).map fun ((h, m), rest) => ((h * 60 + m : Nat), rest)
  | '-' :: s => (readOffsetParts s).map fun ((h, m), rest) => (-(h * 60 + m : Nat), rest)
  | _ => .error (.unreadable .offsetHour)

/-- The components of a timestamp as they are spelled. -/
structure Spelled where
  year : Nat
  month : Nat
  day : Nat
  hour : Nat
  minute : Nat
  second : Nat
  nanosecond : Nat
  offset : Int
deriving DecidableEq, Repr

/-- Reads all components, up to the end of the text. -/
def readSpelled (s : List Char) : Except Fault Spelled := do
  let (year, s) ← readDigits .year 4 (fun _ => true) s
  let s ← readLiteral '-' s
  let (month, s) ← readDigits .month 2 (· ≠ 0) s
  let s ← readLiteral '-' s
  let (day, s) ← readDigits .day 2 (fun _ => true) s
  let s ← readSeparator s
  let (hour, s) ← readDigits .hour 2 (fun _ => true) s
  let s ← readLiteral ':' s
  let (minute, s) ← readDigits .minute 2 (fun _ => true) s
  let s ← readLiteral ':' s
  let (second, s) ← readDigits .second 2 (fun _ => true) s
  let (nanosecond, s) ← readFraction s
  let (offset, s) ← readOffset s
  if s.isEmpty then return { year, month, day, hour, minute, second, nanosecond, offset }
  else throw .trailing

/-- Whether a leap second can follow the minute: in UTC it is the last one of a month. -/
def endsMonth (p : Spelled) : Bool :=
  let minutes : Int := (p.hour * 60 + p.minute : Nat) - p.offset
  let days := daysInMonth p.year p.month
  minutes % 1440 == 1439 &&
    (if minutes < 0 then p.day == 1
     else if minutes < 1440 then p.day == days
     else p.day + 1 == days)

/-- The timestamp of components that are in range, without regard to leap seconds. -/
def ofSpelled (p : Spelled) : Except Fault Timestamp :=
  if hy : 10000 ≤ p.year then .error (.outOfRange .year)
  else if hm : p.month < 1 ∨ 12 < p.month then .error (.outOfRange .month)
  else if hd : p.day < 1 ∨ daysInMonth p.year p.month < p.day then .error (.outOfRange .day)
  else if hh : 24 ≤ p.hour then .error (.outOfRange .hour)
  else if hn : 60 ≤ p.minute then .error (.outOfRange .minute)
  else if hs : 60 ≤ p.second then .error (.outOfRange .second)
  else if hf : 1000000000 ≤ p.nanosecond then .error (.outOfRange .subsecond)
  else if ho : 24 * 60 ≤ p.offset.natAbs then .error (.outOfRange .offsetHour)
  else .ok
    { year := p.year
      month := p.month
      day := p.day
      hour := p.hour
      minute := p.minute
      second := p.second
      nanosecond := p.nanosecond
      offset := p.offset
      year_lt := by omega
      month_pos := by omega
      month_le := by omega
      day_pos := by omega
      day_le := by omega
      hour_lt := by omega
      minute_lt := by omega
      second_lt := by omega
      nanosecond_lt := by omega
      offset_lt := by omega }

def parse (text : String) : Except Fault Timestamp := do
  let p ← readSpelled text.toList
  if p.second = 60 then
    let t ← ofSpelled { p with second := 59, nanosecond := 999999999 }
    if endsMonth p then return t else throw (.outOfRange .second)
  else ofSpelled p

end Timestamp

end ResourceAudit
