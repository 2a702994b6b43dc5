/-!
# Dates and times of day

Calendar dates of the years 1 to 9999 and times with microseconds and an optional offset from UTC, with
their usual text and the form that names the type. Two times with offsets are the same when they are the
same time in UTC.
-/

namespace VirtNet

/-- A calendar date. -/
structure Date where
  year : Nat
  month : Nat
  day : Nat
deriving DecidableEq, Repr

/-- A date with a time of day. -/
structure Moment where
  date : Date
  hour : Nat
  minute : Nat
  second : Nat
  microsecond : Nat
  /-- Seconds east of UTC, when known. -/
  offset : Option Int
deriving DecidableEq, Repr

/-- A number in base ten with zeros in front up to the given width. -/
def padded (width n : Nat) : String :=
  let ds := Nat.toDigits 10 n
  String.ofList (List.replicate (width - ds.length) '0' ++ ds)

namespace Date

/-- Whether the Gregorian calendar gives the year a 29th of February. -/
def isLeap (year : Nat) : Bool := year % 4 == 0 && (year % 100 != 0 || year % 400 == 0)

/-- The number of days of a month. -/
def monthLength (year month : Nat) : Nat :=
  if month = 2 then if isLeap year then 29 else 28
  else if month = 4 ∨ month = 6 ∨ month = 9 ∨ month = 11 then 30
  else 31

/-- Whether the calendar has this date. -/
def inCalendar (d : Date) : Bool :=
  1 ≤ d.year && d.year ≤ 9999 && 1 ≤ d.month && d.month ≤ 12 && 1 ≤ d.day &&
    d.day ≤ monthLength d.year d.month

/-- The number of days from the first of January of the year one. -/
def dayNumber (d : Date) : Nat :=
  let past := d.year - 1
  let months := (List.range (d.month - 1)).foldl (fun days m => days + monthLength d.year (m + 1)) 0
  365 * past + past / 4 - past / 100 + past / 400 + months + (d.day - 1)

/-- Year, month and day with hyphens. -/
def toText (d : Date) : String := s!"{padded 4 d.year}-{padded 2 d.month}-{padded 2 d.day}"

/-- The form that names the type. -/
def literal (d : Date) : String := s!"datetime.date({d.year}, {d.month}, {d.day})"

end Date

namespace Moment

/-- The number of seconds in a day. -/
def daySeconds : Nat := 86400

/-- Whether the calendar has this date and the day this time; an offset is less than a day. -/
def inCalendar (m : Moment) : Bool :=
  m.date.inCalendar && m.hour ≤ 23 && m.minute ≤ 59 && m.second ≤ 59 &&
    m.offset.all fun o => o.natAbs < daySeconds

/-- The microseconds from the start of the year one, as the clock shows them. -/
def clock (m : Moment) : Nat :=
  1000000 * (daySeconds * m.date.dayNumber + 3600 * m.hour + 60 * m.minute + m.second) + m.microsecond

/-- Whether two times are the same: with offsets when they are the same time in UTC, without when the
clocks show the same. A time with an offset is never the same as one without. -/
def same (m n : Moment) : Bool :=
  match m.offset, n.offset with
  | none, none => m.clock == n.clock
  | some o, some o' => (m.clock : Int) - 1000000 * o == (n.clock : Int) - 1000000 * o'
  | _, _ => false

/-- The date a number of days after the first of March of the year zero. Years are counted from March,
so that a leap day ends one; 400 of them have 146097 days. -/
def dateFromMarch (days : Nat) : Date :=
  let era := days / 146097
  let day := days % 146097
  let year := (day - day / 1460 + day / 36524 - day / 146096) / 365
  let dayOfYear := day - (365 * year + year / 4 - year / 100)
  let month := (5 * dayOfYear + 2) / 153
  let inNextYear := if month < 10 then 0 else 1
  ⟨400 * era + year + inNextYear, if month < 10 then month + 3 else month - 9,
    dayOfYear - (153 * month + 2) / 5 + 1⟩

/-- The number of days from the first of March of the year zero to the start of 1970. -/
def epochDay : Nat := 719468

/-- The time in UTC a number of seconds after the start of 1970. -/
def ofSeconds (seconds : Nat) : Moment :=
  let time := seconds % daySeconds
  ⟨dateFromMarch (epochDay + seconds / daySeconds), time / 3600, time / 60 % 60, time % 60, 0, some 0⟩

/-- An offset as hours and minutes with a sign. -/
def offsetText (o : Int) : String :=
  let n := o.natAbs
  let sign := if o < 0 then "-" else "+"
  s!"{sign}{padded 2 (n / 3600)}:{padded 2 (n / 60 % 60)}"

/-- A date and a time with `separator` between them; whole seconds show no fraction. -/
def textWith (separator : String) (m : Moment) : String :=
  let fraction := if m.microsecond = 0 then "" else "." ++ padded 6 m.microsecond
  let time := s!"{padded 2 m.hour}:{padded 2 m.minute}:{padded 2 m.second}{fraction}"
  let offset := m.offset.elim "" offsetText
  s!"{m.date.toText}{separator}{time}{offset}"

/-- A date and a time with a space between them. -/
def toText (m : Moment) : String := m.textWith " "

/-- The form of an offset that names the type. Negative offsets count from the day before. -/
def offsetLiteral (o : Int) : String :=
  if o = 0 then "datetime.timezone.utc"
  else if o < 0 then
    s!"datetime.timezone(datetime.timedelta(days=-1, seconds={o + (daySeconds : Int)}))"
  else s!"datetime.timezone(datetime.timedelta(seconds={o}))"

/-- The form that names the type. Trailing zero seconds are left out. -/
def literal (m : Moment) : String :=
  let d := m.date
  let seconds :=
    if m.microsecond != 0 then s!", {m.second}, {m.microsecond}"
    else if m.second != 0 then s!", {m.second}"
    else ""
  let zone := m.offset.elim "" fun o => s!", tzinfo={offsetLiteral o}"
  s!"datetime.datetime({d.year}, {d.month}, {d.day}, {m.hour}, {m.minute}{seconds}{zone})"

end Moment

end VirtNet
