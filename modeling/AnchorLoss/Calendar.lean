namespace AnchorLoss

def isLeapYear (year : Nat) : Bool := year % 4 == 0 && (year % 100 != 0 || year % 400 == 0)

def daysInMonth (year : Nat) : (month : Nat) → Nat
  | 4 | 6 | 9 | 11 => 30
  | 2 => if isLeapYear year then 29 else 28
  | _ => 31

structure Date where
  year : Nat
  month : Nat
  day : Nat
  year_pos : 1 ≤ year
  year_le : year ≤ 9999
  month_pos : 1 ≤ month
  month_le : month ≤ 12
  day_pos : 1 ≤ day
  day_le : day ≤ daysInMonth year month
deriving DecidableEq

namespace Date

def ofParts? (year month day : Nat) : Option Date :=
  if h : (1 ≤ year ∧ year ≤ 9999) ∧ (1 ≤ month ∧ month ≤ 12) ∧ 1 ≤ day ∧ day ≤ daysInMonth year month then
    some ⟨year, month, day, h.1.1, h.1.2, h.2.1.1, h.2.1.2, h.2.2.1, h.2.2.2⟩
  else none

def daysBeforeYear (year : Nat) : Nat :=
  let n := year - 1
  365 * n + n / 4 - n / 100 + n / 400

def number (d : Date) : Nat :=
  (List.range (d.month - 1)).foldl (fun n m => n + daysInMonth d.year (m + 1))
    (daysBeforeYear d.year + d.day)

end Date

structure TimeOfDay where
  hour : Nat
  minute : Nat
  second : Nat
  micro : Nat
  hour_lt : hour < 24
  minute_lt : minute < 60
  second_lt : second < 60
  micro_lt : micro < 1000000
deriving DecidableEq

namespace TimeOfDay

def ofParts? (hour minute second micro : Nat) : Option TimeOfDay :=
  if h : (hour < 24 ∧ minute < 60) ∧ second < 60 ∧ micro < 1000000 then
    some ⟨hour, minute, second, micro, h.1.1, h.1.2, h.2.1, h.2.2⟩
  else none

def toMicros (t : TimeOfDay) : Nat :=
  ((t.hour * 60 + t.minute) * 60 + t.second) * 1000000 + t.micro

def parts (t : TimeOfDay) : List Nat :=
  if t.micro ≠ 0 then [t.hour, t.minute, t.second, t.micro]
  else if t.second ≠ 0 then [t.hour, t.minute, t.second]
  else [t.hour, t.minute]

end TimeOfDay

/-- A time on a day. The minutes by which its clock is ahead of universal time may be known. -/
structure Moment where
  date : Date
  time : TimeOfDay
  offset : Option Int
deriving DecidableEq

namespace Moment

def instant (m : Moment) : Int :=
  (86400000000 * m.date.number + m.time.toMicros : Nat) - 60000000 * m.offset.getD 0

/-- The order of two moments; only where both offsets are known or neither is do they have one. -/
def compare? (m n : Moment) : Option Ordering :=
  if m.offset.isSome = n.offset.isSome then some (compare m.instant n.instant) else none

end Moment

def numberList (ns : List Nat) : String := ", ".intercalate (ns.map toString)

def Date.parts (d : Date) : List Nat := [d.year, d.month, d.day]

def Date.render (d : Date) : String := s!"datetime.date({numberList d.parts})"

def renderOffset (minutes : Int) : String :=
  if minutes = 0 then "datetime.timezone.utc"
  else if 0 < minutes then s!"datetime.timezone(datetime.timedelta(seconds={60 * minutes}))"
  else s!"datetime.timezone(datetime.timedelta(days=-1, seconds={60 * minutes + 86400}))"

def Moment.render (m : Moment) : String :=
  let zone := match m.offset with
    | some minutes => ", tzinfo=" ++ renderOffset minutes
    | none => ""
  s!"datetime.datetime({numberList (m.date.parts ++ m.time.parts)}{zone})"

end AnchorLoss
