import AnchorLoss.Value
import AnchorLoss.Yaml.Error

namespace AnchorLoss.Yaml

structure ClockReading where
  hour : Nat
  minute : Nat
  second : Nat
  micro : Nat
  offset : Option Int

/-- A day as it is written, which may be none of the calendar, and the time on it. -/
structure Timestamp where
  year : Nat
  month : Nat
  day : Nat
  clock : Option ClockReading

namespace Timestamp

def isTimeBlank (c : Char) : Bool := c == ' ' || c == '\t'

def valueOfDigits (ds : List Char) : Nat := ds.foldl (fun n c => 10 * n + (c.toNat - 48)) 0

def digits? (count : Nat) (cs : List Char) : Option (Nat × List Char) :=
  let ds := cs.take count
  if ds.length = count ∧ ds.all Char.isDigit then some (valueOfDigits ds, cs.drop count) else none

def shortNumber? (cs : List Char) : Option (Nat × List Char) := digits? 2 cs <|> digits? 1 cs

def pass? (c : Char) : List Char → Option (List Char)
  | [] => none
  | d :: cs => if d = c then some cs else none

def fraction : List Char → Nat × List Char
  | '.' :: cs =>
    let ds := (cs.takeWhile Char.isDigit).take 6
    (valueOfDigits (ds ++ List.replicate (6 - ds.length) '0'), cs.dropWhile Char.isDigit)
  | cs => (0, cs)

def offsetMinutes? (cs : List Char) : Option Nat := do
  let (hours, cs) ← shortNumber? cs
  if cs.isEmpty then return 60 * hours
  let (minutes, cs) ← digits? 2 (← pass? ':' cs)
  if cs.isEmpty then some (60 * hours + minutes) else none

def offset? (cs : List Char) : Option (Option Int) :=
  if cs.isEmpty then some none
  else match cs.dropWhile isTimeBlank with
    | ['Z'] => some (some 0)
    | '+' :: cs => (offsetMinutes? cs).map fun n => some (n : Int)
    | '-' :: cs => (offsetMinutes? cs).map fun n => some (-(n : Int))
    | _ => none

def clock? (cs : List Char) : Option ClockReading := do
  let (hour, cs) ← shortNumber? cs
  let (minute, cs) ← digits? 2 (← pass? ':' cs)
  let (second, cs) ← digits? 2 (← pass? ':' cs)
  let (micro, cs) := fraction cs
  return ⟨hour, minute, second, micro, ← offset? cs⟩

def separator? : List Char → Option (List Char)
  | [] => none
  | c :: cs =>
    if c = 'T' || c = 't' then some cs
    else if isTimeBlank c then some (cs.dropWhile isTimeBlank)
    else none

def ofChars? (cs : List Char) : Option Timestamp := do
  let cs := if cs.getLast? = some '\n' then cs.dropLast else cs
  let (year, cs) ← digits? 4 cs
  let (month, cs) ← shortNumber? (← pass? '-' cs)
  let (day, cs) ← shortNumber? (← pass? '-' cs)
  if cs.isEmpty then return ⟨year, month, day, none⟩
  return ⟨year, month, day, some (← clock? (← separator? cs))⟩

/-- Whether a plain scalar is taken for a day or a time. A mere day needs two digits for its month and
two for its day. -/
def isPlain (cs : List Char) : Bool :=
  match ofChars? cs with
  | some t => t.clock.isSome || cs.length == 10
  | none => false

def value? (t : Timestamp) : Option Value := do
  let date ← Date.ofParts? t.year t.month t.day
  match t.clock with
  | none => return .date date
  | some c =>
    let time ← TimeOfDay.ofParts? c.hour c.minute c.second c.micro
    if c.offset.any fun minutes => 1440 ≤ minutes.natAbs then none
    else return .moment ⟨date, time, c.offset⟩

end Timestamp

def timeOf (cs : List Char) : Except Error Value :=
  match Timestamp.ofChars? cs with
  | none => .error .timeForm
  | some t => match t.value? with
    | some v => .ok v
    | none => .error .noValue

end AnchorLoss.Yaml
