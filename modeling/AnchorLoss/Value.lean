import AnchorLoss.Calendar
import AnchorLoss.Decimal.Numeral
import AnchorLoss.Decimal.Shortest
import AnchorLoss.Text.Quoted

namespace AnchorLoss

/-- A value of a document. The keys of a mapping are pairwise different and keep the order in which
they were first written. -/
inductive Value where
  | null
  | bool (b : Bool)
  | int (n : Int)
  | float (x : Float)
  | text (t : Text)
  | bytes (bs : List UInt8)
  | date (d : Date)
  | moment (m : Moment)
  | list (items : List Value)
  | set (members : List Value)
  | map (entries : List (Value × Value))
deriving Inhabited

inductive ConversionError where
  | wrongKind
  | malformed
  | overflow
deriving DecidableEq, Repr

namespace Value

def ofString (s : String) : Value := text (.ofString s)

def typeName : Value → String
  | null => "NoneType"
  | bool _ => "bool"
  | int _ => "int"
  | float _ => "float"
  | text _ => "str"
  | bytes _ => "bytes"
  | date _ => "datetime.date"
  | moment _ => "datetime.datetime"
  | list _ => "list"
  | set _ => "set"
  | map _ => "dict"

/-- Absent, zero and empty values count as nothing. -/
def isTruthy : Value → Bool
  | null => false
  | bool b => b
  | int n => n ≠ 0
  | float x => !Scalar.eq x Scalar.zero
  | text t => !t.isEmpty
  | bytes bs => !bs.isEmpty
  | date _ | moment _ => true
  | list items => !items.isEmpty
  | set members => !members.isEmpty
  | map entries => !entries.isEmpty

def charsOfBytes (bs : List UInt8) : List Char := bs.map fun b => Char.ofNat b.toNat

def renderBytes (bs : List UInt8) : String :=
  let t := Text.ofChars (charsOfBytes bs)
  let quote := t.quoteOf
  let write (p : CodePoint) : List Char :=
    if p.val < 128 then Text.escape quote p else Text.escapeCode p
  String.ofList ('b' :: quote :: t.points.flatMap write ++ [quote])

mutual

def render : Value → String
  | null => "None"
  | bool true => "True"
  | bool false => "False"
  | int n => toString n
  | float x => Decimal.shortestText (Binary.ofDouble x)
  | text t => t.quoted
  | bytes bs => renderBytes bs
  | date d => d.render
  | moment m => m.render
  | list items => "[" ++ ", ".intercalate (renderItems items) ++ "]"
  | set [] => "set()"
  | set members => "\x7b" ++ ", ".intercalate (renderItems members) ++ "\x7d"
  | map entries => "\x7b" ++ ", ".intercalate (renderEntries entries) ++ "\x7d"

def renderItems : List Value → List String
  | [] => []
  | v :: vs => render v :: renderItems vs

def renderEntries : List (Value × Value) → List String
  | [] => []
  | (k, v) :: es => (render k ++ ": " ++ render v) :: renderEntries es

end

def hasWrittenForm : Value → Bool
  | int n => decide (n.natAbs < Nat.pow 10 Decimal.maxIntegerDigits)
  | _ => true

def floatOfInt (n : Int) : Except ConversionError Float :=
  let x := Float.ofInt n
  if x.isInf then .error .overflow else .ok x

def numeral? : Value → Option (List Char)
  | text t => t.toChars?
  | bytes bs => if bs.all (· < 128) then some (charsOfBytes bs) else none
  | _ => none

def toInt : Value → Except ConversionError Int
  | int n => .ok n
  | bool b => .ok b.toInt
  | float x => (Binary.truncate (Binary.ofDouble x)).mapError fun
    | .notANumber => .malformed
    | .infinite => .overflow
  | v@(text _) | v@(bytes _) => match v.numeral?.bind Decimal.integerOfChars? with
    | some n => .ok n
    | none => .error .malformed
  | _ => .error .wrongKind

def toFloat : Value → Except ConversionError Float
  | float x => .ok x
  | int n => floatOfInt n
  | bool b => .ok (Float.ofInt b.toInt)
  | v@(text _) | v@(bytes _) => match v.numeral?.bind Decimal.numberOfChars? with
    | some x => .ok x
    | none => .error .malformed
  | _ => .error .wrongKind

def items : Value → Except ConversionError (List Value)
  | list vs | set vs => .ok vs
  | bytes bs => .ok (bs.map fun b => int b.toNat)
  | text t => .ok (t.points.map fun p => text ⟨[p]⟩)
  | map entries => .ok (entries.map Prod.fst)
  | _ => .error .wrongKind

/-- The exact order of an integer and a binary64 number, if the latter is one. -/
def compareIntFloat (n : Int) (x : Float) : Option Ordering :=
  match Binary.ofDouble x with
  | .notANumber => none
  | .infinity .positive => some .lt
  | .infinity .negative => some .gt
  | .zero _ => some (compare n 0)
  | .finite s m e _ =>
    some (if 0 ≤ e then compare n (s.apply (m * Nat.pow 2 e.toNat : Nat))
      else compare (n * Nat.pow 2 (-e).toNat) (s.apply m))

def compareFloats (x y : Float) : Option Ordering :=
  if Scalar.lt x y then some .lt
  else if Scalar.lt y x then some .gt
  else if Scalar.eq x y then some .eq
  else none

def wholeNumber? : Value → Option Int
  | int n => some n
  | bool b => some b.toInt
  | _ => none

def compareNumbers (a b : Value) : Option Ordering :=
  match a.wholeNumber?, b.wholeNumber?, a, b with
  | some m, some n, _, _ => some (compare m n)
  | some m, none, _, float y => compareIntFloat m y
  | none, some n, float x, _ => (compareIntFloat n x).map Ordering.swap
  | none, none, float x, float y => compareFloats x y
  | _, _, _, _ => none

/-- Whether two values are the same key of a mapping; numbers of equal value are. -/
def sameKey : Value → Value → Bool
  | null, null => true
  | text s, text t => s == t
  | bytes bs, bytes cs => bs == cs
  | date d, date e => d == e
  | moment m, moment n => m.compare? n == some .eq
  | a, b => compareNumbers a b == some .eq

def lookup (key : Value) : List (Value × Value) → Option Value
  | [] => none
  | (k, v) :: es => if k.sameKey key then some v else lookup key es

/-- Sets an entry: a new key goes to the end, an old one keeps its place. -/
def insert (key value : Value) : List (Value × Value) → List (Value × Value)
  | [] => [(key, value)]
  | (k, v) :: es => if k.sameKey key then (k, value) :: es else (k, v) :: insert key value es

def merge (entries others : List (Value × Value)) : List (Value × Value) :=
  others.foldl (fun es (k, v) => insert k v es) entries

def isNumber : Value → Bool
  | int _ | float _ | bool _ => true
  | _ => false

/-- Orders two values of one kind: texts by code points, numbers by size, days and times by time. -/
def compare? : Value → Value → Option Ordering
  | text s, text t => some (if s = t then .eq else if s.le t then .lt else .gt)
  | bytes bs, bytes cs =>
    some (if bs = cs then .eq
      else if lexLe (bs.map UInt8.toNat) (cs.map UInt8.toNat) then .lt else .gt)
  | date d, date e => some (compare d.number e.number)
  | moment m, moment n => m.compare? n
  | a, b => compareNumbers a b

def areComparable (a b : Value) : Bool := a.isNumber && b.isNumber || (compare? a b).isSome

def isNotANumber : Value → Bool
  | float x => x.isNaN
  | _ => false

def keyLe (a b : Value) : Bool :=
  if a.isNotANumber then b.isNotANumber else compare? b a != some .lt

def sortKeys? (keys : List Value) : Option (List Value) :=
  if keys.tail.all fun key => keys.head?.any (areComparable · key) then
    some (keys.mergeSort keyLe)
  else none

end Value

end AnchorLoss
