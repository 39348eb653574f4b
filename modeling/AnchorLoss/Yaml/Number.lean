import AnchorLoss.Decimal.Numeral
import AnchorLoss.Yaml.Scalar

namespace AnchorLoss.Yaml

open Decimal (takeSign)

def isBinaryDigit (c : Char) : Bool := c == '0' || c == '1' || c == '_'

def isOctalDigit (c : Char) : Bool := ('0' ≤ c && c ≤ '7') || c == '_'

def isDecimalDigit (c : Char) : Bool := c.isDigit || c == '_'

def isHexDigit (c : Char) : Bool := (Text.hexDigitValue? c).isSome || c == '_'

def isSexagesimalPart : List Char → Bool
  | [a] => a.isDigit
  | [a, b] => '0' ≤ a && a ≤ '5' && b.isDigit
  | _ => false

def colonParts : List Char → List (List Char)
  | [] => [[]]
  | c :: cs =>
    if c = ':' then [] :: colonParts cs
    else match colonParts cs with
      | [] => [[c]]
      | part :: parts => (c :: part) :: parts

def isWhole (cs : List Char) : Bool :=
  match (takeSign cs).2 with
  | ['0'] => true
  | '0' :: 'b' :: d :: ds => (d :: ds).all isBinaryDigit
  | '0' :: 'x' :: d :: ds => (d :: ds).all isHexDigit
  | '0' :: ds => ds.all isOctalDigit
  | d :: ds =>
    match colonParts (d :: ds) with
    | whole :: parts =>
      '1' ≤ d && d ≤ '9' && whole.all isDecimalDigit && parts.all isSexagesimalPart
    | [] => false
  | [] => false

def endsFraction : List Char → Bool
  | [] => true
  | e :: sign :: d :: ds =>
    (e == 'e' || e == 'E') && (sign == '+' || sign == '-') && (d :: ds).all Char.isDigit
  | _ => false

def isPointed (cs : List Char) : Bool :=
  match cs.dropWhile isDecimalDigit with
  | '.' :: rest => endsFraction (rest.dropWhile isDecimalDigit)
  | ':' :: rest =>
    match rest.dropWhile (· != '.') with
    | '.' :: fraction =>
      (colonParts (rest.takeWhile (· != '.'))).all isSexagesimalPart && fraction.all isDecimalDigit
    | _ => false
  | _ => false

/-- Whether a scalar has the form of a fraction. Only infinity and what starts with a digit may have
a sign. -/
def isFraction (cs : List Char) : Bool :=
  let body := (takeSign cs).2
  match body with
  | '.' :: rest =>
    let name := String.ofList rest
    name == "inf" || name == "Inf" || name == "INF" ||
      body.length == cs.length &&
        (name == "nan" || name == "NaN" || name == "NAN" ||
          rest.head?.any Char.isDigit && endsFraction (rest.dropWhile isDecimalDigit))
  | d :: _ => d.isDigit && isPointed body
  | [] => false

def withoutUnderscores (cs : List Char) : List Char := cs.filter (· != '_')

def orNoValue {α : Type} (r : Option α) : Except Error α :=
  match r with
  | some x => .ok x
  | none => .error .noValue

def sexagesimalWhole (digits : List Int) : Int := digits.foldl (fun n d => 60 * n + d) 0

def magnitudeOf (cs : List Char) : Except Error Int :=
  match cs with
  | [] => .error .noDigit
  | ['0'] => .ok 0
  | '0' :: 'b' :: ds => orNoValue (Decimal.integerIn? .binary ds)
  | '0' :: 'x' :: ds => orNoValue (Decimal.integerIn? .hexadecimal ds)
  | '0' :: _ => orNoValue (Decimal.integerIn? .octal cs)
  | cs => orNoValue (((colonParts cs).mapM Decimal.integerOfChars?).map sexagesimalWhole)

def wholeOf (cs : List Char) : Except Error Int :=
  let (negative, body) := takeSign (withoutUnderscores cs)
  (magnitudeOf body).map fun n => if negative then -n else n

/-- The sum of sexagesimal digits, the first of which has the lowest place. A place that no binary64
number reaches is out of range. -/
def sexagesimalFraction (place : Nat) (total : Float) : List Float → Except Error Float
  | [] => .ok total
  | x :: xs =>
    let weight := Float.ofNat place
    if weight.isInf then .error .placeRange
    else sexagesimalFraction (60 * place) (total + x * weight) xs

def numberOf (cs : List Char) : Except Error Float := orNoValue (Decimal.numberOfChars? cs)

def fractionOf (cs : List Char) : Except Error Float := do
  let cs := (withoutUnderscores cs).map Char.toLower
  if cs.isEmpty then throw .noDigit
  let (negative, body) := takeSign cs
  let signed (x : Float) : Float := if negative then -x else x
  if String.ofList body = ".inf" then return signed Decimal.infinity
  if String.ofList body = ".nan" then return Decimal.notANumber
  match colonParts body with
  | [body] => return signed (← numberOf body)
  | parts =>
    let digits ← parts.mapM numberOf
    return signed (← sexagesimalFraction 1 0 digits.reverse)

end AnchorLoss.Yaml
