namespace AnchorLoss

inductive Level where
  | notset
  | debug
  | info
  | warning
  | error
  | critical
deriving DecidableEq, Repr

inductive LevelError where
  | text
  | table
deriving DecidableEq, Repr

namespace Level

def rank : Level → Nat
  | notset => 0
  | debug => 10
  | info => 20
  | warning => 30
  | error => 40
  | critical => 50

def name : Level → String
  | notset => "NOTSET"
  | debug => "DEBUG"
  | info => "INFO"
  | warning => "WARNING"
  | error => "ERROR"
  | critical => "CRITICAL"

def capital (c : Char) : List Char :=
  match c.toNat with
  | 0x131 => ['I']
  | 0x17f => ['S']
  | 0xfb05 | 0xfb06 => ['S', 'T']
  | _ => [c.toUpper]

def ofName (name : String) : Except LevelError Level :=
  match String.ofList (name.toList.flatMap capital) with
  | "NOTSET" => .ok notset
  | "DEBUG" => .ok debug
  | "WARN" | "WARNING" => .ok warning
  | "ERROR" => .ok error
  | "CRITICAL" | "FATAL" => .ok critical
  | "BASIC_FORMAT" => .error .text
  | "_STYLES" => .error .table
  | _ => .ok info

def shows (asked level : Level) : Bool := asked.rank ≤ level.rank

end Level

end AnchorLoss
