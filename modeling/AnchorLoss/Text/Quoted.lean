import AnchorLoss.Text.Basic
import AnchorLoss.Text.Printable

namespace AnchorLoss.Text

def quoteOf (t : Text) : Char :=
  if t.points.contains (.ofChar '\'') && !t.points.contains (.ofChar '"') then '"' else '\''

def hexDigit (n : Nat) : Char := if n < 10 then Char.ofNat (48 + n) else Char.ofNat (87 + n)

def hexDigits : (width n : Nat) → List Char
  | 0, _ => []
  | width + 1, n => hexDigits width (n / 16) ++ [hexDigit (n % 16)]

def escapeCode (p : CodePoint) : List Char :=
  let n := p.val
  if n < 0x100 then ['\\', 'x'] ++ hexDigits 2 n
  else if n < 0x10000 then ['\\', 'u'] ++ hexDigits 4 n
  else ['\\', 'U'] ++ hexDigits 8 n

def escape (quote : Char) (p : CodePoint) : List Char :=
  match p.toChar? with
  | none => escapeCode p
  | some c =>
    if c = quote || c = '\\' then ['\\', c]
    else if c = '\n' then ['\\', 'n']
    else if c = '\r' then ['\\', 'r']
    else if c = '\t' then ['\\', 't']
    else if isPrintable c then [c]
    else escapeCode p

/-- A text in messages. The quote is a single one, or a double one where the text holds single ones only. -/
def quoted (t : Text) : String :=
  let quote := quoteOf t
  String.ofList (quote :: t.points.flatMap (escape quote) ++ [quote])

end AnchorLoss.Text
