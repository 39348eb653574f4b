namespace AnchorLoss.Text.Base64

def sextet? (c : Char) : Option Nat :=
  if c.isUpper then some (c.toNat - 65)
  else if c.isLower then some (c.toNat - 71)
  else if c.isDigit then some (c.toNat + 4)
  else if c = '+' then some 62
  else if c = '/' then some 63
  else none

inductive Leftover where
  | none
  | six (bits : Nat)
  | four (bits : Nat)
  | two (bits : Nat)

/-- Reads the bytes up to the padding that completes a group, or to the end of the text, where no
group may be open. -/
def decode (pads : Nat) (left : Leftover) : List Char → Option (List UInt8)
  | [] => match left with
    | .none => some []
    | _ => Option.none
  | c :: cs =>
    match sextet? c, left with
    | some s, .none => decode 0 (.six s) cs
    | some s, .six bits => (decode 0 (.four (s % 16)) cs).map (.ofNat (4 * bits + s / 16) :: ·)
    | some s, .four bits => (decode 0 (.two (s % 4)) cs).map (.ofNat (16 * bits + s / 4) :: ·)
    | some s, .two bits => (decode 0 .none cs).map (.ofNat (64 * bits + s) :: ·)
    | Option.none, .four _ =>
      if c ≠ '=' then decode pads left cs
      else if pads = 0 then decode 1 left cs
      else some []
    | Option.none, .two _ => if c = '=' then some [] else decode pads left cs
    | Option.none, _ => decode pads left cs

end AnchorLoss.Text.Base64
