namespace AnchorLoss

/-- A code point of Unicode, which need not be a character. -/
abbrev CodePoint : Type := Fin 0x110000

namespace CodePoint

def ofChar (c : Char) : CodePoint :=
  ⟨c.toNat, c.valid.elim (fun h => Nat.lt_trans h (by decide)) And.right⟩

def toChar? (p : CodePoint) : Option Char :=
  if h : p.val.isValidChar then some (Char.ofNatAux p.val h) else none

@[simp] theorem ofChar_inj {c d : Char} : ofChar c = ofChar d ↔ c = d := by
  simp [ofChar, Fin.ext_iff, Char.toNat_inj]

@[simp] theorem toChar?_ofChar (c : Char) : (ofChar c).toChar? = some c := by
  have h : (ofChar c).val.isValidChar := c.valid
  rw [toChar?, dif_pos h]
  exact congrArg some (Char.ext rfl)

end CodePoint

def lexLe : List Nat → List Nat → Bool
  | [], _ => true
  | _ :: _, [] => false
  | m :: ms, n :: ns => m < n || (m == n && lexLe ms ns)

structure Text where
  points : List CodePoint
deriving DecidableEq, Repr, Inhabited

namespace Text

def ofChars (cs : List Char) : Text := ⟨cs.map CodePoint.ofChar⟩

def ofString (s : String) : Text := ofChars s.toList

def toChars? (t : Text) : Option (List Char) := t.points.mapM CodePoint.toChar?

def isEmpty (t : Text) : Bool := t.points.isEmpty

def le (s t : Text) : Bool := lexLe (s.points.map Fin.val) (t.points.map Fin.val)

@[simp] theorem ofChars_inj {cs ds : List Char} : ofChars cs = ofChars ds ↔ cs = ds := by
  simp only [ofChars, mk.injEq]
  exact List.map_inj_right fun _ _ => CodePoint.ofChar_inj.1

@[simp] theorem ofString_inj {s t : String} : ofString s = ofString t ↔ s = t := by
  simp [ofString, String.toList_inj]

end Text

end AnchorLoss
