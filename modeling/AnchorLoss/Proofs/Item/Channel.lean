import Mathlib
import AnchorLoss.Item

namespace AnchorLoss

def setAt {α : Type} {n : Nat} (v : Vector α n) (i : Fin n) (x : α) : Vector α n :=
  v.set i.val x i.isLt

section SetAt

variable {α β : Type} {n : Nat} (v : Vector α n) (i j : Fin n) (x : α)

theorem get_setAt : (setAt v i x).get j = if j = i then x else v.get j := by
  rw [setAt, Vector.get_eq_getElem, Vector.getElem_set, Vector.get_eq_getElem]
  simp only [Fin.ext_iff, eq_comm]

theorem setAt_get : setAt v i (v.get i) = v := by
  ext j hj
  simp only [setAt, Vector.get_eq_getElem, Vector.set_getElem_self]

theorem map_setAt (f : α → β) : (setAt v i x).map f = setAt (v.map f) i (f x) :=
  Vector.map_set

end SetAt

namespace Channel

variable {k : Nat}

theorem armOffset_lt (j : Fin 4) : j.val < 10 + (k + 1) := by
  omega

theorem armLogit_lt (j : Fin 2) : 4 + j.val < 10 + (k + 1) := by
  omega

theorem odmOffset_lt (j : Fin 4) : 6 + j.val < 10 + (k + 1) := by
  omega

theorem odmLogit_lt (j : Fin (k + 1)) : 10 + j.val < 10 + (k + 1) := by
  omega

def armOffset (j : Fin 4) : Fin (10 + (k + 1)) := ⟨j.val, armOffset_lt j⟩

def armLogit (j : Fin 2) : Fin (10 + (k + 1)) := ⟨4 + j.val, armLogit_lt j⟩

def odmOffset (j : Fin 4) : Fin (10 + (k + 1)) := ⟨6 + j.val, odmOffset_lt j⟩

def odmLogit (j : Fin (k + 1)) : Fin (10 + (k + 1)) := ⟨10 + j.val, odmLogit_lt j⟩

end Channel

namespace Heads

variable {α : Type} {k : Nat}

def channel (h : Heads α k) (c : Fin (10 + (k + 1))) : α := h.toVector.get c

theorem toVector_ofVector (row : Vector α (10 + (k + 1))) : (ofVector row).toVector = row := by
  ext i hi
  simp only [toVector, ofVector, Vector.getElem_append, Vector.getElem_mk]
  split
  · split
    · split
      · obtain rfl | rfl | rfl | rfl : i = 0 ∨ i = 1 ∨ i = 2 ∨ i = 3 := by omega
        all_goals rfl
      · obtain rfl | rfl : i = 4 ∨ i = 5 := by omega
        all_goals rfl
    · obtain rfl | rfl | rfl | rfl : i = 6 ∨ i = 7 ∨ i = 8 ∨ i = 9 := by omega
      all_goals rfl
  · rename_i h
    have hi' : 10 + (i - 10) = i := by omega
    simp [hi']

theorem channel_ofVector (row : Vector α (10 + (k + 1))) (c : Fin (10 + (k + 1))) :
    (ofVector row).channel c = row.get c := by
  rw [channel, toVector_ofVector]

theorem channel_armOffsets (h : Heads α k) (j : Fin 4) :
    h.channel (Channel.armOffset j) = h.armOffsets.get j := by
  simp only [channel, toVector, Channel.armOffset, Vector.get_eq_getElem, Vector.getElem_append]
  rw [dif_pos (by omega), dif_pos (by omega), dif_pos (by omega)]

theorem channel_armLogits (h : Heads α k) (j : Fin 2) :
    h.channel (Channel.armLogit j) = h.armLogits.get j := by
  simp only [channel, toVector, Channel.armLogit, Vector.get_eq_getElem, Vector.getElem_append]
  rw [dif_pos (by omega), dif_pos (by omega), dif_neg (by omega)]
  simp only [Nat.add_sub_cancel_left]

theorem channel_odmOffsets (h : Heads α k) (j : Fin 4) :
    h.channel (Channel.odmOffset j) = h.odmOffsets.get j := by
  simp only [channel, toVector, Channel.odmOffset, Vector.get_eq_getElem, Vector.getElem_append]
  rw [dif_pos (by omega), dif_neg (by omega)]
  simp only [Nat.reduceAdd, Nat.add_sub_cancel_left]

theorem channel_odmLogits (h : Heads α k) (j : Fin (k + 1)) :
    h.channel (Channel.odmLogit j) = h.odmLogits.get j := by
  simp only [channel, toVector, Channel.odmLogit, Vector.get_eq_getElem, Vector.getElem_append]
  rw [dif_neg (by omega)]
  simp only [Nat.reduceAdd, Nat.add_sub_cancel_left]

section Block

variable {m : Nat} {block : Heads α k → Vector α m} {place : Fin m → Fin (10 + (k + 1))}
  (hblock : ∀ (h : Heads α k) (j : Fin m), h.channel (place j) = (block h).get j)

include hblock

theorem block_eq {h h' : Heads α k} (hc : ∀ j, h.channel (place j) = h'.channel (place j)) :
    block h = block h' := by
  ext j hj
  have hj := hc ⟨j, hj⟩
  rw [hblock, hblock] at hj
  exact hj

theorem get_map_block {n : Nat} {h h' : Vector (Heads α k) n} {a : Fin n}
    (hc : ∀ j, (h.get a).channel (place j) = (h'.get a).channel (place j)) :
    (h.map block).get a = (h'.map block).get a := by
  rw [Vector.get_map, Vector.get_map]
  exact block_eq hblock hc

end Block

/-- Every channel belongs to one of the four blocks. -/
@[elab_as_elim]
theorem channel_cases {motive : Fin (10 + (k + 1)) → Prop}
    (armOffsets : ∀ j : Fin 4, motive (Channel.armOffset j))
    (armLogits : ∀ j : Fin 2, motive (Channel.armLogit j))
    (odmOffsets : ∀ j : Fin 4, motive (Channel.odmOffset j))
    (odmLogits : ∀ j : Fin (k + 1), motive (Channel.odmLogit j)) (c : Fin (10 + (k + 1))) :
    motive c := by
  obtain ⟨c, hc⟩ := c
  by_cases h₄ : c < 4
  · exact armOffsets ⟨c, h₄⟩
  · by_cases h₆ : c < 6
    · have h := armLogits ⟨c - 4, by omega⟩
      simpa only [Channel.armLogit, Nat.add_sub_cancel' (Nat.le_of_not_lt h₄)] using h
    · by_cases h₁₀ : c < 10
      · have h := odmOffsets ⟨c - 6, by omega⟩
        simpa only [Channel.odmOffset, Nat.add_sub_cancel' (Nat.le_of_not_lt h₆)] using h
      · have h := odmLogits ⟨c - 10, by omega⟩
        simpa only [Channel.odmLogit, Nat.add_sub_cancel' (Nat.le_of_not_lt h₁₀)] using h

theorem toVector_inj {h h' : Heads α k} (hv : h.toVector = h'.toVector) : h = h' := by
  obtain ⟨ao, al, oo, ol⟩ := h
  obtain ⟨ao', al', oo', ol'⟩ := h'
  obtain ⟨hrest, rfl⟩ := Vector.append_inj hv
  obtain ⟨harm, rfl⟩ := Vector.append_inj hrest
  obtain ⟨rfl, rfl⟩ := Vector.append_inj harm
  rfl

def setChannel (h : Heads α k) (c : Fin (10 + (k + 1))) (x : α) : Heads α k :=
  ofVector (setAt h.toVector c x)

theorem setChannel_channel (h : Heads α k) (c : Fin (10 + (k + 1))) :
    h.setChannel c (h.channel c) = h := by
  refine toVector_inj ?_
  rw [setChannel, toVector_ofVector, channel, setAt_get]

theorem setChannel_armLogits (h : Heads α k) (j : Fin 2) (x : α) :
    h.setChannel (Channel.armLogit j) x = { h with armLogits := setAt h.armLogits j x } := by
  refine toVector_inj ?_
  rw [setChannel, toVector_ofVector]
  simp only [toVector, setAt, Channel.armLogit]
  rw [Vector.set_append_left (by omega), Vector.set_append_left (by omega),
    Vector.set_append_right (by omega) (by omega)]
  simp only [Nat.add_sub_cancel_left]

theorem setChannel_odmLogits (h : Heads α k) (j : Fin (k + 1)) (x : α) :
    h.setChannel (Channel.odmLogit j) x = { h with odmLogits := setAt h.odmLogits j x } := by
  refine toVector_inj ?_
  rw [setChannel, toVector_ofVector]
  simp only [toVector, setAt, Channel.odmLogit]
  rw [Vector.set_append_right (by omega) (by omega)]
  simp only [Nat.reduceAdd, Nat.add_sub_cancel_left]

end Heads

namespace Item

theorem val_armLabels {n : Nat} (positive : Vector Bool n) (a : Fin n) :
    ((armLabels positive).get a).val = (positive.get a).toNat := by
  rw [armLabels, Vector.get_map, Mining.objectLabel]
  exact Nat.mod_eq_of_lt (Bool.toNat_lt _)

variable {F : Precision → Type} [Arithmetic F] {p : Precision} {n k : Nat} (d : Detector (Wide F))
  (heads : Vector (Heads (F p) k) n) {item : Item F p n k}

theorem gradient_of_no_positives (h : item.numPositives = 0) (a : Fin n)
    (c : Fin (10 + (k + 1))) : ((item.gradient d heads).get a).get c = Scalar.zero := by
  rw [gradient, if_pos h]
  simp [Vector.get_replicate]

theorem gradient_armOffsets (h : item.numPositives ≠ 0) (a : Fin n) (j : Fin 4) :
    ((item.gradient d heads).get a).get (Channel.armOffset j) =
      ((smoothErrorGradient (Scalar.ofNat item.numPositives) (heads.map Heads.armOffsets)
        item.targets item.positive).get a).get j := by
  rw [gradient, if_neg h, Vector.get_ofFn]
  exact Heads.channel_armOffsets _ j

theorem gradient_armLogits (h : item.numPositives ≠ 0) (a : Fin n) (j : Fin 2) :
    ((item.gradient d heads).get a).get (Channel.armLogit j) =
      ((crossEntropyGradient (armNormalizer d item.numPositives) (heads.map Heads.armLogits)
        (armLabels item.positive) (Vector.replicate n true)).get a).get j := by
  rw [gradient, if_neg h, Vector.get_ofFn]
  exact Heads.channel_armLogits _ j

theorem gradient_odmOffsets (h : item.numPositives ≠ 0) (a : Fin n) (j : Fin 4) :
    ((item.gradient d heads).get a).get (Channel.odmOffset j) =
      ((smoothErrorGradient (Scalar.ofNat item.numPositives) (heads.map Heads.odmOffsets)
        item.targets item.positive).get a).get j := by
  rw [gradient, if_neg h, Vector.get_ofFn]
  exact Heads.channel_odmOffsets _ j

theorem gradient_odmLogits (h : item.numPositives ≠ 0) (a : Fin n) (j : Fin (k + 1)) :
    ((item.gradient d heads).get a).get (Channel.odmLogit j) =
      ((crossEntropyGradient (Scalar.ofNat item.numPositives) (heads.map Heads.odmLogits)
        item.labels item.used).get a).get j := by
  rw [gradient, if_neg h, Vector.get_ofFn]
  exact Heads.channel_odmLogits _ j

end Item

end AnchorLoss
