import Mathlib
import AnchorLoss.Proofs.Engine.Record

namespace AnchorLoss

section Masked

variable {α : Type} [Scalar α] {n k : Nat}

theorem maskedSum_congr {mask : Vector Bool n} {f g : Fin n → α}
    (h : ∀ i, mask.get i = true → f i = g i) : maskedSum mask f = maskedSum mask g := by
  have hfg : (fun i => if mask.get i then f i else Scalar.zero) =
      fun i => if mask.get i then g i else Scalar.zero := by
    funext i
    by_cases hi : mask.get i = true
    · rw [if_pos hi, if_pos hi, h i hi]
    · rw [if_neg hi, if_neg hi]
  rw [maskedSum, maskedSum, hfg]

theorem maskedRows_congr {normalizer : α} {mask : Vector Bool n} {f g : Fin n → Vector α k}
    (h : ∀ i, mask.get i = true → f i = g i) :
    maskedRows normalizer mask f = maskedRows normalizer mask g := by
  have hfg : (fun i => (if mask.get i then f i else Vector.replicate k Scalar.zero).map
      (· / normalizer)) =
      fun i => (if mask.get i then g i else Vector.replicate k Scalar.zero).map (· / normalizer) := by
    funext i
    by_cases hi : mask.get i = true
    · rw [if_pos hi, if_pos hi, h i hi]
    · rw [if_neg hi, if_neg hi]
  rw [maskedRows, maskedRows, hfg]

theorem maskedRows_unselected (normalizer : α) {mask : Vector Bool n} (row : Fin n → Vector α k)
    {i : Fin n} (h : mask.get i = false) (j : Fin k) :
    ((maskedRows normalizer mask row).get i).get j = Scalar.zero / normalizer := by
  rw [maskedRows, Vector.get_ofFn, h]
  simp [Vector.get_replicate]

variable {mask : Vector Bool n} {logits logits' : Vector (Vector α k) n}

theorem crossEntropy_congr (eps : α) (labels : Vector (Fin k) n)
    (h : ∀ i, mask.get i = true → logits.get i = logits'.get i) :
    crossEntropy eps logits labels mask = crossEntropy eps logits' labels mask :=
  maskedSum_congr fun i hi => by rw [h i hi]

theorem crossEntropyGradient_congr (normalizer : α) (labels : Vector (Fin k) n)
    (h : ∀ i, mask.get i = true → logits.get i = logits'.get i) :
    crossEntropyGradient normalizer logits labels mask =
      crossEntropyGradient normalizer logits' labels mask :=
  maskedRows_congr fun i hi => by rw [h i hi]

theorem smoothError_congr (targets : Vector (Vector α k) n)
    (h : ∀ i, mask.get i = true → logits.get i = logits'.get i) :
    smoothError logits targets mask = smoothError logits' targets mask :=
  maskedSum_congr fun i hi => by rw [h i hi]

theorem smoothErrorGradient_congr (normalizer : α) (targets : Vector (Vector α k) n)
    (h : ∀ i, mask.get i = true → logits.get i = logits'.get i) :
    smoothErrorGradient normalizer logits targets mask =
      smoothErrorGradient normalizer logits' targets mask :=
  maskedRows_congr fun i hi => by rw [h i hi]

end Masked

variable {F : Precision → Type} [Arithmetic F] {p : Precision} {n k : Nat}

namespace Item

omit [Arithmetic F] in
/-- Whether the loss looks at a channel of an anchor: offsets count at positive anchors, the
confidences of the refinement head everywhere, and class scores where they are used. -/
def reads (item : Item F p n k) (a : Fin n) (c : Nat) : Bool :=
  if c < 4 then item.positive.get a
  else if c < 6 then true
  else if c < 10 then item.positive.get a
  else item.used.get a

section Reads

variable (item : Item F p n k) (a : Fin n)

omit [Arithmetic F] in
@[simp] theorem reads_armOffsets (j : Fin 4) :
    item.reads a (Channel.armOffset j : Fin (10 + (k + 1))) = item.positive.get a := by
  simp [reads, Channel.armOffset]

omit [Arithmetic F] in
@[simp] theorem reads_armLogits (j : Fin 2) :
    item.reads a (Channel.armLogit j : Fin (10 + (k + 1))) = true := by
  have h : 4 + j.val < 6 := by omega
  simp [reads, Channel.armLogit, h]

omit [Arithmetic F] in
@[simp] theorem reads_odmOffsets (j : Fin 4) :
    item.reads a (Channel.odmOffset j : Fin (10 + (k + 1))) = item.positive.get a := by
  have h₄ : ¬ 6 + j.val < 4 := by omega
  have h₁₀ : 6 + j.val < 10 := by omega
  simp [reads, Channel.odmOffset, h₄, h₁₀]

omit [Arithmetic F] in
@[simp] theorem reads_odmLogits (j : Fin (k + 1)) :
    item.reads a (Channel.odmLogit j) = item.used.get a := by
  have h₄ : ¬ 10 + j.val < 4 := by omega
  have h₆ : ¬ 10 + j.val < 6 := by omega
  simp [reads, Channel.odmLogit, h₄, h₆]

end Reads

/-- Two predictions for an image agree in the channels that are read. -/
def Agree (item : Item F p n k) (h h' : Vector (Heads (F p) k) n) : Prop :=
  ∀ (a : Fin n) (c : Fin (10 + (k + 1))), item.reads a c = true →
    (h.get a).channel c = (h'.get a).channel c

variable {item : Item F p n k} {h h' : Vector (Heads (F p) k) n}

omit [Arithmetic F] in
theorem Agree.armOffsets (ha : item.Agree h h') (a : Fin n) (hp : item.positive.get a = true) :
    (h.map Heads.armOffsets).get a = (h'.map Heads.armOffsets).get a :=
  Heads.get_map_block Heads.channel_armOffsets fun j => ha a _ ((item.reads_armOffsets a j).trans hp)

omit [Arithmetic F] in
theorem Agree.armLogits (ha : item.Agree h h') (a : Fin n) :
    (h.map Heads.armLogits).get a = (h'.map Heads.armLogits).get a :=
  Heads.get_map_block Heads.channel_armLogits fun j => ha a _ (item.reads_armLogits a j)

omit [Arithmetic F] in
theorem Agree.odmOffsets (ha : item.Agree h h') (a : Fin n) (hp : item.positive.get a = true) :
    (h.map Heads.odmOffsets).get a = (h'.map Heads.odmOffsets).get a :=
  Heads.get_map_block Heads.channel_odmOffsets fun j => ha a _ ((item.reads_odmOffsets a j).trans hp)

omit [Arithmetic F] in
theorem Agree.odmLogits (ha : item.Agree h h') (a : Fin n) (hu : item.used.get a = true) :
    (h.map Heads.odmLogits).get a = (h'.map Heads.odmLogits).get a :=
  Heads.get_map_block Heads.channel_odmLogits fun j => ha a _ ((item.reads_odmLogits a j).trans hu)

variable (d : Detector (Wide F))

theorem withTerms_of_agree (ha : item.Agree h h') : item.withTerms d h' = item.withTerms d h := by
  have hal := crossEntropy_congr (convert d.epsilon) (armLabels item.positive)
    fun a (_ : (Vector.replicate n true).get a = true) => ha.armLogits a
  have hao := smoothError_congr item.targets fun a => ha.armOffsets a
  have hol := crossEntropy_congr (convert d.epsilon) item.labels fun a => ha.odmLogits a
  have hoo := smoothError_congr item.targets fun a => ha.odmOffsets a
  simp only [withTerms, termsOf, hal, hao, hol, hoo]

theorem gradient_of_agree (ha : item.Agree h h') : item.gradient d h' = item.gradient d h := by
  have hal := crossEntropyGradient_congr (armNormalizer d item.numPositives)
    (armLabels item.positive) fun a (_ : (Vector.replicate n true).get a = true) => ha.armLogits a
  have hao := smoothErrorGradient_congr (Scalar.ofNat item.numPositives) item.targets fun a =>
    ha.armOffsets a
  have hol := crossEntropyGradient_congr (Scalar.ofNat item.numPositives) item.labels fun a =>
    ha.odmLogits a
  have hoo := smoothErrorGradient_congr (Scalar.ofNat item.numPositives) item.targets fun a =>
    ha.odmOffsets a
  simp only [gradient, hal, hao, hol, hoo]

theorem gradient_unread (heads : Vector (Heads (F p) k) n) {a : Fin n} {c : Fin (10 + (k + 1))}
    (hc : item.reads a c = false) : ((item.gradient d heads).get a).get c = Scalar.zero ∨
      (item.numPositives ≠ 0 ∧
        ((item.gradient d heads).get a).get c = Scalar.zero / Scalar.ofNat item.numPositives) := by
  by_cases h : item.numPositives = 0
  · exact .inl (gradient_of_no_positives d heads h a c)
  · refine .inr ⟨h, ?_⟩
    induction c using Heads.channel_cases with
    | armOffsets j =>
      rw [gradient_armOffsets d heads h]
      exact maskedRows_unselected _ _ (by simpa using hc) j
    | armLogits j => simp at hc
    | odmOffsets j =>
      rw [gradient_odmOffsets d heads h]
      exact maskedRows_unselected _ _ (by simpa using hc) j
    | odmLogits j =>
      rw [gradient_odmLogits d heads h]
      exact maskedRows_unselected _ _ (by simpa using hc) j

end Item

inductive Pass.Alike (d : Detector (Wide F)) : Pass F n k → Pass F n k → Prop where
  | mk {q : Precision} {form : Form} {is js : List (PassImage F q n k)}
    (items : is.map PassImage.item = js.map PassImage.item)
    (gradients : is.map (fun i => i.item.gradient d i.heads) =
      js.map fun i => i.item.gradient d i.heads) : Pass.Alike d ⟨q, form, is⟩ ⟨q, form, js⟩

namespace Pass

variable {d : Detector (Wide F)} {pass pass' : Pass F n k}

theorem Alike.refl (pass : Pass F n k) : Alike d pass pass := .mk rfl rfl

omit [Arithmetic F] in
theorem length_of_items {is js : List (PassImage F p n k)}
    (h : is.map PassImage.item = js.map PassImage.item) : is.length = js.length := by
  simpa using congrArg List.length h

omit [Arithmetic F] in
theorem map_of_items {β : Type} {is js : List (PassImage F p n k)}
    (h : is.map PassImage.item = js.map PassImage.item) (f : Item F p n k → β) :
    (is.map fun i => f i.item) = js.map fun i => f i.item := by
  have hf := congrArg (List.map f) h
  rw [List.map_map, List.map_map] at hf
  exact hf

theorem Alike.loss (h : Alike d pass pass') : pass.loss = pass'.loss := by
  cases h with
  | mk items _ =>
    simp only [Pass.loss, map_of_items items fun i => i.terms.total, length_of_items items]

theorem Alike.breakdown (h : Alike d pass pass') : pass.breakdown = pass'.breakdown := by
  cases h with
  | mk items _ => simp only [Pass.breakdown, breakdowns, map_of_items items Item.breakdown]

theorem Alike.shape (h : Alike d pass pass') : pass.shape = pass'.shape := by
  cases h with
  | mk items _ => simp only [Pass.shape, length_of_items items]

theorem Alike.gradient (h : Alike d pass pass') : pass.gradient d = pass'.gradient d := by
  cases h with
  | mk items gradients => simp only [Pass.gradient, gradients, length_of_items items]

end Pass

def SavedPass.Alike (d : Detector (Wide F)) (s s' : SavedPass F n k) : Prop :=
  s.consumed = s'.consumed ∧ Pass.Alike d s.pass s'.pass

namespace Engine

variable {d : Detector (Wide F)}

/-- Machines that differ at most in predictions that nothing looks at. -/
structure Alike (e e' : Engine F d) : Prop where
  saved : ∀ i : Nat, Option.Rel (SavedPass.Alike d) e.saved[i]? e'.saved[i]?
  current : e.current = e'.current
  lastBreakdown : e.lastBreakdown = e'.lastBreakdown

theorem Alike.refl (e : Engine F d) : Alike e e := by
  refine ⟨fun i => ?_, rfl, rfl⟩
  cases e.saved[i]? with
  | none => exact .none
  | some s => exact .some ⟨rfl, Pass.Alike.refl s.pass⟩

theorem alike_save (e : Engine F d) {pass pass' : Pass F d.numAnchors d.classes}
    (h : Pass.Alike d pass pass') : Alike (e.save pass) (e.save pass') := by
  refine ⟨fun i => ?_, rfl, by simp only [save, h.breakdown]⟩
  by_cases hi : i < e.saved.length
  · rw [save, save, List.getElem?_append_left hi, List.getElem?_append_left hi]
    exact (Alike.refl e).saved i
  · rw [save, save, List.getElem?_append_right (by omega), List.getElem?_append_right (by omega)]
    cases i - e.saved.length with
    | zero => exact .some ⟨rfl, h⟩
    | succ j => exact .none

theorem Alike.consume {e e' : Engine F d} (h : Alike e e') (id : Nat) :
    Alike (e.consume id) (e'.consume id) := by
  refine ⟨fun i => ?_, ?_, h.lastBreakdown⟩
  · rw [getElem?_saved_consume, getElem?_saved_consume]
    have hs := h.saved i
    generalize e.saved[i]? = o at hs ⊢
    generalize e'.saved[i]? = o' at hs ⊢
    cases hs with
    | none => exact .none
    | some hs =>
      by_cases hi : id = i
      · rw [Option.map_some, Option.map_some, if_pos hi, if_pos hi]
        exact .some ⟨rfl, hs.2⟩
      · rw [Option.map_some, Option.map_some, if_neg hi, if_neg hi]
        exact .some hs
  · rw [Engine.consume, Engine.consume, h.current]

/-- Predictions of one shape that agree in all channels that are read. Which of them are read beside the
confidences of the refinement head shows in the record of the first. -/
structure Agree {q : Precision} (d : Detector (Wide F)) (labels : TypedTensor F)
    (t u : Tensor (F q)) : Prop where
  shape : u.shape = t.shape
  armLogits : ∀ b (a : Fin d.numAnchors) c, 4 ≤ c → c < 6 →
    t.element? d.numAnchors d.predictionWidth b a c = u.element? d.numAnchors d.predictionWidth b a c
  read : ∀ form is, record d (.float q t) labels = .ok ⟨q, form, is⟩ →
    ∀ b (hb : b < is.length) (a : Fin d.numAnchors) (c : Fin d.predictionWidth),
      is[b].item.reads a c = true → t.element? d.numAnchors d.predictionWidth b a c =
        u.element? d.numAnchors d.predictionWidth b a c

theorem record_alike {q : Precision} {labels : TypedTensor F} {t u : Tensor (F q)} {form : Form}
    {is js : List (PassImage F q d.numAnchors d.classes)} (ht : Recorded d t form is)
    (hu : Recorded d u form js) (hij : List.Forall₂ (fun i j => j = i.withHeads d j.heads) is js)
    (hr : record d (.float q t) labels = .ok ⟨q, form, is⟩) (h : Agree d labels t u) :
    Pass.Alike d ⟨q, form, is⟩ ⟨q, form, js⟩ := by
  obtain ⟨hlen, hget⟩ := List.forall₂_iff_get.mp hij
  have hagree : ∀ b (hb : b < is.length) (hb' : b < js.length),
      is[b].item.Agree is[b].heads js[b].heads := by
    intro b hb hb' a c hc
    have he := h.read form is hr b hb a c hc
    rw [ht.element? b hb a c, hu.element? b hb' a c] at he
    exact Option.some.inj he
  have hitem : ∀ b (hb : b < is.length) (hb' : b < js.length), js[b].item = is[b].item := by
    intro b hb hb'
    have hterms := congrArg PassImage.item (ht.terms is[b] (List.getElem_mem hb))
    calc js[b].item = is[b].item.withTerms d js[b].heads :=
          congrArg PassImage.item (hget b hb hb')
      _ = is[b].item.withTerms d is[b].heads := Item.withTerms_of_agree d (hagree b hb hb')
      _ = is[b].item := hterms
  refine .mk (List.ext_getElem (by simpa using hlen) fun b hb hb' => ?_)
    (List.ext_getElem (by simpa using hlen) fun b hb hb' => ?_)
  · rw [List.length_map] at hb hb'
    rw [List.getElem_map, List.getElem_map, hitem b hb hb']
  · rw [List.length_map] at hb hb'
    rw [List.getElem_map, List.getElem_map, hitem b hb hb',
      Item.gradient_of_agree d (hagree b hb hb')]

/-- Predictions that agree in what is read have the same loss and leave machines that are alike. -/
theorem forward_alike {q : Precision} {labels : TypedTensor F} {t u : Tensor (F q)}
    (h : Agree d labels t u) (e : Engine F d) :
    (e.forward (.float q t) labels).1 = (e.forward (.float q u) labels).1 ∧
      Alike (e.forward (.float q t) labels).2 (e.forward (.float q u) labels).2 := by
  obtain ⟨x, -, -, he⟩ | ⟨form, is, js, hrt, hru, ht, hu, hij⟩ :=
    forward_withHeads h.shape h.armLogits labels
  · rw [he e]
    exact ⟨rfl, Alike.refl _⟩
  · have hp := record_alike ht hu hij hrt h
    rw [forward_of_record hrt, forward_of_record hru]
    exact ⟨congrArg Except.ok hp.loss, alike_save e hp⟩

theorem Alike.backward {e e' : Engine F d} (h : Alike e e') (which : Option Nat)
    (factor : Factor F) : (e.backward which factor).1 = (e'.backward which factor).1 ∧
      Alike (e.backward which factor).2 (e'.backward which factor).2 := by
  unfold Engine.backward
  rw [← h.current]
  cases which.orElse fun _ => e.current with
  | none => exact ⟨rfl, h⟩
  | some id =>
    dsimp only
    have hs := h.saved id
    generalize e.saved[id]? = o at hs ⊢
    generalize e'.saved[id]? = o' at hs ⊢
    cases hs with
    | none => exact ⟨rfl, h⟩
    | @some s s' hs =>
        obtain ⟨hc, hp⟩ := hs
        simp only [hc, hp.gradient, hp.shape]
        by_cases hu : s'.consumed = true
        · rw [if_pos hu, if_pos hu]
          exact ⟨rfl, h⟩
        · rw [if_neg hu, if_neg hu]
          cases factor.scale? (s'.pass.gradient d) with
          | none => exact ⟨rfl, h⟩
          | some g =>
            dsimp only
            cases g.tensor.reshape? s'.pass.shape with
            | none => exact ⟨rfl, h.consume id⟩
            | some t => exact ⟨rfl, h.consume id⟩

def backwards (e : Engine F d) : List (Option Nat × Factor F) →
    List (Except BackwardError (FloatTensor F)) × Engine F d
  | [] => ([], e)
  | (which, factor) :: calls =>
    let (answer, e) := e.backward which factor
    let (answers, e) := e.backwards calls
    (answer :: answers, e)

theorem Alike.backwards {e e' : Engine F d} (h : Alike e e') (calls : List (Option Nat × Factor F)) :
    (e.backwards calls).1 = (e'.backwards calls).1 ∧
      Alike (e.backwards calls).2 (e'.backwards calls).2 := by
  induction calls generalizing e e' with
  | nil => exact ⟨rfl, h⟩
  | cons call calls ih =>
    obtain ⟨which, factor⟩ := call
    obtain ⟨ha, hb⟩ := h.backward which factor
    obtain ⟨hs, he⟩ := ih hb
    refine ⟨?_, he⟩
    simp only [Engine.backwards, ha, hs]

end Engine

end AnchorLoss
