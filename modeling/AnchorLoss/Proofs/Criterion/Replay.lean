import Mathlib
import AnchorLoss.Criterion
import AnchorLoss.Proofs.Binary.Tiny
import AnchorLoss.Proofs.Engine.Record

namespace AnchorLoss

namespace Criterion

variable {F : Precision → Type} [Arithmetic F] {d : Detector (Wide F)}

inductive Request (F : Precision → Type) where
  | call (predictions labels : TypedTensor F)
  | derivative (id : Nat) (factor : Wide F)

def Request.pass? (d : Detector (Wide F)) : Request F → Option (Pass F d.numAnchors d.classes)
  | .call predictions labels => (Engine.record d predictions labels).toOption
  | .derivative _ _ => none

def step (c : Criterion F d) : Request F → Criterion F d
  | .call predictions labels => (c.call predictions labels).2
  | .derivative id factor => (c.derivative id factor).2

def run (d : Detector (Wide F)) (rs : List (Request F)) : Criterion F d :=
  rs.foldl step (.initial d)

def passes (d : Detector (Wide F)) (rs : List (Request F)) :
    List (Pass F d.numAnchors d.classes) :=
  rs.filterMap (Request.pass? d)

theorem run_concat (rs : List (Request F)) (r : Request F) :
    run d (rs ++ [r]) = (run d rs).step r := by
  simp [run]

def Context.factor (x : Context) (y : Wide F) : Factor F :=
  .tensor (.float x.precision (.ofScalar (convert y)))

theorem derivative_of_error {c : Criterion F d} {i : Nat} {x : Context} {y : Wide F}
    {e : BackwardError} (hx : c.contexts[i]? = some x)
    (hb : c.engine.backward x.pass (Context.factor x y) = (.error e, c.engine)) :
    c.derivative i y = (.error (.backward e), c) := by
  unfold Context.factor at hb
  simp only [derivative, hx, hb]

theorem derivative_of_ok {c : Criterion F d} {i : Nat} {x : Context} {y : Wide F}
    {g : FloatTensor F} {engine : Engine F d} (hx : c.contexts[i]? = some x)
    (hb : c.engine.backward x.pass (Context.factor x y) = (.ok g, engine)) :
    c.derivative i y = ((accumulate x g).elim (.error .incompatibleShape) .ok,
      ⟨engine, c.contexts.set i { x with pass := none }⟩) := by
  unfold Context.factor at hb
  simp only [derivative, hx, hb]
  cases accumulate x g <;> rfl

theorem accumulate_answer [LawfulConvert F] {x : Context} {own : Pass F d.numAnchors d.classes}
    (hp : x.precision = own.precision) (hs : x.shape = own.shape) (y : Wide F) :
    accumulate x (own.answer d (convert (convert y : F x.precision))) =
      some (own.answer d (convert y)) := by
  obtain ⟨precision, shape, pass⟩ := x
  dsimp only at hp hs
  subst hp hs
  have ha : (own.answer d (convert y)).tensor.shape = own.shape := rfl
  rw [LawfulConvert.convert_self, accumulate, if_pos ha, Option.map_some]
  exact congrArg (fun t => some (FloatTensor.mk own.precision t))
    (Tensor.map_eq_self LawfulConvert.convert_self _)

/-- The derivative of context `i` ends as that of its own call may: with the gradient of the pass of
that call, or refused by the state of the machine, and in any case without touching another pass. -/
structure Own (c : Criterion F d) (i : Nat) (own : Pass F d.numAnchors d.classes) (x : Wide F) :
    Prop where
  answer : (c.derivative i x).1 = .ok (own.answer d (convert x)) ∨
    ∃ e, (c.derivative i x).1 = .error (.backward e) ∧ e.message?.isSome
  saved : ∀ j, j ≠ i → (c.derivative i x).2.engine.saved[j]? = c.engine.saved[j]?
  current : ∀ j, j ≠ i → c.engine.current = some j → (c.derivative i x).2.engine.current = some j

/-- What holds after every run: contexts and saved passes go together, a context that has lost its
pass has been differentiated and that pass is used up, and the current pass is not used up. -/
structure Replays (rs : List (Request F)) (c : Criterion F d) : Prop where
  saved : c.engine.saved.map SavedPass.pass = passes d rs
  contexts : c.contexts.map (fun x => (x.precision, x.shape)) =
    (passes d rs).map fun p => (p.precision, p.shape)
  own : ∀ i x, c.contexts[i]? = some x → x.pass = some i ∨
    (x.pass = none ∧ (∃ y, Request.derivative i y ∈ rs) ∧
      ∃ s, c.engine.saved[i]? = some s ∧ s.consumed = true)
  current : ∀ i, c.engine.current = some i → ∃ s, c.engine.saved[i]? = some s ∧ s.consumed = false

namespace Replays

theorem initial : Replays [] (Criterion.initial d) := by
  refine ⟨rfl, rfl, ?_, ?_⟩
  · intro i x hx
    simp [Criterion.initial] at hx
  · intro i hi
    cases hi

variable {rs : List (Request F)} {c : Criterion F d}

theorem lengths (h : Replays rs c) : c.contexts.length = c.engine.saved.length := by
  have hs := congrArg List.length h.saved
  have hc := congrArg List.length h.contexts
  rw [List.length_map] at hs hc
  rw [hc, hs, List.length_map]

theorem call (h : Replays rs c) (predictions labels : TypedTensor F) :
    Replays (rs ++ [.call predictions labels]) (c.call predictions labels).2 := by
  obtain ⟨pass, hp, hf⟩ | ⟨x, e, hp, hf, hs, -, hc⟩ := c.engine.forward_cases predictions labels
  · have hps : passes d (rs ++ [.call predictions labels]) = passes d rs ++ [pass] := by
      simp [passes, Request.pass?, hp, Except.toOption]
    obtain ⟨t, rfl, ht⟩ := Engine.record_eq_ok hp
    simp only [Criterion.call, hf]
    refine ⟨?_, ?_, ?_, ?_⟩
    · rw [hps, ← h.saved]
      simp [Engine.save]
    · rw [hps, List.map_append, List.map_append, h.contexts]
      simp only [List.map_cons, List.map_nil, TypedTensor.shape, ht.shape]
      rfl
    · intro i x hx
      by_cases hi : i < c.contexts.length
      · rw [List.getElem?_append_left hi] at hx
        obtain ho | ⟨hn, ⟨y, hy⟩, s, hs, hu⟩ := h.own i x hx
        · exact .inl ho
        · have hlt : i < c.engine.saved.length := h.lengths ▸ hi
          refine .inr ⟨hn, ⟨y, List.mem_append_left _ hy⟩, s, ?_, hu⟩
          rw [Engine.save, List.getElem?_append_left hlt]
          exact hs
      · obtain ⟨hi', rfl⟩ : i = c.contexts.length ∧ _ = x := by
          rw [List.getElem?_append_right (by omega)] at hx
          obtain ⟨h₀, hx⟩ := List.getElem?_eq_some_iff.mp hx
          have hz : i - c.contexts.length = 0 := by simpa using h₀
          exact ⟨by omega, by simpa [hz] using hx⟩
        exact .inl (by rw [hi', h.lengths]; rfl)
    · intro i hi
      obtain rfl : c.engine.saved.length = i := Option.some.inj hi
      exact ⟨_, c.engine.saved_save pass, rfl⟩
  · have hps : passes d (rs ++ [.call predictions labels]) = passes d rs := by
      simp [passes, Request.pass?, hp, Except.toOption]
    simp only [Criterion.call, hf]
    refine ⟨?_, ?_, ?_, ?_⟩
    · rw [hps, ← h.saved, hs]
    · rw [hps, h.contexts]
    · intro i x hx
      rw [hs]
      obtain ho | ⟨hn, ⟨y, hy⟩, hu⟩ := h.own i x hx
      · exact .inl ho
      · exact .inr ⟨hn, ⟨y, List.mem_append_left _ hy⟩, hu⟩
    · intro i hi
      rw [hs]
      obtain hc | hc := hc
      · exact h.current i (hc ▸ hi)
      · cases hc.symm.trans hi

theorem context (h : Replays rs c) {i : Nat} {own : Pass F d.numAnchors d.classes}
    (ho : (passes d rs)[i]? = some own) : ∃ x s, c.contexts[i]? = some x ∧
      x.precision = own.precision ∧ x.shape = own.shape ∧ c.engine.saved[i]? = some s ∧
      s.pass = own := by
  have hs := congrArg (·[i]?) h.saved
  have hc := congrArg (·[i]?) h.contexts
  simp only [List.getElem?_map, ho, Option.map_some] at hs hc
  obtain ⟨s, hsi, hsp⟩ := Option.map_eq_some_iff.mp hs
  obtain ⟨x, hxi, hxp⟩ := Option.map_eq_some_iff.mp hc
  obtain ⟨hp, hsh⟩ := Prod.mk.inj hxp
  exact ⟨x, s, hxi, hp, hsh, hsi, hsp⟩

variable [LawfulConvert F]

theorem derivative_cases (h : Replays rs c) {i : Nat} {x : Context}
    {own : Pass F d.numAnchors d.classes} (hx : c.contexts[i]? = some x)
    (ho : (passes d rs)[i]? = some own) (y : Wide F) :
    (x.pass = some i ∧ c.derivative i y = (.ok (own.answer d (convert y)),
      ⟨c.engine.consume i, c.contexts.set i { x with pass := none }⟩)) ∨
    ((x.pass = none → c.engine.current = none) ∧
      ∃ e : BackwardError, e.message?.isSome ∧ c.derivative i y = (.error (.backward e), c)) ∨
    (x.pass = none ∧ ∃ k other, k ≠ i ∧ c.engine.current = some k ∧
      (passes d rs)[k]? = some other ∧ c.engine.saved[k]? = some ⟨other, false⟩ ∧
      c.derivative i y =
        ((accumulate x (other.answer d (convert (convert y : F x.precision)))).elim
          (.error .incompatibleShape) .ok,
          ⟨c.engine.consume k, c.contexts.set i { x with pass := none }⟩)) := by
  obtain ⟨x', s, hx', hp, hsh, hs, rfl⟩ := h.context ho
  obtain rfl := Option.some.inj (hx.symm.trans hx')
  obtain hi | ⟨hn, -, s', hs', hu⟩ := h.own i x hx
  · have ht : c.engine.target x.pass = some i := by rw [hi]; rfl
    cases hu : s.consumed with
    | true =>
      refine .inr (.inl ⟨?_, .consumed, rfl, ?_⟩)
      · intro hn
        cases hi.symm.trans hn
      · exact derivative_of_error hx (Engine.backward_of_consumed _ ht hs hu)
    | false =>
      refine .inl ⟨hi, ?_⟩
      rw [derivative_of_ok hx (Engine.backward_scalar ht hs hu _), accumulate_answer hp hsh]
      rfl
  · cases hc : c.engine.current with
    | none =>
      refine .inr (.inl ⟨fun _ => rfl, .noForward, rfl, ?_⟩)
      have ht : c.engine.target x.pass = none := by rw [hn]; exact hc
      exact derivative_of_error hx (Engine.backward_of_target_none _ ht)
    | some k =>
      obtain ⟨⟨other, u⟩, hk, rfl⟩ := h.current k hc
      have ht : c.engine.target x.pass = some k := by rw [hn]; exact hc
      refine .inr (.inr ⟨hn, k, other, ?_, rfl, ?_, hk, ?_⟩)
      · rintro rfl
        obtain rfl := Option.some.inj (hs'.symm.trans hk)
        cases hu
      · rw [← h.saved, List.getElem?_map, hk, Option.map_some]
      · exact derivative_of_ok hx (Engine.backward_scalar ht hk rfl _)

omit [LawfulConvert F] in
theorem passes_derivative (rs : List (Request F)) (i : Nat) (y : Wide F) :
    passes d (rs ++ [.derivative i y]) = passes d rs := by
  simp [passes, Request.pass?]

omit [LawfulConvert F] in
theorem refused (h : Replays rs c) (i : Nat) (y : Wide F) : Replays (rs ++ [.derivative i y]) c := by
  have hps := passes_derivative (d := d) rs i y
  refine ⟨hps ▸ h.saved, hps ▸ h.contexts, fun j x hj => ?_, h.current⟩
  obtain ho | ⟨hn, ⟨z, hz⟩, hu⟩ := h.own j x hj
  · exact .inl ho
  · exact .inr ⟨hn, ⟨z, List.mem_append_left _ hz⟩, hu⟩

omit [LawfulConvert F] in
/-- Using up pass `k` for context `i` keeps the invariant as long as the pass of `i` is used up too. -/
theorem handed (h : Replays rs c) {i k : Nat} {x : Context} (hx : c.contexts[i]? = some x)
    (hk : k ≠ i → x.pass = none) (y : Wide F) :
    Replays (rs ++ [.derivative i y])
      ⟨c.engine.consume k, c.contexts.set i { x with pass := none }⟩ := by
  have hps := passes_derivative (d := d) rs i y
  have hi : i < c.contexts.length := (List.getElem?_eq_some_iff.mp hx).1
  refine ⟨?_, ?_, fun j x' hj => ?_, fun j hj => ?_⟩
  · rw [hps, ← h.saved]
    refine List.ext_getElem? fun j => ?_
    rw [List.getElem?_map, List.getElem?_map, Engine.getElem?_saved_consume, Option.map_map]
    congr 1
    funext s
    by_cases hkj : k = j <;> simp [hkj]
  · rw [hps, ← h.contexts]
    refine List.ext_getElem? fun j => ?_
    rw [List.getElem?_map, List.getElem?_map, List.getElem?_set]
    by_cases hij : i = j
    · subst hij
      rw [if_pos rfl, if_pos hi, hx]
      rfl
    · rw [if_neg hij]
  · dsimp only at hj
    rw [List.getElem?_set] at hj
    by_cases hij : i = j
    · subst hij
      rw [if_pos rfl, if_pos hi] at hj
      obtain rfl := Option.some.inj hj
      refine .inr ⟨rfl, ⟨y, List.mem_append_right _ List.mem_cons_self⟩, ?_⟩
      rw [Engine.getElem?_saved_consume]
      by_cases hki : k = i
      · have hlt : i < c.engine.saved.length := h.lengths ▸ hi
        exact ⟨_, by rw [List.getElem?_eq_getElem hlt, Option.map_some], by rw [if_pos hki]⟩
      · obtain ho | ⟨-, -, s, hs, hu⟩ := h.own i x hx
        · cases (hk hki).symm.trans ho
        · exact ⟨s, by rw [hs, Option.map_some, if_neg hki], hu⟩
    · rw [if_neg hij] at hj
      obtain ho | ⟨hn, ⟨z, hz⟩, s, hs, hu⟩ := h.own j x' hj
      · exact .inl ho
      · refine .inr ⟨hn, ⟨z, List.mem_append_left _ hz⟩, ?_⟩
        rw [Engine.getElem?_saved_consume, hs]
        exact ⟨_, rfl, by by_cases hkj : k = j <;> simp [hkj, hu]⟩
  · have hj' : c.engine.current = some j ∧ k ≠ j := by
      by_cases hc : c.engine.current = some k
      · simp [Engine.consume, hc] at hj
      · rw [Engine.consume, if_neg hc] at hj
        exact ⟨hj, fun hkj => hc (hkj ▸ hj)⟩
    obtain ⟨s, hs, hu⟩ := h.current j hj'.1
    exact ⟨s, by rw [Engine.getElem?_saved_consume, hs, Option.map_some, if_neg hj'.2], hu⟩

theorem derivative (h : Replays rs c) (i : Nat) (y : Wide F) :
    Replays (rs ++ [.derivative i y]) (c.derivative i y).2 := by
  cases hx : c.contexts[i]? with
  | none =>
    have hd : c.derivative i y = (.error .notDifferentiable, c) := by
      simp only [Criterion.derivative, hx]
    rw [hd]
    exact h.refused i y
  | some x =>
    obtain ⟨own, ho⟩ : ∃ own, (passes d rs)[i]? = some own := by
      have hc := congrArg (·[i]?) h.contexts
      simp only [List.getElem?_map, hx, Option.map_some] at hc
      obtain ⟨own, ho, -⟩ := Option.map_eq_some_iff.mp hc.symm
      exact ⟨own, ho⟩
    obtain ⟨-, hd⟩ | ⟨-, e, -, hd⟩ | ⟨hn, k, other, -, -, -, -, hd⟩ := h.derivative_cases hx ho y
    · rw [hd]
      exact h.handed hx (fun hii => absurd rfl hii) y
    · rw [hd]
      exact h.refused i y
    · rw [hd]
      exact h.handed hx (fun _ => hn) y

theorem own_iff (h : Replays rs c) {i : Nat} {x : Context} {own : Pass F d.numAnchors d.classes}
    (hx : c.contexts[i]? = some x) (ho : (passes d rs)[i]? = some own) (y : Wide F) :
    Own c i own y ↔ (x.pass = none → c.engine.current = none) := by
  obtain ⟨hi, hd⟩ | ⟨hc, e, he, hd⟩ | ⟨hn, k, other, hki, hk, -, hs, hd⟩ :=
    h.derivative_cases hx ho y
  · refine iff_of_true ⟨.inl (by rw [hd]), fun j hj => ?_, fun j hj hcur => ?_⟩ fun hn => ?_
    · rw [hd, Engine.getElem?_saved_consume]
      simp [hj.symm]
    · rw [hd]
      simp [Engine.consume, hcur, hj]
    · cases hi.symm.trans hn
  · refine iff_of_true ⟨.inr ⟨e, by rw [hd], he⟩, fun j _ => by rw [hd], fun j _ hcur => ?_⟩ hc
    rw [hd]
    exact hcur
  · refine iff_of_false (fun hown => ?_) fun hcur => ?_
    · have hsk := hown.saved k hki
      rw [hd, Engine.getElem?_saved_consume, hs] at hsk
      simp at hsk
    · cases (hcur hn).symm.trans hk

end Replays

theorem replays_run [LawfulConvert F] (rs : List (Request F)) : Replays rs (run d rs) := by
  induction rs using List.reverseRecOn with
  | nil => exact Replays.initial
  | append_singleton rs r ih =>
    rw [run_concat]
    cases r with
    | call predictions labels => exact ih.call predictions labels
    | derivative id factor => exact ih.derivative id factor

/-- A derivative belongs to its own call as long as its context still has its pass or the machine has no
current pass. Otherwise the context has been differentiated before, and the current pass, which is that
of another call, is handed out and used up in its place. -/
theorem derivative_own_iff [LawfulConvert F] (rs : List (Request F)) (i : Nat)
    (own : Pass F d.numAnchors d.classes) (ho : (passes d rs)[i]? = some own) (y : Wide F) :
    ∃ x, (run d rs).contexts[i]? = some x ∧
      (Own (run d rs) i own y ↔ (x.pass = none → (run d rs).engine.current = none)) ∧
      (x.pass = none → (∃ z, Request.derivative i z ∈ rs) ∧
        ∀ k, (run d rs).engine.current = some k → k ≠ i ∧
          ∃ other, (passes d rs)[k]? = some other ∧
            ((run d rs).derivative i y).1 =
              (accumulate x (other.answer d (convert (convert y : F x.precision)))).elim
                (.error .incompatibleShape) .ok ∧
            ((run d rs).derivative i y).2.engine = (run d rs).engine.consume k) := by
  have h : Replays rs (run d rs) := replays_run rs
  obtain ⟨x, s, hx, -⟩ := h.context ho
  refine ⟨x, hx, h.own_iff hx ho y, fun hn => ⟨?_, fun k hk => ?_⟩⟩
  · obtain hi | ⟨-, hz, -⟩ := h.own i x hx
    · cases hn.symm.trans hi
    · exact hz
  · obtain ⟨hi, -⟩ | ⟨hc, -⟩ | ⟨-, k', other, hki, hk', hp, -, hd⟩ := h.derivative_cases hx ho y
    · cases hn.symm.trans hi
    · cases (hc hn).symm.trans hk
    · obtain rfl := Option.some.inj (hk.symm.trans hk')
      exact ⟨hki, other, hp, by rw [hd], by rw [hd]⟩

def interleaved : List (Request Binary) :=
  [.call (.float .single (Tiny.predictions Tiny.zeros Tiny.zeros)) Tiny.noLabels,
    .derivative 0 1, .call (.float .single (Tiny.predictions Tiny.zeros Tiny.zeros)) Tiny.noLabels]

theorem passes_interleaved : ∃ own, (passes Tiny.detector interleaved)[0]? = some own :=
  Option.isSome_iff_exists.mp (by decide +kernel)

theorem context_interleaved : ∃ x, (run Tiny.detector interleaved).contexts[0]? = some x ∧
    x.pass = none :=
  Option.map_eq_some_iff.mp (by decide +kernel)

theorem current_interleaved : (run Tiny.detector interleaved).engine.current = some 1 := by
  decide +kernel

theorem derivative_own_iff_interleaved :
    ∃ own x other, (passes Tiny.detector interleaved)[0]? = some own ∧
      (run Tiny.detector interleaved).contexts[0]? = some x ∧
      (passes Tiny.detector interleaved)[1]? = some other ∧
      ((run Tiny.detector interleaved).derivative 0 1).1 =
        (accumulate x (other.answer Tiny.detector
          (convert (convert (F := Binary) (p := .double) (q := x.precision) 1)))).elim
            (.error .incompatibleShape) .ok ∧
      ((run Tiny.detector interleaved).derivative 0 1).2.engine =
        (run Tiny.detector interleaved).engine.consume 1 := by
  obtain ⟨own, ho⟩ := passes_interleaved
  obtain ⟨x, hx, hn⟩ := context_interleaved
  obtain ⟨x', hx', -, h⟩ := derivative_own_iff interleaved 0 own ho 1
  obtain rfl := Option.some.inj (hx.symm.trans hx')
  obtain ⟨-, other, hp, ha, he⟩ := (h hn).2 1 current_interleaved
  exact ⟨own, x, other, ho, hx, hp, ha, he⟩

theorem not_own_interleaved : ∃ own, (passes Tiny.detector interleaved)[0]? = some own ∧
    ¬ Own (run Tiny.detector interleaved) 0 own 1 := by
  obtain ⟨own, ho⟩ := passes_interleaved
  obtain ⟨x, hx, hn⟩ := context_interleaved
  refine ⟨own, ho, fun hown => ?_⟩
  cases (((replays_run interleaved).own_iff hx ho 1).mp hown hn).symm.trans current_interleaved

end Criterion

end AnchorLoss
