import Mathlib
import AnchorLoss.Proofs.Engine.Step

namespace AnchorLoss

namespace Engine

variable {F : Precision → Type} [Arithmetic F] {d : Detector (Wide F)}

inductive Request (F : Precision → Type) where
  | forward (predictions labels : TypedTensor F)
  | backward (which : Option Nat) (factor : Wide F)

def step (e : Engine F d) : Request F → Engine F d
  | .forward predictions labels => (e.forward predictions labels).2
  | .backward which factor => (e.backward which (.number factor)).2

def run (d : Detector (Wide F)) (rs : List (Request F)) : Engine F d :=
  rs.foldl step (.initial d)

theorem run_append (rs more : List (Request F)) : run d (rs ++ more) = more.foldl step (run d rs) :=
  List.foldl_append

theorem run_concat (rs : List (Request F)) (r : Request F) :
    run d (rs ++ [r]) = (run d rs).step r :=
  run_append rs [r]

theorem run_append_cons (rs : List (Request F)) (r : Request F) (more : List (Request F)) :
    run d (rs ++ r :: more) = more.foldl step ((run d rs).step r) :=
  run_append rs (r :: more)

/-- There is a pass for a backward pass to work on. -/
def Usable (e : Engine F d) (which : Option Nat) : Prop :=
  ∃ id s, e.target which = some id ∧ e.saved[id]? = some s ∧ s.consumed = false

theorem backward_of_not_saved {e : Engine F d} {which : Option Nat} {id : Nat} (factor : Factor F)
    (h : e.target which = some id) (hs : e.saved[id]? = none) :
    e.backward which factor = (.error .noForward, e) := by
  unfold target at h
  simp only [backward, h, hs]

theorem backward_cases (e : Engine F d) (which : Option Nat) (x : Wide F) :
    (∃ id s, e.target which = some id ∧ e.saved[id]? = some s ∧ s.consumed = false ∧
      e.backward which (.number x) = (.ok (s.pass.answer d (convert x)), e.consume id)) ∨
    (¬ e.Usable which ∧ ∃ err, (err = .noForward ∨ err = .consumed) ∧
      e.backward which (.number x) = (.error err, e)) := by
  cases ht : e.target which with
  | none =>
    have hu : ¬ e.Usable which := by
      rintro ⟨id, s, hid, -⟩
      cases ht.symm.trans hid
    exact .inr ⟨hu, .noForward, .inl rfl, backward_of_target_none _ ht⟩
  | some id =>
    cases hs : e.saved[id]? with
    | none =>
      have hu : ¬ e.Usable which := by
        rintro ⟨id', s, hid, hs', -⟩
        obtain rfl := Option.some.inj (ht.symm.trans hid)
        cases hs.symm.trans hs'
      exact .inr ⟨hu, .noForward, .inl rfl, backward_of_not_saved _ ht hs⟩
    | some s =>
      cases hc : s.consumed with
      | false => exact .inl ⟨id, s, rfl, hs, hc, backward_number ht hs hc x⟩
      | true =>
        have hu : ¬ e.Usable which := by
          rintro ⟨id', s', hid, hs', hc'⟩
          obtain rfl := Option.some.inj (ht.symm.trans hid)
          obtain rfl := Option.some.inj (hs.symm.trans hs')
          cases hc.symm.trans hc'
        exact .inr ⟨hu, .consumed, .inr rfl, backward_of_consumed _ ht hs hc⟩

theorem backward_ok_iff (e : Engine F d) (which : Option Nat) (x : Wide F) :
    (∃ g, (e.backward which (.number x)).1 = .ok g) ↔ e.Usable which := by
  obtain ⟨id, s, ht, hs, hc, hb⟩ | ⟨hu, err, -, hb⟩ := e.backward_cases which x
  · rw [hb]
    exact ⟨fun _ => ⟨id, s, ht, hs, hc⟩, fun _ => ⟨_, rfl⟩⟩
  · rw [hb]
    refine ⟨?_, fun h => absurd h hu⟩
    rintro ⟨g, hg⟩
    cases hg

theorem backward_refused {e : Engine F d} {which : Option Nat} (hu : ¬ e.Usable which) (x : Wide F) :
    ∃ err, (err = .noForward ∨ err = .consumed) ∧
      e.backward which (.number x) = (.error err, e) := by
  obtain ⟨id, s, ht, hs, hc, -⟩ | ⟨-, h⟩ := e.backward_cases which x
  · exact absurd ⟨id, s, ht, hs, hc⟩ hu
  · exact h

theorem step_of_backward_ok {e : Engine F d} {which : Option Nat} {x : Wide F} {id : Nat}
    {g : FloatTensor F} (ht : e.target which = some id)
    (hg : (e.backward which (.number x)).1 = .ok g) : ∃ s, e.saved[id]? = some s ∧
      g = s.pass.answer d (convert x) ∧ e.step (.backward which x) = e.consume id := by
  obtain ⟨id', s, hid, hs, -, hb⟩ | ⟨-, err, -, hb⟩ := e.backward_cases which x
  · obtain rfl := Option.some.inj (hid.symm.trans ht)
    rw [hb] at hg
    exact ⟨s, hs, (Except.ok.inj hg).symm, by rw [step, hb]⟩
  · rw [hb] at hg
    cases hg

theorem backward_others {e : Engine F d} {which : Option Nat} {id j : Nat} (x : Wide F)
    (ht : e.target which = some id) (hj : j ≠ id) :
    (e.backward which (.number x)).2.saved[j]? = e.saved[j]? ∧
      (e.current = some j → (e.backward which (.number x)).2.current = some j) := by
  obtain ⟨id', s, hid, -, -, hb⟩ | ⟨-, err, -, hb⟩ := e.backward_cases which x
  · obtain rfl := Option.some.inj (hid.symm.trans ht)
    rw [hb]
    refine ⟨?_, fun hc => ?_⟩
    · rw [getElem?_saved_consume]
      simp [hj.symm]
    · simp [consume, hc, hj]
  · rw [hb]
    exact ⟨rfl, fun hc => hc⟩

theorem forward_failed {e : Engine F d} {predictions labels : TypedTensor F} {x : ForwardError}
    (hx : (e.forward predictions labels).1 = .error x) :
    ((e.forward predictions labels).2.state = e.state ∨ (e.forward predictions labels).2.state = none) ∧
      (e.forward predictions labels).2.saved = e.saved := by
  obtain ⟨pass, -, hf⟩ | ⟨x', e', -, hf, hs, -, hc⟩ := e.forward_cases predictions labels
  · rw [hf] at hx
    cases hx
  · rw [hf]
    refine ⟨?_, hs⟩
    obtain hc | hc := hc
    · exact .inl (by rw [state, state, hc, hs])
    · exact .inr (by rw [state, hc]; rfl)

/-- Every saved pass is still there under its number, and is not used anew. -/
def Keeps (e e' : Engine F d) : Prop :=
  ∀ (id : Nat) (s : SavedPass F d.numAnchors d.classes), e.saved[id]? = some s →
    ∃ s' : SavedPass F d.numAnchors d.classes, e'.saved[id]? = some s' ∧ s'.pass = s.pass ∧
      (s.consumed = true → s'.consumed = true)

namespace Keeps

omit [Arithmetic F] in
theorem of_saved {e e' : Engine F d} (h : e'.saved = e.saved) : Keeps e e' := by
  intro id s hs
  exact ⟨s, h ▸ hs, rfl, fun hu => hu⟩

omit [Arithmetic F] in
theorem trans {e e' e'' : Engine F d} (h : Keeps e e') (h' : Keeps e' e'') : Keeps e e'' := by
  intro id s hs
  obtain ⟨s', hs', hp, hc⟩ := h id s hs
  obtain ⟨s'', hs'', hp', hc'⟩ := h' id s' hs'
  exact ⟨s'', hs'', hp'.trans hp, fun hu => hc' (hc hu)⟩

theorem save (e : Engine F d) (pass : Pass F d.numAnchors d.classes) : Keeps e (e.save pass) := by
  intro id s hs
  have hlt : id < e.saved.length := (List.getElem?_eq_some_iff.mp hs).1
  refine ⟨s, ?_, rfl, fun hu => hu⟩
  rw [Engine.save, List.getElem?_append_left hlt]
  exact hs

omit [Arithmetic F] in
theorem consume (e : Engine F d) (k : Nat) : Keeps e (e.consume k) := by
  intro id s hs
  rw [getElem?_saved_consume, hs, Option.map_some]
  by_cases hk : k = id
  · exact ⟨_, rfl, by rw [if_pos hk], fun _ => by rw [if_pos hk]⟩
  · exact ⟨_, rfl, by rw [if_neg hk], fun hu => by rw [if_neg hk]; exact hu⟩

theorem step (e : Engine F d) (r : Request F) : Keeps e (e.step r) := by
  cases r with
  | forward predictions labels =>
    obtain ⟨pass, -, hf⟩ | ⟨x, e', -, hf, hs, -⟩ := e.forward_cases predictions labels
    · rw [Engine.step, hf]
      exact save e pass
    · rw [Engine.step, hf]
      exact of_saved hs
  | backward which x =>
    obtain ⟨id, s, -, -, -, hb⟩ | ⟨-, err, -, hb⟩ := e.backward_cases which x
    · rw [Engine.step, hb]
      exact consume e id
    · rw [Engine.step, hb]
      exact of_saved rfl

theorem steps (e : Engine F d) (rs : List (Request F)) : Keeps e (rs.foldl Engine.step e) := by
  induction rs generalizing e with
  | nil => exact of_saved rfl
  | cons r rs ih => exact (step e r).trans (ih (e.step r))

omit [Arithmetic F] in
theorem length_le {e e' : Engine F d} (h : Keeps e e') : e.saved.length ≤ e'.saved.length := by
  by_contra hlt
  obtain ⟨s', hs', -⟩ := h e'.saved.length _ (List.getElem?_eq_getElem (Nat.lt_of_not_le hlt))
  exact absurd (List.getElem?_eq_some_iff.mp hs').1 (Nat.lt_irrefl _)

end Keeps

/-- The current pass is the last saved one, is not used up, and is the one whose terms are reported. -/
def Current (e : Engine F d) : Prop :=
  ∀ id, e.current = some id → id + 1 = e.saved.length ∧
    ∃ s, e.saved[id]? = some s ∧ s.consumed = false ∧ e.lastBreakdown = some s.pass.breakdown

theorem current_save (e : Engine F d) (pass : Pass F d.numAnchors d.classes) :
    (e.save pass).Current := by
  intro id hid
  obtain rfl : e.saved.length = id := Option.some.inj hid
  exact ⟨by simp [save], ⟨pass, false⟩, e.saved_save pass, rfl, rfl⟩

theorem current_consume {e : Engine F d} (h : e.Current) (k : Nat) : (e.consume k).Current := by
  intro id hid
  have hk : e.current = some id ∧ k ≠ id := by
    by_cases hc : e.current = some k
    · rw [consume, if_pos hc] at hid
      cases hid
    · rw [consume, if_neg hc] at hid
      exact ⟨hid, fun hki => hc (hki ▸ hid)⟩
  obtain ⟨hlen, s, hs, hc, hb⟩ := h id hk.1
  refine ⟨?_, s, ?_, hc, hb⟩
  · rw [hlen, consume, List.length_modify]
  · rw [getElem?_saved_consume, hs, Option.map_some, if_neg hk.2]

theorem current_step {e : Engine F d} (h : e.Current) (r : Request F) : (e.step r).Current := by
  cases r with
  | forward predictions labels =>
    obtain ⟨pass, -, hf⟩ | ⟨x, e', -, hf, hs, hb, hc⟩ := e.forward_cases predictions labels
    · rw [step, hf]
      exact current_save e pass
    · rw [step, hf]
      intro id hid
      obtain hc | hc := hc
      · rw [hs, hb]
        exact h id (hc ▸ hid)
      · cases hc.symm.trans hid
  | backward which x =>
    obtain ⟨id, s, -, -, -, hb⟩ | ⟨-, err, -, hb⟩ := e.backward_cases which x
    · rw [step, hb]
      exact current_consume h id
    · rw [step, hb]
      exact h

theorem current_run (rs : List (Request F)) : (run d rs).Current := by
  induction rs using List.reverseRecOn with
  | nil =>
    intro id hid
    cases hid
  | append_singleton rs r ih =>
    rw [run_concat]
    exact current_step ih r

structure Saves (d : Detector (Wide F)) (before : List (Request F)) (predictions labels : TypedTensor F)
    (id : Nat) : Prop where
  succeeds : ∃ loss, ((run d before).forward predictions labels).1 = .ok loss
  current : ((run d before).forward predictions labels).2.current = some id

theorem saves_iff {before : List (Request F)} {predictions labels : TypedTensor F} {id : Nat} :
    Saves d before predictions labels id ↔ id = (run d before).saved.length ∧
      ∃ pass, record d predictions labels = .ok pass ∧
        (run d before).step (.forward predictions labels) = (run d before).save pass := by
  constructor
  · rintro ⟨⟨loss, hl⟩, hc⟩
    obtain ⟨pass, hr, -⟩ := record_of_forward hl
    have hf := forward_of_record hr (run d before)
    rw [hf] at hc
    exact ⟨(Option.some.inj hc).symm, pass, hr, by rw [step, hf]⟩
  · rintro ⟨rfl, pass, hr, -⟩
    have hf := forward_of_record hr (run d before)
    exact ⟨⟨pass.loss, by rw [hf]⟩, by rw [hf]; rfl⟩

theorem Saves.saved {before : List (Request F)} {predictions labels : TypedTensor F} {id : Nat}
    (h : Saves d before predictions labels id) (after : List (Request F)) : ∃ s pass,
      (run d (before ++ .forward predictions labels :: after)).saved[id]? = some s ∧
      s.pass = pass ∧ record d predictions labels = .ok pass := by
  obtain ⟨rfl, pass, hr, hs⟩ := saves_iff.mp h
  obtain ⟨s, hsaved, hp, -⟩ := Keeps.steps ((run d before).save pass) after _ _
    ((run d before).saved_save pass)
  rw [run_append_cons, hs]
  exact ⟨s, pass, hsaved, hp, hr⟩

theorem exists_saves (rs : List (Request F)) {id : Nat} (h : id < (run d rs).saved.length) :
    ∃ before predictions labels after, rs = before ++ .forward predictions labels :: after ∧
      Saves d before predictions labels id := by
  -- from the end of the run, as only its last request can have saved the last pass
  induction rs using List.reverseRecOn with
  | nil => cases h
  | append_singleton rs r ih =>
    by_cases hid : id < (run d rs).saved.length
    · obtain ⟨before, predictions, labels, after, rfl, hs⟩ := ih hid
      exact ⟨before, predictions, labels, after ++ [r], by simp, hs⟩
    · rw [run_concat] at h
      cases r with
      | forward predictions labels =>
        obtain ⟨pass, hr, hf⟩ | ⟨x, e', -, hf, hs, -⟩ := (run d rs).forward_cases predictions labels
        · rw [step, hf, save, List.length_append, List.length_singleton] at h
          have hlen : id = (run d rs).saved.length := by omega
          exact ⟨rs, predictions, labels, [], rfl, saves_iff.mpr ⟨hlen, pass, hr, by rw [step, hf]⟩⟩
        · rw [step, hf, hs] at h
          exact absurd h hid
      | backward which x =>
        have hlen : ((run d rs).step (.backward which x)).saved.length = (run d rs).saved.length := by
          obtain ⟨k, s, -, -, -, hb⟩ | ⟨-, err, -, hb⟩ := (run d rs).backward_cases which x
          · rw [step, hb, consume, List.length_modify]
          · rw [step, hb]
        exact absurd (hlen ▸ h) hid

/-- What holds after every run of requests. -/
structure Orderly (d : Detector (Wide F)) (rs : List (Request F)) : Prop where
  current : ∀ id, (run d rs).current = some id →
    (∃ s, (run d rs).state = some s ∧ s.consumed = false ∧
      (run d rs).lastBreakdown = some s.pass.breakdown) ∧
    ∃ before predictions labels after, rs = before ++ .forward predictions labels :: after ∧
      Saves d before predictions labels id ∧
      ∀ more predictions' labels' rest, after = more ++ .forward predictions' labels' :: rest →
        ∃ x, ((run d (before ++ .forward predictions labels :: more)).forward
          predictions' labels').1 = .error x
  succeeds : ∀ which x,
    (∃ g, ((run d rs).backward which (.number x)).1 = .ok g) ↔ (run d rs).Usable which
  refused : ∀ which x, ¬ (run d rs).Usable which → ∃ err, (err = .noForward ∨ err = .consumed) ∧
    (run d rs).backward which (.number x) = (.error err, run d rs)
  /-- No pass is handed out twice, whatever comes in between. -/
  once : ∀ which x id g, (run d rs).target which = some id →
    ((run d rs).backward which (.number x)).1 = .ok g → ∀ more which' x',
      (run d (rs ++ .backward which x :: more)).target which' = some id →
      (run d (rs ++ .backward which x :: more)).backward which' (.number x') =
        (.error .consumed, run d (rs ++ .backward which x :: more))
  others : ∀ which x id j, (run d rs).target which = some id → j ≠ id →
    ((run d rs).backward which (.number x)).2.saved[j]? = (run d rs).saved[j]? ∧
    ((run d rs).current = some j →
      ((run d rs).backward which (.number x)).2.current = some j)
  origin : ∀ id s, (run d rs).saved[id]? = some s → ∃ before predictions labels after,
    rs = before ++ .forward predictions labels :: after ∧ Saves d before predictions labels id
  /-- What is handed out for a saved pass is what a new machine hands out for its tensors. -/
  fresh : ∀ before predictions labels after id, rs = before ++ .forward predictions labels :: after →
    Saves d before predictions labels id → ∀ which x g, (run d rs).target which = some id →
      ((run d rs).backward which (.number x)).1 = .ok g →
      (((initial d).forward predictions labels).2.backward none (.number x)).1 = .ok g
  failed : ∀ predictions labels x, ((run d rs).forward predictions labels).1 = .error x →
    (((run d rs).forward predictions labels).2.state = (run d rs).state ∨
      ((run d rs).forward predictions labels).2.state = none) ∧
    ((run d rs).forward predictions labels).2.saved = (run d rs).saved

theorem error_of_current {before more rest : List (Request F)} {predictions labels predictions' labels' :
    TypedTensor F} {id : Nat} (h : Saves d before predictions labels id)
    (hlen : id + 1 = (run d (before ++ .forward predictions labels ::
      (more ++ .forward predictions' labels' :: rest))).saved.length) :
    ∃ x, ((run d (before ++ .forward predictions labels :: more)).forward
      predictions' labels').1 = .error x := by
  obtain ⟨pass, -, hf⟩ | ⟨x, e', -, hf, -⟩ :=
    (run d (before ++ .forward predictions labels :: more)).forward_cases predictions' labels'
  · -- a second pass would have been saved after the one with the number `id`
    obtain ⟨s, -, hs, -⟩ := h.saved more
    have hid := (List.getElem?_eq_some_iff.mp hs).1
    have hsplit : before ++ Request.forward predictions labels ::
        (more ++ .forward predictions' labels' :: rest) =
        (before ++ .forward predictions labels :: more) ++ .forward predictions' labels' :: rest := by
      simp
    have hstep : (run d (before ++ .forward predictions labels :: more)).step
        (.forward predictions' labels') =
        (run d (before ++ .forward predictions labels :: more)).save pass := by
      rw [step, hf]
    rw [hsplit, run_append_cons, hstep] at hlen
    have hle := (Keeps.steps
      ((run d (before ++ .forward predictions labels :: more)).save pass) rest).length_le
    have hsave : ((run d (before ++ .forward predictions labels :: more)).save pass).saved.length =
        (run d (before ++ .forward predictions labels :: more)).saved.length + 1 := by
      rw [save, List.length_append, List.length_singleton]
    omega
  · exact ⟨x, by rw [hf]⟩

theorem backward_again {rs : List (Request F)} {which : Option Nat} {x : Wide F} {id : Nat}
    {g : FloatTensor F} (ht : (run d rs).target which = some id)
    (hg : ((run d rs).backward which (.number x)).1 = .ok g) {more : List (Request F)}
    {which' : Option Nat} (ht' : (run d (rs ++ .backward which x :: more)).target which' = some id)
    (x' : Wide F) : (run d (rs ++ .backward which x :: more)).backward which' (.number x') =
      (.error .consumed, run d (rs ++ .backward which x :: more)) := by
  obtain ⟨s, hs, -, hstep⟩ := step_of_backward_ok ht hg
  -- no request makes a pass that is used up usable again
  have hused : ((run d rs).consume id).saved[id]? = some { s with consumed := true } := by
    rw [getElem?_saved_consume, hs, Option.map_some, if_pos rfl]
  obtain ⟨s', hs', -, hc'⟩ := Keeps.steps ((run d rs).consume id) more _ _ hused
  rw [run_append_cons, hstep] at ht' ⊢
  exact backward_of_consumed _ ht' hs' (hc' rfl)

theorem Saves.backward_fresh {before : List (Request F)} {predictions labels : TypedTensor F} {id : Nat}
    (h : Saves d before predictions labels id) {after : List (Request F)} {which : Option Nat}
    {x : Wide F} {g : FloatTensor F}
    (ht : (run d (before ++ .forward predictions labels :: after)).target which = some id)
    (hg : ((run d (before ++ .forward predictions labels :: after)).backward which (.number x)).1 =
      .ok g) : (((initial d).forward predictions labels).2.backward none (.number x)).1 = .ok g := by
  obtain ⟨s, pass, hs, rfl, hr⟩ := h.saved after
  obtain ⟨s', hs', rfl, -⟩ := step_of_backward_ok ht hg
  obtain rfl := Option.some.inj (hs.symm.trans hs')
  rw [forward_of_record hr, backward_save]

theorem orderly_run (rs : List (Request F)) : Orderly d rs := by
  refine ⟨?current, ?succeeds, ?refused, ?once, ?others, ?origin, ?fresh, ?failed⟩
  case current =>
    intro id hid
    obtain ⟨hlen, s, hs, hc, hb⟩ := current_run rs id hid
    refine ⟨⟨s, by rw [state, hid]; exact hs, hc, hb⟩, ?_⟩
    obtain ⟨before, predictions, labels, after, rfl, hsaves⟩ :=
      exists_saves rs (List.getElem?_eq_some_iff.mp hs).1
    refine ⟨before, predictions, labels, after, rfl, hsaves, ?_⟩
    rintro more predictions' labels' rest rfl
    exact error_of_current hsaves hlen
  case succeeds => exact fun which x => backward_ok_iff _ which x
  case refused => exact fun which x hu => backward_refused hu x
  case once => exact fun which x id g ht hg more which' x' ht' => backward_again ht hg ht' x'
  case others => exact fun which x id j ht hj => backward_others x ht hj
  case origin => exact fun id s hs => exists_saves rs (List.getElem?_eq_some_iff.mp hs).1
  case fresh =>
    rintro before predictions labels after id rfl hsaves which x g ht hg
    exact hsaves.backward_fresh ht hg
  case failed => exact fun predictions labels x hx => forward_failed hx

end Engine

end AnchorLoss
