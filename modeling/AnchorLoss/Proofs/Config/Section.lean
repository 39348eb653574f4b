import Mathlib
import AnchorLoss.Config.Assemble
import AnchorLoss.Proofs.Config.Admissible

namespace AnchorLoss

namespace Value

variable {s : String} {k v : Value}

theorem sameKey_ofString : v.sameKey (ofString s) = true ↔ v = ofString s := by
  cases v <;> simp [sameKey, ofString, compareNumbers, wholeNumber?]

theorem ofString_sameKey : (ofString s).sameKey v = true ↔ v = ofString s := by
  cases v with
  | text t => simpa [sameKey, ofString] using eq_comm
  | _ => simp [sameKey, ofString, compareNumbers, wholeNumber?]

def DistinctKeys (entries : List (Value × Value)) : Prop :=
  entries.Pairwise fun e e' => e.1.sameKey e'.1 = false

theorem lookup_insert (k v : Value) (entries : List (Value × Value)) :
    lookup (ofString s) (insert k v entries) =
      if k.sameKey (ofString s) then some v else lookup (ofString s) entries := by
  induction entries with
  | nil => rfl
  | cons e entries ih =>
    obtain ⟨k', v'⟩ := e
    by_cases hk : k'.sameKey k = true
    · by_cases hs : k'.sameKey (ofString s) = true
      · obtain rfl := sameKey_ofString.mp hs
        obtain rfl := ofString_sameKey.mp hk
        simp [insert, lookup, hk]
      · have hks : k.sameKey (ofString s) ≠ true := by
          intro h
          obtain rfl := sameKey_ofString.mp h
          exact hs hk
        simp [insert, lookup, hk, hs, hks]
    · by_cases hs : k'.sameKey (ofString s) = true
      · have hks : k.sameKey (ofString s) ≠ true := by
          intro h
          obtain rfl := sameKey_ofString.mp h
          exact hk hs
        simp [insert, lookup, hk, hs, hks]
      · simp [insert, lookup, hk, hs, ih]

theorem lookup_eq_none {entries : List (Value × Value)}
    (h : ∀ e ∈ entries, (ofString s).sameKey e.1 = false) : lookup (ofString s) entries = none := by
  induction entries with
  | nil => rfl
  | cons e entries ih =>
    have he : e.1.sameKey (ofString s) = false := by
      rw [Bool.eq_false_iff]
      intro hs
      have hk := h e List.mem_cons_self
      rw [sameKey_ofString.mp hs, ofString_sameKey.mpr rfl] at hk
      cases hk
    rw [lookup, he, if_neg Bool.false_ne_true]
    exact ih fun e he => h e (List.mem_cons_of_mem _ he)

theorem lookup_merge (entries : List (Value × Value)) {others : List (Value × Value)}
    (h : DistinctKeys others) : lookup (ofString s) (merge entries others) =
      (lookup (ofString s) others).or (lookup (ofString s) entries) := by
  induction others generalizing entries with
  | nil => rfl
  | cons e others ih =>
    obtain ⟨k, v⟩ := e
    obtain ⟨hk, hrest⟩ := List.pairwise_cons.mp h
    have hcons : merge entries ((k, v) :: others) = merge (insert k v entries) others := rfl
    rw [hcons, ih _ hrest, lookup_insert, lookup]
    by_cases hs : k.sameKey (ofString s) = true
    · obtain rfl := sameKey_ofString.mp hs
      rw [lookup_eq_none hk, if_pos hs, if_pos hs]
      rfl
    · rw [if_neg hs, if_neg hs]

theorem keys_insert_of_new {entries : List (Value × Value)}
    (h : ∀ k' ∈ entries.map Prod.fst, k'.sameKey k = false) :
    (insert k v entries).map Prod.fst = entries.map Prod.fst ++ [k] := by
  induction entries with
  | nil => rfl
  | cons e entries ih =>
    rw [insert, h e.1 List.mem_cons_self, if_neg Bool.false_ne_true, List.map_cons,
      ih fun k' hk' => h k' (List.mem_cons_of_mem _ hk')]
    rfl

theorem keys_insert_of_mem {entries : List (Value × Value)}
    (h : ∃ k' ∈ entries.map Prod.fst, k'.sameKey k = true) :
    (insert k v entries).map Prod.fst = entries.map Prod.fst := by
  induction entries with
  | nil =>
    obtain ⟨k', hk', -⟩ := h
    cases hk'
  | cons e entries ih =>
    by_cases hk : e.1.sameKey k = true
    · rw [insert, if_pos hk]
      rfl
    · obtain ⟨k', hk', hs⟩ := h
      obtain rfl | hk' := List.mem_cons.mp hk'
      · exact absurd hs hk
      · rw [insert, if_neg hk, List.map_cons, ih ⟨k', hk', hs⟩, List.map_cons]

theorem mem_keys_insert {entries : List (Value × Value)} {k' : Value}
    (h : k' ∈ (insert k v entries).map Prod.fst) : k' ∈ entries.map Prod.fst ∨ k' = k := by
  by_cases hold : ∃ k' ∈ entries.map Prod.fst, k'.sameKey k = true
  · rw [keys_insert_of_mem hold] at h
    exact .inl h
  · rw [keys_insert_of_new fun k' hk' => Bool.eq_false_iff.mpr fun hs => hold ⟨k', hk', hs⟩] at h
    obtain h | h := List.mem_append.mp h
    · exact .inl h
    · exact .inr (List.mem_singleton.mp h)

end Value

namespace Config

open Value

theorem isKnown_iff {k : Value} : isKnown k = true ↔ ∃ s : Setting, k = ofString s.name := by
  have hall : ∀ s : Setting, s ∈ Setting.all := fun s => by cases s <;> decide
  simp only [isKnown, List.any_eq_true, sameKey_ofString]
  exact ⟨fun ⟨s, _, h⟩ => ⟨s, h⟩, fun ⟨s, h⟩ => ⟨s, hall s, h⟩⟩

def unknownKeys (entries : List (Value × Value)) : List Value :=
  (entries.map Prod.fst).filter fun k => !isKnown k

theorem unknownKeys_cons (k v : Value) (entries : List (Value × Value)) :
    unknownKeys ((k, v) :: entries) = (if isKnown k then [] else [k]) ++ unknownKeys entries := by
  rw [unknownKeys, List.map_cons, List.filter_cons]
  cases isKnown k <;> rfl

theorem rejectUnknown_congr {entries others : List (Value × Value)}
    (h : unknownKeys entries = unknownKeys others) : rejectUnknown entries = rejectUnknown others := by
  unfold unknownKeys at h
  unfold rejectUnknown
  rw [h]

theorem unknownKeys_insert {k v : Value} {entries : List (Value × Value)}
    (hnew : isKnown k = false → ∀ k' ∈ entries.map Prod.fst, k'.sameKey k = false) :
    unknownKeys (insert k v entries) = unknownKeys entries ++ if isKnown k then [] else [k] := by
  by_cases hold : ∃ k' ∈ entries.map Prod.fst, k'.sameKey k = true
  · have hknown : isKnown k = true := by
      obtain ⟨k', hk', hs⟩ := hold
      by_contra hun
      exact Bool.false_ne_true ((hnew (Bool.eq_false_iff.mpr hun) k' hk').symm.trans hs)
    rw [unknownKeys, keys_insert_of_mem hold, if_pos hknown, List.append_nil]
    rfl
  · have hone : [k].filter (fun k => !isKnown k) = if isKnown k then [] else [k] := by
      cases hun : isKnown k <;> simp [hun]
    rw [unknownKeys, keys_insert_of_new fun k' hk' => Bool.eq_false_iff.mpr fun hs => hold ⟨k', hk', hs⟩,
      List.filter_append, hone]
    rfl

theorem unknownKeys_merge {entries others : List (Value × Value)} (h : DistinctKeys others)
    (hnew : ∀ k ∈ entries.map Prod.fst, ∀ e ∈ others, isKnown e.1 = false → k.sameKey e.1 = false) :
    unknownKeys (merge entries others) = unknownKeys entries ++ unknownKeys others := by
  induction others generalizing entries with
  | nil => exact (List.append_nil _).symm
  | cons e others ih =>
    obtain ⟨k, v⟩ := e
    obtain ⟨hk, hrest⟩ := List.pairwise_cons.mp h
    have hcons : merge entries ((k, v) :: others) = merge (insert k v entries) others := rfl
    have hlater : ∀ k' ∈ (insert k v entries).map Prod.fst, ∀ e ∈ others, isKnown e.1 = false →
        k'.sameKey e.1 = false := by
      intro k' hk' e he hun
      obtain hk' | rfl := mem_keys_insert hk'
      · exact hnew k' hk' e (List.mem_cons_of_mem _ he) hun
      · exact hk e he
    rw [hcons, unknownKeys_cons, ih hrest hlater,
      unknownKeys_insert fun hun k' hk' => hnew k' hk' (k, v) List.mem_cons_self hun, List.append_assoc]

theorem lookup_map (f : Setting → Value) (settings : List Setting) (name : String) :
    lookup (ofString name) (settings.map fun s => (ofString s.name, f s)) =
      (settings.find? fun s => s.name = name).map f := by
  induction settings with
  | nil => rfl
  | cons s settings ih =>
    have hs : (ofString s.name).sameKey (ofString name) = decide (s.name = name) := by
      rw [Bool.eq_iff_iff, sameKey_ofString, decide_eq_true_iff]
      simp [ofString]
    rw [List.map_cons, lookup, hs, ih, List.find?_cons]
    cases decide (s.name = name) <;> rfl

theorem find?_name (s : Setting) : Setting.all.find? (fun t => t.name = s.name) = some s := by
  cases s <;> decide

theorem find?_sectionName : Setting.all.find? (fun t => t.name = sectionName) = none := by
  decide

/-- What stands for every setting in the entries of settings. -/
def written (c : LossConfig Int Float) : Setting → Value
  | .numClasses => .int c.numClasses
  | .maxTruths => .int c.maxTruths
  | .mapSizes => .list (c.mapSizes.map .int)
  | .strides => .list (c.strides.map .int)
  | .anchorSizes => .list (c.anchorSizes.map .float)
  | .aspectRatios => .list (c.aspectRatios.map .float)
  | .iouThreshold => .float c.iouThreshold
  | .backgroundThreshold => .float c.backgroundThreshold
  | .negativeRatio => .float c.negativeRatio
  | .armDivider => .float c.armDivider
  | .epsilon => .float c.epsilon

section Over

variable (c : LossConfig Int Float)

theorem toEntries_eq :
    c.toEntries .int .float = Setting.all.map fun s => (ofString s.name, written c s) := by
  rfl

theorem lookup_toEntries (s : Setting) :
    lookup (ofString s.name) (c.toEntries .int .float) = some (written c s) := by
  rw [toEntries_eq, lookup_map, find?_name, Option.map_some]

theorem lookup_section_toEntries : lookup (ofString sectionName) (c.toEntries .int .float) = none := by
  rw [toEntries_eq, lookup_map, find?_sectionName, Option.map_none]

theorem keys_toEntries {k : Value} (h : k ∈ (c.toEntries .int .float).map Prod.fst) :
    ∃ s : Setting, k = ofString s.name := by
  rw [toEntries_eq, List.map_map] at h
  obtain ⟨s, -, rfl⟩ := List.mem_map.mp h
  exact ⟨s, rfl⟩

theorem unknownKeys_over {entries : List (Value × Value)} (h : DistinctKeys entries) :
    unknownKeys (merge (c.toEntries .int .float) entries) = unknownKeys entries := by
  have hnone : unknownKeys (c.toEntries .int .float) = [] := by
    refine List.filter_eq_nil_iff.mpr fun k hk => ?_
    rw [isKnown_iff.mpr (keys_toEntries c hk)]
    exact Bool.false_ne_true
  rw [unknownKeys_merge h, hnone, List.nil_append]
  intro k hk e _ hun
  obtain ⟨s, rfl⟩ := keys_toEntries c hk
  rw [Bool.eq_false_iff]
  intro hs
  rw [ofString_sameKey.mp hs, isKnown_iff.mpr ⟨s, rfl⟩] at hun
  cases hun

theorem setting_over {α : Type} {entries : List (Value × Value)} (h : DistinctKeys entries)
    (s : Setting) (convert : Value → Except ConversionError α) {x : α}
    (hx : convert (written c s) = .ok x) :
    setting (merge (c.toEntries .int .float) entries) s convert x = setting entries s convert x := by
  rw [setting, setting, lookup_merge _ h, lookup_toEntries]
  cases lookup (ofString s.name) entries with
  | none => simp only [Option.none_or, hx]; rfl
  | some v => rfl

end Over

theorem each_map {α : Type} {convert : Value → Except ConversionError α} {write : α → Value}
    (h : ∀ x, convert (write x) = .ok x) (xs : List α) :
    each convert (.list (xs.map write)) = .ok xs := by
  have hm : (xs.map write).mapM convert = .ok xs := by
    induction xs with
    | nil => rfl
    | cons x xs ih =>
      rw [List.map_cons, List.mapM_cons, h, ih]
      rfl
  exact hm

theorem ofEntries_over {entries : List (Value × Value)} (h : DistinctKeys entries) :
    ofEntries (merge (LossConfig.default.toEntries .int .float) entries) = ofEntries entries := by
  have hcounts : ∀ ns : List Int, each Value.toInt (.list (ns.map .int)) = .ok ns :=
    each_map fun _ => rfl
  have hreals : ∀ xs : List Float, each Value.toFloat (.list (xs.map .float)) = .ok xs :=
    each_map fun _ => rfl
  simp only [ofEntries, setting_over _ h .numClasses Value.toInt rfl,
    setting_over _ h .maxTruths Value.toInt rfl,
    setting_over _ h .mapSizes (each Value.toInt) (hcounts _),
    setting_over _ h .strides (each Value.toInt) (hcounts _),
    setting_over _ h .anchorSizes (each Value.toFloat) (hreals _),
    setting_over _ h .aspectRatios (each Value.toFloat) (hreals _),
    setting_over _ h .iouThreshold Value.toFloat rfl,
    setting_over _ h .backgroundThreshold Value.toFloat rfl,
    setting_over _ h .negativeRatio Value.toFloat rfl,
    setting_over _ h .armDivider Value.toFloat rfl,
    setting_over _ h .epsilon Value.toFloat rfl]

def readEntries (entries : List (Value × Value)) : Except ConfigError (LossConfig Int Float) := do
  rejectUnknown entries
  let c ← ofEntries entries
  c.checked.mapError .check

theorem read_eq (document : Value) : read document = sectionEntries document >>= readEntries := rfl

theorem sectionEntries_map {entries : List (Value × Value)} (h : entries ≠ []) :
    sectionEntries (.map entries) =
      match (lookup (ofString sectionName) entries).getD (.map entries) with
      | .null => .ok []
      | .map entries => .ok entries
      | other => .error (.sectionKind other.typeName) := by
  have ht : (Value.map entries).isTruthy = true := by simpa [isTruthy] using h
  simp only [sectionEntries, ht, locate]
  rfl

theorem over_ne_nil (c : LossConfig Int Float) {entries : List (Value × Value)}
    (h : DistinctKeys entries) : merge (c.toEntries .int .float) entries ≠ [] := by
  intro hnil
  have hl := lookup_merge (s := Setting.numClasses.name) (c.toEntries .int .float) h
  rw [hnil, lookup_toEntries] at hl
  cases hm : lookup (ofString Setting.numClasses.name) entries <;> rw [hm] at hl <;> cases hl

/-- A section without a section of its own is read over the defaults as it is read alone. -/
theorem read_over {entries : List (Value × Value)} (h : DistinctKeys entries)
    (hs : lookup (ofString sectionName) entries = none) :
    read (.map (merge (LossConfig.default.toEntries .int .float) entries)) = readEntries entries := by
  rw [read_eq, sectionEntries_map (over_ne_nil _ h), lookup_merge _ h, hs, lookup_section_toEntries]
  change readEntries (merge _ entries) = readEntries entries
  rw [readEntries, readEntries, rejectUnknown_congr (unknownKeys_over _ h), ofEntries_over h]

/-- A section of its own takes the place of the section, whatever stands beside it. -/
theorem read_over_inner {entries : List (Value × Value)} (h : DistinctKeys entries) {inner : Value}
    (hs : lookup (ofString sectionName) entries = some inner) :
    read (.map (merge (LossConfig.default.toEntries .int .float) entries)) =
      read (.map [(ofString sectionName, inner)]) := by
  have hone : lookup (ofString sectionName) [(ofString sectionName, inner)] = some inner := by
    rw [lookup, if_pos (sameKey_ofString.mpr rfl)]
  rw [read_eq, read_eq, sectionEntries_map (over_ne_nil _ h),
    sectionEntries_map (List.cons_ne_nil _ _), lookup_merge _ h, hs, hone]
  rfl

/-- The section of a document, if it has one, is null or a mapping without a section of its own. -/
def PlainSection (document : Value) : Prop :=
  document.isTruthy = true → ∀ part, locate document = .ok part →
    part = .null ∨ ∃ entries, part = .map entries ∧ lookup (ofString sectionName) entries = none

def DistinctSection (document : Value) : Prop :=
  ∀ entries, locate document = .ok (.map entries) → DistinctKeys entries

theorem looseEntries_of_plain {document : Value} (hp : PlainSection document) :
    looseEntries document = sectionEntries document := by
  cases ht : document.isTruthy with
  | false => simp only [looseEntries, sectionEntries, ht]; rfl
  | true =>
    cases hl : locate document with
    | error e => simp only [looseEntries, sectionEntries, ht, hl]; rfl
    | ok part =>
      simp only [looseEntries, sectionEntries, ht, hl]
      obtain rfl | ⟨entries, rfl, -⟩ := hp ht part hl
      · rfl
      · cases entries <;> rfl

theorem sectionEntries_of_plain {document : Value} (hp : PlainSection document)
    (hd : DistinctSection document) {entries : List (Value × Value)}
    (h : sectionEntries document = .ok entries) :
    DistinctKeys entries ∧ lookup (ofString sectionName) entries = none := by
  have hnil : DistinctKeys [] ∧ lookup (ofString sectionName) [] = none := ⟨.nil, rfl⟩
  cases ht : document.isTruthy with
  | false =>
    simp only [sectionEntries, ht] at h
    cases h
    exact hnil
  | true =>
    cases hl : locate document with
    | error e =>
      simp only [sectionEntries, ht, hl] at h
      cases h
    | ok part =>
      simp only [sectionEntries, ht, hl] at h
      obtain rfl | ⟨entries, rfl, hs⟩ := hp ht part hl
      · cases h
        exact hnil
      · cases h
        exact ⟨hd entries hl, hs⟩

theorem readOverDefaults_of_plain {document : Value} (hp : PlainSection document)
    (hd : DistinctSection document) : readOverDefaults document = read document := by
  have hloose := looseEntries_of_plain hp
  rw [read_eq]
  cases hs : sectionEntries document with
  | error e =>
    simp only [readOverDefaults, hloose, hs]
    rfl
  | ok entries =>
    obtain ⟨hkeys, hnone⟩ := sectionEntries_of_plain hp hd hs
    simp only [readOverDefaults, hloose, hs]
    exact read_over hkeys hnone

theorem rejectUnknown_of_unknown {entries : List (Value × Value)} (h : unknownKeys entries ≠ []) :
    ∃ e, rejectUnknown entries = .error e := by
  unfold unknownKeys at h
  unfold rejectUnknown
  split
  · contradiction
  · split
    · split
      · exact ⟨_, rfl⟩
      · exact ⟨_, rfl⟩
    · exact ⟨_, rfl⟩

theorem mem_keys_of_lookup {name : String} {entries : List (Value × Value)} {v : Value}
    (h : lookup (ofString name) entries = some v) : ofString name ∈ entries.map Prod.fst := by
  induction entries with
  | nil => cases h
  | cons e entries ih =>
    rw [lookup] at h
    by_cases hs : e.1.sameKey (ofString name) = true
    · rw [← sameKey_ofString.mp hs]
      exact List.mem_cons_self
    · rw [if_neg hs] at h
      exact List.mem_cons_of_mem _ (ih h)

theorem read_of_not_plain {document : Value} (hp : ¬PlainSection document) :
    ∃ e, read document = .error e := by
  simp only [PlainSection, not_forall, not_or, not_exists, not_and] at hp
  obtain ⟨ht, part, hl, hnull, hinner⟩ := hp
  cases part with
  | null => exact absurd rfl hnull
  | map entries =>
    have hsection : sectionEntries document = .ok entries := by
      simp only [sectionEntries, ht, hl]
      rfl
    obtain ⟨inner, hi⟩ := Option.ne_none_iff_exists'.mp (hinner entries rfl)
    have hunknown : ofString sectionName ∈ unknownKeys entries :=
      List.mem_filter.mpr ⟨mem_keys_of_lookup hi, by decide⟩
    obtain ⟨e, he⟩ := rejectUnknown_of_unknown (List.ne_nil_of_mem hunknown)
    refine ⟨e, ?_⟩
    rw [read_eq, hsection]
    simp only [bind, Except.bind, readEntries, he]
  | _ =>
    -- the name of the kind is found by evaluation
    exact ⟨_, by rw [read_eq]; simp only [sectionEntries, ht, hl]; rfl⟩

namespace Source

def Plain : Source → Prop
  | .document v => PlainSection v
  | .settings _ => True

def Distinct : Source → Prop
  | .document v => DistinctSection v
  | .settings _ => True

end Source

theorem build_of_plain {source : Source} (hp : source.Plain) (hd : source.Distinct) :
    build source = create source .null := by
  cases source with
  | settings c => rfl
  | document v =>
    simp only [build, create, readOverDefaults_of_plain hp hd]

theorem build_of_inner {document : Value} (hd : DistinctSection document)
    (ht : document.isTruthy = true) {entries : List (Value × Value)}
    (hl : locate document = .ok (.map entries)) {inner : Value}
    (hs : lookup (ofString sectionName) entries = some inner) :
    build (.document document) = create (.document (.map [(ofString sectionName, inner)])) .null := by
  have hne : (Value.map entries).isTruthy = true := by
    cases entries with
    | nil => cases hs
    | cons e entries => rfl
  have hloose : looseEntries document = .ok entries := by
    simp only [looseEntries, ht, hl]
    change (if (Value.map entries).isTruthy then entriesOf (.map entries) else .ok []) = .ok entries
    rw [hne]
    rfl
  simp only [build, create, readOverDefaults, hloose]
  simp only [bind, Except.bind, read_over_inner (hd entries hl) hs]

/-- Of the sources that `build` accepts, `create` accepts those with a plain section, and the loss that it
puts together is the same. -/
theorem create_eq_ok_iff {source : Source} (hd : source.Distinct) (a : Assembly) :
    create source .null = .ok a ↔ build source = .ok a ∧ source.Plain := by
  by_cases hp : source.Plain
  · rw [build_of_plain hp hd, and_iff_left hp]
  · cases source with
    | settings c => exact absurd trivial hp
    | document v =>
      obtain ⟨e, he⟩ := read_of_not_plain hp
      have hc : create (.document v) .null = .error (.config e) := by
        simp only [create, he]
        rfl
      rw [hc]
      exact ⟨fun h => (nomatch h), fun h => absurd h.2 hp⟩

section Documents

def threeClasses : Value := .map [(.ofString sectionName, .map [(.ofString "num_classes", .int 3)])]

def threeClassesInner : Value :=
  .map [(.ofString sectionName,
    .map [(.ofString sectionName, .map []), (.ofString "num_classes", .int 3)])]

theorem distinct_threeClasses : (Source.document threeClasses).Distinct := by
  intro entries h
  obtain rfl : [(ofString "num_classes", Value.int 3)] = entries := by
    cases h
    rfl
  exact List.pairwise_singleton _ _

theorem create_eq_ok_iff_threeClasses :
    (Source.document threeClasses).Distinct ∧
      ∃ a, create (.document threeClasses) .null = .ok a ∧ build (.document threeClasses) = .ok a ∧
        a.config.numClasses.wholeNumber? = some 3 := by
  refine ⟨distinct_threeClasses, ?_⟩
  have hc : (create (.document threeClasses) .null).toOption.map
      (fun a => a.config.numClasses.wholeNumber?) = some (some 3) := by
    decide +kernel
  obtain ⟨a, ha, hn⟩ := Option.map_eq_some_iff.mp hc
  have ha := eq_ok_of_toOption ha
  exact ⟨a, ha, ((create_eq_ok_iff distinct_threeClasses a).mp ha).1, hn⟩

/-- The number of classes beside an inner section is dropped by `build`, where `create` refuses both. -/
theorem inner_section_differs :
    (∃ a, build (.document threeClassesInner) = .ok a ∧ a.config.numClasses.wholeNumber? = some 21) ∧
      ∀ a, create (.document threeClassesInner) .null ≠ .ok a := by
  have hb : (build (.document threeClassesInner)).toOption.map
      (fun a => a.config.numClasses.wholeNumber?) = some (some 21) := by
    decide +kernel
  have hc : (create (.document threeClassesInner) .null).toOption.isNone = true := by
    decide +kernel
  constructor
  · obtain ⟨a, ha, hn⟩ := Option.map_eq_some_iff.mp hb
    exact ⟨a, eq_ok_of_toOption ha, hn⟩
  · intro a ha
    rw [ha] at hc
    cases hc

end Documents

end Config

end AnchorLoss
