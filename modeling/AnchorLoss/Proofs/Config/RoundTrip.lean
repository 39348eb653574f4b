import Mathlib
import AnchorLoss.Proofs.Binary.Total
import AnchorLoss.Proofs.Config.Section

namespace AnchorLoss

namespace Config

open Value

section Written

variable (c : LossConfig Int Float)

theorem setting_written {α : Type} (s : Setting) (convert : Value → Except ConversionError α)
    (fallback : α) {x : α} (hx : convert (written c s) = .ok x) :
    setting (c.toEntries .int .float) s convert fallback = .ok x := by
  rw [setting, lookup_toEntries]
  simp only [hx]
  rfl

theorem ofEntries_toEntries : ofEntries (c.toEntries .int .float) = .ok c := by
  have hcounts : ∀ ns : List Int, each Value.toInt (.list (ns.map .int)) = .ok ns :=
    each_map fun _ => rfl
  have hreals : ∀ xs : List Float, each Value.toFloat (.list (xs.map .float)) = .ok xs :=
    each_map fun _ => rfl
  simp only [ofEntries, setting_written c .numClasses Value.toInt _ rfl,
    setting_written c .maxTruths Value.toInt _ rfl,
    setting_written c .mapSizes (each Value.toInt) _ (hcounts _),
    setting_written c .strides (each Value.toInt) _ (hcounts _),
    setting_written c .anchorSizes (each Value.toFloat) _ (hreals _),
    setting_written c .aspectRatios (each Value.toFloat) _ (hreals _),
    setting_written c .iouThreshold Value.toFloat _ rfl,
    setting_written c .backgroundThreshold Value.toFloat _ rfl,
    setting_written c .negativeRatio Value.toFloat _ rfl,
    setting_written c .armDivider Value.toFloat _ rfl,
    setting_written c .epsilon Value.toFloat _ rfl]
  rfl

theorem rejectUnknown_toEntries : rejectUnknown (c.toEntries .int .float) = .ok () := by
  have hnone : unknownKeys (c.toEntries .int .float) = unknownKeys [] := by
    refine List.filter_eq_nil_iff.mpr fun k hk => ?_
    rw [isKnown_iff.mpr (keys_toEntries c hk)]
    exact Bool.false_ne_true
  exact rejectUnknown_congr hnone

theorem readEntries_toEntries :
    readEntries (c.toEntries .int .float) = c.checked.mapError .check := by
  rw [readEntries, rejectUnknown_toEntries, ofEntries_toEntries]
  rfl

theorem toEntries_ne_nil : c.toEntries .int .float ≠ [] := by
  intro h
  have hlength := congrArg List.length h
  simp [LossConfig.toEntries, Setting.all] at hlength

theorem distinct_toEntries : DistinctKeys (c.toEntries .int .float) := by
  have hnames : Setting.all.Pairwise fun s t => s.name ≠ t.name := by decide
  rw [toEntries_eq, DistinctKeys, List.pairwise_map]
  refine hnames.imp fun {s t} hne => ?_
  rw [Bool.eq_false_iff]
  intro hs
  have hname := sameKey_ofString.mp hs
  simp [ofString, hne] at hname

/-- Reading what is written of any settings is the check of the settings. -/
theorem read_toMap : read c.toMap = c.checked.mapError .check := by
  have hsection : sectionEntries c.toMap = .ok (c.toEntries .int .float) := by
    rw [LossConfig.toMap, sectionEntries_map (toEntries_ne_nil c), lookup_section_toEntries]
    rfl
  rw [read_eq, hsection]
  exact readEntries_toEntries c

theorem read_section_toMap :
    read (.map [(ofString sectionName, c.toMap)]) = c.checked.mapError .check := by
  have hlookup : lookup (ofString sectionName) [(ofString sectionName, c.toMap)] = some c.toMap := by
    rw [lookup, if_pos (sameKey_ofString.mpr rfl)]
  have hsection : sectionEntries (.map [(ofString sectionName, c.toMap)]) =
      .ok (c.toEntries .int .float) := by
    rw [sectionEntries_map (List.cons_ne_nil _ _), hlookup]
    rfl
  rw [read_eq, hsection]
  exact readEntries_toEntries c

theorem locate_toMap : locate c.toMap = .ok c.toMap := by
  rw [LossConfig.toMap, locate, lookup_section_toEntries]
  rfl

theorem readOverDefaults_toMap : readOverDefaults c.toMap = c.checked.mapError .check := by
  have hplain : PlainSection c.toMap := by
    intro _ part hpart
    obtain rfl := Except.ok.inj ((locate_toMap c).symm.trans hpart)
    exact .inr ⟨_, rfl, lookup_section_toEntries c⟩
  have hdistinct : DistinctSection c.toMap := by
    intro entries h
    obtain rfl := Value.map.inj (Except.ok.inj ((locate_toMap c).symm.trans h))
    exact distinct_toEntries c
  rw [readOverDefaults_of_plain hplain hdistinct, read_toMap]

end Written

theorem checked_of_check {c : LossConfig Int Float} (h : c.check = .ok ()) :
    c.checked.mapError ConfigError.check = .ok c := by
  rw [LossConfig.checked, h]
  rfl

theorem assemble_null {c : LossConfig Value Value} {properties : Value} {a : Assembly}
    (h : assemble c properties = .ok a) : assemble c .null = .ok a ∧ a.config = c := by
  have hnull : checkProperties .null = .ok () := rfl
  unfold assemble at h ⊢
  obtain ⟨u, -, h⟩ := exists_of_bind_eq_ok h
  refine ⟨by rw [hnull]; exact h, ?_⟩
  obtain ⟨grid, -, h⟩ := exists_of_bind_eq_ok h
  cases hg : Grid.error? (F := Binary) grid with
  | some e => rw [hg] at h; cases h
  | none =>
    rw [hg] at h
    cases h
    rfl

/-- Settings are read from what is written of them, as a whole document or as its section, and written again
in the same way, and a loss that can be put together from them is put together from what is written too. -/
structure Restored (c : LossConfig Int Float) : Prop where
  document : read c.toMap = .ok c
  part : read (.map [(ofString sectionName, c.toMap)]) = .ok c
  written : ∀ document ∈ [c.toMap, .map [(ofString sectionName, c.toMap)]],
    (read document).map LossConfig.toMap = .ok c.toMap
  loss : ∀ properties a, create (.settings (valuesOf c)) properties = .ok a →
    build (.document c.toMap) = .ok a ∧ a.config = valuesOf c

/-- Whatever document settings were read from, they are read again from what is written of them. -/
theorem restored_of_read {document : Value} {c : LossConfig Int Float} (h : read document = .ok c) :
    Restored c := by
  have hchecked := checked_of_check (check_of_read h)
  have hdocument := (read_toMap c).trans hchecked
  have hpart := (read_section_toMap c).trans hchecked
  have hover := (readOverDefaults_toMap c).trans hchecked
  refine ⟨hdocument, hpart, ?written, fun properties a ha => ?loss⟩
  case written =>
    intro document hmem
    obtain rfl | rfl : document = c.toMap ∨ document = .map [(ofString sectionName, c.toMap)] := by
      simpa using hmem
    · rw [hdocument]
      rfl
    · rw [hpart]
      rfl
  case loss =>
    have ha : assemble (valuesOf c) properties = .ok a := ha
    obtain ⟨hnull, hconfig⟩ := assemble_null ha
    refine ⟨?_, hconfig⟩
    rw [build, hover]
    exact hnull

section Spelled

open Tiny

def spelling : List (Value × Value) :=
  [(.ofString "num_classes", .ofString " 2 "), (.ofString "max_gt_boxes", .bool true),
    (.ofString "feature_map_sizes", .ofString "1"), (.ofString "strides", .list [.float 8.5]),
    (.ofString "anchor_sizes", .list [.ofString "8"]), (.ofString "aspect_ratios", .ofString "14"),
    (.ofString "negative_ratio", .ofString "nan"), (.ofString "arm_conf_loss_divider", .ofString "inf")]

def respelled : LossConfig Int Float := { config with negativeRatio := 0 / 0, armDivider := 1 / 0 }

theorem check_respelled : respelled.check = .ok () := by
  decide +kernel

theorem read_spelling : read (.map spelling) = .ok respelled := by
  have hs : sectionEntries (.map spelling) = .ok spelling := rfl
  have hu : rejectUnknown spelling = .ok () := rfl
  have ho : ofEntries spelling = .ok respelled := rfl
  simp only [read, hs, hu, ho, bind, Except.bind, LossConfig.checked, check_respelled]
  rfl

theorem restored_of_read_spelled : read (.map spelling) = .ok respelled ∧
    read respelled.toMap = .ok respelled ∧
    ∃ a, create (.settings (valuesOf respelled)) .null = .ok a ∧
      build (.document respelled.toMap) = .ok a := by
  have h := restored_of_read read_spelling
  obtain ⟨a, ha⟩ : ∃ a, (create (.settings (valuesOf respelled)) .null).toOption = some a :=
    Option.isSome_iff_exists.mp (by decide +kernel)
  have ha := eq_ok_of_toOption ha
  exact ⟨read_spelling, h.document, a, ha, (h.loss .null a ha).1⟩

end Spelled

end Config

end AnchorLoss
