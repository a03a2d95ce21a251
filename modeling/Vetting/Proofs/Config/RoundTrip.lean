import Vetting.Config
import Vetting.Proofs.Execution.RoundTrip

/-!
# Configurations and their documents

A configuration that was accepted is read back from its own document, whatever the lengths of time, names and bounds in
it (`ValidatorConfig.ofJson_toJson_of_validate`). Numbers in a configuration have no bound, those in a document do, so a
configuration has to fit the words of a document (`ValidatorConfig.FitsWords`).

Every section is read back by the law for records, field by field; acceptance is needed for the lengths of time only,
which are written as doubles.
-/

namespace Vetting

open Json Json.Decoder

/-! ### Accepted lengths of time -/

theorem Duration.reads_seconds_of_le_oneDay {d : Duration} (h : d ≤ oneDay) :
    secondsDecoder.Reads d.secondsJson d :=
  reads_seconds (Nat.le_trans h (by decide))

theorem checkDuration_eq_ok_iff {field : String} {d : Duration} :
    checkDuration field d = .ok () ↔ d.isBounded = true := demand_eq_ok_iff

theorem Duration.le_oneDay_of_isBounded {d : Duration} (h : d.isBounded = true) : d ≤ oneDay :=
  of_decide_eq_true (Bool.and_eq_true_iff.mp h).2

/-! ### Sets of names -/

namespace NameSet

theorem ext {s t : NameSet} (h : s.toList = t.toList) : s = t := by
  cases s
  cases t
  cases h
  rfl

theorem insertSorted_of_forall_lt {name : String} {names : List String} (h : ∀ n ∈ names, n < name) :
    insertSorted name names = names ++ [name] := by
  induction names with
  | nil => rfl
  | cons n rest ih =>
    obtain ⟨hn, hrest⟩ := List.forall_mem_cons.mp h
    rw [insertSorted, if_neg (String.lt_asymm hn), if_neg fun heq => String.lt_irrefl _ (heq ▸ hn), ih hrest,
      List.cons_append]

/-- Names that are put into a set in order stand in it in that order. -/
theorem toList_insertMany {s : NameSet} {names : List String} (hnames : names.Pairwise (· < ·))
    (hs : ∀ a ∈ s.toList, ∀ b ∈ names, a < b) : (s.insertMany names).toList = s.toList ++ names := by
  induction names generalizing s with
  | nil => exact (List.append_nil _).symm
  | cons name rest ih =>
    obtain ⟨hname, hrest⟩ := List.pairwise_cons.mp hnames
    have hinsert : (s.insert name).toList = s.toList ++ [name] :=
      insertSorted_of_forall_lt fun a ha => hs a ha name List.mem_cons_self
    have hnext : ∀ a ∈ (s.insert name).toList, ∀ b ∈ rest, a < b := by
      intro a ha b hb
      obtain rfl | ha := mem_insert.mp ha
      · exact hname b hb
      · exact hs a ha b (List.mem_cons_of_mem _ hb)
    have hmany : s.insertMany (name :: rest) = (s.insert name).insertMany rest := rfl
    rw [hmany, ih hrest hnext, hinsert, List.append_assoc]
    rfl

theorem ofList_toList (s : NameSet) : ofList s.toList = s := by
  apply ext
  rw [ofList, toList_insertMany s.increasing fun a ha => absurd ha List.not_mem_nil]
  rfl

end NameSet

namespace Denylist

theorem reads_names (s : NameSet) : namesDecoder.Reads (namesJson s) s := by
  have hlist : (Decoder.list .string).Reads (namesJson s) s.toList := reads_list fun n _ => reads_string n
  have hset := hlist.map NameSet.ofList
  rw [NameSet.ofList_toList] at hset
  exact hset

theorem reads_toJson (d : Denylist) : shape.decoder.Reads d.toJson d :=
  Shape.reads (by decide) <|
    .defaulted (reads_names d.modules) <|
    .defaulted (reads_names d.callables) <|
    .defaulted (reads_names d.attributes) .done

end Denylist

/-! ### Choices -/

theorem Severity.reads_toJson (s : Severity) : decoder.Reads s.toJson s :=
  reads_variant (by cases s <;> rfl)

theorem KnownAnalyzer.reads_toJson (a : KnownAnalyzer) : decoder.Reads a.toJson a :=
  reads_variant (by cases a <;> rfl)

theorem NetworkPolicy.reads_name (p : NetworkPolicy) : (Decoder.variant choices).Reads (.str p.name) p :=
  reads_variant (by cases p <;> rfl)

theorem FilesystemPolicy.reads_name (p : FilesystemPolicy) : (Decoder.variant choices).Reads (.str p.name) p :=
  reads_variant (by cases p <;> rfl)

/-! ### Sections -/

/-- The numbers of a section fit the words of a document. -/
structure ContainerConfig.FitsWords (c : ContainerConfig) : Prop where
  scratchSizeBytes : c.scratchSizeBytes < UInt64.size
  pidsLimit : c.pidsLimit < UInt32.size

theorem ContainerConfig.reads_toJson {c : ContainerConfig} (h : c.FitsWords) : shape.decoder.Reads c.toJson c :=
  Shape.reads (by decide) <|
    .defaulted (reads_string c.runtime) <|
    .defaulted (reads_string c.image) <|
    .defaulted (reads_string c.interpreter) <|
    .defaulted (reads_u64 h.scratchSizeBytes) <|
    .defaulted (reads_u32 h.pidsLimit) .done

structure SandboxConfig.FitsWords (c : SandboxConfig) : Prop where
  maxMemoryBytes : c.maxMemoryBytes < UInt64.size
  outputLimitBytes : c.outputLimitBytes < UInt64.size
  container : c.container.FitsWords

theorem SandboxConfig.reads_toJson {c : SandboxConfig} (h : c.FitsWords) (htimeout : c.timeout ≤ .oneDay) :
    shape.decoder.Reads c.toJson c :=
  Shape.reads (by decide) <|
    .defaulted (Duration.reads_seconds_of_le_oneDay htimeout) <|
    .defaulted (reads_u64 h.maxMemoryBytes) <|
    .defaulted (reads_f64 c.cpuShare) <|
    .defaulted c.network.reads_name <|
    .defaulted c.filesystem.reads_name <|
    .defaulted (reads_usize h.outputLimitBytes) <|
    .defaulted (reads_string c.interpreter) <|
    .defaulted (ContainerConfig.reads_toJson h.container) .done

structure PrevalidationConfig.FitsWords (c : PrevalidationConfig) : Prop where
  maxCodeLength : c.maxCodeLength < UInt64.size
  maxLines : c.maxLines < UInt64.size

theorem PrevalidationConfig.reads_toJson {c : PrevalidationConfig} (h : c.FitsWords) :
    shape.decoder.Reads c.toJson c :=
  Shape.reads (by decide) <|
    .defaulted (reads_usize h.maxCodeLength) <|
    .defaulted (reads_usize h.maxLines) <|
    .defaulted c.limitSeverity.reads_toJson .done

theorem StaticAnalysisConfig.reads_toJson {c : StaticAnalysisConfig} (hper : c.perAnalyzerTimeout ≤ .oneDay)
    (hoverall : c.overallTimeout ≤ .oneDay) : shape.decoder.Reads c.toJson c :=
  Shape.reads (by decide) <|
    .defaulted (reads_bool c.enabled) <|
    .defaulted (reads_list fun a _ => a.reads_toJson) <|
    .defaulted (Duration.reads_seconds_of_le_oneDay hper) <|
    .defaulted (Duration.reads_seconds_of_le_oneDay hoverall) .done

structure PropertyTestConfig.FitsWords (c : PropertyTestConfig) : Prop where
  trials : c.trials < UInt64.size
  intMin : -(UInt64.size / 2) ≤ c.intMin ∧ c.intMin ≤ UInt64.size / 2 - 1
  intMax : -(UInt64.size / 2) ≤ c.intMax ∧ c.intMax ≤ UInt64.size / 2 - 1
  maxStringLen : c.maxStringLen < UInt64.size
  maxListLen : c.maxListLen < UInt64.size
  maxCounterexamples : c.maxCounterexamples < UInt64.size
  seed : ∀ n, c.seed = some n → n < UInt64.size

theorem PropertyTestConfig.reads_toJson {c : PropertyTestConfig} (h : c.FitsWords) : shape.decoder.Reads c.toJson c :=
  Shape.reads (by decide) <|
    .defaulted (reads_usize h.trials) <|
    .defaulted (reads_i64 h.intMin) <|
    .defaulted (reads_i64 h.intMax) <|
    .defaulted (reads_f64 c.floatMin) <|
    .defaulted (reads_f64 c.floatMax) <|
    .defaulted (reads_usize h.maxStringLen) <|
    .defaulted (reads_usize h.maxListLen) <|
    .defaulted (reads_string c.defaultParamType) <|
    .defaulted (reads_bool c.stopOnFirstViolation) <|
    .defaulted (reads_usize h.maxCounterexamples) <|
    .defaulted (Parameter.reads_orNull_u64 c.seed h.seed) .done

theorem Thresholds.reads_toJson (t : Thresholds) : shape.decoder.Reads t.toJson t :=
  Shape.reads (by decide) <|
    .defaulted t.prevalidation.reads_toJson <|
    .defaulted t.staticAnalysis.reads_toJson <|
    .defaulted t.sandbox.reads_toJson <|
    .defaulted t.propertyTesting.reads_toJson <|
    .defaulted t.resourceGuard.reads_toJson .done

theorem ResourceCeilings.reads_toJson {c : ResourceCeilings} (hpeak : c.maxPeakMemoryBytes < UInt64.size)
    (htotal : c.maxTotalDuration ≤ .oneDay) (hcpu : c.maxTotalCpuTime ≤ .oneDay) : shape.decoder.Reads c.toJson c :=
  Shape.reads (by decide) <|
    .defaulted (Duration.reads_seconds_of_le_oneDay htotal) <|
    .defaulted (reads_u64 hpeak) <|
    .defaulted (Duration.reads_seconds_of_le_oneDay hcpu) .done

/-! ### Whole configurations -/

namespace ValidatorConfig

variable {c : ValidatorConfig}

/-- All numbers of a configuration fit the words of a document. -/
structure FitsWords (c : ValidatorConfig) : Prop where
  prevalidation : c.prevalidation.FitsWords
  sandbox : c.sandbox.FitsWords
  propertyTests : c.propertyTests.FitsWords
  maxPeakMemoryBytes : c.ceilings.maxPeakMemoryBytes < UInt64.size

/-- No length of time is longer than a day. -/
structure IsTimely (c : ValidatorConfig) : Prop where
  perAnalyzerTimeout : c.staticAnalysis.perAnalyzerTimeout ≤ .oneDay
  overallTimeout : c.staticAnalysis.overallTimeout ≤ .oneDay
  timeout : c.sandbox.timeout ≤ .oneDay
  maxTotalDuration : c.ceilings.maxTotalDuration ≤ .oneDay
  maxTotalCpuTime : c.ceilings.maxTotalCpuTime ≤ .oneDay
  overallDeadline : ∀ d, c.overallDeadline = some d → d ≤ .oneDay

/-- What comes after a check is only come to if the check is passed. -/
theorem bind_eq_ok_iff {check : Except ConfigError Unit} {rest : Except ConfigError α} {a : α} :
    (check >>= fun _ => rest) = .ok a ↔ check = .ok () ∧ rest = .ok a := by
  cases check with
  | error e => exact ⟨nofun, nofun⟩
  | ok u => exact ⟨fun h => ⟨rfl, h⟩, fun h => h.2⟩

theorem isTimely_of_validate (h : c.validate = .ok ()) : c.IsTimely := by
  simp only [validate, bind_eq_ok_iff, checkDuration_eq_ok_iff] at h
  obtain ⟨-, -, -, hper, hoverall, hsandbox, -, htotal, hcpu, -, hdeadline⟩ := h
  simp only [SandboxConfig.validate, bind_eq_ok_iff, checkDuration_eq_ok_iff] at hsandbox
  refine ⟨Duration.le_oneDay_of_isBounded hper, Duration.le_oneDay_of_isBounded hoverall,
    Duration.le_oneDay_of_isBounded hsandbox.1, Duration.le_oneDay_of_isBounded htotal,
    Duration.le_oneDay_of_isBounded hcpu, fun d hd => ?_⟩
  rw [hd] at hdeadline
  exact Duration.le_oneDay_of_isBounded (checkDuration_eq_ok_iff.mp hdeadline)

theorem reads_toJson (h : c.FitsWords) (ht : c.IsTimely) : shape.decoder.Reads c.toJson c :=
  Shape.reads (by decide) <|
    .defaulted (reads_bool c.stopOnFailure) <|
    .defaulted (PrevalidationConfig.reads_toJson h.prevalidation) <|
    .defaulted c.patterns.reads_toJson <|
    .defaulted (StaticAnalysisConfig.reads_toJson ht.perAnalyzerTimeout ht.overallTimeout) <|
    .defaulted (reads_bool c.enableSandbox) <|
    .defaulted c.sandboxBackend.reads_toJson <|
    .defaulted (SandboxConfig.reads_toJson h.sandbox ht.timeout) <|
    .defaulted (reads_bool c.enablePropertyTests) <|
    .defaulted (PropertyTestConfig.reads_toJson h.propertyTests) <|
    .defaulted c.thresholds.reads_toJson <|
    .defaulted (ResourceCeilings.reads_toJson h.maxPeakMemoryBytes ht.maxTotalDuration ht.maxTotalCpuTime) <|
    .defaulted (Parameter.reads_orNull c.overallDeadline fun d hd =>
      ⟨Duration.reads_seconds_of_le_oneDay (ht.overallDeadline d hd), nofun⟩) .done

theorem depth_toJson_le (c : ValidatorConfig) : c.toJson.depth ≤ 3 := by
  have hpatterns : c.patterns.toJson.depth = 2 := by
    have hnames (s : NameSet) : (Denylist.namesJson s).depth = 1 :=
      congrArg (· + 1) (depthItems_map_eq_zero (f := .str) fun _ => rfl)
    simp only [Denylist.toJson, depth, depthFields, depthField, hnames]
    rfl
  have hanalysis : c.staticAnalysis.toJson.depth = 2 := by
    have hanalyzers : depthItems (c.staticAnalysis.analyzers.map KnownAnalyzer.toJson) = 0 :=
      depthItems_map_eq_zero fun _ => rfl
    simp only [StaticAnalysisConfig.toJson, depth, depthFields, depthField, hanalyzers]
    rfl
  have htests : c.propertyTests.toJson.depth = 1 := by
    simp only [PropertyTestConfig.toJson]
    cases c.propertyTests.seed <;> rfl
  have hdeadline : (Parameter.orNull Duration.secondsJson c.overallDeadline).depth = 0 := by
    cases c.overallDeadline <;> rfl
  simp only [toJson, depth, depthFields, depthField, hpatterns, hanalysis, htests, hdeadline]
  -- The other sections hold no lists, and the container's is the only one inside another.
  exact Nat.le_refl 3

/-- An accepted configuration is read back from its own document. -/
theorem ofJson_toJson_of_validate (hc : c.validate = .ok ()) (h : c.FitsWords) :
    shape.decoder.ofJson c.toJson = .ok c :=
  (reads_toJson h (isTimely_of_validate hc)).ofJson (Nat.lt_of_le_of_lt c.depth_toJson_le (by decide))

/-- The shortest length of time and the longest, and some between. -/
theorem ofJson_toJson_of_extremes :
    let c : ValidatorConfig :=
      { patterns := ⟨.ofList ["os", "ctypes"], .ofList ["eval"], .empty⟩
        staticAnalysis := { perAnalyzerTimeout := ⟨1⟩, overallTimeout := .oneDay }
        sandbox := { timeout := ⟨86399999999999⟩ }
        propertyTests := { seed := some (2 ^ 64 - 1) }
        overallDeadline := some ⟨12345678901234⟩ }
    c.validate = .ok () ∧ c.FitsWords ∧ shape.decoder.ofJson c.toJson = .ok c := by
  intro c
  have hc : c.validate = .ok () := by
    have hvalid : c.validate.toBool = true := by decide +kernel
    cases hv : c.validate with
    | ok u => rfl
    | error e => exact absurd (hv ▸ hvalid) nofun
  have hseed : ∀ n, c.propertyTests.seed = some n → n < UInt64.size := by
    rintro n ⟨⟩
    decide
  have htests : c.propertyTests.FitsWords :=
    ⟨by decide, by decide, by decide, by decide, by decide, by decide, hseed⟩
  have hw : c.FitsWords := ⟨⟨by decide, by decide⟩, ⟨by decide, by decide, ⟨by decide, by decide⟩⟩, htests, by decide⟩
  exact ⟨hc, hw, ofJson_toJson_of_validate hc hw⟩

end ValidatorConfig

end Vetting
