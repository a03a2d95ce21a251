import Vetting.Prevalidation
import Vetting.Proofs.Python.Flaws

/-!
# What a scan finds

The findings of a scan by their origin: the one finding for a source that is no program, the findings for a
source that is too long, and those of the screening (`Screened`). Only the first has the code of a syntax
error, so `Prevalidation.isSyntaxFailure` tells exactly whether the readers took the source for a program.
-/

namespace Vetting

namespace Screening

open Python

/-- The findings that the screening can give. -/
inductive Screened : Finding → Prop
  | module : Screened (forbiddenModule message n)
  | callable : Screened (forbiddenCallable message n)
  | reference : Screened (forbiddenReference message n)
  | attribute : Screened (forbiddenAttribute message n)

theorem screened_of_importFindings (h : f ∈ importFindings d statement) : Screened f := by
  obtain ⟨module, -, hm⟩ := List.mem_filterMap.mp h
  split at hm <;> cases hm
  exact .module

theorem screened_of_fromImportFindings (h : f ∈ fromImportFindings d statement) : Screened f := by
  unfold fromImportFindings at h
  split at h
  · cases h
  split at h
  · cases List.mem_singleton.mp h
    exact .module
  · obtain ⟨member, -, hm⟩ := List.mem_filterMap.mp h
    simp only at hm
    split at hm <;> cases hm
    exact .callable

theorem screened_of_reflectiveFinding? (h : reflectiveFinding? d argument = some f) : Screened f := by
  unfold reflectiveFinding? at h
  split at h
  · split at h <;> cases h
    exact .attribute
  · cases h

theorem screened_of_dynamicImportFinding? (h : dynamicImportFinding? d argument = some f) :
    Screened f := by
  unfold dynamicImportFinding? at h
  split at h
  · split at h <;> cases h
    exact .module
  · cases h

theorem screened_of_callFindings (h : f ∈ callFindings c call) : Screened f := by
  unfold callFindings at h
  split at h
  · cases h
  split at h
  · cases h
  simp only [List.mem_append, Option.mem_toList] at h
  obtain (h | h) | h := h
  · obtain ⟨name, -, rfl⟩ := Option.map_eq_some_iff.mp h
    exact .callable
  · split at h
    · obtain ⟨argument, -, h⟩ := Option.bind_eq_some_iff.mp h
      exact screened_of_reflectiveFinding? h
    · cases h
  · split at h
    · obtain ⟨argument, -, h⟩ := Option.bind_eq_some_iff.mp h
      exact screened_of_dynamicImportFinding? h
    · cases h

theorem screened_of_attributeFindings (h : f ∈ attributeFindings d n) : Screened f := by
  unfold attributeFindings at h
  split at h
  · split at h
    · cases List.mem_singleton.mp h
      exact .attribute
    · cases h
  · cases h

theorem screened_of_nameFindings (h : f ∈ nameFindings d parent functions n) : Screened f := by
  unfold nameFindings at h
  split at h
  · cases h
  split at h
  · cases List.mem_singleton.mp h
    exact .attribute
  split at h
  · cases h
  split at h
  · cases h
  · cases List.mem_singleton.mp h
    exact .reference

theorem screened_of_spotFindings (h : f ∈ spotFindings c s) : Screened f := by
  unfold spotFindings at h
  split at h
  · exact screened_of_importFindings h
  · exact screened_of_fromImportFindings h
  · exact screened_of_callFindings h
  · exact screened_of_attributeFindings h
  · split at h
    · exact screened_of_nameFindings h
    · cases h
  · cases h

theorem screened_of_findings {root : Node} (h : f ∈ findings d root) : Screened f := by
  obtain ⟨s, -, hs⟩ := List.mem_flatMap.mp (List.mem_mergeSort.mp h)
  exact screened_of_spotFindings hs

theorem Screened.code_ne (h : Screened f) : f.code ≠ some Prevalidation.syntaxErrorCode := by
  cases h <;> exact fun hc => absurd (Option.some.inj hc) (by decide)

end Screening

namespace Prevalidation

theorem code_ne_of_limitFindings {limits : PrevalidationConfig} {source : List Char}
    (h : f ∈ limitFindings limits source) : f.code ≠ some syntaxErrorCode := by
  simp only [limitFindings, List.mem_append] at h
  rcases h with h | h
  all_goals
    split at h
    · cases List.mem_singleton.mp h
      exact fun hc => absurd (Option.some.inj hc) (by decide)
    · cases h

/-! ### The stage by its readers -/

section

variable {readers : Python.Readers} {denylist : Denylist} {limits : PrevalidationConfig} {threshold : Severity}
  {source : List Char}

theorem code_ne_of_findingsOf {root : Python.Node} {f : Finding} (h : readers.read source = .ok root)
    (hf : f ∈ findingsOf readers denylist limits source) : f.code ≠ some syntaxErrorCode := by
  rw [findingsOf_of_ok h] at hf
  obtain hf | hf := List.mem_append.mp hf
  · exact code_ne_of_limitFindings hf
  · exact (Screening.screened_of_findings hf).code_ne

/-- A result tells of a syntax failure exactly when the grammar is there and a reader did not take the source for a
program. -/
theorem isSyntaxFailure_runWith_iff :
    isSyntaxFailure (runWith readers denylist limits threshold source) = true ↔
      readers.load = .ok () ∧ readers.Unparsed source := by
  cases hload : readers.load with
  | error reason => simp [runWith_of_load_error hload, isSyntaxFailure, StageResult.errored]
  | ok u =>
    simp only [isSyntaxFailure, List.any_eq_true, decide_eq_true_eq, runWith_of_load hload, StageResult.ofFindings,
      ← Python.Readers.exists_read_eq_error_iff, true_and]
    constructor
    · rintro ⟨f, hf, hcode⟩
      cases hr : readers.read source with
      | error r => exact ⟨r, rfl⟩
      | ok root => exact absurd hcode (code_ne_of_findingsOf hr hf)
    · rintro ⟨r, hr⟩
      rw [findingsOf_of_error hr]
      exact ⟨_, List.mem_singleton_self _, rfl⟩

/-- A syntax failure is critical, so no threshold lets it pass. -/
theorem status_runWith_of_isSyntaxFailure
    (h : isSyntaxFailure (runWith readers denylist limits threshold source) = true) :
    (runWith readers denylist limits threshold source).status = .failed := by
  obtain ⟨hload, hu⟩ := isSyntaxFailure_runWith_iff.mp h
  obtain ⟨r, hr⟩ := Python.Readers.exists_read_eq_error_iff.mpr hu
  rw [runWith_of_load hload, StageResult.ofFindings_status_eq_failed_iff, findingsOf_of_error hr]
  exact ⟨_, List.mem_singleton_self _, Severity.le_critical _⟩

theorem status_run_of_isSyntaxFailure (h : isSyntaxFailure (run denylist limits threshold source) = true) :
    (run denylist limits threshold source).status = .failed :=
  status_runWith_of_isSyntaxFailure h

end

end Prevalidation

end Vetting
