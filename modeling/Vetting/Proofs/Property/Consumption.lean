import Vetting.Proofs.Property.Campaign

/-!
# What runs consume

The largest peak and the processor time of several runs (`RunResult.peakOf`, `RunResult.cpuTimeOf`), and the usages
that are made of them. `BatchUsage.foldl_record` says that taking up runs one after the other comes to the same.
-/

namespace Vetting

/-! ### Several runs -/

namespace ResourceUsage

@[simp] theorem maxPeak_none_left (b : Option Nat) : maxPeak none b = b := rfl

@[simp] theorem maxPeak_none_right (a : Option Nat) : maxPeak a none = a := by
  cases a <;> rfl

theorem maxPeak_comm (a b : Option Nat) : maxPeak a b = maxPeak b a := by
  cases a <;> cases b <;> simp [maxPeak, Nat.max_comm]

/-- A peak is not raised by another exactly when it is at least as large. -/
theorem maxPeak_eq_right_iff {a b : Option Nat} :
    maxPeak a b = b ↔ ∀ p, a = some p → ∃ q, b = some q ∧ p ≤ q := by
  cases a with
  | none => simp
  | some p =>
    cases b with
    | none => simp
    | some q =>
      have h : max p q = q ↔ p ≤ q := by omega
      simp [maxPeak, h]

theorem max?_append (xs ys : List Nat) : (xs ++ ys).max? = maxPeak xs.max? ys.max? := by
  induction xs with
  | nil => rfl
  | cons x xs ih =>
    rw [List.cons_append, List.max?_cons, List.max?_cons, ih]
    cases xs.max? <;> cases ys.max? <;> simp [maxPeak, Nat.max_assoc]

end ResourceUsage

namespace Duration

/-- Several times together, in nanoseconds. -/
def totalNanos : List Duration → Nat
  | [] => 0
  | d :: rest => d.nanos + totalNanos rest

theorem totalNanos_append (xs ys : List Duration) :
    totalNanos (xs ++ ys) = totalNanos xs + totalNanos ys := by
  induction xs with
  | nil => exact (Nat.zero_add _).symm
  | cons d xs ih => rw [List.cons_append, totalNanos, ih, totalNanos, Nat.add_assoc]

end Duration

namespace RunResult

/-- The largest peak that a run reported. -/
def peakOf (runs : List RunResult) : Option Nat := (runs.filterMap (·.peakMemoryBytes)).max?

/-- The processor time that the runs reported, cut off at the longest time. -/
def cpuTimeOf (runs : List RunResult) : Duration :=
  ⟨min Duration.longest.nanos (Duration.totalNanos (runs.filterMap (·.cpuTime)))⟩

theorem cpuTimeOf_le (runs : List RunResult) : cpuTimeOf runs ≤ Duration.longest :=
  Nat.min_le_left ..

theorem peakOf_append (xs ys : List RunResult) :
    peakOf (xs ++ ys) = ResourceUsage.maxPeak (peakOf xs) (peakOf ys) := by
  rw [peakOf, List.filterMap_append, ResourceUsage.max?_append]
  rfl

/-- Cutting off along the way comes to the same as cutting off the sum. -/
theorem cpuTimeOf_append (xs ys : List RunResult) :
    cpuTimeOf (xs ++ ys) = (cpuTimeOf xs).saturatingAdd (cpuTimeOf ys) := by
  simp only [cpuTimeOf, Duration.saturatingAdd, List.filterMap_append, Duration.totalNanos_append]
  congr 1
  omega

theorem peakOf_singleton (r : RunResult) : peakOf [r] = r.peakMemoryBytes := by
  cases h : r.peakMemoryBytes <;> simp [peakOf, h]

theorem peakOf_cons (r : RunResult) (runs : List RunResult) :
    peakOf (r :: runs) = ResourceUsage.maxPeak (peakOf runs) r.peakMemoryBytes := by
  rw [ResourceUsage.maxPeak_comm, ← peakOf_singleton, ← peakOf_append]
  rfl

theorem cpuTimeOf_cons (r : RunResult) (runs : List RunResult) :
    cpuTimeOf (r :: runs) = match r.cpuTime with
      | some t => (cpuTimeOf runs).saturatingAdd t
      | none => cpuTimeOf runs := by
  cases h : r.cpuTime with
  | none => simp [cpuTimeOf, h]
  | some t =>
    simp only [cpuTimeOf, Duration.saturatingAdd, List.filterMap_cons, h, Duration.totalNanos]
    congr 1
    omega

theorem peakOf_reverse (runs : List RunResult) : peakOf runs.reverse = peakOf runs := by
  induction runs with
  | nil => rfl
  | cons r runs ih => rw [List.reverse_cons, peakOf_append, ih, ResourceUsage.maxPeak_comm, ← peakOf_append]; rfl

theorem cpuTimeOf_reverse (runs : List RunResult) : cpuTimeOf runs.reverse = cpuTimeOf runs := by
  induction runs with
  | nil => rfl
  | cons r runs ih => rw [List.reverse_cons, cpuTimeOf_append, ih, Duration.saturatingAdd_comm, ← cpuTimeOf_append]; rfl

end RunResult

/-! ### Usages -/

/-- The usage of several runs, as it is held against the ceilings. -/
def ResourceUsage.ofRuns (wallTime : Duration) (runs : List RunResult) : ResourceUsage :=
  ⟨wallTime, RunResult.peakOf runs, RunResult.cpuTimeOf runs⟩

/-- The usage of several batches. -/
def BatchUsage.ofRuns (runs : List RunResult) : BatchUsage :=
  ⟨runs.length, RunResult.peakOf runs, RunResult.cpuTimeOf runs⟩

/-- The order of the batches does not count. -/
theorem BatchUsage.ofRuns_reverse (runs : List RunResult) : ofRuns runs.reverse = ofRuns runs := by
  rw [ofRuns, ofRuns, List.length_reverse, RunResult.peakOf_reverse, RunResult.cpuTimeOf_reverse]

/-- Taking up runs one after the other. -/
theorem BatchUsage.foldl_record (runs : List RunResult) : runs.foldl record {} = ofRuns runs := by
  rw [← ofRuns_reverse, ← List.foldr_reverse]
  induction runs.reverse with
  | nil => rfl
  | cons r runs ih =>
    rw [List.foldr_cons, ih, record, ofRuns, ofRuns, RunResult.peakOf_cons, RunResult.cpuTimeOf_cons]
    rfl

namespace ResourceUsage

variable (wallTime : Duration) (runs batches : List RunResult)

theorem record_ofRuns (r : RunResult) :
    record (ofRuns wallTime runs) r = ofRuns wallTime (r :: runs) := by
  rw [ofRuns, ofRuns, RunResult.peakOf_cons, RunResult.cpuTimeOf_cons]
  unfold record recordPeak addCpuTime
  cases r.cpuTime <;> rfl

/-- Taking up a usage of batches comes to the same as taking up the batches. -/
theorem add_ofRuns :
    addCpuTime (recordPeak (ofRuns wallTime runs) (BatchUsage.ofRuns batches).peakMemoryBytes)
      (some (BatchUsage.ofRuns batches).cpuTime) = ofRuns wallTime (batches ++ runs) := by
  rw [ofRuns, ofRuns, RunResult.peakOf_append, RunResult.cpuTimeOf_append, maxPeak_comm,
    Duration.saturatingAdd_comm]
  rfl

end ResourceUsage

end Vetting
