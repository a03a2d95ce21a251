import Vetting.Config

/-!
The resource guard: what a validation has consumed, held against the ceilings.
-/

namespace Vetting

/-- What a validation has consumed so far. -/
structure ResourceUsage where
  wallTime : Duration := .zero
  /-- The largest peak that a run reported. -/
  peakMemoryBytes : Option Nat := none
  /-- The processor time of all runs. -/
  cpuTime : Duration := .zero
deriving DecidableEq

namespace ResourceUsage

/-- The larger of two peaks; one that was not reported does not count. -/
def maxPeak : Option Nat → Option Nat → Option Nat
  | none, b => b
  | a, none => a
  | some a, some b => some (max a b)

def recordPeak (u : ResourceUsage) (peak : Option Nat) : ResourceUsage :=
  { u with peakMemoryBytes := maxPeak u.peakMemoryBytes peak }

def addCpuTime (u : ResourceUsage) : Option Duration → ResourceUsage
  | none => u
  | some d => { u with cpuTime := u.cpuTime.saturatingAdd d }

/-- Takes up what one run consumed. -/
def record (u : ResourceUsage) (r : RunResult) : ResourceUsage :=
  (u.recordPeak r.peakMemoryBytes).addCpuTime r.cpuTime

end ResourceUsage

namespace ResourceGuard

def bytesPerMebibyte : Nat := 1024 * 1024

def secondsText (d : Duration) : String := d.toSeconds.fixedText 3 ++ "s"

def mebibytesText (bytes : Nat) : String := toString (bytes / bytesPerMebibyte) ++ " MiB"

def wallTimeFinding? (c : ResourceCeilings) (u : ResourceUsage) : Option Finding :=
  if c.maxTotalDuration < u.wallTime then
    some (.coded .error "wall-time-exceeded" ("validation took " ++ secondsText u.wallTime
      ++ ", ceiling is " ++ secondsText c.maxTotalDuration))
  else none

def cpuTimeFinding? (c : ResourceCeilings) (u : ResourceUsage) : Option Finding :=
  if c.maxTotalCpuTime < u.cpuTime then
    some (.coded .error "cpu-time-exceeded" ("sandbox runs used " ++ secondsText u.cpuTime
      ++ " of CPU, ceiling is " ++ secondsText c.maxTotalCpuTime))
  else none

def memoryFinding? (c : ResourceCeilings) (u : ResourceUsage) : Option Finding :=
  match u.peakMemoryBytes with
  | none => none
  | some peak =>
    if c.maxPeakMemoryBytes < peak then
      some (.coded .error "memory-exceeded" ("peak memory " ++ mebibytesText peak
        ++ " exceeds ceiling of " ++ mebibytesText c.maxPeakMemoryBytes))
    else none

/-- Says which ceilings hold; measured values stay out, so equal validations have equal findings. -/
def summary (c : ResourceCeilings) : Finding :=
  .coded .info "resource-summary" ("within ceilings: " ++ secondsText c.maxTotalDuration
    ++ " wall time, " ++ secondsText c.maxTotalCpuTime ++ " CPU time, "
    ++ mebibytesText c.maxPeakMemoryBytes ++ " peak memory")

def findings (c : ResourceCeilings) (u : ResourceUsage) : List Finding :=
  match [wallTimeFinding? c u, cpuTimeFinding? c u, memoryFinding? c u].filterMap id with
  | [] => [summary c]
  | exceeded => exceeded

/-- The stage: one finding for each ceiling that is exceeded. -/
def check (c : ResourceCeilings) (threshold : Severity) (u : ResourceUsage) : StageResult :=
  .ofFindings .resourceGuard (findings c u) threshold .zero

/-! ### Codes of findings -/

variable {c : ResourceCeilings} {u : ResourceUsage} {code : String}

theorem exists_code_wallTimeFinding?_iff :
    (∃ f, wallTimeFinding? c u = some f ∧ f.code = some code) ↔
      code = "wall-time-exceeded" ∧ c.maxTotalDuration < u.wallTime := by
  unfold wallTimeFinding?
  split <;> simp [*, Finding.coded, eq_comm]

theorem exists_code_cpuTimeFinding?_iff :
    (∃ f, cpuTimeFinding? c u = some f ∧ f.code = some code) ↔
      code = "cpu-time-exceeded" ∧ c.maxTotalCpuTime < u.cpuTime := by
  unfold cpuTimeFinding?
  split <;> simp [*, Finding.coded, eq_comm]

theorem exists_code_memoryFinding?_iff :
    (∃ f, memoryFinding? c u = some f ∧ f.code = some code) ↔
      code = "memory-exceeded" ∧ ∃ p, u.peakMemoryBytes = some p ∧ c.maxPeakMemoryBytes < p := by
  unfold memoryFinding?
  split
  · simp [*]
  · split <;> simp [*, Finding.coded, eq_comm]

/-- Each code stands for one ceiling, and is reported exactly when that ceiling is exceeded. -/
theorem exists_code_iff (h : code ≠ "resource-summary") :
    (∃ f ∈ findings c u, f.code = some code) ↔
      (code = "wall-time-exceeded" ∧ c.maxTotalDuration < u.wallTime) ∨
      (code = "cpu-time-exceeded" ∧ c.maxTotalCpuTime < u.cpuTime) ∨
      (code = "memory-exceeded" ∧ ∃ p, u.peakMemoryBytes = some p ∧ c.maxPeakMemoryBytes < p) := by
  -- The summary has a code of its own, so it can be left out of the findings.
  have hf : (∃ f ∈ findings c u, f.code = some code) ↔
      ∃ f ∈ [wallTimeFinding? c u, cpuTimeFinding? c u, memoryFinding? c u].filterMap id,
        f.code = some code := by
    unfold findings
    split
    · rename_i he
      rw [he]
      simp [summary, Finding.coded, h.symm]
    · rfl
  have hm (f : Finding) :
      f ∈ [wallTimeFinding? c u, cpuTimeFinding? c u, memoryFinding? c u].filterMap id ↔
        wallTimeFinding? c u = some f ∨ cpuTimeFinding? c u = some f ∨
          memoryFinding? c u = some f := by
    simp only [List.mem_filterMap, List.mem_cons, List.not_mem_nil, or_false, id_eq,
      exists_eq_right]
    exact or_congr eq_comm (or_congr eq_comm eq_comm)
  rw [hf, ← exists_code_wallTimeFinding?_iff, ← exists_code_cpuTimeFinding?_iff,
    ← exists_code_memoryFinding?_iff]
  simp only [hm, or_and_right, exists_or]

end ResourceGuard

end Vetting
