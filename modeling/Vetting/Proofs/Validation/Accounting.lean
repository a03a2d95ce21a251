import Vetting.Proofs.Property.Conduct
import Vetting.Proofs.Validation.Stages

/-!
# What is held against the ceilings

The runs that came back are `counted` or `lost`: lost are the batches of a campaign that the deadline
cancelled. `accounting` says that the resource guard sees the counted runs and nothing else, when that is
all there is to see, and which ceilings it reports.
-/

namespace Vetting

/-- The resource guard has a finding with this code. -/
def Report.GuardReports (r : Report) (code : String) : Prop :=
  ∃ g, r.stage? .resourceGuard = some g ∧ ∃ f ∈ g.findings, f.code = some code

namespace Validation

/-! ### Counted and lost runs -/

namespace Course

/-- The runs whose consumption is held against the ceilings. -/
def counted (c : Course) : List RunResult :=
  if c.fourth.result.status = .timedOut then c.third.run?.toList else c.fourth.log.results

/-- The batches that came back before the deadline cancelled the property stage. -/
def lost (c : Course) : List RunResult :=
  if c.fourth.result.status = .timedOut then c.fourth.log.results.dropLast else []

end Course

variable {config : ValidatorConfig} {around : Surroundings} {source : String}
  {entryPoint : Option String}

/-- The log of the execution stage holds its run and nothing else. -/
theorem ExecutionStep.results_eq {halted : Option String} {executed : Executed}
    (h : ExecutionStep config around source entryPoint elapsed halted executed) :
    executed.log.results = executed.run?.toList := by
  cases h with
  | halted | disabled => rfl
  | finished _ hp => exact hp.ask_finished.2
  | overdue _ _ hp => exact hp.ask_cancelled.2

/-- What the property stage adds to the log of the execution stage, and what becomes of it. -/
inductive Batches (executed : Executed) : Tested → List RunResult → Prop
  | untested : result.status ≠ .timedOut → Batches executed ⟨result, none, executed.log⟩ []
  | taken {log : Log} : result.status ≠ .timedOut → log.results = batches ++ executed.log.results →
      campaign.usage = .ofRuns batches → Batches executed ⟨result, some campaign, log⟩ batches
  | lost {log : Log} : result.status = .timedOut → log.results = batches ++ executed.log.results →
      executed.run? = some r → Batches executed ⟨result, none, log⟩ batches

theorem Batches.results_eq {executed : Executed} {tested : Tested} {batches : List RunResult}
    (h : Batches executed tested batches) : tested.log.results = batches ++ executed.log.results := by
  cases h with
  | untested => rfl
  | taken _ hlog | lost _ hlog => exact hlog

theorem PropertyStep.batches {executed : Executed} {halted : Option String} {tested : Tested}
    (h : PropertyStep config around source entryPoint executed halted tested) :
    ∃ batches, Batches executed tested batches := by
  cases h with
  | halted | untested => exact ⟨[], .untested nofun⟩
  | finished _ hs hp =>
    obtain ⟨batches, hlog, hu⟩ := Tester.usage_of_campaign hs hp
    exact ⟨batches, .taken (StageResult.ofFindings_status_ne (by simp)) hlog hu⟩
  | overdue ht _ _ hp =>
    obtain ⟨batches, hlog⟩ := hp.results_eq_append
    obtain ⟨-, r, hr, -⟩ := isTestable_of_propertyTarget ht
    exact ⟨batches, .lost rfl hlog hr⟩

/-- The usage in terms of that of the run of the source. -/
theorem usageOf_eq (wallTime : Duration) (c : Course) :
    usageOf wallTime c =
      let usage := ResourceUsage.ofRuns .zero c.third.run?.toList
      let usage := match c.fourth.campaign? with
        | some campaign => (usage.recordPeak campaign.usage.peakMemoryBytes).addCpuTime
          (some campaign.usage.cpuTime)
        | none => usage
      { usage with wallTime := wallTime } := by
  unfold usageOf
  cases c.third.run? with
  | none => rfl
  | some r =>
    have hr : ResourceUsage.record {} r = .ofRuns .zero [r] :=
      ResourceUsage.record_ofRuns .zero [] r
    simp only [hr]
    rfl

theorem usageOf_of_campaign?_eq_none {c : Course} (h : c.fourth.campaign? = none)
    (wallTime : Duration) : usageOf wallTime c = .ofRuns wallTime c.third.run?.toList := by
  rw [usageOf_eq, h]
  rfl

theorem usageOf_of_campaign?_eq_some {c : Course} {campaign : Campaign}
    {batches : List RunResult} (h : c.fourth.campaign? = some campaign)
    (hu : campaign.usage = .ofRuns batches) (wallTime : Duration) :
    usageOf wallTime c = .ofRuns wallTime (batches ++ c.third.run?.toList) := by
  rw [usageOf_eq, h]
  simp only [hu, ResourceUsage.add_ofRuns]
  rfl

/-! ### Ceilings -/

/-- One of the runs has a peak above the ceiling. -/
def MemoryExceeded (c : ResourceCeilings) (runs : List RunResult) : Prop :=
  ∃ p, RunResult.peakOf runs = some p ∧ c.maxPeakMemoryBytes < p

/-- The runs together took more processor time than the ceiling allows. -/
def CpuTimeExceeded (c : ResourceCeilings) (runs : List RunResult) : Prop :=
  c.maxTotalCpuTime < RunResult.cpuTimeOf runs

theorem memoryExceeded_append {c : ResourceCeilings} {xs ys : List RunResult} :
    MemoryExceeded c (xs ++ ys) ↔ MemoryExceeded c xs ∨ MemoryExceeded c ys := by
  rw [MemoryExceeded, MemoryExceeded, MemoryExceeded, RunResult.peakOf_append]
  cases RunResult.peakOf xs with
  | none => simp
  | some p =>
    cases RunResult.peakOf ys with
    | none => simp
    | some q =>
      simp only [ResourceUsage.maxPeak, Option.some.injEq, exists_eq_left']
      omega

theorem CpuTimeExceeded.append {c : ResourceCeilings} {ys : List RunResult} (xs : List RunResult)
    (h : CpuTimeExceeded c ys) : CpuTimeExceeded c (xs ++ ys) := by
  have h : c.maxTotalCpuTime.nanos < (RunResult.cpuTimeOf ys).nanos := h
  rw [CpuTimeExceeded, RunResult.cpuTimeOf_append]
  exact Nat.lt_of_lt_of_le h (Duration.le_saturatingAdd_right (RunResult.cpuTimeOf_le ys))

theorem guardReports_iff {v : Validation} (h : validate config around source entryPoint = .ok v)
    {code : String} (hc : code ≠ "resource-summary") :
    v.report.GuardReports code ↔
      (code = "wall-time-exceeded" ∧ config.ceilings.maxTotalDuration < v.usage.wallTime) ∨
      (code = "cpu-time-exceeded" ∧ config.ceilings.maxTotalCpuTime < v.usage.cpuTime) ∨
      (code = "memory-exceeded" ∧
        ∃ p, v.usage.peakMemoryBytes = some p ∧ config.ceilings.maxPeakMemoryBytes < p) := by
  rw [← ResourceGuard.exists_code_iff hc, Report.GuardReports, (stage?_of_validate h).2.2.2.2]
  simp [ResourceGuard.check, StageResult.ofFindings]

/-! ### Laws of accounting -/

/-- All runs are counted or lost, and the usage is that of the counted ones. -/
theorem Course.Follows.usageOf_eq_ofRuns {c : Course} (h : c.Follows config around source entryPoint)
    (wallTime : Duration) :
    c.fourth.log.results = c.lost ++ c.counted ∧
      usageOf wallTime c = .ofRuns wallTime c.counted := by
  obtain ⟨batches, hb⟩ := h.fourth.batches
  have hr := h.third.results_eq
  obtain ⟨first, second, third, fourth⟩ := c
  replace hb : Batches third fourth batches := hb
  cases hb with
  | untested ht =>
    simp only [lost, counted, if_neg ht]
    refine ⟨rfl, ?_⟩
    rw [hr]
    exact usageOf_of_campaign?_eq_none rfl wallTime
  | taken ht hlog hu =>
    simp only [lost, counted, if_neg ht]
    refine ⟨rfl, ?_⟩
    rw [hlog, hr]
    exact usageOf_of_campaign?_eq_some rfl hu wallTime
  | lost ht hlog hrun =>
    simp only [lost, counted, if_pos ht]
    refine ⟨?_, usageOf_of_campaign?_eq_none rfl wallTime⟩
    -- There is a run of the source, and it is the oldest result, so the others are the batches.
    rw [hlog, hr, hrun]
    simp

/-- The laws of accounting. -/
structure Accounting (config : ValidatorConfig) (wallTime : Duration) (v : Validation) : Prop where
  /-- Every run that came back is counted or lost. -/
  results : v.log.results = v.course.lost ++ v.course.counted
  usage : v.usage = .ofRuns wallTime v.course.counted
  /-- The peak is that of all runs, except where a lost one has a larger peak than the counted ones. -/
  peak_complete : v.usage.peakMemoryBytes = RunResult.peakOf v.log.results ↔
    ∀ p, RunResult.peakOf v.course.lost = some p →
      ∃ q, RunResult.peakOf v.course.counted = some q ∧ p ≤ q
  /-- The processor time is that of all runs, except where a lost one took time that still counts. -/
  cpuTime_complete : v.usage.cpuTime = RunResult.cpuTimeOf v.log.results ↔
    RunResult.cpuTimeOf v.course.lost = .zero ∨
      RunResult.cpuTimeOf v.course.counted = .longest
  memory_reported : v.report.GuardReports "memory-exceeded" ↔
    MemoryExceeded config.ceilings v.course.counted
  cpuTime_reported : v.report.GuardReports "cpu-time-exceeded" ↔
    CpuTimeExceeded config.ceilings v.course.counted
  /-- The guard is right about memory unless the ceiling is exceeded by lost runs only. -/
  memory_guarded : (v.report.GuardReports "memory-exceeded" ↔
      MemoryExceeded config.ceilings v.log.results) ↔
    (MemoryExceeded config.ceilings v.course.lost →
      MemoryExceeded config.ceilings v.course.counted)
  /-- The guard is right about processor time unless the ceiling is exceeded only with lost runs. -/
  cpuTime_guarded : (v.report.GuardReports "cpu-time-exceeded" ↔
      CpuTimeExceeded config.ceilings v.log.results) ↔
    (CpuTimeExceeded config.ceilings v.log.results →
      CpuTimeExceeded config.ceilings v.course.counted)

theorem accounting {v : Validation} (h : validate config around source entryPoint = .ok v) :
    Accounting config around.wallTime v := by
  obtain ⟨-, hf, hv⟩ := of_validate h
  obtain ⟨hresults, husage⟩ := hf.usageOf_eq_ofRuns around.wallTime
  have hlog : v.log.results = v.course.lost ++ v.course.counted := hresults
  have hu : v.usage = .ofRuns around.wallTime v.course.counted := by
    rw [hv]
    exact husage
  have hmemory : v.report.GuardReports "memory-exceeded" ↔
      MemoryExceeded config.ceilings v.course.counted := by
    rw [guardReports_iff h (by decide), hu]
    simp [ResourceUsage.ofRuns, MemoryExceeded]
  have hcpuTime : v.report.GuardReports "cpu-time-exceeded" ↔
      CpuTimeExceeded config.ceilings v.course.counted := by
    rw [guardReports_iff h (by decide), hu]
    simp [ResourceUsage.ofRuns, CpuTimeExceeded]
  refine ⟨hlog, hu, ?_, ?_, hmemory, hcpuTime, ?_, ?_⟩
  · rw [hlog, hu, RunResult.peakOf_append, eq_comm]
    exact ResourceUsage.maxPeak_eq_right_iff
  · rw [hlog, hu, RunResult.cpuTimeOf_append, eq_comm]
    exact Duration.saturatingAdd_eq_right_iff (RunResult.cpuTimeOf_le _)
  · rw [hmemory, hlog, memoryExceeded_append]
    exact Iff.comm.trans or_iff_right_iff_imp
  · rw [hcpuTime, hlog]
    exact ⟨Iff.mpr, fun hc => ⟨CpuTimeExceeded.append _, hc⟩⟩

/-- The first batch takes up too much of everything, and the second one never ends. -/
theorem accounting_cancelled :
    let config : ValidatorConfig :=
      { patterns := .empty, propertyTests := { trials := 1 }, overallDeadline := some (.ofSecs 1) }
    let batch : RunResult :=
      { cleanRun with
        calls := List.replicate 2 (.returned (.int 0))
        peakMemoryBytes := some (1024 * 1024 * 1024)
        cpuTime := some (.ofSecs 100) }
    let around := scripted (scriptedSandbox [⟨cleanRun, some .zero⟩, ⟨batch, some .zero⟩]
      ⟨batch, none⟩)
    ∃ v, validate config around "def f(x):\n    return x\n" (some "f") = .ok v ∧
      Accounting config around.wallTime v ∧
      v.usage.peakMemoryBytes = none ∧ MemoryExceeded config.ceilings v.log.results ∧
      ¬ v.report.GuardReports "memory-exceeded" ∧
      v.usage.cpuTime = .zero ∧ CpuTimeExceeded config.ceilings v.log.results ∧
      ¬ v.report.GuardReports "cpu-time-exceeded" := by
  intro config batch around
  have h : (validate config around "def f(x):\n    return x\n" (some "f")).toOption.map
      (fun v => ((RunResult.peakOf v.log.results, RunResult.cpuTimeOf v.log.results),
        (RunResult.peakOf v.course.counted, RunResult.cpuTimeOf v.course.counted))) =
        some ((some (1024 * 1024 * 1024), .ofSecs 100), (none, .zero)) := by
    decide +kernel
  obtain ⟨v, hv, hr⟩ := exists_of_toOption_map h
  obtain ⟨hall, hcounted⟩ := Prod.mk.inj hr
  obtain ⟨hp, ht⟩ := Prod.mk.inj hall
  obtain ⟨hp', ht'⟩ := Prod.mk.inj hcounted
  have ha : Accounting config around.wallTime v := accounting hv
  have hu := ha.usage
  rw [ResourceUsage.ofRuns, hp', ht'] at hu
  refine ⟨v, hv, ha, by rw [hu], ⟨_, hp, by decide⟩, fun hm => ?_, by rw [hu], ?_, fun hc => ?_⟩
  · obtain ⟨p, hs, -⟩ := ha.memory_reported.mp hm
    cases hp'.symm.trans hs
  · rw [CpuTimeExceeded, ht]
    decide
  · have hc := ha.cpuTime_reported.mp hc
    rw [CpuTimeExceeded, ht'] at hc
    exact absurd hc (by decide)

end Validation

end Vetting
