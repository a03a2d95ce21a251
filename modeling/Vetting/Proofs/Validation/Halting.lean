import Vetting.Proofs.Validation.Stages

/-!
# What stops a validation

`Stops` says which results stop the stages behind them, and `GivesReason` with which words. A course is
`Threaded`: as soon as one result stops, all others are skipped for its reason and nothing more is asked of
the sandbox. `HaltingLaw` is what follows for a whole validation.
-/

namespace Vetting.Validation

/-! ### Stopping results -/

/-- A result that says that the source is no program. -/
def IsUnparsed (r : StageResult) : Prop :=
  r.stage = .prevalidation ∧ ∃ f ∈ r.findings, f.code = some "syntax-error"

/-- The results that stop the stages behind them. -/
def Stops (stopOnFailure : Bool) (r : StageResult) : Prop :=
  r.status = .timedOut ∨ (stopOnFailure = true ∧ (r.status = .failed ∨ r.status = .errored)) ∨
    IsUnparsed r

/-- The reason that a stopping result gives for skipping the stages behind it. -/
inductive GivesReason (r : StageResult) : String → Prop
  | unparsed : IsUnparsed r → GivesReason r "source does not parse"
  | overdue : ¬ IsUnparsed r → r.status = .timedOut → GivesReason r "overall deadline exceeded"
  | failed : ¬ IsUnparsed r → r.status = .failed →
      GivesReason r ("stopped after " ++ r.stage.name ++ " failed")
  | errored : ¬ IsUnparsed r → r.status = .errored →
      GivesReason r ("stopped after " ++ r.stage.name ++ " errored")

/-- The reasons that some result can give. -/
def IsHaltReason (reason : String) : Prop :=
  reason = "source does not parse" ∨ reason = "overall deadline exceeded" ∨
    ∃ s : StageId, reason = "stopped after " ++ s.name ++ " failed" ∨
      reason = "stopped after " ++ s.name ++ " errored"

/-- Why the stages behind a result are skipped, for all stages alike. -/
def stopReason? (stopOnFailure : Bool) (r : StageResult) : Option String :=
  if r.stage = .prevalidation then firstHaltReason? stopOnFailure r
  else haltReason? stopOnFailure r

theorem isUnparsed_iff {r : StageResult} :
    IsUnparsed r ↔ r.stage = .prevalidation ∧ Prevalidation.isSyntaxFailure r = true := by
  simp only [IsUnparsed, Prevalidation.isSyntaxFailure, List.any_eq_true, decide_eq_true_eq]
  exact Iff.rfl

theorem stopReason?_of_isUnparsed {stop : Bool} {r : StageResult} (h : IsUnparsed r) :
    stopReason? stop r = some unparsedReason := by
  obtain ⟨hs, hf⟩ := isUnparsed_iff.mp h
  simp [stopReason?, firstHaltReason?, hs, hf]

theorem stopReason?_of_not_isUnparsed {stop : Bool} {r : StageResult} (h : ¬ IsUnparsed r) :
    stopReason? stop r = haltReason? stop r := by
  rw [isUnparsed_iff, not_and] at h
  unfold stopReason? firstHaltReason?
  split
  · rw [if_neg (h ‹_›)]
  · rfl

theorem stoppedReason_eq {r : StageResult} {w : String} (h : statusWord r.status = w) :
    stoppedReason r = "stopped after " ++ r.stage.name ++ (" " ++ w) := by
  subst h
  exact String.append_assoc

theorem stops_of_stopReason? {stop : Bool} {r : StageResult} (h : stopReason? stop r = some reason) :
    Stops stop r ∧ GivesReason r reason := by
  by_cases hu : IsUnparsed r
  · rw [stopReason?_of_isUnparsed hu] at h
    cases h
    exact ⟨.inr (.inr hu), .unparsed hu⟩
  rw [stopReason?_of_not_isUnparsed hu] at h
  simp only [haltReason?] at h
  split at h
  · rename_i ht
    cases h
    exact ⟨.inl ht, .overdue hu ht⟩
  split at h
  · rename_i ht hs
    cases h
    obtain ⟨hs, hh⟩ := Bool.and_eq_true_iff.mp hs
    cases hr : r.status with
    | passed | skipped => rw [hr] at hh; cases hh
    | timedOut => exact absurd hr ht
    | failed =>
      refine ⟨.inr (.inl ⟨hs, .inl hr⟩), ?_⟩
      rw [stoppedReason_eq (w := "failed") (by rw [hr]; rfl)]
      exact .failed hu hr
    | errored =>
      refine ⟨.inr (.inl ⟨hs, .inr hr⟩), ?_⟩
      rw [stoppedReason_eq (w := "errored") (by rw [hr]; rfl)]
      exact .errored hu hr
  · cases h

theorem stopReason?_isSome {stop : Bool} {r : StageResult} (h : Stops stop r) :
    ∃ reason, stopReason? stop r = some reason := by
  by_cases hu : IsUnparsed r
  · exact ⟨_, stopReason?_of_isUnparsed hu⟩
  rw [stopReason?_of_not_isUnparsed hu]
  obtain ht | ⟨hs, hr⟩ | hu' := h
  · exact ⟨deadlineReason, if_pos ht⟩
  · refine ⟨stoppedReason r, ?_⟩
    rcases hr with hr | hr <;> simp [haltReason?, hr, hs, StageStatus.haltsPipeline]
  · exact absurd hu' hu

theorem stopReason?_eq_none_iff {stop : Bool} {r : StageResult} :
    stopReason? stop r = none ↔ ¬ Stops stop r := by
  refine ⟨fun h hs => ?_, fun h => ?_⟩
  · obtain ⟨reason, hr⟩ := stopReason?_isSome hs
    cases h.symm.trans hr
  · cases hr : stopReason? stop r with
    | none => rfl
    | some reason => exact absurd (stops_of_stopReason? hr).1 h

/-! ### Other reasons -/

/-- The first letters of a reason, which tell the halt reasons from all others. -/
def opening (reason : String) : List Char := reason.toList.take 3

theorem opening_append {a b : String} (h : 3 ≤ a.toList.length) : opening (a ++ b) = opening a := by
  simp [opening, List.take_append_of_le_length h]

theorem IsHaltReason.opening_mem (h : IsHaltReason reason) :
    opening reason ∈ ["sou".toList, "ove".toList, "sto".toList] := by
  obtain rfl | rfl | ⟨s, rfl | rfl⟩ := h
  · decide
  · decide
  all_goals
    rw [opening_append (by simp), opening_append (by decide)]
    decide

theorem not_isHaltReason {reason : String}
    (h : opening reason ∉ ["sou".toList, "ove".toList, "sto".toList]) : ¬ IsHaltReason reason :=
  fun hr => h hr.opening_mem

theorem Untestable.not_isHaltReason (h : Untestable config entryPoint run? reason) :
    ¬ IsHaltReason reason := by
  apply Validation.not_isHaltReason
  cases h with
  | disabled | unnamed | notRun => decide
  | _ =>
    rw [opening_append (by simp), opening_append (by decide)]
    decide

/-! ### Threaded results -/

/-- A result, with all that had been asked of the sandbox when its stage was over. -/
abbrev Mark := StageResult × List Request

/-- Results of successive stages: while nothing has stopped them, each stage can do as it likes; from then on
all are skipped for one reason, and nothing more is asked of the sandbox. -/
inductive Threaded (stop : Bool) : Option String → List Request → List Mark → Prop
  | nil : Threaded stop halted asked []
  | skipped : Threaded stop (some reason) asked rest →
      Threaded stop (some reason) asked ((.skipped stage reason, asked) :: rest)
  | cons : Threaded stop (stopReason? stop r) asked' rest →
      Threaded stop none asked ((r, asked') :: rest)

namespace Threaded

variable {stop : Bool}

/-- Behind a reason everything is skipped for it. -/
theorem of_halted {marks : List Mark} (h : Threaded stop (some reason) asked marks) :
    ∀ m ∈ marks, m = (.skipped m.1.stage reason, asked) := by
  generalize hr : some reason = halted at h
  induction h with
  | nil => simp
  | skipped _ ih =>
    cases hr
    intro m hm
    rcases List.mem_cons.mp hm with rfl | hm
    · rfl
    · exact ih rfl m hm
  | cons => cases hr

/-- The first stopping result decides on all results behind it. -/
theorem behind {before behind : List Mark} {s : StageResult}
    (h : Threaded stop none asked (before ++ (s, asked') :: behind))
    (hb : ∀ m ∈ before, stopReason? stop m.1 = none) (hs : stopReason? stop s = some reason) :
    ∀ m ∈ behind, m = (.skipped m.1.stage reason, asked') := by
  induction before generalizing asked with
  | nil =>
    cases h with
    | cons h => exact of_halted (hs ▸ h)
  | cons b before ih =>
    cases h with
    | cons h =>
      rw [hb _ List.mem_cons_self] at h
      exact ih h fun m hm => hb m (List.mem_cons_of_mem _ hm)

theorem filter_timedOut_of_halted {marks : List Mark} (h : Threaded stop (some reason) asked marks) :
    (marks.map (·.1)).filter (·.status = .timedOut) = [] := by
  rw [List.filter_eq_nil_iff, List.forall_mem_map]
  intro m hm
  rw [h.of_halted m hm]
  simp [StageResult.skipped]

/-- At most one stage is cut short by the deadline, for that stops all others. -/
theorem length_filter_timedOut_le {marks : List Mark} (h : Threaded stop none asked marks) :
    ((marks.map (·.1)).filter (·.status = .timedOut)).length ≤ 1 := by
  generalize hn : (none : Option String) = halted at h
  induction h with
  | nil => simp
  | skipped => cases hn
  | @cons r asked' rest asked hrest ih =>
    by_cases ht : r.status = .timedOut
    · have hs : Stops stop r := .inl ht
      obtain ⟨reason, hr⟩ := stopReason?_isSome hs
      rw [hr] at hrest
      simp [ht, hrest.filter_timedOut_of_halted]
    · cases hr : stopReason? stop r with
      | none => simpa [ht] using ih hr.symm
      | some reason =>
        rw [hr] at hrest
        simp [ht, hrest.filter_timedOut_of_halted]

/-- A stage that is skipped once there is a reason goes in front of what is threaded behind it. -/
theorem step {marks : List Mark} {r : StageResult}
    (hs : ∀ reason, halted = some reason → r = .skipped r.stage reason ∧ asked' = asked)
    (h : Threaded stop (halted <|> stopReason? stop r) asked' marks) :
    Threaded stop halted asked ((r, asked') :: marks) := by
  cases halted with
  | none => exact .cons h
  | some reason =>
    obtain ⟨hr, rfl⟩ := hs reason rfl
    rw [hr]
    exact .skipped h

end Threaded

section
variable {config : ValidatorConfig} {around : Surroundings} {source : String}
  {entryPoint : Option String}

/-- The results of a course before the resource guard, each with what had been asked of the sandbox. Only the
last two stages have a sandbox at all. -/
def Course.marks (c : Course) : List Mark :=
  [(c.first, []), (c.second.result, []), (c.third.result, c.third.log.requests),
    (c.fourth.result, c.fourth.log.requests)]

theorem stopReason?_of_ne {stop : Bool} {r : StageResult} (h : r.stage ≠ .prevalidation) :
    stopReason? stop r = haltReason? stop r := if_neg h

/-- The halt reasons of a course are those of its results. -/
theorem Course.Follows.halts {c : Course} (h : c.Follows config around source entryPoint) (stop : Bool) :
    firstHaltReason? stop c.first = stopReason? stop c.first ∧
      c.secondHalt stop = (stopReason? stop c.first <|> stopReason? stop c.second.result) ∧
      c.thirdHalt stop = (c.secondHalt stop <|> stopReason? stop c.third.result) := by
  have h1 : firstHaltReason? stop c.first = stopReason? stop c.first :=
    (if_pos (by rw [h.first]; rfl)).symm
  have h2 : haltReason? stop c.second.result = stopReason? stop c.second.result :=
    (stopReason?_of_ne (by rw [h.second.stage_eq]; nofun)).symm
  have h3 : haltReason? stop c.third.result = stopReason? stop c.third.result :=
    (stopReason?_of_ne (by rw [h.third.stage_eq]; nofun)).symm
  exact ⟨h1, by rw [secondHalt, h1, h2], by rw [thirdHalt, h3]⟩

theorem Course.Follows.threaded {c : Course} (h : c.Follows config around source entryPoint) :
    Threaded config.stopOnFailure none [] c.marks := by
  obtain ⟨h1, h2, h3⟩ := h.halts config.stopOnFailure
  obtain ⟨-, hsecond, hthird, hfourth⟩ := h
  rw [h1] at hsecond
  refine .cons (.step (fun reason hr => ?_) ?_)
  · rw [hr] at hsecond
    rw [hsecond.eq_skipped]
    exact ⟨rfl, rfl⟩
  rw [← h2]
  refine .step (fun reason hr => ?_) ?_
  · rw [hr] at hthird
    rw [hthird.eq_skipped]
    exact ⟨rfl, rfl⟩
  rw [← h3]
  refine .step (fun reason hr => ?_) .nil
  rw [hr] at hfourth
  rw [hfourth.eq_skipped]
  exact ⟨rfl, rfl⟩

/-- Where no result stops, no stage is halted. -/
theorem Course.Follows.unhalted {c : Course} (h : c.Follows config around source entryPoint)
    (hn : ∀ m ∈ c.marks, ¬ Stops config.stopOnFailure m.1) :
    firstHaltReason? config.stopOnFailure c.first = none ∧
      c.secondHalt config.stopOnFailure = none ∧ c.thirdHalt config.stopOnFailure = none := by
  obtain ⟨h1, h2, h3⟩ := h.halts config.stopOnFailure
  simp only [marks, List.forall_mem_cons, ← stopReason?_eq_none_iff] at hn
  obtain ⟨n1, n2, n3, -⟩ := hn
  have h2' : c.secondHalt config.stopOnFailure = none := by rw [h2, n1, n2]; rfl
  exact ⟨h1.trans n1, h2', by rw [h3, h2', n3]; rfl⟩

/-! ### Stages that are not halted -/

theorem StaticStep.not_isHaltReason {timed : Timed}
    (h : StaticStep config around source none timed) (hr : timed.result.skipReason = some reason) :
    ¬ IsHaltReason reason := by
  cases h with
  | disabled =>
    cases hr
    exact Validation.not_isHaltReason (by decide)
  | finished | overdue => cases hr

theorem ExecutionStep.not_isHaltReason {executed : Executed}
    (h : ExecutionStep config around source entryPoint elapsed none executed)
    (hr : executed.result.skipReason = some reason) : ¬ IsHaltReason reason := by
  cases h with
  | disabled =>
    cases hr
    exact Validation.not_isHaltReason (by decide)
  | finished =>
    simp only [executionResult] at hr
    split at hr <;> cases hr
  | overdue => cases hr

theorem PropertyStep.not_isHaltReason {executed : Executed} {tested : Tested}
    (h : PropertyStep config around source entryPoint executed none tested)
    (hr : tested.result.skipReason = some reason) : ¬ IsHaltReason reason := by
  cases h with
  | untested ht =>
    cases hr
    exact (untestable ht).not_isHaltReason
  | finished | overdue => cases hr

/-- Where nothing stops, no stage of the report is skipped for a halt reason. -/
theorem not_isHaltReason_of_unstopped {v : Validation}
    (h : validate config around source entryPoint = .ok v)
    (hn : ∀ m ∈ v.course.marks, ¬ Stops config.stopOnFailure m.1) :
    ∀ r ∈ v.report.stages, ∀ reason, r.skipReason = some reason → ¬ IsHaltReason reason := by
  intro r hmem reason hreason
  obtain ⟨-, hf, -⟩ := of_validate h
  obtain ⟨n1, n2, n3⟩ := hf.unhalted hn
  obtain ⟨hfirst, hsecond, hthird, hfourth⟩ := hf
  rw [n1] at hsecond
  rw [n2] at hthird
  rw [n3] at hfourth
  simp only [stages_of_validate h, Course.results, List.cons_append, List.nil_append,
    List.mem_cons, List.not_mem_nil, or_false] at hmem
  obtain rfl | rfl | rfl | rfl | rfl := hmem
  · rw [hfirst] at hreason
    cases hreason
  · exact hsecond.not_isHaltReason hreason
  · exact hthird.not_isHaltReason hreason
  · exact hfourth.not_isHaltReason hreason
  · cases hreason

/-! ### The law -/

/-- **The halting law** of a validation. -/
structure HaltingLaw (config : ValidatorConfig) (v : Validation) : Prop where
  /-- The report has the results of the course and that of the resource guard. -/
  stages : v.report.stages.map (·.stage) = StageId.pipeline ∧
    v.report.stages.dropLast = v.course.marks.map (·.1)
  /-- Behind the first result that stops, every stage is skipped for the reason that this result gives, and
  all that is ever asked of the sandbox has been asked before. -/
  behind : ∀ before s asked behind, v.course.marks = before ++ (s, asked) :: behind →
    (∀ m ∈ before, ¬ Stops config.stopOnFailure m.1) → Stops config.stopOnFailure s →
    (∃ reason, GivesReason s reason ∧ ∀ m ∈ behind, m.1 = .skipped m.1.stage reason) ∧
      v.log.requests = asked
  /-- If none stops, no stage is skipped for such a reason. -/
  unstopped : (∀ m ∈ v.course.marks, ¬ Stops config.stopOnFailure m.1) →
    ∀ r ∈ v.report.stages, ∀ reason, r.skipReason = some reason → ¬ IsHaltReason reason
  timedOut : (v.report.stages.filter (·.status = .timedOut)).length ≤ 1

/-- What had been asked behind the last stage is what had been asked before, if nothing was asked since. -/
theorem Course.requests_eq {c : Course} {before behind : List Mark} {s : StageResult}
    {asked : List Request} (hm : c.marks = before ++ (s, asked) :: behind)
    (hb : ∀ m ∈ behind, m.2 = asked) : c.fourth.log.requests = asked := by
  have hl : c.marks.getLast? = some (c.fourth.result, c.fourth.log.requests) := rfl
  rw [hm, List.getLast?_append, List.getLast?_cons, Option.some_or, Option.some_inj] at hl
  cases hr : behind.getLast? with
  | none =>
    rw [hr] at hl
    exact (congrArg Prod.snd hl).symm
  | some m =>
    rw [hr] at hl
    have hma := hb m (List.mem_of_getLast? hr)
    exact (congrArg Prod.snd hl).symm.trans hma

theorem haltingLaw {v : Validation} (h : validate config around source entryPoint = .ok v) :
    HaltingLaw config v := by
  obtain ⟨-, hf, -⟩ := of_validate h
  have hs := stages_of_validate h
  have hr : v.course.results = v.course.marks.map (·.1) := rfl
  refine ⟨⟨?_, ?_⟩, fun before s asked behind hm hb hstop => ?_, fun hn => ?_, ?_⟩
  · rw [hs, List.map_append, hf.map_stage]
    rfl
  · rw [hs, List.dropLast_concat, hr]
  · obtain ⟨reason, hreason⟩ := stopReason?_isSome hstop
    have hbehind := (hm ▸ hf.threaded).behind (fun m h => stopReason?_eq_none_iff.mpr (hb m h)) hreason
    refine ⟨⟨reason, (stops_of_stopReason? hreason).2, fun m h => ?_⟩, ?_⟩
    · rw [hbehind m h]
      rfl
    · exact Course.requests_eq hm fun m h => by rw [hbehind m h]
  · exact not_isHaltReason_of_unstopped h hn
  · have hg : (ResourceGuard.check config.ceilings config.thresholds.resourceGuard v.usage).status
        ≠ .timedOut := StageResult.ofFindings_status_ne (by simp)
    rw [hs, List.filter_append, hr]
    simpa [hg] using hf.threaded.length_filter_timedOut_le

/-- The run of the source takes two seconds, and the deadline comes after one. -/
theorem haltingLaw_overdue :
    let config : ValidatorConfig :=
      { stopOnFailure := false, patterns := .empty, overallDeadline := some (.ofSecs 1) }
    let around := scripted fun _ _ => ⟨cleanRun, some (.ofSecs 2)⟩
    ∃ v, validate config around "def f(x):\n    return x\n" (some "f") = .ok v ∧
      HaltingLaw config v ∧ v.log.requests.length = 1 ∧
      v.report.stages.map (·.skipReason) =
        [none, none, none, some "overall deadline exceeded", none] := by
  intro config around
  have h : (validate config around "def f(x):\n    return x\n" (some "f")).toOption.map
      (fun v => (v.log.requests.length, v.report.stages.map (·.skipReason)))
        = some (1, [none, none, none, some "overall deadline exceeded", none]) := by
    decide +kernel
  obtain ⟨v, hv, hr⟩ := exists_of_toOption_map h
  obtain ⟨hl, hs⟩ := Prod.mk.inj hr
  exact ⟨v, hv, haltingLaw hv, hl, hs⟩

end

end Vetting.Validation
