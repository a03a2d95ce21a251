import Vetting.Analyzer

/-!
# Analyzers do not disturb each other

The stage waits for its analyzers one after the other, under one limit for all of them. What it finds falls into one
block for each analyzer, in the order in which they are given, and a block depends on nothing but its own analyzer and
the limits (`Analysis.run_blocks`): an analyzer that was done in time is reported even behind one that was waited for
until the end.

* `Analysis.findings_join`: what one wait adds, whatever the time is when it begins.
* `Analysis.Block`: what is found of an analyzer that is done in time, that breaks down, or that is not done in time.
* `Analysis.run_clock`: with a limit of at most a day for all of them, it does not matter what the clock reads.
-/

namespace Vetting.Analysis

variable {limits : Limits} {a : Analyzer} {reply : AnalyzerReply}

/-! ### The clock -/

theorem deadline_clock (h : limits.overall ≤ .oneDay) (clock : Clock) :
    { limits with clock := clock }.deadline = limits.deadline := by
  have hother : { limits with clock := clock }.deadline = limits.overall := Limits.deadline_of_le_oneDay h
  rw [hother, Limits.deadline_of_le_oneDay h]

theorem join_clock (h : limits.overall ≤ .oneDay) (clock : Clock) :
    join { limits with clock := clock } = join limits := by
  have hdeadline := deadline_clock h clock
  funext before t
  unfold join Task.isDone
  rw [hdeadline]
  rfl

/-- A stage that waits for at most a day finds the same whatever the clock reads when it begins to wait. -/
theorem run_clock (h : limits.overall ≤ .oneDay) (clock : Clock) (analyzers : List Analyzer) (source : String) :
    run { limits with clock := clock } analyzers source = run limits analyzers source := by
  unfold run
  rw [join_clock h clock]
  rfl

/-- On a machine that has been up for a second, a limit that ends with the clock is one of a day. -/
example : Limits.deadline ⟨.ofSecs 1, .ofSecs 9_223_372_036_854_775_807, ⟨.ofSecs 1, by decide⟩⟩ = .oneDay := by
  decide

/-! ### Blocks -/

/-- What is found of one analyzer. -/
def block (limits : Limits) (a : Analyzer) (reply : AnalyzerReply) : List Finding :=
  let t := start limits a reply
  if t.endsAt < limits.deadline then t.findings limits else t.abandoned limits

/-- An analyzer is done before its own limit comes, and before the stage stops waiting. -/
def InTime (limits : Limits) (reply : AnalyzerReply) : Prop :=
  ∃ d, reply.delay = some d ∧ d < limits.each ∧ d < limits.deadline

/-- An analyzer is not done just when a limit comes. -/
def IsClear (limits : Limits) (reply : AnalyzerReply) : Prop :=
  ∀ d, reply.delay = some d → d ≠ limits.each ∧ d ≠ limits.deadline

/-- The findings of an analyzer: its own issues in its own order, or else one warning. -/
inductive Block (limits : Limits) (a : Analyzer) (reply : AnalyzerReply) : List Finding → Prop
  | issues : InTime limits reply → reply.outcome = .issues found → Block limits a reply (found.map a.issueFinding)
  | crash {f : Finding} : InTime limits reply → (∀ found, reply.outcome ≠ .issues found) → f.severity = .warning →
      f.code = some "analyzer-crash" → Block limits a reply [f]
  | timeout {f : Finding} : ¬ InTime limits reply → f.severity = .warning → f.code = some "analyzer-timeout" →
      Block limits a reply [f]

theorem block_outcomeFindings (h : InTime limits reply) : Block limits a reply (a.outcomeFindings reply.outcome) := by
  cases ho : reply.outcome with
  | issues found => exact .issues h ho
  | failure e => exact .crash h (fun found hf => by rw [ho] at hf; cases hf) rfl rfl
  | crash message => exact .crash h (fun found hf => by rw [ho] at hf; cases hf) rfl rfl

theorem block_block (h : IsClear limits reply) : Block limits a reply (block limits a reply) := by
  unfold block start
  cases hd : reply.delay with
  | none =>
    have hlate : ¬ InTime limits reply := by
      rintro ⟨d, hd', -⟩
      rw [hd] at hd'
      cases hd'
    simp only
    split
    · exact .timeout hlate rfl rfl
    · exact .timeout hlate rfl rfl
  | some d =>
    obtain ⟨heach, -⟩ := h d hd
    simp only
    by_cases hle : d ≤ limits.each
    · rw [if_pos hle]
      split
      case isTrue hlt => exact block_outcomeFindings ⟨d, hd, Duration.lt_of_le_of_ne hle heach, hlt⟩
      case isFalse hlt =>
        refine .timeout ?_ rfl rfl
        rintro ⟨d', hd', -, hlt'⟩
        cases hd.symm.trans hd'
        exact hlt hlt'
    · have hlate : ¬ InTime limits reply := by
        rintro ⟨d', hd', hlt, -⟩
        cases hd.symm.trans hd'
        exact hle (Nat.le_of_lt hlt)
      rw [if_neg hle]
      split
      · exact .timeout hlate rfl rfl
      · exact .timeout hlate rfl rfl

/-! ### Waiting -/

/-- A wait adds the findings of its own task, which are those of a task that ends before the stage stops waiting, or of
one that does not, whatever the time is when the wait begins. -/
theorem findings_join (before : Analysis) (t : Task) :
    (join limits before t).findings =
      before.findings ++ if t.endsAt < limits.deadline then t.findings limits else t.abandoned limits := by
  unfold join
  split
  case isTrue hdone =>
    have hlt : t.endsAt < limits.deadline := by
      simp only [Task.isDone, Bool.and_eq_true, decide_eq_true_eq] at hdone
      exact hdone.2
    rw [if_pos hlt]
  case isFalse hdone =>
    split
    case isTrue hover =>
      -- No time is left, so a task that ends before the stage stops waiting has ended by now.
      have hlate : ¬ t.endsAt < limits.deadline := by
        intro hlt
        refine hdone ?_
        simp only [Task.isDone, Bool.and_eq_true, decide_eq_true_eq]
        exact ⟨Nat.le_of_lt (Nat.lt_of_lt_of_le hlt hover), hlt⟩
      rw [if_neg hlate]
    case isFalse hover =>
      split
      case isTrue hlt => rfl
      case isFalse hlt => rfl

theorem findings_foldl_join (before : Analysis) (tasks : List Task) :
    (tasks.foldl (join limits) before).findings =
      before.findings ++ tasks.flatMap fun t =>
        if t.endsAt < limits.deadline then t.findings limits else t.abandoned limits := by
  induction tasks generalizing before with
  | nil => exact (List.append_nil _).symm
  | cons t rest ih => rw [List.foldl_cons, ih, findings_join, List.flatMap_cons, List.append_assoc]

theorem findings_run {analyzers : List Analyzer} (hne : analyzers ≠ []) (source : String) :
    (run limits analyzers source).findings = analyzers.flatMap fun a => block limits a (a.reply source) := by
  rw [run, if_neg (by rwa [List.isEmpty_iff]), findings_foldl_join, List.nil_append, List.flatMap_map]
  rfl

/-- A block reaches a threshold above warnings only by an issue that its analyzer reports in time. -/
theorem Block.reaches_iff {findings : List Finding} {threshold : Severity} (h : Block limits a reply findings)
    (ht : .error ≤ threshold) :
    (∃ f ∈ findings, threshold ≤ f.severity) ↔
      InTime limits reply ∧ ∃ found, reply.outcome = .issues found ∧
        ∃ i ∈ found, threshold ≤ a.scale.severityOf i.level := by
  have hwarning {f : Finding} (hs : f.severity = .warning) : ¬ ∃ g ∈ [f], threshold ≤ g.severity := by
    rintro ⟨g, hg, hle⟩
    rw [List.mem_singleton.mp hg, hs] at hle
    exact absurd (Severity.le_trans ht hle) (by decide)
  cases h with
  | @issues found hin ho =>
    constructor
    · rintro ⟨f, hf, hle⟩
      obtain ⟨i, hi, rfl⟩ := List.mem_map.mp hf
      exact ⟨hin, found, ho, i, hi, hle⟩
    · rintro ⟨-, found', ho', i, hi, hle⟩
      cases ho.symm.trans ho'
      exact ⟨_, List.mem_map_of_mem hi, hle⟩
  | crash hin hcrash hs =>
    refine ⟨fun h => absurd h (hwarning hs), ?_⟩
    rintro ⟨-, found, ho, -⟩
    exact absurd ho (hcrash found)
  | timeout hlate hs => exact ⟨fun h => absurd h (hwarning hs), fun h => absurd h.1 hlate⟩

/-- **Analyzers do not disturb each other**: with limits that no analyzer meets to the instant, what is found is one
block for each analyzer, in order, that depends on this analyzer and the limits alone; and with a threshold above
warnings the stage fails if and only if an analyzer that is done in time reports an issue that reaches it. -/
theorem run_blocks {analyzers : List Analyzer} {source : String} (hne : analyzers ≠ [])
    (hclear : ∀ a ∈ analyzers, IsClear limits (a.reply source)) :
    (run limits analyzers source).findings = analyzers.flatMap (fun a => block limits a (a.reply source)) ∧
      (∀ a ∈ analyzers, Block limits a (a.reply source) (block limits a (a.reply source))) ∧
      ∀ threshold, .error ≤ threshold →
        (((run limits analyzers source).stageResult threshold).status = .failed ↔
          ∃ a ∈ analyzers, InTime limits (a.reply source) ∧ ∃ found, (a.reply source).outcome = .issues found ∧
            ∃ i ∈ found, threshold ≤ a.scale.severityOf i.level) := by
  have hblocks : ∀ a ∈ analyzers, Block limits a (a.reply source) (block limits a (a.reply source)) :=
    fun a ha => block_block (hclear a ha)
  refine ⟨findings_run hne source, hblocks, fun threshold ht => ?_⟩
  rw [stageResult, StageResult.ofFindings_status_eq_failed_iff, findings_run hne source]
  constructor
  · rintro ⟨f, hf, hle⟩
    obtain ⟨a, ha, hf⟩ := List.mem_flatMap.mp hf
    exact ⟨a, ha, ((hblocks a ha).reaches_iff ht).mp ⟨f, hf, hle⟩⟩
  · rintro ⟨a, ha, hreported⟩
    obtain ⟨f, hf, hle⟩ := ((hblocks a ha).reaches_iff ht).mpr hreported
    exact ⟨f, List.mem_flatMap.mpr ⟨a, ha, hf⟩, hle⟩

/-- Of three analyzers the first never ends, the second breaks down and the third reports an error. The stage gives the
first up, and still fails by what the third had found before. -/
theorem run_blocks_abandoned :
    let scale : Scale := ⟨[("high", .error)]⟩
    let hung : Analyzer := ⟨"hung", scale, fun _ => ⟨.issues [], none⟩⟩
    let broken : Analyzer := ⟨"broken", scale, fun _ => ⟨.failure (.notAvailable "tool"), some (.ofMillis 200)⟩⟩
    let fast : Analyzer := ⟨"fast", scale, fun _ => ⟨.issues [⟨"high", "found", none, none⟩], some (.ofMillis 300)⟩⟩
    let limits : Limits := { each := .ofSecs 1, overall := .ofMillis 500 }
    (run limits [hung, broken, fast] "x = 1\n").findings.map (·.code) =
        [some "analyzer-timeout", some "analyzer-crash", some "fast"] ∧
      ((run limits [hung, broken, fast] "x = 1\n").stageResult .error).status = .failed := by
  intro scale hung broken fast limits
  have hclear : ∀ a ∈ [hung, broken, fast], IsClear limits (a.reply "x = 1\n") := by
    intro a ha d hd
    simp only [List.mem_cons, List.not_mem_nil, or_false] at ha
    rcases ha with rfl | rfl | rfl
    · cases hd
    · cases hd
      decide
    · cases hd
      decide
  obtain ⟨hfindings, -, hfailed⟩ := run_blocks (List.cons_ne_nil hung [broken, fast]) hclear
  constructor
  · rw [hfindings]
    decide +kernel
  · have hmem : fast ∈ [hung, broken, fast] := .tail _ (.tail _ (.head _))
    have hin : InTime limits (fast.reply "x = 1\n") := ⟨.ofMillis 300, rfl, by decide, by decide⟩
    exact (hfailed .error (by decide)).mpr ⟨fast, hmem, hin, _, rfl, _, List.mem_singleton_self _, by decide⟩

/-- Of a limit that the clock cannot hold the stage waits for a day only: it gives an analyzer up that would be done in
25 hours, long before either limit. -/
theorem not_issues_of_lt_overall :
    ¬ ∀ (limits : Limits) (a : Analyzer) (source : String) (d : Duration) (found : List Issue),
      a.reply source = ⟨.issues found, some d⟩ → d < limits.each → d < limits.overall →
        (run limits [a] source).findings = found.map a.issueFinding := by
  intro h
  have hissues := h { each := .ofSecs 100_000, overall := .ofSecs 10_000_000_000_000_000_000 }
    ⟨"slow", ⟨[("high", .error)]⟩, fun _ => ⟨.issues [⟨"high", "found", none, none⟩], some (.ofSecs 90_000)⟩⟩
    "x = 1\n" (.ofSecs 90_000) [⟨"high", "found", none, none⟩] rfl (by decide) (by decide)
  revert hissues
  decide +kernel

end Vetting.Analysis
