import Vetting.Sandbox.Execute

/-!
# Limits on time

Two limits end a run that takes too long: the watchdog counts the time that passes, and the kernel the processor time.
A run that keeps to one core uses no more processor time than time passes, so the kernel stays behind the watchdog
exactly when its limit is no lower (`Command.watchdogComesFirst_iff`).

The limit of processor time is the next whole second behind the timeout, while the watchdog waits for the grace of the
backend on top of the timeout. So the order of the two depends on the fraction of a second in the timeout and on the
grace (`Backend.limit_le_cpuCeiling_iff`): with half a second of grace the kernel stays behind for fractions up to a
half, and with three seconds never (`Backend.watchdogComesFirst_command`).
-/

namespace Vetting

/-- The processor time that a run has used when some time has passed is never more than that time. -/
def KeepsToOneCore (used : Duration → Duration) : Prop := ∀ elapsed, used elapsed ≤ elapsed

namespace Command

/-- The processor time at which the kernel ends the run. -/
def cpuCeiling (c : Command) : Duration := .ofSecs c.job.cpuSeconds

/-- Before the watchdog fires, no run that keeps to one core reaches the limit of processor time. -/
def WatchdogComesFirst (c : Command) : Prop :=
  ∀ used, KeepsToOneCore used → ∀ elapsed, elapsed < c.limit → used elapsed < c.cpuCeiling

theorem watchdogComesFirst_iff {c : Command} : c.WatchdogComesFirst ↔ c.limit ≤ c.cpuCeiling := by
  constructor
  · intro h
    rcases Nat.lt_or_ge c.cpuCeiling.nanos c.limit.nanos with hlt | hge
    · -- A run that is busy all the time has used the whole ceiling when that much time has passed.
      have hbusy : KeepsToOneCore fun elapsed => elapsed := fun elapsed => Nat.le_refl elapsed.nanos
      exact absurd (h _ hbusy c.cpuCeiling hlt) (Nat.lt_irrefl _)
    · exact hge
  · intro h used hused elapsed hbefore
    exact Nat.lt_of_le_of_lt (hused elapsed) (Nat.lt_of_lt_of_le hbefore h)

end Command

namespace Backend

variable (b : Backend) (config : SandboxConfig) (denylist : Denylist) (runner id : String) (request : Request)

theorem nanos_cpuCeiling_command :
    (b.command config denylist runner id request).cpuCeiling.nanos =
      min (UInt64.size - 1) (config.timeout.secs + 1) * Duration.nanosPerSecond := rfl

theorem nanos_limit_command :
    (b.command config denylist runner id request).limit.nanos =
      min (UInt64.size * Duration.nanosPerSecond - 1) (config.timeout.nanos + b.grace.nanos) := rfl

/-- The watchdog fires no later than at the limit of processor time if the grace ends within the second that the
timeout has begun, and that second can still be counted. -/
theorem limit_le_cpuCeiling_iff :
    (b.command config denylist runner id request).limit ≤ (b.command config denylist runner id request).cpuCeiling ↔
      config.timeout.subsecNanos + b.grace.nanos ≤ Duration.nanosPerSecond ∧
        config.timeout.secs + 1 < UInt64.size := by
  have hgrace : 0 < b.grace.nanos := by cases b <;> decide
  have hparts : config.timeout.secs * Duration.nanosPerSecond + config.timeout.subsecNanos = config.timeout.nanos :=
    Nat.div_add_mod' _ _
  have hsub : config.timeout.subsecNanos < Duration.nanosPerSecond := Nat.mod_lt _ (by decide)
  change (b.command config denylist runner id request).limit.nanos ≤
    (b.command config denylist runner id request).cpuCeiling.nanos ↔ _
  rw [nanos_limit_command, nanos_cpuCeiling_command]
  simp only [Duration.nanosPerSecond, UInt64.size] at *
  omega

/-- **The kernel and the watchdog.** Where the kernel keeps the limits of a run, it stays behind the watchdog exactly in
a subprocess whose timeout has a fraction of at most half a second, and never in a container. The limit of processor
time is behind the timeout itself as long as it can be counted; in a container it is at least two seconds ahead of the
watchdog. -/
theorem watchdogComesFirst_command (h : b.enforcement = .kernel) :
    let c := b.command config denylist runner id request
    let isBehind := b = .subprocess ∧ config.timeout.subsecNanos ≤ 500_000_000 ∧ config.timeout.secs + 1 < UInt64.size
    (c.WatchdogComesFirst ↔ isBehind) ∧ (c.limit ≤ c.cpuCeiling ↔ isBehind) ∧
      (config.timeout.secs + 1 < UInt64.size → config.timeout < c.cpuCeiling) ∧
      (b = .container → config.timeout.secs + 4 < UInt64.size →
        c.cpuCeiling.nanos + 2 * Duration.nanosPerSecond ≤ c.limit.nanos) := by
  intro c isBehind
  have hparts : config.timeout.secs * Duration.nanosPerSecond + config.timeout.subsecNanos = config.timeout.nanos :=
    Nat.div_add_mod' _ _
  have hsub : config.timeout.subsecNanos < Duration.nanosPerSecond := Nat.mod_lt _ (by decide)
  have hceiling : c.cpuCeiling.nanos = _ := nanos_cpuCeiling_command b config denylist runner id request
  have hlimit : c.limit.nanos = _ := nanos_limit_command b config denylist runner id request
  have hfits : config.timeout.subsecNanos + b.grace.nanos ≤ Duration.nanosPerSecond ↔
      b = .subprocess ∧ config.timeout.subsecNanos ≤ 500_000_000 := by
    cases b with
    | restricted => cases h
    | subprocess =>
      have hgrace : Backend.subprocess.grace.nanos = 500_000_000 := rfl
      simp only [hgrace, Duration.nanosPerSecond, true_and]
      omega
    | container =>
      have hgrace : Backend.container.grace.nanos = 3_000_000_000 := rfl
      simp only [hgrace, Duration.nanosPerSecond, reduceCtorEq, false_and, iff_false]
      omega
  have hbehind : c.limit ≤ c.cpuCeiling ↔ isBehind := by
    have hiff := limit_le_cpuCeiling_iff b config denylist runner id request
    rwa [hfits, and_assoc] at hiff
  refine ⟨Command.watchdogComesFirst_iff.trans hbehind, hbehind, fun hcount => ?_, ?_⟩
  · change config.timeout.nanos < c.cpuCeiling.nanos
    rw [hceiling]
    simp only [Duration.nanosPerSecond, UInt64.size] at *
    omega
  · rintro rfl hcount
    have hgrace : Backend.container.grace.nanos = 3_000_000_000 := rfl
    rw [hceiling, hlimit, hgrace]
    simp only [Duration.nanosPerSecond, UInt64.size] at *
    omega

/-- With half a second of grace, a timeout of 5.5 s leaves the kernel behind the watchdog and one of 0.7 s does not; in
a container the kernel ends a run of 5 s after 6 s, and the watchdog would have after 8 s. -/
theorem watchdogComesFirst_command_fractions :
    let run (b : Backend) (timeout : Duration) := b.command { timeout := timeout } .empty "" "" ⟨"", none, []⟩
    Backend.subprocess.enforcement = .kernel ∧ Backend.container.enforcement = .kernel ∧
      (run .subprocess (.ofMillis 5500)).WatchdogComesFirst ∧ ¬ (run .subprocess (.ofMillis 700)).WatchdogComesFirst ∧
      ¬ (run .container (.ofSecs 5)).WatchdogComesFirst ∧ (run .container (.ofSecs 5)).job.cpuSeconds = 6 ∧
      (run .container (.ofSecs 5)).limit = .ofSecs 8 := by
  intro run
  have hsubprocess (timeout : Duration) :=
    (watchdogComesFirst_command .subprocess { timeout := timeout } .empty "" "" ⟨"", none, []⟩ rfl).1
  have hcontainer (timeout : Duration) :=
    (watchdogComesFirst_command .container { timeout := timeout } .empty "" "" ⟨"", none, []⟩ rfl).1
  have hhalf : (Duration.ofMillis 5500).subsecNanos ≤ 500_000_000 := by decide
  have hcount : (Duration.ofMillis 5500).secs + 1 < UInt64.size := by decide
  have hlong : ¬ (Duration.ofMillis 700).subsecNanos ≤ 500_000_000 := by decide
  refine ⟨rfl, rfl, (hsubprocess _).mpr ⟨rfl, hhalf, hcount⟩, fun hfirst => ?_, fun hfirst => ?_, rfl, rfl⟩
  · exact hlong ((hsubprocess _).mp hfirst).2.1
  · cases ((hcontainer _).mp hfirst).1

end Backend

end Vetting
