import Vetting.Proofs.Config.RoundTrip
import Vetting.Proofs.Duration.Nearest
import Vetting.Proofs.Outcome

/-!
# Adjusting the limits of a sandbox

A configuration is adjusted one limit at a time, and an adjustment that is refused leaves it as it was. What a number of
seconds must be like to become the timeout is said without the way in which it is read: it is finite, and the nearest
length of time is positive and at most a day (`SandboxConfig.withTimeoutSecs_eq_ok_iff`).

No adjustment makes a valid configuration invalid (`SandboxConfig.validate_adjust`), so however it is adjusted it stays
valid, and each adjustment that is accepted does what it says (`SandboxConfig.validate_adjusted`).
-/

namespace Vetting

theorem Duration.isBounded_iff {d : Duration} : d.isBounded = true ↔ 1 ≤ d.nanos ∧ d ≤ .oneDay := by
  rw [isBounded, Bool.and_eq_true_iff, decide_eq_true_iff, decide_eq_true_iff]
  exact Iff.rfl

/-- A change to one limit of a sandbox. -/
inductive Adjustment
  | timeoutSecs (secs : Binary64)
  | memoryMegabytes (mb : Nat)

namespace SandboxConfig

/-- What an adjustment makes of a configuration, unless it is refused. -/
def attempt (c : SandboxConfig) : Adjustment → Except ConfigError SandboxConfig
  | .timeoutSecs secs => c.withTimeoutSecs secs
  | .memoryMegabytes mb => c.withMemoryMegabytes mb

/-- The configuration after an adjustment: as before if it is refused. -/
def adjust (c : SandboxConfig) (a : Adjustment) : SandboxConfig := (c.attempt a).toOption.getD c

variable {c d : SandboxConfig} {secs : Binary64} {t : Duration} {mb : Nat}

/-! ### Accepted adjustments -/

theorem positiveDuration_eq_ok_iff {field : String} :
    positiveDuration field secs = .ok t ↔ secs.isFinite = true ∧ t.IsNearest secs ∧ t.isBounded = true := by
  constructor
  · intro h
    obtain ⟨-, h⟩ := demand_bind_eq_ok_iff.mp h
    cases hread : Duration.ofSeconds secs with
    | error e =>
      rw [hread] at h
      cases h
    | ok d =>
      rw [hread] at h
      obtain ⟨hbounded, hd⟩ := ValidatorConfig.bind_eq_ok_iff.mp h
      cases hd
      obtain ⟨hfinite, hnearest⟩ := Duration.isNearest_of_ofSeconds hread
      exact ⟨hfinite, hnearest, checkDuration_eq_ok_iff.mp hbounded⟩
  · rintro ⟨hfinite, hnearest, hbounded⟩
    obtain ⟨hpos, hday⟩ := Duration.isBounded_iff.mp hbounded
    obtain ⟨hunits, hread⟩ := Duration.ofSeconds_of_isNearest hfinite hnearest hpos hday
    have hpositive : Binary64.zero.numLt secs = true := by
      rwa [Binary64.numLt_iff_signedUnits Binary64.zero_isFinite hfinite, Binary64.signedUnits_zero]
    rw [positiveDuration, demand_bind_eq_ok_iff, hread]
    exact ⟨Bool.and_eq_true_iff.mpr ⟨hfinite, hpositive⟩,
      ValidatorConfig.bind_eq_ok_iff.mpr ⟨checkDuration_eq_ok_iff.mpr hbounded, rfl⟩⟩

/-- Only the timeout is changed. -/
theorem withTimeoutSecs_eq_ok_iff : c.withTimeoutSecs secs = .ok d ↔
    secs.isFinite = true ∧
      ∃ t : Duration, t.IsNearest secs ∧ 1 ≤ t.nanos ∧ t ≤ .oneDay ∧ d = { c with timeout := t } := by
  constructor
  · intro h
    obtain ⟨t, ht, hd⟩ := exists_of_bind_eq_ok h
    obtain ⟨hfinite, hnearest, hbounded⟩ := positiveDuration_eq_ok_iff.mp ht
    obtain ⟨hpos, hday⟩ := Duration.isBounded_iff.mp hbounded
    exact ⟨hfinite, t, hnearest, hpos, hday, (Except.ok.inj hd).symm⟩
  · rintro ⟨hfinite, t, hnearest, hpos, hday, rfl⟩
    rw [withTimeoutSecs, positiveDuration_eq_ok_iff.mpr ⟨hfinite, hnearest, Duration.isBounded_iff.mpr ⟨hpos, hday⟩⟩]
    rfl

/-- Only the memory ceiling is changed. -/
theorem withMemoryMegabytes_eq_ok_iff : c.withMemoryMegabytes mb = .ok d ↔
    mb ≠ 0 ∧ d = { c with maxMemoryBytes := min maxBytes (mb * bytesPerMegabyte) } := by
  rw [withMemoryMegabytes, demand_bind_eq_ok_iff, decide_eq_true_iff]
  exact and_congr_right fun _ => ⟨fun h => (Except.ok.inj h).symm, fun h => congrArg Except.ok h.symm⟩

/-- The number of bytes is cut off within the last megabyte that is not whole. -/
theorem memoryMegabytes_of_withMemoryMegabytes (h : c.withMemoryMegabytes mb = .ok d) :
    d.memoryMegabytes = min mb (2 ^ 44 - 1) := by
  obtain ⟨-, rfl⟩ := withMemoryMegabytes_eq_ok_iff.mp h
  simp only [memoryMegabytes, maxBytes, bytesPerMegabyte, UInt64.size]
  omega

/-! ### Validity -/

/-- An adjustment that is accepted does not make the configuration invalid. -/
theorem validate_of_attempt {a : Adjustment} (hc : c.validate = .ok ()) (h : c.attempt a = .ok d) :
    d.validate = .ok () := by
  simp only [validate, ValidatorConfig.bind_eq_ok_iff, checkDuration_eq_ok_iff] at hc ⊢
  obtain ⟨htimeout, hmemory, hrest⟩ := hc
  cases a with
  | timeoutSecs secs =>
    obtain ⟨-, t, -, hpos, hday, rfl⟩ := withTimeoutSecs_eq_ok_iff.mp h
    exact ⟨Duration.isBounded_iff.mpr ⟨hpos, hday⟩, hmemory, hrest⟩
  | memoryMegabytes mb =>
    obtain ⟨hmb, rfl⟩ := withMemoryMegabytes_eq_ok_iff.mp h
    refine ⟨htimeout, demand_eq_ok_iff.mpr (decide_eq_true ?_), hrest⟩
    simp only [maxBytes, bytesPerMegabyte, UInt64.size]
    omega

theorem validate_adjust (hc : c.validate = .ok ()) (a : Adjustment) : (c.adjust a).validate = .ok () := by
  cases h : c.attempt a with
  | error e =>
    rw [adjust, h]
    exact hc
  | ok d =>
    rw [adjust, h]
    exact validate_of_attempt hc h

theorem validate_foldl_adjust (hc : c.validate = .ok ()) (steps : List Adjustment) :
    (steps.foldl adjust c).validate = .ok () := by
  induction steps generalizing c with
  | nil => exact hc
  | cons a rest ih => exact ih (validate_adjust hc a)

/-- However a valid configuration is adjusted, it stays valid, and the next adjustment does what it says: a number of
seconds becomes the timeout if it is finite and nearest to a length of time of 1 ns to 24 h, and the memory ceiling is
the given one up to `2 ^ 44 - 1` megabytes. -/
theorem validate_adjusted (hc : c.validate = .ok ()) (steps : List Adjustment) :
    let d := steps.foldl adjust c
    d.validate = .ok () ∧
      (∀ secs, (∃ e, d.withTimeoutSecs secs = .ok e) ↔
        secs.isFinite = true ∧ ∃ t : Duration, t.IsNearest secs ∧ 1 ≤ t.nanos ∧ t ≤ .oneDay) ∧
      (∀ secs e, d.withTimeoutSecs secs = .ok e →
        e.timeout.IsNearest secs ∧ 1 ≤ e.timeout.nanos ∧ e.timeout ≤ .oneDay) ∧
      ∀ mb e, d.withMemoryMegabytes mb = .ok e → e.memoryMegabytes = min mb (2 ^ 44 - 1) := by
  intro d
  refine ⟨validate_foldl_adjust hc steps, fun secs => ⟨?_, ?_⟩, fun secs e h => ?_, fun mb e h => ?_⟩
  · rintro ⟨e, h⟩
    obtain ⟨hfinite, t, hnearest, hpos, hday, -⟩ := withTimeoutSecs_eq_ok_iff.mp h
    exact ⟨hfinite, t, hnearest, hpos, hday⟩
  · rintro ⟨hfinite, t, hnearest, hpos, hday⟩
    exact ⟨_, withTimeoutSecs_eq_ok_iff.mpr ⟨hfinite, t, hnearest, hpos, hday, rfl⟩⟩
  · obtain ⟨-, t, hnearest, hpos, hday, rfl⟩ := withTimeoutSecs_eq_ok_iff.mp h
    exact ⟨hnearest, hpos, hday⟩
  · exact memoryMegabytes_of_withMemoryMegabytes h

/-- The neighbour of a day above it is a day, and the smallest number of seconds is no time at all. -/
theorem validate_adjusted_extremes :
    let dayAndMore : Binary64 := ⟨(Binary64.ofNat 86400).bits + 1⟩
    let steps : List Adjustment :=
      [.timeoutSecs dayAndMore, .timeoutSecs .nan, .timeoutSecs ⟨1⟩, .memoryMegabytes (2 ^ 44), .memoryMegabytes 0]
    let d := steps.foldl adjust {}
    d = { timeout := .oneDay, maxMemoryBytes := maxBytes } ∧ d.validate = .ok () ∧
      ∃ e, d.withMemoryMegabytes (2 ^ 44) = .ok e ∧ e.memoryMegabytes = 2 ^ 44 - 1 := by
  intro dayAndMore steps d
  have hd : d = { timeout := .oneDay, maxMemoryBytes := maxBytes } := by decide +kernel
  have hdefault : validate {} = .ok () := by
    simp only [validate, ValidatorConfig.bind_eq_ok_iff, checkDuration_eq_ok_iff, demand_eq_ok_iff]
    decide +kernel
  obtain ⟨hvalid, -, -, hmemory⟩ := validate_adjusted hdefault steps
  have hattempt : d.withMemoryMegabytes (2 ^ 44) = .ok _ := withMemoryMegabytes_eq_ok_iff.mpr ⟨by decide, rfl⟩
  exact ⟨hd, hvalid, _, hattempt, hmemory _ _ hattempt⟩

end SandboxConfig

end Vetting
