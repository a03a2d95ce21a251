import Vetting.Sandbox.Session

/-!
# Played sessions

`Session.Plays` is the relation behind `Session.play`: one constructor for each thing that can happen to
a session, with everything that has to hold for it. `Session.plays` and `Session.Plays.play_eq` say that a session is
played by it and in no other way, so facts about playing are proved by induction on the relation and never by unfolding
`play`.
-/

namespace Vetting.Session

/-- How a session, started with a log, comes out and what log it leaves. -/
inductive Plays (sandbox : Sandbox) (deadline : Option Duration) :
    Session α → Log → Played α → Log → Prop
  | finish : Plays sandbox deadline (.finish a) log (.finished a) log
  /-- The run is over in time. -/
  | answered : (sandbox log.requests request).delay = some delay →
      (∀ limit, deadline = some limit → log.elapsed.saturatingAdd delay ≤ limit) →
      Plays sandbox deadline (next (sandbox log.requests request).result)
        ⟨request :: log.requests, (sandbox log.requests request).result :: log.results,
          log.elapsed.saturatingAdd delay⟩ played log' →
      Plays sandbox deadline (.run request next) log played log'
  /-- The deadline comes while the run is going on. -/
  | cancelled : deadline = some limit →
      (∀ delay, (sandbox log.requests request).delay = some delay →
        ¬ log.elapsed.saturatingAdd delay ≤ limit) →
      Plays sandbox deadline (.run request next) log .cancelled
        ⟨request :: log.requests, log.results, limit⟩
  | stuck : deadline = none → (sandbox log.requests request).delay = none →
      Plays sandbox deadline (.run request next) log .stuck
        { log with requests := request :: log.requests }

variable {sandbox : Sandbox} {deadline : Option Duration}

theorem plays (s : Session α) (log : Log) :
    Plays sandbox deadline s log (s.play sandbox deadline log).1 (s.play sandbox deadline log).2 := by
  induction s generalizing log with
  | finish a => exact .finish
  | run request next ih =>
    simp only [play]
    split
    · exact .stuck rfl ‹_›
    · refine .cancelled rfl fun delay hd => ?_
      simp_all
    · exact .answered ‹_› (fun limit h => nomatch h) (ih ..)
    · split
      · refine .answered ‹_› (fun limit h => ?_) (ih ..)
        cases h
        assumption
      · refine .cancelled rfl fun delay hd => ?_
        simp_all

theorem Plays.of_eq {s : Session α} {log log' : Log} {played : Played α}
    (h : s.play sandbox deadline log = (played, log')) : Plays sandbox deadline s log played log' := by
  have hp : Plays sandbox deadline s log _ _ := plays s log
  rwa [h] at hp

/-- There is one way to play a session. -/
theorem Plays.play_eq {s : Session α} {log log' : Log} {played : Played α}
    (h : Plays sandbox deadline s log played log') : s.play sandbox deadline log = (played, log') := by
  induction h with
  | finish => rfl
  | answered hdelay hintime _ ih =>
    cases deadline with
    | none => simpa only [play, hdelay] using ih
    | some limit => simpa only [play, hdelay, if_pos (hintime limit rfl)] using ih
  | @cancelled limit request _ next log hlimit hlate =>
    subst hlimit
    cases hdelay : (sandbox log.requests request).delay with
    | none => simp only [play, hdelay]
    | some delay => simp only [play, hdelay, if_neg (hlate delay hdelay)]
  | stuck hdeadline hdelay =>
    subst hdeadline
    simp only [play, hdelay]

/-- What has been asked stays in the log, under all that is asked later. -/
theorem Plays.requests_suffix {s : Session α} {log log' : Log} {played : Played α}
    (h : Plays sandbox deadline s log played log') : log.requests <:+ log'.requests := by
  induction h with
  | finish => exact List.suffix_refl _
  | answered _ _ _ ih => exact (List.suffix_cons _ _).trans ih
  | cancelled | stuck => exact List.suffix_cons _ _

/-- The log only grows. -/
theorem Plays.results_eq_append {s : Session α} {log log' : Log} {played : Played α}
    (h : s.Plays sandbox deadline log played log') : ∃ runs, log'.results = runs ++ log.results := by
  induction h with
  | finish => exact ⟨[], rfl⟩
  | answered _ _ _ ih =>
    obtain ⟨runs, hruns⟩ := ih
    exact ⟨runs ++ [_], hruns.trans (List.append_cons ..)⟩
  | cancelled | stuck => exact ⟨[], rfl⟩

/-! ### Single runs -/

/-- A single run that is finished has answered its request. -/
theorem Plays.ask_finished {log log' : Log}
    (h : Plays sandbox deadline (.ask request) log (.finished r) log') :
    log'.requests = request :: log.requests ∧ log'.results = r :: log.results := by
  cases h with
  | answered _ _ h => cases h; exact ⟨rfl, rfl⟩

/-- A single run that is cancelled has left nothing but its request. -/
theorem Plays.ask_cancelled {log log' : Log}
    (h : Plays sandbox deadline (.ask request) log .cancelled log') :
    log'.requests = request :: log.requests ∧ log'.results = log.results := by
  cases h with
  | answered _ _ h => cases h
  | cancelled => exact ⟨rfl, rfl⟩

/-- Only a deadline cancels a session. -/
theorem Plays.deadline_of_cancelled {s : Session α} {log log' : Log}
    (h : Plays sandbox deadline s log .cancelled log') : ∃ limit, deadline = some limit := by
  generalize hp : (Played.cancelled : Played α) = played at h
  induction h with
  | finish | stuck => cases hp
  | answered _ _ _ ih => exact ih hp
  | cancelled hd => exact ⟨_, hd⟩

/-- Only a run that never ends leaves a session stuck, the last that was asked for, and only where no deadline ends it. -/
theorem Plays.endless_of_stuck {s : Session α} {log log' : Log}
    (h : Plays sandbox deadline s log .stuck log') :
    deadline = none ∧ ∃ request earlier, log'.requests = request :: earlier ∧
      (sandbox earlier request).delay = none := by
  generalize hp : (Played.stuck : Played α) = played at h
  induction h with
  | finish | cancelled => cases hp
  | answered _ _ _ ih => exact ih hp
  | stuck hd hdelay => exact ⟨hd, _, _, rfl, hdelay⟩

/-- A single run leaves a session stuck if it never ends and there is no deadline. -/
theorem Plays.ask_stuck_iff {log : Log} :
    (∃ log', Plays sandbox deadline (.ask request) log .stuck log') ↔
      deadline = none ∧ (sandbox log.requests request).delay = none := by
  constructor
  · rintro ⟨log', h⟩
    cases h with
    | answered _ _ h => cases h
    | stuck hd hdelay => exact ⟨hd, hdelay⟩
  · rintro ⟨hd, hdelay⟩
    exact ⟨_, .stuck hd hdelay⟩

end Vetting.Session
