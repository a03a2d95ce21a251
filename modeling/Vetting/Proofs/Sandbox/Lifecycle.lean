import Vetting.Proofs.Sandbox.Runs

/-!
# Lives of runs

A life takes calls one after the other. The calls that are granted make up one way, a start and then a finish
(`Lifecycle.Progress`); a call that is not the next on it is refused and leaves everything as it was
(`Lifecycle.Settled`). A backend goes this way itself, so what it gives is the outcome that it was handed, sealed with
the state of its exit (`Backend.Seals`).
-/

namespace Vetting

namespace Lifecycle

/-! ### Calls -/

/-- What can be asked of the life of a run. -/
inductive Call
  | start
  | finish (exit : Exit)
deriving DecidableEq

/-- The state that is asked for. -/
def Call.target : Call → RunState
  | .start => .running
  | .finish exit => exit.terminalState

def perform (l : Lifecycle) : Call → Except InvalidTransition Lifecycle
  | .start => l.start
  | .finish exit => l.finish exit

/-- A call together with the life that it met and the answer that it got. -/
structure Performed where
  call : Call
  before : Lifecycle
  answer : Except InvalidTransition Lifecycle

namespace Performed

/-- What is granted takes the place of what was before. -/
def after (p : Performed) : Lifecycle :=
  match p.answer with
  | .ok next => next
  | .error _ => p.before

/-- The call, if it was granted. -/
def granted? (p : Performed) : Option Call :=
  match p.answer with
  | .ok _ => some p.call
  | .error _ => none

end Performed

/-- The calls of a list, performed one after the other. -/
def performAll (l : Lifecycle) : List Call → List Performed
  | [] => []
  | call :: rest =>
    let p : Performed := ⟨call, l, l.perform call⟩
    p :: p.after.performAll rest

/-- The life that calls have led to. -/
def leftBy (l : Lifecycle) (performed : List Performed) : Lifecycle :=
  performed.foldl (fun _ p => p.after) l

def grantedOf (performed : List Performed) : List Call := performed.filterMap Performed.granted?

variable {l : Lifecycle} {done : List Call}

/-- Every call is answered, in order. -/
theorem map_call_performAll (l : Lifecycle) (calls : List Call) : (l.performAll calls).map (·.call) = calls := by
  induction calls generalizing l with
  | nil => rfl
  | cons call rest ih => exact congrArg (call :: ·) (ih _)

/-! ### One call -/

/-- What has been granted so far, and the state that it has led to. -/
inductive Progress : List Call → RunState → Prop
  | untouched : Progress [] .ready
  | started : Progress [.start] .running
  | finished (exit : Exit) : Progress [.start, .finish exit] exit.terminalState

theorem perform_eq (l : Lifecycle) (call : Call) : l.perform call = l.transition call.target := by
  cases call <;> rfl

theorem not_allows_of_isTerminal {s : RunState} (h : s.isTerminal = true) (target : RunState) :
    allows s target = false := by
  cases s with
  | ready | running => cases h
  | completed | timedOut | resourceExceeded | crashed => rfl

/-- The next call on the way is granted, any other is refused by name. -/
theorem Progress.perform (h : Progress done l.state) (call : Call) :
    (Progress (done ++ [call]) call.target ∧ l.perform call = .ok { l with state := call.target }) ∨
      (¬ Progress (done ++ [call]) call.target ∧ l.perform call = .error ⟨l.state, call.target⟩) := by
  rw [perform_eq, transition]
  generalize l.state = s at h
  cases h with
  | untouched =>
    cases call with
    | start => exact .inl ⟨.started, rfl⟩
    | finish exit =>
      have hrefused : allows .ready exit.terminalState = false := by cases exit <;> rfl
      exact .inr ⟨by rintro ⟨⟩, if_neg (Bool.eq_false_iff.mp hrefused)⟩
  | started =>
    cases call with
    | start => exact .inr ⟨by rintro ⟨⟩, rfl⟩
    | finish exit => exact .inl ⟨.finished exit, if_pos exit.isTerminal_terminalState⟩
  | finished exit =>
    have hrefused := not_allows_of_isTerminal exit.isTerminal_terminalState call.target
    exact .inr ⟨by rintro ⟨⟩, if_neg (Bool.eq_false_iff.mp hrefused)⟩

/-! ### All calls -/

/-- What a call comes to that is made behind others: it meets what they have left, and is granted if it is the next on
the way, with the state that it asks for. Else it is refused by both states, and changes nothing. -/
structure Settled (l : Lifecycle) (done : List Call) (earlier : List Performed) (p : Performed) : Prop where
  before : p.before = l.leftBy earlier
  granted : Progress (done ++ grantedOf earlier ++ [p.call]) p.call.target →
    p.answer = .ok { p.before with state := p.call.target }
  refused : ¬ Progress (done ++ grantedOf earlier ++ [p.call]) p.call.target →
    p.answer = .error ⟨p.before.state, p.call.target⟩ ∧ p.after = p.before

/-- A list of calls on a life on which some have been granted already. -/
structure Orderly (l : Lifecycle) (done : List Call) (calls : List Call) : Prop where
  answered : (l.performAll calls).map (·.call) = calls
  progress : Progress (done ++ grantedOf (l.performAll calls)) (l.leftBy (l.performAll calls)).state
  backend : (l.leftBy (l.performAll calls)).backend = l.backend
  settled : ∀ earlier p later, l.performAll calls = earlier ++ p :: later → Settled l done earlier p

theorem Progress.settled (h : Progress done l.state) (call : Call) :
    Settled l done [] ⟨call, l, l.perform call⟩ := by
  have hdone : done ++ grantedOf [] = done := List.append_nil done
  refine ⟨rfl, fun hnext => ?_, fun hother => ?_⟩
  · rw [hdone] at hnext
    exact (h.perform call).elim (·.2) fun hrefused => absurd hnext hrefused.1
  · rw [hdone] at hother
    obtain ⟨hnext, -⟩ | ⟨-, hanswer⟩ := h.perform call
    · exact absurd hnext hother
    · exact ⟨hanswer, by simp only [Performed.after, hanswer]⟩

theorem Progress.orderly (h : Progress done l.state) (calls : List Call) : Orderly l done calls := by
  induction calls generalizing l done with
  | nil =>
    refine ⟨rfl, (List.append_nil done).symm ▸ h, rfl, fun earlier p later hsplit => ?_⟩
    cases earlier <;> cases hsplit
  | cons call rest ih =>
    let p : Performed := ⟨call, l, l.perform call⟩
    -- Whatever the answer is, the rest goes on from a life of the same backend that has made progress.
    have hstep : Progress (done ++ grantedOf [p]) p.after.state ∧ p.after.backend = l.backend := by
      obtain ⟨hnext, hanswer⟩ | ⟨-, hanswer⟩ := h.perform call
      · have hp : p = ⟨call, l, .ok { l with state := call.target }⟩ := congrArg (Performed.mk call l) hanswer
        rw [hp]
        exact ⟨hnext, rfl⟩
      · have hp : p = ⟨call, l, .error ⟨l.state, call.target⟩⟩ := congrArg (Performed.mk call l) hanswer
        rw [hp]
        exact ⟨(List.append_nil done).symm ▸ h, rfl⟩
    have hgranted (performed : List Performed) :
        done ++ grantedOf (p :: performed) = done ++ grantedOf [p] ++ grantedOf performed := by
      rw [List.append_assoc, grantedOf, grantedOf, grantedOf, ← List.filterMap_append, List.singleton_append]
    have hrest := ih hstep.1
    refine ⟨map_call_performAll .., ?_, hrest.backend.trans hstep.2, ?_⟩
    · exact (hgranted _).symm ▸ hrest.progress
    · intro earlier q later hsplit
      have hsplit : p :: p.after.performAll rest = earlier ++ q :: later := hsplit
      obtain ⟨rfl, hq⟩ | ⟨earlier, rfl, htail⟩ := List.cons_eq_append_iff.mp hsplit
      · cases hq
        exact h.settled call
      · obtain ⟨hbefore, hgrant, hrefuse⟩ := hrest.settled earlier q later htail
        rw [← hgranted] at hgrant hrefuse
        exact ⟨hbefore, hgrant, hrefuse⟩

end Lifecycle

/-! ### Sealed results -/

/-- A failure that tells of a step which the life of a run does not allow. -/
def RunResult.IsTransitionFailure (r : RunResult) : Prop :=
  ∃ t, r.exception = some ⟨machineryError, (SandboxError.invalidTransition t).message, none⟩

namespace SandboxError

/-- The text of a step that is not allowed is known by its first letters. -/
theorem append_ne_message_invalidTransition {head : String} (hlength : 3 ≤ head.toList.length)
    (hhead : head.toList.take 3 ≠ ['i', 'n', 'v']) (rest : String) (t : InvalidTransition) :
    head ++ rest ≠ (invalidTransition t).message := by
  intro h
  have hmessage : (invalidTransition t).message =
      "invalid sandbox transition " ++ (t.source.title ++ (" -> " ++ t.target.title)) := by
    rw [← String.append_assoc, ← String.append_assoc]
    rfl
  have htake := congrArg (fun s : String => s.toList.take 3) (h.trans hmessage)
  simp only [String.toList_append, List.take_append_of_le_length hlength] at htake
  exact hhead htake

/-- No other failure of a sandbox is told like a step that is not allowed. -/
theorem message_eq_invalidTransition_iff {e : SandboxError} :
    (∃ t, e.message = (invalidTransition t).message) ↔ ∃ t, e = .invalidTransition t := by
  refine ⟨?_, fun ⟨t, ht⟩ => ⟨t, congrArg message ht⟩⟩
  rintro ⟨t, h⟩
  cases e with
  | invalidTransition t => exact ⟨t, rfl⟩
  | interpreterNotFound program =>
    have h : "interpreter '" ++ program ++ "' not found" = (invalidTransition t).message := h
    rw [String.append_assoc] at h
    exact absurd h (append_ne_message_invalidTransition (by decide) (by decide) _ t)
  | poisoned =>
    exact absurd (String.append_empty.trans h) (append_ne_message_invalidTransition (by decide) (by decide) "" t)
  | notStarted reason | io reason | notEncoded reason | protocol reason | embedded reason =>
    exact absurd h (append_ne_message_invalidTransition (by decide) (by decide) reason t)

end SandboxError

namespace Backend

variable {b : Backend} {inner : Except SandboxError RunResult} {wallTime : Duration}

/-- What a run hands over to the end of its life: its result, or its failure in the form of one. -/
def handed (b : Backend) (inner : Except SandboxError RunResult) (wallTime : Duration) : RunResult :=
  match inner with
  | .ok r => r
  | .error e => .ofFailure b e wallTime

/-- The life of a run lets it start and finish, and the result is what was handed over, in the state of its exit. -/
structure Seals (b : Backend) (inner : Except SandboxError RunResult) (wallTime : Duration) (result : RunResult) :
    Prop where
  granted : ∃ running ended, (Lifecycle.ofBackend b).start = .ok running ∧
    running.finish (b.handed inner wallTime).exit = .ok ended ∧ ended.state = result.state
  kept : result = { b.handed inner wallTime with state := result.state }
  state : result.state = result.exit.terminalState
  terminal : result.state.isTerminal = true
  usable : result.isUsable = true ↔ result.exit = .ok
  /-- A result tells of a step that is not allowed only where it was handed over so. -/
  transition : result.IsTransitionFailure ↔
    (∃ t, inner = .error (.invalidTransition t)) ∨ ∃ r, inner = .ok r ∧ r.IsTransitionFailure

theorem conclude_eq (b : Backend) (inner : Except SandboxError RunResult) (wallTime : Duration) :
    b.conclude inner wallTime =
      { b.handed inner wallTime with state := (b.handed inner wallTime).exit.terminalState } := by
  cases inner with
  | ok r => exact conclude_ok r
  | error e => exact conclude_error e

theorem isTransitionFailure_ofFailure_iff {e : SandboxError} :
    (RunResult.ofFailure b e wallTime).IsTransitionFailure ↔ ∃ t, e = .invalidTransition t := by
  rw [← SandboxError.message_eq_invalidTransition_iff]
  exact exists_congr fun t => by simp [RunResult.ofFailure, RunResult.aborted]

/-- A failure tells of a step that is not allowed only if it was that failure from the start. -/
theorem isTransitionFailure_handed_iff : (b.handed inner wallTime).IsTransitionFailure ↔
    (∃ t, inner = .error (.invalidTransition t)) ∨ ∃ r, inner = .ok r ∧ r.IsTransitionFailure := by
  cases inner with
  | ok r =>
    constructor
    · exact fun h => .inr ⟨r, rfl, h⟩
    · rintro (⟨t, ht⟩ | ⟨r', hr', h⟩)
      · cases ht
      · cases hr'
        exact h
  | error e =>
    have htold : (b.handed (.error e) wallTime).IsTransitionFailure ↔ ∃ t, e = .invalidTransition t :=
      isTransitionFailure_ofFailure_iff
    constructor
    · intro h
      obtain ⟨t, rfl⟩ := htold.mp h
      exact .inl ⟨t, rfl⟩
    · rintro (⟨t, ht⟩ | ⟨r, hr, -⟩)
      · cases ht
        exact htold.mpr ⟨t, rfl⟩
      · cases hr

theorem seals_conclude (b : Backend) (inner : Except SandboxError RunResult) (wallTime : Duration) :
    b.Seals inner wallTime (b.conclude inner wallTime) := by
  have hterminal := (b.handed inner wallTime).exit.isTerminal_terminalState
  have hcompleted (e : Exit) : e.terminalState = .completed ↔ e = .ok := by cases e <;> decide
  rw [conclude_eq]
  exact
    { granted := ⟨⟨b, .running⟩, ⟨b, (b.handed inner wallTime).exit.terminalState⟩, rfl, if_pos hterminal, rfl⟩
      kept := rfl
      state := rfl
      terminal := hterminal
      usable := by simp [RunResult.isUsable, hcompleted]
      transition := isTransitionFailure_handed_iff }

/-- What comes of a run on a machine, before the end of its life. -/
def outcome (b : Backend) (config : SandboxConfig) (denylist : Denylist) (runner id : String) (machine : Machine)
    (request : Request) : Except SandboxError RunResult :=
  let c := b.command config denylist runner id request
  (watch c (machine c)).map fun w => classify b config w .zero

variable {config : SandboxConfig} {denylist : Denylist} {runner id : String} {machine : Machine} {request : Request}

theorem seals_execute :
    b.Seals (b.outcome config denylist runner id machine request) .zero
      (b.execute config denylist runner id machine request) :=
  seals_conclude b _ .zero

/-- A machine does not fail by a step that is not allowed. -/
theorem outcome_ne_invalidTransition (t : InvalidTransition) :
    b.outcome config denylist runner id machine request ≠ .error (.invalidTransition t) := by
  intro h
  simp only [outcome] at h
  generalize b.command config denylist runner id request = c at h
  cases hmachine : machine c with
  | notFound | refused | overdue | ended => rw [hmachine] at h; cases h

end Backend

/-- Whatever calls it takes, the life of a run goes the one way through it; whatever a run of a backend comes to, its
result is sealed, and a run on a machine is one of these. -/
theorem Lifecycle.orderly_and_sealed (b : Backend) :
    (∀ calls, Orderly (ofBackend b) [] calls) ∧
      (∀ inner wallTime, b.Seals inner wallTime (b.conclude inner wallTime)) ∧
      ∀ config denylist runner id machine request,
        b.Seals (b.outcome config denylist runner id machine request) .zero
            (b.execute config denylist runner id machine request) ∧
          ∀ t, b.outcome config denylist runner id machine request ≠ .error (.invalidTransition t) := by
  refine ⟨fun calls => ?_, b.seals_conclude, fun _ _ _ _ _ _ => ?_⟩
  · have hready : Progress [] (ofBackend b).state := .untouched
    exact hready.orderly calls
  · exact ⟨Backend.seals_execute, Backend.outcome_ne_invalidTransition⟩

end Vetting
