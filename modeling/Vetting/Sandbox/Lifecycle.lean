import Vetting.Execution

/-!
The life of a sandbox run: it is ready, then running, then in one terminal state.
-/

namespace Vetting

/-- The state of a run of some backend. -/
structure Lifecycle where
  backend : Backend
  state : RunState
deriving DecidableEq

/-- A step that the state of a run does not allow. -/
structure InvalidTransition where
  source : RunState
  target : RunState
deriving DecidableEq

def InvalidTransition.message (t : InvalidTransition) : String :=
  "invalid sandbox transition " ++ t.source.title ++ " -> " ++ t.target.title

namespace Lifecycle

def ofBackend (backend : Backend) : Lifecycle := ⟨backend, .ready⟩

/-- Whether a state may follow another. -/
def allows : RunState → RunState → Bool
  | .ready, .running => true
  | .running, next => next.isTerminal
  | _, _ => false

def transition (l : Lifecycle) (target : RunState) : Except InvalidTransition Lifecycle :=
  if allows l.state target then .ok { l with state := target } else .error ⟨l.state, target⟩

def start (l : Lifecycle) : Except InvalidTransition Lifecycle := l.transition .running

/-- Ends the run in the terminal state of the way it ended. -/
def finish (l : Lifecycle) (exit : Exit) : Except InvalidTransition Lifecycle :=
  l.transition exit.terminalState

end Lifecycle

end Vetting
