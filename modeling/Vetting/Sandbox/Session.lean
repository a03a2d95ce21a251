import Vetting.ResourceGuard

/-!
Sessions: computations that ask for runs in a sandbox and go on with what the runs produced. A session
does not know how runs are made or how long they take; `Session.play` plays it against a sandbox, under
a clock that only the runs move, and tells which runs were asked for and what they gave.
-/

namespace Vetting

/-- What to run: the source, and perhaps a function of it with one argument list for each call. -/
structure Request where
  source : String
  entryPoint : Option String
  inputs : List (List Json)

/-- What a sandbox makes of a request. -/
structure Reply where
  result : RunResult
  /-- The time until the result is there; a run without one never ends. -/
  delay : Option Duration

/-- A sandbox. Its reply to a request may depend on all requests before it, the latest of which comes
first. -/
abbrev Sandbox := List Request → Request → Reply

/-- A computation that asks for runs in a sandbox. -/
inductive Session (α : Type) where
  | finish (value : α)
  | run (request : Request) (next : RunResult → Session α)

namespace Session

/-- One run. -/
def ask (request : Request) : Session RunResult := .run request .finish

protected def bind : Session α → (α → Session β) → Session β
  | .finish a, f => f a
  | .run request next, f => .run request fun r => (next r).bind f

instance : Monad Session where
  pure := .finish
  bind := Session.bind

end Session

/-- What has happened in a sandbox up to now. -/
structure Log where
  /-- The requests, latest first. -/
  requests : List Request
  /-- The results that have come back, latest first. -/
  results : List RunResult
  /-- The time since the start. -/
  elapsed : Duration

def Log.empty : Log := ⟨[], [], .zero⟩

/-- How a session that was played came out. -/
inductive Played (α : Type)
  | finished (value : α)
  /-- The deadline came while a run was going on. -/
  | cancelled
  /-- A run never ends, and there is no deadline. -/
  | stuck

namespace Session

/-- Plays a session. A run that is over when the deadline comes still counts. -/
def play (sandbox : Sandbox) (deadline : Option Duration) : Session α → Log → Played α × Log
  | .finish a, log => (.finished a, log)
  | .run request next, log =>
    let reply := sandbox log.requests request
    let requests := request :: log.requests
    match reply.delay, deadline with
    | none, none => (.stuck, { log with requests := requests })
    | none, some limit => (.cancelled, ⟨requests, log.results, limit⟩)
    | some delay, none =>
      (next reply.result).play sandbox deadline
        ⟨requests, reply.result :: log.results, log.elapsed.saturatingAdd delay⟩
    | some delay, some limit =>
      let finish := log.elapsed.saturatingAdd delay
      if finish ≤ limit then
        (next reply.result).play sandbox deadline ⟨requests, reply.result :: log.results, finish⟩
      else (.cancelled, ⟨requests, log.results, limit⟩)

end Session

end Vetting
