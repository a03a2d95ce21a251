import Vetting.Analyzer.Scale
import Vetting.Config
import Vetting.Text.Escaped

/-!
Static analyzers and the stage that runs them. All start at the same time; each has its own limit, and
there is a limit for all of them. What goes wrong with one of them is a warning and never more.
-/

namespace Vetting

/-- Why an analyzer has nothing to report. -/
inductive AnalyzerError
  /-- The tool is not installed. -/
  | notAvailable (tool : String)
  /-- The tool could not be run. -/
  | notRun (reason : String)
  /-- The tool ended without output to go by. -/
  | failed (status stderr : String)
  /-- The output of the tool cannot be read. -/
  | unreadable (cause : String)
deriving DecidableEq

def AnalyzerError.message : AnalyzerError → String
  | .notAvailable tool => "analyzer tool '" ++ tool ++ "' is not available"
  | .notRun reason => "failed to run analyzer: " ++ reason
  | .failed status stderr => "analyzer exited with " ++ status ++ ": " ++ stderr
  | .unreadable cause => "unparsable analyzer output: " ++ cause

/-- One issue, with the level that the analyzer gives it. -/
structure Issue where
  level : String
  message : String
  code : Option String
  location : Option Location
deriving DecidableEq

/-- What an analyzer comes to. -/
inductive AnalyzerOutcome
  | issues (found : List Issue)
  | failure (error : AnalyzerError)
  /-- The analyzer itself broke down. -/
  | crash (message : String)
deriving DecidableEq

/-- The outcome of an analyzer on a source, and when it is there. -/
structure AnalyzerReply where
  outcome : AnalyzerOutcome
  /-- The time that the analyzer takes; one without never ends. -/
  delay : Option Duration

/-- A static analyzer. -/
structure Analyzer where
  name : String
  scale : Scale
  reply : String → AnalyzerReply

namespace Analyzer

/-- An issue as a finding. -/
def issueFinding (a : Analyzer) (i : Issue) : Finding where
  severity := a.scale.severityOf i.level
  message := a.name ++ ": " ++ i.message
  location := i.location
  code := some (match i.code with
    | some code => a.name ++ ":" ++ code
    | none => a.name)

def about (a : Analyzer) (what : String) : String := "analyzer '" ++ a.name ++ "' " ++ what

/-- The findings of an analyzer that ended. A task that broke down has no number of its own; the letter
N stands in its place. -/
def outcomeFindings (a : Analyzer) : AnalyzerOutcome → List Finding
  | .issues found => found.map a.issueFinding
  | .failure e => [.coded .warning "analyzer-crash" (a.about ("failed: " ++ e.message))]
  | .crash message =>
    [.coded .warning "analyzer-crash"
      (a.about ("crashed: task N panicked with message " ++ Text.quoted message))]

/-- Seconds with one decimal. -/
def limitText (d : Duration) : String := d.toSeconds.fixedText 1 ++ "s"

end Analyzer

/-- What the stage has found up to some time. -/
structure Analysis where
  findings : List Finding
  /-- The time since all analyzers were started. -/
  duration : Duration
  /-- Whether every analyzer was done before the limit for all of them. -/
  isComplete : Bool

namespace Analysis

/-! ### Limits -/

/-- The first time that the clock cannot hold: its seconds are whole numbers of 63 bits. -/
def clockEnd : Duration := .ofSecs (UInt64.size / 2)

/-- A reading of the clock. A day later the clock still goes. -/
structure Clock where
  /-- The time since the clock was started. -/
  reading : Duration
  room : reading.nanos + Duration.oneDay.nanos < clockEnd.nanos

/-- A clock that has just been started. -/
def Clock.fresh : Clock := ⟨.zero, by decide⟩

/-- Whether the clock can hold the time that is a wait behind a reading. -/
def Clock.Holds (clock : Clock) (wait : Duration) : Prop := clock.reading.nanos + wait.nanos < clockEnd.nanos

instance (clock : Clock) (wait : Duration) : Decidable (clock.Holds wait) :=
  inferInstanceAs (Decidable (_ < _))

theorem Clock.holds_of_le_oneDay (clock : Clock) {wait : Duration} (h : wait ≤ .oneDay) : clock.Holds wait :=
  Nat.lt_of_le_of_lt (Nat.add_le_add_left h _) clock.room

/-- The limits of an analysis: for each analyzer, and for all of them. -/
structure Limits where
  each : Duration
  overall : Duration
  /-- The clock when the stage begins to wait. -/
  clock : Clock := .fresh

/-- The limits of a configuration. They are at most a day, so what the clock reads does not matter. -/
def Limits.ofConfig (c : StaticAnalysisConfig) : Limits where
  each := c.perAnalyzerTimeout
  overall := c.overallTimeout

/-- How long the stage waits for all analyzers. A day stands for a limit whose end the clock cannot hold. -/
def Limits.deadline (limits : Limits) : Duration :=
  if limits.clock.Holds limits.overall then limits.overall else .oneDay

theorem Limits.deadline_of_le_oneDay {limits : Limits} (h : limits.overall ≤ .oneDay) :
    limits.deadline = limits.overall :=
  if_pos (limits.clock.holds_of_le_oneDay h)

/-! ### Tasks -/

/-- How the task of an analyzer ends. -/
inductive TaskEnd
  /-- The analyzer has come to an outcome. -/
  | outcome (o : AnalyzerOutcome)
  /-- The analyzer has reached its own limit. -/
  | overdue
deriving DecidableEq

/-- An analyzer that was started, how this ends, and when. -/
structure Task where
  analyzer : Analyzer
  ending : TaskEnd
  endsAt : Duration

/-- Starts an analyzer under its own limit. An outcome that is there when the limit comes still counts. -/
def start (limits : Limits) (a : Analyzer) (reply : AnalyzerReply) : Task :=
  match reply.delay with
  | some d => if d ≤ limits.each then ⟨a, .outcome reply.outcome, d⟩ else ⟨a, .overdue, limits.each⟩
  | none => ⟨a, .overdue, limits.each⟩

/-- What is found by a task that has ended. -/
def Task.findings (limits : Limits) (t : Task) : List Finding :=
  match t.ending with
  | .outcome o => t.analyzer.outcomeFindings o
  | .overdue =>
    [.coded .warning "analyzer-timeout" (t.analyzer.about ("timed out after "
      ++ Analyzer.limitText limits.each))]

/-- What is found by a task that is no longer waited for. -/
def Task.abandoned (limits : Limits) (t : Task) : List Finding :=
  [.coded .warning "analyzer-timeout" (t.analyzer.about ("timed out: overall wait of "
    ++ Analyzer.limitText limits.overall ++ " exceeded"))]

/-! ### Waiting -/

/-- Whether a task has ended by some time. What ends just when the stage stops waiting has not ended by then. -/
def Task.isDone (t : Task) (limits : Limits) (now : Duration) : Bool :=
  decide (t.endsAt ≤ now) && decide (t.endsAt < limits.deadline)

/-- Waits for one task, and takes up what it found. The task is looked at before the clock: one that has ended by now
counts even if no time is left. -/
def join (limits : Limits) (before : Analysis) (t : Task) : Analysis :=
  if t.isDone limits before.duration then
    { before with findings := before.findings ++ t.findings limits }
  else if limits.deadline ≤ before.duration then
    { before with findings := before.findings ++ t.abandoned limits, isComplete := false }
  else if t.endsAt < limits.deadline then
    { before with findings := before.findings ++ t.findings limits, duration := t.endsAt }
  else ⟨before.findings ++ t.abandoned limits, limits.deadline, false⟩

/-- Starts all analyzers at once and waits for one after the other, in the order in which they are given. -/
def run (limits : Limits) (analyzers : List Analyzer) (source : String) : Analysis :=
  if analyzers.isEmpty then
    ⟨[⟨.info, "no static analyzers configured", none, none⟩], .zero, true⟩
  else (analyzers.map fun a => start limits a (a.reply source)).foldl (join limits) ⟨[], .zero, true⟩

/-- The result of the stage. -/
def stageResult (a : Analysis) (threshold : Severity) : StageResult :=
  .ofFindings .staticAnalysis a.findings threshold .zero

/-- Whether the analysis is over when a deadline comes. An analyzer that settles just then comes too late;
the wait for all of them, when it ends just then, is in time. -/
def endsBy (a : Analysis) (deadline : Duration) : Bool :=
  if a.isComplete then decide (a.duration < deadline) else decide (a.duration ≤ deadline)

end Analysis

end Vetting
