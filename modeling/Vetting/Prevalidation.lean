import Vetting.Config
import Vetting.Python.Program
import Vetting.Screening
import Vetting.Text.Lines

/-!
The first stage: the source is read as a program, measured, and screened with the denylist. A source that
is no program gives one finding and nothing else. The stage works with any readers (`scanWith`, `runWith`) and is an
error where their grammar cannot be set up; `scan` and `run` are the stage with the readers of this library.
-/

namespace Vetting.Prevalidation

/-- The code of the finding for a source that is no program. -/
def syntaxErrorCode : String := "syntax-error"

def syntaxFinding (r : Python.Rejection) : Finding :=
  ⟨.critical, r.message, r.place?, some syntaxErrorCode⟩

/-- The findings for a source that is too long. -/
def limitFindings (limits : PrevalidationConfig) (source : List Char) : List Finding :=
  let lineCount := (Text.lines source).length
  (if limits.maxCodeLength < source.length then
    [.coded limits.limitSeverity "code-too-long" ("source is " ++ toString source.length
      ++ " characters long, limit is " ++ toString limits.maxCodeLength)]
  else [])
  ++ (if limits.maxLines < lineCount then
    [.coded limits.limitSeverity "too-many-lines" ("source has " ++ toString lineCount
      ++ " lines, limit is " ++ toString limits.maxLines)]
  else [])

section

variable (readers : Python.Readers) (denylist : Denylist) (limits : PrevalidationConfig)

/-- What is found in a source whose readers are set up. -/
def findingsOf (source : List Char) : List Finding :=
  match readers.read source with
  | .error r => [syntaxFinding r]
  | .ok root => limitFindings limits source ++ Screening.findings denylist root

/-- What is found in a source, or why the grammar is not there. -/
def scanWith (source : List Char) : Except String (List Finding) := do
  readers.load
  return findingsOf readers denylist limits source

/-- The result of the stage. -/
def runWith (threshold : Severity) (source : List Char) : StageResult :=
  match scanWith readers denylist limits source with
  | .ok found => .ofFindings .prevalidation found threshold .zero
  | .error reason =>
    .errored .prevalidation [⟨.critical, "python grammar unavailable: " ++ reason, none, none⟩] .zero

end

section

variable {readers : Python.Readers} {denylist : Denylist} {limits : PrevalidationConfig} {threshold : Severity}
  {source : List Char}

theorem findingsOf_of_error {r : Python.Rejection} (h : readers.read source = .error r) :
    findingsOf readers denylist limits source = [syntaxFinding r] := by
  simp only [findingsOf, h]

theorem findingsOf_of_ok {root : Python.Node} (h : readers.read source = .ok root) :
    findingsOf readers denylist limits source = limitFindings limits source ++ Screening.findings denylist root := by
  simp only [findingsOf, h]

theorem scanWith_of_load (h : readers.load = .ok ()) :
    scanWith readers denylist limits source = .ok (findingsOf readers denylist limits source) := by
  rw [scanWith, h]
  rfl

theorem scanWith_of_load_error (h : readers.load = .error reason) :
    scanWith readers denylist limits source = .error reason := by
  rw [scanWith, h]
  rfl

theorem runWith_of_load (h : readers.load = .ok ()) :
    runWith readers denylist limits threshold source =
      .ofFindings .prevalidation (findingsOf readers denylist limits source) threshold .zero := by
  simp only [runWith, scanWith_of_load h]

theorem runWith_of_load_error (h : readers.load = .error reason) :
    runWith readers denylist limits threshold source =
      .errored .prevalidation [⟨.critical, "python grammar unavailable: " ++ reason, none, none⟩] .zero := by
  simp only [runWith, scanWith_of_load_error h]

end

/-- What the readers of this library find in a source. -/
def scan (denylist : Denylist) (limits : PrevalidationConfig) (source : List Char) : List Finding :=
  findingsOf .standard denylist limits source

/-- The result of the stage with the readers of this library, whose grammar is always there. -/
def run (denylist : Denylist) (limits : PrevalidationConfig) (threshold : Severity)
    (source : List Char) : StageResult :=
  runWith .standard denylist limits threshold source

theorem run_eq {denylist : Denylist} {limits : PrevalidationConfig} {threshold : Severity} {source : List Char} :
    run denylist limits threshold source = .ofFindings .prevalidation (scan denylist limits source) threshold .zero :=
  runWith_of_load rfl

/-- Whether a result says that the source is no program. -/
def isSyntaxFailure (r : StageResult) : Bool :=
  r.findings.any fun f => f.code = some syntaxErrorCode

end Vetting.Prevalidation
