import Vetting.Analyzer
import Vetting.Child

/-!
Analyzers that are tools of their own: a tool is started once for each source, gets the source as its
input, and writes a JSON document.
-/

namespace Vetting

/-- The form in which a tool reports. -/
inductive ToolFormat
  /-- A list of diagnostics. -/
  | diagnostics
  /-- An object that holds a list of results. -/
  | results
deriving DecidableEq

/-- An analyzer that is run as a program. -/
structure Tool where
  name : String
  program : String
  arguments : List String
  scale : Scale
  format : ToolFormat

namespace Tool

def ruff : Tool where
  name := "ruff"
  program := "ruff"
  arguments := ["check", "--output-format", "json", "--stdin-filename", "snippet.py", "-"]
  scale := ⟨[("style", .info), ("error", .warning), ("security", .error)]⟩
  format := .diagnostics

def bandit : Tool where
  name := "bandit"
  program := "bandit"
  arguments := ["-q", "-f", "json", "-"]
  scale := ⟨[("UNDEFINED", .info), ("LOW", .warning), ("MEDIUM", .error), ("HIGH", .critical)]⟩
  format := .results

def ofKnown : KnownAnalyzer → Tool
  | .ruff => ruff
  | .bandit => bandit

/-! ### Diagnostics -/

/-- One entry of a list of diagnostics. -/
structure Diagnostic where
  code : Option String
  message : String
  location : Option Location

def diagnosticPlace : Json.Shape Location where
  name := "struct RuffLocation"
  start := ⟨0, 0⟩
  fields := [
    .required "row" .usize fun v r => { r with line := v },
    .required "column" .usize fun v r => { r with column := v }]

def diagnosticShape : Json.Shape Diagnostic where
  name := "struct RuffDiagnostic"
  start := ⟨none, "", none⟩
  fields := [
    .nullable "code" .string fun v r => { r with code := v },
    .required "message" .string fun v r => { r with message := v },
    .nullable "location" diagnosticPlace.decoder fun v r => { r with location := v }]

/-- The level of a diagnostic, by its code. -/
def diagnosticLevel : Option String → String
  | none => "error"
  | some code =>
    match code.toList with
    | 'F' :: _ => "error"
    | 'E' :: '9' :: _ => "error"
    | 'S' :: _ => "security"
    | _ => "style"

def diagnosticIssue (d : Diagnostic) : Issue :=
  ⟨diagnosticLevel d.code, d.message, d.code, d.location⟩

/-! ### Results -/

/-- One entry of a list of results. -/
structure Result where
  severity : String
  text : String
  test : Option String
  line : Option Nat
  /-- Counts from 0. -/
  offset : Option Nat

def resultShape : Json.Shape Result where
  name := "struct BanditResult"
  start := ⟨"", "", none, none, none⟩
  fields := [
    .required "issue_severity" .string fun v r => { r with severity := v },
    .required "issue_text" .string fun v r => { r with text := v },
    .nullable "test_id" .string fun v r => { r with test := v },
    .nullable "line_number" .usize fun v r => { r with line := v },
    .nullable "col_offset" .usize fun v r => { r with offset := v }]

def reportShape : Json.Shape (List Result) where
  name := "struct BanditReport"
  start := []
  fields := [.defaulted "results" (.list resultShape.decoder) fun v _ => v]

/-- The column at an offset that counts from 0; columns are words of 64 bits. -/
def columnAt (offset : Nat) : Nat := (offset + 1) % UInt64.size

def resultIssue (r : Result) : Issue :=
  ⟨r.severity, r.text, r.test, r.line.map fun line => ⟨line, columnAt (r.offset.getD 0)⟩⟩

/-! ### Running a tool -/

/-- The issues in what a tool wrote. -/
def issuesOfText (format : ToolFormat) (text : String) : Except AnalyzerError (List Issue) :=
  match format with
  | .diagnostics =>
    ((Json.Decoder.list diagnosticShape.decoder).ofText text).mapError
      (fun e => .unreadable e.message) |>.map (·.map diagnosticIssue)
  | .results =>
    (reportShape.decoder.ofText text).mapError
      (fun e => .unreadable e.message) |>.map (·.map resultIssue)

/-- What comes of a tool that was started. A tool may report issues and fail at the same time; only one
that writes nothing is judged by the way it ended. -/
def issuesOfLaunch (t : Tool) : Launch → Except AnalyzerError (List Issue)
  | .notFound => .error (.notAvailable t.program)
  | .refused reason => .error (.notRun reason)
  | .overdue => .error (.notRun "deadline has elapsed")
  | .ended child =>
    let stdout := Text.ofUtf8 child.stdout
    if stdout.all Text.isBlank then
      if child.status.isSuccess then .ok []
      else .error (.failed child.status.render
        (String.ofList (Text.trim (Text.ofUtf8 child.stderr))))
    else issuesOfText t.format (String.ofList stdout)

/-- The tool as an analyzer on a machine that starts programs on an input, and takes some time for it. -/
def analyzer (t : Tool) (machine : Tool → String → Launch × Option Duration) : Analyzer where
  name := t.name
  scale := t.scale
  reply source :=
    let (launch, delay) := machine t source
    ⟨match t.issuesOfLaunch launch with
      | .ok found => .issues found
      | .error e => .failure e, delay⟩

end Tool

end Vetting
