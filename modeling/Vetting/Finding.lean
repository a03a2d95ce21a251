import Vetting.Json.Decode

/-!
Findings: what a stage has to say about the code, how serious it is and where it was seen.
-/

namespace Vetting

/-- How serious a finding is; the constructors stand in rising order. -/
inductive Severity
  | info
  | warning
  | error
  | critical
deriving DecidableEq

namespace Severity

/-- All severities, lowest first. -/
def all : List Severity := [.info, .warning, .error, .critical]

/-- The place in the rising order. -/
def rank : Severity → Nat
  | .info => 0
  | .warning => 1
  | .error => 2
  | .critical => 3

instance : LE Severity := ⟨fun a b => a.rank ≤ b.rank⟩
instance : LT Severity := ⟨fun a b => a.rank < b.rank⟩
instance (a b : Severity) : Decidable (a ≤ b) := inferInstanceAs (Decidable (a.rank ≤ b.rank))
instance (a b : Severity) : Decidable (a < b) := inferInstanceAs (Decidable (a.rank < b.rank))

theorem le_refl (s : Severity) : s ≤ s := Nat.le_refl s.rank

theorem le_trans {a b c : Severity} (hab : a ≤ b) (hbc : b ≤ c) : a ≤ c := Nat.le_trans hab hbc

theorem le_critical (s : Severity) : s ≤ critical := by
  cases s <;> decide

def label : Severity → String
  | .info => "INFO"
  | .warning => "WARNING"
  | .error => "ERROR"
  | .critical => "CRITICAL"

/-- What a finding of this severity adds to a report's score. -/
def weight : Severity → Nat
  | .info => 0
  | .warning => 1
  | .error => 5
  | .critical => 25

/-- The higher of two severities. -/
def max (a b : Severity) : Severity := if a ≤ b then b else a

/-- The highest of several severities. -/
def maximum : List Severity → Option Severity
  | [] => none
  | s :: rest => some (rest.foldl max s)

theorem max_eq_or (a b : Severity) : max a b = a ∨ max a b = b := by
  unfold max
  split
  · exact .inr rfl
  · exact .inl rfl

theorem le_max (a b : Severity) : a ≤ max a b ∧ b ≤ max a b := by
  cases a <;> cases b <;> decide

theorem foldl_max_mem (s : Severity) (rest : List Severity) : rest.foldl max s ∈ s :: rest := by
  induction rest generalizing s with
  | nil => exact List.mem_singleton_self s
  | cons t rest ih =>
    obtain h | h := List.mem_cons.mp (ih (max s t))
    · rw [List.foldl_cons, h]
      obtain hm | hm := max_eq_or s t <;> simp [hm]
    · exact List.mem_cons_of_mem _ (List.mem_cons_of_mem _ h)

theorem le_foldl_max {s t : Severity} {rest : List Severity} (h : t ∈ s :: rest) : t ≤ rest.foldl max s := by
  induction rest generalizing s t with
  | nil =>
    rw [List.mem_singleton.mp h]
    exact le_refl s
  | cons u rest ih =>
    have hmax : max s u ≤ rest.foldl max (max s u) := ih List.mem_cons_self
    obtain ⟨hs, hu⟩ := le_max s u
    rw [List.foldl_cons]
    obtain rfl | h := List.mem_cons.mp h
    · exact le_trans hs hmax
    · obtain rfl | h := List.mem_cons.mp h
      · exact le_trans hu hmax
      · exact ih (List.mem_cons_of_mem _ h)

def toJson (s : Severity) : Json := .str s.label

def decoder : Json.Decoder Severity := .variant (all.map fun s => (s.label, s))

end Severity

/-- A place in the source text; lines and columns count from 1, columns in bytes. -/
structure Location where
  line : Nat
  column : Nat
deriving DecidableEq

namespace Location

/-- The place at a row and column that count from 0. -/
def ofZeroBased (row column : Nat) : Location := ⟨row + 1, column + 1⟩

/-- Line by line, and column by column within a line. -/
def compare (a b : Location) : Ordering :=
  (Ord.compare a.line b.line).then (Ord.compare a.column b.column)

def render (l : Location) : String := toString l.line ++ ":" ++ toString l.column

def toJson (l : Location) : Json := .obj [("line", .int l.line), ("column", .int l.column)]

def shape : Json.Shape Location where
  name := "struct SourceLocation"
  start := ⟨0, 0⟩
  fields := [
    .required "line" .usize fun v r => { r with line := v },
    .required "column" .usize fun v r => { r with column := v }]

end Location

/-- One issue that a stage reports. -/
structure Finding where
  severity : Severity
  message : String
  location : Option Location
  code : Option String
deriving DecidableEq

namespace Finding

/-- A finding with a code but no place. -/
def coded (severity : Severity) (code message : String) : Finding := ⟨severity, message, none, some code⟩

/-- A finding with a code and a place. -/
def placed (severity : Severity) (code message : String) (location : Location) : Finding :=
  ⟨severity, message, some location, some code⟩

/-- One line: severity, then place and code if there are any, then the message. -/
def render (f : Finding) : String :=
  "[" ++ f.severity.label ++ "]"
    ++ (match f.location with | some l => " " ++ l.render | none => "")
    ++ (match f.code with | some c => " " ++ c ++ ":" | none => "")
    ++ " " ++ f.message

/-- A field that is left out when there is nothing to say. -/
def fieldIfSome (name : String) : Option Json → List (String × Json)
  | some v => [(name, v)]
  | none => []

def toJson (f : Finding) : Json :=
  .obj ([("severity", f.severity.toJson), ("message", .str f.message)]
    ++ fieldIfSome "location" (f.location.map Location.toJson)
    ++ fieldIfSome "code" (f.code.map .str))

def shape : Json.Shape Finding where
  name := "struct Finding"
  start := ⟨.info, "", none, none⟩
  fields := [
    .required "severity" Severity.decoder fun v r => { r with severity := v },
    .required "message" .string fun v r => { r with message := v },
    .nullable "location" Location.shape.decoder fun v r => { r with location := v },
    .nullable "code" .string fun v r => { r with code := v }]

end Finding

/-- The highest severity among findings. -/
def maxSeverity (findings : List Finding) : Option Severity :=
  Severity.maximum (findings.map (·.severity))

theorem maxSeverity_eq_none_iff {findings : List Finding} : maxSeverity findings = none ↔ findings = [] := by
  cases findings <;> simp [maxSeverity, Severity.maximum]

/-- The highest severity is that of a finding, and no finding has a higher one. -/
theorem of_maxSeverity_eq_some {findings : List Finding} {s : Severity} (h : maxSeverity findings = some s) :
    (∃ f ∈ findings, f.severity = s) ∧ ∀ f ∈ findings, f.severity ≤ s := by
  cases findings with
  | nil => cases h
  | cons g rest =>
    have hs : s = (rest.map (·.severity)).foldl Severity.max g.severity := (Option.some.inj h).symm
    constructor
    · have hmem := Severity.foldl_max_mem g.severity (rest.map (·.severity))
      rw [← hs, ← List.map_cons] at hmem
      obtain ⟨f, hf, hfs⟩ := List.mem_map.mp hmem
      exact ⟨f, hf, hfs⟩
    · intro f hf
      rw [hs]
      apply Severity.le_foldl_max
      rw [← List.map_cons]
      exact List.mem_map_of_mem hf

end Vetting
