import Vetting.Execution
import Vetting.Proofs.Duration.Exchange
import Vetting.Proofs.Json.Reading

/-!
# Results of runs and their documents

A result is read back from its own document (`RunResult.ofJson_toJson_of_isWritable`). What a document cannot tell apart
or hold is excluded by `RunResult.IsWritable`: a returned `null` reads as nothing returned, times longer than two days
may lose nanoseconds, and the objects in a document have their fields in order.

The tagged form of outcomes is read in two passes, the second over what the first has kept of the document
(`CallOutcome.reads_tagged`); everything else is read by the law for records.
-/

namespace Vetting

open Json Json.Decoder

/-! ### Lengths of time -/

theorem Duration.reads_millis {d : Duration} (h : d ≤ twoDays) : millisDecoder.Reads d.millisJson d := by
  refine (reads_f64 _).check ?_
  rw [ofMilliseconds_toMillis h]
  rfl

theorem Duration.reads_seconds {d : Duration} (h : d ≤ twoDays) : secondsDecoder.Reads d.secondsJson d := by
  refine (reads_f64 _).check ?_
  rw [ofSeconds_toSeconds h]
  rfl

/-! ### Choices, and what may be missing -/

theorem Backend.reads_toJson (b : Backend) : decoder.Reads b.toJson b :=
  reads_variant (by cases b <;> rfl)

theorem Exit.reads_toJson (e : Exit) : decoder.Reads e.toJson e :=
  reads_variant (by cases e <;> rfl)

theorem RunState.reads_toJson (s : RunState) : decoder.Reads s.toJson s :=
  reads_variant (by cases s <;> rfl)

namespace Parameter

variable {d : Decoder α} {f : α → Json}

/-- What may be missing is written as `null` then, so nothing else may be. -/
theorem reads_orNull (o : Option α) (h : ∀ a, o = some a → d.Reads (f a) a ∧ f a ≠ .null) :
    d.optional.Reads (orNull f o) o := by
  cases o with
  | none => exact reads_optional_null d
  | some a => exact (h a rfl).1.optional (h a rfl).2

theorem reads_orNull_of_forall (o : Option α) (h : ∀ a, d.Reads (f a) a) (hf : ∀ a, f a ≠ .null) :
    d.optional.Reads (orNull f o) o :=
  reads_orNull o fun a _ => ⟨h a, hf a⟩

theorem reads_orNull_u64 (o : Option Nat) (h : ∀ n, o = some n → n < UInt64.size) :
    (optional .u64).Reads (orNull .int (o >>= fun n => pure (n : Int))) o := by
  cases o with
  | none => exact reads_optional_null .u64
  | some n => exact (reads_u64 (h n rfl)).optional nofun

/-! ### Signatures -/

theorem reads_toJson (p : Parameter) : shape.decoder.Reads p.toJson p :=
  Shape.reads (by decide) <|
    .required (reads_string p.name) <|
    .defaulted (reads_orNull_of_forall p.annotation reads_string nofun) <|
    .required (reads_string p.kind) <|
    .defaulted (reads_bool p.hasDefault) .done

end Parameter

theorem Signature.reads_toJson (s : Signature) : shape.decoder.Reads s.toJson s :=
  Shape.reads (by decide) <|
    .required (reads_list fun p _ => p.reads_toJson) <|
    .defaulted (Parameter.reads_orNull_of_forall s.returns reads_string nofun) .done

/-! ### Exceptions -/

/-- A traceback that is not there has no field at all. -/
theorem ExceptionSummary.reads_toJson (e : ExceptionSummary) : shape.decoder.Reads e.toJson e := by
  obtain ⟨errorType, message, traceback⟩ := e
  refine Shape.reads (by decide) (.required (reads_string errorType) (.required (reads_string message) ?_))
  cases traceback with
  | none => exact .omitted nofun .done
  | some text => exact .defaulted ((reads_string text).optional nofun) .done

/-! ### Outcomes -/

namespace CallOutcome

/-- Fields behind the tag are kept as they are. -/
theorem splitTag_toDocFields {levels : Nat} {tag : Tag} {fields seen : List (String × Json)}
    (hnames : ∀ f ∈ fields, f.1 ≠ "outcome") (ho : OrderedFields fields) (hd : depthFields fields < levels) :
    splitTag levels (toDocFields fields) (some tag) seen = .ok (some tag, seen.reverse ++ fields) := by
  induction fields generalizing seen with
  | nil => rw [List.append_nil]; rfl
  | cons f rest ih =>
    obtain ⟨name, v⟩ := f
    obtain ⟨hname, hrest⟩ := List.forall_mem_cons.mp hnames
    obtain ⟨hv, hdepth⟩ := Nat.max_lt.mp (show max v.depth (depthFields rest) < levels from hd)
    have hread : readAny levels v.toDoc = .ok v := readAny_toDoc v ho.1 hv
    simp only [toDocFields, toDocField, splitTag, textOf, bind, Except.bind, if_neg hname, hread]
    rw [ih hrest ho.2 hdepth, List.reverse_cons, List.append_assoc]
    rfl

/-- An object with a tag is read as what the fields behind the tag are read as. -/
theorem reads_tagged {name : String} (tag : Tag) {fields : List (String × Json)} {o : CallOutcome}
    (htag : tagChoices.lookup name = some tag) (hnames : ∀ f ∈ fields, f.1 ≠ "outcome") (ho : OrderedFields fields)
    (h : (fieldsShape tag).decoder.Reads (.obj fields) o) :
    decoder.Reads (.obj (("outcome", .str name) :: fields)) o := by
  intro levels hd
  have hdepth : depthFields fields + 1 < levels := by
    change max 0 (depthFields fields) + 1 < levels at hd
    rwa [Nat.zero_max] at hd
  have hread : tagDecoder (levels - 1) (.str (.ok name)) = .ok tag :=
    reads_variant htag (levels - 1) (show 0 < levels - 1 by omega)
  have hsplit : splitTag (levels - 1) (toDocFields fields) (some tag) [] = .ok (some tag, fields) :=
    splitTag_toDocFields hnames ho (Nat.lt_sub_of_add_lt hdepth)
  have hlevels : 1 < levels := by omega
  simp only [toDoc, toDocFields, toDocField, decoder, enterLevel_eq hlevels, splitTag, textOf, bind, Except.bind,
    if_true, hread, hsplit, stopReading]
  exact h levels hdepth

theorem reads_toJson (o : CallOutcome) (h : ∀ v, o.value? = some v → v.Ordered) : decoder.Reads o.toJson o := by
  cases o with
  | returned v =>
    refine reads_tagged .returned rfl (by simp) ⟨h v rfl, trivial⟩ (Shape.reads (by decide) ?_)
    exact .required (reads_any (h v rfl)) .done
  | raised errorType message =>
    refine reads_tagged .raised rfl (by simp) ⟨trivial, trivial, trivial⟩ (Shape.reads (by decide) ?_)
    exact .required (reads_string errorType) (.required (reads_string message) .done)

end CallOutcome

/-! ### Whole results -/

namespace RunResult

variable {r : RunResult}

/-- What a document can hold of a result, and tell from other results. -/
structure IsWritable (r : RunResult) : Prop where
  wallTime : r.wallTime ≤ .twoDays
  cpuTime : ∀ d, r.cpuTime = some d → d ≤ .twoDays
  returnValue : ∀ v, r.returnValue = some v → v.Ordered ∧ v ≠ .null
  calls : ∀ o ∈ r.calls, ∀ v, o.value? = some v → v.Ordered
  peakMemoryBytes : ∀ n, r.peakMemoryBytes = some n → n < UInt64.size

theorem reads_toJson (h : r.IsWritable) : shape.decoder.Reads r.toJson r :=
  Shape.reads (by decide) <|
    .required r.backend.reads_toJson <|
    .required r.exit.reads_toJson <|
    .required r.state.reads_toJson <|
    .required (reads_string r.stdout) <|
    .required (reads_string r.stderr) <|
    .required (reads_bool r.outputTruncated) <|
    .nullable (Parameter.reads_orNull r.returnValue fun v hv =>
      ⟨reads_any (h.returnValue v hv).1, (h.returnValue v hv).2⟩) <|
    .nullable (Parameter.reads_orNull_of_forall r.exception ExceptionSummary.reads_toJson nofun) <|
    .nullable (Parameter.reads_orNull_of_forall r.signature Signature.reads_toJson nofun) <|
    .nullable (Parameter.reads_orNull_of_forall r.entryPointFound reads_bool nofun) <|
    .required (reads_list fun o ho => o.reads_toJson (h.calls o ho)) <|
    .required (Duration.reads_millis h.wallTime) <|
    .nullable (Parameter.reads_orNull_u64 r.peakMemoryBytes h.peakMemoryBytes) <|
    .defaulted (Parameter.reads_orNull r.cpuTime fun d hd => ⟨Duration.reads_millis (h.cpuTime d hd), nofun⟩) .done

/-- A result that a document can hold is read back from its own document. -/
theorem ofJson_toJson_of_isWritable (h : r.IsWritable) (hd : r.toJson.depth < startLevels) :
    shape.decoder.ofJson r.toJson = .ok r :=
  (reads_toJson h).ofJson hd

/-- A run that returned an array, with one call that came to an end and one that did not. -/
theorem ofJson_toJson_of_twoDays :
    let r : RunResult :=
      { RunResult.aborted .container .runtimeError ⟨"ValueError", "no", some "line 1"⟩ .twoDays with
        returnValue := some (.arr [.null, .float .zero])
        signature := some ⟨[⟨"x", none, "VAR_POSITIONAL", false⟩], some "int"⟩
        entryPointFound := some true
        calls := [.returned .null, .raised "KeyError" ""]
        peakMemoryBytes := some 0
        cpuTime := some ⟨1⟩ }
    r.IsWritable ∧ r.toJson.depth < startLevels ∧ shape.decoder.ofJson r.toJson = .ok r := by
  intro r
  have hw : r.IsWritable :=
    { wallTime := Nat.le_refl _
      cpuTime := fun d hd => Option.some.inj hd ▸ by decide
      returnValue := fun v hv => Option.some.inj hv ▸ ⟨⟨trivial, trivial, trivial⟩, nofun⟩
      calls := by
        intro o ho v hv
        obtain rfl | ho := List.mem_cons.mp ho
        · cases hv
          trivial
        · cases List.mem_singleton.mp ho
          cases hv
      peakMemoryBytes := fun n hn => Option.some.inj hn ▸ by decide }
  have hd : r.toJson.depth < startLevels := by decide
  exact ⟨hw, hd, ofJson_toJson_of_isWritable hw hd⟩

end RunResult

end Vetting
