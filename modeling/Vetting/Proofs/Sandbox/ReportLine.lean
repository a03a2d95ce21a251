import Vetting.Sandbox.ReportLine
import Vetting.Proofs.Execution.RoundTrip
import Vetting.Proofs.Json.Printable
import Vetting.Proofs.Json.Truncation
import Vetting.Proofs.Sandbox.Forgery

/-!
# Room for reports

What becomes of the line with which a run that called nothing reports itself, when only so many bytes of it are kept.
The line is plain text, so its bytes are its characters; a document that was kept whole gives back the report, and one
that breaks off gives none. How long the line is depends on what the captured streams hold: a byte of theirs takes up
to six.

* `QuietReport.classify_bytes`: which reports reach the result of a run, and for which limits all of them do.
-/

namespace Vetting

open Json

/-! ### Texts -/

/-- Of characters that are bytes, the bytes are read as the characters. -/
theorem Text.ofUtf8_ascii {text : List Char} (h : ∀ c ∈ text, c.toNat < 128) :
    ofUtf8 (text.map fun c => c.toNat.toUInt8) = text := by
  have hfrom : ∀ seen, decodeFrom seen (text.map fun c => c.toNat.toUInt8) = seen.reverse ++ text := by
    induction text with
    | nil =>
      intro seen
      rw [List.map_nil, decodeFrom, List.append_nil]
    | cons c rest ih =>
      obtain ⟨hc, hrest⟩ := List.forall_mem_cons.mp h
      intro seen
      have hvalue : c.toNat.toUInt8.toNat = c.toNat := Nat.mod_eq_of_lt (Nat.lt_trans hc (by decide))
      have hsmall : c.toNat.toUInt8 < 0x80 := by
        rw [UInt8.lt_iff_toNat_lt, hvalue]
        exact hc
      have hfirst (bytes : List UInt8) : firstChar c.toNat.toUInt8 bytes = (c, 0) := by
        rw [firstChar, if_pos hsmall, hvalue, Char.ofNat_toNat]
      rw [List.map_cons, decodeFrom, hfirst]
      change decodeFrom (c :: seen) (rest.map fun c => c.toNat.toUInt8) = _
      rw [ih hrest, List.reverse_cons, List.append_assoc]
      rfl
  exact hfrom []

theorem Json.Ascii.written_orNull {f : α → List Char} {g : α → Json} (h : ∀ a, Written (f a) (g a)) (o : Option α) :
    Written (orNull f o) (Parameter.orNull g o) := by
  cases o with
  | none => exact written_null
  | some a => exact h a

/-- A marked line that nothing ends. -/
theorem InnerReport.ofStdout?_open {part : List Char} (h : '\n' ∉ part) :
    ofStdout? ('\n' :: (sentinel ++ part)) = (shape.decoder.ofText (String.ofList part)).toOption := by
  have hlines : Text.lines ([] ++ '\n' :: (sentinel ++ part)) = [[], sentinel ++ part] := by
    rw [Text.lines_append, Text.lines, Text.splitAtLineFeeds_of_not_mem (newline_not_mem_marked h)]
    rfl
  have hlast : IsLastDocument ('\n' :: (sentinel ++ part)) part := ⟨[[]], [], hlines, fun _ h => absurd h List.not_mem_nil⟩
  rw [ofStdout?, lastMarked?_eq_some_iff.mpr hlast, Option.bind_some]

namespace QuietReport

variable (r : QuietReport)

/-! ### The document -/

/-- The values of the fields. -/
def values : List (String × Json) := [
  ("status", .str r.status.name), ("stdout", .str r.stdout), ("stderr", .str r.stderr),
  ("output_truncated", .bool r.outputTruncated), ("return_value", .null), ("exception", .null), ("signature", .null),
  ("entry_point_found", Parameter.orNull .bool r.entryPointFound), ("calls", .arr []),
  ("peak_memory_bytes", Parameter.orNull (fun n => .int n.toNat) r.peakMemoryBytes),
  ("cpu_seconds", .float r.cpuSeconds.value), ("violations", .arr [])]

theorem written_fields : WrittenFields r.fields r.values := by
  unfold fields values
  exact .cons ⟨rfl, Ascii.written_quote _⟩ <|
    .cons ⟨rfl, Ascii.written_quote _⟩ <|
    .cons ⟨rfl, Ascii.written_quote _⟩ <|
    .cons ⟨rfl, Ascii.written_bool _⟩ <|
    .cons ⟨rfl, Ascii.written_null⟩ <|
    .cons ⟨rfl, Ascii.written_null⟩ <|
    .cons ⟨rfl, Ascii.written_null⟩ <|
    .cons ⟨rfl, Ascii.written_orNull Ascii.written_bool _⟩ <|
    .cons ⟨rfl, Ascii.written_nil⟩ <|
    .cons ⟨rfl, Ascii.written_orNull (fun n => Ascii.written_nat n.toNat_lt) _⟩ <|
    .cons ⟨rfl, Ascii.written_numeral _⟩ <|
    .cons ⟨rfl, Ascii.written_nil⟩ .nil

/-- What holds of each kind of value holds of each field. -/
theorem forall_fields {p : List Char → Prop} (hquote : ∀ s, p (Ascii.quote s)) (hbool : ∀ b, p (Ascii.bool b))
    (hnat : ∀ n : UInt64, p (Ascii.nat n.toNat)) (hnumeral : ∀ n : Ascii.Numeral, p n.text) (hnull : p "null".toList)
    (hnil : p "[]".toList) : ∀ f ∈ r.fields, p f.2 := by
  have hfound : p (Ascii.orNull Ascii.bool r.entryPointFound) := by
    cases r.entryPointFound with
    | none => exact hnull
    | some b => exact hbool b
  have hpeak : p (Ascii.orNull (fun n => Ascii.nat n.toNat) r.peakMemoryBytes) := by
    cases r.peakMemoryBytes with
    | none => exact hnull
    | some n => exact hnat n
  unfold fields
  simp only [List.forall_mem_cons, hquote, hbool, hnumeral, hnull, hnil, hfound, hpeak, true_and]
  exact fun _ h => absurd h List.not_mem_nil

theorem consumed_fields : ∀ f ∈ r.fields, Consumed f.2 :=
  r.forall_fields Ascii.consumed_quote Ascii.consumed_bool (fun n => Ascii.consumed_nat n.toNat_lt)
    Ascii.consumed_numeral Ascii.consumed_null Ascii.consumed_nil

theorem printable_document : Ascii.Printable r.document :=
  Ascii.printable_object <| r.forall_fields Ascii.printable_quote Ascii.printable_bool
    (fun n => Ascii.printable_nat n.toNat) Ascii.printable_numeral Ascii.printable_null Ascii.printable_brackets

theorem reads_values : InnerReport.shape.decoder.Reads (.obj r.values) r.report := by
  have hstatus : InnerStatus.choices.lookup r.status.name = some r.status := by cases r.status <;> rfl
  have hpeak : (Decoder.optional .u64).Reads (Parameter.orNull (fun n : UInt64 => .int n.toNat) r.peakMemoryBytes)
      (r.peakMemoryBytes.map UInt64.toNat) := by
    cases r.peakMemoryBytes with
    | none => exact Decoder.reads_optional_null .u64
    | some n => exact (Decoder.reads_u64 n.toNat_lt).optional fun h => Json.noConfusion h
  have hempty {α : Type} (d : Decoder α) : d.list.Reads (.arr []) [] := by
    intro levels hlevels
    simp only [toDoc, toDocs, Decoder.list, enterLevel_eq hlevels]
    rfl
  exact Shape.reads (by decide) <|
    .required (Decoder.reads_variant hstatus) <|
    .defaulted (Decoder.reads_string r.stdout) <|
    .defaulted (Decoder.reads_string r.stderr) <|
    .defaulted (Decoder.reads_bool r.outputTruncated) <|
    .nullable (Decoder.reads_optional_null _) <|
    .nullable (Decoder.reads_optional_null _) <|
    .nullable (Decoder.reads_optional_null _) <|
    .nullable (Parameter.reads_orNull_of_forall r.entryPointFound Decoder.reads_bool fun _ h => Json.noConfusion h) <|
    .defaulted (hempty _) <|
    .nullable hpeak <|
    .defaulted ((Decoder.reads_f64 r.cpuSeconds.value).optional fun h => Json.noConfusion h) <|
    .defaulted (hempty _) .done

/-- A whole document is read as the report. -/
theorem ofText_document : InnerReport.shape.decoder.ofText (String.ofList r.document) = .ok r.report := by
  have hdepth : (Json.obj r.values).depth = 2 := by
    unfold values
    cases r.entryPointFound <;> cases r.peakMemoryBytes <;> rfl
  exact Ascii.ofText_object r.written_fields r.reads_values (hdepth.trans_lt (by decide))

/-- A document that breaks off is not read. -/
theorem ofText_part {part : List Char} (h : part <+: r.document) (hne : part ≠ r.document) :
    ∃ e, InnerReport.shape.decoder.ofText (String.ofList part) = .error e := by
  have hfields : ∀ field ∈ InnerReport.shape.fields, field.read.RefusesBroken := by
    simp only [InnerReport.shape, List.forall_mem_cons]
    exact ⟨(Decoder.refusesBroken_variant _).map _, Decoder.refusesBroken_string.map _,
      Decoder.refusesBroken_string.map _, Decoder.refusesBroken_bool.map _, Decoder.refusesBroken_any.optional.map _,
      (Shape.refusesBroken _).optional.map _, (Shape.refusesBroken _).optional.map _,
      Decoder.refusesBroken_bool.optional.map _, (Decoder.refusesBroken_list _).map _,
      ((Decoder.refusesBroken_intIn _ _ _).map _).optional.map _, Decoder.refusesBroken_f64.optional.map _,
      (Decoder.refusesBroken_list _).map _, fun _ h => absurd h List.not_mem_nil⟩
  exact Ascii.ofText_part hfields r.written_fields r.consumed_fields h hne

/-! ### The line -/

theorem newline_not_mem_document : '\n' ∉ r.document := fun h => absurd (r.printable_document _ h).1 (by decide)

theorem dropCarriageReturn_document : Text.dropCarriageReturn r.document = r.document := by
  have hlast : ∀ rest, r.document.reverse ≠ '\r' :: rest := by
    intro rest heq
    have hmem : '\r' ∈ r.document := List.mem_reverse.mp (heq ▸ List.mem_cons_self)
    exact absurd (r.printable_document _ hmem).1 (by decide)
  rw [Text.dropCarriageReturn]
  split
  case h_1 heq => exact absurd heq (hlast _)
  case h_2 => rfl

theorem ofStdout?_line : InnerReport.ofStdout? r.line = some r.report := by
  have hline : r.line = InnerReport.joined [] r.document [] := by
    rw [line, InnerReport.joined, List.append_assoc]
    rfl
  have hnone : InnerReport.Unmarked [] := fun _ h => absurd h List.not_mem_nil
  rw [hline, InnerReport.ofStdout?_of_joined r.newline_not_mem_document hnone, InnerReport.ofDocument,
    r.dropCarriageReturn_document, r.ofText_document]
  rfl

/-- A report is read as long as no more of its line is lost than its end, and nothing is read when more is lost. -/
theorem ofStdout?_take {cap : Nat} (h : InnerReport.sentinel.length < cap) :
    InnerReport.ofStdout? (r.line.take cap) = if r.line.length ≤ cap + 1 then some r.report else none := by
  obtain ⟨n, rfl⟩ : ∃ n, cap = InnerReport.sentinel.length + n + 1 := ⟨cap - 1 - InnerReport.sentinel.length, by omega⟩
  have htake : r.line.take (InnerReport.sentinel.length + n + 1) =
      '\n' :: (InnerReport.sentinel ++ (r.document ++ ['\n']).take n) := by
    rw [line, List.take_succ_cons, List.take_length_add_append]
  have hlength : r.line.length = InnerReport.sentinel.length + r.document.length + 2 := by
    simp only [line, List.length_cons, List.length_append, List.length_nil]
    omega
  obtain hn | hn := Nat.lt_or_ge r.document.length n
  · have hwhole : r.line.take (InnerReport.sentinel.length + n + 1) = r.line := List.take_of_length_le (by omega)
    rw [hwhole, r.ofStdout?_line, if_pos (by omega)]
  · rw [htake, List.take_append_of_le_length hn]
    have hpart : '\n' ∉ r.document.take n := fun hmem => r.newline_not_mem_document (List.mem_of_mem_take hmem)
    rw [InnerReport.ofStdout?_open hpart]
    obtain hn | rfl := Nat.lt_or_eq_of_le hn
    · have hne : r.document.take n ≠ r.document := by
        intro heq
        have := congrArg List.length heq
        rw [List.length_take] at this
        omega
      obtain ⟨e, he⟩ := r.ofText_part (List.take_prefix n r.document) hne
      rw [he, if_neg (by omega)]
      rfl
    · rw [List.take_length, r.ofText_document, if_pos (by omega)]
      rfl

/-! ### Bytes -/

theorem stdoutText_ofChild (cap : Nat) (status : ExitStatus) (stderr : List UInt8) :
    (Watched.ofChild cap ⟨status, r.bytes, stderr⟩).stdoutText = r.line.take cap := by
  have hline : ∀ c ∈ r.line, c.toNat < 128 := by
    have hprintable {text : List Char} (h : Ascii.Printable text) : ∀ c ∈ text, c.toNat < 128 := fun c hc =>
      Nat.lt_trans (h c hc).2 (by decide)
    have hmark := hprintable (Ascii.printable_of_all (show InnerReport.sentinel.all _ = true by decide))
    have hend : ∀ c ∈ ['\n'], c.toNat < 128 := List.forall_mem_singleton.mpr (by decide)
    exact List.forall_mem_cons.mpr ⟨by decide, List.forall_mem_append.mpr
      ⟨hmark, List.forall_mem_append.mpr ⟨hprintable r.printable_document, hend⟩⟩⟩
  have hbytes : r.bytes.take cap = (r.line.take cap).map fun c => c.toNat.toUInt8 := List.map_take.symm
  rw [Watched.stdoutText, Watched.ofChild, hbytes]
  exact Text.ofUtf8_ascii fun c hc => hline c (List.mem_of_mem_take hc)

/-- The same report about other streams. -/
def withStreams (out err : String) : QuietReport := { r with stdout := out, stderr := err }

/-- The characters of the streams add to a report without them. -/
theorem length_bytes (out err : String) :
    (r.withStreams out err).bytes.length =
      (r.withStreams "" "").bytes.length + (Ascii.chars out).length + (Ascii.chars err).length := by
  have hnone : Ascii.chars "" = [] := rfl
  simp only [bytes, line, document, fields, withStreams, Ascii.object, Ascii.moreFields, Ascii.field, Ascii.quote,
    List.length_map, List.length_cons, List.length_append, List.length_nil, List.flatMap_cons, List.flatMap_nil, hnone]
  omega

/-! ### Room -/

/-- A mark fits what is kept of a stream. -/
theorem sentinel_lt_reportReadCap (config : SandboxConfig) : InnerReport.sentinel.length < config.reportReadCap := by
  have hmark : InnerReport.sentinel.length = 18 := by decide
  simp only [SandboxConfig.reportReadCap, SandboxConfig.maxBytes, UInt64.size]
  omega

theorem ofStdout?_ofChild (config : SandboxConfig) (status : ExitStatus) (stderr : List UInt8) :
    InnerReport.ofStdout? (Watched.ofChild config.reportReadCap ⟨status, r.bytes, stderr⟩).stdoutText =
      if r.bytes.length ≤ config.reportReadCap + 1 then some r.report else none := by
  rw [stdoutText_ofChild, r.ofStdout?_take (sentinel_lt_reportReadCap config), bytes, List.length_map]

/-- Twelve times the limit may be needed, and eight times the limit and a mebibyte are kept. -/
theorem forall_fits_iff (config : SandboxConfig) :
    (∀ out err, (Text.bytes out).length ≤ config.outputLimitBytes → (Text.bytes err).length ≤ config.outputLimitBytes →
        (r.withStreams out err).bytes.length ≤ config.reportReadCap) ↔
      4 * config.outputLimitBytes + (r.withStreams "" "").bytes.length ≤ 1024 * 1024 := by
  have hcap : (12 * config.outputLimitBytes + (r.withStreams "" "").bytes.length ≤ config.reportReadCap) ↔
      4 * config.outputLimitBytes + (r.withStreams "" "").bytes.length ≤ 1024 * 1024 := by
    simp only [SandboxConfig.reportReadCap, SandboxConfig.maxBytes, UInt64.size]
    omega
  rw [← hcap]
  constructor
  · intro h
    have hworst := h (Ascii.hidden config.outputLimitBytes) (Ascii.hidden config.outputLimitBytes)
      (Ascii.length_bytes_hidden _).le (Ascii.length_bytes_hidden _).le
    rw [length_bytes, Ascii.length_chars_hidden] at hworst
    omega
  · intro h out err hout herr
    have hout' := Ascii.length_chars_le out
    have herr' := Ascii.length_chars_le err
    rw [length_bytes]
    omega

/-- **When a report reaches the result.** Of a run that ends well, the report reaches the result if no more of its line
is lost than the end: the result has the exit that belongs to the status, and the captured streams. If more is lost, the
run counts as one without a report. Every pair of streams within the limit leaves the line whole exactly if four times
the limit and what the report needs without streams fit a mebibyte. -/
theorem classify_bytes (b : Backend) (config : SandboxConfig) (stderr : List UInt8) (wallTime : Duration) :
    let w := Watched.ofChild config.reportReadCap ⟨.code 0, r.bytes, stderr⟩
    let result := classify b config w wallTime
    (r.bytes.length ≤ config.reportReadCap + 1 →
        result = reportedResult b w r.report wallTime ∧ result.exit = r.status.exit ∧ result.stdout = r.stdout ∧
          result.stderr = r.stderr) ∧
      (config.reportReadCap + 1 < r.bytes.length → result = silentResult b w wallTime) ∧
      ((∀ out err, (Text.bytes out).length ≤ config.outputLimitBytes →
          (Text.bytes err).length ≤ config.outputLimitBytes →
          (r.withStreams out err).bytes.length ≤ config.reportReadCap) ↔
        4 * config.outputLimitBytes + (r.withStreams "" "").bytes.length ≤ 1024 * 1024) := by
  intro w result
  have htime : ¬ w.IsOverdue := by
    unfold Watched.IsOverdue
    simp [w, Watched.ofChild]
  have hread := r.ofStdout?_ofChild config (.code 0) stderr
  refine ⟨fun h => ?_, fun h => ?_, r.forall_fits_iff config⟩
  · rw [if_pos h] at hread
    have hresult : result = reportedResult b w r.report wallTime := classify_of_reports ⟨htime, hread⟩
    refine ⟨hresult, ?_, ?_, ?_⟩
    · have hexit : result.exit =
          if r.report.exit = .ok && w.status ≠ some (.code 0) then .runtimeError else r.report.exit := by
        rw [hresult]
        rfl
      rw [hexit, if_neg (by simp [w, Watched.ofChild])]
      rfl
    · rw [hresult]
      rfl
    · rw [hresult]
      rfl
  · rw [if_neg (Nat.not_le.mpr h)] at hread
    exact classify_of_silent htime hread

/-- A limit of a quarter of a mebibyte is too much for two streams of characters that do not show, and enough for short
ones. -/
theorem classify_bytes_hidden :
    let config : SandboxConfig := { outputLimitBytes := 262144 }
    let seconds : Ascii.Numeral :=
      ⟨['0'], ['5'], [], List.all_eq_true.mp rfl, .inl rfl, by decide, .inl (List.cons_ne_nil _ _)⟩
    let r : QuietReport := ⟨.ok, "", "", false, none, none, seconds⟩
    let full := r.withStreams (Ascii.hidden 262144) (Ascii.hidden 262144)
    let w (r : QuietReport) := Watched.ofChild config.reportReadCap ⟨.code 0, r.bytes, []⟩
    r.bytes.length ≤ config.reportReadCap + 1 ∧ (classify .subprocess config (w r) .zero).exit = .ok ∧
      config.reportReadCap + 1 < full.bytes.length ∧
      classify .subprocess config (w full) .zero = silentResult .subprocess (w full) .zero := by
  intro config seconds r full w
  have hframe : r.bytes.length = 256 := by decide +kernel
  have hcap : config.reportReadCap = 3145728 := by decide
  have hfits : r.bytes.length ≤ config.reportReadCap + 1 := by omega
  have hfull : config.reportReadCap + 1 < full.bytes.length := by
    rw [length_bytes, Ascii.length_chars_hidden]
    have hnone : r.withStreams "" "" = r := rfl
    rw [hnone]
    omega
  exact ⟨hfits, ((r.classify_bytes .subprocess config [] .zero).1 hfits).2.1, hfull,
    (full.classify_bytes .subprocess config [] .zero).2.1 hfull⟩

end QuietReport

end Vetting
