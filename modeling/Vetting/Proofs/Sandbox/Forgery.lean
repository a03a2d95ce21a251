import Vetting.Proofs.Sandbox.Clean

/-!
# Forged reports

The code under test can write lines that look like reports. Only the last line behind the mark counts, so what was
written before it has no influence, whether it holds reports or not, and there is no way back to an earlier line when
the last one holds no report.

* `Text.lines_joined`: the lines of a text around one that stands between line feeds.
* `InnerReport.ofStdout?_joined`: what is read depends on the last marked line alone.
-/

namespace Vetting

theorem Text.lines_joined (before after : List Char) {line : List Char} (h : '\n' ∉ line) :
    lines (before ++ '\n' :: (line ++ '\n' :: after)) =
      (splitAtLineFeeds before).map dropCarriageReturn ++ dropCarriageReturn line :: lines after := by
  rw [lines_append, lines_append, splitAtLineFeeds_of_not_mem h]
  rfl

namespace InnerReport

/-- No line starts with the mark. -/
def Unmarked (text : List Char) : Prop := ∀ line ∈ Text.lines text, ¬ sentinel <+: line

/-- What is read behind the mark, when a line ends with this document. -/
def ofDocument (document : List Char) : Except Json.DecodeError InnerReport :=
  shape.decoder.ofText (String.ofList (Text.dropCarriageReturn document))

/-- A text in which a marked line stands between two others. -/
def joined (before document after : List Char) : List Char :=
  before ++ '\n' :: ((sentinel ++ document) ++ '\n' :: after)

variable {p q r : List Char}

theorem dropCarriageReturn_marked (document : List Char) :
    Text.dropCarriageReturn (sentinel ++ document) = sentinel ++ Text.dropCarriageReturn document := by
  cases document with
  | nil => rfl
  | cons c rest => exact Text.dropCarriageReturn_append sentinel (List.cons_ne_nil c rest)

theorem newline_not_mem_marked (h : '\n' ∉ r) : '\n' ∉ sentinel ++ r := by
  intro hmem
  rcases List.mem_append.mp hmem with hmem | hmem
  · exact absurd hmem (by decide)
  · exact h hmem

theorem isLastDocument_joined (hr : '\n' ∉ r) (hq : Unmarked q) :
    IsLastDocument (joined p r q) (Text.dropCarriageReturn r) := by
  refine ⟨(Text.splitAtLineFeeds p).map Text.dropCarriageReturn, Text.lines q, ?_, hq⟩
  rw [joined, Text.lines_joined p q (newline_not_mem_marked hr), dropCarriageReturn_marked]

theorem ofStdout?_of_joined (hr : '\n' ∉ r) (hq : Unmarked q) :
    ofStdout? (joined p r q) = (ofDocument r).toOption := by
  rw [ofStdout?, lastMarked?_eq_some_iff.mpr (isLastDocument_joined hr hq), Option.bind_some, ofDocument]

theorem ofStdout?_of_unmarked {text : List Char} (h : Unmarked text) : ofStdout? text = none := by
  cases hmarked : lastMarked? text with
  | none => rw [ofStdout?, hmarked, Option.bind_none]
  | some document =>
    obtain ⟨before, after, hlines, -⟩ := lastMarked?_eq_some_iff.mp hmarked
    have hline : sentinel ++ document ∈ Text.lines text := by
      rw [hlines]
      exact List.mem_append_right _ List.mem_cons_self
    exact absurd (List.prefix_append sentinel document) (h _ hline)

/-- **Only the last marked line counts.** Behind any text `p`, a marked line with the document `r` gives the report that
`r` decodes to, or none if it does not decode, as long as no line of the text `q` behind it has the mark. Two such texts
with the same document agree. A text without marked lines gives none. -/
theorem ofStdout?_joined (hr : '\n' ∉ r) (hq : Unmarked q) :
    (∀ report, ofStdout? (joined p r q) = some report ↔ ofDocument r = .ok report) ∧
      (ofStdout? (joined p r q) = none ↔ ∃ e, ofDocument r = .error e) ∧
      (∀ p' q', Unmarked q' → ofStdout? (joined p' r q') = ofStdout? (joined p r q)) ∧
      ∀ text, Unmarked text → ofStdout? text = none := by
  have hread := ofStdout?_of_joined (p := p) hr hq
  refine ⟨fun report => ?_, ?_, fun p' q' hq' => ?_, fun text => ofStdout?_of_unmarked⟩
  · rw [hread]
    cases ofDocument r <;> simp [Except.toOption]
  · rw [hread]
    cases ofDocument r <;> simp [Except.toOption]
  · rw [hread, ofStdout?_of_joined hr hq']

/-- A complete report that was written in advance helps neither against a last report that tells of a violation nor
against one that cannot be read. -/
theorem ofStdout?_joined_forged :
    let forged := "__SANDBOX_RESULT__\x7b\"status\":\"ok\"\x7d".toList
    let caught := "\x7b\"status\":\"ok\",\"violations\":[\"os\"]\x7d\r".toList
    let broken := "\x7b\"status\":".toList
    let behind := "bye\n __SANDBOX_RESULT__".toList
    (ofStdout? forged).isSome = true ∧ '\n' ∉ caught ∧ '\n' ∉ broken ∧ Unmarked behind ∧
      (∃ report, ofStdout? (joined forged caught behind) = some report ∧ report.violations = ["os"]) ∧
      ofStdout? (joined forged broken behind) = none := by
  intro forged caught broken behind
  have hcaught : '\n' ∉ caught := by decide
  have hbroken : '\n' ∉ broken := by decide
  have hbehind : Unmarked behind := by
    unfold Unmarked
    decide +kernel
  refine ⟨by decide +kernel, hcaught, hbroken, hbehind, ?_, ?_⟩
  · have h : (ofDocument caught).toOption.map (·.violations) = some ["os"] := by decide +kernel
    cases hread : ofDocument caught with
    | error e =>
      rw [hread] at h
      cases h
    | ok report =>
      rw [hread] at h
      exact ⟨report, ((ofStdout?_joined hcaught hbehind).1 report).mpr hread, Option.some.inj h⟩
  · have h : (ofDocument broken).toOption.isSome = false := by decide +kernel
    cases hread : ofDocument broken with
    | error e => exact (ofStdout?_joined hbroken hbehind).2.1.mpr ⟨e, hread⟩
    | ok report =>
      rw [hread] at h
      cases h

end InnerReport

end Vetting
