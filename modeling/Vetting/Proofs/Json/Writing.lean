import Vetting.Proofs.Json.Numbers
import Vetting.Proofs.Json.Reading

/-!
# What is written in ASCII is read back

`Json.Written` says of a text that it is read as a value, whatever follows that ends a value in an object.
-/

namespace Vetting.Json

/-! ### Texts -/

/-- Where every character is read back in one step, a text is read to its end. -/
theorem readText_flatMap {escape : Char → List Char}
    (hescape : ∀ c fuel seen rest, readText (fuel + 1) seen none (escape c ++ rest) = readText fuel (c :: seen) none rest)
    (s : String) {fuel : Nat} {rest : List Char} (h : s.toList.length < fuel) :
    readText fuel [] none (s.toList.flatMap escape ++ '"' :: rest) = .ok (.ok s, rest) := by
  have hfrom : ∀ (text : List Char) (fuel : Nat) (seen : List Char), text.length < fuel →
      readText fuel seen none (text.flatMap escape ++ '"' :: rest) =
        .ok (.ok (String.ofList (seen.reverse ++ text)), rest) := by
    intro text
    induction text with
    | nil =>
      intro fuel seen hfuel
      cases fuel with
      | zero => exact absurd hfuel (Nat.not_lt_zero _)
      | succ fuel => simp [readText]
    | cons c text ih =>
      intro fuel seen hfuel
      cases fuel with
      | zero => exact absurd hfuel (Nat.not_lt_zero _)
      | succ fuel =>
        rw [List.flatMap_cons, List.append_assoc, hescape, ih fuel (c :: seen) (Nat.lt_of_succ_lt_succ hfuel),
          List.reverse_cons, List.append_assoc]
        rfl
  rw [hfrom _ _ _ h, List.reverse_nil, List.nil_append, String.ofList_toList]

theorem hexValue?_hexDigit : ∀ n < 16, hexValue? (hexDigit n) = some n := by decide

theorem isLeadingSurrogate_iff {n : Nat} : isLeadingSurrogate n = true ↔ 0xD800 ≤ n ∧ n ≤ 0xDBFF := by
  simp only [isLeadingSurrogate, Bool.and_eq_true, decide_eq_true_eq]

theorem isTrailingSurrogate_iff {n : Nat} : isTrailingSurrogate n = true ↔ 0xDC00 ≤ n ∧ n ≤ 0xDFFF := by
  simp only [isTrailingSurrogate, Bool.and_eq_true, decide_eq_true_eq]

namespace Ascii

theorem hexUnit_fourDigits {n : Nat} (h : n < 0x10000) (rest : List Char) :
    hexUnit (fourDigits n ++ rest) = .ok (n, rest) := by
  have hdigit (m : Nat) : hexValue? (hexDigit (m % 16)) = some (m % 16) :=
    hexValue?_hexDigit _ (Nat.mod_lt m (by decide))
  have hvalue : ((n / 4096 % 16 * 16 + n / 256 % 16) * 16 + n / 16 % 16) * 16 + n % 16 = n := by omega
  simp only [fourDigits, List.cons_append, List.nil_append, hexUnit, hdigit, hvalue]

theorem unicodeEscape_unit {n : Nat} (h : n < 0xD800 ∨ 0xDFFF < n ∧ n < 0x10000) (rest : List Char) :
    unicodeEscape (fourDigits n ++ rest) = .ok (.ok (Char.ofNat n), rest) := by
  have hlead : isLeadingSurrogate n = false := Bool.eq_false_iff.mpr (mt isLeadingSurrogate_iff.mp (by omega))
  have htrail : isTrailingSurrogate n = false := Bool.eq_false_iff.mpr (mt isTrailingSurrogate_iff.mp (by omega))
  simp only [unicodeEscape, hexUnit_fourDigits (show n < 0x10000 by omega), bind, Except.bind, hlead, htrail]
  rfl

theorem completePair_unit {second : Nat} (h : isTrailingSurrogate second = true) (first : Nat) (rest : List Char) :
    completePair first (unit second ++ rest) =
      (.ok (Char.ofNat (0x10000 + (first - 0xD800) * 0x400 + (second - 0xDC00))), rest) := by
  have hrange := isTrailingSurrogate_iff.mp h
  simp only [completePair, unit, List.cons_append, hexUnit_fourDigits (show second < 0x10000 by omega), h, if_true]

/-- Behind a leading surrogate, everything depends on what completes it. -/
theorem unicodeEscape_leading {first : Nat} (h : isLeadingSurrogate first = true) (text : List Char) :
    unicodeEscape (fourDigits first ++ text) = .ok (completePair first text) := by
  have hrange := isLeadingSurrogate_iff.mp h
  have hnot : isTrailingSurrogate first = false := Bool.eq_false_iff.mpr (mt isTrailingSurrogate_iff.mp (by omega))
  simp only [unicodeEscape, hexUnit_fourDigits (show first < 0x10000 by omega), bind, Except.bind, h, hnot]
  rfl

/-- A character that stands for itself. -/
theorem readText_plain {c : Char} (hquote : c ≠ '"') (hslash : c ≠ '\\') (hshown : 32 ≤ c.toNat) (fuel : Nat)
    (seen rest : List Char) : readText (fuel + 1) seen none (c :: rest) = readText fuel (c :: seen) none rest := by
  rw [readText.eq_def]
  simp [hslash, Nat.not_lt.mpr hshown]

theorem readText_unicode {c : Char} {text rest : List Char} (h : unicodeEscape text = .ok (.ok c, rest)) (fuel : Nat)
    (seen : List Char) :
    readText (fuel + 1) seen none ('\\' :: 'u' :: text) = readText fuel (c :: seen) none rest := by
  simp only [readText, h]

theorem isLeadingSurrogate_first {c : Char} (h : ¬ c.toNat < 0x10000) :
    isLeadingSurrogate (0xD800 + (c.toNat - 0x10000) / 0x400) = true := by
  have hvalid : c.toNat < 0xD800 ∨ 0xDFFF < c.toNat ∧ c.toNat < 0x110000 := c.valid
  exact isLeadingSurrogate_iff.mpr (by omega)

/-- Every character is read back in one step. -/
theorem readText_char (c : Char) (fuel : Nat) (seen rest : List Char) :
    readText (fuel + 1) seen none (char c ++ rest) = readText fuel (c :: seen) none rest := by
  have hvalid : c.toNat < 0xD800 ∨ 0xDFFF < c.toNat ∧ c.toNat < 0x110000 := c.valid
  fun_cases char c
  case case6 h =>
    obtain rfl : c = Char.ofNat 8 := by rw [← h, Char.ofNat_toNat]
    rfl
  case case7 h =>
    obtain rfl : c = Char.ofNat 12 := by rw [← h, Char.ofNat_toNat]
    rfl
  case case8 hquote hslash _ _ _ _ _ h =>
    rw [Bool.and_eq_true, decide_eq_true_eq, decide_eq_true_eq] at h
    exact readText_plain hquote hslash h.1 fuel seen rest
  case case9 h =>
    have hread := unicodeEscape_unit (show c.toNat < 0xD800 ∨ 0xDFFF < c.toNat ∧ c.toNat < 0x10000 by omega) rest
    rw [Char.ofNat_toNat] at hread
    exact readText_unicode hread fuel seen
  case case10 h =>
    have htrail : isTrailingSurrogate (0xDC00 + (c.toNat - 0x10000) % 0x400) = true :=
      isTrailingSurrogate_iff.mpr (by omega)
    have hcode : 0x10000 + (0xD800 + (c.toNat - 0x10000) / 0x400 - 0xD800) * 0x400
        + (0xDC00 + (c.toNat - 0x10000) % 0x400 - 0xDC00) = c.toNat := by omega
    have hread := unicodeEscape_leading (isLeadingSurrogate_first h)
      (unit (0xDC00 + (c.toNat - 0x10000) % 0x400) ++ rest)
    rw [completePair_unit htrail, hcode, Char.ofNat_toNat] at hread
    rw [List.append_assoc]
    exact readText_unicode hread fuel seen
  -- the five other escapes
  all_goals
    subst_vars
    rfl

theorem readText_quote (s : String) {fuel : Nat} {rest : List Char} (h : s.toList.length < fuel) :
    readText fuel [] none (chars s ++ '"' :: rest) = .ok (.ok s, rest) := readText_flatMap readText_char s h

end Ascii

/-! ### Values and objects -/

/-- A text is read as a value where a field of an object ends behind it. -/
def Written (text : List Char) (v : Json) : Prop :=
  ∀ fuel rest, text.length ≤ fuel → EndsValue rest → readValue fuel (text ++ rest) = (v.toDoc, some rest)

/-- Keys with texts are keys with the values that the texts are read as. -/
def WrittenFields (fields : List (String × List Char)) (values : List (String × Json)) : Prop :=
  List.Forall₂ (fun f v => f.1 = v.1 ∧ Written f.2 v.2) fields values

theorem skipBlanks_cons {c : Char} (h : isBlank c = false) (rest : List Char) : skipBlanks (c :: rest) = c :: rest :=
  List.dropWhile_cons_of_neg (by simp [h])

namespace Ascii

/-- How a character is written. -/
theorem char_cases (c : Char) :
    (∃ d, char c = ['\\', d]) ∨ char c = [c] ∨ (∃ n, char c = unit n) ∨
      ∃ first second, isLeadingSurrogate first = true ∧ char c = unit first ++ unit second := by
  fun_cases char c
  case case8 => exact .inr (.inl rfl)
  case case9 => exact .inr (.inr (.inl ⟨_, rfl⟩))
  case case10 h => exact .inr (.inr (.inr ⟨_, _, isLeadingSurrogate_first h, rfl⟩))
  all_goals exact .inl ⟨_, rfl⟩

theorem char_ne_nil (c : Char) : char c ≠ [] := by
  obtain ⟨d, hc⟩ | hc | ⟨n, hc⟩ | ⟨first, second, -, hc⟩ := char_cases c <;>
  · rw [hc]
    exact List.cons_ne_nil _ _

theorem length_le_length_chars (s : String) : s.toList.length ≤ (chars s).length := by
  rw [chars]
  induction s.toList with
  | nil => exact Nat.le_refl _
  | cons c rest ih =>
    have hpos := List.length_pos_iff.mpr (char_ne_nil c)
    rw [List.flatMap_cons, List.length_append, List.length_cons]
    omega

theorem written_quote (s : String) : Written (quote s) (.str s) := by
  intro fuel rest hfuel hrest
  cases fuel with
  | zero => exact absurd hfuel (Nat.not_succ_le_zero _)
  | succ fuel =>
    have hlength : s.toList.length < (chars s ++ '"' :: rest).length + 1 := by
      have := length_le_length_chars s
      rw [List.length_append]
      omega
    simp only [quote, List.cons_append, List.append_assoc, List.nil_append, readValue,
      skipBlanks_cons (show isBlank '"' = false by decide), readText_quote s hlength]
    rfl

theorem written_null : Written "null".toList .null := by
  intro fuel rest hfuel hrest
  cases fuel with
  | zero => exact absurd hfuel (by decide)
  | succ fuel => rfl

theorem written_bool (b : Bool) : Written (bool b) (.bool b) := by
  intro fuel rest hfuel hrest
  cases fuel with
  | zero => cases b <;> exact absurd hfuel (by decide)
  | succ fuel => cases b <;> rfl

theorem written_nil : Written "[]".toList (.arr []) := by
  intro fuel rest hfuel hrest
  match fuel with
  | 0 | 1 => exact absurd hfuel (by decide)
  | fuel + 2 => rfl

theorem isBlank_of_isDigit {c : Char} (h : isDigit c = true) : isBlank c = false := by
  rw [Bool.eq_false_iff]
  intro hblank
  simp only [isBlank, Bool.or_eq_true, decide_eq_true_eq] at hblank
  obtain ((rfl | rfl) | rfl) | rfl := hblank <;> exact absurd h (by decide)

/-- A text that starts with a digit is read as a number. -/
theorem readValue_digit {c : Char} (h : isDigit c = true) (fuel : Nat) (rest : List Char) :
    readValue (fuel + 1) (c :: rest) = readValue.numeric (readNumber false (c :: rest)) := by
  rw [readValue, skipBlanks_cons (isBlank_of_isDigit h)]
  split
  case h_1 heq => cases heq
  case h_9 heq =>
    cases heq
    rw [if_pos h]
  all_goals
    next heq =>
      cases heq
      exact absurd h (by decide)

theorem written_nat {n : Nat} (h : n < UInt64.size) : Written (nat n) (.int n) := by
  intro fuel rest hfuel hrest
  have hread := readNumber_digits (Nat.le_sub_one_of_lt h) (.inr hrest)
  obtain ⟨d, more, hd, hdigits⟩ := Text.exists_digits_eq n
  change readValue fuel (Text.digits n ++ rest) = _
  change (Text.digits n).length ≤ fuel at hfuel
  rw [hdigits] at hread hfuel ⊢
  cases fuel with
  | zero => exact absurd hfuel (Nat.not_succ_le_zero _)
  | succ fuel =>
    change readValue (fuel + 1) (Nat.digitChar d :: (more ++ rest)) = _
    rw [readValue_digit (isDigit_digitChar d hd), ← List.cons_append, hread]
    rfl

theorem Numeral.exists_text_eq (n : Numeral) : ∃ c rest, n.text = c :: rest ∧ isDigit c = true := by
  have hdigit := n.isDigit_whole
  unfold text
  cases hwhole : n.whole with
  | nil =>
    obtain h | ⟨c, rest, h, -⟩ := n.leading <;>
    · rw [hwhole] at h
      cases h
  | cons c rest => exact ⟨c, _, rfl, hdigit c (by rw [hwhole]; exact List.mem_cons_self)⟩

theorem written_numeral (n : Numeral) : Written n.text (.float n.value) := by
  intro fuel rest hfuel hrest
  have hread := n.readNumber_text (.inr hrest)
  obtain ⟨c, more, htext, hc⟩ := n.exists_text_eq
  rw [n.doc_eq, htext] at hread
  rw [htext] at hfuel ⊢
  cases fuel with
  | zero => exact absurd hfuel (Nat.not_succ_le_zero _)
  | succ fuel =>
    change readValue (fuel + 1) (c :: (more ++ rest)) = _
    rw [readValue_digit hc, ← List.cons_append, hread]
    rfl

theorem readValue_blank (fuel : Nat) (text : List Char) : readValue fuel (' ' :: text) = readValue fuel text := by
  cases fuel with
  | zero => rfl
  | succ fuel =>
    have hskip : skipBlanks (' ' :: text) = skipBlanks text := rfl
    rw [readValue, readValue, hskip]

variable {f : String × List Char} {v : Json} {fields : List (String × List Char)} {values : List (String × Json)}

/-- The first field of an object. -/
theorem readFields_field (h : Written f.2 v) {fuel : Nat} {rest : List Char} (hfuel : f.2.length ≤ fuel)
    (hrest : EndsValue rest) (seen : List (Except TextError String × Doc)) :
    readFields (fuel + 1) true seen (field f ++ rest) = readFields fuel false ((.ok f.1, v.toDoc) :: seen) rest := by
  have hlength : f.1.toList.length < (chars f.1 ++ '"' :: ':' :: ' ' :: (f.2 ++ rest)).length + 1 := by
    have := length_le_length_chars f.1
    rw [List.length_append]
    omega
  simp only [field, quote, List.cons_append, List.append_assoc, List.nil_append, readFields,
    skipBlanks_cons (show isBlank '"' = false by decide), if_true, readText_quote f.1 hlength,
    skipBlanks_cons (show isBlank ':' = false by decide), readValue_blank, h fuel rest hfuel hrest]

/-- A field behind others is read like the first one. -/
theorem readFields_comma (fuel : Nat) (seen : List (Except TextError String × Doc)) (f : String × List Char)
    (rest : List Char) :
    readFields (fuel + 1) false seen (',' :: ' ' :: (field f ++ rest)) =
      readFields (fuel + 1) true seen (field f ++ rest) := rfl

theorem length_field (f : String × List Char) : (field f).length = (quote f.1).length + 2 + f.2.length := by
  simp only [field, List.length_append, List.length_cons]
  omega

theorem endsValue_moreFields (fields : List (String × List Char)) (rest : List Char) :
    EndsValue (moreFields fields ++ '\x7d' :: rest) := by
  cases fields with
  | nil => exact ⟨rest, .inr rfl⟩
  | cons f more => exact ⟨_, .inl rfl⟩

theorem readFields_moreFields (h : WrittenFields fields values) :
    ∀ {fuel : Nat} (seen : List (Except TextError String × Doc)) (rest : List Char), (moreFields fields).length < fuel →
      readFields fuel false seen (moreFields fields ++ '\x7d' :: rest) =
        (.map (seen.reverse ++ toDocFields values) none, some rest) := by
  induction h with
  | nil =>
    intro fuel seen rest hfuel
    cases fuel with
    | zero => exact absurd hfuel (Nat.not_lt_zero _)
    | succ fuel =>
      rw [toDocFields, List.append_nil]
      rfl
  | @cons f v fields values hfv _ ih =>
    obtain ⟨key, v⟩ := v
    intro fuel seen rest hfuel
    cases fuel with
    | zero => exact absurd hfuel (Nat.not_lt_zero _)
    | succ fuel =>
      obtain ⟨hname, hwritten⟩ := hfv
      have htext : moreFields (f :: fields) ++ '\x7d' :: rest =
          ',' :: ' ' :: (field f ++ (moreFields fields ++ '\x7d' :: rest)) := by
        simp only [moreFields, List.flatMap_cons, List.cons_append, List.append_assoc]
      have hlength : (moreFields (f :: fields)).length = (field f).length + 2 + (moreFields fields).length := by
        simp only [moreFields, List.flatMap_cons, List.length_append, List.length_cons]
      have hvalue := length_field f
      rw [htext, readFields_comma, readFields_field hwritten (by omega) (endsValue_moreFields fields rest),
        ih _ rest (by omega), List.reverse_cons, List.append_assoc, hname]
      rfl

/-- An object is read to its end, whatever follows it. -/
theorem readValue_object (h : WrittenFields fields values) {fuel : Nat}
    (hfuel : (object fields).length ≤ fuel) (rest : List Char) :
    readValue fuel (object fields ++ rest) = ((Json.obj values).toDoc, some rest) := by
  cases h with
  | nil =>
    match fuel with
    | 0 | 1 => exact absurd hfuel (by decide)
    | fuel + 2 => rfl
  | @cons f v fields values hfv hmore =>
    obtain ⟨key, v⟩ := v
    obtain ⟨hname, hwritten⟩ := hfv
    have hlength : (object (f :: fields)).length = (field f).length + (moreFields fields).length + 2 := by
      simp only [object, List.length_append, List.length_cons, List.length_nil]
      omega
    have hvalue := length_field f
    have htext : object (f :: fields) ++ rest = '\x7b' :: (field f ++ (moreFields fields ++ '\x7d' :: rest)) := by
      simp only [object, List.cons_append, List.append_assoc, List.nil_append]
    obtain ⟨fuel, rfl⟩ : ∃ m, fuel = m + 2 := ⟨fuel - 2, by omega⟩
    have hread : readValue (fuel + 2) (object (f :: fields) ++ rest) =
        readFields (fuel + 1) true [] (field f ++ (moreFields fields ++ '\x7d' :: rest)) := by
      rw [htext]
      rfl
    rw [hread, readFields_field hwritten (by omega) (endsValue_moreFields fields rest),
      readFields_moreFields hmore _ rest (by omega), hname]
    rfl

/-- Of a written object is read what is read of its values. -/
theorem ofText_object {d : Decoder α} {a : α}
    (h : WrittenFields fields values) (hread : d.Reads (.obj values) a)
    (hdepth : (Json.obj values).depth < startLevels) : d.ofText (String.ofList (object fields)) = .ok a := by
  have hvalue := readValue_object h (show (object fields).length ≤ 2 * (object fields).length + 2 by omega) []
  rw [List.append_nil] at hvalue
  have hdocument : Document.ofText (String.ofList (object fields)) = ⟨(Json.obj values).toDoc, false⟩ := by
    simp only [Document.ofText, String.toList_ofList, hvalue]
    rfl
  simp only [Decoder.ofText, hdocument, hread startLevels hdepth]
  rfl

end Ascii

end Vetting.Json
