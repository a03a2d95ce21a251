import Vetting.Json.Ascii
import Vetting.Proofs.Text.Numerals

/-!
# What is written as a number is read as it

A whole number and a `Numeral` are read back whatever ends them, and a number that does not reach the end of a text is
the same when the text goes on.
-/

namespace Vetting.Json

/-! ### Whole numbers -/

/-- What ends a value in an object. -/
def EndsValue (rest : List Char) : Prop := ∃ more, rest = ',' :: more ∨ rest = '\x7d' :: more

/-- A text shows where characters of one sort end. -/
theorem takeWhile_append_of_head {p : Char → Bool} {s rest : List Char} (h : ∀ c ∈ s, p c = true)
    (hrest : ∀ c ∈ rest.head?, p c = false) :
    (s ++ rest).takeWhile p = s ∧ (s ++ rest).dropWhile p = rest := by
  rw [List.takeWhile_append_of_pos h, List.dropWhile_append_of_pos h]
  cases rest with
  | nil => exact ⟨List.append_nil s, rfl⟩
  | cons c more =>
    have hc := hrest c rfl
    rw [List.takeWhile_cons_of_neg (by simp [hc]), List.dropWhile_cons_of_neg (by simp [hc])]
    exact ⟨List.append_nil s, rfl⟩

theorem takeWhile_digits {ds rest : List Char} (h : ∀ c ∈ ds, isDigit c = true)
    (hrest : ∀ c ∈ rest.head?, isDigit c = false) :
    (ds ++ rest).takeWhile isDigit = ds ∧ (ds ++ rest).dropWhile isDigit = rest := takeWhile_append_of_head h hrest

theorem takeWhile_digits_cons {ds : List Char} {c : Char} (h : ∀ c ∈ ds, isDigit c = true) (hc : isDigit c = false)
    (rest : List Char) :
    (ds ++ c :: rest).takeWhile isDigit = ds ∧ (ds ++ c :: rest).dropWhile isDigit = c :: rest :=
  takeWhile_digits h (by rintro d ⟨⟩; exact hc)

theorem EndsValue.not_digit {rest : List Char} (h : EndsValue rest) : ∀ c ∈ rest.head?, isDigit c = false := by
  obtain ⟨more, rfl | rfl⟩ := h <;> rintro c ⟨⟩ <;> decide

theorem takeSignificand_append {start value : Nat} {ds more : List Char} (h : takeSignificand start ds = (value, [])) :
    takeSignificand start (ds ++ more) = takeSignificand value more := by
  induction ds generalizing start with
  | nil =>
    cases h
    rfl
  | cons c ds ih =>
    rw [takeSignificand] at h
    rw [List.cons_append, takeSignificand]
    split
    case isTrue hlarge =>
      rw [if_pos hlarge] at h
      cases h
    case isFalse hsmall =>
      rw [if_neg hsmall] at h
      exact ih h

/-- The digits of a number that fits 64 bits are its significand. -/
theorem takeSignificand_digits {n : Nat} (h : n ≤ maxSignificand) : takeSignificand 0 (Text.digits n) = (n, []) := by
  have hlast (m d : Nat) (hd : d < 10) (hm : m * 10 + d ≤ maxSignificand) :
      takeSignificand m [Nat.digitChar d] = (m * 10 + d, []) := by
    have hvalue : digitValue (Nat.digitChar d) = d := by
      rw [digitValue, Nat.toNat_digitChar_of_lt_ten hd]
      exact Nat.add_sub_cancel_left 48 d
    rw [takeSignificand, hvalue, if_neg (Nat.not_lt.mpr hm), takeSignificand]
  induction n using Nat.strongRecOn with
  | ind n ih =>
    obtain hn | hn := Nat.lt_or_ge n 10
    · rw [Text.digits_of_lt hn, hlast 0 n hn (by omega), Nat.zero_mul, Nat.zero_add]
    · rw [Text.digits_of_le hn, takeSignificand_append (ih (n / 10) (by omega) (by omega)),
        hlast _ _ (by omega) (by omega)]
      congr 1
      omega

theorem isDigit_digitChar : ∀ d < 10, isDigit (Nat.digitChar d) = true := by decide

theorem isDigit_of_mem_digits {n : Nat} : ∀ c ∈ Text.digits n, isDigit c = true := by
  induction n using Nat.strongRecOn with
  | ind n ih =>
    obtain hn | hn := Nat.lt_or_ge n 10
    · rw [Text.digits_of_lt hn]
      exact List.forall_mem_singleton.mpr (isDigit_digitChar n hn)
    · rw [Text.digits_of_le hn]
      intro c hc
      obtain hc | hc := List.mem_append.mp hc
      · exact ih (n / 10) (by omega) c hc
      · rw [List.mem_singleton.mp hc]
        exact isDigit_digitChar _ (by omega)

/-- Only zero starts with a zero. -/
theorem leading_digits (n : Nat) : Text.digits n = ['0'] ∨ ∃ c rest, Text.digits n = c :: rest ∧ c ≠ '0' := by
  obtain rfl | hpos := Nat.eq_zero_or_pos n
  · exact .inl rfl
  · right
    induction n using Nat.strongRecOn with
    | ind n ih =>
      obtain hn | hn := Nat.lt_or_ge n 10
      · have hne : ∀ d < 10, 0 < d → Nat.digitChar d ≠ '0' := by decide
        exact ⟨_, [], Text.digits_of_lt hn, hne n hn hpos⟩
      · obtain ⟨c, rest, hdigits, hc⟩ := ih (n / 10) (by omega) (by omega)
        exact ⟨c, rest ++ [Nat.digitChar (n % 10)], by rw [Text.digits_of_le hn, hdigits]; rfl, hc⟩

/-- A number whose first digit is zero only if it is the only one before a point. -/
theorem readNumber_of_leading {whole text : List Char} {significand : Nat}
    (hleading : whole = ['0'] ∨ ∃ c rest, whole = c :: rest ∧ c ≠ '0') (htake : text.takeWhile isDigit = whole)
    (hsignificand : takeSignificand 0 whole = (significand, [])) :
    readNumber false text =
      match text.dropWhile isDigit with
      | '.' :: rest => readFraction false significand 0 rest
      | rest => readTail false significand 0 (wholeNumber false significand 0) rest := by
  unfold readNumber
  rw [htake]
  obtain rfl | ⟨c, rest, rfl, hc⟩ := hleading
  · simp only [hsignificand]
    rfl
  · simp only [hsignificand, ↓Char.isValue, List.cons.injEq, hc, false_and, imp_self, implies_true]
    rfl

/-- A whole number is read as it is. -/
theorem readNumber_digits {n : Nat} {rest : List Char} (h : n ≤ maxSignificand) (hrest : rest = [] ∨ EndsValue rest) :
    readNumber false (Text.digits n ++ rest) = (.int n, rest) := by
  have hbehind : ∀ c ∈ rest.head?, isDigit c = false := by
    obtain rfl | hrest := hrest
    · nofun
    · exact hrest.not_digit
  obtain ⟨htake, hdrop⟩ := takeWhile_digits (isDigit_of_mem_digits (n := n)) hbehind
  rw [readNumber_of_leading (leading_digits n) htake (takeSignificand_digits h), hdrop]
  obtain rfl | ⟨more, rfl | rfl⟩ := hrest <;> rfl

/-! ### Doubles -/

/-- A number with a negative power of ten is a double, if only zero. -/
theorem exists_scaleByTen (negative : Bool) (significand : Nat) {exponent : Int} (h : exponent < 0) :
    ∃ x, scaleByTen negative significand exponent = .float x := by
  unfold scaleByTen
  simp only [if_neg (Int.not_le.mpr h)]
  split
  · exact ⟨_, rfl⟩
  · split
    · exact ⟨_, rfl⟩
    · exact ⟨_, rfl⟩

theorem digitValue_le {c : Char} (h : isDigit c = true) : digitValue c ≤ 9 := by
  obtain ⟨-, hhigh⟩ := Bool.and_eq_true_iff.mp h
  have hhigh : c.toNat ≤ 57 := of_decide_eq_true hhigh
  exact Nat.sub_le_of_le_add hhigh

theorem digitValue_pos {c : Char} (h : isDigit c = true) (hne : c ≠ '0') : 0 < digitValue c := by
  obtain ⟨hlow, -⟩ := Bool.and_eq_true_iff.mp h
  have hlow : 48 ≤ c.toNat := of_decide_eq_true hlow
  have hne : c.toNat ≠ 48 := fun heq => hne (Char.toNat_inj.mp heq)
  exact Nat.sub_pos_of_lt (Nat.lt_of_le_of_ne hlow hne.symm)

theorem foldl_exponent_pos {ds : List Char} {start : Nat} (hds : ∀ c ∈ ds, isDigit c = true)
    (h : 0 < start ∨ ∃ c ∈ ds, c ≠ '0') :
    0 < ds.foldl (fun n c => min (10 * n + digitValue c) (maxExponent + 1)) start := by
  induction ds generalizing start with
  | nil => exact h.resolve_right fun ⟨c, hc, _⟩ => absurd hc List.not_mem_nil
  | cons c ds ih =>
    obtain ⟨hc, hds⟩ := List.forall_mem_cons.mp hds
    refine ih hds ?_
    obtain hstart | ⟨e, he, hne⟩ := h
    · exact .inl (by simp only [maxExponent]; omega)
    · obtain rfl | he := List.mem_cons.mp he
      · have hvalue := digitValue_pos hc hne
        exact .inl (by simp only [maxExponent]; omega)
      · exact .inr ⟨e, he, hne⟩

theorem exists_withExponent (negative : Bool) (significand : Nat) {start : Int} {ds : List Char}
    (hds : ∀ c ∈ ds, isDigit c = true) (hstart : start ≤ 0) (h : start < 0 ∨ ∃ c ∈ ds, c ≠ '0') :
    ∃ x, withExponent negative significand start true ds = .float x := by
  unfold withExponent
  simp only
  split
  · exact ⟨_, by simp; rfl⟩
  · refine exists_scaleByTen _ _ ?_
    have hpos : start < 0 ∨ 0 < ds.foldl (fun n c => min (10 * n + digitValue c) (maxExponent + 1)) 0 :=
      h.imp_right fun h => foldl_exponent_pos hds (.inr h)
    simp only [if_true, clampExponent]
    generalize ds.foldl (fun n c => min (10 * n + digitValue c) (maxExponent + 1)) 0 = written at hpos
    simp only [maxExponent]
    omega

/-- Up to sixteen digits are all taken into the significand, and the next one would be, too. -/
theorem takeSignificand_short {ds : List Char} (hds : ∀ c ∈ ds, isDigit c = true) (h : ds.length ≤ 16) :
    ∃ value, takeSignificand 0 ds = (value, []) ∧ value * 10 + 9 ≤ maxSignificand := by
  have hfrom : ∀ (ds : List Char) (start : Nat), (∀ c ∈ ds, isDigit c = true) →
      (start + 1) * 10 ^ ds.length ≤ maxSignificand →
      ∃ value, takeSignificand start ds = (value, []) ∧ value + 1 ≤ (start + 1) * 10 ^ ds.length := by
    intro ds
    induction ds with
    | nil =>
      intro start _ _
      exact ⟨start, rfl, Nat.le_of_eq (Nat.mul_one _).symm⟩
    | cons c ds ih =>
      intro start hds h
      obtain ⟨hc, hds⟩ := List.forall_mem_cons.mp hds
      have hdigit := digitValue_le hc
      have hpow : 0 < 10 ^ ds.length := Nat.pow_pos (by decide)
      have hnext : (start * 10 + digitValue c + 1) * 10 ^ ds.length ≤ (start + 1) * 10 ^ (c :: ds).length := by
        rw [List.length_cons, Nat.pow_succ', ← Nat.mul_assoc]
        exact Nat.mul_le_mul_right _ (by omega)
      have hfits : ¬ maxSignificand < start * 10 + digitValue c := by
        have := Nat.le_mul_of_pos_right (start * 10 + digitValue c + 1) hpow
        omega
      obtain ⟨value, htake, hvalue⟩ := ih (start * 10 + digitValue c) hds (Nat.le_trans hnext h)
      exact ⟨value, by rw [takeSignificand, if_neg hfits, htake], Nat.le_trans hvalue hnext⟩
  have hpow : 10 ^ ds.length ≤ 10 ^ 16 := Nat.pow_le_pow_right (by decide) h
  have hmax : 10 ^ 16 * 10 ≤ maxSignificand := by decide
  obtain ⟨value, htake, hvalue⟩ := hfrom ds 0 hds (by omega)
  exact ⟨value, htake, by omega⟩

theorem length_takeSignificand_le (start : Nat) (ds : List Char) : (takeSignificand start ds).2.length ≤ ds.length := by
  induction ds generalizing start with
  | nil => exact Nat.le_refl _
  | cons c ds ih =>
    rw [takeSignificand]
    split
    · exact Nat.le_refl _
    · exact Nat.le_succ_of_le (ih _)

namespace Ascii.Numeral

variable (n : Numeral)

/-- The digits that are kept of a number. -/
def significand : Nat × List Char := takeSignificand (takeSignificand 0 n.whole).1 n.places

/-- The power of ten of the last digit that is kept, before an exponent. -/
def shift : Int := 0 - (n.places.length - n.significand.2.length : Nat)

/-- What a number is read as. -/
def doc : Doc :=
  if n.exponent.isEmpty then scaleByTen false n.significand.1 n.shift
  else withExponent false n.significand.1 n.shift true n.exponent

theorem isDigit_whole : ∀ c ∈ n.whole, isDigit c = true := fun c hc => n.digits c (List.mem_append_left _ hc)

theorem isDigit_places : ∀ c ∈ n.places, isDigit c = true := fun c hc =>
  n.digits c (List.mem_append_right _ (List.mem_append_left _ hc))

theorem isDigit_exponent : ∀ c ∈ n.exponent, isDigit c = true := fun c hc =>
  n.digits c (List.mem_append_right _ (List.mem_append_right _ hc))

theorem shift_le : n.shift ≤ 0 := by
  unfold shift
  omega

/-- Digits behind the point count. -/
theorem shift_neg (h : n.places ≠ []) : n.shift < 0 := by
  obtain ⟨value, htake, hvalue⟩ := takeSignificand_short n.isDigit_whole n.short
  have hless : n.significand.2.length < n.places.length := by
    rw [significand, htake]
    cases hplaces : n.places with
    | nil => exact absurd hplaces h
    | cons c rest =>
      have hc := digitValue_le (n.isDigit_places c (by rw [hplaces]; exact List.mem_cons_self))
      have hfits : ¬ maxSignificand < value * 10 + digitValue c := by omega
      rw [takeSignificand, if_neg hfits]
      exact Nat.lt_succ_of_le (length_takeSignificand_le _ _)
  unfold shift
  omega

theorem exists_doc_eq : ∃ x, n.doc = .float x := by
  unfold doc
  split
  case isTrue hnone =>
    refine exists_scaleByTen _ _ (n.shift_neg ?_)
    obtain h | ⟨c, hc, -⟩ := n.fractional
    · exact h
    · rw [List.isEmpty_iff.mp hnone] at hc
      cases hc
  case isFalse => exact exists_withExponent _ _ n.isDigit_exponent n.shift_le (n.fractional.imp_left n.shift_neg)

variable {n} {rest : List Char}

theorem not_digit_exponentText (h : rest = [] ∨ EndsValue rest) :
    ∀ c ∈ (n.exponentText ++ rest).head?, isDigit c = false := by
  unfold exponentText
  split
  · obtain rfl | h := h
    · nofun
    · exact h.not_digit
  · rintro c ⟨⟩
    decide

/-- Behind the digits, a negative exponent is read, or none. -/
theorem readTail_exponentText (h : rest = [] ∨ EndsValue rest) {significand : Nat} {shift : Int} {plain : Doc}
    (hplain : n.exponent = [] → plain = scaleByTen false significand shift) :
    readTail false significand shift plain (n.exponentText ++ rest) =
      (if n.exponent.isEmpty then scaleByTen false significand shift
        else withExponent false significand shift true n.exponent, rest) := by
  unfold exponentText
  split
  case isTrue hnone =>
    rw [hplain (List.isEmpty_iff.mp hnone)]
    obtain rfl | ⟨more, rfl | rfl⟩ := h <;> rfl
  case isFalse hsome =>
    have hrest : ∀ c ∈ rest.head?, isDigit c = false := by
      obtain rfl | h := h
      · nofun
      · exact h.not_digit
    have hsign : readSign ('-' :: (n.exponent ++ rest)) = (true, n.exponent ++ rest) := rfl
    simp only [List.cons_append, readTail, readExponent, hsign, takeWhile_digits n.isDigit_exponent hrest]
    rw [if_neg hsome]

theorem exponent_ne_nil (h : n.places = []) : n.exponent ≠ [] := by
  obtain hplaces | ⟨c, hc, -⟩ := n.fractional
  · exact absurd h hplaces
  · exact List.ne_nil_of_mem hc

/-- A number is read the same whatever follows it. -/
theorem readNumber_text (h : rest = [] ∨ EndsValue rest) : readNumber false (n.text ++ rest) = (n.doc, rest) := by
  obtain ⟨value, hwhole, -⟩ := takeSignificand_short n.isDigit_whole n.short
  have hafter : ∀ c ∈ (n.exponentText ++ rest).head?, isDigit c = false := not_digit_exponentText h
  by_cases hp : n.places = []
  · have htext : n.exponentText = 'e' :: '-' :: n.exponent :=
      if_neg (mt List.isEmpty_iff.mp (exponent_ne_nil hp))
    have hread : readTail false value 0 (wholeNumber false value 0) (n.exponentText ++ rest) = _ :=
      readTail_exponentText h fun hnone => absurd hnone (exponent_ne_nil hp)
    have hdoc : n.doc = if n.exponent.isEmpty then scaleByTen false value 0
        else withExponent false value 0 true n.exponent := by
      simp only [doc, shift, significand, hwhole, hp, takeSignificand]
      rfl
    obtain ⟨htake, hdrop⟩ := takeWhile_digits n.isDigit_whole hafter
    simp only [text, hp, List.isEmpty_nil, if_true, List.nil_append, List.append_assoc]
    rw [readNumber_of_leading n.leading htake hwhole, hdrop, hdoc, ← hread, htext]
    rfl
  · obtain ⟨htake, hdrop⟩ := takeWhile_digits_cons n.isDigit_whole (show isDigit '.' = false by decide)
      (n.places ++ (n.exponentText ++ rest))
    simp only [text, hp, List.isEmpty_iff, if_false, List.append_assoc, List.cons_append]
    rw [readNumber_of_leading n.leading htake hwhole, hdrop]
    simp only [readFraction, hp, List.isEmpty_iff, if_false, takeWhile_digits n.isDigit_places hafter]
    rw [readTail_exponentText h fun _ => rfl, doc, shift, significand, hwhole]

theorem doc_eq : n.doc = .float n.value := by
  obtain ⟨x, hx⟩ := n.exists_doc_eq
  have hread := n.readNumber_text (.inl rfl)
  rw [List.append_nil] at hread
  rw [value, hread, hx]

end Ascii.Numeral

/-! ### What follows a number -/

theorem takeWhile_append_of_dropWhile {p : Char → Bool} {text rest : List Char} {c : Char}
    (h : text.dropWhile p = c :: rest) (more : List Char) :
    (text ++ more).takeWhile p = text.takeWhile p ∧ (text ++ more).dropWhile p = c :: (rest ++ more) := by
  induction text with
  | nil => cases h
  | cons d text ih =>
    rw [List.cons_append]
    by_cases hd : p d = true
    · rw [List.dropWhile_cons_of_pos hd] at h
      obtain ⟨htake, hdrop⟩ := ih h
      rw [List.takeWhile_cons_of_pos hd, List.takeWhile_cons_of_pos hd, List.dropWhile_cons_of_pos hd, htake, hdrop]
      exact ⟨rfl, rfl⟩
    · rw [List.dropWhile_cons_of_neg hd] at h
      cases h
      rw [List.takeWhile_cons_of_neg hd, List.takeWhile_cons_of_neg hd, List.dropWhile_cons_of_neg hd]
      exact ⟨rfl, rfl⟩

section

variable {text rest : List Char} {c : Char} {d : Doc} {negative : Bool} {significand : Nat} {shift : Int} {plain : Doc}

theorem badNumber_ne : badNumber text ≠ (d, c :: rest) := nofun

theorem readSign_append (h : text ≠ []) (more : List Char) :
    readSign (text ++ more) = ((readSign text).1, (readSign text).2 ++ more) := by
  cases text with
  | nil => exact absurd rfl h
  | cons e text =>
    by_cases hplus : e = '+'
    · rw [hplus]
      rfl
    · by_cases hminus : e = '-'
      · rw [hminus]
        rfl
      · simp [readSign, hplus, hminus]

theorem readExponent_append (h : readExponent negative significand shift text = (d, c :: rest)) (more : List Char) :
    readExponent negative significand shift (text ++ more) = (d, c :: (rest ++ more)) := by
  have htext : text ≠ [] := by
    rintro rfl
    exact absurd h badNumber_ne
  simp only [readExponent] at h
  split at h
  case isTrue => exact absurd h badNumber_ne
  case isFalse hdigits =>
    obtain ⟨rfl, hdrop⟩ := Prod.mk.inj h
    obtain ⟨htake, hdrop⟩ := takeWhile_append_of_dropWhile hdrop more
    simp only [readExponent, readSign_append htext, htake, hdrop, if_neg hdigits]

theorem readTail_append (h : readTail negative significand shift plain text = (d, c :: rest)) (more : List Char) :
    readTail negative significand shift plain (text ++ more) = (d, c :: (rest ++ more)) := by
  cases text with
  | nil => cases h
  | cons e text =>
    by_cases hlower : e = 'e'
    · rw [hlower] at h ⊢
      exact readExponent_append h more
    · by_cases hupper : e = 'E'
      · rw [hupper] at h ⊢
        exact readExponent_append h more
      · have hplain (t : List Char) : readTail negative significand shift plain (e :: t) = (plain, e :: t) := by
          simp [readTail, hlower, hupper]
        rw [hplain] at h
        cases h
        exact hplain _

theorem readFraction_append (h : readFraction negative significand shift text = (d, c :: rest)) (more : List Char) :
    readFraction negative significand shift (text ++ more) = (d, c :: (rest ++ more)) := by
  simp only [readFraction] at h
  split at h
  case isTrue => exact absurd h badNumber_ne
  case isFalse hplaces =>
    cases hdrop : text.dropWhile isDigit with
    | nil =>
      rw [hdrop] at h
      cases h
    | cons e after =>
      obtain ⟨htake, hdrop'⟩ := takeWhile_append_of_dropWhile hdrop more
      rw [hdrop] at h
      simp only [readFraction, htake, hdrop', if_neg hplaces]
      exact readTail_append h more

/-- A number that does not reach the end of a text is the same when the text goes on. -/
theorem readNumber_append (h : readNumber negative text = (d, c :: rest)) (more : List Char) :
    readNumber negative (text ++ more) = (d, c :: (rest ++ more)) := by
  unfold readNumber at h ⊢
  cases hdrop : text.dropWhile isDigit with
  | nil =>
    -- A number that nothing follows leaves nothing behind.
    simp only [hdrop] at h
    split at h
    · exact absurd h badNumber_ne
    · cases h
    · cases h
  | cons e after =>
    obtain ⟨htake, hdrop'⟩ := takeWhile_append_of_dropWhile hdrop more
    simp only [hdrop, htake, hdrop'] at h ⊢
    split at h
    · exact absurd h badNumber_ne
    · cases h
    · by_cases hpoint : e = '.'
      · rw [hpoint] at h ⊢
        exact readFraction_append h more
      · simp only [↓Char.isValue, List.cons.injEq, hpoint, false_and, imp_self, implies_true] at h ⊢
        exact readTail_append h more

end

end Vetting.Json
