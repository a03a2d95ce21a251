import Vetting.Proofs.Binary64.Shortest
import Vetting.Proofs.Json.Numbers

/-!
# What the text of a double stands for

`Text.exactValue` takes a number in decimal notation as the number that it stands for, without rounding. The text of a
double stands for its shortest decimal, in either notation (`Binary64.isNotation_positional`,
`Binary64.isNotation_scientific`), so no two finite doubles have one text (`Binary64.documentText_inj`).
-/

namespace Vetting

open Json

namespace Text

/-! ### Whole numbers -/

/-- A whole number is written with digits and a sign alone. -/
theorem signed_of_mem_numeral {n : Int} : ∀ c ∈ numeral n, c = '-' ∨ isDigit c = true := by
  refine List.forall_mem_append.mpr ⟨?_, fun c hc => .inr (isDigit_of_mem_digits c hc)⟩
  split
  · exact List.forall_mem_singleton.mpr (.inl rfl)
  · exact List.forall_mem_nil _

/-- A text shows whether it has a sign, if none stands behind that. -/
theorem sign_append_inj {negative negative' : Bool} {s t : List Char} (hs : ∀ c ∈ s.head?, c ≠ '-')
    (ht : ∀ c ∈ t.head?, c ≠ '-')
    (h : (if negative then ['-'] else []) ++ s = (if negative' then ['-'] else []) ++ t) :
    negative = negative' ∧ s = t := by
  cases negative <;> cases negative'
  · exact ⟨rfl, h⟩
  · exact absurd rfl (hs '-' (by rw [show s = '-' :: t from h]; rfl))
  · exact absurd rfl (ht '-' (by rw [← show '-' :: s = t from h]; rfl))
  · exact ⟨rfl, List.append_cancel_left h⟩

theorem ofDigitChars_digits (n : Nat) : Nat.ofDigitChars 10 (digits n) 0 = n := Nat.ofDigitChars_ten_toDigits

theorem ne_minus_of_isDigit {c : Char} (h : isDigit c = true) : c ≠ '-' := by
  rintro rfl
  exact absurd h (by decide)

/-- No two whole numbers have one text. -/
theorem numeral_inj {m n : Int} (h : numeral m = numeral n) : m = n := by
  have hdigits (k : Nat) : ∀ c ∈ (digits k).head?, c ≠ '-' := fun c hc =>
    ne_minus_of_isDigit (isDigit_of_mem_digits c (List.mem_of_mem_head? hc))
  have hnumeral (k : Int) : numeral k = (if decide (k < 0) then ['-'] else []) ++ digits k.natAbs := by
    simp only [numeral, decide_eq_true_eq]
  rw [hnumeral, hnumeral] at h
  obtain ⟨hsign, hsame⟩ := sign_append_inj (hdigits _) (hdigits _) h
  have habs : m.natAbs = n.natAbs := by rw [← ofDigitChars_digits m.natAbs, hsame, ofDigitChars_digits]
  rw [decide_eq_decide] at hsign
  omega

/-! ### Numbers in decimal notation -/

/-- The power of ten that stands behind the digits of a number. -/
def powerOf : List Char → Int
  | 'e' :: '-' :: ds => -(Nat.ofDigitChars 10 ds 0)
  | 'e' :: '+' :: ds => Nat.ofDigitChars 10 ds 0
  | _ => 0

/-- The number that digits with a point and a power of ten stand for. -/
def exactValue (text : List Char) : ℚ :=
  let whole := text.takeWhile isDigit
  match text.dropWhile isDigit with
  | '.' :: rest =>
    let places := rest.takeWhile isDigit
    Nat.ofDigitChars 10 (whole ++ places) 0 * 10 ^ (powerOf (rest.dropWhile isDigit) - places.length)
  | rest => Nat.ofDigitChars 10 whole 0 * 10 ^ powerOf rest

/-- Characters of numbers. -/
def isNumeric (c : Char) : Bool := isDigit c || c ∈ ['.', 'e', '+', '-']

/-- A text that stands for a number, with a point or a power of ten in it. -/
structure IsNotation (text : List Char) (v : ℚ) : Prop where
  value : exactValue text = v
  starts : ∃ c rest, text = c :: rest ∧ isDigit c = true
  marked : '.' ∈ text ∨ 'e' ∈ text
  numeric : ∀ c ∈ text, isNumeric c = true

variable {whole places rest : List Char}

theorem isNumeric_of_isDigit {c : Char} (h : isDigit c = true) : isNumeric c = true := by
  rw [isNumeric, h]
  rfl

theorem exactValue_point (hwhole : ∀ c ∈ whole, isDigit c = true) (hplaces : ∀ c ∈ places, isDigit c = true)
    (hrest : ∀ c ∈ rest.head?, isDigit c = false) :
    exactValue (whole ++ '.' :: (places ++ rest)) =
      Nat.ofDigitChars 10 (whole ++ places) 0 * 10 ^ (powerOf rest - places.length) := by
  obtain ⟨htake, hdrop⟩ := takeWhile_digits_cons hwhole (show isDigit '.' = false by decide) (places ++ rest)
  obtain ⟨htake', hdrop'⟩ := takeWhile_digits hplaces hrest
  simp only [exactValue, htake, hdrop, htake', hdrop']

theorem exactValue_power (hwhole : ∀ c ∈ whole, isDigit c = true) (power : List Char) :
    exactValue (whole ++ 'e' :: power) = Nat.ofDigitChars 10 whole 0 * 10 ^ powerOf ('e' :: power) := by
  obtain ⟨htake, hdrop⟩ := takeWhile_digits_cons hwhole (show isDigit 'e' = false by decide) power
  simp only [exactValue, htake, hdrop]
  rfl

theorem toList_pushn (c : Char) (n : Nat) : ("".pushn c n).toList = List.replicate n c := by
  rw [String.pushn_eq_repeat_push]
  induction n with
  | zero => rfl
  | succ n ih => rw [Nat.repeat, String.toList_push, ih, List.replicate_succ']

theorem isDigit_of_mem_replicate {n : Nat} : ∀ c ∈ List.replicate n '0', isDigit c = true := by
  intro c hc
  rw [List.eq_of_mem_replicate hc]
  decide

theorem exists_cons_isDigit {text : List Char} (hne : text ≠ []) (h : ∀ c ∈ text, isDigit c = true) (more : List Char) :
    ∃ c rest, text ++ more = c :: rest ∧ isDigit c = true := by
  obtain ⟨c, rest, rfl⟩ := List.exists_cons_of_ne_nil hne
  exact ⟨c, rest ++ more, rfl, h c List.mem_cons_self⟩

theorem IsNotation.not_sign {text : List Char} {v : ℚ} (h : IsNotation text v) : ∀ c ∈ text.head?, c ≠ '-' := by
  obtain ⟨c, rest, rfl, hc⟩ := h.starts
  rintro d ⟨⟩
  exact ne_minus_of_isDigit hc

theorem isNotation_point {v : ℚ} (hne : whole ≠ []) (hwhole : ∀ c ∈ whole, isDigit c = true)
    (hplaces : ∀ c ∈ places, isDigit c = true)
    (hv : Nat.ofDigitChars 10 (whole ++ places) 0 * (10 : ℚ) ^ (-(places.length : Int)) = v) :
    IsNotation (whole ++ '.' :: places) v := by
  refine ⟨?_, exists_cons_isDigit hne hwhole _, .inl (by simp), ?_⟩
  · have hvalue := exactValue_point hwhole hplaces (show ∀ c ∈ ([] : List Char).head?, isDigit c = false from nofun)
    have hpower : powerOf [] = 0 := rfl
    rw [List.append_nil] at hvalue
    rw [hvalue, ← hv, hpower, Int.zero_sub]
  · intro c hc
    obtain hc | hc := List.mem_append.mp hc
    · exact isNumeric_of_isDigit (hwhole c hc)
    · obtain rfl | hc := List.mem_cons.mp hc
      · decide
      · exact isNumeric_of_isDigit (hplaces c hc)

end Text

namespace Binary64

open Text

/-! ### Texts of decimals -/

/-- The digits of a decimal that has places behind the point, with zeros before them, so that at least one digit is left
before the point. -/
def paddedDigits (d : Decimal) : List Char :=
  List.replicate ((-d.exponent).toNat + 1 - (digits d.digits).length) '0' ++ digits d.digits

theorem toList_positional_of_nonneg {d : Decimal} (h : 0 ≤ d.exponent) (wholeSuffix : String) :
    (positional d wholeSuffix).toList =
      digits d.digits ++ List.replicate d.exponent.toNat '0' ++ wholeSuffix.toList := by
  simp only [positional, if_pos h, String.toList_append, toList_pushn, String.toList_ofList, digits]

theorem toList_positional_of_neg {d : Decimal} (h : d.exponent < 0) (wholeSuffix : String) :
    (positional d wholeSuffix).toList =
      (paddedDigits d).take ((paddedDigits d).length - (-d.exponent).toNat) ++
        '.' :: (paddedDigits d).drop ((paddedDigits d).length - (-d.exponent).toNat) := by
  have hpadded : ("".pushn '0' ((-d.exponent).toNat + 1 - (String.ofList (Nat.toDigits 10 d.digits)).length) ++
      String.ofList (Nat.toDigits 10 d.digits)).toList = paddedDigits d := by
    rw [String.toList_append, toList_pushn, String.toList_ofList, String.length_ofList]
    rfl
  simp only [positional, if_neg (Int.not_le.mpr h)]
  rw [String.toList_append, String.toList_append, String.toList_copy_take, String.toList_copy_drop,
    ← String.length_toList, hpadded, List.append_assoc]
  rfl

theorem toList_toString_nat (n : Nat) : (toString n).toList = digits n := by
  rw [Nat.toString_eq_repr, Nat.toList_repr]
  rfl

/-- A power of ten behind the digits of a number, always with a sign. -/
def powerText (power : Int) : List Char := 'e' :: (if power < 0 then '-' else '+') :: digits power.natAbs

theorem toList_scientific {d : Decimal} {first : Char} {more : List Char} (h : digits d.digits = first :: more) :
    (scientific d).toList =
      first :: ((if more.isEmpty then [] else '.' :: more) ++ powerText (d.exponent + more.length)) := by
  have hdigits : Nat.toDigits 10 d.digits = first :: more := h
  have hsign (power : Int) : (if power < 0 then "-" else "+").toList = [if power < 0 then '-' else '+'] := by
    split <;> rfl
  simp only [scientific, hdigits, String.toList_append, toList_toString_nat, hsign, powerText]
  cases more.isEmpty <;> simp

/-! ### What they stand for -/

variable (d : Decimal)

theorem isNotation_positional : IsNotation (positional d ".0").toList d.value := by
  have hdigits := isDigit_of_mem_digits (n := d.digits)
  have hlength := length_digits_pos d.digits
  obtain h | h := Int.lt_or_le d.exponent 0
  · obtain ⟨p, hp⟩ := Int.eq_ofNat_of_zero_le (show 0 ≤ -d.exponent by omega)
    have hpadded : ∀ c ∈ paddedDigits d, isDigit c = true :=
      List.forall_mem_append.mpr ⟨isDigit_of_mem_replicate, hdigits⟩
    have hlong : p < (paddedDigits d).length := by
      simp only [paddedDigits, List.length_append, List.length_replicate, hp, Int.toNat_natCast]
      omega
    rw [toList_positional_of_neg h, hp, Int.toNat_natCast]
    refine isNotation_point ?_ (fun c hc => hpadded c (List.mem_of_mem_take hc))
      (fun c hc => hpadded c (List.mem_of_mem_drop hc)) ?_
    · exact List.length_pos_iff.mp (by rw [List.length_take]; omega)
    · have hplaces : ((paddedDigits d).drop ((paddedDigits d).length - p)).length = p := by
        rw [List.length_drop]
        omega
      rw [List.take_append_drop, hplaces, paddedDigits, Nat.ofDigitChars_append, Nat.ofDigitChars_replicate_zero,
        Nat.mul_zero, ofDigitChars_digits, Decimal.value, ← hp, Int.neg_neg]
  · obtain ⟨n, hn⟩ := Int.eq_ofNat_of_zero_le h
    rw [toList_positional_of_nonneg h, hn, Int.toNat_natCast]
    have hzero : ∀ c ∈ ['0'], isDigit c = true := List.forall_mem_singleton.mpr rfl
    refine isNotation_point ?_ ?_ hzero ?_
    · exact List.append_ne_nil_of_left_ne_nil (List.length_pos_iff.mp hlength) _
    · exact List.forall_mem_append.mpr ⟨hdigits, isDigit_of_mem_replicate⟩
    · rw [Nat.ofDigitChars_append, Nat.ofDigitChars_append, ofDigitChars_digits, Nat.ofDigitChars_replicate_zero,
        Decimal.value, hn]
      change ((10 * (10 ^ n * d.digits) + 0 : Nat) : ℚ) * 10 ^ (-(1 : Int)) = _
      rw [zpow_natCast, zpow_neg, zpow_one]
      push_cast
      ring

theorem powerOf_powerText (power : Int) : powerOf (powerText power) = power := by
  unfold powerText
  split
  · change -((Nat.ofDigitChars 10 (digits power.natAbs) 0 : Nat) : Int) = power
    rw [ofDigitChars_digits]
    omega
  · change ((Nat.ofDigitChars 10 (digits power.natAbs) 0 : Nat) : Int) = power
    rw [ofDigitChars_digits]
    omega

theorem isNumeric_of_mem_powerText {power : Int} : ∀ c ∈ powerText power, isNumeric c = true := by
  intro c hc
  obtain rfl | hc := List.mem_cons.mp hc
  · decide
  · obtain rfl | hc := List.mem_cons.mp hc
    · split <;> decide
    · exact isNumeric_of_isDigit (isDigit_of_mem_digits c hc)

theorem isNotation_scientific : IsNotation (scientific d).toList d.value := by
  obtain ⟨first, more, hfirst, hdigits⟩ := exists_digits_eq d.digits
  have hall : ∀ c ∈ Nat.digitChar first :: more, isDigit c = true := hdigits ▸ isDigit_of_mem_digits
  have hvalue : Nat.ofDigitChars 10 (Nat.digitChar first :: more) 0 = d.digits := by
    rw [← hdigits, ofDigitChars_digits]
  obtain ⟨hone, hmore⟩ := List.forall_mem_cons.mp hall
  rw [toList_scientific hdigits]
  refine ⟨?_, ⟨_, _, rfl, hone⟩, .inr (by simp [powerText]), ?_⟩
  · have hwhole : ∀ c ∈ [Nat.digitChar first], isDigit c = true := List.forall_mem_singleton.mpr hone
    cases more with
    | nil =>
      have hread := exactValue_power hwhole ((powerText d.exponent).tail)
      change exactValue (Nat.digitChar first :: powerText d.exponent) = _ * 10 ^ powerOf (powerText d.exponent) at hread
      rw [powerOf_powerText] at hread
      have hpower : d.exponent + (([] : List Char).length : Int) = d.exponent := Int.add_zero _
      rw [hpower, Decimal.value, ← hvalue]
      exact hread
    | cons c rest =>
      have hrest : ∀ e ∈ (powerText (d.exponent + (c :: rest).length)).head?, isDigit e = false := by
        rintro e ⟨⟩
        decide
      have hread := exactValue_point hwhole hmore hrest
      rw [powerOf_powerText, Int.add_sub_cancel] at hread
      rw [Decimal.value, ← hvalue]
      exact hread
  · intro c hc
    obtain rfl | hc := List.mem_cons.mp hc
    · exact isNumeric_of_isDigit hone
    · obtain hc | hc := List.mem_append.mp hc
      · split at hc
        · cases hc
        · obtain rfl | hc := List.mem_cons.mp hc
          · decide
          · exact isNumeric_of_isDigit (hmore c hc)
      · exact isNumeric_of_mem_powerText c hc

/-! ### Texts of doubles -/

/-- The text of a double stands for its shortest decimal, behind a sign if there is one. -/
theorem exists_documentText_eq (x : Binary64) : ∃ body, IsNotation body x.shortest.value ∧
    x.documentText.toList = (if x.isNegative then ['-'] else []) ++ body := by
  have hsign (body : String) : (if x.isNegative then "-" ++ body else body).toList =
      (if x.isNegative then ['-'] else []) ++ body.toList := by
    cases x.isNegative <;> simp
  simp only [documentText, hsign]
  refine ⟨_, ?_, rfl⟩
  split
  · exact isNotation_positional _
  · exact isNotation_scientific _

variable {x y : Binary64}

/-- A double is determined by its sign and its magnitude. -/
theorem eq_of_magnitudeBits_eq (hsign : x.isNegative = y.isNegative) (h : x.magnitudeBits = y.magnitudeBits) :
    x = y := by
  have hsize : UInt64.size = signBit + signBit := by decide
  have hx := x.bits.toNat_lt_size
  have hy := y.bits.toNat_lt_size
  rw [isNegative, isNegative, decide_eq_decide] at hsign
  rw [magnitudeBits, magnitudeBits] at h
  have hbits : x.bits.toNat = y.bits.toNat := by
    by_cases hneg : signBit ≤ x.bits.toNat
    · have hneg' := hsign.mp hneg
      rw [Nat.mod_eq_sub_mod hneg, Nat.mod_eq_of_lt (by omega), Nat.mod_eq_sub_mod hneg',
        Nat.mod_eq_of_lt (by omega)] at h
      omega
    · have hpos' := mt hsign.mpr hneg
      rwa [Nat.mod_eq_of_lt (by omega), Nat.mod_eq_of_lt (by omega)] at h
  cases x
  cases y
  exact congrArg Binary64.mk (UInt64.toNat_inj.mp hbits)

theorem magnitudeBits_abs (h : x.isFinite = true) : x.abs.magnitudeBits = x.magnitudeBits :=
  (isNegative_ofSignMagnitude false (of_decide_eq_true h : x.magnitudeBits < infinityBits).le).2

theorem isNumeric_of_mem_documentText (x : Binary64) : ∀ c ∈ x.documentText.toList, isNumeric c = true := by
  obtain ⟨body, hbody, htext⟩ := exists_documentText_eq x
  rw [htext]
  refine List.forall_mem_append.mpr ⟨?_, hbody.numeric⟩
  cases x.isNegative with
  | false => exact List.forall_mem_nil _
  | true => exact List.forall_mem_singleton.mpr rfl

/-- The text of a double is no text of a whole number. -/
theorem toString_ne_documentText (n : Int) (x : Binary64) : toString n ≠ x.documentText := by
  intro h
  obtain ⟨body, hbody, htext⟩ := exists_documentText_eq x
  rw [← h, toList_toString] at htext
  have hnumeral := signed_of_mem_numeral (n := n)
  rw [htext] at hnumeral
  have hbodyNumeral := (List.forall_mem_append.mp hnumeral).2
  obtain hmarked | hmarked := hbody.marked <;> exact absurd (hbodyNumeral _ hmarked) (by decide)

/-- **No two finite doubles have one text.** -/
theorem documentText_inj (hx : x.isFinite = true) (hy : y.isFinite = true) (h : x.documentText = y.documentText) :
    x = y := by
  obtain ⟨body, hbody, htext⟩ := exists_documentText_eq x
  obtain ⟨body', hbody', htext'⟩ := exists_documentText_eq y
  rw [h, htext'] at htext
  obtain ⟨hsign, hbodies⟩ := sign_append_inj hbody'.not_sign hbody.not_sign htext
  have habs : x.abs = y.abs := by
    refine abs_eq_of_value_eq hx hy ?_
    rw [← hbody.value, ← hbody'.value, hbodies]
  refine eq_of_magnitudeBits_eq hsign.symm ?_
  rw [← magnitudeBits_abs hx, ← magnitudeBits_abs hy, habs]

end Binary64

end Vetting
