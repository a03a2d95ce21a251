import Vetting.Proofs.Json.Writing
import Vetting.Proofs.Text.ByteOrder

/-!
# What is written in ASCII is printable

Documents in ASCII consist of characters that show and of blanks, whatever the texts in them hold. A byte of a text
takes up to six characters there, and the bytes of characters that do not show take that many.
-/

namespace Vetting.Json.Ascii

/-! ### Characters -/

/-- Characters of ASCII that show, and blanks. -/
def Printable (text : List Char) : Prop := ∀ c ∈ text, 32 ≤ c.toNat ∧ c.toNat < 127

/-- A text that is given can be looked through. -/
theorem printable_of_all {text : List Char} (h : text.all (fun c => 32 ≤ c.toNat && c.toNat < 127) = true) :
    Printable text := by
  intro c hc
  have hall := List.all_eq_true.mp h c hc
  rwa [Bool.and_eq_true, decide_eq_true_eq, decide_eq_true_eq] at hall

theorem printable_nil : Printable [] := fun _ h => absurd h List.not_mem_nil

theorem printable_append {s t : List Char} (hs : Printable s) (ht : Printable t) : Printable (s ++ t) :=
  List.forall_mem_append.mpr ⟨hs, ht⟩

theorem printable_cons {c : Char} {s : List Char} (hc : 32 ≤ c.toNat ∧ c.toNat < 127) (hs : Printable s) :
    Printable (c :: s) := List.forall_mem_cons.mpr ⟨hc, hs⟩

theorem printable_of_isDigit {text : List Char} (h : ∀ c ∈ text, isDigit c = true) : Printable text := by
  intro c hc
  obtain ⟨hlow, hhigh⟩ := Bool.and_eq_true_iff.mp (h c hc)
  have hlow : 48 ≤ c.toNat := of_decide_eq_true hlow
  have hhigh : c.toNat ≤ 57 := of_decide_eq_true hhigh
  omega

theorem printable_unit (n : Nat) : Printable (unit n) := by
  have hdigit : ∀ m < 16, 32 ≤ (hexDigit m).toNat ∧ (hexDigit m).toNat < 127 := by decide
  have hmod (m : Nat) := hdigit (m % 16) (Nat.mod_lt m (by decide))
  exact printable_cons (by decide) <| printable_cons (by decide) <| printable_cons (hmod _) <|
    printable_cons (hmod _) <| printable_cons (hmod _) <| printable_cons (hmod _) printable_nil

theorem printable_char (c : Char) : Printable (char c) := by
  fun_cases char c
  case case8 h =>
    rw [Bool.and_eq_true, decide_eq_true_eq, decide_eq_true_eq] at h
    exact printable_cons h printable_nil
  case case9 => exact printable_unit _
  case case10 => exact printable_append (printable_unit _) (printable_unit _)
  all_goals exact printable_of_all rfl

theorem printable_quote (s : String) : Printable (quote s) := by
  refine printable_cons (by decide) (printable_append ?_ (printable_cons (by decide) printable_nil))
  intro c hc
  obtain ⟨d, -, hc⟩ := List.mem_flatMap.mp hc
  exact printable_char d c hc

theorem printable_bool (b : Bool) : Printable (bool b) := by
  cases b <;> exact printable_of_all (by decide)

theorem printable_nat (n : Nat) : Printable (nat n) := printable_of_isDigit isDigit_of_mem_digits

theorem printable_null : Printable "null".toList := printable_of_all (by decide)

theorem printable_brackets : Printable "[]".toList := printable_of_all (by decide)

theorem printable_numeral (n : Numeral) : Printable n.text := by
  have hplaces : Printable (if n.places.isEmpty then [] else '.' :: n.places) := by
    split
    · exact printable_nil
    · exact printable_cons (by decide) (printable_of_isDigit n.isDigit_places)
  have hexponent : Printable n.exponentText := by
    unfold Numeral.exponentText
    split
    · exact printable_nil
    · exact printable_cons (by decide) (printable_cons (by decide) (printable_of_isDigit n.isDigit_exponent))
  exact printable_append (printable_of_isDigit n.isDigit_whole) (printable_append hplaces hexponent)

theorem printable_field {f : String × List Char} (h : Printable f.2) : Printable (field f) :=
  printable_append (printable_quote f.1) (printable_cons (by decide) (printable_cons (by decide) h))

theorem printable_object {fields : List (String × List Char)} (h : ∀ f ∈ fields, Printable f.2) :
    Printable (object fields) := by
  have hmore (more : List (String × List Char)) (hmore : ∀ f ∈ more, Printable f.2) : Printable (moreFields more) := by
    intro c hc
    obtain ⟨f, hf, hc⟩ := List.mem_flatMap.mp hc
    exact printable_cons (by decide) (printable_cons (by decide) (printable_field (hmore f hf))) c hc
  cases fields with
  | nil => exact printable_of_all rfl
  | cons f rest =>
    obtain ⟨hf, hrest⟩ := List.forall_mem_cons.mp h
    exact printable_cons (by decide) <| printable_append (printable_field hf) <|
      printable_append (hmore rest hrest) (printable_cons (by decide) printable_nil)

/-! ### Sizes -/

/-- No byte of a text takes more than six. -/
theorem length_char_le (c : Char) : (char c).length ≤ 6 * c.utf8Size := by
  have hpos := c.utf8Size_pos
  fun_cases char c
  case case9 =>
    simp only [unit, fourDigits, List.length_cons, List.length_nil]
    omega
  case case10 h =>
    have hlarge : ¬ c.val.toNat ≤ 65535 := fun hle => h (Nat.lt_succ_of_le hle)
    have hsize : c.utf8Size = 4 := by
      rw [← String.length_utf8EncodeChar, String.utf8EncodeChar.eq_def]
      simp only [if_neg hlarge, if_neg (show ¬ c.val.toNat ≤ 2047 by omega), if_neg (show ¬ c.val.toNat ≤ 127 by omega)]
      rfl
    simp only [unit, fourDigits, List.length_append, List.length_cons, List.length_nil]
    omega
  all_goals
    simp only [List.length_cons, List.length_nil]
    omega

theorem length_chars_le (s : String) : (chars s).length ≤ 6 * (Text.bytes s).length := by
  rw [chars, Text.bytes_eq_flatMap]
  induction s.toList with
  | nil => exact Nat.le_refl _
  | cons c rest ih =>
    have hc := length_char_le c
    rw [List.flatMap_cons, List.flatMap_cons, List.length_append, List.length_append, String.length_utf8EncodeChar]
    omega

/-- A text of this many characters that do not show. -/
def hidden (n : Nat) : String := String.ofList (List.replicate n '\x7f')

theorem length_bytes_hidden (n : Nat) : (Text.bytes (hidden n)).length = n := by
  rw [Text.bytes_eq_flatMap, hidden, String.toList_ofList]
  induction n with
  | zero => rfl
  | succ n ih =>
    rw [List.replicate_succ, List.flatMap_cons, List.length_append, ih]
    exact Nat.add_comm 1 n

theorem length_chars_hidden (n : Nat) : (chars (hidden n)).length = 6 * n := by
  rw [chars, hidden, String.toList_ofList]
  induction n with
  | zero => rfl
  | succ n ih =>
    rw [List.replicate_succ, List.flatMap_cons, List.length_append, ih]
    have hchar : (char '\x7f').length = 6 := by decide
    omega

end Vetting.Json.Ascii
