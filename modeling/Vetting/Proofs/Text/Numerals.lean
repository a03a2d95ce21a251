import Mathlib.Data.List.Lex
import Vetting.Json

/-!
# The order of numerals

Texts of numbers are compared digit by digit. That is the order of the numbers as long as they have as many digits
(`Text.digits_append_lt`). Of two numbers with different counts, the one with fewer digits is compared with the first
digits of the other.
-/

namespace Vetting.Text

/-- The decimal digits of a number. -/
def digits (n : Nat) : List Char := Nat.toDigits 10 n

/-- The text of a whole number, with a sign if it is below zero. -/
def numeral (n : Int) : List Char := (if n < 0 then ['-'] else []) ++ digits n.natAbs

theorem toList_toString (n : Int) : (toString n).toList = numeral n := by
  cases n with
  | ofNat n =>
    change n.repr.toList = numeral n
    rw [Nat.repr_eq_ofList_toDigits, String.toList_ofList, numeral, if_neg (by omega)]
    rfl
  | negSucc n =>
    change ("-" ++ (n + 1).repr).toList = numeral (Int.negSucc n)
    have hdigits : (n + 1).repr.toList = digits (n + 1) := by
      rw [Nat.repr_eq_ofList_toDigits, String.toList_ofList]
      rfl
    rw [String.toList_append, hdigits, numeral, if_pos (Int.negSucc_lt_zero n)]
    rfl

theorem digits_of_lt {n : Nat} (h : n < 10) : digits n = [Nat.digitChar n] := Nat.toDigits_of_lt_base h

/-- The last digit behind the others. -/
theorem digits_of_le {n : Nat} (h : 10 ≤ n) : digits n = digits (n / 10) ++ [Nat.digitChar (n % 10)] := by
  rw [digits, Nat.toDigits_eq_if (by decide), if_neg (by omega)]
  rfl

theorem digitChar_lt {m n : Nat} (hn : n < 10) (h : m < n) : Nat.digitChar m < Nat.digitChar n := by
  change (Nat.digitChar m).toNat < (Nat.digitChar n).toNat
  rw [Nat.toNat_digitChar_of_lt_ten hn, Nat.toNat_digitChar_of_lt_ten (Nat.lt_trans h hn)]
  omega

theorem minus_lt_digitChar {n : Nat} (h : n < 10) : '-' < Nat.digitChar n := by
  change '-'.toNat < (Nat.digitChar n).toNat
  rw [Nat.toNat_digitChar_of_lt_ten h]
  exact Nat.lt_of_lt_of_le (by decide) (Nat.le_add_right 48 n)

/-- No text of digits is empty, and none starts with a sign. -/
theorem exists_digits_eq (n : Nat) : ∃ d rest, d < 10 ∧ digits n = Nat.digitChar d :: rest := by
  induction n using Nat.strongRecOn with
  | ind n ih =>
    obtain h | h := Nat.lt_or_ge n 10
    · exact ⟨n, [], h, digits_of_lt h⟩
    · obtain ⟨d, rest, hd, hdigits⟩ := ih (n / 10) (by omega)
      exact ⟨d, rest ++ [Nat.digitChar (n % 10)], hd, by rw [digits_of_le h, hdigits]; rfl⟩

theorem length_digits_of_le {n : Nat} (h : 10 ≤ n) : (digits n).length = (digits (n / 10)).length + 1 := by
  rw [digits_of_le h, List.length_append, List.length_singleton]

theorem length_digits_pos (n : Nat) : 0 < (digits n).length := Nat.length_toDigits_pos

theorem length_digits_mono {m n : Nat} (h : m ≤ n) : (digits m).length ≤ (digits n).length := by
  have hpos := length_digits_pos n
  have hlt : n < 10 ^ (digits n).length := (Nat.length_toDigits_le_iff (by decide) hpos).mp (Nat.le_refl _)
  exact (Nat.length_toDigits_le_iff (by decide) hpos).mpr (Nat.lt_of_le_of_lt h hlt)

/-- Of numbers with as many digits the text of the smaller one comes first, whatever follows. -/
theorem digits_append_lt {m n : Nat} (h : m < n) (hlength : (digits m).length = (digits n).length)
    (s t : List Char) : digits m ++ s < digits n ++ t := by
  induction n using Nat.strongRecOn generalizing m s t with
  | ind n ih =>
    obtain hn | hn := Nat.lt_or_ge n 10
    · rw [digits_of_lt hn, digits_of_lt (Nat.lt_trans h hn)]
      exact List.Lex.rel (digitChar_lt hn h)
    · have hm : 10 ≤ m := by
        apply Nat.le_of_not_lt
        intro hm
        have := length_digits_pos (n / 10)
        rw [digits_of_lt hm, length_digits_of_le hn, List.length_singleton] at hlength
        omega
      rw [length_digits_of_le hm, length_digits_of_le hn] at hlength
      rw [digits_of_le hm, digits_of_le hn, List.append_assoc, List.append_assoc]
      obtain hlt | heq := Nat.lt_or_eq_of_le (Nat.div_le_div_right (c := 10) (Nat.le_of_lt h))
      · exact ih (n / 10) (by omega) hlt (Nat.succ.inj hlength) _ _
      · rw [heq]
        have hlast : Nat.digitChar (m % 10) < Nat.digitChar (n % 10) := digitChar_lt (by omega) (by omega)
        exact List.Lex.append_left _ (List.Lex.rel hlast) _

/-- A number whose leading digits are smaller than another number comes before it, although it has one digit more. -/
theorem digits_append_lt_of_div_lt {m n : Nat} (hn : 10 ≤ n) (h : n / 10 < m)
    (hlength : (digits n).length = (digits m).length + 1) (s t : List Char) : digits n ++ t < digits m ++ s := by
  rw [length_digits_of_le hn] at hlength
  rw [digits_of_le hn, List.append_assoc]
  exact digits_append_lt h (Nat.succ.inj hlength) _ _

end Vetting.Text
