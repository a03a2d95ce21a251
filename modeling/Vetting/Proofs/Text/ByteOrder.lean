/-!
# The order of texts

Texts are compared by code points. That is the order of their bytes as well (`Text.bytes_lt_bytes`): the bytes of a
smaller character are smaller at the first byte that differs, and no character's bytes begin another's.
-/

namespace Vetting.Text

/-- The bytes of a text. -/
def bytes (s : String) : List UInt8 := s.toUTF8.data.toList

theorem bytes_eq_flatMap (s : String) : bytes s = s.toList.flatMap String.utf8EncodeChar := by
  rw [bytes, String.toUTF8, ← String.utf8Encode_toList, List.utf8Encode, List.toList_data_toByteArray]

/-- Bytes are compared first by the first of them. -/
theorem cons_lt_cons {m n : Nat} {s t : List UInt8} (hn : n < 256) (hle : m ≤ n) (h : m = n → s < t) :
    UInt8.ofNat m :: s < UInt8.ofNat n :: t := by
  obtain hlt | rfl := Nat.lt_or_eq_of_le hle
  · refine List.Lex.rel (UInt8.lt_iff_toNat_lt.mpr ?_)
    rw [UInt8.toNat_ofNat_of_lt' hn, UInt8.toNat_ofNat_of_lt' (Nat.lt_trans hlt hn)]
    exact hlt
  · exact List.Lex.cons (h rfl)

/-- The byte at which the bytes of two characters differ is smaller for the smaller character, whatever follows. -/
theorem encoded_lt {c d : Char} (h : c < d) (s t : List UInt8) :
    String.utf8EncodeChar c ++ s < String.utf8EncodeChar d ++ t := by
  have hlt : c.val.toNat < d.val.toNat := h
  have hd : d.val.toNat < 0x110000 := by
    obtain h | h := d.valid
    · exact Nat.lt_trans h (by decide)
    · exact h.2
  rw [String.utf8EncodeChar.eq_def c, String.utf8EncodeChar.eq_def d]
  simp only
  generalize c.val.toNat = v at *
  generalize d.val.toNat = w at *
  -- A character with fewer bytes than another has the smaller first byte; of two with as many bytes, the first bytes
  -- that differ are the digits to the base 64 that differ.
  split
  case isTrue =>
    split
    · exact cons_lt_cons (by omega) (by omega) (by omega)
    · split
      · exact cons_lt_cons (by omega) (by omega) (by omega)
      · split <;> exact cons_lt_cons (by omega) (by omega) (by omega)
  case isFalse =>
    split
    case isTrue =>
      split
      · omega
      · split
        · exact cons_lt_cons (by omega) (by omega) fun _ => cons_lt_cons (by omega) (by omega) (by omega)
        · split <;> exact cons_lt_cons (by omega) (by omega) (by omega)
    case isFalse =>
      split
      case isTrue =>
        split
        · omega
        · split
          · omega
          · split
            · exact cons_lt_cons (by omega) (by omega) fun _ => cons_lt_cons (by omega) (by omega) fun _ =>
                cons_lt_cons (by omega) (by omega) (by omega)
            · exact cons_lt_cons (by omega) (by omega) (by omega)
      case isFalse =>
        split
        · omega
        · split
          · omega
          · split
            · omega
            · exact cons_lt_cons (by omega) (by omega) fun _ => cons_lt_cons (by omega) (by omega) fun _ =>
                cons_lt_cons (by omega) (by omega) fun _ => cons_lt_cons (by omega) (by omega) (by omega)

theorem flatMap_encoded_lt {a b : List Char} (h : a < b) :
    a.flatMap String.utf8EncodeChar < b.flatMap String.utf8EncodeChar := by
  induction h with
  | nil =>
    rename_i d rest
    rw [List.flatMap_cons]
    obtain ⟨x, bytes, hx⟩ := List.exists_cons_of_ne_nil (String.utf8EncodeChar_ne_nil (c := d))
    rw [hx]
    exact List.Lex.nil
  | rel h => exact encoded_lt h _ _
  | cons _ ih =>
    rw [List.flatMap_cons, List.flatMap_cons]
    exact List.append_left_lt ih

/-- Texts are ordered as their bytes are. -/
theorem bytes_lt_bytes {s t : String} (h : s < t) : bytes s < bytes t := by
  rw [bytes_eq_flatMap, bytes_eq_flatMap]
  exact flatMap_encoded_lt h

end Vetting.Text
