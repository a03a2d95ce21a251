/-!
Lines of a text. A line ends at a line feed; a carriage return right before it belongs to the ending,
and an ending at the very end of the text opens no further line.
-/

namespace Vetting.Text

/-- Puts a character before pieces of a text. -/
def consPiece (c : Char) : List (List Char) → List (List Char)
  | [] => [[c]]
  | piece :: more => if c = '\n' then [] :: piece :: more else (c :: piece) :: more

/-- The pieces between line feeds; there is always a last one. -/
def splitAtLineFeeds (s : List Char) : List (List Char) := s.foldr consPiece [[]]

/-- A line without one carriage return at its end. -/
def dropCarriageReturn (line : List Char) : List Char :=
  match line.reverse with
  | '\r' :: rest => rest.reverse
  | _ => line

/-- Drops an empty last piece, then strips the pieces that a line feed ended. -/
def finishLines : List (List Char) → List (List Char)
  | [] => []
  | [last] => if last.isEmpty then [] else [last]
  | piece :: more => dropCarriageReturn piece :: finishLines more

/-- The lines of a text. -/
def lines (s : List Char) : List (List Char) := finishLines (splitAtLineFeeds s)

/-! ### The number of lines -/

theorem splitAtLineFeeds_ne_nil (s : List Char) : splitAtLineFeeds s ≠ [] := by
  cases s with
  | nil => nofun
  | cons c s =>
    rw [splitAtLineFeeds, List.foldr_cons, consPiece.eq_def]
    split
    · nofun
    · split <;> nofun

/-- A further character in front opens a line if it is a line feed, or if there is none yet. -/
theorem length_finishLines_consPiece (c : Char) {pieces : List (List Char)} (h : pieces ≠ []) :
    (finishLines (consPiece c pieces)).length =
      if c = '\n' then (finishLines pieces).length + 1 else max 1 (finishLines pieces).length := by
  match pieces with
  | [last] =>
    by_cases hc : c = '\n'
    · simp [consPiece, finishLines, hc]
    · cases last <;> simp [consPiece, finishLines, hc]
  | piece :: next :: more =>
    by_cases hc : c = '\n'
    · simp [consPiece, finishLines, hc]
    · simp [consPiece, finishLines, hc]

/-- A text has one line for each line feed, and one more if it does not end with one. -/
theorem length_lines (s : List Char) :
    (lines s).length = s.count '\n' + if s.getLast?.all (· = '\n') then 0 else 1 := by
  induction s with
  | nil => rfl
  | cons c s ih =>
    have hcons : lines (c :: s) = finishLines (consPiece c (splitAtLineFeeds s)) := rfl
    rw [hcons, length_finishLines_consPiece c (splitAtLineFeeds_ne_nil s), ← lines, ih, List.count_cons]
    cases s with
    | nil => by_cases hc : c = '\n' <;> simp [hc]
    | cons d s =>
      -- a text that is not empty has a line
      have hpos : 1 ≤ (d :: s).count '\n' + if (d :: s).getLast?.all (· = '\n') then 0 else 1 := by
        cases hlast : (d :: s).getLast? with
        | none => exact absurd (List.getLast?_eq_none_iff.mp hlast) (List.cons_ne_nil d s)
        | some e =>
          by_cases he : e = '\n'
          · have hcount := List.count_pos_iff.mpr (he ▸ List.mem_of_getLast? hlast)
            exact Nat.le_trans hcount (Nat.le_add_right ..)
          · simp [he]
      rw [List.getLast?_cons_cons]
      by_cases hc : c = '\n'
      · rw [if_pos hc, if_pos (beq_iff_eq.mpr hc)]
        exact Nat.add_right_comm ..
      · have hne : ¬ (c == '\n') = true := mt beq_iff_eq.mp hc
        rw [if_neg hc, if_neg hne, Nat.max_eq_right hpos]
        rfl

/-! ### Lines of joined texts -/

theorem consPiece_append (c : Char) {pieces : List (List Char)} (h : pieces ≠ []) (more : List (List Char)) :
    consPiece c (pieces ++ more) = consPiece c pieces ++ more := by
  cases pieces with
  | nil => exact absurd rfl h
  | cons piece rest => by_cases hc : c = '\n' <;> simp [consPiece, hc]

theorem splitAtLineFeeds_append (s t : List Char) :
    splitAtLineFeeds (s ++ '\n' :: t) = splitAtLineFeeds s ++ splitAtLineFeeds t := by
  induction s with
  | nil =>
    have hcons : splitAtLineFeeds ('\n' :: t) = consPiece '\n' ([] ++ splitAtLineFeeds t) := rfl
    rw [List.nil_append, hcons, List.nil_append]
    cases h : splitAtLineFeeds t with
    | nil => exact absurd h (splitAtLineFeeds_ne_nil t)
    | cons piece more => rfl
  | cons c s ih =>
    have hcons (u : List Char) : splitAtLineFeeds (c :: u) = consPiece c (splitAtLineFeeds u) := rfl
    rw [List.cons_append, hcons, ih, consPiece_append c (splitAtLineFeeds_ne_nil s), ← hcons]

theorem splitAtLineFeeds_of_not_mem {s : List Char} (h : '\n' ∉ s) : splitAtLineFeeds s = [s] := by
  induction s with
  | nil => rfl
  | cons c s ih =>
    have hc : c ≠ '\n' := fun heq => h (heq ▸ List.mem_cons_self)
    have hcons : splitAtLineFeeds (c :: s) = consPiece c (splitAtLineFeeds s) := rfl
    rw [hcons, ih fun hmem => h (List.mem_cons_of_mem _ hmem), consPiece, if_neg hc]

theorem finishLines_append (pieces : List (List Char)) {more : List (List Char)} (h : more ≠ []) :
    finishLines (pieces ++ more) = pieces.map dropCarriageReturn ++ finishLines more := by
  induction pieces with
  | nil => rfl
  | cons piece rest ih =>
    rw [List.map_cons, List.cons_append, List.cons_append, ← ih]
    cases hrest : rest ++ more with
    | nil => exact absurd (List.append_eq_nil_iff.mp hrest).2 h
    | cons next later => rfl

/-- A line feed ends a line, and what follows it has lines of its own. -/
theorem lines_append (s t : List Char) :
    lines (s ++ '\n' :: t) = (splitAtLineFeeds s).map dropCarriageReturn ++ lines t := by
  rw [lines, splitAtLineFeeds_append, finishLines_append _ (splitAtLineFeeds_ne_nil t), ← lines]

theorem dropCarriageReturn_concat (line : List Char) : dropCarriageReturn (line ++ ['\r']) = line := by
  rw [dropCarriageReturn, List.reverse_append]
  exact List.reverse_reverse line

theorem dropCarriageReturn_of_ne (line : List Char) {c : Char} (h : c ≠ '\r') :
    dropCarriageReturn (line ++ [c]) = line ++ [c] := by
  rw [dropCarriageReturn, List.reverse_append, List.reverse_singleton, List.singleton_append]
  split
  · next heq => exact absurd (List.cons.inj heq).1 h
  · rfl

/-- What stands before the last character of a line does not matter for the line's ending. -/
theorem dropCarriageReturn_append (start : List Char) {line : List Char} (h : line ≠ []) :
    dropCarriageReturn (start ++ line) = start ++ dropCarriageReturn line := by
  rcases List.eq_nil_or_concat line with rfl | ⟨more, c, rfl⟩
  · exact absurd rfl h
  · rw [List.concat_eq_append, ← List.append_assoc]
    by_cases hc : c = '\r'
    · rw [hc, dropCarriageReturn_concat, dropCarriageReturn_concat]
    · rw [dropCarriageReturn_of_ne _ hc, dropCarriageReturn_of_ne _ hc, List.append_assoc]

end Vetting.Text
