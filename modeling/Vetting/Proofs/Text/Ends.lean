import Vetting.Text.Blank

/-!
# The ends of a text

What stands at the ends of a text can be taken off it: a given beginning or ending (`Text.dropPrefix?_eq_some_iff`,
`Text.dropSuffix?_eq_some_iff`), and white space. A text that is `Text.IsSolid` stands in white space in one way only
(`Text.trim_enclosed`, `Text.enclosed_inj`).
-/

namespace Vetting.Text

/-! ### Beginnings and endings -/

theorem dropPrefix?_eq_some_iff {start s rest : List Char} :
    dropPrefix? start s = some rest ↔ s = start ++ rest := by
  induction start generalizing s with
  | nil => simp [dropPrefix?]
  | cons p ps ih =>
    cases s with
    | nil => simp [dropPrefix?]
    | cons c cs =>
      by_cases h : p = c
      · subst h
        simp [dropPrefix?, ih]
      · have hc : c ≠ p := fun hcp => h hcp.symm
        simp [dropPrefix?, h, hc]

theorem dropPrefix?_eq_none_iff {start s : List Char} :
    dropPrefix? start s = none ↔ ¬ start <+: s := by
  rw [← Option.not_isSome_iff_eq_none, Option.isSome_iff_exists]
  refine not_congr ?_
  constructor
  · rintro ⟨rest, h⟩
    exact ⟨rest, (dropPrefix?_eq_some_iff.mp h).symm⟩
  · rintro ⟨rest, h⟩
    exact ⟨rest, dropPrefix?_eq_some_iff.mpr h.symm⟩

theorem dropSuffix?_eq_some_iff {ending s rest : List Char} :
    dropSuffix? ending s = some rest ↔ s = rest ++ ending := by
  unfold dropSuffix?
  rw [Option.map_eq_some_iff]
  constructor
  · rintro ⟨reversed, h, rfl⟩
    rw [← List.reverse_reverse s, dropPrefix?_eq_some_iff.mp h, List.reverse_append, List.reverse_reverse]
  · rintro rfl
    exact ⟨rest.reverse, dropPrefix?_eq_some_iff.mpr List.reverse_append, List.reverse_reverse rest⟩

/-! ### White space -/

/-- A text that neither begins nor ends with white space, and is not empty. -/
structure IsSolid (s : List Char) : Prop where
  first : ∃ c rest, s = c :: rest ∧ isBlank c = false
  last : ∃ rest c, s = rest ++ [c] ∧ isBlank c = false

/-- Nothing but white space. -/
def IsBlank (s : List Char) : Prop := ∀ c ∈ s, isBlank c = true

variable {before before' after after' s s' : List Char}

theorem IsSolid.trimStart_append (h : IsSolid s) (hbefore : IsBlank before) (rest : List Char) :
    trimStart (before ++ (s ++ rest)) = s ++ rest := by
  obtain ⟨c, more, rfl, hc⟩ := h.first
  rw [trimStart, List.dropWhile_append_of_pos hbefore]
  exact List.dropWhile_cons_of_neg (by simp [hc])

theorem IsSolid.trimEnd_append (h : IsSolid s) (hafter : IsBlank after) : trimEnd (s ++ after) = s := by
  obtain ⟨more, c, rfl, hc⟩ := h.last
  have hreverse : ∀ d ∈ after.reverse, isBlank d = true := fun d hd => hafter d (List.mem_reverse.mp hd)
  rw [trimEnd, List.reverse_append, List.dropWhile_append_of_pos hreverse, List.reverse_append]
  rw [List.reverse_singleton, List.singleton_append, List.dropWhile_cons_of_neg (by simp [hc])]
  rw [List.reverse_cons, List.reverse_reverse]

theorem trim_enclosed (h : IsSolid s) (hbefore : IsBlank before) (hafter : IsBlank after) :
    trim (before ++ (s ++ after)) = s := by
  rw [trim, h.trimStart_append hbefore, h.trimEnd_append hafter]

/-- White space is all that trimming takes away. -/
theorem exists_enclosed (s : List Char) :
    ∃ before after, s = before ++ (trim s ++ after) ∧ IsBlank before ∧ IsBlank after := by
  refine ⟨s.takeWhile isBlank, ((trimStart s).reverse.takeWhile isBlank).reverse, ?_, ?_, ?_⟩
  · have hend : trim s ++ ((trimStart s).reverse.takeWhile isBlank).reverse = trimStart s := by
      rw [trim, trimEnd, ← List.reverse_append, List.takeWhile_append_dropWhile, List.reverse_reverse]
    rw [hend, trimStart, List.takeWhile_append_dropWhile]
  · exact List.all_eq_true.mp List.all_takeWhile
  · intro c hc
    exact List.all_eq_true.mp List.all_takeWhile c (List.mem_reverse.mp hc)

theorem takeWhile_enclosed (h : IsSolid s) (hbefore : IsBlank before) :
    (before ++ (s ++ after)).takeWhile isBlank = before := by
  obtain ⟨c, more, rfl, hc⟩ := h.first
  rw [List.takeWhile_append_of_pos hbefore, List.cons_append, List.takeWhile_cons_of_neg (by simp [hc]),
    List.append_nil]

/-- A text shows where white space around a solid part of it ends. -/
theorem enclosed_inj (h : IsSolid s) (h' : IsSolid s') (hbefore : IsBlank before) (hbefore' : IsBlank before')
    (hafter : IsBlank after) (hafter' : IsBlank after')
    (heq : before ++ (s ++ after) = before' ++ (s' ++ after')) : before = before' ∧ s = s' ∧ after = after' := by
  have hs : s = s' := by
    rw [← trim_enclosed h hbefore hafter, heq, trim_enclosed h' hbefore' hafter']
  have hstart : before = before' := by
    rw [← takeWhile_enclosed h hbefore, heq, takeWhile_enclosed h' hbefore']
  subst hs hstart
  exact ⟨rfl, rfl, List.append_cancel_left (List.append_cancel_left heq)⟩

end Vetting.Text
