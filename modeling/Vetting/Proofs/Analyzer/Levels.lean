import Vetting.Analyzer.Scale

/-!
# The order of levels

A scale is accepted if the severities of its levels never fall (`Scale.ofLevels_eq_ok_iff`). A name is looked up as the
first level of that name, whatever the case of its letters, so a level gets the lowest severity that is listed for its
name (`Scale.exists_isLookedUp`). The order of the levels survives that, except where a level bears the name of an earlier and
lower one (`Scale.Overtaken`).
-/

namespace Vetting

namespace Severity

variable {s t : Severity}

theorem not_lt_iff : ¬ t < s ↔ s ≤ t := Nat.not_lt

theorem lt_of_lt_of_le {s t u : Severity} (h : s < t) (h' : t ≤ u) : s < u := Nat.lt_of_lt_of_le h h'

theorem lt_of_le_of_lt {s t u : Severity} (h : s ≤ t) (h' : t < u) : s < u := Nat.lt_of_le_of_lt h h'

theorem lt_irrefl (s : Severity) : ¬ s < s := Nat.lt_irrefl s.rank

end Severity

namespace Scale

/-- A level with its severity. -/
abbrev Level := String × Severity

/-- Two names of one level. -/
def SameName (a b : String) : Prop := foldCase a = foldCase b

instance (a b : String) : Decidable (SameName a b) := inferInstanceAs (Decidable (foldCase a = foldCase b))

/-- The severities never fall. -/
def Rising (levels : List Level) : Prop := levels.Pairwise fun l m => l.2 ≤ m.2

variable {levels : List Level} {scale : Scale} {a b : String} {s t : Severity} {i j : Nat}

/-! ### Accepted scales -/

/-- Looking at neighbours is enough. -/
theorem firstDrop?_eq_none_iff : firstDrop? levels = none ↔ Rising levels := by
  induction levels with
  | nil => exact iff_of_true rfl .nil
  | cons l rest ih =>
    cases rest with
    | nil => exact iff_of_true rfl (List.pairwise_singleton _ _)
    | cons m more =>
      have hstep : firstDrop? (l :: m :: more) = if m.2 < l.2 then some m.1 else firstDrop? (m :: more) := rfl
      rw [hstep, Rising, List.pairwise_cons]
      by_cases hdrop : m.2 < l.2
      · rw [if_pos hdrop]
        refine iff_of_false (Option.some_ne_none _) fun h => ?_
        exact Severity.not_lt_iff.mpr (h.1 m List.mem_cons_self) hdrop
      · rw [if_neg hdrop, ih]
        refine ⟨fun h => ⟨fun n hn => ?_, h⟩, And.right⟩
        have hlm : l.2 ≤ m.2 := Severity.not_lt_iff.mp hdrop
        rcases List.mem_cons.mp hn with rfl | hn
        · exact hlm
        · exact Severity.le_trans hlm ((List.pairwise_cons.mp h).1 n hn)

theorem ofLevels_eq_ok_iff : ofLevels levels = .ok scale ↔ Rising levels ∧ scale = ⟨levels⟩ := by
  rw [← firstDrop?_eq_none_iff, ofLevels]
  cases firstDrop? levels with
  | none => exact ⟨fun h => ⟨rfl, (Except.ok.inj h).symm⟩, fun h => congrArg _ h.2.symm⟩
  | some name => exact ⟨nofun, fun h => absurd h.1 (Option.some_ne_none name)⟩

/-! ### Looking up -/

/-- The level that a name is looked up as: the first of that name. -/
def IsLookedUp (levels : List Level) (name : String) (level : Level) : Prop :=
  ∃ before after, levels = before ++ level :: after ∧ SameName level.1 name ∧ ∀ l ∈ before, ¬ SameName l.1 name

theorem IsLookedUp.mem {name : String} {level : Level} (h : IsLookedUp levels name level) : level ∈ levels := by
  obtain ⟨before, after, rfl, -, -⟩ := h
  exact List.mem_append_right _ List.mem_cons_self

theorem IsLookedUp.sameName {name : String} {level : Level} (h : IsLookedUp levels name level) :
    SameName level.1 name := by
  obtain ⟨-, -, -, h, -⟩ := h
  exact h

/-- Where severities rise, no level of a name is lower than the one that is looked up. -/
theorem IsLookedUp.le {name : String} {level other : Level} (h : IsLookedUp levels name level) (hr : Rising levels)
    (hother : other ∈ levels) (hname : SameName other.1 name) : level.2 ≤ other.2 := by
  obtain ⟨before, after, rfl, -, hbefore⟩ := h
  rcases List.mem_append.mp hother with hother | hother
  · exact absurd hname (hbefore other hother)
  · rcases List.mem_cons.mp hother with rfl | hother
    · exact Severity.le_refl _
    · have htail := (List.pairwise_append.mp hr).2.1
      exact (List.pairwise_cons.mp htail).1 other hother

/-- The severity of what was found; an unknown level is a warning. -/
def severityOr : Option Level → Severity
  | some (_, s) => s
  | none => .warning

theorem severityOf_eq (scale : Scale) (name : String) :
    scale.severityOf name = severityOr (scale.levels.find? fun l => SameName l.1 name) := by
  rw [severityOf, severityOr.eq_def]
  rfl

/-- Every listed name is looked up as some level. -/
theorem exists_isLookedUp (h : (a, s) ∈ levels) :
    ∃ level, IsLookedUp levels a level ∧ severityOf ⟨levels⟩ a = level.2 := by
  rw [severityOf_eq]
  cases hfind : levels.find? fun l => SameName l.1 a with
  | none => exact absurd (decide_eq_true rfl) (List.find?_eq_none.mp hfind _ h)
  | some level =>
    obtain ⟨hname, before, after, hlevels, hbefore⟩ := List.find?_eq_some_iff_append.mp hfind
    refine ⟨level, ⟨before, after, hlevels, of_decide_eq_true hname, fun l hl => ?_⟩, rfl⟩
    exact of_decide_eq_false ((Bool.not_eq_true' _).mp (hbefore l hl))

/-! ### Order -/

/-- A level before the `i`th, of name `a`, bears the name `b`, and is lower than all levels of the name `a`. -/
def Overtaken (levels : List Level) (i : Nat) (a b : String) : Prop :=
  ∃ l ∈ levels.take i, SameName l.1 b ∧ ∀ m ∈ levels, SameName m.1 a → l.2 < m.2

/-- A level that is lower than another stands before it. -/
theorem mem_take_of_lt {l : Level} (hr : Rising levels) (hi : levels[i]? = some (a, s)) (hl : l ∈ levels)
    (hlt : l.2 < s) : l ∈ levels.take i := by
  obtain ⟨hlength, hget⟩ := List.getElem?_eq_some_iff.mp hi
  have hdrop : levels.drop i = (a, s) :: levels.drop (i + 1) := by
    rw [← hget]
    exact List.drop_eq_getElem_cons hlength
  rw [← List.take_append_drop i levels] at hl hr
  rcases List.mem_append.mp hl with hl | hl
  · exact hl
  · have htail := (List.pairwise_append.mp hr).2.1
    rw [hdrop] at hl htail
    rcases List.mem_cons.mp hl with rfl | hl
    · exact absurd hlt (Severity.lt_irrefl s)
    · exact absurd hlt (Severity.not_lt_iff.mpr ((List.pairwise_cons.mp htail).1 l hl))

theorem severityOf_lt_iff (hr : Rising levels) (hi : levels[i]? = some (a, s)) (hb : (b, t) ∈ levels) :
    severityOf ⟨levels⟩ b < severityOf ⟨levels⟩ a ↔ Overtaken levels i a b := by
  obtain ⟨la, hla, ha⟩ := exists_isLookedUp (List.mem_of_getElem? hi)
  obtain ⟨lb, hlb, hb⟩ := exists_isLookedUp hb
  rw [ha, hb]
  constructor
  · intro hlt
    have hall : ∀ m ∈ levels, SameName m.1 a → lb.2 < m.2 := fun m hm hname =>
      Severity.lt_of_lt_of_le hlt (hla.le hr hm hname)
    -- The `i`th level has the name `a` itself, so what `b` is looked up as is lower than that level and stands before it.
    have hbefore := mem_take_of_lt hr hi hlb.mem (hall _ (List.mem_of_getElem? hi) rfl)
    exact ⟨lb, hbefore, hlb.sameName, hall⟩
  · rintro ⟨l, hl, hname, hall⟩
    have hle := hlb.le hr (List.mem_of_mem_take hl) hname
    exact Severity.lt_of_le_of_lt hle (hall la hla.mem hla.sameName)

/-- No two levels share a name. -/
def Distinct (levels : List Level) : Prop := levels.Pairwise fun l m => ¬ SameName l.1 m.1

theorem severityOf_of_distinct (hd : Distinct levels) (ha : (a, s) ∈ levels) : severityOf ⟨levels⟩ a = s := by
  obtain ⟨level, ⟨before, after, rfl, hname, hbefore⟩, hseverity⟩ := exists_isLookedUp ha
  rw [hseverity]
  rcases List.mem_append.mp ha with ha | ha
  · exact absurd rfl (hbefore _ ha)
  · rcases List.mem_cons.mp ha with rfl | ha
    · rfl
    · have htail := (List.pairwise_append.mp hd).2.1
      exact absurd hname ((List.pairwise_cons.mp htail).1 _ ha)

/-- **What becomes of the order of an accepted scale.** Each level gets the lowest severity that is listed for its name.
Of two levels, the later one gets no lower severity than the earlier one, unless its name stands before that one already,
with a lower severity than all levels of that name have. So no order is lost as long as no two levels share a name. -/
theorem severityOf_le_iff_not_overtaken (h : ofLevels levels = .ok scale) (hi : levels[i]? = some (a, s))
    (hj : levels[j]? = some (b, t)) (hij : i ≤ j) :
    (scale.severityOf a ≤ scale.severityOf b ↔ ¬ Overtaken levels i a b) ∧
      ((∃ l ∈ levels, SameName l.1 a ∧ scale.severityOf a = l.2) ∧
        ∀ l ∈ levels, SameName l.1 a → scale.severityOf a ≤ l.2) ∧
      (Distinct levels → scale.severityOf a = s ∧ scale.severityOf b = t ∧ s ≤ t) := by
  obtain ⟨hr, rfl⟩ := ofLevels_eq_ok_iff.mp h
  have ha := List.mem_of_getElem? hi
  have hb := List.mem_of_getElem? hj
  refine ⟨?_, ?_, fun hd => ⟨severityOf_of_distinct hd ha, severityOf_of_distinct hd hb, ?_⟩⟩
  · rw [← severityOf_lt_iff hr hi hb, Severity.not_lt_iff]
  · obtain ⟨level, hlevel, hseverity⟩ := exists_isLookedUp ha
    rw [hseverity]
    exact ⟨⟨level, hlevel.mem, hlevel.sameName, rfl⟩, fun l hl hname => hlevel.le hr hl hname⟩
  · rcases Nat.lt_or_eq_of_le hij with hlt | rfl
    · obtain ⟨hjlength, hjget⟩ := List.getElem?_eq_some_iff.mp hj
      obtain ⟨hilength, higet⟩ := List.getElem?_eq_some_iff.mp hi
      have hle := List.pairwise_iff_getElem.mp hr i j hilength hjlength hlt
      rw [higet, hjget] at hle
      exact hle
    · cases hi.symm.trans hj
      exact Severity.le_refl s

/-- The highest level bears the name of the lowest one in capital letters, and comes out below the level between them. -/
theorem severityOf_le_iff_not_overtaken_capitals :
    let levels : List Level := [("low", .info), ("high", .error), ("LOW", .critical)]
    ofLevels levels = .ok ⟨levels⟩ ∧ levels[1]? = some ("high", .error) ∧ levels[2]? = some ("LOW", .critical) ∧
      Overtaken levels 1 "high" "LOW" ∧ ¬ severityOf ⟨levels⟩ "high" ≤ severityOf ⟨levels⟩ "LOW" := by
  intro levels
  have hok : ofLevels levels = .ok ⟨levels⟩ := rfl
  have hovertaken : Overtaken levels 1 "high" "LOW" := by
    refine ⟨("low", .info), List.mem_cons_self, by decide, ?_⟩
    decide
  have hiff := (severityOf_le_iff_not_overtaken hok (i := 1) (j := 2) rfl rfl (by decide)).1
  exact ⟨hok, rfl, rfl, hovertaken, fun hle => hiff.mp hle hovertaken⟩

end Scale

end Vetting
