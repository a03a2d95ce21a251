import Vetting.Proofs.Binary64.Order
import Vetting.Proofs.Property.Smallest
import Vetting.Proofs.Text.Numerals

/-!
# Counter-examples that are whole numbers

Of two whole numbers, the one of the smaller magnitude is shown first, unless both magnitudes are rounded to one double:
then their texts decide, and these can be in the other order (`Generator.Misplaced`). That takes magnitudes from
`2 ^ 53` on.

* `Binary64.ofNat_approximates`, `Binary64.lt_of_ofNat_eq`: how far apart magnitudes are that are rounded to one double.
* `Generator.compareInputs_int_of_lt`: the order of two whole numbers.
* `Property.evaluate_smallest_int`: this order, and the whole number that is shown first.
-/

namespace Vetting

/-! ### Whole numbers as doubles -/

namespace Binary64

variable {m n : Nat}

theorem abs_ofInt (n : Int) : (ofInt n).abs = ofNat n.natAbs := by
  rw [abs, ofInt, ofRatio, (isNegative_ofSignMagnitude _ (roundUnits_le _ _)).2]
  rfl

/-- Up to `2 ^ 63`, the rounded number is at most 512 away. -/
theorem ofNat_approximates (h : n ≤ 2 ^ 63) : (ofNat n).Approximates n 512 := by
  have hunit : (0 : ℚ) < 2 ^ unitShift := by positivity
  have hvalue : ((n <<< unitShift : Nat) : ℚ) / (1 : Nat) / 2 ^ unitShift = n := by
    rw [Nat.shiftLeft_eq, Nat.cast_one, div_one, Nat.cast_mul, Nat.cast_pow, Nat.cast_ofNat]
    exact mul_div_cancel_right₀ _ hunit.ne'
  obtain hlt | rfl := Nat.lt_or_eq_of_le h
  · have hround := approximates_round (p := 63) (n <<< unitShift) one_pos (by rw [hvalue]; exact_mod_cast hlt) (by decide)
    rw [hvalue] at hround
    exact hround.mono (by norm_num)
  · -- The largest magnitude is a power of two.
    exact (approximates_ofNat (e := 11) (by decide) (by decide) (by decide)).mono (by norm_num)

theorem ofNat_isFinite (h : n ≤ 2 ^ 63) : (ofNat n).isFinite = true := (ofNat_approximates h).finite

theorem ofNat_eq (n : Nat) : ofNat n = ofSignMagnitude false (ofNat n).magnitudeBits := by
  rw [ofNat, ofRatio, (isNegative_ofSignMagnitude _ (roundUnits_le _ _)).2]

/-- A number without sign is determined by its magnitude. -/
theorem ofNat_eq_iff : ofNat m = ofNat n ↔ (ofNat m).magnitudeBits = (ofNat n).magnitudeBits := by
  refine ⟨congrArg _, fun h => ?_⟩
  rw [ofNat_eq m, ofNat_eq n, h]

theorem ofNat_mono (h : m ≤ n) : (ofNat m).magnitudeBits ≤ (ofNat n).magnitudeBits := by
  rw [ofNat, ofNat, ofRatio, ofRatio, (isNegative_ofSignMagnitude _ (roundUnits_le _ _)).2,
    (isNegative_ofSignMagnitude _ (roundUnits_le _ _)).2]
  refine roundUnits_mono 1 ?_
  rw [Nat.shiftLeft_eq, Nat.shiftLeft_eq]
  exact Nat.mul_le_mul_right _ h

theorem totalRank_ofNat (n : Nat) : (ofNat n).totalRank = (ofNat n).magnitudeBits := by
  have hsign : (ofNat n).isNegative = false := (isNegative_ofSignMagnitude false (roundUnits_le _ _)).1
  rw [totalRank, hsign]
  rfl

theorem zero_add_ofNat (h : (ofNat n).isFinite = true) : zero + ofNat n = ofNat n := by
  rw [isFinite, decide_eq_true_eq] at h
  rw [ofNat_eq n]
  exact zero_add_ofSignMagnitude h

/-- Magnitudes that are rounded to one double are large, and close to each other. -/
theorem lt_of_ofNat_eq (h : m < n) (hn : n ≤ 2 ^ 63) (heq : ofNat m = ofNat n) : 2 ^ 53 ≤ m ∧ n ≤ m + 1024 := by
  refine ⟨Nat.le_of_not_lt fun hsmall => ?_, ?_⟩
  · -- Up to `2 ^ 53`, the next whole number is a double of its own.
    have hbetween : ofNat m = ofNat (m + 1) := by
      have hmono := ofNat_mono (show m + 1 ≤ n from h)
      rw [← heq] at hmono
      exact ofNat_eq_iff.mpr (Nat.le_antisymm (ofNat_mono (Nat.le_succ m)) hmono)
    have hvalue := (approximates_ofNat (e := 0) (n := m) (by simpa using hsmall) (by simp) (by decide)).value_eq
    have hnext : (ofNat (m + 1)).value = (m + 1 : Nat) := by
      obtain hlt | hlast := Nat.lt_or_eq_of_le (Nat.succ_le_of_lt hsmall)
      · exact (approximates_ofNat (e := 0) (by simpa using hlt) (by simp) (by decide)).value_eq
      · rw [show m + 1 = 2 ^ 53 from hlast]
        exact (approximates_ofNat (e := 1) (by decide) (by decide) (by decide)).value_eq
    rw [← hbetween, hvalue, Nat.cast_inj] at hnext
    omega
  · have hlow := (abs_le.mp (ofNat_approximates (h.le.trans hn)).error).2
    have hhigh := (abs_le.mp (ofNat_approximates hn).error).1
    rw [heq] at hlow
    have hle : (n : ℚ) ≤ m + 1024 := by linarith
    exact_mod_cast hle

end Binary64

/-! ### Whole numbers as argument lists -/

namespace Generator

open Text

/-- The larger number `b` alone has a sign, or both have one or none and `b` has more digits. -/
def SpelledFirst (b a : Int) : Prop :=
  (0 ≤ a ∧ b < 0) ∨ ((a < 0 ↔ b < 0) ∧ (digits a.natAbs).length < (digits b.natAbs).length)

/-- Two whole numbers whose magnitudes are rounded to one double, while the text of the second comes first. -/
structure Misplaced (a b : Int) : Prop where
  rounded : Binary64.ofNat a.natAbs = Binary64.ofNat b.natAbs
  spelled : SpelledFirst b a

variable {a b : Int}

theorem toList_compact_int (n : Int) : (Json.arr [.int n]).compact.toList = '[' :: (numeral n ++ [']']) := by
  change ("[" ++ (toString n ++ "") ++ "]").toList = _
  simp only [String.toList_append, toList_toString]
  simp

theorem totalWeight_int (h : a.natAbs ≤ 2 ^ 63) : totalWeight [.int a] = ⟨0, Binary64.ofNat a.natAbs⟩ := by
  simp only [totalWeight, addWeights, weight, Weight.add]
  rw [Binary64.abs_ofInt, Binary64.zero_add_ofNat (Binary64.ofNat_isFinite h)]

/-- Argument lists of one size are compared by magnitude, then by text. -/
theorem compareInputs_of_size_eq {x y : List Json} {n : Nat} {u v : Binary64} (hx : totalWeight x = ⟨n, u⟩)
    (hy : totalWeight y = ⟨n, v⟩) :
    compareInputs x y = (u.totalCompare v).then (compare (Json.arr x).compact (Json.arr y).compact) := by
  have hsize : compare n n = .eq := Std.ReflCmp.compare_self
  rw [compareInputs, hx, hy]
  simp only [hsize, Ordering.eq_then]

theorem compareInputs_int (ha : a.natAbs ≤ 2 ^ 63) (hb : b.natAbs ≤ 2 ^ 63) :
    compareInputs [.int a] [.int b] =
      (compare ((Binary64.ofNat a.natAbs).magnitudeBits : Int) (Binary64.ofNat b.natAbs).magnitudeBits).then
        (compare (Json.arr [.int a]).compact (Json.arr [.int b]).compact) := by
  rw [compareInputs_of_size_eq (totalWeight_int ha) (totalWeight_int hb), Binary64.totalCompare,
    Binary64.totalRank_ofNat, Binary64.totalRank_ofNat]

/-- The text of the smaller number comes first, if the other one does not have a sign or a digit in advance. -/
theorem numeral_append_lt (h : a.natAbs < b.natAbs) (hspelled : ¬ SpelledFirst b a) (s t : List Char) :
    numeral a ++ s < numeral b ++ t := by
  have hmono := length_digits_mono h.le
  have hdigits (hsign : a < 0 ↔ b < 0) : digits a.natAbs ++ s < digits b.natAbs ++ t :=
    digits_append_lt h (Nat.le_antisymm hmono (Nat.le_of_not_lt fun hlt => hspelled (.inr ⟨hsign, hlt⟩))) s t
  unfold numeral
  obtain hneg | hpos := Int.lt_or_le a 0 <;> obtain hneg' | hpos' := Int.lt_or_le b 0
  · rw [if_pos hneg, if_pos hneg']
    exact List.Lex.cons (hdigits (iff_of_true hneg hneg'))
  · obtain ⟨d, rest, hd, hfirst⟩ := exists_digits_eq b.natAbs
    rw [if_pos hneg, if_neg (Int.not_lt.mpr hpos'), hfirst]
    exact List.Lex.rel (minus_lt_digitChar hd)
  · exact absurd (.inl ⟨hpos, hneg'⟩) hspelled
  · rw [if_neg (Int.not_lt.mpr hpos), if_neg (Int.not_lt.mpr hpos')]
    exact hdigits (iff_of_false (Int.not_lt.mpr hpos) (Int.not_lt.mpr hpos'))

theorem Misplaced.bounds (h : Misplaced a b) (hlt : a.natAbs < b.natAbs) (hb : b.natAbs ≤ 2 ^ 63) :
    2 ^ 53 ≤ a.natAbs ∧ b.natAbs ≤ a.natAbs + 1024 :=
  Binary64.lt_of_ofNat_eq hlt hb h.rounded

/-- The text of the larger number comes first. -/
theorem Misplaced.numeral_append_lt (h : Misplaced a b) (hlt : a.natAbs < b.natAbs) (hb : b.natAbs ≤ 2 ^ 63)
    (s t : List Char) : numeral b ++ t < numeral a ++ s := by
  unfold numeral
  obtain ⟨hpos, hneg⟩ | ⟨hsign, hmore⟩ := h.spelled
  · obtain ⟨d, rest, hd, hfirst⟩ := exists_digits_eq a.natAbs
    rw [if_pos hneg, if_neg (Int.not_lt.mpr hpos), hfirst]
    exact List.Lex.rel (minus_lt_digitChar hd)
  · -- The larger number has one digit more, and what is left without it is much smaller.
    obtain ⟨hlarge, hclose⟩ := h.bounds hlt hb
    have hlarge : 2048 ≤ a.natAbs := (by decide : 2048 ≤ 2 ^ 53).trans hlarge
    have hten : 10 ≤ b.natAbs := by omega
    have hcut : b.natAbs / 10 < a.natAbs := by omega
    have hfewer := length_digits_mono hcut.le
    have hlength := length_digits_of_le hten
    have hdigits := digits_append_lt_of_div_lt hten hcut (by omega) s t
    obtain hneg | hpos := Int.lt_or_le a 0
    · rw [if_pos hneg, if_pos (hsign.mp hneg)]
      exact List.Lex.cons hdigits
    · have hpos' : ¬ b < 0 := fun hneg => absurd (hsign.mpr hneg) (Int.not_lt.mpr hpos)
      rw [if_neg (Int.not_lt.mpr hpos), if_neg hpos']
      exact hdigits

theorem compare_compact_int {x y : Int} (h : numeral x ++ [']'] < numeral y ++ [']']) :
    compare (Json.arr [.int x]).compact (Json.arr [.int y]).compact = .lt := by
  refine compareOfLessAndEq_eq_lt.mpr ?_
  rw [String.lt_iff, toList_compact_int, toList_compact_int]
  exact List.Lex.cons h

/-- Of two whole numbers the one of the smaller magnitude comes first, or else they are misplaced. -/
theorem compareInputs_int_of_lt (h : a.natAbs < b.natAbs) (hb : b.natAbs ≤ 2 ^ 63) :
    (compareInputs [.int a] [.int b] = .lt ↔ ¬ Misplaced a b) ∧
      (Misplaced a b → compareInputs [.int a] [.int b] = .gt) := by
  rw [compareInputs_int (h.le.trans hb) hb]
  by_cases heq : Binary64.ofNat a.natAbs = Binary64.ofNat b.natAbs
  · have hself : compare ((Binary64.ofNat b.natAbs).magnitudeBits : Int) (Binary64.ofNat b.natAbs).magnitudeBits = .eq :=
      Std.ReflCmp.compare_self
    rw [heq, hself, Ordering.eq_then]
    by_cases hspelled : SpelledFirst b a
    · have hmisplaced : Misplaced a b := ⟨heq, hspelled⟩
      have hgt := Std.OrientedCmp.gt_of_lt (compare_compact_int (hmisplaced.numeral_append_lt h hb [']'] [']']))
      rw [hgt]
      exact ⟨iff_of_false (by decide) (fun hnot => hnot hmisplaced), fun _ => rfl⟩
    · have hnot : ¬ Misplaced a b := fun hmisplaced => hspelled hmisplaced.spelled
      have hlt := compare_compact_int (numeral_append_lt h hspelled [']'] [']'])
      exact ⟨iff_of_true hlt hnot, fun hmisplaced => absurd hmisplaced hnot⟩
  · have hnot : ¬ Misplaced a b := fun hmisplaced => heq hmisplaced.rounded
    have hle := Binary64.ofNat_mono h.le
    have hne : (Binary64.ofNat a.natAbs).magnitudeBits ≠ (Binary64.ofNat b.natAbs).magnitudeBits := fun hbits =>
      heq (Binary64.ofNat_eq_iff.mpr hbits)
    have hlt : compare ((Binary64.ofNat a.natAbs).magnitudeBits : Int) (Binary64.ofNat b.natAbs).magnitudeBits = .lt :=
      Std.compare_eq_lt.mpr (by omega)
    rw [hlt]
    exact ⟨iff_of_true rfl hnot, fun hmisplaced => absurd hmisplaced hnot⟩

theorem natAbs_le_or_misplaced (h : compareInputs [.int a] [.int b] ≠ .gt) (ha : a.natAbs ≤ 2 ^ 63) :
    a.natAbs ≤ b.natAbs ∨ Misplaced b a := by
  by_cases hle : a.natAbs ≤ b.natAbs
  · exact .inl hle
  · refine .inr ?_
    by_contra hnot
    have hlt := (compareInputs_int_of_lt (Nat.lt_of_not_le hle) ha).1.mpr hnot
    exact h (Std.OrientedCmp.gt_of_lt hlt)

end Generator

/-! ### The whole number that is shown first -/

namespace Property

open Generator

variable {limit : Nat} {cases : List Case} {r : PropertyResult}

/-- The first counter-example that is shown is not larger than any distinct one. -/
theorem ShowsSmallest.exists_least (h : ShowsSmallest limit cases r) :
    ∃ e ∈ distinct cases, r.counterExample = some e.input ∧
      ∀ f ∈ distinct cases, compareInputs e.input f.input ≠ .gt := by
  obtain ⟨e, rest, hlist, hshown, -⟩ := h.head
  have hmem : e ∈ r.counterExamples := hlist ▸ List.mem_cons_self
  obtain ⟨sorted, hperm, hsorted, -, htake⟩ := h.smallest
  have hdistinct : e ∈ distinct cases := hperm.mem_iff.mp (List.mem_of_mem_take (htake ▸ hmem))
  refine ⟨e, hdistinct, hshown, fun f hf => ?_⟩
  by_cases hlisted : f ∈ r.counterExamples
  · have hordered := h.ordered
    rw [hlist] at hordered hlisted
    obtain rfl | hrest := List.mem_cons.mp hlisted
    · have hself : compareInputs f.input f.input = .eq := Std.ReflCmp.compare_self
      rw [hself]
      decide
    · exact (List.pairwise_cons.mp hordered).1 f hrest
  · exact h.omitted f hf hlisted e hmem

theorem mem_failures_iff {e : CounterExample} :
    e ∈ failures cases ↔ ∃ c ∈ cases, c.input = e.input ∧ c.failure = some e.observed := by
  rw [failures, List.mem_filterMap]
  constructor
  · rintro ⟨c, hc, hmade⟩
    obtain ⟨observed, hfailure, rfl⟩ := Option.map_eq_some_iff.mp hmade
    exact ⟨c, hc, rfl, hfailure⟩
  · rintro ⟨c, hc, hinput, hfailure⟩
    exact ⟨c, hc, Option.map_eq_some_iff.mpr ⟨e.observed, hfailure, by rw [hinput]⟩⟩

/-- A whole number alone is equal to no other argument list. -/
theorem eq_of_equalItems_int {n : Int} {x : List Json} (h : Json.equalItems x [.int n] = true) : x = [.int n] := by
  cases x with
  | nil => cases h
  | cons v rest =>
    have h : Json.equal v (.int n) = true ∧ Json.equalItems rest [] = true := Bool.and_eq_true_iff.mp h
    cases rest with
    | cons w more => cases h.2
    | nil =>
      cases v with
      | int m => rw [eq_of_beq (a := m) (b := n) h.1]
      | _ => cases h.1

/-- A case that fails on a whole number has its distinct counter-example. -/
theorem exists_distinct_int {c : Case} {b : Int} (hc : c ∈ cases) (hfailed : c.failure ≠ none)
    (hinput : c.input = [.int b]) : ∃ f ∈ distinct cases, f.input = [.int b] := by
  obtain ⟨observed, hobserved⟩ := Option.ne_none_iff_exists'.mp hfailed
  have hmem : ⟨[.int b], observed⟩ ∈ failures cases := mem_failures_iff.mpr ⟨c, hc, hinput, hobserved⟩
  obtain hdistinct | ⟨f, hf, hrepeats⟩ := (firsts_distinct cases).exists_of_mem hmem
  · exact ⟨_, hdistinct, rfl⟩
  · exact ⟨f, hf, eq_of_equalItems_int hrepeats⟩

theorem ShowsSmallest.exists_int (h : ShowsSmallest limit cases r)
    (hints : ∀ c ∈ cases, ∃ n : Int, n.natAbs ≤ 2 ^ 63 ∧ c.input = [.int n]) :
    ∃ a : Int, r.counterExample = some [.int a] ∧ (∃ c ∈ cases, c.failure ≠ none ∧ c.input = [.int a]) ∧
      ∀ c ∈ cases, c.failure ≠ none → ∀ b : Int, c.input = [.int b] → a.natAbs ≤ b.natAbs ∨ Misplaced b a := by
  obtain ⟨e, he, hshown, hleast⟩ := h.exists_least
  obtain ⟨before, c, after, hcases, hinput, hfailure, -⟩ := exists_first_case he
  have hc : c ∈ cases := hcases ▸ List.mem_append_right _ List.mem_cons_self
  obtain ⟨a, ha, hint⟩ := hints c hc
  have hfirst : e.input = [.int a] := hinput.symm.trans hint
  have hfailed : c.failure ≠ none := by
    rw [hfailure]
    exact Option.some_ne_none _
  refine ⟨a, hfirst ▸ hshown, ⟨c, hc, hfailed, hint⟩, fun d hd hfails b hb => ?_⟩
  obtain ⟨f, hf, hother⟩ := exists_distinct_int hd hfails hb
  have horder := hleast f hf
  rw [hfirst, hother] at horder
  exact natAbs_le_or_misplaced horder ha

/-- **Counter-examples that are whole numbers**: of two, the one of the smaller magnitude comes first, unless they are
misplaced; then the other one does, and their magnitudes are large and close. So the first one that is shown has the
smallest magnitude of all, or is misplaced before those that have a smaller one. -/
theorem evaluate_smallest_int {config : PropertyTestConfig} (hstop : config.stopOnFirstViolation = false)
    (hmax : 1 ≤ config.maxCounterexamples) (property : String)
    (hints : ∀ c ∈ cases, ∃ n : Int, n.natAbs ≤ 2 ^ 63 ∧ c.input = [.int n]) :
    (∀ a b : Int, a.natAbs < b.natAbs → b.natAbs ≤ 2 ^ 63 →
      (compareInputs [.int a] [.int b] = .lt ↔ ¬ Misplaced a b) ∧
        (Misplaced a b → compareInputs [.int a] [.int b] = .gt ∧ 2 ^ 53 ≤ a.natAbs ∧ b.natAbs ≤ a.natAbs + 1024)) ∧
      ((∃ c ∈ cases, c.failure ≠ none) →
        ∃ a : Int, (evaluate config property cases).counterExample = some [.int a] ∧
          (∃ c ∈ cases, c.failure ≠ none ∧ c.input = [.int a]) ∧
          ∀ c ∈ cases, c.failure ≠ none → ∀ b : Int, c.input = [.int b] → a.natAbs ≤ b.natAbs ∨ Misplaced b a) := by
  refine ⟨fun a b hlt hb => ?_, fun hfailed => ?_⟩
  · obtain ⟨hless, hgreater⟩ := compareInputs_int_of_lt hlt hb
    exact ⟨hless, fun hmisplaced => ⟨hgreater hmisplaced, hmisplaced.bounds hlt hb⟩⟩
  · exact (showsSmallest_evaluate hstop hmax property hfailed).exists_int hints

/-- Sixteen nines and the next number are rounded to one double, and the next number is shown first. -/
theorem evaluate_smallest_int_digits :
    let a : Int := 9999999999999999
    let b : Int := 10000000000000000
    let config : PropertyTestConfig := { stopOnFirstViolation := false }
    let cases : List Case := [⟨[.int a], some "raised"⟩, ⟨[.int b], some "raised"⟩]
    Misplaced a b ∧ a.natAbs < b.natAbs ∧ b.natAbs ≤ 2 ^ 63 ∧ compareInputs [.int a] [.int b] = .gt ∧
      config.stopOnFirstViolation = false ∧ 1 ≤ config.maxCounterexamples ∧
      (∀ c ∈ cases, ∃ n : Int, n.natAbs ≤ 2 ^ 63 ∧ c.input = [.int n]) ∧ (∃ c ∈ cases, c.failure ≠ none) ∧
      (evaluate config "p" cases).counterExample = some [.int b] ∧ ∀ c ∈ cases, c.failure ≠ none → ∀ n : Int,
        c.input = [.int n] → b.natAbs ≤ n.natAbs ∨ Misplaced n b := by
  intro a b config cases
  have hmisplaced : Misplaced a b := ⟨by decide +kernel, .inr ⟨by decide, by decide +kernel⟩⟩
  have hlt : a.natAbs < b.natAbs := by decide
  have hb : b.natAbs ≤ 2 ^ 63 := by decide
  have hmax : 1 ≤ config.maxCounterexamples := by decide
  have hints : ∀ c ∈ cases, ∃ n : Int, n.natAbs ≤ 2 ^ 63 ∧ c.input = [.int n] := by
    intro c hc
    obtain rfl | hc := List.mem_cons.mp hc
    · exact ⟨a, hlt.le.trans hb, rfl⟩
    · exact ⟨b, hb, by rw [List.mem_singleton.mp hc]⟩
  obtain ⟨hpair, hfirst⟩ := evaluate_smallest_int rfl hmax "p" hints
  have hgreater : compareInputs [.int a] [.int b] = .gt := ((hpair a b hlt hb).2 hmisplaced).1
  have hfailed : ∃ c ∈ cases, c.failure ≠ none := ⟨_, List.mem_cons_self, by decide⟩
  have hsecond : ⟨[.int b], some "raised"⟩ ∈ cases := List.mem_cons_of_mem _ List.mem_cons_self
  obtain ⟨n, hshown, ⟨c, hc, -, hinput⟩, hleast⟩ := hfirst hfailed
  have hn : n = b := by
    obtain rfl | hc := List.mem_cons.mp hc
    · -- The input of the first case is behind that of the other one.
      obtain ⟨e, -, hhead, hbefore⟩ := (showsSmallest_evaluate rfl hmax "p" hfailed).exists_least
      obtain ⟨f, hf, hother⟩ := exists_distinct_int hsecond (by decide) rfl
      have horder := hbefore f hf
      rw [← Option.some.inj (hshown.symm.trans hhead), ← hinput, hother] at horder
      exact absurd hgreater horder
    · rw [List.mem_singleton.mp hc] at hinput
      cases hinput
      rfl
  exact ⟨hmisplaced, hlt, hb, hgreater, rfl, hmax, hints, hfailed, hn ▸ hshown, hn ▸ hleast⟩

end Property

end Vetting
