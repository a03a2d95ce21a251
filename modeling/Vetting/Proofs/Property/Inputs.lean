import Mathlib.Data.List.Forall2
import Vetting.Proofs.Config.RoundTrip
import Vetting.Proofs.Json.Distinct
import Vetting.Proofs.Property.Drawing
import Vetting.Proofs.Random.Range

/-!
# What argument lists are made up

`Generator.Suits` says of a value that it is of a type and within the bounds of a configuration, at every depth. Boundary
values suit their type and so do random ones, and from there it is a matter of lists:

* `Generator.generate_suits`: the argument lists of a number of trials, one value for each parameter, boundary values
  first.
* `Generator.generate_take`: with more trials, argument lists are only added at the end.
-/

namespace Vetting

namespace Generator

variable {c : PropertyTestConfig} {t : ParamType} {v : Json}

/-- A value of a type, in which whole numbers and doubles lie in their ranges, and texts and lists are not longer than
they may be. -/
inductive Suits (c : PropertyTestConfig) : ParamType → Json → Prop
  | bool (b : Bool) : Suits c .bool (.bool b)
  | int {n : Int} : c.intMin ≤ n → n ≤ c.intMax → Suits c .int (.int n)
  | float {x : Binary64} : x.isFinite = true → c.floatMin.numLe x = true → x.numLe c.floatMax = true →
      Suits c .float (.float x)
  | str {s : String} : s.length ≤ c.maxStringLen → Suits c .str (.str s)
  | list {t : ParamType} {items : List Json} : items.length ≤ c.maxListLen → (∀ v ∈ items, Suits c t v) →
      Suits c (.list t) (.arr items)

theorem acceptsAll_of_forall {items : List Json} (h : ∀ v ∈ items, t.accepts v = true) :
    ParamType.acceptsAll t items = true := by
  induction items with
  | nil => rfl
  | cons v rest ih =>
    obtain ⟨hv, hrest⟩ := List.forall_mem_cons.mp h
    exact Bool.and_eq_true_iff.mpr ⟨hv, ih hrest⟩

/-- What suits a type is accepted for it. -/
theorem Suits.accepts (hwords : c.FitsWords) (h : Suits c t v) : t.accepts v = true := by
  induction h with
  | bool b => rfl
  | int hmin hmax =>
    have hleast := hwords.intMin.1
    have hmost := hwords.intMax.2
    refine Bool.and_eq_true_iff.mpr ⟨decide_eq_true (hleast.trans hmin), decide_eq_true ?_⟩
    simp only [UInt64.size] at *
    omega
  | float _ _ _ => rfl
  | str _ => rfl
  | list _ _ ih => exact acceptsAll_of_forall ih

/-! ### Boundary values -/

theorem unique_eq (seen l : List Json) : unique seen l = List.eraseDupsBy.loop (fun v w => Json.equal w v) l seen := by
  induction l generalizing seen with
  | nil => rfl
  | cons v rest ih =>
    rw [unique, List.eraseDupsBy.loop]
    cases seen.any (Json.equal · v) with
    | true => exact ih seen
    | false => exact ih (v :: seen)

/-- Of boundary values that are equal the first is kept. -/
theorem firsts_edgeValues (c : PropertyTestConfig) (t : ParamType) :
    Firsts (fun v w => Json.equal w v) (candidates c t) (edgeValues c t) := by
  rw [edgeValues, unique_eq]
  exact firsts_eraseDupsBy _ _

theorem mem_candidates_int_iff {n : Int} :
    .int n ∈ candidates c .int ↔ (n = 0 ∨ n = 1 ∨ n = -1 ∨ n = c.intMin ∨ n = c.intMax) ∧ c.intMin ≤ n ∧ n ≤ c.intMax := by
  simp [candidates]

theorem int_mem_edgeValues_iff {n : Int} : .int n ∈ edgeValues c .int ↔ .int n ∈ candidates c .int := by
  refine ⟨(firsts_edgeValues c .int).mem_of_mem, fun h => ?_⟩
  obtain hkept | ⟨w, hw, hsame⟩ := (firsts_edgeValues c .int).exists_of_mem h
  · exact hkept
  · cases w with
    | int m => exact eq_of_beq hsame ▸ hw
    | _ => cases hsame

/-- What lies within finite bounds is a value. -/
theorem suits_floatValue (hmin : c.floatMin.isFinite = true) (hmax : c.floatMax.isFinite = true) {x : Binary64}
    (hle : c.floatMin.numLe x = true) (hge : x.numLe c.floatMax = true) : Suits c .float (floatValue x) := by
  have hbelow : c.floatMin.rank ≤ x.rank := of_decide_eq_true (Bool.and_eq_true_iff.mp hle).2
  have habove : x.rank ≤ c.floatMax.rank := of_decide_eq_true (Bool.and_eq_true_iff.mp hge).2
  have hfinite := Binary64.isFinite_of_between hmin hmax hbelow habove
  rw [floatValue, if_pos hfinite]
  exact .float hfinite hle hge

theorem candidates_suit (hc : c.validate = .ok ()) (t : ParamType) : ∀ v ∈ candidates c t, Suits c t v := by
  obtain ⟨-, -, ⟨hmin, hmax, -⟩, -⟩ := PropertyTestConfig.validate_eq_ok_iff.mp hc
  induction t with
  | bool => exact List.forall_mem_cons.mpr ⟨.bool false, List.forall_mem_singleton.mpr (.bool true)⟩
  | int =>
    refine List.forall_mem_map.mpr fun n hn => ?_
    obtain ⟨hle, hge⟩ := Bool.and_eq_true_iff.mp (List.mem_filter.mp hn).2
    exact .int (of_decide_eq_true hle) (of_decide_eq_true hge)
  | float =>
    refine List.forall_mem_map.mpr fun x hx => ?_
    obtain ⟨hle, hge⟩ := Bool.and_eq_true_iff.mp (List.mem_filter.mp hx).2
    exact suits_floatValue hmin hmax hle hge
  | str =>
    refine List.forall_mem_append.mpr ⟨List.forall_mem_append.mpr ⟨?_, ?_⟩, ?_⟩
    · exact List.forall_mem_singleton.mpr (.str (Nat.zero_le _))
    · split
      · rename_i hone
        exact List.forall_mem_cons.mpr ⟨.str hone, List.forall_mem_singleton.mpr (.str hone)⟩
      · exact List.forall_mem_nil _
    · split
      · refine List.forall_mem_singleton.mpr (.str (Nat.le_of_eq ?_))
        rw [String.length_pushn]
        exact Nat.zero_add _
      · exact List.forall_mem_nil _
  | list t ih =>
    refine List.forall_mem_append.mpr ⟨List.forall_mem_singleton.mpr (.list (Nat.zero_le _) (List.forall_mem_nil _)), ?_⟩
    split
    · rename_i hone
      refine List.forall_mem_map.mpr fun v hv => .list hone (List.forall_mem_singleton.mpr ?_)
      exact ih v ((firsts_edgeValues c t).mem_of_mem (List.mem_of_mem_take hv))
    · exact List.forall_mem_nil _

theorem edgeValues_suit (hc : c.validate = .ok ()) (t : ParamType) : ∀ v ∈ edgeValues c t, Suits c t v :=
  fun v hv => candidates_suit hc t v ((firsts_edgeValues c t).mem_of_mem hv)

theorem candidates_ne_nil (hc : c.validate = .ok ()) (t : ParamType) : candidates c t ≠ [] := by
  cases t with
  | bool => exact List.cons_ne_nil _ _
  | int =>
    have hmem := (mem_candidates_int_iff (c := c) (n := c.intMin)).mpr
      ⟨.inr (.inr (.inr (.inl rfl))), Int.le_refl _, (c.bounds_of_validate hc).1⟩
    exact List.ne_nil_of_mem hmem
  | float =>
    obtain ⟨-, -, ⟨hmin, -, -⟩, -⟩ := PropertyTestConfig.validate_eq_ok_iff.mp hc
    have hself : c.floatMin.numLe c.floatMin = true := (Binary64.numLe_iff hmin hmin).mpr (Int.le_refl _)
    have hmem : c.floatMin ∈ [Binary64.zero, .ofInt 1, .ofInt (-1), c.floatMin, c.floatMax].filter
        fun x => c.floatMin.numLe x && x.numLe c.floatMax :=
      List.mem_filter.mpr ⟨by simp, Bool.and_eq_true_iff.mpr ⟨hself, (c.bounds_of_validate hc).2⟩⟩
    exact List.ne_nil_of_mem (List.mem_map_of_mem hmem)
  | str => exact List.ne_nil_of_mem (List.mem_append_left _ (List.mem_append_left _ List.mem_cons_self))
  | list t => exact List.ne_nil_of_mem (List.mem_append_left _ List.mem_cons_self)

/-! ### Random values -/

theorem randomValue_suits (hc : c.validate = .ok ()) (hwords : c.FitsWords) (t : ParamType) :
    (Generator.randomValue c t).Meets (Suits c t) fun _ => True := by
  obtain ⟨-, hint, ⟨hmin, hmax, -⟩, -⟩ := PropertyTestConfig.validate_eq_ok_iff.mp hc
  induction t with
  | bool => exact Draw.bool_meets.bind fun b _ => Draw.meets_pure (.bool b)
  | int =>
    refine (Draw.int_meets_range hint hwords.intMin.1 hwords.intMax.2).bind fun n hn => ?_
    exact Draw.meets_pure (.int hn.1 hn.2)
  | float =>
    refine (Draw.float_meets_range hmin hmax (c.bounds_of_validate hc).2).bind fun x hx => ?_
    exact Draw.meets_pure (suits_floatValue hmin hmax hx.2.1 hx.2.2)
  | str =>
    refine (Draw.nat_meets _).bind fun n hn => (repeatDraw_meets n fun _ => char_meets).bind fun text htext => ?_
    refine Draw.meets_pure (.str ?_)
    rw [String.length_ofList, htext.1]
    exact hn
  | list t ih =>
    refine (Draw.nat_meets _).bind fun n hn => (repeatDraw_meets n fun _ => ih).bind fun items hitems => ?_
    exact Draw.meets_pure (.list (hitems.1.trans_le hn) hitems.2)

/-! ### Argument lists -/

/-- The value that a trial has for a parameter: one that suits its type, and its boundary value for the trial as long as
there is one. -/
structure Given (c : PropertyTestConfig) (trial : Nat) (param : ParamType × List Json) (v : Json) : Prop where
  suits : Suits c param.1 v
  edge : ∀ e, param.2[trial]? = some e → v = e

theorem value_given (hc : c.validate = .ok ()) (hwords : c.FitsWords) (trial : Nat) {edges : List Json}
    (hedges : ∀ e ∈ edges, Suits c t e) :
    (match edges[trial]? with
      | some edge => pure edge
      | none => randomValue c t).Meets (Given c trial (t, edges)) fun _ => True := by
  cases hedge : edges[trial]? with
  | some edge =>
    refine Draw.meets_pure ⟨hedges edge (List.mem_of_getElem? hedge), fun e he => ?_⟩
    exact Option.some.inj (hedge.symm.trans he)
  | none =>
    refine (randomValue_suits hc hwords t).mono (fun v hv => ⟨hv, fun e he => ?_⟩) fun _ h => h
    cases hedge.symm.trans he

theorem arguments_given (hc : c.validate = .ok ()) (hwords : c.FitsWords) (trial : Nat)
    (params : List (ParamType × List Json)) (hedges : ∀ p ∈ params, ∀ e ∈ p.2, Suits c p.1 e) :
    (arguments c trial params).Meets (fun x => List.Forall₂ (Given c trial) params x) fun _ => True := by
  induction params with
  | nil => exact Draw.meets_pure .nil
  | cons p rest ih =>
    obtain ⟨t, edges⟩ := p
    obtain ⟨hfirst, hrest⟩ := List.forall_mem_cons.mp hedges
    rw [arguments_cons]
    refine (value_given hc hwords trial hfirst).bind fun v hv => (ih hrest).bind fun vs hvs => ?_
    exact Draw.meets_pure (.cons hv hvs)

theorem trialsFrom_given (hc : c.validate = .ok ()) (hwords : c.FitsWords) (params : List (ParamType × List Json))
    (hedges : ∀ p ∈ params, ∀ e ∈ p.2, Suits c p.1 e) (start count : Nat) :
    (trialsFrom c params start count).Meets
      (fun inputs => ∀ (i : Nat) x, inputs[i]? = some x → List.Forall₂ (Given c (start + i)) params x) fun _ => True := by
  induction count generalizing start with
  | zero =>
    refine Draw.meets_pure fun i x hx => ?_
    cases hx
  | succ count ih =>
    refine (arguments_given hc hwords start params hedges).bind fun first hfirst => ?_
    refine (ih (start + 1)).bind fun rest hrest => Draw.meets_pure fun i x hx => ?_
    cases i with
    | zero =>
      cases hx
      exact hfirst
    | succ i =>
      have := hrest i x hx
      rwa [Nat.add_assoc, Nat.add_comm 1] at this

/-- **Argument lists under an accepted configuration**: where they can be made up, there is one for each trial, with one
value for each parameter in order, which is accepted for its type and within the bounds at every depth, and which is a
boundary value as long as there is one for the trial. Boundary values differ from each other, and no type is without;
those of whole numbers are both bounds, and what is within them of zero, one and minus one. -/
theorem generate_suits (hc : c.validate = .ok ()) (hwords : c.FitsWords) :
    (∀ params trials seed inputs words, generate c params trials (.ofSeed seed) = .ok (inputs, words) →
      inputs.length = trials ∧ ∀ (i : Nat) x, inputs[i]? = some x →
        List.Forall₂ (fun t v => t.accepts v = true ∧ Suits c t v ∧ ∀ e, (edgeValues c t)[i]? = some e → v = e)
          params x) ∧
      (∀ t, (edgeValues c t).Pairwise (fun v w => Json.equal v w = false) ∧ edgeValues c t ≠ []) ∧
      ∀ n, .int n ∈ edgeValues c .int ↔
        (n = 0 ∨ n = 1 ∨ n = -1 ∨ n = c.intMin ∨ n = c.intMax) ∧ c.intMin ≤ n ∧ n ≤ c.intMax := by
  refine ⟨fun params trials seed inputs words h => ⟨length_of_generate h, fun i x hx => ?_⟩, fun t => ?_, fun n => ?_⟩
  · have hedges : ∀ p ∈ params.map fun t => (t, edgeValues c t), ∀ e ∈ p.2, Suits c p.1 e :=
      List.forall_mem_map.mpr fun t _ => edgeValues_suit hc t
    have hgiven := (trialsFrom_given hc hwords _ hedges 0 trials).of_ok h i x hx
    rw [Nat.zero_add, List.forall₂_map_left_iff] at hgiven
    exact hgiven.imp fun t v hv => ⟨hv.suits.accepts hwords, hv.suits, hv.edge⟩
  · have hfirsts := firsts_edgeValues c t
    exact ⟨hfirsts.pairwise, fun hnil => candidates_ne_nil hc t (hfirsts.eq_nil_iff.mp hnil)⟩
  · exact int_mem_edgeValues_iff.trans mem_candidates_int_iff

/-- The widest range of whole numbers, and lists of lists: in the last of six trials there are no boundary values
left. -/
theorem generate_suits_widest :
    let c : PropertyTestConfig := { intMin := -(2 ^ 63), intMax := 2 ^ 63 - 1, maxStringLen := 2, maxListLen := 2 }
    let params : List ParamType := [.int, .list (.list .str)]
    c.validate = .ok () ∧ c.FitsWords ∧ ∃ inputs words, generate c params 6 (.ofSeed 7) = .ok (inputs, words) ∧
      inputs.length = 6 ∧ ∃ x, inputs[5]? = some x ∧
        List.Forall₂ (fun t v => t.accepts v = true ∧ Suits c t v ∧ ∀ e, (edgeValues c t)[5]? = some e → v = e)
          params x := by
  intro c params
  have hc : c.validate = .ok () := PropertyTestConfig.validate_eq_ok_iff.mpr (by decide +kernel)
  have hseed : ∀ n, c.seed = some n → n < UInt64.size := by
    rintro n ⟨⟩
  have hwords : c.FitsWords := ⟨by decide, by decide, by decide, by decide, by decide, by decide, hseed⟩
  have hdrawn : (generate c params 6 (.ofSeed 7)).toOption.isSome = true := by decide +kernel
  cases hg : generate c params 6 (.ofSeed 7) with
  | error fault =>
    rw [hg] at hdrawn
    cases hdrawn
  | ok drawn =>
    obtain ⟨hlength, hsuits⟩ := (generate_suits hc hwords).1 params 6 7 drawn.1 drawn.2 hg
    obtain ⟨x, hx⟩ : ∃ x, drawn.1[5]? = some x := ⟨_, List.getElem?_eq_getElem (by omega)⟩
    exact ⟨hc, hwords, drawn.1, drawn.2, rfl, hlength, x, hx, hsuits 5 x hx⟩

/-! ### More trials -/

/-- The trials of a generation come one after the other. -/
theorem trialsFrom_add (params : List (ParamType × List Json)) (start m k : Nat) :
    trialsFrom c params start (m + k) =
      trialsFrom c params start m >>= fun first => trialsFrom c params (start + m) k >>= fun later =>
        pure (first ++ later) := by
  induction m generalizing start with
  | zero =>
    rw [Nat.zero_add]
    simp only [trialsFrom, pure_bind, List.nil_append, bind_pure, Nat.add_zero]
  | succ m ih =>
    rw [Nat.add_right_comm, trialsFrom, trialsFrom]
    simp only [ih (start + 1), bind_assoc, pure_bind, List.cons_append, Nat.add_assoc, Nat.add_comm 1]

/-- **More trials only add argument lists**: whatever the configuration, the argument lists of fewer trials from the
same seed are the first ones, each at the same place. -/
theorem generate_take (c : PropertyTestConfig) (params : List ParamType) (seed : UInt64) {m n : Nat} (hle : m ≤ n)
    {inputs : List (List Json)} {words : WordStream} (h : generate c params n (.ofSeed seed) = .ok (inputs, words)) :
    ∃ fewer words', generate c params m (.ofSeed seed) = .ok (fewer, words') ∧ fewer = inputs.take m ∧
      fewer.length = m ∧ ∀ (i : Nat) x, fewer[i]? = some x → inputs[i]? = some x := by
  obtain ⟨k, rfl⟩ := Nat.exists_eq_add_of_le hle
  rw [generate, trialsFrom_add] at h
  obtain ⟨fewer, between, hfewer, hrest⟩ := Draw.bind_eq_ok_iff.mp h
  obtain ⟨later, after, -, hpure⟩ := Draw.bind_eq_ok_iff.mp hrest
  cases hpure
  have hlength : fewer.length = m := length_of_generate hfewer
  refine ⟨fewer, between, hfewer, ?_, hlength, fun i x hx => ?_⟩
  · rw [← hlength, List.take_left']
    rfl
  · rw [List.getElem?_append_left (List.getElem?_eq_some_iff.mp hx).1]
    exact hx

/-- Three of four trials of a list of texts: the last of either is drawn. -/
theorem generate_take_texts :
    let c : PropertyTestConfig := { maxStringLen := 2, maxListLen := 2 }
    3 ≤ 4 ∧ ∃ inputs words fewer words', generate c [.list .str] 4 (.ofSeed 7) = .ok (inputs, words) ∧
      generate c [.list .str] 3 (.ofSeed 7) = .ok (fewer, words') ∧ fewer = inputs.take 3 ∧ fewer.length = 3 := by
  intro c
  have hmade : (generate c [.list .str] 4 (.ofSeed 7)).toOption.isSome = true := by decide +kernel
  cases hg : generate c [.list .str] 4 (.ofSeed 7) with
  | error fault =>
    rw [hg] at hmade
    cases hmade
  | ok drawn =>
    obtain ⟨fewer, words', hfewer, htake, hlength, -⟩ := generate_take c [.list .str] 7 (show 3 ≤ 4 by decide) hg
    exact ⟨by decide, drawn.1, drawn.2, fewer, words', rfl, hfewer, htake, hlength⟩

end Generator

end Vetting
