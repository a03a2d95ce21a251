import Vetting.Property.Generator
import Vetting.Proofs.Random.Uniform

/-!
# When argument lists can be made up

A configuration that was accepted leaves one way in which the generator is refused a draw: its bounds on doubles are
each finite, but too far apart. `Generator.generate_of_validate` says when this happens: not before a parameter with
doubles in it has used up its boundary values, and always then if its type is that of doubles itself.

* `Generator.randomValue_meets`: what a single draw can be refused for, by induction on the type.
* `Generator.arguments_meets`, `Generator.trialsFrom_meets`: the same of an argument list, and of many.
-/

namespace Vetting

/-! ### Accepted bounds -/

namespace PropertyTestConfig

variable {c : PropertyTestConfig}

theorem validate_eq_ok_iff :
    c.validate = .ok () ↔ c.trials ≠ 0 ∧ c.intMin ≤ c.intMax ∧
      (c.floatMin.isFinite = true ∧ c.floatMax.isFinite = true ∧ c.floatMax.numLt c.floatMin = false) ∧
      c.maxCounterexamples ≠ 0 ∧ (ParamType.ofText? c.defaultParamType).isSome = true := by
  simp only [validate, demand_bind_eq_ok_iff, demand_eq_ok_iff, Bool.and_eq_true, Bool.not_eq_true',
    decide_eq_true_eq, and_assoc]

/-- Neither of the accepted ranges is empty. -/
theorem bounds_of_validate (h : c.validate = .ok ()) :
    c.intMin ≤ c.intMax ∧ c.floatMin.numLe c.floatMax = true := by
  obtain ⟨-, hint, ⟨hmin, hmax, hlt⟩, -⟩ := validate_eq_ok_iff.mp h
  exact ⟨hint, Binary64.numLe_of_numLt_eq_false hmin hmax hlt⟩

/-- Whether the range of doubles is narrow enough to be drawn from. -/
def FloatsFit (c : PropertyTestConfig) : Prop := Draw.Fits c.floatMin c.floatMax

instance (c : PropertyTestConfig) : Decidable c.FloatsFit := inferInstanceAs (Decidable (Draw.Fits ..))

/-- Whether doubles are drawn for values of a type. -/
def DrawsFloat (c : PropertyTestConfig) : ParamType → Prop
  | .float => True
  | .list t => 0 < c.maxListLen ∧ c.DrawsFloat t
  | _ => False

end PropertyTestConfig

namespace Generator

open Draw

variable {c : PropertyTestConfig}

/-! ### Single values -/

theorem repeatDraw_meets {d : Draw α} {P : α → Prop} {Q : RangeFault → Prop} (n : Nat) (h : 0 < n → d.Meets P Q) :
    (repeatDraw d n).Meets (fun as => as.length = n ∧ ∀ a ∈ as, P a) Q := by
  induction n with
  | zero => exact meets_pure ⟨rfl, List.forall_mem_nil _⟩
  | succ n ih =>
    have hd : d.Meets P Q := h (Nat.succ_pos n)
    refine hd.bind fun a ha => (ih fun _ => hd).bind fun as has => meets_pure ⟨?_, ?_⟩
    · exact congrArg (· + 1) has.1
    · exact List.forall_mem_cons.mpr ⟨ha, has.2⟩

theorem char_meets {Q : RangeFault → Prop} : char.Meets (fun _ => True) Q :=
  (nat_meets _).bind fun _ _ => meets_pure trivial

/-- A random value is refused only if doubles are drawn for it from a range that is too wide. -/
theorem randomValue_meets (hint : c.intMin ≤ c.intMax) (hfloat : c.floatMin.numLe c.floatMax = true)
    (t : ParamType) :
    (randomValue c t).Meets (fun _ => True) fun fault => fault = .tooWide ∧ ¬ c.FloatsFit ∧ c.DrawsFloat t := by
  induction t with
  | bool => exact bool_meets.bind fun _ _ => meets_pure trivial
  | int => exact (int_meets hint).bind fun _ _ => meets_pure trivial
  | float =>
    have hdraw : (Draw.float c.floatMin c.floatMax).Meets (fun _ => True)
        fun fault => fault = .tooWide ∧ ¬ c.FloatsFit ∧ c.DrawsFloat .float :=
      (float_meets hfloat).mono (fun _ _ => trivial) fun _ ⟨hfault, hwide⟩ => ⟨hfault, hwide, trivial⟩
    exact hdraw.bind fun _ _ => meets_pure trivial
  | str =>
    exact (nat_meets _).bind fun n _ =>
      (repeatDraw_meets n fun _ => char_meets).bind fun _ _ => meets_pure trivial
  | list t ih =>
    refine (nat_meets _).bind fun n hn => ?_
    refine (repeatDraw_meets (P := fun _ => True) n fun hpos => ?_).bind fun _ _ => meets_pure trivial
    exact ih.mono (fun _ _ => trivial) fun _ ⟨hfault, hwide, hdraws⟩ =>
      ⟨hfault, hwide, Nat.lt_of_lt_of_le hpos hn, hdraws⟩

/-! ### Argument lists -/

/-- What makes a draw refuse before a number of trials are made up: the range of doubles is too wide, and they are
drawn for a parameter that has fewer boundary values. -/
structure Overdrawn (c : PropertyTestConfig) (params : List (ParamType × List Json)) (trials : Nat)
    (fault : RangeFault) : Prop where
  fault_eq : fault = .tooWide
  not_floatsFit : ¬ c.FloatsFit
  exists_param : ∃ p ∈ params, c.DrawsFloat p.1 ∧ p.2.length < trials

theorem Overdrawn.mono {params params' : List (ParamType × List Json)} {trials trials' : Nat} {fault : RangeFault}
    (h : Overdrawn c params trials fault) (hparams : ∀ p ∈ params, p ∈ params') (hle : trials ≤ trials') :
    Overdrawn c params' trials' fault := by
  obtain ⟨p, hp, hdraws, hlt⟩ := h.exists_param
  exact ⟨h.fault_eq, h.not_floatsFit, p, hparams p hp, hdraws, Nat.lt_of_lt_of_le hlt hle⟩

theorem arguments_cons (trial : Nat) (t : ParamType) (edges : List Json) (rest : List (ParamType × List Json)) :
    arguments c trial ((t, edges) :: rest) =
      (match edges[trial]? with
        | some edge => pure edge
        | none => randomValue c t) >>= fun v => arguments c trial rest >>= fun vs => pure (v :: vs) := by
  simp only [arguments]
  cases edges[trial]? with
  | some edge => rfl
  | none => rfl

theorem arguments_meets (hint : c.intMin ≤ c.intMax) (hfloat : c.floatMin.numLe c.floatMax = true) (trial : Nat)
    (params : List (ParamType × List Json)) :
    (arguments c trial params).Meets (·.length = params.length) (Overdrawn c params (trial + 1)) := by
  induction params with
  | nil => exact meets_pure rfl
  | cons p rest ih =>
    obtain ⟨t, edges⟩ := p
    have hrest : (arguments c trial rest).Meets (·.length = rest.length)
        (Overdrawn c ((t, edges) :: rest) (trial + 1)) :=
      ih.mono (fun _ h => h) fun _ h => h.mono (fun _ => List.mem_cons_of_mem _) (Nat.le_refl _)
    have hvalue : (match edges[trial]? with
        | some edge => pure edge
        | none => randomValue c t).Meets (fun _ => True) (Overdrawn c ((t, edges) :: rest) (trial + 1)) := by
      cases hedge : edges[trial]? with
      | some edge => exact meets_pure trivial
      | none =>
        have hbeyond : edges.length < trial + 1 := Nat.lt_succ_of_le (List.getElem?_eq_none_iff.mp hedge)
        exact (randomValue_meets hint hfloat t).mono (fun _ h => h) fun _ ⟨hfault, hwide, hdraws⟩ =>
          ⟨hfault, hwide, (t, edges), List.mem_cons_self, hdraws, hbeyond⟩
    rw [arguments_cons]
    exact hvalue.bind fun _ _ => hrest.bind fun _ h => meets_pure (congrArg (· + 1) h)

theorem trialsFrom_meets (hint : c.intMin ≤ c.intMax) (hfloat : c.floatMin.numLe c.floatMax = true)
    (params : List (ParamType × List Json)) (start count : Nat) :
    (trialsFrom c params start count).Meets
      (fun inputs => inputs.length = count ∧ ∀ x ∈ inputs, x.length = params.length)
      (Overdrawn c params (start + count)) := by
  induction count generalizing start with
  | zero => exact meets_pure ⟨rfl, List.forall_mem_nil _⟩
  | succ count ih =>
    have hfirst : (arguments c start params).Meets (·.length = params.length)
        (Overdrawn c params (start + (count + 1))) :=
      (arguments_meets hint hfloat start params).mono (fun _ h => h)
        fun _ h => h.mono (fun _ hp => hp) (by omega)
    have hrest := ih (start + 1)
    rw [Nat.add_assoc, Nat.add_comm 1] at hrest
    refine hfirst.bind fun x hx => hrest.bind fun inputs ⟨hlength, hall⟩ => meets_pure ⟨?_, ?_⟩
    · exact congrArg (· + 1) hlength
    · exact List.forall_mem_cons.mpr ⟨hx, hall⟩

/-! ### Refused draws -/

theorem randomValue_refused (hfloat : c.floatMin.numLe c.floatMax = true) (hwide : ¬ c.FloatsFit) :
    (randomValue c .float).Meets (fun _ => False) fun _ => True :=
  ((float_meets hfloat).mono (fun _ hfits => hwide hfits) fun _ _ => trivial).bind fun _ h => h.elim

/-- An argument list is refused once a parameter whose values are doubles has used up its boundary values. -/
theorem arguments_refused (hfloat : c.floatMin.numLe c.floatMax = true) (hwide : ¬ c.FloatsFit) {edges : List Json}
    {trial : Nat} (hbeyond : edges.length ≤ trial) {params : List (ParamType × List Json)}
    (hp : (.float, edges) ∈ params) : (arguments c trial params).Meets (fun _ => False) fun _ => True := by
  induction params with
  | nil => cases hp
  | cons p rest ih =>
    rw [arguments_cons]
    cases hp with
    | head =>
      rw [List.getElem?_eq_none_iff.mpr hbeyond]
      exact (randomValue_refused hfloat hwide).bind fun _ h => h.elim
    | tail _ hp => exact (meets_true _).bind fun _ _ => (ih hp).bind fun _ h => h.elim

theorem trialsFrom_refused (hfloat : c.floatMin.numLe c.floatMax = true) (hwide : ¬ c.FloatsFit) {edges : List Json}
    {params : List (ParamType × List Json)} (hp : (.float, edges) ∈ params) {start count : Nat}
    (hstart : start ≤ edges.length) (hlast : edges.length < start + count) :
    (trialsFrom c params start count).Meets (fun _ => False) fun _ => True := by
  induction count generalizing start with
  | zero => omega
  | succ count ih =>
    unfold trialsFrom
    -- Either this trial is the first without a boundary value, or it is still to come.
    by_cases hnow : edges.length ≤ start
    · exact (arguments_refused hfloat hwide hnow hp).bind fun _ h => h.elim
    · exact (meets_true _).bind fun _ _ => (ih (by omega) (by omega)).bind fun _ h => h.elim

/-! ### Whole generations -/

theorem trialsFrom_length (params : List (ParamType × List Json)) (start count : Nat) :
    (trialsFrom c params start count).Meets (·.length = count) fun _ => True := by
  induction count generalizing start with
  | zero => exact meets_pure rfl
  | succ count ih =>
    exact (meets_true _).bind fun _ _ => (ih (start + 1)).bind fun _ h => meets_pure (congrArg (· + 1) h)

/-- There is one argument list for each trial. -/
theorem length_of_generate {params : List ParamType} {trials : Nat} {s s' : WordStream} {inputs : List (List Json)}
    (h : generate c params trials s = .ok (inputs, s')) : inputs.length = trials :=
  (trialsFrom_length _ 0 trials).of_ok h

theorem generate_meets (hc : c.validate = .ok ()) (params : List ParamType) (trials : Nat) :
    (generate c params trials).Meets (fun inputs => inputs.length = trials ∧ ∀ x ∈ inputs, x.length = params.length)
      (Overdrawn c (params.map fun t => (t, edgeValues c t)) trials) := by
  obtain ⟨hint, hfloat⟩ := c.bounds_of_validate hc
  have hmeets := trialsFrom_meets hint hfloat (params.map fun t => (t, edgeValues c t)) 0 trials
  rwa [Nat.zero_add, List.length_map] at hmeets

/-- **Drawing under an accepted configuration**: where the range of doubles is narrow enough, or is not drawn from
before the trials are over, every stream gives one argument list for each trial. There is no other reason to refuse a
draw, and a parameter whose values are doubles always gives it: it is refused once its boundary values are used up. -/
theorem generate_of_validate (hc : c.validate = .ok ()) (params : List ParamType) (trials : Nat) (s : WordStream) :
    ((c.FloatsFit ∨ ∀ t ∈ params, c.DrawsFloat t → trials ≤ (edgeValues c t).length) →
        ∃ inputs s', generate c params trials s = .ok (inputs, s') ∧ inputs.length = trials ∧
          ∀ x ∈ inputs, x.length = params.length) ∧
      (∀ fault, generate c params trials s = .error fault → fault = .tooWide) ∧
      (¬ c.FloatsFit → .float ∈ params → (edgeValues c .float).length < trials →
        generate c params trials s = .error .tooWide) := by
  have hmeets := generate_meets hc params trials
  refine ⟨fun hdrawn => ?_, fun fault hfault => (hmeets.of_error hfault).fault_eq, fun hwide hp hlast => ?_⟩
  · have hnever : ∀ fault, ¬ Overdrawn c (params.map fun t => (t, edgeValues c t)) trials fault := by
      rintro fault ⟨-, hwide, p, hp, hdraws, hlt⟩
      obtain ⟨t, ht, rfl⟩ := List.mem_map.mp hp
      rcases hdrawn with hfits | hedges
      · exact hwide hfits
      · exact absurd (hedges t ht hdraws) (Nat.not_le.mpr hlt)
    exact (hmeets.mono (fun _ h => h) hnever).exists_eq_ok s
  · have hmem : (ParamType.float, edgeValues c .float) ∈ params.map fun t => (t, edgeValues c t) :=
      List.mem_map_of_mem hp
    have hrefused := trialsFrom_refused (c.bounds_of_validate hc).2 hwide hmem (Nat.zero_le _) (by rwa [Nat.zero_add])
    cases hg : generate c params trials s with
    | ok drawn => exact (hrefused.of_ok hg).elim
    | error fault => rw [(hmeets.of_error hg).fault_eq]

/-- Both bounds are finite numbers and the lower one comes first, so they are accepted; but eight trials of one
parameter cannot be made up, whatever the seed. -/
theorem generate_of_validate_refused :
    let c : PropertyTestConfig := { floatMin := .ofDecimal true 17 307, floatMax := .ofDecimal false 17 307 }
    c.validate = .ok () ∧ ∀ seed, generate c [.float] 8 (.ofSeed seed) = .error .tooWide := by
  intro c
  have hc : c.validate = .ok () := PropertyTestConfig.validate_eq_ok_iff.mpr (by decide +kernel)
  have hwide : ¬ c.FloatsFit := by decide +kernel
  have hedges : (edgeValues c .float).length < 8 := by decide +kernel
  exact ⟨hc, fun seed => (generate_of_validate hc [.float] 8 (.ofSeed seed)).2.2 hwide (.head _) hedges⟩

end Generator

end Vetting
