import Vetting.Property.Campaign

/-!
# Campaigns before their first run

Results carry the names of their properties, in order (`Tester.Names`), and `Tester.campaign_cases` says what can become
of a campaign before it asks for a run: it is over, a draw for its arguments is refused, or it is on given arguments.
-/

namespace Vetting

/-! ### The names of results -/

namespace Property

@[simp] theorem evaluate_property (config : PropertyTestConfig) (name : String) (cases : List Case) :
    (evaluate config name cases).property = name := by
  unfold evaluate
  split <;> rfl

@[simp] theorem checkPredicate_property (config : PropertyTestConfig) (trials : List Trial) (p : Predicate) :
    (checkPredicate config trials p).property = p.name := by
  unfold checkPredicate
  split
  · rfl
  · rfl
  · exact evaluate_property ..

end Property

/-! ### Campaigns -/

namespace Tester

variable {t : Tester} {target : Target}

/-- The results are those of the properties, in order. -/
def Names (t : Tester) (c : Campaign) : Prop := c.results.map (·.property) = t.propertyNames

theorem map_property_all (outcome : String → PropertyResult) (h : ∀ name, (outcome name).property = name) :
    (t.all outcome).map (·.property) = t.propertyNames := by
  rw [all, List.map_map]
  exact List.map_id'' h _

theorem Names.results_ne_nil {c : Campaign} (h : t.Names c) : c.results ≠ [] := by
  intro hr
  rw [Names, hr] at h
  cases h

/-- The argument lists of a campaign, and what is left of the words that they were drawn from. -/
def drawn (t : Tester) (fresh : Nat) (params : List ParamType) : Except RangeFault (List (List Json) × WordStream) :=
  Generator.generate t.config params t.config.trials (.ofSeed (UInt64.ofNat (t.config.seed.getD fresh)))

section

variable {fresh : Nat} {params : List ParamType}

theorem campaign_of_unresolved {reason : String}
    (h : resolveParameters t.config target.signature = .error reason) :
    t.campaign target fresh =
      .ok (.finish ⟨t.config.seed.getD fresh, 0, t.all fun name => .skipped name reason, {}⟩) := by
  simp only [campaign, h]

theorem campaign_of_refused {fault : RangeFault} (hp : resolveParameters t.config target.signature = .ok params)
    (hd : t.drawn fresh params = .error fault) : t.campaign target fresh = .error fault := by
  simp only [drawn] at hd
  simp only [campaign, hp, hd]
  rfl

theorem campaign_of_drawn {inputs : List (List Json)} {words : WordStream}
    (hp : resolveParameters t.config target.signature = .ok params)
    (hd : t.drawn fresh params = .ok (inputs, words)) :
    t.campaign target fresh = .ok (t.campaignOn target (t.config.seed.getD fresh) params inputs) := by
  simp only [drawn] at hd
  simp only [campaign, hp, hd]
  rfl

end

/-- All that can become of a campaign before its first run. -/
theorem campaign_cases (t : Tester) (target : Target) (fresh : Nat) :
    (∃ reason, resolveParameters t.config target.signature = .error reason ∧
      t.campaign target fresh =
        .ok (.finish ⟨t.config.seed.getD fresh, 0, t.all fun name => .skipped name reason, {}⟩)) ∨
    (∃ params fault, resolveParameters t.config target.signature = .ok params ∧
      t.drawn fresh params = .error fault ∧ t.campaign target fresh = .error fault) ∨
    ∃ params inputs words, resolveParameters t.config target.signature = .ok params ∧
      t.drawn fresh params = .ok (inputs, words) ∧
      t.campaign target fresh = .ok (t.campaignOn target (t.config.seed.getD fresh) params inputs) := by
  cases hp : resolveParameters t.config target.signature with
  | error reason => exact .inl ⟨reason, rfl, campaign_of_unresolved hp⟩
  | ok params =>
    cases hd : t.drawn fresh params with
    | error fault => exact .inr (.inl ⟨params, fault, rfl, hd, campaign_of_refused hp hd⟩)
    | ok made => exact .inr (.inr ⟨params, made.1, made.2, rfl, hd, campaign_of_drawn hp hd⟩)

/-- Only a draw that is refused keeps a campaign from taking place. -/
theorem refused_of_campaign {fresh : Nat} {fault : RangeFault} (h : t.campaign target fresh = .error fault) :
    ∃ params, resolveParameters t.config target.signature = .ok params ∧ t.drawn fresh params = .error fault := by
  obtain ⟨_, -, hc⟩ | ⟨params, _, hp, hd, hc⟩ | ⟨_, _, _, -, -, hc⟩ := t.campaign_cases target fresh
  · cases hc.symm.trans h
  · cases hc.symm.trans h
    exact ⟨params, hp, hd⟩
  · cases hc.symm.trans h

end Tester

end Vetting
