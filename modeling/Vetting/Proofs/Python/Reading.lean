import Vetting.Python.Grammar.Cursor

/-!
# What readings give

`Parse.Yields p Q` says that whatever the reading `p` gives satisfies `Q`; nothing is said of a reading that
fails. There is one rule for each way of putting readings together, so a property of the trees that a grammar
makes is shown along its rules, and no other proof has to look at cursors.
-/

namespace Vetting.Python.Parse

variable {α β : Type} {p q : Parse α} {P Q : α → Prop}

/-- Whatever the reading gives satisfies `Q`. -/
def Yields (p : Parse α) (Q : α → Prop) : Prop :=
  ∀ c a c', p c = .ok (a, c') → Q a

namespace Yields

theorem trivial : p.Yields fun _ => True := fun _ _ _ _ => True.intro

theorem mono (h : p.Yields P) (hPQ : ∀ a, P a → Q a) : p.Yields Q :=
  fun c a c' hp => hPQ a (h c a c' hp)

theorem pure {a : α} (h : Q a) : (pure a : Parse α).Yields Q := by
  intro c b c' hb
  cases hb
  exact h

theorem fail : (Parse.fail : Parse α).Yields Q := fun _ _ _ h => nomatch h

theorem bind {f : α → Parse β} {Q : β → Prop} (hp : p.Yields P) (hf : ∀ a, P a → (f a).Yields Q) :
    (p >>= f).Yields Q := by
  intro c b c' hb
  have hbind : (p >>= f) c = (p c).bind fun r => f r.1 r.2 := rfl
  rw [hbind] at hb
  cases hr : p c with
  | error e => rw [hr] at hb; cases hb
  | ok r =>
    rw [hr] at hb
    exact hf r.1 (hp c r.1 r.2 hr) r.2 b c' hb

/-- A reading whose result does not matter comes first. -/
theorem seq {f : α → Parse β} {Q : β → Prop} (hf : ∀ a, (f a).Yields Q) : (p >>= f).Yields Q :=
  trivial.bind fun a _ => hf a

theorem ite {c : Prop} [Decidable c] (hp : c → p.Yields Q) (hq : ¬ c → q.Yields Q) :
    (if c then p else q).Yields Q := by
  split
  · exact hp ‹_›
  · exact hq ‹_›

theorem orElse (hp : p.Yields Q) (hq : q.Yields Q) : (Parse.orElse p q).Yields Q := by
  intro c a c' h
  unfold Parse.orElse at h
  cases hr : p c with
  | error e => rw [hr] at h; exact hq c a c' h
  | ok r =>
    rw [hr] at h
    cases h
    exact hp c a c' hr

/-- A token that is expected to be a name is one. -/
theorem expectName : Parse.expectName.Yields fun t => t.isName = true := by
  intro c t c' h
  have hread : Parse.expectName c = (if (c.tokens.headD .nothing).isName then next else Parse.fail) c := rfl
  rw [hread] at h
  cases hc : c.tokens with
  | nil =>
    rw [hc] at h
    cases h
  | cons u rest =>
    rw [hc, List.headD_cons] at h
    split at h
    · simp only [next, hc] at h
      cases h
      assumption
    · cases h

/-! ### Repetition -/

theorem iterate {step : α → Parse (Option α)}
    (hstep : ∀ a, Q a → (step a).Yields fun o => ∀ b ∈ o, Q b) (n : Nat) {a : α} (ha : Q a) :
    (Parse.iterate step n a).Yields Q := by
  induction n generalizing a with
  | zero => exact .pure ha
  | succ n ih =>
    refine (hstep a ha).bind fun o ho => ?_
    cases o with
    | none => exact .pure ha
    | some b => exact ih (ho b rfl)

theorem manyFrom {item? : Parse (Option α)} (h : item?.Yields fun o => ∀ b ∈ o, Q b) (n : Nat)
    {seen : List α} (hseen : ∀ b ∈ seen, Q b) :
    (Parse.manyFrom item? n seen).Yields fun l => ∀ b ∈ l, Q b := by
  have hrev : ∀ {l : List α}, (∀ b ∈ l, Q b) → ∀ b ∈ l.reverse, Q b :=
    fun h b hb => h b (List.mem_reverse.mp hb)
  induction n generalizing seen with
  | zero => exact .pure (hrev hseen)
  | succ n ih =>
    refine h.bind fun o ho => ?_
    cases o with
    | none => exact .pure (hrev hseen)
    | some a => exact ih (List.forall_mem_cons.mpr ⟨ho a rfl, hseen⟩)

theorem many {item? : Parse (Option α)} (h : item?.Yields fun o => ∀ b ∈ o, Q b) :
    (Parse.many item?).Yields fun l => ∀ b ∈ l, Q b :=
  seq fun n => manyFrom h n (List.forall_mem_nil _)

theorem moreFrom {item : Parse α} (h : item.Yields Q) (stops : Token → Bool) (n : Nat)
    {seen : List α} (hseen : ∀ b ∈ seen, Q b) :
    (Parse.moreFrom item stops n seen).Yields fun r => ∀ b ∈ r.1, Q b := by
  have hrev : ∀ {l : List α}, (∀ b ∈ l, Q b) → ∀ b ∈ l.reverse, Q b :=
    fun h b hb => h b (List.mem_reverse.mp hb)
  induction n generalizing seen with
  | zero => exact .pure (hrev hseen)
  | succ n ih =>
    refine seq fun comma => .ite (fun _ => seq fun t => .ite (fun _ => ?_) fun _ => ?_) fun _ => ?_
    · exact .pure (hrev hseen)
    · exact h.bind fun a ha => ih (List.forall_mem_cons.mpr ⟨ha, hseen⟩)
    · exact .pure (hrev hseen)

theorem moreItems {item : Parse α} {first : α} (hfirst : Q first) (h : item.Yields Q)
    (stops : Token → Bool) : (Parse.moreItems first item stops).Yields fun r => ∀ b ∈ r.1, Q b :=
  seq fun n => moreFrom h stops n (List.forall_mem_singleton.mpr hfirst)

theorem items {item : Parse α} (h : item.Yields Q) (stops : Token → Bool) :
    (Parse.items item stops).Yields fun r => ∀ b ∈ r.1, Q b :=
  h.bind fun _ ha => moreItems ha h stops

end Yields

end Vetting.Python.Parse
