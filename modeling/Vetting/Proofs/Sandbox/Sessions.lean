import Vetting.Proofs.Sandbox.Play

/-!
# Sessions against every sandbox

What can be said of a session without knowing the sandbox that it is played against.

* `Session.Always`: whatever the runs give, the session ends in a way that goes with them.
* `Session.Alongside`: two sessions ask for the same runs, whatever these give, and their ends are related.
* `Session.exists_play`: where every run ends, so does every session.
-/

namespace Vetting

/-- The runs that a log shows, first to last, each with what it gave. -/
def Log.Shows (log : Log) (runs : List (Request × RunResult)) : Prop :=
  log.requests = (runs.map (·.1)).reverse ∧ log.results = (runs.map (·.2)).reverse

/-- The play of a session whose end is turned into something else. -/
def Played.map (f : α → β) : Played α → Played β
  | .finished a => .finished (f a)
  | .cancelled => .cancelled
  | .stuck => .stuck

namespace Session

variable {sandbox : Sandbox} {deadline : Option Duration}

/-! ### Runs and ends -/

/-- Whatever its runs give, `P` holds of what a session asks for and is given, first to last, and of what it ends
with. -/
def Always (P : List (Request × RunResult) → α → Prop) : Session α → Prop
  | .finish a => P [] a
  | .run request next => ∀ r, (next r).Always fun runs a => P ((request, r) :: runs) a

theorem always_finish {P : List (Request × RunResult) → α → Prop} {a : α} (h : P [] a) : (finish a).Always P := h

theorem Always.mono {P Q : List (Request × RunResult) → α → Prop} {s : Session α} (h : s.Always P)
    (hPQ : ∀ runs a, P runs a → Q runs a) : s.Always Q := by
  induction s generalizing P Q with
  | finish a => exact hPQ [] a h
  | run request next ih => exact fun r => ih r (h r) fun runs => hPQ ((request, r) :: runs)

theorem Always.bind {P : List (Request × RunResult) → α → Prop} {Q : List (Request × RunResult) → β → Prop}
    {s : Session α} {f : α → Session β} (h : s.Always P)
    (hf : ∀ runs a, P runs a → (f a).Always fun later => Q (runs ++ later)) : (s >>= f).Always Q := by
  -- What has been run up to now is in both conditions, so both are general in the induction.
  induction s generalizing P Q with
  | finish a => exact hf [] a h
  | run request next ih => exact fun r => ih r (h r) fun runs => hf ((request, r) :: runs)

/-- What always holds, holds of a session that was finished and of what its log shows. -/
theorem Always.of_plays {P : List (Request × RunResult) → α → Prop} {s : Session α} {log log' : Log} {a : α}
    (h : s.Always P) (hp : s.Plays sandbox deadline log (.finished a) log') :
    ∃ runs, log'.requests = (runs.map (·.1)).reverse ++ log.requests ∧
      log'.results = (runs.map (·.2)).reverse ++ log.results ∧ P runs a := by
  generalize hplayed : Played.finished a = played at hp
  induction hp with
  | finish =>
    cases hplayed
    exact ⟨[], rfl, rfl, h⟩
  | @answered request _ _ _ _ _ log _ _ _ ih =>
    obtain ⟨runs, hrequests, hresults, ha⟩ := ih (h _) hplayed
    refine ⟨(request, (sandbox log.requests request).result) :: runs, ?_, ?_, ha⟩
    · rw [hrequests, List.map_cons, List.reverse_cons, List.append_assoc]
      rfl
    · rw [hresults, List.map_cons, List.reverse_cons, List.append_assoc]
      rfl
  | cancelled | stuck => cases hplayed

theorem Always.shows {P : List (Request × RunResult) → α → Prop} {s : Session α} {log : Log} {a : α}
    (h : s.Always P) (hp : s.Plays sandbox deadline .empty (.finished a) log) : ∃ runs, log.Shows runs ∧ P runs a := by
  obtain ⟨runs, hrequests, hresults, ha⟩ := h.of_plays hp
  exact ⟨runs, ⟨hrequests.trans (List.append_nil _), hresults.trans (List.append_nil _)⟩, ha⟩

/-- Every session ends if each of its requests is answered, say by the same result. -/
theorem Always.exists_end {P : List (Request × RunResult) → α → Prop} {s : Session α} (h : s.Always P)
    (r : RunResult) : ∃ runs a, P runs a := by
  induction s generalizing P with
  | finish a => exact ⟨[], a, h⟩
  | run request next ih =>
    obtain ⟨runs, a, ha⟩ := ih r (h r)
    exact ⟨(request, r) :: runs, a, ha⟩

/-- However a session comes out, it has asked for no more than it might have asked for. -/
theorem Always.exists_le_length {P : List (Request × RunResult) → α → Prop} {s : Session α} {log log' : Log}
    {played : Played α} (h : s.Always P) (hp : s.Plays sandbox deadline log played log') :
    ∃ runs a, P runs a ∧ log'.requests.length ≤ log.requests.length + runs.length := by
  induction hp with
  | finish => exact ⟨[], _, h, Nat.le_refl _⟩
  | answered _ _ _ ih =>
    obtain ⟨runs, a, ha, hle⟩ := ih (h _)
    refine ⟨_, a, ha, ?_⟩
    rw [List.length_cons] at hle ⊢
    omega
  | cancelled | stuck =>
    -- The run that was broken off could have given anything.
    have r : RunResult := (sandbox [] ⟨"", none, []⟩).result
    obtain ⟨runs, a, ha⟩ := (h r).exists_end r
    exact ⟨_, a, ha, Nat.add_le_add_left (Nat.le_add_left 1 runs.length) _⟩

/-! ### Two sessions -/

/-- Two sessions that ask for the same runs, whatever these give, and whose ends are related. -/
inductive Alongside (R : α → β → Prop) : Session α → Session β → Prop
  | finish : R a b → Alongside R (.finish a) (.finish b)
  | run : (∀ r, Alongside R (next r) (next' r)) → Alongside R (.run request next) (.run request next')

theorem alongside_self (s : Session α) : s.Alongside (fun a b => a = b) s := by
  induction s with
  | finish a => exact .finish rfl
  | run request next ih => exact .run ih

theorem Alongside.bind {R : α → β → Prop} {R' : γ → δ → Prop} {s : Session α} {s' : Session β} {f : α → Session γ}
    {f' : β → Session δ} (h : s.Alongside R s') (hf : ∀ a b, R a b → (f a).Alongside R' (f' b)) :
    (s >>= f).Alongside R' (s' >>= f') := by
  induction h with
  | finish hab => exact hf _ _ hab
  | run _ ih => exact .run ih

/-- How two such sessions come out: both are finished, with related ends, or neither is, for the same reason. -/
inductive Together (R : α → β → Prop) : Played α → Played β → Prop
  | finished : R a b → Together R (.finished a) (.finished b)
  | cancelled : Together R .cancelled .cancelled
  | stuck : Together R .stuck .stuck

/-- Two such sessions come out together, and they leave the same log. -/
theorem Alongside.exists_plays {R : α → β → Prop} {s : Session α} {s' : Session β} {log log' : Log} {played : Played α}
    (h : s.Alongside R s') (hp : s.Plays sandbox deadline log played log') :
    ∃ played', s'.Plays sandbox deadline log played' log' ∧ Together R played played' := by
  induction hp generalizing s' with
  | finish =>
    cases h with
    | finish hab => exact ⟨_, .finish, .finished hab⟩
  | answered hdelay hlimit _ ih =>
    cases h with
    | run h =>
      obtain ⟨played', hp', htogether⟩ := ih (h _)
      exact ⟨played', .answered hdelay hlimit hp', htogether⟩
  | cancelled hdeadline hlate =>
    cases h with
    | run => exact ⟨_, .cancelled hdeadline hlate, .cancelled⟩
  | stuck hdeadline hdelay =>
    cases h with
    | run => exact ⟨_, .stuck hdeadline hdelay, .stuck⟩

/-- Where the end of the one session determines that of the other, so does the whole play. -/
theorem Alongside.play_eq {f : α → β} {s : Session α} {s' : Session β} (h : s.Alongside (fun a b => b = f a) s')
    (log : Log) : s'.play sandbox deadline log =
      ((s.play sandbox deadline log).1.map f, (s.play sandbox deadline log).2) := by
  obtain ⟨played', hp', htogether⟩ := h.exists_plays (plays s log)
  rw [hp'.play_eq]
  generalize (s.play sandbox deadline log).1 = played at htogether
  cases htogether with
  | finished hab => rw [hab]; rfl
  | cancelled | stuck => rfl

/-- Of two such sessions the one is finished when the other is, and they leave the same log. -/
theorem Alongside.of_plays {R : α → β → Prop} {s : Session α} {s' : Session β} {log log' : Log} {a : α}
    (h : s.Alongside R s') (hp : s.Plays sandbox deadline log (.finished a) log') :
    ∃ b, s'.Plays sandbox deadline log (.finished b) log' ∧ R a b := by
  obtain ⟨_, hp', ⟨hab⟩⟩ := h.exists_plays hp
  exact ⟨_, hp', hab⟩

/-! ### Sandboxes whose runs end -/

/-- Where every run ends, so does every session. -/
theorem exists_play (h : ∀ earlier request, (sandbox earlier request).delay.isSome = true) (s : Session α) (log : Log) :
    ∃ a log', s.play sandbox none log = (.finished a, log') := by
  induction s generalizing log with
  | finish a => exact ⟨a, log, rfl⟩
  | run request next ih =>
    obtain ⟨delay, hdelay⟩ := Option.isSome_iff_exists.mp (h log.requests request)
    simp only [play, hdelay]
    exact ih _ _

end Session

end Vetting
