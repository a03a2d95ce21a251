import Vetting.Proofs.Screening.Imports
import Vetting.Proofs.Text.ByteOrder
import Vetting.Sandbox.ImportGuard

/-!
# Denylist and import guard

A module is forbidden twice: screening compares the name of an import with the denylist, and at run time the import
guard compares its packages with the modules of the job. `ImportGuard.denylists_agree` says that both look for the same
names, and that the guard refuses all that screening does.

* `ImportGuard.exists_take_parts_iff`: what stands before a point of a name, or the whole name, is what its first parts
  make.
-/

namespace Vetting

namespace ImportGuard

/-! ### Parts of names -/

theorem parts_ne_nil (s : List Char) : parts s ≠ [] := by
  cases s with
  | nil => exact List.cons_ne_nil _ _
  | cons c rest =>
    rw [parts]
    split
    · exact List.cons_ne_nil _ _
    · split <;> exact List.cons_ne_nil _ _

theorem parts_cons_of_ne {c : Char} (hc : c ≠ '.') (s : List Char) :
    ∃ part more, parts s = part :: more ∧ parts (c :: s) = (c :: part) :: more := by
  cases hs : parts s with
  | nil => exact absurd hs (parts_ne_nil s)
  | cons part more => exact ⟨part, more, rfl, by simp only [parts, if_neg hc, hs]⟩

theorem joined_cons (part : List Char) {more : List (List Char)} (h : more ≠ []) :
    joined (part :: more) = part ++ '.' :: joined more := by
  cases more with
  | nil => exact absurd rfl h
  | cons next more => rfl

theorem joined_parts (s : List Char) : joined (parts s) = s := by
  induction s with
  | nil => rfl
  | cons c rest ih =>
    by_cases hc : c = '.'
    · rw [parts, if_pos hc, joined_cons [] (parts_ne_nil rest), ih, hc, List.nil_append]
    · obtain ⟨part, more, hrest, hcons⟩ := parts_cons_of_ne hc rest
      rw [hrest] at ih
      rw [hcons]
      cases more with
      | nil => exact congrArg (c :: ·) ih
      | cons next more =>
        rw [joined] at ih ⊢
        exact congrArg (c :: ·) ih

theorem not_mem_point_of_mem_parts {s part : List Char} (h : part ∈ parts s) : '.' ∉ part := by
  induction s generalizing part with
  | nil =>
    rw [List.mem_singleton.mp h]
    exact List.not_mem_nil
  | cons c rest ih =>
    by_cases hc : c = '.'
    · rw [parts, if_pos hc] at h
      obtain rfl | h := List.mem_cons.mp h
      · exact List.not_mem_nil
      · exact ih h
    · obtain ⟨first, more, hrest, hcons⟩ := parts_cons_of_ne hc rest
      rw [hcons] at h
      obtain rfl | h := List.mem_cons.mp h
      · rintro (_ | ⟨_, hmem⟩)
        · exact hc rfl
        · exact ih (hrest ▸ List.mem_cons_self) hmem
      · exact ih (hrest ▸ List.mem_cons_of_mem first h)

/-- A point divides the parts of a name. -/
theorem parts_append_point (a b : List Char) : parts (a ++ '.' :: b) = parts a ++ parts b := by
  induction a with
  | nil => rfl
  | cons c a ih =>
    rw [List.cons_append]
    by_cases hc : c = '.'
    · rw [parts, if_pos hc, parts, if_pos hc, ih, List.cons_append]
    · obtain ⟨part, more, ha, hcons⟩ := parts_cons_of_ne hc a
      obtain ⟨part', more', hab, hcons'⟩ := parts_cons_of_ne hc (a ++ '.' :: b)
      rw [ih, ha, List.cons_append, List.cons.injEq] at hab
      rw [hcons, hcons', ← hab.1, ← hab.2, List.cons_append]

theorem joined_append {xs ys : List (List Char)} (hx : xs ≠ []) (hy : ys ≠ []) :
    joined (xs ++ ys) = joined xs ++ '.' :: joined ys := by
  induction xs with
  | nil => exact absurd rfl hx
  | cons x xs ih =>
    rw [List.cons_append]
    by_cases hxs : xs = []
    · rw [hxs, List.nil_append, joined_cons x hy, joined]
    · rw [joined_cons x (List.append_ne_nil_of_left_ne_nil hxs ys), ih hxs, joined_cons x hxs, List.append_assoc,
        List.cons_append]

/-- The names that the first parts of a name make are what stands before its points, and the name itself. -/
theorem exists_take_parts_iff {s a : List Char} :
    (∃ k, 1 ≤ k ∧ joined ((parts s).take k) = a) ↔
      ∃ rest, s = a ++ rest ∧ (rest = [] ∨ ∃ b, rest = '.' :: b) := by
  constructor
  · rintro ⟨k, hk, rfl⟩
    have htake : (parts s).take k ≠ [] := by
      obtain ⟨part, more, hparts⟩ := List.exists_cons_of_ne_nil (parts_ne_nil s)
      obtain ⟨n, rfl⟩ := Nat.exists_eq_add_of_le' hk
      rw [hparts, List.take_succ_cons]
      exact List.cons_ne_nil _ _
    by_cases hdrop : (parts s).drop k = []
    · refine ⟨[], ?_, .inl rfl⟩
      rw [List.take_of_length_le (List.drop_eq_nil_iff.mp hdrop), joined_parts, List.append_nil]
    · refine ⟨_, ?_, .inr ⟨joined ((parts s).drop k), rfl⟩⟩
      rw [← joined_append htake hdrop, List.take_append_drop, joined_parts]
  · rintro ⟨rest, rfl, rfl | ⟨b, rfl⟩⟩
    · refine ⟨(parts a).length, List.length_pos_iff.mpr (parts_ne_nil a), ?_⟩
      rw [List.append_nil, List.take_length, joined_parts]
    · refine ⟨(parts a).length, List.length_pos_iff.mpr (parts_ne_nil a), ?_⟩
      rw [parts_append_point, List.take_left, joined_parts]

/-! ### Forbidden names -/

variable {d : Denylist} {job : Job} {name : String}

theorem forbidsModule_iff_leading :
    d.forbidsModule name = true ↔ ∃ k, 1 ≤ k ∧ leading k name ∈ d.modules.toList := by
  rw [Denylist.forbidsModule_iff]
  constructor
  · rintro ⟨a, rest, hname, hrest, ha⟩
    obtain ⟨k, hk, rfl⟩ := exists_take_parts_iff.mpr ⟨rest, hname, hrest⟩
    exact ⟨k, hk, NameSet.contains_iff.mp ha⟩
  · rintro ⟨k, hk, hmem⟩
    obtain ⟨rest, hname, hrest⟩ := exists_take_parts_iff.mp ⟨k, hk, rfl⟩
    exact ⟨_, rest, hname, hrest, NameSet.contains_iff.mpr hmem⟩

/-- Taking more parts than there are takes the whole name. -/
theorem mem_packages_iff {p : String} : p ∈ packages name ↔ ∃ k, 1 ≤ k ∧ leading k name = p := by
  simp only [packages, List.mem_map, List.mem_range]
  constructor
  · rintro ⟨i, -, rfl⟩
    exact ⟨i + 1, Nat.le_add_left .., rfl⟩
  · rintro ⟨k, hk, rfl⟩
    obtain ⟨n, hn⟩ := Nat.exists_eq_add_of_le' (List.length_pos_iff.mpr (parts_ne_nil name.toList))
    by_cases hlt : k ≤ n
    · refine ⟨k - 1, by omega, ?_⟩
      rw [Nat.sub_add_cancel hk]
    · refine ⟨n, by omega, ?_⟩
      rw [leading, leading, List.take_of_length_le (by omega), List.take_of_length_le (by omega)]

theorem refusal?_eq_some_iff {level : Nat} {text : String} :
    refusal? job name level = some text ↔
      level = 0 ∧ (∃ k, 1 ≤ k ∧ leading k name ∈ job.forbiddenModules.toList) ∧ text = violation name := by
  simp only [refusal?, Option.ite_none_right_eq_some, Option.some.injEq, Bool.and_eq_true, decide_eq_true_eq,
    List.any_eq_true, mem_packages_iff, NameSet.contains_iff]
  constructor
  · rintro ⟨⟨hl, p, ⟨k, hk, rfl⟩, hp⟩, rfl⟩
    exact ⟨hl, ⟨k, hk, hp⟩, rfl⟩
  · rintro ⟨hl, ⟨k, hk, hp⟩, rfl⟩
    exact ⟨⟨hl, _, ⟨k, hk, rfl⟩, hp⟩, rfl⟩

theorem mem_refusedModules_iff {network : NetworkPolicy} :
    name ∈ (Job.refusedModules d network).toList ↔
      name ∈ d.modules.toList ∨ network = .disabled ∧ name ∈ Denylist.networkModules := by
  cases network with
  | disabled => simp [Job.refusedModules, NameSet.mem_insertMany, or_comm]
  | enabled => simp [Job.refusedModules]

theorem mem_builtinCallables_iff : name ∈ d.builtinCallables ↔ name ∈ d.callables.toList ∧ '.' ∉ name.toList := by
  simp [Denylist.builtinCallables]

/-- **Denylist and import guard agree**: a job forbids the modules of the denylist, in the order of their bytes and each
once, those that use the network if and only if there is none, and the callables without a point. With the parts of a
name between its points, the denylist forbids the name if and only if the first of them make a forbidden module; the
guard refuses it then, and with a network it refuses no other name. -/
theorem denylists_agree (d : Denylist) (config : SandboxConfig) (request : Request) (enforcement : Enforcement) :
    let job := Job.ofRequest request config d enforcement
    (job.forbiddenModules.toList.map Text.bytes).Pairwise (· < ·) ∧
      (∀ m, m ∈ job.forbiddenModules.toList ↔
        m ∈ d.modules.toList ∨ config.network = .disabled ∧ m ∈ Denylist.networkModules) ∧
      (∀ n, n ∈ job.forbiddenBuiltins ↔ n ∈ d.callables.toList ∧ '.' ∉ n.toList) ∧
      (∀ s, joined (parts s) = s ∧ ∀ part ∈ parts s, '.' ∉ part) ∧
      (∀ name, d.forbidsModule name = true ↔ ∃ k, 1 ≤ k ∧ leading k name ∈ d.modules.toList) ∧
      (∀ name, d.forbidsModule name = true → refusal? job name 0 = some (violation name)) ∧
      (config.network = .enabled → ∀ name, (refusal? job name 0).isSome = d.forbidsModule name) := by
  intro job
  have hmodules (m : String) : m ∈ job.forbiddenModules.toList ↔
      m ∈ d.modules.toList ∨ config.network = .disabled ∧ m ∈ Denylist.networkModules := mem_refusedModules_iff
  have hrefused (name : String) (h : d.forbidsModule name = true) : refusal? job name 0 = some (violation name) := by
    obtain ⟨k, hk, hmem⟩ := forbidsModule_iff_leading.mp h
    exact refusal?_eq_some_iff.mpr ⟨rfl, ⟨k, hk, (hmodules _).mpr (.inl hmem)⟩, rfl⟩
  refine ⟨?_, hmodules, fun _ => mem_builtinCallables_iff, fun s => ⟨joined_parts s, fun _ => not_mem_point_of_mem_parts⟩,
    fun _ => forbidsModule_iff_leading, hrefused, ?_⟩
  · exact List.pairwise_map.mpr (job.forbiddenModules.increasing.imp Text.bytes_lt_bytes)
  · intro henabled name
    refine Bool.eq_iff_iff.mpr ⟨fun h => ?_, fun h => Option.isSome_of_mem (hrefused name h)⟩
    obtain ⟨text, htext⟩ := Option.isSome_iff_exists.mp h
    obtain ⟨-, ⟨k, hk, hmem⟩, -⟩ := refusal?_eq_some_iff.mp htext
    refine forbidsModule_iff_leading.mpr ⟨k, hk, ((hmodules _).mp hmem).resolve_right fun hn => ?_⟩
    rw [henabled] at hn
    cases hn.1

/-- Without a network a module that uses one is refused at run time, though the denylist does not name it. -/
example :
    let job := Job.ofRequest ⟨"", none, []⟩ {} .standard .kernel
    Denylist.standard.forbidsModule "ssl" = false ∧
      refusal? job "ssl" 0 = some "import of forbidden module 'ssl'" := by
  decide +kernel

end ImportGuard

end Vetting
