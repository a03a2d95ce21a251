import Vetting.Validation

/-!
# Longer denylists

A denylist is below another one that forbids all its names. What is found with the longer one need not contain what
is found with the shorter: a module that is forbidden hides what is fetched from it, and a name that is forbidden as
an attribute is no longer found as a callable. But every finding is outweighed by one at the same place, so the
highest severity can only rise (`scan_severity_mono`).
-/

namespace Vetting

namespace NameSet

theorem contains_insertMany {s : NameSet} {name : String} (names : List String) (h : s.contains name = true) :
    (s.insertMany names).contains name = true := by
  rw [contains_iff] at h ⊢
  exact mem_insertMany.mpr (.inr h)

end NameSet

namespace Denylist

/-- Whether all names of a denylist are forbidden by another one, each in the same set. -/
structure IsBelow (d d' : Denylist) : Prop where
  modules : ∀ name, d.modules.contains name = true → d'.modules.contains name = true
  callables : ∀ name, d.callables.contains name = true → d'.callables.contains name = true
  attributes : ∀ name, d.attributes.contains name = true → d'.attributes.contains name = true

instance : LE Denylist := ⟨IsBelow⟩

variable {d d' d'' : Denylist} {name : String}

theorem le_refl (d : Denylist) : d ≤ d := ⟨fun _ h => h, fun _ h => h, fun _ h => h⟩

theorem le_trans (h : d ≤ d') (h' : d' ≤ d'') : d ≤ d'' where
  modules name hn := h'.modules name (h.modules name hn)
  callables name hn := h'.callables name (h.callables name hn)
  attributes name hn := h'.attributes name (h.attributes name hn)

theorem le_extend (d : Denylist) (a : Addition) : d ≤ d.extend a := by
  cases a with
  | modules names => exact ⟨fun _ h => NameSet.contains_insertMany names h, fun _ h => h, fun _ h => h⟩
  | callables names => exact ⟨fun _ h => h, fun _ h => NameSet.contains_insertMany names h, fun _ h => h⟩
  | attributes names => exact ⟨fun _ h => h, fun _ h => h, fun _ h => NameSet.contains_insertMany names h⟩

theorem le_foldl_extend (d : Denylist) (additions : List Addition) : d ≤ additions.foldl extend d := by
  induction additions generalizing d with
  | nil => exact le_refl d
  | cons a rest ih => exact le_trans (le_extend d a) (ih (d.extend a))

theorem forbidsModule_mono (h : d ≤ d') (hn : d.forbidsModule name = true) : d'.forbidsModule name = true := by
  simp only [forbidsModule, Bool.or_eq_true, List.any_eq_true] at hn ⊢
  obtain hn | ⟨p, hp, hn⟩ := hn
  · exact .inl (h.modules name hn)
  · exact .inr ⟨p, hp, h.modules _ hn⟩

theorem forbidsCallable_mono (h : d ≤ d') (hn : d.forbidsCallable name = true) : d'.forbidsCallable name = true :=
  h.callables name hn

theorem forbidsAttribute_mono (h : d ≤ d') (hn : d.forbidsAttribute name = true) :
    d'.forbidsAttribute name = true :=
  h.attributes name hn

end Denylist

/-! ### Findings that outweigh others -/

/-- Whether every finding is outweighed by one of some others. -/
def OutweighedBy (fs gs : List Finding) : Prop := ∀ f ∈ fs, ∃ g ∈ gs, f.severity ≤ g.severity

namespace OutweighedBy

variable {fs gs fs' gs' : List Finding}

theorem nil : OutweighedBy [] gs := List.forall_mem_nil _

theorem refl (fs : List Finding) : OutweighedBy fs fs := fun f hf => ⟨f, hf, Severity.le_refl _⟩

theorem singleton {f g : Finding} (h : f.severity ≤ g.severity) : OutweighedBy [f] [g] :=
  List.forall_mem_singleton.mpr ⟨g, List.mem_singleton_self g, h⟩

theorem append (h : OutweighedBy fs gs) (h' : OutweighedBy fs' gs') : OutweighedBy (fs ++ fs') (gs ++ gs') := by
  intro f hf
  obtain hf | hf := List.mem_append.mp hf
  · obtain ⟨g, hg, hle⟩ := h f hf
    exact ⟨g, List.mem_append_left _ hg, hle⟩
  · obtain ⟨g, hg, hle⟩ := h' f hf
    exact ⟨g, List.mem_append_right _ hg, hle⟩

theorem flatMap {l : List α} {F G : α → List Finding} (h : ∀ a ∈ l, OutweighedBy (F a) (G a)) :
    OutweighedBy (l.flatMap F) (l.flatMap G) := by
  intro f hf
  obtain ⟨a, ha, hf⟩ := List.mem_flatMap.mp hf
  obtain ⟨g, hg, hle⟩ := h a ha f hf
  exact ⟨g, List.mem_flatMap.mpr ⟨a, ha, hg⟩, hle⟩

theorem filterMap {l : List α} {F G : α → Option Finding}
    (h : ∀ a ∈ l, ∀ f, F a = some f → ∃ g, G a = some g ∧ f.severity ≤ g.severity) :
    OutweighedBy (l.filterMap F) (l.filterMap G) := by
  intro f hf
  obtain ⟨a, ha, hf⟩ := List.mem_filterMap.mp hf
  obtain ⟨g, hg, hle⟩ := h a ha f hf
  exact ⟨g, List.mem_filterMap.mpr ⟨a, ha, hg⟩, hle⟩

theorem toList {o o' : Option Finding} (h : ∀ f, o = some f → ∃ g, o' = some g ∧ f.severity ≤ g.severity) :
    OutweighedBy o.toList o'.toList := by
  intro f hf
  obtain ⟨g, hg, hle⟩ := h f (Option.mem_toList.mp hf)
  exact ⟨g, Option.mem_toList.mpr hg, hle⟩

theorem mergeSort {le le' : Finding → Finding → Bool} (h : OutweighedBy fs gs) :
    OutweighedBy (fs.mergeSort le) (gs.mergeSort le') := by
  intro f hf
  obtain ⟨g, hg, hle⟩ := h f (List.mem_mergeSort.mp hf)
  exact ⟨g, List.mem_mergeSort.mpr hg, hle⟩

/-- The highest severity of what outweighs others is at least as high. -/
theorem maxSeverity_le {s : Severity} (h : OutweighedBy fs gs) (hs : maxSeverity fs = some s) :
    ∃ t, maxSeverity gs = some t ∧ s ≤ t := by
  obtain ⟨⟨f, hf, rfl⟩, -⟩ := of_maxSeverity_eq_some hs
  obtain ⟨g, hg, hle⟩ := h f hf
  cases ht : maxSeverity gs with
  | none =>
    rw [maxSeverity_eq_none_iff.mp ht] at hg
    cases hg
  | some t => exact ⟨t, rfl, Severity.le_trans hle ((of_maxSeverity_eq_some ht).2 g hg)⟩

end OutweighedBy

/-! ### Findings of the screening -/

namespace Screening

variable {d d' : Denylist}

theorem importFindings_mono (h : d ≤ d') (statement : Python.Node) :
    OutweighedBy (importFindings d statement) (importFindings d' statement) := by
  refine .filterMap fun module _ f hf => ?_
  split at hf
  case isTrue hm =>
    cases hf
    exact ⟨_, if_pos (Denylist.forbidsModule_mono h hm), Severity.le_refl _⟩
  case isFalse => cases hf

/-- A module that is forbidden hides its members, but weighs as much as they do. -/
theorem fromImportFindings_mono (h : d ≤ d') (statement : Python.Node) :
    OutweighedBy (fromImportFindings d statement) (fromImportFindings d' statement) := by
  unfold fromImportFindings
  cases sourceModule? statement with
  | none => exact .nil
  | some module =>
    simp only
    by_cases hm : d.forbidsModule module.text = true
    · rw [if_pos hm, if_pos (Denylist.forbidsModule_mono h hm)]
      exact .refl _
    · rw [if_neg hm]
      by_cases hm' : d'.forbidsModule module.text = true
      · rw [if_pos hm']
        intro f hf
        obtain ⟨member, -, hf⟩ := List.mem_filterMap.mp hf
        refine ⟨_, List.mem_singleton_self _, ?_⟩
        split at hf <;> cases hf
        exact Severity.le_refl _
      · rw [if_neg hm']
        refine .filterMap fun member _ f hf => ?_
        split at hf
        case isTrue hc =>
          cases hf
          exact ⟨_, if_pos (Denylist.forbidsCallable_mono h hc), Severity.le_refl _⟩
        case isFalse => cases hf

theorem forbiddenCallee?_mono {aliases : List Alias} {written name : String} (h : d ≤ d')
    (hn : forbiddenCallee? ⟨d, aliases⟩ written = some name) :
    ∃ name', forbiddenCallee? ⟨d', aliases⟩ written = some name' := by
  have hmem := List.mem_of_find?_eq_some hn
  have hforbidden := Denylist.forbidsCallable_mono h (List.find?_some hn)
  exact Option.isSome_iff_exists.mp (List.find?_isSome.mpr ⟨name, hmem, hforbidden⟩)

theorem reflectiveFinding?_mono {argument : Python.Node} {f : Finding} (h : d ≤ d')
    (hf : reflectiveFinding? d argument = some f) : reflectiveFinding? d' argument = some f := by
  unfold reflectiveFinding? at hf ⊢
  split at hf
  case h_1 name hname =>
    split at hf
    case isTrue ha =>
      rw [← hf]
      simp only [Denylist.forbidsAttribute_mono h ha, if_true]
    case isFalse => cases hf
  case h_2 => cases hf

theorem dynamicImportFinding?_mono {argument : Python.Node} {f : Finding} (h : d ≤ d')
    (hf : dynamicImportFinding? d argument = some f) : dynamicImportFinding? d' argument = some f := by
  unfold dynamicImportFinding? at hf ⊢
  split at hf
  case h_1 name hname =>
    split at hf
    case isTrue hm =>
      rw [← hf]
      simp only [Denylist.forbidsModule_mono h hm, if_true]
    case isFalse => cases hf
  case h_2 => cases hf

/-- An argument that is looked at under a condition which does not depend on the denylist. -/
theorem looked_mono {look look' : Python.Node → Option Finding} (h : ∀ n f, look n = some f → look' n = some f)
    (condition : Bool) (argument : Option Python.Node) :
    OutweighedBy (if condition then argument.bind look else none).toList
      (if condition then argument.bind look' else none).toList := by
  refine .toList fun f hf => ?_
  cases condition with
  | false => cases hf
  | true =>
    obtain ⟨n, hn, hf⟩ := Option.bind_eq_some_iff.mp hf
    exact ⟨f, Option.bind_eq_some_iff.mpr ⟨n, hn, h n f hf⟩, Severity.le_refl _⟩

theorem callFindings_mono (h : d ≤ d') (aliases : List Alias) (call : Python.Node) :
    OutweighedBy (callFindings ⟨d, aliases⟩ call) (callFindings ⟨d', aliases⟩ call) := by
  unfold callFindings
  cases call.child? .function with
  | none => exact .nil
  | some function =>
    simp only
    cases dottedName? function with
    | none => exact .nil
    | some written =>
      simp only
      refine .append (.append (.toList fun f hf => ?_) ?_) ?_
      · obtain ⟨name, hn, rfl⟩ := Option.map_eq_some_iff.mp hf
        obtain ⟨name', hn'⟩ := forbiddenCallee?_mono h hn
        exact ⟨_, Option.map_eq_some_iff.mpr ⟨name', hn', rfl⟩, Severity.le_refl _⟩
      · exact looked_mono (fun _ _ => reflectiveFinding?_mono h)
          (isOneOf ⟨d, aliases⟩ written reflectiveAccessors) _
      · exact looked_mono (fun _ _ => dynamicImportFinding?_mono h)
          (isOneOf ⟨d, aliases⟩ written dynamicImporters) _

theorem attributeFindings_mono (h : d ≤ d') (n : Python.Node) :
    OutweighedBy (attributeFindings d n) (attributeFindings d' n) := by
  unfold attributeFindings
  cases n.child? .attribute with
  | none => exact .nil
  | some name =>
    simp only
    by_cases ha : d.forbidsAttribute name.text = true
    · rw [if_pos ha, if_pos (Denylist.forbidsAttribute_mono h ha)]
      exact .refl _
    · rw [if_neg ha]
      exact .nil

/-- A name that is forbidden as an attribute is no longer found as a callable, but weighs more. -/
theorem nameFindings_mono (h : d ≤ d') (parent : Python.Node) (functions : List Python.Node) (n : Python.Node) :
    OutweighedBy (nameFindings d parent functions n) (nameFindings d' parent functions n) := by
  unfold nameFindings
  by_cases hpart : isPartOfParent parent n = true
  · rw [if_pos hpart]
    exact .nil
  rw [if_neg hpart, if_neg hpart]
  by_cases ha : d.forbidsAttribute n.text = true
  · rw [if_pos ha, if_pos (Denylist.forbidsAttribute_mono h ha)]
    exact .refl _
  rw [if_neg ha]
  by_cases hc : (!d.forbidsCallable n.text || n.text.toList.contains '.') = true
  · rw [if_pos hc]
    exact .nil
  rw [if_neg hc]
  by_cases hlocal : (isCallee parent n || isBindingSite parent n || isLocal n.text functions) = true
  · rw [if_pos hlocal]
    exact .nil
  rw [if_neg hlocal]
  simp only [Bool.or_eq_true, Bool.not_eq_true', not_or, Bool.not_eq_false, Bool.not_eq_true] at hc
  have hc' : (!d'.forbidsCallable n.text || n.text.toList.contains '.') = false := by
    rw [Denylist.forbidsCallable_mono h hc.1, hc.2]
    rfl
  by_cases ha' : d'.forbidsAttribute n.text = true
  · rw [if_pos ha']
    exact .singleton (Severity.le_critical _)
  · rw [if_neg ha', hc', if_neg Bool.false_ne_true]
    exact .refl _

theorem spotFindings_mono (h : d ≤ d') (aliases : List Alias) (s : Spot) :
    OutweighedBy (spotFindings ⟨d, aliases⟩ s) (spotFindings ⟨d', aliases⟩ s) := by
  unfold spotFindings
  split
  · exact importFindings_mono h s.node
  · exact fromImportFindings_mono h s.node
  · exact callFindings_mono h aliases s.node
  · exact attributeFindings_mono h s.node
  · cases s.parent? with
    | none => exact .nil
    | some parent => exact nameFindings_mono h parent s.functions s.node
  · exact .nil

theorem findings_mono (h : d ≤ d') (root : Python.Node) : OutweighedBy (findings d root) (findings d' root) :=
  (OutweighedBy.flatMap fun s _ => spotFindings_mono h (Alias.ofTree root) s).mergeSort

end Screening

/-! ### Whole scans -/

namespace Prevalidation

variable {d d' : Denylist}

theorem scan_mono (h : d ≤ d') (limits : PrevalidationConfig) (source : List Char) :
    OutweighedBy (scan d limits source) (scan d' limits source) := by
  unfold scan findingsOf
  cases Python.Readers.standard.read source with
  | error r => exact .refl _
  | ok root => exact .append (.refl _) (Screening.findings_mono h root)

theorem status_run_mono {limits : PrevalidationConfig} {threshold : Severity} {source : List Char} (h : d ≤ d')
    (hs : (run d limits threshold source).status = .failed) : (run d' limits threshold source).status = .failed := by
  rw [run_eq, StageResult.ofFindings_status_eq_failed_iff] at hs ⊢
  obtain ⟨f, hf, hle⟩ := hs
  obtain ⟨g, hg, hfg⟩ := scan_mono h limits source f hf
  exact ⟨g, hg, Severity.le_trans hle hfg⟩

end Prevalidation

theorem isSafe_mono {d d' : Denylist} {config : ValidatorConfig} {analyzers : List Analyzer} {source : String}
    (h : d ≤ d') (hs : isSafe { config with patterns := d' } analyzers source = true) :
    isSafe { config with patterns := d } analyzers source = true := by
  rw [isSafe_iff] at hs ⊢
  obtain ⟨hfirst, hsecond⟩ := hs
  refine ⟨?_, hsecond⟩
  rw [Prevalidation.run_eq]
  obtain hp | hf := StageResult.ofFindings_status
  · exact hp
  · have hf' := Prevalidation.status_run_mono h hf
    rw [hfirst] at hf'
    cases hf'

/-- **Adding to a denylist lets nothing through.** The highest severity of a scan does not fall, a source that failed
fails, and a source that is safe was safe. -/
theorem scan_severity_mono {d d' : Denylist} (h : d ≤ d') (limits : PrevalidationConfig) (threshold : Severity)
    (config : ValidatorConfig) (analyzers : List Analyzer) (source : String) :
    (∀ s, maxSeverity (Prevalidation.scan d limits source.toList) = some s →
      ∃ s', maxSeverity (Prevalidation.scan d' limits source.toList) = some s' ∧ s ≤ s') ∧
    ((Prevalidation.run d limits threshold source.toList).status = .failed →
      (Prevalidation.run d' limits threshold source.toList).status = .failed) ∧
    (isSafe { config with patterns := d' } analyzers source = true →
      isSafe { config with patterns := d } analyzers source = true) :=
  ⟨fun _ => (Prevalidation.scan_mono h limits source.toList).maxSeverity_le, Prevalidation.status_run_mono h,
    isSafe_mono h⟩

/-- A forbidden callable becomes a forbidden attribute as well. -/
theorem scan_severity_mono_extended :
    let d : Denylist := ⟨.empty, .ofList ["eval"], .empty⟩
    let d' := [Denylist.Addition.attributes ["eval"], .modules ["os"]].foldl Denylist.extend d
    d ≤ d' ∧ maxSeverity (Prevalidation.scan d {} "f = eval\n".toList) = some .error ∧
      (∃ s, maxSeverity (Prevalidation.scan d' {} "f = eval\n".toList) = some s ∧ .error ≤ s) ∧
      (Prevalidation.run d' {} .error "f = eval\n".toList).status = .failed ∧
      isSafe { patterns := d } [] "x = 1\n" = true := by
  intro d d'
  have h : d ≤ d' := Denylist.le_foldl_extend d _
  have hs : maxSeverity (Prevalidation.scan d {} "f = eval\n".toList) = some .error := by decide +kernel
  have hf : (Prevalidation.run d {} .error "f = eval\n".toList).status = .failed := by decide +kernel
  have hsafe : isSafe { patterns := d' } [] "x = 1\n" = true := by decide +kernel
  obtain ⟨hseverity, hstatus, -⟩ := scan_severity_mono h {} .error {} [] "f = eval\n"
  exact ⟨h, hs, hseverity _ hs, hstatus hf, (scan_severity_mono h {} .error {} [] "x = 1\n").2.2 hsafe⟩

end Vetting
