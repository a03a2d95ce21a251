import Vetting.Proofs.Screening.Mentions
import Vetting.Proofs.Screening.Names

/-!
# Forbidden built-ins that are read

A forbidden built-in that is read is found unless the walk takes it for a local of a function. What it takes for a
local resolves to one under the rules of the language, if no comprehension leaks the name (`resolves_of_isLocal`). So
a built-in that resolves to none is found, if moreover no class in whose body it is read keeps the name
(`exists_reference`).
-/

namespace Vetting.Screening

open Python Node

variable {name : String} {parent n : Node}

/-! ### Locals -/

/-- The functions among layers. -/
def functionsOf (layers : List Layer) : List Node :=
  layers.filterMap fun
    | .function f => some f
    | _ => none

/-- What the walk takes for a local resolves to one, unless a comprehension leaks its name. -/
theorem resolves_of_isLocal {layers : List Layer}
    (hf : ∀ f, .function f ∈ layers → (f.Sound ∧ isFunction f = true) ∧ (Leaks f name → f.Binds name))
    (h : isLocal name (functionsOf layers) = true) : Resolves name layers := by
  induction layers with
  | nil => cases h
  | cons l outer ih =>
    have ih := ih fun f hl => hf f (List.mem_cons_of_mem _ hl)
    match l with
    | .classBody c => exact ih h
    | .comprehension c => exact .inr (ih h)
    | .function f =>
      obtain ⟨⟨hsound, hk⟩, hleak⟩ := hf f List.mem_cons_self
      have h : isLocal name (f :: functionsOf outer) = true := h
      simp only [isLocal, List.contains_iff_mem] at h
      split at h
      case isTrue => cases h
      case isFalse hglobal =>
        have hglobal : ¬ f.Declares .globalStatement name := fun hd => hglobal ((declared_iff hsound hk .global).mpr hd)
        split at h
        case isTrue => exact ⟨hglobal, .inr (ih h)⟩
        case isFalse hnonlocal =>
          split at h
          case isTrue hbound =>
            refine ⟨hglobal, .inl ⟨(binds_or_leaks hsound hk hbound).elim id hleak, fun hd => ?_⟩⟩
            exact hnonlocal ((declared_iff hsound hk .nonlocal).mpr hd)
          case isFalse => exact ⟨hglobal, .inr (ih h)⟩

/-- What the first loop of a comprehension goes over lies in the layer of the comprehension, but for that. -/
theorem exists_of_isFirstIterable {path : List Node} (h : isFirstIterable path.head? parent n = true) :
    ∃ c outer, layersOn path parent = .comprehension c :: outer := by
  match path with
  | [] => simp [isFirstIterable] at h
  | c :: rest =>
    have hc : c.kind.isComprehension = true := by
      simp only [isFirstIterable, List.head?_cons, Option.any_some, Bool.and_eq_true] at h
      exact h.2.1
    refine ⟨c, layersOn rest c, ?_⟩
    rw [layersOn, if_neg, if_neg, if_pos hc]
    · intro hk
      simp only [Bool.and_eq_true, decide_eq_true_eq] at hk
      rw [hk.1] at hc
      cases hc
    · intro hk
      simp only [Bool.and_eq_true, Bool.or_eq_true, decide_eq_true_eq] at hk
      obtain ⟨hk | hk, -⟩ := hk <;> rw [hk] at hc <;> cases hc

theorem functionsOn_eq (path : List Node) (n : Node) : functionsOn path n = functionsOf (layersOn path n) := by
  induction path generalizing n with
  | nil => rfl
  | cons parent path ih =>
    rw [functionsOn, functionsAround, isFunction, ih parent, layersOn]
    split
    case isTrue => rfl
    case isFalse =>
      split
      case isTrue => rfl
      case isFalse =>
        split
        case isTrue => rfl
        case isFalse =>
          split
          case isTrue h =>
            obtain ⟨c, outer, ha⟩ := exists_of_isFirstIterable h
            rw [ha]
            rfl
          case isFalse => rfl

theorem mem_path_of_mem_layersOn {path : List Node} {f : Node} (h : .function f ∈ layersOn path n) :
    f ∈ path ∧ isFunction f = true := by
  induction path generalizing n with
  | nil => cases h
  | cons parent path ih =>
    have hrest : .function f ∈ layersOn path parent → f ∈ parent :: path ∧ isFunction f = true :=
      fun h => ⟨List.mem_cons_of_mem _ (ih h).1, (ih h).2⟩
    rw [layersOn] at h
    split at h
    case isTrue hp =>
      obtain h | h := List.mem_cons.mp h
      · cases h
        exact ⟨List.mem_cons_self, (Bool.and_eq_true_iff.mp hp).1⟩
      · exact hrest h
    case isFalse =>
      split at h
      case isTrue => exact hrest ((List.mem_cons.mp h).resolve_left nofun)
      case isFalse =>
        split at h
        case isTrue => exact hrest ((List.mem_cons.mp h).resolve_left nofun)
        case isFalse =>
          split at h
          case isTrue => exact hrest (List.mem_of_mem_tail h)
          case isFalse => exact hrest h

/-! ### Findings -/

theorem writes_of_isBindingSite (hp : parent.Formed) (hc : n ∈ parent.children) (hn : n.kind = .identifier)
    (h : isBindingSite parent n = true) : parent.kind.writes n.role = true := by
  have hshape := hp.shape
  unfold isBindingSite at h
  split at h
  case h_1 hk | h_2 hk | h_3 hk | h_4 hk | h_5 hk | h_6 hk | h_7 hk | h_8 hk =>
    rw [hk]
    exact h
  case h_9 hk | h_10 hk | h_12 hk | h_13 hk | h_14 hk | h_15 hk =>
    rw [hk]
    rfl
  case h_11 hk =>
    rw [hk] at hshape ⊢
    exact decide_eq_true (hshape n hc (by rw [hn]; decide))
  case h_16 => cases h

/-- What is found at a name that is looked at where it stands, is read there, and passes for no local. -/
theorem exists_mem_nameFindings {d : Denylist} {functions : List Node} (hpart : ¬ isPartOfParent parent n = true)
    (hd : d.forbidsCallable n.text = true) (hdot : '.' ∉ n.text.toList) (hcallee : isCallee parent n = false)
    (hbound : isBindingSite parent n = false) (hlocal : isLocal n.text functions = false) :
    ∃ f ∈ nameFindings d parent functions n, f.location = some n.place ∧
      (f.severity = .error ∧ f.code = some "forbidden-reference" ∨
        f.severity = .critical ∧ f.code = some "forbidden-attribute") := by
  rw [nameFindings, if_neg hpart]
  by_cases hattribute : d.forbidsAttribute n.text = true
  · rw [if_pos hattribute]
    exact ⟨_, List.mem_singleton_self _, rfl, .inr ⟨rfl, rfl⟩⟩
  · have hundotted : ¬ (!d.forbidsCallable n.text || n.text.toList.contains '.') = true := by
      simp [hd, hdot]
    have hread : ¬ (isCallee parent n || isBindingSite parent n || isLocal n.text functions) = true := by
      simp [hcallee, hbound, hlocal]
    rw [if_neg hattribute, if_neg hundotted, if_neg hread]
    exact ⟨_, List.mem_singleton_self _, rfl, .inl ⟨rfl, rfl⟩⟩

/-- A forbidden built-in that is read and resolves to no local is found. -/
theorem exists_reference {source : List Char} {root : Node} {path : List Node} (d : Denylist)
    (limits : PrevalidationConfig) (hread : Program.read source = .ok root) (h : Around root (parent :: path) n)
    (hn : n.kind = .identifier) (hr : IsRead parent n) (hd : d.callables.contains n.text = true)
    (hdot : '.' ∉ n.text.toList) (hlocal : ¬ ReadsLocal n.text (layersOn (parent :: path) n))
    (hleak : ∀ f, .function f ∈ layersOn (parent :: path) n → Leaks f n.text → f.Binds n.text)
    (hclass : ∀ l ∈ (layersOn (parent :: path) n).head?, ¬ l.Keeps n.text) :
    ∃ f ∈ Prevalidation.scan d limits source, f.location = some n.place ∧
      (f.severity = .error ∧ f.code = some "forbidden-reference" ∨
        f.severity = .critical ∧ f.code = some "forbidden-attribute") := by
  obtain ⟨hroot, -⟩ := sound_of_read hread
  obtain ⟨hparent, hchild⟩ := h.parent
  have hformed := (hparent.sound hroot).formed
  have hpart : ¬ isPartOfParent parent n = true := by
    intro hpart
    obtain hp | hp | hp := isPartOfParent_cases hformed hchild hn hpart
    · exact hr.member hp
    · exact hr.path hp
    · exact hr.renamed hp
  have hbound : isBindingSite parent n = false := by
    rw [Bool.eq_false_iff]
    intro hb
    have hw := writes_of_isBindingSite hformed hchild hn hb
    rw [hr.read] at hw
    cases hw
  have hcallee : isCallee parent n = false := by
    simpa [isCallee] using hr.callee
  have hwalk : isLocal n.text (functionsOn (parent :: path) n) = false := by
    rw [Bool.eq_false_iff, functionsOn_eq]
    intro hl
    refine hlocal ⟨hclass, resolves_of_isLocal (fun f hf => ⟨?_, hleak f hf⟩) hl⟩
    obtain ⟨hpath, hk⟩ := mem_path_of_mem_layersOn hf
    exact ⟨h.sound_of_mem hroot hpath, hk⟩
  have hspot : spotFindings ⟨d, Alias.ofTree root⟩ (spotOn (parent :: path) n)
      = nameFindings d parent (functionsOn (parent :: path) n) n := by
    rw [spotFindings, spotOn, hn]
    rfl
  obtain ⟨f, hf, hfound⟩ := exists_mem_nameFindings hpart hd hdot hcallee hbound hwalk
  exact ⟨f, mem_scan hread h (hspot ▸ hf), hfound⟩

/-- A global declaration sends a name past the parameter of a function around. -/
theorem exists_reference_global :
    let source := "def f(eval):\n    def g():\n        global eval\n        return eval\n"
    ∃ f ∈ Prevalidation.scan .standard {} source.toList, f.location = some ⟨4, 16⟩ ∧
      (f.severity = .error ∧ f.code = some "forbidden-reference" ∨
        f.severity = .critical ∧ f.code = some "forbidden-attribute") := by
  intro source
  let read : Node := .leaf .identifier ⟨4, 16⟩ "eval"
  let declaration : Node := .branch .globalStatement ⟨3, 9⟩ [.leaf .identifier ⟨3, 16⟩ "eval"]
  let statement : Node := .branch .returnStatement ⟨4, 9⟩ [read]
  let inner : Node := .mk .block .body ⟨3, 9⟩ "" [declaration, statement]
  let g : Node := .branch .functionDefinition ⟨2, 5⟩
    [.mk .identifier .name ⟨2, 9⟩ "g" [], .mk .parameters .parameters ⟨2, 10⟩ "" [], inner]
  let outer : Node := .mk .block .body ⟨2, 5⟩ "" [g]
  let f : Node := .branch .functionDefinition ⟨1, 1⟩ [.mk .identifier .name ⟨1, 5⟩ "f" [],
    .mk .parameters .parameters ⟨1, 6⟩ "" [.leaf .identifier ⟨1, 7⟩ "eval"], outer]
  let root : Node := .branch .module ⟨1, 1⟩ [f]
  have hread : (Program.read source.toList).toOption = some root := by decide +kernel
  have h : Around root [statement, inner, g, outer, f, root] read := by
    refine .child (.child (.child (.child (.child (.child .root ?_) ?_) ?_) ?_) ?_) ?_ <;> decide
  have hlayers : layersOn [statement, inner, g, outer, f, root] read = [.function g, .function f] := rfl
  have hglobal : g.Declares .globalStatement "eval" := by
    refine ⟨declaration, .child (.body (n := inner) ?_ rfl) List.mem_cons_self fun _ => by decide, rfl, _,
      List.mem_cons_self, rfl⟩
    decide
  refine exists_reference .standard {} (Program.read_eq_ok hread) h rfl ⟨rfl, ?_, ?_, ?_, ?_⟩ ?_ ?_ ?_ ?_ ?_
  · decide
  · decide
  · decide
  · decide
  · decide +kernel
  · decide
  · rw [hlayers]
    exact fun hl => hl.2.1 hglobal
  · rw [hlayers]
    intro m hm hleaks
    have hloops : ∀ m ∈ [g, f], ∀ k ∈ m.preorder, k.kind ≠ .forClause := by decide
    refine absurd hleaks (not_leaks (hloops m ?_))
    simpa only [List.mem_cons, Layer.function.injEq, List.not_mem_nil, or_false] using hm
  · rw [hlayers]
    rintro l ⟨⟩ hk
    exact hk

end Vetting.Screening
