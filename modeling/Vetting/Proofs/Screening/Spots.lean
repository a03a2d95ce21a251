import Vetting.Prevalidation
import Vetting.Proofs.Python.Forms

/-!
# Every place is looked at

`Around root path n` says that `n` stands in a tree along a path, the nodes around it from the innermost outward.
The walk over a program comes by every such place, with the node above it and the functions that it is inside of
(`mem_spots`), so what is found at a place is found by the scan (`mem_scan`).
-/

namespace Vetting.Screening

open Python

/-- A node of a tree, and the nodes around it, innermost first. -/
inductive Around (root : Node) : List Node → Node → Prop
  | root : Around root [] root
  | child {path : List Node} {parent n : Node} (h : Around root path parent) (hn : n ∈ parent.children) :
    Around root (parent :: path) n

/-- The functions along a path in whose bodies a node is, innermost first. -/
def functionsOn : List Node → Node → List Node
  | [], _ => []
  | parent :: path, n => functionsAround (functionsOn path parent) parent n

/-- The place of a node as the walk comes by it. -/
def spotOn (path : List Node) (n : Node) : Spot := ⟨n, path.head?, functionsOn path n⟩

variable {root n : Node} {path : List Node} {f : Finding}

/-! ### Paths -/

/-- Every node of a tree stands along some path. -/
theorem exists_around (h : n ∈ root.preorder) : ∃ path, Around root path n := by
  have hbelow : ∀ m : Node, ∀ path, Around root path m → ∀ n ∈ m.preorder, ∃ path, Around root path n := by
    intro m
    induction m using Node.childInduction with
    | step m ih =>
      intro path hm n hn
      obtain rfl | ⟨c, hc, hn⟩ := Node.mem_preorder.mp hn
      · exact ⟨path, hm⟩
      · exact ih c hc _ (hm.child hc) n hn
  exact hbelow root [] .root n h

theorem Around.sound (h : Around root path n) (hroot : root.Sound) : n.Sound := by
  induction h with
  | root => exact hroot
  | child _ hn ih => exact ih.child hn

/-- What is around the node above. -/
theorem Around.parent {parent : Node} (h : Around root (parent :: path) n) :
    Around root path parent ∧ n ∈ parent.children := by
  cases h with
  | child h hn => exact ⟨h, hn⟩

/-- All that is around a node of a sound tree is sound. -/
theorem Around.sound_of_mem {m : Node} (h : Around root path n) (hroot : root.Sound) (hm : m ∈ path) : m.Sound := by
  induction h with
  | root => cases hm
  | child h _ ih =>
    obtain rfl | hm := List.mem_cons.mp hm
    · exact h.sound hroot
    · exact ih hm

/-- Only the whole text has nothing around. -/
theorem Around.exists_parent (h : Around root path n) (hn : n ≠ root) : ∃ parent rest, path = parent :: rest := by
  cases h with
  | root => exact absurd rfl hn
  | child => exact ⟨_, _, rfl⟩

/-! ### Spots -/

theorem mem_spotsBelow {s : Spot} {parent c : Node} {functions ns : List Node} (hc : c ∈ ns)
    (h : s ∈ spotsFrom (some parent) (functionsAround functions parent c) c) :
    s ∈ spotsBelow parent functions ns := by
  induction ns with
  | nil => cases hc
  | cons m rest ih =>
    rw [spotsBelow, List.mem_append]
    obtain rfl | hc := List.mem_cons.mp hc
    · exact .inl h
    · exact .inr (ih hc)

theorem mem_spotsFrom {s : Spot} {parent? : Option Node} {functions : List Node} {m c : Node}
    (hc : c ∈ m.children) (h : s ∈ spotsFrom (some m) (functionsAround functions m c) c) :
    s ∈ spotsFrom parent? functions m := by
  cases m with
  | mk k r p t ns =>
    rw [spotsFrom]
    exact List.mem_cons_of_mem _ (mem_spotsBelow hc h)

theorem mem_spotsFrom_self {parent? : Option Node} {functions : List Node} :
    ⟨n, parent?, functions⟩ ∈ spotsFrom parent? functions n := by
  cases n with
  | mk k r p t ns =>
    rw [spotsFrom]
    exact List.mem_cons_self

/-- The walk over a program comes by every place. -/
theorem mem_spots (h : Around root path n) : spotOn path n ∈ spots root := by
  have hbelow : ∀ s ∈ spotsFrom path.head? (functionsOn path n) n, s ∈ spots root := by
    induction h with
    | root => exact fun s hs => hs
    | child h hn ih => exact fun s hs => ih s (mem_spotsFrom hn hs)
  exact hbelow _ mem_spotsFrom_self

/-! ### Findings -/

theorem mem_findings {d : Denylist} (h : Around root path n)
    (hf : f ∈ spotFindings ⟨d, Alias.ofTree root⟩ (spotOn path n)) : f ∈ findings d root :=
  List.mem_mergeSort.mpr (List.mem_flatMap.mpr ⟨_, mem_spots h, hf⟩)

/-- What is found at a place of a program is found by the scan. -/
theorem mem_scan {d : Denylist} {limits : PrevalidationConfig} {source : List Char}
    (hread : Program.read source = .ok root) (h : Around root path n)
    (hf : f ∈ spotFindings ⟨d, Alias.ofTree root⟩ (spotOn path n)) :
    f ∈ Prevalidation.scan d limits source := by
  rw [Prevalidation.scan, Prevalidation.findingsOf_of_ok hread]
  exact List.mem_append_right _ (mem_findings h hf)

end Vetting.Screening
