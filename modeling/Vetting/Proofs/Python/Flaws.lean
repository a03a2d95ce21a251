import Vetting.Proofs.Text.Ends
import Vetting.Python.Program

/-!
# Flawed nodes and rejected texts

`Node.Flawed` says what makes a node no part of a program and what is reported of it. The search with a stack gives the
report of the first flawed node in source order (`Node.firstFlaw?_eq_some_iff`) and of none exactly where no node at
any depth is flawed. So readers reject a text exactly when it has no tree, its tree has a flawed node, or it does not
compile (`Readers.exists_read_eq_error_iff`); `Readers.Rejects` says which of these is reported.
-/

namespace Vetting.Python

namespace Node

variable {n root : Node} {r : Rejection}

/-! ### Flawed nodes -/

/-- A bracket opens behind the word `print`, with nothing but white space between. -/
def IsParenthesized (n : Node) : Prop :=
  ∃ blanks rest, n.text.toList = ['p', 'r', 'i', 'n', 't'] ++ (blanks ++ '(' :: rest) ∧ Text.IsBlank blanks

/-- What makes a node no part of a program, and how it is reported. -/
inductive Flawed (n : Node) : Rejection → Prop
  | missing : n.kind = .missing → n.Flawed (.missing n.text n.place)
  | error : n.kind = .error → n.Flawed (.broken n.text n.place)
  | exec : n.kind = .execStatement → n.Flawed (.legacy .exec n.place)
  | print : n.kind = .printStatement → ¬ n.IsParenthesized → n.Flawed (.legacy .print n.place)

theorem Flawed.place?_eq (h : n.Flawed r) : r.place? = some n.place := by
  cases h <;> rfl

theorem isParenthesizedPrint_iff : n.isParenthesizedPrint = true ↔ n.IsParenthesized := by
  unfold isParenthesizedPrint IsParenthesized
  constructor
  · intro h
    split at h
    · rename_i rest hrest
      obtain ⟨more, hmore⟩ := List.head?_eq_some_iff.mp (of_decide_eq_true h)
      refine ⟨rest.takeWhile Text.isBlank, more, ?_, List.all_eq_true.mp List.all_takeWhile⟩
      rw [Text.dropPrefix?_eq_some_iff.mp hrest, ← hmore, Text.trimStart, List.takeWhile_append_dropWhile]
    · cases h
  · rintro ⟨blanks, rest, htext, hblanks⟩
    rw [Text.dropPrefix?_eq_some_iff.mpr htext]
    have hstart : Text.trimStart (blanks ++ '(' :: rest) = '(' :: rest := by
      rw [Text.trimStart, List.dropWhile_append_of_pos hblanks]
      rfl
    simp only [hstart, List.head?_cons, decide_true]

theorem flaw?_eq_some_iff : n.flaw? = some r ↔ n.Flawed r := by
  constructor
  · intro h
    unfold flaw? at h
    split at h
    · cases h
      exact .missing ‹_›
    · cases h
      exact .error ‹_›
    · cases h
      exact .exec ‹_›
    · split at h <;> cases h
      exact .print ‹_› fun hp => absurd (isParenthesizedPrint_iff.mpr hp) ‹_›
    · cases h
  · intro h
    cases h with
    | missing hk => simp only [flaw?, hk]
    | error hk => simp only [flaw?, hk]
    | exec hk => simp only [flaw?, hk]
    | print hk hp => simp only [flaw?, hk, if_neg fun h => hp (isParenthesizedPrint_iff.mp h)]

theorem flaw?_eq_none_iff : n.flaw? = none ↔ ∀ r, ¬ n.Flawed r := by
  simp only [← flaw?_eq_some_iff, Option.eq_none_iff_forall_ne_some]

/-! ### The search -/

/-- What a stack still holds, in source order, is searched from its start: taking a sound node off leaves the rest of
it. -/
theorem search_eq (stack : List Node) : search stack = (preorderAll stack).findSome? flaw? := by
  fun_induction search stack with
  | case1 => rfl
  | case2 n stack r hr => rw [preorderAll_cons, List.findSome?_cons, hr]
  | case3 n stack hn ih => rw [preorderAll_cons, List.findSome?_cons, hn, ih]

theorem firstFlaw?_eq : root.firstFlaw? = root.preorder.findSome? flaw? := by
  rw [firstFlaw?, search_eq, preorderAll, preorderAll, List.append_nil]

/-- The search gives the report of a flawed node that no other flawed node comes before. -/
theorem firstFlaw?_eq_some_iff :
    root.firstFlaw? = some r ↔
      ∃ before n after, root.preorder = before ++ n :: after ∧ n.Flawed r ∧ ∀ m ∈ before, ∀ r, ¬ m.Flawed r := by
  simp only [firstFlaw?_eq, List.findSome?_eq_some_iff, flaw?_eq_some_iff, flaw?_eq_none_iff]

theorem firstFlaw?_eq_none_iff : root.firstFlaw? = none ↔ ∀ n ∈ root.preorder, ∀ r, ¬ n.Flawed r := by
  simp only [firstFlaw?_eq, List.findSome?_eq_none_iff, flaw?_eq_none_iff]

end Node

/-! ### Rejected texts -/

namespace Readers

/-- One of the readers does not take a text for a program. -/
def Unparsed (readers : Readers) (text : List Char) : Prop :=
  readers.tree? text = none ∨ (∃ root, readers.tree? text = some root ∧ ∃ n ∈ root.preorder, ∃ r, n.Flawed r) ∨
    ∃ reason, readers.compile text = .error reason

/-- What is reported of a text that is no program: the first flawed node of its tree, and the word of the compiler where
there is none. -/
inductive Rejects (readers : Readers) (text : List Char) : Rejection → Prop
  | unparsable : readers.tree? text = none → readers.Rejects text .unparsable
  | flawed : readers.tree? text = some root → root.preorder = before ++ n :: after → n.Flawed r →
      (∀ m ∈ before, ∀ r, ¬ m.Flawed r) → readers.Rejects text r
  | refused : readers.tree? text = some root → (∀ n ∈ root.preorder, ∀ r, ¬ n.Flawed r) →
      readers.compile text = .error reason → readers.Rejects text (.refused reason)

variable {readers : Readers} {text : List Char} {root : Node} {r : Rejection}

theorem read_eq_error_iff : readers.read text = .error r ↔ readers.Rejects text r := by
  constructor
  · intro h
    unfold read at h
    split at h
    · cases h
      exact .unparsable ‹_›
    · split at h
      · cases h
        obtain ⟨before, n, after, hroot, hn, hbefore⟩ := Node.firstFlaw?_eq_some_iff.mp ‹_›
        exact .flawed ‹_› hroot hn hbefore
      · split at h <;> cases h
        exact .refused ‹_› (Node.firstFlaw?_eq_none_iff.mp ‹_›) ‹_›
  · intro h
    cases h with
    | unparsable ht => simp only [read, ht]
    | flawed ht hroot hn hbefore =>
      simp only [read, ht, Node.firstFlaw?_eq_some_iff.mpr ⟨_, _, _, hroot, hn, hbefore⟩]
    | refused ht hnone hc => simp only [read, ht, Node.firstFlaw?_eq_none_iff.mpr hnone, hc]

theorem read_eq_ok_iff :
    readers.read text = .ok root ↔
      readers.tree? text = some root ∧ (∀ n ∈ root.preorder, ∀ r, ¬ n.Flawed r) ∧ readers.compile text = .ok () := by
  constructor
  · intro h
    unfold read at h
    split at h
    · cases h
    · split at h
      · cases h
      · split at h <;> cases h
        exact ⟨‹_›, Node.firstFlaw?_eq_none_iff.mp ‹_›, ‹_›⟩
  · rintro ⟨ht, hnone, hc⟩
    simp only [read, ht, Node.firstFlaw?_eq_none_iff.mpr hnone, hc]

/-- A text is read as a program unless one of the readers does not take it for one. -/
theorem exists_read_eq_error_iff : (∃ r, readers.read text = .error r) ↔ readers.Unparsed text := by
  constructor
  · rintro ⟨r, h⟩
    cases read_eq_error_iff.mp h with
    | unparsable ht => exact .inl ht
    | flawed ht hroot hn _ => exact .inr (.inl ⟨_, ht, _, hroot ▸ by simp, _, hn⟩)
    | refused _ _ hc => exact .inr (.inr ⟨_, hc⟩)
  · intro hu
    cases h : readers.read text with
    | error r => exact ⟨r, rfl⟩
    | ok root =>
      obtain ⟨ht, hnone, hc⟩ := read_eq_ok_iff.mp h
      obtain hu | ⟨root', ht', n, hn, r, hr⟩ | ⟨reason, hu⟩ := hu
      · cases ht.symm.trans hu
      · cases ht.symm.trans ht'
        exact absurd hr (hnone n hn r)
      · cases hc.symm.trans hu

end Readers

/-! ### Trees of broken texts -/

theorem Breakage.exists_fault_flawed (tokens : List Token) (stop : Cursor) :
    ∃ r, (fault tokens stop).Flawed r := by
  have herror : ∀ open_, ∃ r, (fault.brokenAt tokens stop open_).Flawed r := fun _ => ⟨_, .error rfl⟩
  unfold fault
  extract_lets before open_ stopped
  split
  · split
    · exact ⟨_, .missing rfl⟩
    · exact herror open_
  · exact herror open_

/-- A text whose reading stopped has no tree without a flaw. -/
theorem Breakage.exists_tree_flawed (tokens : List Token) (stop : Cursor) :
    ∃ n ∈ (tree tokens stop).preorder, ∃ r, n.Flawed r := by
  refine ⟨fault tokens stop, Node.mem_preorder_of_mem_children Node.mem_preorder_self ?_, exists_fault_flawed tokens stop⟩
  simp [tree]

/-- The tree of a text without flaws is what the grammar makes of the whole text. -/
theorem Program.exists_parse_of_unflawed {isCharacterName : List Char → Bool} {text : List Char}
    (h : ∀ n ∈ (tree isCharacterName text).preorder, ∀ r, ¬ n.Flawed r) :
    ∃ offence, parse isCharacterName .isBlank text = .tree (tree isCharacterName text) offence := by
  unfold tree at h ⊢
  cases hp : parse isCharacterName .isBlank text with
  | broken stop =>
    rw [hp] at h
    obtain ⟨n, hn, r, hr⟩ := Breakage.exists_tree_flawed (Lexer.tokens .isBlank text) stop
    exact absurd hr (h n hn r)
  | tree root offence => exact ⟨offence, rfl⟩

end Vetting.Python
