import Vetting.Property.ParamType
import Vetting.Proofs.Text.Ends

/-!
# Annotations

The annotations that name a type, as derivations by a grammar: a word or a list in brackets, each in white space and
behind at most one `typing.`.

* `ParamType.Derivation`: a derivation, with its text and the type that it gives.
* `ParamType.Derivation.eq_of_text_eq`: a text has at most one derivation.
* `ParamType.ofChars?_eq_some_iff`: an annotation is read as the type of its derivation.
* `ParamType.ofText?_eq_some_iff_unique`: all this together, and that every type is read back from what it is written as.
-/

namespace Vetting.ParamType

open Text

/-! ### The grammar -/

/-- The module that a type may be named in. -/
def qualifier : List Char := "typing.".toList

/-- What stands around a word or around brackets. -/
structure Setting where
  before : List Char
  qualified : Bool
  after : List Char
  isBlank_before : IsBlank before
  isBlank_after : IsBlank after

/-- A text in its setting; between the module and the text there is nothing. -/
def Setting.around (m : Setting) (core : List Char) : List Char :=
  m.before ++ ((if m.qualified then qualifier ++ core else core) ++ m.after)

/-- A word that names a type. -/
inductive Word
  | bool
  | int
  | float
  | str
  | list
  | capitalList

def Word.text : Word → List Char
  | .bool => "bool".toList
  | .int => "int".toList
  | .float => "float".toList
  | .str => "str".toList
  | .list => "list".toList
  | .capitalList => "List".toList

/-- A bare list holds whole numbers. -/
def Word.type : Word → ParamType
  | .bool => .bool
  | .int => .int
  | .float => .float
  | .str => .str
  | .list | .capitalList => .list .int

/-- What stands before the type of the items. -/
def opening (capital : Bool) : List Char := if capital then "List[".toList else "list[".toList

/-- How an annotation is derived. -/
inductive Derivation
  | word (setting : Setting) (name : Word)
  | brackets (setting : Setting) (capital : Bool) (item : Derivation)

namespace Derivation

/-- The text that is derived. -/
def text : Derivation → List Char
  | .word m w => m.around w.text
  | .brackets m capital item => m.around (opening capital ++ (item.text ++ [']']))

/-- The type that the text is derived as. -/
def type : Derivation → ParamType
  | .word _ w => w.type
  | .brackets _ _ item => .list item.type

end Derivation

/-! ### Settings -/

/-- What a setting can be told from: no white space at the ends, and no module before it. -/
structure IsCore (s : List Char) : Prop where
  solid : IsSolid s
  head : s.head? ≠ some 't'

variable {s t : List Char} {m m' : Setting}

theorem IsCore.not_qualified (h : IsCore s) : ¬ qualifier <+: s := by
  rintro ⟨rest, rfl⟩
  exact h.head rfl

theorem IsCore.solid_qualified (h : IsCore s) (qualified : Bool) :
    IsSolid (if qualified then qualifier ++ s else s) := by
  cases qualified with
  | false => exact h.solid
  | true =>
    obtain ⟨more, c, rfl, hc⟩ := h.solid.last
    exact ⟨⟨'t', _, rfl, rfl⟩, ⟨qualifier ++ more, c, (List.append_assoc ..).symm, hc⟩⟩

/-- A text without what stands around it. -/
def bare (s : List Char) : List Char := (dropPrefix? qualifier (trim s)).getD (trim s)

theorem bare_around (m : Setting) (h : IsCore s) : bare (m.around s) = s := by
  have htrim : trim (m.around s) = if m.qualified then qualifier ++ s else s :=
    trim_enclosed (h.solid_qualified m.qualified) m.isBlank_before m.isBlank_after
  rw [bare, htrim]
  cases m.qualified with
  | false => rw [if_neg Bool.false_ne_true, dropPrefix?_eq_none_iff.mpr h.not_qualified, Option.getD_none]
  | true => rw [if_pos rfl, dropPrefix?_eq_some_iff.mpr rfl, Option.getD_some]

/-- Every text stands in some setting. -/
theorem exists_around (s : List Char) : ∃ m : Setting, s = m.around (bare s) := by
  obtain ⟨before, after, hs, hbefore, hafter⟩ := exists_enclosed s
  cases h : dropPrefix? qualifier (trim s) with
  | none =>
    refine ⟨⟨before, false, after, hbefore, hafter⟩, ?_⟩
    rw [bare, h]
    exact hs
  | some rest =>
    refine ⟨⟨before, true, after, hbefore, hafter⟩, ?_⟩
    rw [bare, h]
    rw [dropPrefix?_eq_some_iff.mp h] at hs
    exact hs

theorem around_inj (h : IsCore s) (h' : IsCore t) (heq : m.around s = m'.around t) : m = m' ∧ s = t := by
  have hcore : s = t := by rw [← bare_around m h, heq, bare_around m' h']
  subst hcore
  refine ⟨?_, rfl⟩
  obtain ⟨before, qualified, after, hb, ha⟩ := m
  obtain ⟨before', qualified', after', hb', ha'⟩ := m'
  obtain ⟨rfl, hmiddle, rfl⟩ :=
    enclosed_inj (h.solid_qualified qualified) (h.solid_qualified qualified') hb hb' ha ha' heq
  have hqualified : qualified = qualified' := by
    cases qualified <;> cases qualified'
    · rfl
    · exact absurd ⟨s, hmiddle.symm⟩ h.not_qualified
    · exact absurd ⟨s, hmiddle⟩ h.not_qualified
    · rfl
  subst hqualified
  rfl

/-! ### Words and brackets -/

/-- A text with these ends is a core. -/
theorem isCore_of_ends {c d : Char} {rest : List Char} (more : List Char) (hfirst : s = c :: rest) (hc : isBlank c = false)
    (ht : c ≠ 't') (hlast : s = more ++ [d]) (hd : isBlank d = false) : IsCore s where
  solid := ⟨⟨c, rest, hfirst, hc⟩, ⟨more, d, hlast, hd⟩⟩
  head := by
    rw [hfirst, List.head?_cons]
    exact fun h => ht (Option.some.inj h)

theorem Word.isCore_text (w : Word) : IsCore w.text := by
  cases w with
  | bool => exact isCore_of_ends "boo".toList rfl rfl (by decide) rfl rfl
  | int => exact isCore_of_ends "in".toList rfl rfl (by decide) rfl rfl
  | float => exact isCore_of_ends "floa".toList rfl rfl (by decide) rfl rfl
  | str => exact isCore_of_ends "st".toList rfl rfl (by decide) rfl rfl
  | list => exact isCore_of_ends "lis".toList rfl rfl (by decide) rfl rfl
  | capitalList => exact isCore_of_ends "Lis".toList rfl rfl (by decide) rfl rfl

theorem isCore_brackets (capital : Bool) (inner : List Char) : IsCore (opening capital ++ (inner ++ [']'])) := by
  have hlast := (List.append_assoc (opening capital) inner [']']).symm
  cases capital with
  | false => exact isCore_of_ends _ rfl rfl (by decide) hlast rfl
  | true => exact isCore_of_ends _ rfl rfl (by decide) hlast rfl

theorem Word.bracket_not_mem (w : Word) : '[' ∉ w.text := by
  cases w <;> decide

theorem bracket_mem (capital : Bool) (inner : List Char) : '[' ∈ opening capital ++ inner := by
  apply List.mem_append_left
  cases capital <;> decide

theorem Word.text_ne_brackets (w : Word) (capital : Bool) (inner : List Char) :
    w.text ≠ opening capital ++ inner := by
  intro h
  exact w.bracket_not_mem (h ▸ bracket_mem capital inner)

theorem Word.text_inj {w w' : Word} (h : w.text = w'.text) : w = w' := by
  cases w <;> cases w' <;> first | rfl | exact absurd h (by decide)

theorem opening_append_inj {capital capital' : Bool} (h : opening capital ++ s = opening capital' ++ t) :
    capital = capital' ∧ s = t := by
  cases capital <;> cases capital'
  · exact ⟨rfl, List.append_cancel_left h⟩
  · exact absurd (List.cons.inj h).1 (by decide)
  · exact absurd (List.cons.inj h).1 (by decide)
  · exact ⟨rfl, List.append_cancel_left h⟩

/-! ### Reading -/

variable {type : ParamType} {inner : List Char}

theorem word?_text (w : Word) : word? w.text = some w.type := by
  cases w <;> decide

theorem word?_eq_some_iff : word? s = some type ↔ ∃ w : Word, s = w.text ∧ w.type = type := by
  constructor
  · intro h
    unfold word? at h
    repeat' split at h
    · exact ⟨.bool, ‹_›, Option.some.inj h⟩
    · exact ⟨.int, ‹_›, Option.some.inj h⟩
    · exact ⟨.float, ‹_›, Option.some.inj h⟩
    · exact ⟨.str, ‹_›, Option.some.inj h⟩
    · exact ⟨.list, ‹_›, Option.some.inj h⟩
    · exact ⟨.capitalList, ‹_›, Option.some.inj h⟩
    · cases h
  · rintro ⟨w, rfl, rfl⟩
    exact word?_text w

theorem word?_brackets (capital : Bool) (inner : List Char) : word? (opening capital ++ inner) = none := by
  rw [Option.eq_none_iff_forall_ne_some]
  intro type h
  obtain ⟨w, hw, -⟩ := word?_eq_some_iff.mp h
  exact w.text_ne_brackets capital inner hw.symm

theorem bracketed?_eq_some_iff :
    bracketed? s = some inner ↔ ∃ capital, s = opening capital ++ (inner ++ [']']) := by
  unfold bracketed?
  rw [Option.bind_eq_some_iff, Option.orElse_eq_orElse, Option.orElse_eq_or]
  constructor
  · rintro ⟨rest, hstart, hend⟩
    rw [dropSuffix?_eq_some_iff] at hend
    subst hend
    rcases Option.or_eq_some_iff.mp hstart with h | ⟨-, h⟩
    · exact ⟨false, dropPrefix?_eq_some_iff.mp h⟩
    · exact ⟨true, dropPrefix?_eq_some_iff.mp h⟩
  · rintro ⟨capital, rfl⟩
    refine ⟨inner ++ [']'], ?_, dropSuffix?_eq_some_iff.mpr rfl⟩
    apply Option.or_eq_some_iff.mpr
    cases capital with
    | false => exact .inl (dropPrefix?_eq_some_iff.mpr rfl)
    | true =>
      refine .inr ⟨dropPrefix?_eq_none_iff.mpr ?_, dropPrefix?_eq_some_iff.mpr rfl⟩
      rintro ⟨rest, h⟩
      have hopening : opening false ++ rest = opening true ++ (inner ++ [']']) := h
      exact absurd (opening_append_inj hopening).1 Bool.false_ne_true

/-- One step of reading, without what stands around the text. -/
theorem ofChars?_succ (fuel : Nat) (s : List Char) :
    ofChars? (fuel + 1) s =
      (word? (bare s)).or ((bracketed? (bare s)).bind fun inner => (ofChars? fuel inner).map .list) := by
  have hbare : (dropPrefix? "typing.".toList (trim s)).getD (trim s) = bare s := rfl
  rw [ofChars?, hbare]
  cases word? (bare s) <;> rfl

/-- The text that is read next, when the items of a list have to be read for `s`. -/
def Nested (inner s : List Char) : Prop := bracketed? (bare s) = some inner

theorem Nested.length_lt (h : Nested inner s) : inner.length < s.length := by
  obtain ⟨m, hm⟩ := exists_around s
  obtain ⟨capital, hcore⟩ := bracketed?_eq_some_iff.mp h
  rw [hm, hcore, Setting.around]
  cases m.qualified <;> simp <;> omega

theorem nested_wellFounded : WellFounded Nested :=
  Subrelation.wf Nested.length_lt (measure List.length).wf

/-- What is read has a derivation. -/
theorem exists_of_ofChars? {fuel : Nat} (h : ofChars? fuel s = some type) :
    ∃ a : Derivation, a.text = s ∧ a.type = type := by
  induction fuel generalizing s type with
  | zero => cases h
  | succ fuel ih =>
    obtain ⟨m, hm⟩ := exists_around s
    rw [ofChars?_succ] at h
    rcases Option.or_eq_some_iff.mp h with hword | ⟨-, hlist⟩
    · obtain ⟨w, htext, htype⟩ := word?_eq_some_iff.mp hword
      refine ⟨.word m w, ?_, htype⟩
      rw [Derivation.text, ← htext, ← hm]
    · obtain ⟨inner, hinner, hitem⟩ := Option.bind_eq_some_iff.mp hlist
      obtain ⟨item, hread, rfl⟩ := Option.map_eq_some_iff.mp hitem
      obtain ⟨capital, htext⟩ := bracketed?_eq_some_iff.mp hinner
      obtain ⟨a, rfl, rfl⟩ := ih hread
      refine ⟨.brackets m capital a, ?_, rfl⟩
      rw [Derivation.text, ← htext, ← hm]

/-- What has a derivation is read, by as many steps as there are characters. -/
theorem ofChars?_text (a : Derivation) {fuel : Nat} (h : a.text.length < fuel) :
    ofChars? fuel a.text = some a.type := by
  -- The fuel goes down by one where the text gets shorter by the brackets at least.
  induction a generalizing fuel with
  | word m w =>
    obtain ⟨n, rfl⟩ := Nat.exists_eq_succ_of_ne_zero (Nat.ne_zero_of_lt h)
    rw [ofChars?_succ, Derivation.text, bare_around m w.isCore_text, word?_text]
    rfl
  | brackets m capital item ih =>
    obtain ⟨n, rfl⟩ := Nat.exists_eq_succ_of_ne_zero (Nat.ne_zero_of_lt h)
    have hbare := bare_around m (isCore_brackets capital item.text)
    have hnested : Nested item.text (Derivation.brackets m capital item).text :=
      (congrArg bracketed? hbare).trans (bracketed?_eq_some_iff.mpr ⟨capital, rfl⟩)
    have hitem := ih (Nat.lt_of_lt_of_le hnested.length_lt (Nat.le_of_lt_succ h))
    rw [ofChars?_succ, hnested, Derivation.text, hbare, word?_brackets, Option.none_or, Option.bind_some, hitem]
    rfl

theorem ofChars?_eq_some_iff {fuel : Nat} (h : s.length < fuel) :
    ofChars? fuel s = some type ↔ ∃ a : Derivation, a.text = s ∧ a.type = type := by
  constructor
  · exact exists_of_ofChars?
  · rintro ⟨a, rfl, rfl⟩
    exact ofChars?_text a h

/-- Steps beyond the number of characters change nothing. -/
theorem ofChars?_eq {fuel fuel' : Nat} (h : s.length < fuel) (h' : s.length < fuel') :
    ofChars? fuel s = ofChars? fuel' s := by
  ext type
  rw [ofChars?_eq_some_iff h, ofChars?_eq_some_iff h']

/-- Reading as a recursion on the texts themselves. -/
theorem ofText?_eq (s : String) :
    ofText? s = (word? (bare s.toList)).or ((bracketed? (bare s.toList)).bind fun inner =>
      (ofText? (String.ofList inner)).map .list) := by
  rw [ofText?, ofChars?_succ]
  congr 1
  apply Option.bind_congr
  intro inner hinner
  have hlength := Nested.length_lt hinner
  rw [ofText?, String.toList_ofList, ofChars?_eq hlength (Nat.lt_succ_self _)]

/-! ### One derivation for each text -/

namespace Derivation

theorem eq_of_text_eq {a b : Derivation} (h : a.text = b.text) : a = b := by
  induction a generalizing b with
  | word m w =>
    cases b with
    | word m' w' =>
      obtain ⟨rfl, htext⟩ := around_inj w.isCore_text w'.isCore_text h
      rw [Word.text_inj htext]
    | brackets m' capital item =>
      obtain ⟨-, htext⟩ := around_inj w.isCore_text (isCore_brackets capital item.text) h
      exact absurd htext (w.text_ne_brackets capital _)
  | brackets m capital item ih =>
    cases b with
    | word m' w' =>
      obtain ⟨-, htext⟩ := around_inj (isCore_brackets capital item.text) w'.isCore_text h
      exact absurd htext.symm (w'.text_ne_brackets capital _)
    | brackets m' capital' item' =>
      obtain ⟨rfl, htext⟩ :=
        around_inj (isCore_brackets capital item.text) (isCore_brackets capital' item'.text) h
      obtain ⟨rfl, hitem⟩ := opening_append_inj htext
      rw [ih (List.append_cancel_right hitem)]

/-- Nothing around a type. -/
def bareSetting : Setting := ⟨[], false, [], nofun, nofun⟩

/-- The derivation of what a type is written as. -/
def ofType : ParamType → Derivation
  | .bool => .word bareSetting .bool
  | .int => .word bareSetting .int
  | .float => .word bareSetting .float
  | .str => .word bareSetting .str
  | .list item => .brackets bareSetting false (ofType item)

theorem around_bareSetting (core : List Char) : bareSetting.around core = core := List.append_nil core

theorem text_ofType (t : ParamType) : (ofType t).text = t.render.toList := by
  induction t with
  | list item ih =>
    rw [ofType, text, around_bareSetting, ih, render, String.toList_append, String.toList_append, List.append_assoc]
    rfl
  | bool | int | float | str => rfl

theorem type_ofType (t : ParamType) : (ofType t).type = t := by
  induction t with
  | list item ih => rw [ofType, type, ih]
  | bool | int | float | str => rfl

end Derivation

/-- **Annotations are read by their grammar.** A text is read as a type exactly if it is derived as that type, and then
in one way only; every type is read back from what it is written as. Reading comes to an end on every text: it is a
recursion on ever shorter texts. -/
theorem ofText?_eq_some_iff_unique (s : String) (t : ParamType) :
    (ofText? s = some t ↔
      ∃ a : Derivation, (a.text = s.toList ∧ a.type = t) ∧ ∀ b : Derivation, b.text = s.toList → b = a) ∧
    ofText? t.render = some t ∧
    Acc Nested s.toList ∧
    ofText? s = (word? (bare s.toList)).or ((bracketed? (bare s.toList)).bind fun inner =>
      (ofText? (String.ofList inner)).map .list) := by
  have hread (s : String) (t : ParamType) : ofText? s = some t ↔ ∃ a : Derivation, a.text = s.toList ∧ a.type = t :=
    ofChars?_eq_some_iff (Nat.lt_succ_self _)
  refine ⟨?_, ?_, nested_wellFounded.apply _, ofText?_eq s⟩
  · rw [hread]
    constructor
    · rintro ⟨a, htext, htype⟩
      exact ⟨a, ⟨htext, htype⟩, fun b hb => Derivation.eq_of_text_eq (hb.trans htext.symm)⟩
    · rintro ⟨a, ha, -⟩
      exact ⟨a, ha⟩
  · rw [hread]
    exact ⟨.ofType t, Derivation.text_ofType t, Derivation.type_ofType t⟩

end Vetting.ParamType
