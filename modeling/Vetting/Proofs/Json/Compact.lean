import Vetting.Proofs.Binary64.Notation
import Vetting.Proofs.Json.Finite
import Vetting.Proofs.Json.Writing

/-!
# No two values have one text

The text of a value shows which value it is and, inside a list or an object, where it ends (`Unambiguous`): the first
character tells the kind of the value, a text ends at its quote, a list and an object end at their brackets, and a
number ends where a list or an object goes on.

* `Json.compact_inj`: values without odd numbers are the same if their texts are.
-/

namespace Vetting.Json

/-! ### Texts in quotes -/

/-- A control character is written as a unit of four digits. -/
theorem unit_of_lt : ∀ n < 32, Ascii.unit n = ['\\', 'u', '0', '0', hexDigit (n / 16), hexDigit (n % 16)] := by decide

theorem readText_escapeChar (c : Char) (fuel : Nat) (seen rest : List Char) :
    readText (fuel + 1) seen none (escapeChar c ++ rest) = readText fuel (c :: seen) none rest := by
  fun_cases escapeChar c
  case case6 h =>
    obtain rfl : c = Char.ofNat 8 := by rw [← h, Char.ofNat_toNat]
    rfl
  case case7 h =>
    obtain rfl : c = Char.ofNat 12 := by rw [← h, Char.ofNat_toNat]
    rfl
  case case8 h =>
    have hread := Ascii.unicodeEscape_unit (show c.toNat < 0xD800 ∨ 0xDFFF < c.toNat ∧ c.toNat < 0x10000 by omega) rest
    rw [Char.ofNat_toNat] at hread
    rw [← unit_of_lt _ h]
    exact Ascii.readText_unicode hread fuel seen
  case case9 hquote hslash _ _ _ _ _ h => exact Ascii.readText_plain hquote hslash (Nat.not_lt.mp h) fuel seen rest
  -- the five other escapes
  all_goals
    subst_vars
    rfl

variable {rest rest' : List Char}

theorem toList_quote (s : String) (rest : List Char) :
    (quote s).toList ++ rest = '"' :: (s.toList.flatMap escapeChar ++ '"' :: rest) := by
  simp [quote]

/-- A text in quotes ends at its second quote. -/
theorem quote_append_inj {s t : String} (h : (quote s).toList ++ rest = (quote t).toList ++ rest') :
    s = t ∧ rest = rest' := by
  have hread (u : String) (more : List Char) (hu : u.toList.length ≤ s.toList.length + t.toList.length) :
      readText (s.toList.length + t.toList.length + 1) [] none (u.toList.flatMap escapeChar ++ '"' :: more) =
        .ok (.ok u, more) :=
    readText_flatMap readText_escapeChar u (Nat.lt_succ_of_le hu)
  rw [toList_quote, toList_quote] at h
  have hs := hread s rest (Nat.le_add_right _ _)
  rw [(List.cons.inj h).2, hread t rest' (Nat.le_add_left _ _)] at hs
  cases hs
  exact ⟨rfl, rfl⟩

/-! ### Where values end -/

/-- Characters before which a value ends in a list or an object. -/
def isEnd (c : Char) : Bool := c = ',' || c = ']' || c = '\x7d'

/-- Nothing follows, or something before which a value ends. -/
def Ends (rest : List Char) : Prop := ∀ c ∈ rest.head?, isEnd c = true

/-- What has no such character in it ends where one follows. -/
theorem append_inj_of_not_isEnd {s t : List Char} (hs : ∀ c ∈ s, isEnd c = false) (ht : ∀ c ∈ t, isEnd c = false)
    (hrest : Ends rest) (hrest' : Ends rest') (h : s ++ rest = t ++ rest') : s = t ∧ rest = rest' := by
  have hsplit {s rest : List Char} (hs : ∀ c ∈ s, isEnd c = false) (hrest : Ends rest) :=
    takeWhile_append_of_head (p := fun c => !isEnd c) (fun c hc => by rw [hs c hc]; rfl)
      (fun c hc => by rw [hrest c hc]; rfl)
  obtain ⟨htake, hdrop⟩ := hsplit hs hrest
  obtain ⟨htake', hdrop'⟩ := hsplit ht hrest'
  rw [h] at htake hdrop
  exact ⟨htake.symm.trans htake', hdrop.symm.trans hdrop'⟩

/-! ### Kinds of values -/

/-- What the first character of a text tells of the value. -/
inductive Kind
  | null
  | bool
  | number
  | text
  | list
  | object

def kind : Json → Kind
  | .null => .null
  | .bool _ => .bool
  | .int _ | .float _ => .number
  | .str _ => .text
  | .arr _ => .list
  | .obj _ => .object

/-- The kind of the values that start with a character. -/
def Kind.ofChar (c : Char) : Kind :=
  if c = 'n' then .null
  else if c = 't' ∨ c = 'f' then .bool
  else if c = '"' then .text
  else if c = '[' then .list
  else if c = '\x7b' then .object
  else .number

section

open Text

variable {c : Char}

theorem isEnd_of_isNumeric (h : isNumeric c = true) : isEnd c = false := by
  rw [Bool.eq_false_iff]
  intro hend
  simp only [isEnd, Bool.or_eq_true, decide_eq_true_eq] at hend
  obtain (rfl | rfl) | rfl := hend <;> exact absurd h (by decide)

theorem ofChar_of_isNumeric (h : isNumeric c = true) : Kind.ofChar c = .number := by
  have hne {d : Char} (hd : isNumeric d = false) : c ≠ d := by
    rintro rfl
    exact absurd (hd.symm.trans h) (by decide)
  simp only [Kind.ofChar, hne (d := 'n') (by decide), hne (d := 't') (by decide), hne (d := 'f') (by decide),
    hne (d := '"') (by decide), hne (d := '[') (by decide), hne (d := '\x7b') (by decide), or_self, if_false]

end

theorem compact_float {x : Binary64} (h : x.isFinite = true) : (Json.float x).compact = x.documentText := if_pos h

/-- Numbers are written with characters of numbers alone. -/
theorem isNumeric_of_mem_compact {v : Json} (hv : v.finite = true) (hkind : v.kind = .number) :
    ∀ c ∈ v.compact.toList, Text.isNumeric c = true := by
  cases v with
  | int n =>
    change ∀ c ∈ (toString n).toList, _
    rw [Text.toList_toString]
    intro c hc
    obtain rfl | hc := Text.signed_of_mem_numeral c hc
    · decide
    · exact Text.isNumeric_of_isDigit hc
  | float x =>
    rw [compact_float hv]
    exact x.isNumeric_of_mem_documentText
  | _ => cases hkind

theorem compact_ne_nil_of_number {v : Json} (hv : v.finite = true) (hkind : v.kind = .number) :
    v.compact.toList ≠ [] := by
  cases v with
  | int n =>
    change (toString n).toList ≠ []
    rw [Text.toList_toString]
    exact List.append_ne_nil_of_right_ne_nil _ (List.length_pos_iff.mp (Text.length_digits_pos _))
  | float x =>
    obtain ⟨body, hbody, htext⟩ := x.exists_documentText_eq
    obtain ⟨c, rest, rfl, -⟩ := hbody.starts
    rw [compact_float hv, htext]
    exact List.append_ne_nil_of_right_ne_nil _ (List.cons_ne_nil _ _)
  | _ => cases hkind

theorem toList_arr (items : List Json) (rest : List Char) :
    (Json.arr items).compact.toList ++ rest = '[' :: ((compactItems items).toList ++ ']' :: rest) := by
  simp [compact]

theorem toList_obj (fields : List (String × Json)) (rest : List Char) :
    (Json.obj fields).compact.toList ++ rest = '\x7b' :: ((compactFields fields).toList ++ '\x7d' :: rest) := by
  simp [compact]

/-- The first character of a text ends nothing, and tells the kind of the value. -/
theorem exists_compact_eq_cons {v : Json} (hv : v.finite = true) :
    ∃ c more, v.compact.toList = c :: more ∧ isEnd c = false ∧ Kind.ofChar c = v.kind := by
  have hnumber (hkind : v.kind = .number) :
      ∃ c more, v.compact.toList = c :: more ∧ isEnd c = false ∧ Kind.ofChar c = v.kind := by
    obtain ⟨c, more, htext⟩ := List.exists_cons_of_ne_nil (compact_ne_nil_of_number hv hkind)
    have hc := isNumeric_of_mem_compact hv hkind c (htext ▸ List.mem_cons_self)
    exact ⟨c, more, htext, isEnd_of_isNumeric hc, (ofChar_of_isNumeric hc).trans hkind.symm⟩
  cases v with
  | null => exact ⟨'n', _, rfl, rfl, rfl⟩
  | bool b => cases b <;> exact ⟨_, _, rfl, rfl, rfl⟩
  | int _ | float _ => exact hnumber rfl
  | str s => exact ⟨_, _, (List.append_nil _).symm.trans (toList_quote s []), rfl, rfl⟩
  | arr items => exact ⟨_, _, (List.append_nil _).symm.trans (toList_arr items []), rfl, rfl⟩
  | obj fields => exact ⟨_, _, (List.append_nil _).symm.trans (toList_obj fields []), rfl, rfl⟩

variable {v w : Json}

theorem kind_eq_of_append_eq (hv : v.finite = true) (hw : w.finite = true)
    (h : v.compact.toList ++ rest = w.compact.toList ++ rest') : v.kind = w.kind := by
  obtain ⟨c, more, htext, -, hkind⟩ := exists_compact_eq_cons hv
  obtain ⟨c', more', htext', -, hkind'⟩ := exists_compact_eq_cons hw
  rw [htext, htext'] at h
  rw [← hkind, ← hkind', (List.cons.inj h).1]

theorem number_inj (hv : v.finite = true) (hw : w.finite = true) (hkind : v.kind = .number) (hkind' : w.kind = .number)
    (h : v.compact = w.compact) : v = w := by
  cases v with
  | int n =>
    cases w with
    | int m =>
      have htext : (toString n).toList = (toString m).toList := congrArg String.toList h
      rw [Text.toList_toString, Text.toList_toString] at htext
      rw [Text.numeral_inj htext]
    | float y => exact absurd (h.trans (compact_float hw)) (Binary64.toString_ne_documentText n y)
    | _ => cases hkind'
  | float x =>
    cases w with
    | int m => exact absurd (h.symm.trans (compact_float hv)) (Binary64.toString_ne_documentText m x)
    | float y =>
      rw [compact_float hv, compact_float hw] at h
      rw [Binary64.documentText_inj hv hw h]
    | _ => cases hkind'
  | _ => cases hkind

/-! ### One text, one value -/

/-- The text of `a` shows where it ends before what may follow, and no other `b` has it. -/
def Unambiguous {α : Type} (text : α → String) (finite : α → Bool) (ends : List Char → Prop) (a : α) : Prop :=
  ∀ b rest rest', finite b = true → ends rest → ends rest' → (text a).toList ++ rest = (text b).toList ++ rest' →
    a = b ∧ rest = rest'

/-- A list or an object ends. -/
def Closes (bracket : Char) (rest : List Char) : Prop := ∃ more, rest = bracket :: more

theorem unambiguous_null : Unambiguous compact finite Ends .null := by
  intro w rest rest' hw _ _ h
  have hkind := kind_eq_of_append_eq rfl hw h
  cases w with
  | null => exact ⟨rfl, List.append_cancel_left h⟩
  | _ => cases hkind

theorem unambiguous_bool (a : Bool) : Unambiguous compact finite Ends (.bool a) := by
  intro w rest rest' hw _ _ h
  have hkind := kind_eq_of_append_eq rfl hw h
  cases w with
  | bool b =>
    cases a <;> cases b
    · exact ⟨rfl, List.append_cancel_left h⟩
    · exact absurd (List.cons.inj h).1 (by decide)
    · exact absurd (List.cons.inj h).1 (by decide)
    · exact ⟨rfl, List.append_cancel_left h⟩
  | _ => cases hkind

theorem unambiguous_number (hv : v.finite = true) (hnumber : v.kind = .number) : Unambiguous compact finite Ends v := by
  intro w rest rest' hw hrest hrest' h
  have hnumber' : w.kind = .number := (kind_eq_of_append_eq hv hw h).symm.trans hnumber
  obtain ⟨htext, hends⟩ := append_inj_of_not_isEnd
    (fun c hc => isEnd_of_isNumeric (isNumeric_of_mem_compact hv hnumber c hc))
    (fun c hc => isEnd_of_isNumeric (isNumeric_of_mem_compact hw hnumber' c hc)) hrest hrest' h
  exact ⟨number_inj hv hw hnumber hnumber' (String.toList_inj.mp htext), hends⟩

theorem unambiguous_str (s : String) : Unambiguous compact finite Ends (.str s) := by
  intro w rest rest' hw _ _ h
  have hkind := kind_eq_of_append_eq rfl hw h
  cases w with
  | str t =>
    obtain ⟨rfl, hrest⟩ := quote_append_inj h
    exact ⟨rfl, hrest⟩
  | _ => cases hkind

/-! ### Lists and objects -/

/-- What the items of lists and the fields of objects have in common: their texts stand one behind another, with commas
between them, and none starts with what ends a value. -/
structure Joined {α : Type} (text : α → String) (finite : α → Bool) (first more : List α → String)
    (finiteAll : List α → Bool) : Prop where
  first_nil : first [] = ""
  first_cons : ∀ a as, first (a :: as) = text a ++ more as
  more_nil : more [] = ""
  more_cons : ∀ a as, more (a :: as) = "," ++ text a ++ more as
  finiteAll_cons : ∀ a as, finiteAll (a :: as) = (finite a && finiteAll as)
  starts : ∀ a, finite a = true → ∃ c behind, (text a).toList = c :: behind ∧ isEnd c = false

theorem joined_items : Joined compact finite compactItems compactMoreItems finiteItems := by
  refine ⟨rfl, fun _ _ => rfl, rfl, fun _ _ => rfl, fun _ _ => rfl, fun v hv => ?_⟩
  obtain ⟨c, behind, htext, hc, -⟩ := exists_compact_eq_cons hv
  exact ⟨c, behind, htext, hc⟩

theorem toList_field (key : String) (v : Json) (rest : List Char) :
    (compactField (key, v)).toList ++ rest = (quote key).toList ++ ':' :: (v.compact.toList ++ rest) := by
  simp [compactField]

theorem joined_fields : Joined compactField finiteField compactFields compactMoreFields finiteFields := by
  refine ⟨rfl, fun _ _ => rfl, rfl, fun _ _ => rfl, fun _ _ => rfl, fun f _ => ?_⟩
  exact ⟨_, _, (List.append_nil _).symm.trans ((toList_field f.1 f.2 []).trans (toList_quote f.1 _)), rfl⟩

namespace Joined

variable {α : Type} {text : α → String} {finite : α → Bool} {first more : List α → String} {finiteAll : List α → Bool}
  {a : α} {as bs : List α} {bracket : Char}

theorem toList_first_cons (hj : Joined text finite first more finiteAll) (a : α) (as : List α) (rest : List Char) :
    (first (a :: as)).toList ++ rest = (text a).toList ++ ((more as).toList ++ rest) := by
  rw [hj.first_cons, String.toList_append, List.append_assoc]

theorem toList_more_nil (hj : Joined text finite first more finiteAll) (rest : List Char) :
    (more []).toList ++ rest = rest := by
  rw [hj.more_nil]
  rfl

theorem toList_more_cons (hj : Joined text finite first more finiteAll) (a : α) (as : List α) (rest : List Char) :
    (more (a :: as)).toList ++ rest = ',' :: ((text a).toList ++ ((more as).toList ++ rest)) := by
  rw [hj.more_cons, String.toList_append, String.toList_append, List.append_assoc, List.append_assoc]
  rfl

theorem ends_more (hj : Joined text finite first more finiteAll) (hbracket : isEnd bracket = true) (as : List α)
    (h : Closes bracket rest) : Ends ((more as).toList ++ rest) := by
  cases as with
  | nil =>
    obtain ⟨behind, rfl⟩ := h
    rw [hj.toList_more_nil]
    rintro c ⟨⟩
    exact hbracket
  | cons a as =>
    rw [hj.toList_more_cons]
    rintro c ⟨⟩
    rfl

/-- What goes on with a comma does not close. -/
theorem more_cons_ne (hj : Joined text finite first more finiteAll) (hne : bracket ≠ ',') (a : α) (as : List α)
    (rest : List Char) (h : Closes bracket rest') : (more (a :: as)).toList ++ rest ≠ rest' := by
  obtain ⟨behind, rfl⟩ := h
  rw [hj.toList_more_cons]
  exact fun heq => hne (List.cons.inj heq).1.symm

theorem unambiguous_nil (hj : Joined text finite first more finiteAll) (hne : bracket ≠ ',') :
    Unambiguous more finiteAll (Closes bracket) [] := by
  intro bs rest rest' _ hrest _ h
  rw [hj.toList_more_nil] at h
  cases bs with
  | nil => exact ⟨rfl, h.trans (hj.toList_more_nil rest')⟩
  | cons b bs => exact absurd h.symm (hj.more_cons_ne hne b bs rest' hrest)

theorem unambiguous_cons (hj : Joined text finite first more finiteAll) (hbracket : isEnd bracket = true)
    (hne : bracket ≠ ',') (ha : Unambiguous text finite Ends a) (has : Unambiguous more finiteAll (Closes bracket) as) :
    Unambiguous more finiteAll (Closes bracket) (a :: as) := by
  intro bs rest rest' hbs hrest hrest' h
  cases bs with
  | nil =>
    rw [hj.toList_more_nil] at h
    exact absurd h (hj.more_cons_ne hne a as rest hrest')
  | cons b bs =>
    rw [hj.finiteAll_cons] at hbs
    obtain ⟨hb, hmore⟩ := Bool.and_eq_true_iff.mp hbs
    rw [hj.toList_more_cons, hj.toList_more_cons] at h
    obtain ⟨rfl, hbehind⟩ :=
      ha _ _ _ hb (hj.ends_more hbracket as hrest) (hj.ends_more hbracket bs hrest') (List.cons.inj h).2
    obtain ⟨rfl, hends⟩ := has _ _ _ hmore hrest hrest' hbehind
    exact ⟨rfl, hends⟩

/-- Nothing that starts a value closes. -/
theorem first_cons_ne (hj : Joined text finite first more finiteAll) (hbracket : isEnd bracket = true)
    (has : finiteAll (a :: as) = true) (rest rest' : List Char) :
    (first (a :: as)).toList ++ rest ≠ bracket :: rest' := by
  rw [hj.finiteAll_cons] at has
  obtain ⟨c, behind, htext, hc⟩ := hj.starts a (Bool.and_eq_true_iff.mp has).1
  rw [hj.toList_first_cons, htext]
  intro h
  rw [(List.cons.inj h).1, hbracket] at hc
  cases hc

/-- Between brackets, what stands behind the first comma decides. -/
theorem unambiguous_first (hj : Joined text finite first more finiteAll) (hbracket : isEnd bracket = true)
    (has : finiteAll as = true) (h : Unambiguous more finiteAll (Closes bracket) as) :
    Unambiguous first finiteAll (Closes bracket) as := by
  rintro bs _ _ hbs ⟨behind, rfl⟩ ⟨behind', rfl⟩ heq
  refine h bs _ _ hbs ⟨behind, rfl⟩ ⟨behind', rfl⟩ ?_
  cases as with
  | nil =>
    cases bs with
    | nil =>
      rw [hj.first_nil] at heq
      rw [hj.more_nil]
      exact heq
    | cons b bs =>
      rw [hj.first_nil] at heq
      exact absurd heq.symm (hj.first_cons_ne hbracket hbs _ _)
  | cons a as =>
    cases bs with
    | nil =>
      rw [hj.first_nil] at heq
      exact absurd heq (hj.first_cons_ne hbracket has _ _)
    | cons b bs =>
      rw [hj.toList_first_cons, hj.toList_first_cons] at heq
      rw [hj.toList_more_cons, hj.toList_more_cons, heq]

end Joined

theorem unambiguous_arr {vs : List Json} (h : Unambiguous compactItems finiteItems (Closes ']') vs)
    (hvs : finiteItems vs = true) : Unambiguous compact finite Ends (.arr vs) := by
  intro w rest rest' hw _ _ heq
  have hkind := kind_eq_of_append_eq (v := .arr vs) hvs hw heq
  cases w with
  | arr ws =>
    rw [toList_arr, toList_arr] at heq
    obtain ⟨rfl, hends⟩ := h _ _ _ hw ⟨_, rfl⟩ ⟨_, rfl⟩ (List.cons.inj heq).2
    exact ⟨rfl, (List.cons.inj hends).2⟩
  | _ => cases hkind

theorem unambiguous_obj {fs : List (String × Json)} (h : Unambiguous compactFields finiteFields (Closes '\x7d') fs)
    (hfs : finiteFields fs = true) : Unambiguous compact finite Ends (.obj fs) := by
  intro w rest rest' hw _ _ heq
  have hkind := kind_eq_of_append_eq (v := .obj fs) hfs hw heq
  cases w with
  | obj gs =>
    rw [toList_obj, toList_obj] at heq
    obtain ⟨rfl, hends⟩ := h _ _ _ hw ⟨_, rfl⟩ ⟨_, rfl⟩ (List.cons.inj heq).2
    exact ⟨rfl, (List.cons.inj hends).2⟩
  | _ => cases hkind

theorem unambiguous_field (key : String) (hv : Unambiguous compact finite Ends v) :
    Unambiguous compactField finiteField Ends (key, v) := by
  rintro ⟨key', w⟩ rest rest' hw hrest hrest' h
  rw [toList_field, toList_field] at h
  obtain ⟨rfl, hvalue⟩ := quote_append_inj h
  obtain ⟨rfl, hends⟩ := hv _ _ _ hw hrest hrest' (List.cons.inj hvalue).2
  exact ⟨rfl, hends⟩

mutual

theorem unambiguous_compact : (v : Json) → v.finite = true → Unambiguous compact finite Ends v
  | .null, _ => unambiguous_null
  | .bool b, _ => unambiguous_bool b
  | .int _, h => unambiguous_number h rfl
  | .float _, h => unambiguous_number h rfl
  | .str s, _ => unambiguous_str s
  | .arr items, h => unambiguous_arr (joined_items.unambiguous_first rfl h (unambiguous_moreItems items h)) h
  | .obj fields, h => unambiguous_obj (joined_fields.unambiguous_first rfl h (unambiguous_moreFields fields h)) h
termination_by structural v => v

theorem unambiguous_moreItems : (vs : List Json) → finiteItems vs = true →
    Unambiguous compactMoreItems finiteItems (Closes ']') vs
  | [], _ => joined_items.unambiguous_nil (by decide)
  | v :: rest, h =>
    have h : v.finite = true ∧ finiteItems rest = true := Bool.and_eq_true_iff.mp h
    joined_items.unambiguous_cons rfl (by decide) (unambiguous_compact v h.1) (unambiguous_moreItems rest h.2)
termination_by structural vs => vs

theorem unambiguous_moreFields : (fs : List (String × Json)) → finiteFields fs = true →
    Unambiguous compactMoreFields finiteFields (Closes '\x7d') fs
  | [], _ => joined_fields.unambiguous_nil (by decide)
  | f :: rest, h =>
    have h : finiteField f = true ∧ finiteFields rest = true := Bool.and_eq_true_iff.mp h
    joined_fields.unambiguous_cons rfl (by decide) (unambiguous_compactField f h.1) (unambiguous_moreFields rest h.2)
termination_by structural fs => fs

theorem unambiguous_compactField : (f : String × Json) → finiteField f = true →
    Unambiguous compactField finiteField Ends f
  | (k, v), h => unambiguous_field k (unambiguous_compact v h)
termination_by structural f => f

end

/-- **No two values without odd numbers have one text.** -/
theorem compact_inj (hv : v.finite = true) (hw : w.finite = true) (h : v.compact = w.compact) : v = w :=
  (unambiguous_compact v hv w [] [] hw nofun nofun (by rw [h])).1

end Vetting.Json
