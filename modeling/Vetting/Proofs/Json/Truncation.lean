import Vetting.Proofs.Json.Writing
import Vetting.Proofs.Outcome

/-!
# Documents that break off

Of the text of an object that breaks off anywhere before its end, no record is read (`Ascii.ofText_part`): the place
where it breaks off shows in what is read of it (`Ascii.readValue_part`), and every decoder stops there at the latest
(`Shape.exists_error_of_brokenMap`).

* `Doc.Broken`: a value in which a text breaks off.
* `Consumed`: however far a text goes, nothing of it is left over behind its value.
-/

namespace Vetting.Json

/-! ### Texts -/

theorem hexUnit_of_length_lt {text : List Char} (h : text.length < 4) : hexUnit text = .error .endInString := by
  match text with
  | [] | [_] | [_, _] | [_, _, _] => rfl
  | _ :: _ :: _ :: _ :: rest => simp only [List.length_cons] at h; omega

/-- What two texts start with breaks off in the first of them, or goes on with the second behind it. -/
theorem prefix_append_cases {α : Type} {part first second : List α} (h : part <+: first ++ second) :
    (part <+: first ∧ part ≠ first) ∨ ∃ more, part = first ++ more ∧ more <+: second := by
  by_cases hfirst : first <+: part
  · obtain ⟨more, rfl⟩ := hfirst
    exact .inr ⟨more, rfl, (List.prefix_append_right_inj first).mp h⟩
  · obtain hpart | hpart := List.prefix_or_prefix_of_prefix h (List.prefix_append first second)
    · exact .inl ⟨hpart, fun heq => hfirst (heq ▸ List.prefix_rfl)⟩
    · exact absurd hpart hfirst

theorem eq_nil_of_prefix_singleton {α : Type} {part : List α} {a : α} (h : part <+: [a]) (hne : part ≠ [a]) :
    part = [] := by
  obtain h | ⟨rest, rfl, hrest⟩ := List.prefix_cons_iff.mp h
  · exact h
  · rw [List.prefix_nil.mp hrest] at hne
    exact absurd rfl hne

theorem length_lt_of_prefix {α : Type} {part whole : List α} (h : part <+: whole) (hne : part ≠ whole) :
    part.length < whole.length :=
  Nat.lt_of_le_of_ne h.length_le fun heq => hne (h.eq_of_length heq)

namespace Ascii

variable {part : List Char}

/-- Where a unit breaks off. -/
theorem part_unit_cases {n : Nat} (h : part <+: unit n) (hne : part ≠ unit n) :
    part = [] ∨ part = ['\\'] ∨ ∃ digits, part = '\\' :: 'u' :: digits ∧ hexUnit digits = .error .endInString := by
  obtain rfl | ⟨behind, rfl, hbehind⟩ := List.prefix_cons_iff.mp h
  · exact .inl rfl
  obtain rfl | ⟨digits, rfl, hdigits⟩ := List.prefix_cons_iff.mp hbehind
  · exact .inr (.inl rfl)
  have hlength := length_lt_of_prefix hdigits fun heq => hne (by rw [heq]; rfl)
  exact .inr (.inr ⟨digits, rfl, hexUnit_of_length_lt hlength⟩)

theorem readText_part_unit {n : Nat} (h : part <+: unit n) (hne : part ≠ unit n) (fuel : Nat) (seen : List Char)
    (soft : Option TextError) : ∃ f, readText fuel seen soft part = .error f := by
  cases fuel with
  | zero => exact ⟨_, rfl⟩
  | succ fuel =>
    obtain rfl | rfl | ⟨digits, rfl, hdigits⟩ := part_unit_cases h hne
    · exact ⟨_, rfl⟩
    · exact ⟨_, rfl⟩
    · have hunit : unicodeEscape digits = .error .endInString := by
        rw [unicodeEscape, hdigits]
        rfl
      simp only [readText, hunit]
      exact ⟨_, rfl⟩

/-- The second half of a pair breaks off. -/
theorem completePair_part (first : Nat) {second : Nat} (h : part <+: unit second) (hne : part ≠ unit second) :
    ∃ e, completePair first part = (.error e, part) := by
  obtain rfl | rfl | ⟨digits, rfl, hdigits⟩ := part_unit_cases h hne
  · exact ⟨_, rfl⟩
  · exact ⟨_, rfl⟩
  · simp only [completePair, hdigits]
    exact ⟨_, rfl⟩

/-- A text that breaks off within a character. -/
theorem readText_part_char {c : Char} (h : part <+: char c) (hne : part ≠ char c) (fuel : Nat) (seen : List Char) :
    ∃ f, readText fuel seen none part = .error f := by
  cases fuel with
  | zero => exact ⟨_, rfl⟩
  | succ fuel =>
    obtain ⟨d, hc⟩ | hc | ⟨n, hc⟩ | ⟨first, second, hfirst, hc⟩ := char_cases c <;> rw [hc] at h hne
    · obtain rfl | ⟨behind, rfl, hbehind⟩ := List.prefix_cons_iff.mp h
      · exact ⟨_, rfl⟩
      · rw [eq_nil_of_prefix_singleton hbehind fun heq => hne (by rw [heq])]
        exact ⟨_, rfl⟩
    · rw [eq_nil_of_prefix_singleton h hne]
      exact ⟨_, rfl⟩
    · exact readText_part_unit h hne (fuel + 1) seen none
    · obtain ⟨hpart, hpart'⟩ | ⟨more, rfl, hmore⟩ := prefix_append_cases h
      · exact readText_part_unit hpart hpart' (fuel + 1) seen none
      · obtain ⟨e, hpair⟩ := completePair_part first hmore fun heq => hne (by rw [heq])
        have hescape := unicodeEscape_leading hfirst more
        rw [hpair] at hescape
        have hread : readText (fuel + 1) seen none (unit first ++ more) = readText fuel seen (some e) more := by
          simp only [unit, List.cons_append, readText, hescape]
          rfl
        rw [hread]
        exact readText_part_unit hmore (fun heq => hne (by rw [heq])) fuel seen (some e)

/-- However far a quoted text goes, nothing is left over behind it. -/
theorem readText_part (s : String) (fuel : Nat) (h : part <+: chars s ++ ['"']) :
    (∃ f, readText fuel [] none part = .error f) ∨ ∃ t, readText fuel [] none part = .ok (t, []) := by
  have hfrom : ∀ (text : List Char) (fuel : Nat) (seen part : List Char), part <+: text.flatMap char ++ ['"'] →
      (∃ f, readText fuel seen none part = .error f) ∨ ∃ t, readText fuel seen none part = .ok (t, []) := by
    intro text
    induction text with
    | nil =>
      intro fuel seen part h
      cases fuel with
      | zero => exact .inl ⟨_, rfl⟩
      | succ fuel =>
        obtain rfl | ⟨rest, rfl, hrest⟩ := List.prefix_cons_iff.mp h
        · exact .inl ⟨_, rfl⟩
        · rw [List.prefix_nil.mp hrest]
          exact .inr ⟨_, rfl⟩
    | cons c text ih =>
      intro fuel seen part h
      rw [List.flatMap_cons, List.append_assoc] at h
      obtain ⟨hpart, hne⟩ | ⟨more, rfl, hmore⟩ := prefix_append_cases h
      · exact .inl (readText_part_char hpart hne fuel seen)
      · cases fuel with
        | zero => exact .inl ⟨_, rfl⟩
        | succ fuel =>
          rw [readText_char]
          exact ih fuel (c :: seen) more hmore
  exact hfrom s.toList fuel [] part h

end Ascii

/-! ### Values -/

/-- A value in which a text breaks off: what is no value, or an array without items. -/
inductive Doc.Broken : Doc → Prop
  | bad (f : Fault) : Broken (.bad f)
  | stopped (f : Fault) : Broken (.seq [] (some f))

/-- However far this text goes, nothing of it is left over behind its value. -/
def Consumed (text : List Char) : Prop :=
  ∀ fuel part, part <+: text →
    (∃ d : Doc, d.Broken ∧ readValue fuel part = (d, none)) ∨ ∃ d, readValue fuel part = (d, some [])

theorem readValue_nil (fuel : Nat) : ∃ d : Doc, d.Broken ∧ readValue fuel [] = (d, none) := by
  cases fuel <;> exact ⟨_, .bad _, rfl⟩

theorem readWord_part {letters part : List Char} (h : part <+: letters) (value : Doc) :
    (∃ d : Doc, d.Broken ∧ readWord letters value part = (d, none)) ∨
      readWord letters value part = (value, some []) := by
  induction letters generalizing part with
  | nil =>
    rw [List.prefix_nil.mp h]
    exact .inr rfl
  | cons l letters ih =>
    obtain rfl | ⟨rest, rfl, hrest⟩ := List.prefix_cons_iff.mp h
    · exact .inl ⟨_, .bad _, rfl⟩
    · rw [readWord, if_pos rfl]
      exact ih hrest

/-- A text whose first letter shows which word it is. -/
theorem consumed_word {first : Char} {letters : List Char} {value : Doc}
    (h : ∀ fuel rest, readValue (fuel + 1) (first :: rest) = readWord letters value rest) :
    Consumed (first :: letters) := by
  intro fuel part hpart
  obtain rfl | ⟨rest, rfl, hrest⟩ := List.prefix_cons_iff.mp hpart
  · exact .inl (readValue_nil fuel)
  · cases fuel with
    | zero => exact .inl ⟨_, .bad _, rfl⟩
    | succ fuel =>
      rw [h]
      exact (readWord_part hrest value).imp_right fun heq => ⟨value, heq⟩

namespace Ascii

theorem consumed_quote (s : String) : Consumed (quote s) := by
  intro fuel part hpart
  obtain rfl | ⟨rest, rfl, hrest⟩ := List.prefix_cons_iff.mp hpart
  · exact .inl (readValue_nil fuel)
  · cases fuel with
    | zero => exact .inl ⟨_, .bad _, rfl⟩
    | succ fuel =>
      obtain ⟨f, hread⟩ | ⟨t, hread⟩ := readText_part s (rest.length + 1) hrest
      · refine .inl ⟨_, .bad f, ?_⟩
        simp only [readValue, skipBlanks_cons (show isBlank '"' = false by decide), hread]
      · refine .inr ⟨.str t, ?_⟩
        simp only [readValue, skipBlanks_cons (show isBlank '"' = false by decide), hread]

theorem consumed_null : Consumed "null".toList := consumed_word fun _ _ => rfl

theorem consumed_bool (b : Bool) : Consumed (bool b) := by
  cases b
  · exact consumed_word fun _ _ => rfl
  · exact consumed_word fun _ _ => rfl

theorem consumed_nil : Consumed "[]".toList := by
  intro fuel part hpart
  obtain rfl | ⟨rest, rfl, hrest⟩ := List.prefix_cons_iff.mp hpart
  · exact .inl (readValue_nil fuel)
  · obtain rfl | ⟨more, rfl, hmore⟩ := List.prefix_cons_iff.mp hrest
    · match fuel with
      | 0 => exact .inl ⟨_, .bad _, rfl⟩
      | 1 | fuel + 2 => exact .inl ⟨_, .stopped _, rfl⟩
    · rw [List.prefix_nil.mp hmore]
      match fuel with
      | 0 => exact .inl ⟨_, .bad _, rfl⟩
      | 1 => exact .inl ⟨_, .stopped _, rfl⟩
      | fuel + 2 => exact .inr ⟨_, rfl⟩

/-- A text that starts with a digit and is read as a number to its end. -/
theorem consumed_number {text rest : List Char} {c : Char} {d : Doc} (htext : text = c :: rest) (hc : isDigit c = true)
    (h : readNumber false text = (d, [])) : Consumed text := by
  subst htext
  intro fuel part hpart
  obtain rfl | ⟨more, rfl, hmore⟩ := List.prefix_cons_iff.mp hpart
  · exact .inl (readValue_nil fuel)
  · cases fuel with
    | zero => exact .inl ⟨_, .bad _, rfl⟩
    | succ fuel =>
      rw [readValue_digit hc]
      cases hread : readNumber false (c :: more) with
      | mk value behind =>
        cases behind with
        | nil =>
          cases value with
          | bad f => exact .inl ⟨_, .bad f, rfl⟩
          | _ => exact .inr ⟨_, rfl⟩
        | cons e behind =>
          -- What is left over here would be left over of the whole text, too.
          obtain ⟨later, hlater⟩ := hpart
          have hwhole := readNumber_append hread later
          rw [hlater, h] at hwhole
          cases hwhole

theorem consumed_nat {n : Nat} (h : n < UInt64.size) : Consumed (nat n) := by
  obtain ⟨d, rest, hd, hdigits⟩ := Text.exists_digits_eq n
  have hread := readNumber_digits (Nat.le_sub_one_of_lt h) (.inl rfl)
  rw [List.append_nil] at hread
  exact consumed_number hdigits (isDigit_digitChar d hd) hread

theorem consumed_numeral (n : Numeral) : Consumed n.text := by
  obtain ⟨c, rest, htext, hc⟩ := n.exists_text_eq
  have hread := n.readNumber_text (.inl rfl)
  rw [List.append_nil] at hread
  exact consumed_number htext hc hread

end Ascii

/-! ### Objects -/

/-- An object that breaks off, behind a field or within its last one. -/
inductive Doc.BrokenMap : Doc → Prop
  | stopped (fields : List (Except TextError String × Doc)) (f : Fault) : BrokenMap (.map fields (some f))
  | within (fields : List (Except TextError String × Doc)) (key : Except TextError String) {d : Doc} (h : d.Broken) :
    BrokenMap (.map (fields ++ [(key, d)]) none)

/-- The fields of a text that breaks off. -/
def BreaksOff (read : Doc × Option (List Char)) : Prop := ∃ d : Doc, d.BrokenMap ∧ read = (d, none)

namespace Ascii

variable {part : List Char} {f : String × List Char} {fields : List (String × List Char)}
  {values : List (String × Json)}

theorem readFields_nil (fuel : Nat) (first : Bool) (seen : List (Except TextError String × Doc)) :
    BreaksOff (readFields fuel first seen []) := by
  cases fuel <;> exact ⟨_, .stopped _ _, rfl⟩

theorem breaksOff_within (seen : List (Except TextError String × Doc)) (key : Except TextError String) {d : Doc}
    (h : d.Broken) : BreaksOff (.map ((key, d) :: seen).reverse none, none) := by
  rw [List.reverse_cons]
  exact ⟨_, .within seen.reverse key h, rfl⟩

/-- A text that breaks off behind a key. -/
theorem breaksOff_value {key : Except TextError String} (hf : Consumed f.2) (h : part <+: ' ' :: f.2) (fuel : Nat)
    (seen : List (Except TextError String × Doc)) :
    BreaksOff (match readValue fuel part with
      | (v, some rest) => readFields fuel false ((key, v) :: seen) rest
      | (v, none) => (.map ((key, v) :: seen).reverse none, none)) := by
  have hread : (∃ d : Doc, d.Broken ∧ readValue fuel part = (d, none)) ∨ ∃ d, readValue fuel part = (d, some []) := by
    obtain rfl | ⟨rest, rfl, hrest⟩ := List.prefix_cons_iff.mp h
    · exact .inl (readValue_nil fuel)
    · rw [readValue_blank]
      exact hf fuel rest hrest
  obtain ⟨d, hd, hread⟩ | ⟨d, hread⟩ := hread
  · rw [hread]
    exact breaksOff_within seen key hd
  · rw [hread]
    exact readFields_nil _ _ _

/-- A text that breaks off within a field, or right behind it. -/
theorem readFields_part_field (hf : Consumed f.2) (h : part <+: field f) (fuel : Nat)
    (seen : List (Except TextError String × Doc)) : BreaksOff (readFields fuel true seen part) := by
  cases fuel with
  | zero => exact ⟨_, .stopped _ _, rfl⟩
  | succ fuel =>
    obtain rfl | ⟨rest, rfl, hrest⟩ := List.prefix_cons_iff.mp h
    · exact readFields_nil _ _ _
    simp only [readFields, skipBlanks_cons (show isBlank '"' = false by decide), if_true]
    obtain ⟨hpart, -⟩ | ⟨behind, rfl, hbehind⟩ := prefix_append_cases hrest
    · obtain ⟨e, hread⟩ | ⟨t, hread⟩ := readText_part f.1 (rest.length + 1) hpart
      · rw [hread]
        exact ⟨_, .stopped _ e, rfl⟩
      · rw [hread]
        exact breaksOff_within seen t (.bad _)
    · have hlength : f.1.toList.length < (chars f.1 ++ '"' :: behind).length + 1 := by
        have := length_le_length_chars f.1
        rw [List.length_append]
        omega
      rw [List.append_assoc, List.singleton_append, readText_quote f.1 hlength]
      obtain rfl | ⟨after, rfl, hafter⟩ := List.prefix_cons_iff.mp hbehind
      · exact breaksOff_within seen _ (.bad _)
      · simp only [skipBlanks_cons (show isBlank ':' = false by decide)]
        exact breaksOff_value hf hafter fuel seen

/-- Every proper start of these fields and of the end of their object breaks off. -/
def BreakOff (first : Bool) (text : List Char) : Prop :=
  ∀ (part : List Char) (fuel : Nat) (seen : List (Except TextError String × Doc)), part <+: text → part ≠ text →
    part.length < fuel → BreaksOff (readFields fuel first seen part)

theorem breakOff_end (first : Bool) : BreakOff first ['\x7d'] := by
  intro part fuel seen hpart hne _
  rw [eq_nil_of_prefix_singleton hpart hne]
  exact readFields_nil _ _ _

theorem breakOff_field {v : Json} (hwritten : Written f.2 v) (hconsumed : Consumed f.2)
    (hmore : BreakOff false (moreFields fields ++ ['\x7d'])) :
    BreakOff true (field f ++ (moreFields fields ++ ['\x7d'])) := by
  intro part fuel seen hpart hne hfuel
  obtain ⟨hpart, -⟩ | ⟨more, rfl, hbehind⟩ := prefix_append_cases hpart
  · exact readFields_part_field hconsumed hpart fuel seen
  · cases more with
    | nil =>
      rw [List.append_nil]
      exact readFields_part_field hconsumed List.prefix_rfl fuel seen
    | cons c more =>
      have hends : EndsValue (c :: more) := by
        obtain ⟨later, hlater⟩ := hbehind
        obtain ⟨rest, hrest⟩ := endsValue_moreFields fields []
        rw [← hlater] at hrest
        obtain hrest | hrest := hrest <;> obtain ⟨rfl, -⟩ := List.cons.inj hrest
        · exact ⟨more, .inl rfl⟩
        · exact ⟨more, .inr rfl⟩
      have hlength := length_field f
      rw [List.length_append, List.length_cons] at hfuel
      obtain ⟨fuel, rfl⟩ : ∃ m, fuel = m + 1 := ⟨fuel - 1, by omega⟩
      rw [readFields_field hwritten (by omega) hends]
      exact hmore _ _ _ hbehind (fun heq => hne (by rw [heq])) (by rw [List.length_cons]; omega)

theorem breakOff_moreFields (h : WrittenFields fields values)
    (hconsumed : ∀ f ∈ fields, Consumed f.2) : BreakOff false (moreFields fields ++ ['\x7d']) := by
  induction h with
  | nil => exact breakOff_end false
  | @cons f v fields values hfv _ ih =>
    obtain ⟨hf, hfields⟩ := List.forall_mem_cons.mp hconsumed
    have hfirst := breakOff_field hfv.2 hf (ih hfields)
    have htext : moreFields (f :: fields) ++ ['\x7d'] = ',' :: ' ' :: (field f ++ (moreFields fields ++ ['\x7d'])) := by
      simp only [moreFields, List.flatMap_cons, List.cons_append, List.append_assoc]
    rw [htext]
    intro part fuel seen hpart hne hfuel
    obtain rfl | ⟨behind, rfl, hbehind⟩ := List.prefix_cons_iff.mp hpart
    · exact readFields_nil _ _ _
    obtain ⟨fuel, rfl⟩ : ∃ m, fuel = m + 1 := ⟨fuel - 1, by omega⟩
    obtain rfl | ⟨rest, rfl, hrest⟩ := List.prefix_cons_iff.mp hbehind
    · exact ⟨_, .stopped _ _, rfl⟩
    -- Behind a comma, either nothing follows or a field that is read like the first one.
    obtain rfl | ⟨more, rfl, -⟩ := List.prefix_cons_iff.mp hrest
    · exact ⟨_, .stopped _ _, rfl⟩
    have hlength : ('"' :: more).length < fuel + 1 := by
      rw [List.length_cons, List.length_cons] at hfuel
      omega
    exact hfirst ('"' :: more) (fuel + 1) seen hrest (fun heq => hne (by rw [heq])) hlength

/-- **An object that breaks off is read as one that does**, wherever it breaks off. -/
theorem readValue_part (h : WrittenFields fields values)
    (hconsumed : ∀ f ∈ fields, Consumed f.2) (hpart : part <+: object fields) (hne : part ≠ object fields) {fuel : Nat}
    (hfuel : part.length < fuel) : ∃ d : Doc, (d.Broken ∨ d.BrokenMap) ∧ readValue fuel part = (d, none) := by
  obtain ⟨inner, hobject, hinner⟩ : ∃ inner, object fields = '\x7b' :: inner ∧ BreakOff true inner := by
    cases h with
    | nil => exact ⟨['\x7d'], rfl, breakOff_end true⟩
    | cons hfv hmore =>
      obtain ⟨hf, hfields⟩ := List.forall_mem_cons.mp hconsumed
      exact ⟨_, rfl, breakOff_field hfv.2 hf (breakOff_moreFields hmore hfields)⟩
  rw [hobject] at hpart hne
  obtain rfl | ⟨rest, rfl, hrest⟩ := List.prefix_cons_iff.mp hpart
  · obtain ⟨d, hd, hread⟩ := readValue_nil fuel
    exact ⟨d, .inl hd, hread⟩
  · rw [List.length_cons] at hfuel
    obtain ⟨fuel, rfl⟩ : ∃ m, fuel = m + 1 := ⟨fuel - 1, by omega⟩
    obtain ⟨d, hd, hread⟩ := hinner rest fuel [] hrest (fun heq => hne (by rw [heq])) (by omega)
    exact ⟨d, .inr hd, hread⟩

end Ascii

/-! ### Decoders -/

namespace Decoder

variable {d : Decoder α}

/-- A decoder refuses what breaks off. -/
def RefusesBroken (d : Decoder α) : Prop := ∀ levels (doc : Doc), doc.Broken → ∃ e, d levels doc = .error e

theorem refusesBroken_bool : bool.RefusesBroken := by
  rintro levels _ (f | f) <;> exact ⟨_, rfl⟩

theorem refusesBroken_string : string.RefusesBroken := by
  rintro levels _ (f | f) <;> exact ⟨_, rfl⟩

theorem refusesBroken_f64 : f64.RefusesBroken := by
  rintro levels _ (f | f) <;> exact ⟨_, rfl⟩

theorem refusesBroken_intIn (kind : String) (low high : Int) : (intIn kind low high).RefusesBroken := by
  rintro levels _ (f | f) <;> exact ⟨_, rfl⟩

theorem refusesBroken_variant (choices : List (String × α)) : (variant choices).RefusesBroken := by
  rintro levels _ (⟨reading, skipping⟩ | f)
  · cases reading <;> exact ⟨_, rfl⟩
  · exact ⟨_, rfl⟩

theorem RefusesBroken.map (h : d.RefusesBroken) (f : α → β) : (d.map f).RefusesBroken := by
  intro levels doc hdoc
  obtain ⟨e, he⟩ := h levels doc hdoc
  exact ⟨e, by rw [Decoder.map, he]; rfl⟩

theorem RefusesBroken.optional (h : d.RefusesBroken) : d.optional.RefusesBroken := by
  intro levels doc hdoc
  obtain ⟨e, he⟩ := h levels doc hdoc
  refine ⟨e, ?_⟩
  obtain f | f := hdoc <;>
  · rw [Decoder.optional, he]
    · rfl
    · exact fun h => Doc.noConfusion h

theorem refusesBroken_list (d : Decoder α) : d.list.RefusesBroken := by
  rintro levels _ (f | f)
  · exact ⟨_, rfl⟩
  · exact exists_bind_eq_error _ fun inner => ⟨_, rfl⟩

theorem refusesBroken_any : any.RefusesBroken := by
  rintro levels _ (f | f)
  · exact ⟨_, rfl⟩
  · exact exists_bind_eq_error _ fun inner => ⟨_, rfl⟩

end Decoder

namespace Shape

variable {ρ : Type} {shape : Shape ρ}

theorem exists_closeItems_eq_error (rest : List Doc) (f : Fault) : ∃ e, closeItems rest (some f) = .error e := by
  obtain ⟨reading, skipping⟩ := f
  cases rest with
  | nil => cases reading <;> exact ⟨_, rfl⟩
  | cons d rest => exact ⟨_, rfl⟩

theorem refusesBroken (shape : Shape ρ) : shape.decoder.RefusesBroken := by
  rintro levels _ (f | f)
  · exact ⟨_, rfl⟩
  · refine exists_bind_eq_error _ fun inner => exists_bind_eq_error _ fun (record, rest) => ?_
    obtain ⟨e, he⟩ := exists_closeItems_eq_error rest f
    exact ⟨e, by simp only [he]; rfl⟩

theorem exists_skip_eq_error {d : Doc} (hd : d.Broken) : ∃ e, skip d = .error e := by
  obtain f | f := hd <;> exact ⟨_, rfl⟩

theorem exists_readFields_eq_error (h : ∀ field ∈ shape.fields, field.read.RefusesBroken) {d : Doc} (hd : d.Broken)
    (levels : Nat) (key : Except TextError String) (fields : List (Except TextError String × Doc)) :
    ∀ seen record, ∃ e, shape.readFields levels (fields ++ [(key, d)]) seen record = .error e := by
  induction fields with
  | nil =>
    intro seen record
    refine exists_bind_eq_error (textOf key) fun name => ?_
    cases hfind : shape.fields.find? (·.name == name) with
    | none =>
      obtain ⟨e, he⟩ := exists_skip_eq_error hd
      exact ⟨e, by simp only [he]; rfl⟩
    | some field =>
      obtain ⟨e, he⟩ := h field (List.mem_of_find?_eq_some hfind) levels d hd
      simp only
      split
      · exact ⟨_, rfl⟩
      · exact ⟨e, by simp only [he]; rfl⟩
  | cons f fields ih =>
    intro seen record
    obtain ⟨name, v⟩ := f
    refine exists_bind_eq_error (textOf name) fun name => ?_
    cases shape.fields.find? (·.name == name) with
    | none => exact exists_bind_eq_error _ fun _ => ih _ _
    | some field =>
      simp only
      split
      · exact ⟨_, rfl⟩
      · exact exists_bind_eq_error (field.read levels v) fun update => ih _ _

/-- An object that breaks off gives no record of fields that refuse what breaks off. -/
theorem exists_error_of_brokenMap (h : ∀ field ∈ shape.fields, field.read.RefusesBroken) {d : Doc} (hd : d.BrokenMap)
    (levels : Nat) : ∃ e, shape.decoder levels d = .error e := by
  obtain ⟨fields, f⟩ | ⟨fields, key, hd⟩ := hd
  · exact exists_bind_eq_error _ fun inner => exists_bind_eq_error _ fun (seen, record) => ⟨_, rfl⟩
  · refine exists_bind_eq_error _ fun inner => ?_
    obtain ⟨e, he⟩ := exists_readFields_eq_error h hd inner key fields [] shape.start
    exact ⟨e, by rw [he]; rfl⟩

end Shape

/-- Of an object that breaks off, no record is read. -/
theorem Ascii.ofText_part {ρ : Type} {shape : Shape ρ} (hshape : ∀ field ∈ shape.fields, field.read.RefusesBroken)
    {fields : List (String × List Char)} {values : List (String × Json)} {part : List Char}
    (h : WrittenFields fields values)
    (hconsumed : ∀ f ∈ fields, Consumed f.2) (hpart : part <+: object fields) (hne : part ≠ object fields) :
    ∃ e, shape.decoder.ofText (String.ofList part) = .error e := by
  obtain ⟨d, hd, hread⟩ := readValue_part h hconsumed hpart hne (show part.length < 2 * part.length + 2 by omega)
  have hdocument : Document.ofText (String.ofList part) = ⟨d, false⟩ := by
    simp only [Document.ofText, String.toList_ofList, hread]
  have herror : ∃ e, shape.decoder startLevels d = .error e := by
    obtain hd | hd := hd
    · exact shape.refusesBroken startLevels d hd
    · exact Shape.exists_error_of_brokenMap hshape hd startLevels
  obtain ⟨e, he⟩ := herror
  exact ⟨e, by simp only [Decoder.ofText, hdocument, he]; rfl⟩

end Vetting.Json
