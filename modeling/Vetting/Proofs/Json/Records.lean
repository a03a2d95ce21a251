import Vetting.Json.Decode
import Vetting.Proofs.Outcome

/-!
# What is known of a document that was read

A decoder that accepted a document has read a value from it, and here is what the document must have been for that. The
document of a record gives a part for each field, by name in an object and by place in an array (`Doc.part?`), and after
reading, the record holds for each field what its part was read as, or what it held before if there is no part
(`Shape.Holds.took`).
-/

namespace Vetting.Json

/-- The item in the place that a name has among the names. -/
def itemFor : List String → List Doc → String → Option Doc
  | key :: names, item :: items, name => if key = name then some item else itemFor names items name
  | _, _, _ => none

/-- The value behind the first key of this name. -/
def valueFor : List (Except TextError String × Doc) → String → Option Doc
  | (key, value) :: rest, name => if key.toOption = some name then some value else valueFor rest name
  | [], _ => none

/-- The part of a record's document for the field of a name, when these are the names of all fields in order. -/
def Doc.part? (names : List String) (doc : Doc) (name : String) : Option Doc :=
  match doc with
  | .seq items _ => itemFor names items name
  | .map fields _ => valueFor fields name
  | _ => none

theorem itemFor_nil (names : List String) (name : String) : itemFor names [] name = none := by
  cases names <;> rfl

/-- The result of reading a part, if there is one: what it is read as, or else what there was before. -/
inductive Took (d : Decoder β) (levels : Nat) (start : β) : Option Doc → β → Prop
  | given {part : Doc} {b : β} : d levels part = .ok b → Took d levels start (some part) b
  | absent : Took d levels start none start

namespace Shape

variable {ρ α β : Type} {shape : Shape ρ} {get : ρ → β} {name : String} {d : Decoder β} {levels : Nat}

/-- No field of these has the name or changes what `get` gives. -/
inductive Kept (get : ρ → β) (name : String) : List (Field ρ) → Prop
  | nil : Kept get name []
  | cons {other : String} {absence : Absence} {α : Type} {read : Decoder α} {set : α → ρ → ρ} {rest : List (Field ρ)} :
      other ≠ name → (∀ a r, get (set a r) = get r) → Kept get name rest →
      Kept get name (⟨other, absence, read.map set⟩ :: rest)

/-- One field of these has the name, and sets what `get` gives to what `d` reads; no other field changes it. -/
inductive Holds (get : ρ → β) (name : String) (absence : Absence) (d : Decoder β) : List (Field ρ) → Prop
  | here {set : β → ρ → ρ} {rest : List (Field ρ)} : (∀ b r, get (set b r) = b) → Kept get name rest →
      Holds get name absence d (⟨name, absence, d.map set⟩ :: rest)
  | there {other : String} {absence' : Absence} {α : Type} {read : Decoder α} {set : α → ρ → ρ}
      {rest : List (Field ρ)} : other ≠ name → (∀ a r, get (set a r) = get r) → Holds get name absence d rest →
      Holds get name absence d (⟨other, absence', read.map set⟩ :: rest)

/-! ### Single fields -/

/-- What a field does to what `get` gives: it keeps it, or sets it to what was read. -/
structure Acts (get : ρ → β) (name : String) (d : Decoder β) (field : Field ρ) : Prop where
  keeps : field.name ≠ name → ∀ {levels part update}, field.read levels part = .ok update →
    ∀ r, get (update r) = get r
  sets : field.name = name → ∀ {levels part update}, field.read levels part = .ok update →
    ∃ b, d levels part = .ok b ∧ ∀ r, get (update r) = b

theorem acts_other {other : String} {absence : Absence} {read : Decoder α} {set : α → ρ → ρ} (hne : other ≠ name)
    (h : ∀ a r, get (set a r) = get r) : Acts get name d ⟨other, absence, read.map set⟩ where
  keeps _ _ _ _ hread r := by
    obtain ⟨a, -, rfl⟩ := exists_of_map_eq_ok hread
    exact h a r
  sets heq := absurd heq hne

theorem acts_self {absence : Absence} {set : β → ρ → ρ} (h : ∀ b r, get (set b r) = b) :
    Acts get name d ⟨name, absence, d.map set⟩ where
  keeps hne := absurd rfl hne
  sets _ _ _ _ hread := by
    obtain ⟨b, hb, rfl⟩ := exists_of_map_eq_ok hread
    exact ⟨b, hb, h b⟩

variable {fields : List (Field ρ)} {absence : Absence}

theorem Kept.acts (h : Kept get name fields) : ∀ field ∈ fields, Acts get name d field := by
  induction h with
  | nil => exact nofun
  | cons hne hkeeps _ ih => exact List.forall_mem_cons.mpr ⟨acts_other hne hkeeps, ih⟩

theorem Holds.acts (h : Holds get name absence d fields) : ∀ field ∈ fields, Acts get name d field := by
  induction h with
  | here hsets hrest => exact List.forall_mem_cons.mpr ⟨acts_self hsets, hrest.acts⟩
  | there hne hkeeps _ ih => exact List.forall_mem_cons.mpr ⟨acts_other hne hkeeps, ih⟩

theorem Holds.exists_mem (h : Holds get name absence d fields) :
    ∃ field ∈ fields, field.name = name ∧ field.absence = absence := by
  induction h with
  | here => exact ⟨_, List.mem_cons_self, rfl, rfl⟩
  | there _ _ _ ih =>
    obtain ⟨field, hfield, hfound⟩ := ih
    exact ⟨field, List.mem_cons_of_mem _ hfield, hfound⟩

/-! ### Arrays -/

variable {stop : Option Fault} {index : Nat} {items rest : List Doc} {record r : ρ}

/-- The names of fields. -/
def names (fields : List (Field ρ)) : List String := fields.map (·.name)

/-- The ways of reading one field from an array. -/
theorem readItems_cons {field : Field ρ} (h : shape.readItems levels stop index (field :: fields) items record = .ok (r, rest)) :
    (∃ item more update, items = item :: more ∧ field.read levels item = .ok update ∧
        shape.readItems levels stop (index + 1) fields more (update record) = .ok (r, rest)) ∨
      (items = [] ∧ field.absence = .allowed ∧
        shape.readItems levels stop (index + 1) fields [] record = .ok (r, rest)) := by
  cases items with
  | cons item more =>
    obtain ⟨update, hread, h⟩ := exists_of_bind_eq_ok h
    exact .inl ⟨item, more, update, rfl, hread, h⟩
  | nil =>
    obtain ⟨-, -, h⟩ := exists_of_bind_eq_ok h
    by_cases habsence : field.absence = .allowed
    · rw [if_pos habsence] at h
      exact .inr ⟨rfl, habsence, h⟩
    · rw [if_neg habsence] at h
      cases h

theorem Kept.readItems (hk : Kept get name fields)
    (h : shape.readItems levels stop index fields items record = .ok (r, rest)) : get r = get record := by
  induction hk generalizing index items record with
  | nil =>
    cases h
    rfl
  | @cons other absence _ read set more hne hkeeps _ ih =>
    rcases readItems_cons h with ⟨item, later, update, rfl, hread, h⟩ | ⟨rfl, -, h⟩
    · -- Any decoder will do here, since the field only keeps what `get` gives.
      rw [ih h, (acts_other (d := Decoder.any.map fun _ => get r) hne hkeeps).keeps hne hread]
    · exact ih h

theorem Holds.readItems (hh : Holds get name absence d fields)
    (h : shape.readItems levels stop index fields items record = .ok (r, rest)) :
    Took d levels (get record) (itemFor (names fields) items name) (get r) := by
  induction hh generalizing index items record with
  | @here set more hsets hrest =>
    rcases readItems_cons h with ⟨item, later, update, rfl, hread, h⟩ | ⟨rfl, -, h⟩
    · obtain ⟨b, hb, hset⟩ := (acts_self hsets).sets rfl hread
      have hitem : itemFor (name :: names more) (item :: later) name = some item := if_pos rfl
      rw [hrest.readItems h, hset, names, List.map_cons, ← names, hitem]
      exact .given hb
    · rw [hrest.readItems h, itemFor_nil]
      exact .absent
  | @there other absence _ read set more hne hkeeps _ ih =>
    rcases readItems_cons h with ⟨item, later, update, rfl, hread, h⟩ | ⟨rfl, -, h⟩
    · have hitem : itemFor (other :: names more) (item :: later) name = itemFor (names more) later name := if_neg hne
      have htook := ih h
      rw [(acts_other (d := d) hne hkeeps).keeps hne hread] at htook
      rw [names, List.map_cons, ← names, hitem]
      exact htook
    · have htook := ih h
      rw [itemFor_nil] at htook ⊢
      exact htook

/-- A field that must be given has an item. -/
theorem exists_itemFor {field : Field ρ} (hmem : field ∈ fields) (hrefused : field.absence = .refused)
    (h : shape.readItems levels stop index fields items record = .ok (r, rest)) :
    ∃ item, itemFor (names fields) items field.name = some item := by
  induction fields generalizing index items record with
  | nil => cases hmem
  | cons f more ih =>
    rw [names, List.map_cons, ← names]
    rcases readItems_cons h with ⟨item, later, update, rfl, hread, h⟩ | ⟨rfl, habsence, h⟩
    · by_cases hname : f.name = field.name
      · exact ⟨item, if_pos hname⟩
      · rcases List.mem_cons.mp hmem with rfl | hmem
        · exact absurd rfl hname
        · obtain ⟨found, hfound⟩ := ih hmem h
          exact ⟨found, (if_neg hname).trans hfound⟩
    · rcases List.mem_cons.mp hmem with rfl | hmem
      · rw [hrefused] at habsence
        cases habsence
      · obtain ⟨found, hfound⟩ := ih hmem h
        rw [itemFor_nil] at hfound
        cases hfound

/-! ### Objects -/

variable {pairs : List (Except TextError String × Doc)} {seen seen' : List String}

/-- The ways of reading one field of an object. -/
theorem readFields_cons {key : Except TextError String} {value : Doc}
    (h : shape.readFields levels ((key, value) :: pairs) seen record = .ok (seen', r)) :
    ∃ found, key.toOption = some found ∧
      ((found ∉ names shape.fields ∧ shape.readFields levels pairs seen record = .ok (seen', r)) ∨
        ∃ field ∈ shape.fields, field.name = found ∧ found ∉ seen ∧
          ∃ update, field.read levels value = .ok update ∧
            shape.readFields levels pairs (found :: seen) (update record) = .ok (seen', r)) := by
  obtain ⟨found, hfound, h⟩ := exists_of_bind_eq_ok h
  refine ⟨found, ?_, ?_⟩
  · cases key with
    | error e => cases hfound
    | ok text =>
      cases hfound
      rfl
  · cases hfind : shape.fields.find? (·.name == found) with
    | none =>
      rw [hfind] at h
      obtain ⟨-, -, h⟩ := exists_of_bind_eq_ok h
      refine .inl ⟨fun hmem => ?_, h⟩
      obtain ⟨field, hfield, hname⟩ := List.mem_map.mp hmem
      exact List.find?_eq_none.mp hfind field hfield (beq_iff_eq.mpr hname)
    | some field =>
      rw [hfind] at h
      by_cases hseen : seen.contains found
      · simp only [if_pos hseen] at h
        cases h
      · simp only [if_neg hseen] at h
        obtain ⟨update, hread, h⟩ := exists_of_bind_eq_ok h
        have hnew : found ∉ seen := fun hmem => hseen (List.contains_iff_mem.mpr hmem)
        have hname := List.find?_some hfind
        rw [beq_iff_eq] at hname
        exact .inr ⟨field, List.mem_of_find?_eq_some hfind, hname, hnew, update, hread, h⟩

theorem Holds.readFields (hh : Holds get name absence d shape.fields)
    (h : shape.readFields levels pairs seen record = .ok (seen', r)) :
    (name ∈ seen → get r = get record) ∧
      (name ∉ seen → Took d levels (get record) (valueFor pairs name) (get r)) := by
  -- A repeated name is refused, so a value that was read stays: the first half carries the induction past it.
  induction pairs generalizing seen record with
  | nil =>
    cases h
    exact ⟨fun _ => rfl, fun _ => .absent⟩
  | cons pair more ih =>
    obtain ⟨key, value⟩ := pair
    obtain ⟨found, hkey, hcases⟩ := readFields_cons h
    have hvalue : valueFor ((key, value) :: more) name = if found = name then some value else valueFor more name := by
      rw [valueFor, hkey]
      simp only [Option.some.injEq]
    rw [hvalue]
    rcases hcases with ⟨hunknown, h⟩ | ⟨field, hfield, hname, hnew, update, hread, h⟩
    · have hne : found ≠ name := by
        rintro rfl
        obtain ⟨field, hfield, hname, -⟩ := hh.exists_mem
        exact hunknown (hname ▸ List.mem_map_of_mem hfield)
      rw [if_neg hne]
      exact ih h
    · have hacts := hh.acts field hfield
      by_cases heq : found = name
      · obtain ⟨b, hb, hset⟩ := hacts.sets (hname.trans heq) hread
        rw [if_pos heq]
        refine ⟨fun hmem => absurd (heq ▸ hmem) hnew, fun _ => ?_⟩
        rw [(ih h).1 (heq ▸ List.mem_cons_self), hset]
        exact .given hb
      · rw [if_neg heq, ← hacts.keeps (hname ▸ heq) hread record]
        obtain ⟨hkept, htook⟩ := ih h
        refine ⟨fun hmem => hkept (List.mem_cons_of_mem _ hmem), fun hmem => htook fun hmem' => ?_⟩
        rcases List.mem_cons.mp hmem' with rfl | hmem'
        · exact heq rfl
        · exact hmem hmem'

/-- What was read has a value. -/
theorem exists_valueFor (h : shape.readFields levels pairs seen record = .ok (seen', r)) (hmem : name ∈ seen') :
    name ∈ seen ∨ ∃ value, valueFor pairs name = some value := by
  induction pairs generalizing seen record with
  | nil =>
    cases h
    exact .inl hmem
  | cons pair more ih =>
    obtain ⟨key, value⟩ := pair
    obtain ⟨found, hkey, hcases⟩ := readFields_cons h
    by_cases heq : found = name
    · exact .inr ⟨value, if_pos (hkey.trans (congrArg some heq))⟩
    · have hvalue : valueFor ((key, value) :: more) name = valueFor more name :=
        if_neg fun hsome => heq (Option.some.inj (hkey.symm.trans hsome))
      rw [hvalue]
      rcases hcases with ⟨-, h⟩ | ⟨-, -, -, -, update, -, h⟩
      · exact ih h
      · rcases ih h with hseen | hlater
        · rcases List.mem_cons.mp hseen with rfl | hseen
          · exact absurd rfl heq
          · exact .inl hseen
        · exact .inr hlater

/-! ### Records -/

variable {doc : Doc}

/-- The ways of reading a record. -/
theorem decoder_cases (h : shape.decoder levels doc = .ok r) :
    ∃ inner, (∃ items stop rest, doc = .seq items stop ∧
        shape.readItems inner stop 0 shape.fields items shape.start = .ok (r, rest)) ∨
      ∃ pairs stop seen, doc = .map pairs stop ∧ shape.readFields inner pairs [] shape.start = .ok (seen, r) ∧
        shape.missing? seen = none := by
  cases doc with
  | seq items stop =>
    obtain ⟨inner, -, h⟩ := exists_of_bind_eq_ok h
    obtain ⟨⟨record, rest⟩, hread, h⟩ := exists_of_bind_eq_ok h
    obtain ⟨-, -, h⟩ := exists_of_bind_eq_ok h
    cases h
    exact ⟨inner, .inl ⟨items, stop, rest, rfl, hread⟩⟩
  | map pairs stop =>
    obtain ⟨inner, -, h⟩ := exists_of_bind_eq_ok h
    obtain ⟨⟨seen, record⟩, hread, h⟩ := exists_of_bind_eq_ok h
    obtain ⟨-, -, h⟩ := exists_of_bind_eq_ok h
    cases hmissing : shape.missing? seen with
    | some name =>
      simp only [hmissing] at h
      cases h
    | none =>
      simp only [hmissing] at h
      cases h
      exact ⟨inner, .inr ⟨pairs, stop, seen, rfl, hread, hmissing⟩⟩
  | null | bool _ | int _ | float _ | hugeNumber | str _ | bad _ => cases h

/-- After reading, a record holds what the part of a field was read as. -/
theorem Holds.took (hh : Holds get name absence d shape.fields) (h : shape.decoder levels doc = .ok r) :
    ∃ inner, Took d inner (get shape.start) (doc.part? (names shape.fields) name) (get r) := by
  obtain ⟨inner, ⟨items, stop, rest, rfl, hread⟩ | ⟨pairs, stop, seen, rfl, hread, -⟩⟩ := decoder_cases h
  · exact ⟨inner, hh.readItems hread⟩
  · exact ⟨inner, (hh.readFields hread).2 List.not_mem_nil⟩

/-- A field that must be given has a part. -/
theorem Holds.exists_part (hh : Holds get name .refused d shape.fields) (h : shape.decoder levels doc = .ok r) :
    ∃ part, doc.part? (names shape.fields) name = some part := by
  obtain ⟨field, hmem, rfl, hrefused⟩ := hh.exists_mem
  obtain ⟨inner, ⟨items, stop, rest, rfl, hread⟩ | ⟨pairs, stop, seen, rfl, hread, hmissing⟩⟩ := decoder_cases h
  · exact exists_itemFor hmem hrefused hread
  · rw [missing?, Option.map_eq_none_iff, List.find?_eq_none] at hmissing
    have hseen := hmissing field hmem
    simp only [hrefused, decide_true, Bool.true_and, Bool.not_eq_true', Bool.not_eq_false] at hseen
    rcases exists_valueFor hread (List.contains_iff_mem.mp hseen) with hnil | hvalue
    · cases hnil
    · exact hvalue

end Shape

/-! ### Plain values and lists -/

namespace Decoder

variable {α : Type} {d : Decoder α} {levels : Nat} {doc : Doc}

theorem string_eq_ok {s : String} (h : string levels doc = .ok s) : doc = .str (.ok s) := by
  cases doc with
  | str value =>
    cases value with
    | ok text =>
      cases h
      rfl
    | error e => cases h
  | null | bool _ | int _ | float _ | hugeNumber | seq _ _ | map _ _ | bad _ => cases h

theorem usize_eq_ok {n : Nat} (h : usize levels doc = .ok n) : doc = .int n ∧ n < UInt64.size := by
  obtain ⟨value, hread, rfl⟩ := exists_of_map_eq_ok h
  cases doc with
  | int m =>
    rw [intIn] at hread
    split at hread
    · next hrange =>
      cases hread
      refine ⟨?_, by omega⟩
      rw [Int.toNat_of_nonneg hrange.1]
    · cases hread
  | null | bool _ | str _ | float _ | hugeNumber | seq _ _ | map _ _ | bad _ => cases hread

theorem optional_eq_ok {value : Option α} (h : d.optional levels doc = .ok value) :
    (doc = .null ∧ value = none) ∨ ∃ a, value = some a ∧ d levels doc = .ok a := by
  cases doc with
  | null =>
    cases h
    exact .inl ⟨rfl, rfl⟩
  | int _ | bool _ | str _ | float _ | hugeNumber | seq _ _ | map _ _ | bad _ =>
    obtain ⟨a, hread, rfl⟩ := exists_of_map_eq_ok h
    exact .inr ⟨a, rfl, hread⟩

/-- The items of an array are read one by one. -/
theorem list_eq_ok {values : List α} (h : d.list levels doc = .ok values) :
    ∃ items stop inner, doc = .seq items stop ∧ items.mapM (d inner) = .ok values := by
  cases doc with
  | seq items stop =>
    obtain ⟨inner, -, h⟩ := exists_of_bind_eq_ok h
    obtain ⟨read, hread, h⟩ := exists_of_bind_eq_ok h
    obtain ⟨-, -, h⟩ := exists_of_bind_eq_ok h
    cases h
    exact ⟨items, stop, inner, rfl, hread⟩
  | null | int _ | bool _ | str _ | float _ | hugeNumber | map _ _ | bad _ => cases h

theorem ofText_eq_ok {text : String} {a : α} (h : d.ofText text = .ok a) :
    d startLevels (Document.ofText text).root = .ok a := by
  obtain ⟨value, hread, h⟩ := exists_of_bind_eq_ok h
  by_cases htrailing : (Document.ofText text).trailing
  · simp only [if_pos htrailing] at h
    cases h
  · simp only [if_neg htrailing] at h
    cases h
    exact hread

/-! ### Parts of records -/

/-- Whatever `d` reads is what `find` finds in the document, and meets `P`. -/
def Finds (d : Decoder α) (find : Doc → Option α) (P : α → Prop) : Prop :=
  ∀ {levels doc a}, d levels doc = .ok a → find doc = some a ∧ P a

variable {ρ : Type} {shape : Shape ρ} {name : String} {absence : Absence} {find : Doc → Option α} {P : α → Prop} {r : ρ}

/-- A field that must be given holds what is found in its part. -/
theorem Finds.required {get : ρ → α} (hf : d.Finds find P) (hh : Shape.Holds get name .refused d shape.fields)
    (h : shape.decoder levels doc = .ok r) :
    (doc.part? (Shape.names shape.fields) name).bind find = some (get r) ∧ P (get r) := by
  obtain ⟨inner, htook⟩ := hh.took h
  obtain ⟨part, hpart⟩ := hh.exists_part h
  rw [hpart] at htook ⊢
  cases htook with
  | given hread => exact hf hread

/-- A field that may be `null` or left out holds what is found in its part, if there is one. -/
theorem Finds.nullable {get : ρ → Option α} (hf : d.Finds find P) (hnull : find .null = none)
    (hh : Shape.Holds get name absence d.optional shape.fields) (hstart : get shape.start = none)
    (h : shape.decoder levels doc = .ok r) :
    (doc.part? (Shape.names shape.fields) name).bind find = get r ∧ ∀ a, get r = some a → P a := by
  obtain ⟨inner, htook⟩ := hh.took h
  generalize doc.part? (Shape.names shape.fields) name = part at htook ⊢
  generalize get r = value at htook ⊢
  rw [hstart] at htook
  cases htook with
  | given hread =>
    rcases optional_eq_ok hread with ⟨rfl, rfl⟩ | ⟨a, rfl, hvalue⟩
    · exact ⟨hnull, fun a ha => absurd ha (Option.some_ne_none a).symm⟩
    · obtain ⟨hfound, hmeets⟩ := hf hvalue
      exact ⟨hfound, fun b hb => Option.some.inj hb ▸ hmeets⟩
  | absent => exact ⟨rfl, fun a ha => absurd ha (Option.some_ne_none a).symm⟩

end Decoder

end Vetting.Json
