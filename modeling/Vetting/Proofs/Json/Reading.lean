import Vetting.Json.Decode

/-!
# What is read from written values

`Decoder.Reads` says of a decoder that it reads a value as something, however many levels it may enter beyond those that
the value has. Each decoder has its law, and records have one for all of them: `Shape.reads` follows the fields of a
record and of its object side by side, as `Shape.Fills` lists them.

* `Json.Ordered`: the fields of every object stand in the order of their keys, as those of objects that were read do.
* `Json.readAny_toDoc`: such values are read as they are.
-/

namespace Vetting.Json

/-! ### Nesting and order -/

mutual

/-- How many arrays and objects a value has inside each other. -/
def depth : Json → Nat
  | .arr items => depthItems items + 1
  | .obj fields => depthFields fields + 1
  | .null | .bool _ | .int _ | .float _ | .str _ => 0
termination_by structural v => v

def depthItems : List Json → Nat
  | [] => 0
  | v :: rest => max (depth v) (depthItems rest)
termination_by structural vs => vs

def depthFields : List (String × Json) → Nat
  | [] => 0
  | f :: rest => max (depthField f) (depthFields rest)
termination_by structural fs => fs

def depthField : String × Json → Nat
  | (_, v) => depth v
termination_by structural f => f

end

/-- The keys of an object are in order, and no key stands twice. -/
def KeysIncrease (fields : List (String × Json)) : Prop := fields.Pairwise fun f g => f.1 < g.1

mutual

/-- All objects in a value have their fields in the order of the keys. -/
def Ordered : Json → Prop
  | .arr items => OrderedItems items
  | .obj fields => KeysIncrease fields ∧ OrderedFields fields
  | .null | .bool _ | .int _ | .float _ | .str _ => True
termination_by structural v => v

def OrderedItems : List Json → Prop
  | [] => True
  | v :: rest => Ordered v ∧ OrderedItems rest
termination_by structural vs => vs

def OrderedFields : List (String × Json) → Prop
  | [] => True
  | f :: rest => OrderedField f ∧ OrderedFields rest
termination_by structural fs => fs

def OrderedField : String × Json → Prop
  | (_, v) => Ordered v
termination_by structural f => f

end

theorem depth_le_depthItems {v : Json} {items : List Json} (h : v ∈ items) : v.depth ≤ depthItems items := by
  induction items with
  | nil => cases h
  | cons w rest ih =>
    obtain rfl | h := List.mem_cons.mp h
    · exact Nat.le_max_left _ _
    · exact Nat.le_trans (ih h) (Nat.le_max_right _ _)

theorem depthItems_map_eq_zero {f : α → Json} {xs : List α} (h : ∀ x, (f x).depth = 0) :
    depthItems (xs.map f) = 0 := by
  induction xs with
  | nil => rfl
  | cons x rest ih => rw [List.map_cons, depthItems, h, ih, Nat.max_zero]

/-! ### Objects in order -/

theorem insertField_of_forall_lt {key : String} {value : Json} {fields : List (String × Json)}
    (h : ∀ f ∈ fields, f.1 < key) : insertField key value fields = fields ++ [(key, value)] := by
  induction fields with
  | nil => rfl
  | cons f rest ih =>
    obtain ⟨hf, hrest⟩ := List.forall_mem_cons.mp h
    have hlt : keyLt key f.1 = false := decide_eq_false (String.lt_asymm hf)
    have hne : (key == f.1) = false := beq_false_of_ne fun heq => String.lt_irrefl _ (heq ▸ hf)
    simp only [insertField, hlt, hne, Bool.false_eq_true, if_false, ih hrest, List.cons_append]

theorem ofFields_eq {fields : List (String × Json)} (h : KeysIncrease fields) : ofFields fields = .obj fields := by
  -- What has been put in place already comes before all that follows.
  have hinsert (sorted : List (String × Json)) (later : List (String × Json))
      (hlater : KeysIncrease later) (hsorted : ∀ f ∈ sorted, ∀ g ∈ later, f.1 < g.1) :
      later.foldl (fun sorted (k, v) => insertField k v sorted) sorted = sorted ++ later := by
    induction later generalizing sorted with
    | nil => exact (List.append_nil sorted).symm
    | cons g rest ih =>
      obtain ⟨key, value⟩ := g
      obtain ⟨hg, hrest⟩ := List.pairwise_cons.mp hlater
      have hlt : ∀ f ∈ sorted, f.1 < key := fun f hf => hsorted f hf _ List.mem_cons_self
      have hnext : ∀ f ∈ sorted ++ [(key, value)], ∀ g ∈ rest, f.1 < g.1 := by
        intro f hf g hg'
        obtain hf | hf := List.mem_append.mp hf
        · exact hsorted f hf g (List.mem_cons_of_mem _ hg')
        · exact List.mem_singleton.mp hf ▸ hg g hg'
      simp only [List.foldl_cons, insertField_of_forall_lt hlt]
      rw [ih _ hrest hnext, List.append_assoc]
      rfl
  rw [ofFields, hinsert [] fields h nofun, List.nil_append]

/-! ### Any value -/

theorem enterLevel_eq {levels : Nat} (h : 1 < levels) : enterLevel levels = .ok (levels - 1) :=
  if_neg (Nat.not_le.mpr h)

mutual

theorem readAny_toDoc {levels : Nat} :
    (v : Json) → v.Ordered → v.depth < levels → readAny levels v.toDoc = .ok v
  | .null, _, _ | .bool _, _, _ | .int _, _, _ | .float _, _, _ | .str _, _, _ => rfl
  | .arr items, ho, hd => by
    have hd : depthItems items + 1 < levels := hd
    have hlevels : 1 < levels := by omega
    have hitems := readAnyItems_toDocs items ho (Nat.lt_sub_of_add_lt hd)
    simp only [toDoc, readAny, enterLevel_eq hlevels, bind, Except.bind, hitems, stopReading]
    rfl
  | .obj fields, ho, hd => by
    have ho : KeysIncrease fields ∧ OrderedFields fields := ho
    have hd : depthFields fields + 1 < levels := hd
    have hlevels : 1 < levels := by omega
    have hfields := readAnyFields_toDocFields fields ho.2 (Nat.lt_sub_of_add_lt hd)
    simp only [toDoc, readAny, enterLevel_eq hlevels, bind, Except.bind, hfields, stopReading, ofFields_eq ho.1]
    rfl
termination_by structural v => v

theorem readAnyItems_toDocs {levels : Nat} :
    (vs : List Json) → OrderedItems vs → depthItems vs < levels → readAnyItems levels (toDocs vs) = .ok vs
  | [], _, _ => rfl
  | v :: rest, ho, hd => by
    have ho : v.Ordered ∧ OrderedItems rest := ho
    have hd : max v.depth (depthItems rest) < levels := hd
    obtain ⟨hv, hrest⟩ := Nat.max_lt.mp hd
    simp only [toDocs, readAnyItems, readAny_toDoc v ho.1 hv, readAnyItems_toDocs rest ho.2 hrest]
    rfl
termination_by structural vs => vs

theorem readAnyFields_toDocFields {levels : Nat} :
    (fs : List (String × Json)) → OrderedFields fs → depthFields fs < levels →
      readAnyFields levels (toDocFields fs) = .ok fs
  | [], _, _ => rfl
  | f :: rest, ho, hd => by
    have ho : OrderedField f ∧ OrderedFields rest := ho
    have hd : max (depthField f) (depthFields rest) < levels := hd
    obtain ⟨hf, hrest⟩ := Nat.max_lt.mp hd
    simp only [toDocFields, readAnyFields, readAnyField_toDocField f ho.1 hf,
      readAnyFields_toDocFields rest ho.2 hrest]
    rfl
termination_by structural fs => fs

theorem readAnyField_toDocField {levels : Nat} :
    (f : String × Json) → OrderedField f → depthField f < levels → readAnyField levels (toDocField f) = .ok f
  | (k, v), ho, hd => by
    simp only [toDocField, readAnyField, textOf, readAny_toDoc v ho hd]
    rfl
termination_by structural f => f

end

namespace Decoder

/-- A value is read as `a` under every limit on nesting that the value itself keeps. -/
def Reads (d : Decoder α) (v : Json) (a : α) : Prop := ∀ levels, v.depth < levels → d levels v.toDoc = .ok a

/-! ### Plain values -/

variable {d : Decoder α} {v : Json} {a : α}

theorem Reads.ofJson (h : d.Reads v a) (hv : v.depth < startLevels) : d.ofJson v = .ok a := h startLevels hv

theorem reads_any (h : v.Ordered) : any.Reads v v := fun _ hd => readAny_toDoc v h hd

theorem reads_bool (b : Bool) : bool.Reads (.bool b) b := fun _ _ => rfl

theorem reads_string (s : String) : string.Reads (.str s) s := fun _ _ => rfl

theorem reads_f64 (x : Binary64) : f64.Reads (.float x) x := fun _ _ => rfl

theorem Reads.map (h : d.Reads v a) (f : α → β) : (d.map f).Reads v (f a) := by
  intro levels hd
  rw [Decoder.map, h levels hd]
  rfl

theorem Reads.check {f : α → Except String β} {b : β} (h : d.Reads v a) (hf : f a = .ok b) : (d.check f).Reads v b := by
  intro levels hd
  simp only [Decoder.check, h levels hd, bind, Except.bind, hf]

theorem reads_intIn {kind : String} {low high n : Int} (h : low ≤ n ∧ n ≤ high) :
    (intIn kind low high).Reads (.int n) n := fun _ _ => if_pos h

/-- Numbers without sign, given by the largest of them. -/
theorem reads_natUpTo {kind : String} {high n : Nat} (h : n < high) :
    ((intIn kind 0 (high - 1)).map Int.toNat).Reads (.int n) n :=
  (reads_intIn ⟨Int.natCast_nonneg n, by omega⟩).map Int.toNat

theorem reads_u64 {n : Nat} (h : n < UInt64.size) : u64.Reads (.int n) n := reads_natUpTo h

theorem reads_u32 {n : Nat} (h : n < UInt32.size) : u32.Reads (.int n) n := reads_natUpTo h

theorem reads_usize {n : Nat} (h : n < UInt64.size) : usize.Reads (.int n) n := reads_natUpTo h

theorem reads_i64 {n : Int} (h : -(UInt64.size / 2) ≤ n ∧ n ≤ UInt64.size / 2 - 1) : i64.Reads (.int n) n :=
  reads_intIn h

theorem reads_variant {choices : List (String × α)} {name : String} (h : choices.lookup name = some a) :
    (variant choices).Reads (.str name) a := by
  intro levels _
  simp only [variant, toDoc, textOf, bind, Except.bind, h]

/-! ### Values that may be missing, and lists -/

theorem reads_optional_null (d : Decoder α) : d.optional.Reads .null none := fun _ _ => rfl

theorem Reads.optional (h : d.Reads v a) (hv : v ≠ .null) : d.optional.Reads v (some a) := by
  intro levels hd
  have hread := h levels hd
  cases v with
  | null => exact absurd rfl hv
  | bool _ | int _ | float _ | str _ | arr _ | obj _ =>
    simp only [toDoc] at hread ⊢
    rw [Decoder.optional, hread]
    · rfl
    · exact nofun

theorem toDocs_eq_map (items : List Json) : toDocs items = items.map toDoc := by
  induction items with
  | nil => rfl
  | cons v rest ih => rw [toDocs, ih, List.map_cons]

theorem reads_list {f : α → Json} {xs : List α} (h : ∀ x ∈ xs, d.Reads (f x) x) :
    d.list.Reads (.arr (xs.map f)) xs := by
  intro levels hd
  change depthItems (xs.map f) + 1 < levels at hd
  have hitems : ((xs.map f).map toDoc).mapM (d (levels - 1)) = .ok xs := by
    have hall : ∀ x ∈ xs, d (levels - 1) (f x).toDoc = .ok x := fun x hx =>
      h x hx _ (Nat.lt_of_le_of_lt (depth_le_depthItems (List.mem_map_of_mem hx)) (Nat.lt_sub_of_add_lt hd))
    clear h hd
    induction xs with
    | nil => rfl
    | cons x rest ih =>
      obtain ⟨hx, hrest⟩ := List.forall_mem_cons.mp hall
      simp only [List.map_cons, List.mapM_cons, hx, ih hrest, bind, Except.bind]
      rfl
  have hlevels : 1 < levels := by omega
  simp only [toDoc, toDocs_eq_map, Decoder.list, enterLevel_eq hlevels, bind, Except.bind, hitems, stopReading]
  rfl

end Decoder

/-! ### Records -/

namespace Shape

variable {ρ : Type} {shape : Shape ρ}

/-- The fields of an object stand in the order of those of a record, and take the record from one state to another. A
field that may be left out changes nothing when it is. -/
inductive Fills : List (Field ρ) → List (String × Json) → ρ → ρ → Prop
  | done {r : ρ} : Fills [] [] r r
  | given {field : Field ρ} {more : List (Field ρ)} {v : Json} {rest : List (String × Json)} {update : ρ → ρ}
      {r r' : ρ} : field.read.Reads v update → Fills more rest (update r) r' →
      Fills (field :: more) ((field.name, v) :: rest) r r'
  | omitted {field : Field ρ} {more : List (Field ρ)} {rest : List (String × Json)} {r r' : ρ} :
      field.absence ≠ .refused → Fills more rest r r' → Fills (field :: more) rest r r'

section

variable {more : List (Field ρ)} {rest : List (String × Json)} {r r' : ρ} {name : String} {v : Json}

theorem Fills.required {d : Decoder α} {set : α → ρ → ρ} {a : α} (h : d.Reads v a)
    (hrest : Fills more rest (set a r) r') : Fills (.required name d set :: more) ((name, v) :: rest) r r' :=
  .given (h.map set) hrest

theorem Fills.defaulted {d : Decoder α} {set : α → ρ → ρ} {a : α} (h : d.Reads v a)
    (hrest : Fills more rest (set a r) r') : Fills (.defaulted name d set :: more) ((name, v) :: rest) r r' :=
  .given (h.map set) hrest

theorem Fills.nullable {d : Decoder α} {set : Option α → ρ → ρ} {a : Option α} (h : d.optional.Reads v a)
    (hrest : Fills more rest (set a r) r') : Fills (.nullable name d set :: more) ((name, v) :: rest) r r' :=
  .given (h.map set) hrest

end

/-- Reading goes through the fields in order. -/
theorem readFields_of_fills {levels : Nat} {earlier later : List (Field ρ)} {fields : List (String × Json)}
    {seen : List String} {r r' : ρ} (hshape : shape.fields = earlier ++ later)
    (hnames : (shape.fields.map (·.name)).Nodup) (hseen : ∀ name ∈ seen, name ∈ earlier.map (·.name))
    (h : Fills later fields r r') (hd : depthFields fields < levels) :
    ∃ seen', shape.readFields levels (toDocFields fields) seen r = .ok (seen', r') ∧
      (∀ name ∈ seen, name ∈ seen') ∧ ∀ field ∈ later, field.absence = .refused → field.name ∈ seen' := by
  induction h generalizing earlier seen with
  | done => exact ⟨seen, rfl, fun _ hn => hn, nofun⟩
  | @given field more v rest update r r' hread _ ih =>
    change max v.depth (depthFields rest) < levels at hd
    obtain ⟨hv, hrest⟩ := Nat.max_lt.mp hd
    have hnew : field.name ∉ earlier.map (·.name) := by
      rw [hshape, List.map_append, List.map_cons] at hnames
      exact fun hmem => (List.nodup_append.mp hnames).2.2 _ hmem _ List.mem_cons_self rfl
    have hfind : shape.fields.find? (·.name == field.name) = some field := by
      have hnone : earlier.find? (·.name == field.name) = none :=
        List.find?_eq_none.mpr fun f hf heq => hnew (beq_iff_eq.mp heq ▸ List.mem_map_of_mem hf)
      rw [hshape, List.find?_append, hnone, Option.none_or, List.find?_cons, beq_self_eq_true]
    have hfresh : seen.contains field.name = false :=
      Bool.eq_false_iff.mpr fun hmem => hnew (hseen _ (List.contains_iff_mem.mp hmem))
    have hshape' : shape.fields = (earlier ++ [field]) ++ more := hshape.trans (List.append_cons ..)
    have hseen' : ∀ name ∈ field.name :: seen, name ∈ (earlier ++ [field]).map (·.name) := by
      intro name hname
      rw [List.map_append]
      obtain rfl | hname := List.mem_cons.mp hname
      · exact List.mem_append_right _ List.mem_cons_self
      · exact List.mem_append_left _ (hseen name hname)
    obtain ⟨seen', hreads, hkeep, hrefused⟩ := ih hshape' hseen' hrest
    refine ⟨seen', ?_, fun name hname => hkeep name (List.mem_cons_of_mem _ hname), ?_⟩
    · simp only [toDocFields, toDocField, readFields, textOf, bind, Except.bind, hfind, hfresh, hread levels hv]
      exact hreads
    · intro f hf habsence
      obtain rfl | hf := List.mem_cons.mp hf
      · exact hkeep _ List.mem_cons_self
      · exact hrefused f hf habsence
  | @omitted field more rest r r' habsence _ ih =>
    have hshape' : shape.fields = (earlier ++ [field]) ++ more := hshape.trans (List.append_cons ..)
    have hseen' : ∀ name ∈ seen, name ∈ (earlier ++ [field]).map (·.name) := fun name hname =>
      List.map_append ▸ List.mem_append_left _ (hseen name hname)
    obtain ⟨seen', hreads, hkeep, hrefused⟩ := ih hshape' hseen' hd
    refine ⟨seen', hreads, hkeep, fun f hf hf' => ?_⟩
    obtain rfl | hf := List.mem_cons.mp hf
    · exact absurd hf' habsence
    · exact hrefused f hf hf'

/-- An object that fills a record is read as it. -/
theorem reads {fields : List (String × Json)} {r : ρ} (hnames : (shape.fields.map (·.name)).Nodup)
    (h : Fills shape.fields fields shape.start r) : shape.decoder.Reads (.obj fields) r := by
  intro levels hd
  change depthFields fields + 1 < levels at hd
  have hnone : ∀ name ∈ ([] : List String), name ∈ ([] : List (Field ρ)).map (·.name) := nofun
  obtain ⟨seen, hreads, -, hrefused⟩ := readFields_of_fills rfl hnames hnone h (Nat.lt_sub_of_add_lt hd)
  have hmissing : shape.missing? seen = none := by
    rw [missing?, Option.map_eq_none_iff, List.find?_eq_none]
    intro field hfield
    simp only [Bool.and_eq_true, decide_eq_true_eq, Bool.not_eq_true', not_and, Bool.not_eq_false]
    exact fun habsence => List.contains_iff_mem.mpr (hrefused field hfield habsence)
  have hlevels : 1 < levels := by omega
  simp only [toDoc, decoder, enterLevel_eq hlevels, bind, Except.bind, hreads, stopReading, hmissing]
  rfl

end Shape

end Vetting.Json
