/-!
Sets of names as strictly increasing lists, ordered by code points, which is the order of their bytes.
-/

namespace Vetting

/-- A set of names. -/
structure NameSet where
  toList : List String
  increasing : toList.Pairwise (· < ·)

namespace NameSet

/-- Puts a name in its place in an increasing list, if it is not there yet. -/
def insertSorted (name : String) : List String → List String
  | [] => [name]
  | n :: rest =>
    if name < n then name :: n :: rest
    else if name = n then n :: rest
    else n :: insertSorted name rest

theorem mem_insertSorted {a name : String} {names : List String} :
    a ∈ insertSorted name names ↔ a = name ∨ a ∈ names := by
  induction names with
  | nil => simp [insertSorted]
  | cons n rest ih =>
    unfold insertSorted
    split
    · simp
    · split <;> grind

theorem pairwise_insertSorted {name : String} {names : List String} (h : names.Pairwise (· < ·)) :
    (insertSorted name names).Pairwise (· < ·) := by
  induction names with
  | nil => simp [insertSorted]
  | cons n rest ih =>
    have ⟨hn, hrest⟩ := List.pairwise_cons.1 h
    unfold insertSorted
    split
    next hlt =>
      refine List.pairwise_cons.2 ⟨?_, h⟩
      intro a ha
      rcases List.mem_cons.1 ha with rfl | ha
      · exact hlt
      · exact String.lt_trans hlt (hn a ha)
    next hlt =>
      split
      · exact h
      next hne =>
        refine List.pairwise_cons.2 ⟨?_, ih hrest⟩
        intro a ha
        rcases mem_insertSorted.1 ha with rfl | ha
        · grind
        · exact hn a ha

def empty : NameSet := ⟨[], .nil⟩

def insert (name : String) (s : NameSet) : NameSet :=
  ⟨insertSorted name s.toList, pairwise_insertSorted s.increasing⟩

/-- The set with several names added. -/
def insertMany (s : NameSet) (names : List String) : NameSet :=
  names.foldl (fun s n => s.insert n) s

def ofList (names : List String) : NameSet := empty.insertMany names

def contains (s : NameSet) (name : String) : Bool := s.toList.contains name

theorem contains_iff {s : NameSet} {name : String} : s.contains name = true ↔ name ∈ s.toList :=
  List.contains_iff_mem

theorem mem_insert {a name : String} {s : NameSet} :
    a ∈ (s.insert name).toList ↔ a = name ∨ a ∈ s.toList := mem_insertSorted

theorem mem_insertMany {a : String} {names : List String} {s : NameSet} :
    a ∈ (s.insertMany names).toList ↔ a ∈ names ∨ a ∈ s.toList := by
  induction names generalizing s with
  | nil => simp [insertMany]
  | cons n rest ih =>
    have : s.insertMany (n :: rest) = (s.insert n).insertMany rest := rfl
    rw [this, ih, mem_insert]
    simp only [List.mem_cons]
    grind

theorem mem_ofList {a : String} {names : List String} : a ∈ (ofList names).toList ↔ a ∈ names := by
  simp [ofList, mem_insertMany, empty]

/-- The first name, in order, that both sets have. -/
def firstCommon? (a b : NameSet) : Option String := a.toList.find? b.contains

/-- Both sets have the same names. -/
def sameNames (a b : NameSet) : Bool := a.toList == b.toList

end NameSet

end Vetting
