import Vetting.Json

/-!
# Values without odd numbers

Documents have no way to write a number that is not finite, so no value that comes out of one holds such a number
(`Json.finite`). On these values equality is reflexive, which it is not in general: a double that is not a number
differs from itself.
-/

namespace Vetting

theorem Binary64.numEq_self {x : Binary64} (h : x.isFinite = true) : x.numEq x = true := by
  simp [numEq, isNaN_eq_false_of_isFinite h]

namespace Json

mutual

/-- Whether every number in a value is finite. -/
def finite : Json → Bool
  | .float x => x.isFinite
  | .arr items => finiteItems items
  | .obj fields => finiteFields fields
  | .null | .bool _ | .int _ | .str _ => true
termination_by structural v => v

def finiteItems : List Json → Bool
  | [] => true
  | v :: rest => finite v && finiteItems rest
termination_by structural vs => vs

def finiteFields : List (String × Json) → Bool
  | [] => true
  | f :: rest => finiteField f && finiteFields rest
termination_by structural fs => fs

def finiteField : String × Json → Bool
  | (_, v) => finite v
termination_by structural f => f

end

mutual

theorem equal_self : (v : Json) → v.finite = true → equal v v = true
  | .null, _ => rfl
  | .bool b, _ => beq_self_eq_true b
  | .int n, _ => beq_self_eq_true n
  | .float _, h => Binary64.numEq_self h
  | .str s, _ => beq_self_eq_true s
  | .arr items, h => equalItems_self items h
  | .obj fields, h => equalFields_self fields h
termination_by structural v => v

theorem equalItems_self : (vs : List Json) → finiteItems vs = true → equalItems vs vs = true
  | [], _ => rfl
  | v :: rest, h =>
    have h : v.finite = true ∧ finiteItems rest = true := Bool.and_eq_true_iff.mp h
    Bool.and_eq_true_iff.mpr ⟨equal_self v h.1, equalItems_self rest h.2⟩
termination_by structural vs => vs

theorem equalFields_self : (fs : List (String × Json)) → finiteFields fs = true → equalFields fs fs = true
  | [], _ => rfl
  | f :: rest, h =>
    have h : finiteField f = true ∧ finiteFields rest = true := Bool.and_eq_true_iff.mp h
    Bool.and_eq_true_iff.mpr ⟨equalField_self f h.1, equalFields_self rest h.2⟩
termination_by structural fs => fs

theorem equalField_self : (f : String × Json) → finiteField f = true → equalField f f = true
  | (k, v), h => Bool.and_eq_true_iff.mpr ⟨beq_self_eq_true k, equal_self v h⟩
termination_by structural f => f

end

theorem beq_self {v : Json} (h : v.finite = true) : (v == v) = true := equal_self v h

end Json

end Vetting
