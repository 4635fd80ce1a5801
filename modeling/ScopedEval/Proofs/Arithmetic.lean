import Mathlib.Data.Int.ModEq
import ScopedEval.Operator.Apply

namespace Int64

theorem eq_iff_modEq (left right : Int64) : left = right ↔ left.toInt ≡ right.toInt [ZMOD 2 ^ 64] := by
  have below := left.toInt_lt
  have above := left.le_toInt
  have below' := right.toInt_lt
  have above' := right.le_toInt
  rw [← Int64.toInt_inj, Int.ModEq]
  omega

theorem div_mul_add_mod (left right : Int64) : left / right * right + left % right = left := by
  have quotient : (left / right).toInt ≡ left.toInt.tdiv right.toInt [ZMOD 2 ^ 64] := by
    rw [Int64.toInt_div]
    exact Int.bmod_emod
  have product : (left / right * right).toInt ≡ left.toInt.tdiv right.toInt * right.toInt [ZMOD 2 ^ 64] := by
    rw [Int64.toInt_mul]
    exact Int.ModEq.trans Int.bmod_emod (quotient.mul_right _)
  rw [eq_iff_modEq, Int64.toInt_add, Int64.toInt_mod]
  apply Int.ModEq.trans Int.bmod_emod
  apply (product.add_right _).trans
  rw [Int.tdiv_mul_add_tmod]

theorem toInt_div_of_fits {left right : Int64} (fits : ¬ (left = minValue ∧ right = -1)) :
    (left / right).toInt = left.toInt.tdiv right.toInt := by
  by_cases least : left = minValue
  · exact toInt_div_of_ne_right left right fun negated => fits ⟨least, negated⟩
  · exact toInt_div_of_ne_left left right least

theorem natAbs_mod_lt {right : Int64} (nonzero : right ≠ 0) (left : Int64) :
    (left % right).toInt.natAbs < right.toInt.natAbs := by
  have divisor : right.toInt ≠ 0 := fun zero => nonzero (Int64.toInt_inj.mp zero)
  rw [Int64.toInt_mod, Int.natAbs_tmod]
  exact Nat.mod_lt _ (Int.natAbs_pos.mpr divisor)

theorem mod_eq_zero_or_sign (left right : Int64) :
    left % right = 0 ∨ (left % right).toInt.sign = left.toInt.sign := by
  rw [← Int64.toInt_inj, Int64.toInt_mod, Int.sign_tmod]
  by_cases divides : right.toInt ∣ left.toInt
  · exact .inl (Int.tmod_eq_zero_of_dvd divides)
  · exact .inr (if_neg divides)

end Int64

namespace ScopedEval

namespace Operator

def unbounded? : Operator → Option (Int → Int → Int)
  | add => some fun left right => left + right
  | sub => some fun left right => left - right
  | mul => some fun left right => left * right
  | div | mod | gt | ge | lt | le | eq => none

theorem apply_modEq {op : Operator} {operation : Int → Int → Int} (unbounded : op.unbounded? = some operation) (left right : Int64) :
    ∃ result : Int64, op.apply (.int left) (.int right) = .ok (.int result) ∧
      result.toInt ≡ operation left.toInt right.toInt [ZMOD 2 ^ 64] := by
  cases op with
  | add =>
    cases unbounded
    refine ⟨left + right, rfl, ?_⟩
    rw [Int64.toInt_add]
    exact Int.bmod_emod
  | sub =>
    cases unbounded
    refine ⟨left - right, rfl, ?_⟩
    rw [Int64.toInt_sub]
    exact Int.bmod_emod
  | mul =>
    cases unbounded
    refine ⟨left * right, rfl, ?_⟩
    rw [Int64.toInt_mul]
    exact Int.bmod_emod
  | div | mod | gt | ge | lt | le | eq => cases unbounded

theorem apply_of_not_ints {op : Operator} (other : op ≠ eq) {left right : Value}
    (mixed : left.toInt? = none ∨ right.toInt? = none) :
    op.apply left right = .error (.typeMismatch op left.typeName right.typeName) := by
  unfold apply
  split
  · exact absurd rfl other
  · simp [Value.toInt?] at mixed
  · rfl

theorem apply_div {right : Int64} (nonzero : right ≠ 0) (left : Int64) :
    div.apply (.int left) (.int right) = .ok (.int (left / right)) := by
  rw [apply_int]
  exact if_neg nonzero

theorem apply_mod {right : Int64} (nonzero : right ≠ 0) (left : Int64) :
    mod.apply (.int left) (.int right) = .ok (.int (left % right)) := by
  rw [apply_int]
  exact if_neg nonzero

structure Compares (left right : Int64) (less same greater : Bool) : Prop where
  apply_lt : lt.apply (.int left) (.int right) = .ok (.bool less)
  apply_eq : eq.apply (.int left) (.int right) = .ok (.bool same)
  apply_gt : gt.apply (.int left) (.int right) = .ok (.bool greater)
  apply_le : le.apply (.int left) (.int right) = .ok (.bool !greater)
  apply_ge : ge.apply (.int left) (.int right) = .ok (.bool !less)
  less_iff : less = true ↔ left.toInt < right.toInt
  same_iff : same = true ↔ left.toInt = right.toInt
  greater_iff : greater = true ↔ right.toInt < left.toInt

theorem not_decide_lt (left right : Int64) : (!decide (left < right)) = decide (right ≤ left) := by
  rw [← decide_not]
  apply decide_eq_decide.mpr
  rw [Int64.lt_iff_toInt_lt, Int64.le_iff_toInt_le]
  omega

theorem compares (left right : Int64) :
    Compares left right (decide (left < right)) (left == right) (decide (right < left)) where
  apply_lt := rfl
  apply_eq := rfl
  apply_gt := rfl
  apply_le := by rw [not_decide_lt]; rfl
  apply_ge := by rw [not_decide_lt]; rfl
  less_iff := by rw [decide_eq_true_iff, Int64.lt_iff_toInt_lt]
  same_iff := by rw [beq_iff_eq, Int64.toInt_inj]
  greater_iff := by rw [decide_eq_true_iff, Int64.lt_iff_toInt_lt]

theorem Compares.count_true {left right : Int64} {less same greater : Bool}
    (compared : Compares left right less same greater) : [less, same, greater].count true = 1 := by
  have less_iff := compared.less_iff
  have same_iff := compared.same_iff
  have greater_iff := compared.greater_iff
  rcases Int.lt_trichotomy left.toInt right.toInt with order | order | order
  · have notSame : ¬ same = true := by rw [same_iff]; omega
    have notGreater : ¬ greater = true := by rw [greater_iff]; omega
    simp [less_iff.mpr order, notSame, notGreater]
  · have notLess : ¬ less = true := by rw [less_iff]; omega
    have notGreater : ¬ greater = true := by rw [greater_iff]; omega
    simp [same_iff.mpr order, notLess, notGreater]
  · have notLess : ¬ less = true := by rw [less_iff]; omega
    have notSame : ¬ same = true := by rw [same_iff]; omega
    simp [greater_iff.mpr order, notLess, notSame]

end Operator

/-- The operators against arithmetic on unbounded integers. A zero divisor is only looked at once
    both operands are integers, and the least integer divided by -1 is the one quotient that wraps
    around. -/
theorem operators_match_exact_arithmetic (op : Operator) (left right : Value) (a b : Int64) :
    Operator.eq.apply left right = .ok (.bool (left.equals right)) ∧
    (op ≠ .eq → left.toInt? = none ∨ right.toInt? = none →
      op.apply left right = .error (.typeMismatch op left.typeName right.typeName)) ∧
    (∀ operation, op.unbounded? = some operation → ∃ result : Int64, op.apply (.int a) (.int b) = .ok (.int result) ∧
      ∀ other : Int64, other.toInt ≡ operation a.toInt b.toInt [ZMOD 2 ^ 64] ↔ other = result) ∧
    (b = 0 → Operator.div.apply (.int a) (.int b) = .error .divisionByZero ∧
      Operator.mod.apply (.int a) (.int b) = .error .moduloByZero) ∧
    (b ≠ 0 → ∃ quotient remainder product : Int64,
      Operator.div.apply (.int a) (.int b) = .ok (.int quotient) ∧
      Operator.mod.apply (.int a) (.int b) = .ok (.int remainder) ∧
      (¬ (a = Int64.minValue ∧ b = -1) → quotient.toInt = a.toInt.tdiv b.toInt) ∧
      (a = Int64.minValue ∧ b = -1 → quotient = Int64.minValue ∧ remainder = 0) ∧
      a.toInt = a.toInt.tdiv b.toInt * b.toInt + remainder.toInt ∧
      remainder.toInt.natAbs < b.toInt.natAbs ∧
      (remainder = 0 ∨ remainder.toInt.sign = a.toInt.sign) ∧
      Operator.mul.apply (.int quotient) (.int b) = .ok (.int product) ∧
      Operator.add.apply (.int product) (.int remainder) = .ok (.int a)) ∧
    ∃ less same greater : Bool, Operator.Compares a b less same greater ∧
      [less, same, greater].count true = 1 := by
  refine ⟨rfl, fun other mixed => Operator.apply_of_not_ints other mixed, ?_, ?_, ?_, ?_⟩
  · intro operation unbounded
    obtain ⟨result, applied, congruent⟩ := Operator.apply_modEq unbounded a b
    refine ⟨result, applied, fun other => ?_⟩
    rw [Int64.eq_iff_modEq]
    exact ⟨fun near => near.trans congruent.symm, fun near => near.trans congruent⟩
  · intro zero
    subst zero
    exact ⟨rfl, rfl⟩
  · intro nonzero
    refine ⟨a / b, a % b, a / b * b, Operator.apply_div nonzero a, Operator.apply_mod nonzero a,
      Int64.toInt_div_of_fits, ?_, ?_, Int64.natAbs_mod_lt nonzero a, Int64.mod_eq_zero_or_sign a b, rfl, ?_⟩
    · intro overflow
      rw [overflow.1, overflow.2]
      decide
    · rw [Int64.toInt_mod, Int.tdiv_mul_add_tmod]
    · have sum : Operator.add.apply (.int (a / b * b)) (.int (a % b)) = .ok (.int (a / b * b + a % b)) := rfl
      rw [sum, Int64.div_mul_add_mod]
  · exact ⟨_, _, _, Operator.compares a b, (Operator.compares a b).count_true⟩

theorem operators_match_exact_arithmetic_atBounds :
    Operator.div.apply (.bool true) (.int 0) = .error (.typeMismatch .div "bool" "int") ∧
    (∃ result : Int64,
      Operator.mul.apply (.int Int64.maxValue) (.int Int64.minValue) = .ok (.int result) ∧
      ∀ other : Int64,
        other.toInt ≡ Int64.maxValue.toInt * Int64.minValue.toInt [ZMOD 2 ^ 64] ↔ other = result) ∧
    Operator.mod.apply (.int Int64.minValue) (.int 0) = .error .moduloByZero ∧
    (∃ quotient remainder product : Int64,
      Operator.div.apply (.int Int64.minValue) (.int (-1)) = .ok (.int quotient) ∧
      Operator.mod.apply (.int Int64.minValue) (.int (-1)) = .ok (.int remainder) ∧
      quotient = Int64.minValue ∧ remainder = 0 ∧
      Operator.mul.apply (.int quotient) (.int (-1)) = .ok (.int product) ∧
      Operator.add.apply (.int product) (.int remainder) = .ok (.int Int64.minValue)) ∧
    ∃ quotient : Int64, Operator.div.apply (.int (-7)) (.int 2) = .ok (.int quotient) ∧
      quotient.toInt = (-7 : Int64).toInt.tdiv (2 : Int64).toInt := by
  have mixed := (operators_match_exact_arithmetic .div (.bool true) (.int 0) 0 0).2.1 (by decide) (.inl rfl)
  have wrapped := (operators_match_exact_arithmetic .mul .null .null Int64.maxValue Int64.minValue).2.2.1 _ rfl
  have zero := (operators_match_exact_arithmetic .mod .null .null Int64.minValue 0).2.2.2.1 rfl
  obtain ⟨quotient, remainder, product, divided, reduced, _, overflow, _, _, _, multiplied, added⟩ :=
    (operators_match_exact_arithmetic .div .null .null Int64.minValue (-1)).2.2.2.2.1 (by decide)
  obtain ⟨cut, _, _, divided', _, fits, _⟩ :=
    (operators_match_exact_arithmetic .div .null .null (-7) 2).2.2.2.2.1 (by decide)
  have least := overflow ⟨rfl, rfl⟩
  exact ⟨mixed, wrapped, zero.2, ⟨quotient, remainder, product, divided, reduced, least.1, least.2, multiplied, added⟩,
    cut, divided', fits (by decide)⟩

end ScopedEval
