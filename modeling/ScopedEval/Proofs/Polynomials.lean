import Mathlib.Algebra.MvPolynomial.Eval
import Mathlib.Tactic.Ring
import ScopedEval.Proofs.Adequacy
import ScopedEval.Proofs.Arithmetic
import ScopedEval.Proofs.Heaps
import ScopedEval.Proofs.Unfolding

namespace ScopedEval

inductive RingOperator where
  | add | sub | mul

namespace RingOperator

def operator : RingOperator → Operator
  | add => .add
  | sub => .sub
  | mul => .mul

def apply {R : Type*} [Ring R] : RingOperator → R → R → R
  | add, left, right => left + right
  | sub, left, right => left - right
  | mul, left, right => left * right

theorem unbounded?_operator (op : RingOperator) : op.operator.unbounded? = some op.apply := by
  cases op <;> rfl

theorem map_apply {R S : Type*} [Ring R] [Ring S] (f : R →+* S) (op : RingOperator) (left right : R) :
    f (op.apply left right) = op.apply (f left) (f right) := by
  cases op with
  | add => exact map_add f left right
  | sub => exact map_sub f left right
  | mul => exact map_mul f left right

theorem apply_modEq (op : RingOperator) {n left right left' right' : ℤ} (first : left ≡ left' [ZMOD n])
    (second : right ≡ right' [ZMOD n]) : op.apply left right ≡ op.apply left' right' [ZMOD n] := by
  cases op with
  | add => exact first.add second
  | sub => exact first.sub second
  | mul => exact first.mul second

end RingOperator

inductive Arithmetic where
  | literal (value : Int64)
  | ident (name : Name)
  | binary (op : RingOperator) (left right : Arithmetic)

namespace Arithmetic

def names : Arithmetic → List Name
  | literal _ => []
  | ident name => [name]
  | binary _ left right => left.names ++ right.names

def interpret {R : Type*} [Ring R] (values : Name → R) : Arithmetic → R
  | literal value => (value.toInt : R)
  | ident name => values name
  | binary op left right => op.apply (left.interpret values) (right.interpret values)

noncomputable def polynomial (term : Arithmetic) : MvPolynomial Name ℤ := term.interpret MvPolynomial.X

theorem map_interpret {R S : Type*} [Ring R] [Ring S] (f : R →+* S) (values : Name → R) (term : Arithmetic) :
    f (term.interpret values) = term.interpret (f ∘ values) := by
  induction term with
  | literal value => exact map_intCast f value.toInt
  | ident name => rfl
  | binary op left right ihLeft ihRight => rw [interpret, interpret, op.map_apply f, ihLeft, ihRight]

theorem eval_polynomial (values : Name → ℤ) (term : Arithmetic) :
    MvPolynomial.eval values term.polynomial = term.interpret values := by
  have read : MvPolynomial.eval values ∘ MvPolynomial.X = values := by
    funext name
    exact MvPolynomial.eval_X name
  rw [polynomial, map_interpret, read]

end Arithmetic

inductive Arena.Writes (arena : Arena) : ExprId → Arithmetic → Prop where
  | literal {id : ExprId} {value : Int64} : arena.node? id = some (.literal (.int value)) →
      Writes arena id (.literal value)
  | ident {id : ExprId} {name : Name} : arena.node? id = some (.ident name) → Writes arena id (.ident name)
  | binary {id left right : ExprId} {op : RingOperator} {first second : Arithmetic} :
      arena.node? id = some (.binary op.operator left right) → Writes arena left first →
      Writes arena right second → Writes arena id (.binary op first second)

namespace Arithmetic

def tree (names : Interner) : Arithmetic → Tree
  | literal value => .literal (.int value)
  | ident name => .ident (names.lookup name)
  | binary op left right => .binary op.operator (left.tree names) (right.tree names)

theorem writes_of_shows {names names' : Interner} (grown : names.Extends names') {arena : Arena} {term : Arithmetic}
    (known : ∀ name ∈ term.names, name.index < names.size) {id : ExprId}
    (shown : arena.Shows names' id (term.tree names)) : arena.Writes id term := by
  induction term generalizing id with
  | literal value =>
    cases shown with
    | literal read => exact .literal read
  | ident name =>
    cases shown with
    | @ident _ name' _ read found =>
      have inside : name.index < names.texts.size := known name List.mem_cons_self
      have text : names.texts[name.index]? = some (names.lookup name) := by
        rw [Interner.lookup, Array.getElem?_eq_getElem inside]
        rfl
      have same := grown.find (Interner.find?_eq_some_iff.mpr text)
      cases found.symm.trans same
      exact .ident read
  | binary op left right ihLeft ihRight =>
    cases shown with
    | binary read first second =>
      have first := ihLeft (fun name member => known name (List.mem_append_left _ member)) first
      have second := ihRight (fun name member => known name (List.mem_append_right _ member)) second
      exact .binary read first second

theorem build_writes {builder : Builder} {term : Arithmetic}
    (known : ∀ name ∈ term.names, name.index < builder.names.size) :
    let built := (term.tree builder.names).build builder
    built.2.arena.Writes built.1 term := by
  intro built
  obtain ⟨grown, shown⟩ := (term.tree builder.names).build_shows builder
  exact writes_of_shows grown.names known shown

end Arithmetic

/-- The value of a variable in the unbounded integers; a variable that is no integer counts as zero. -/
def Heap.integer (heap : Heap) (id : FrameId) (name : Name) : ℤ := ((heap.resolve id name).toInt?.getD 0).toInt

theorem Heap.integer_of_resolve {heap : Heap} {id : FrameId} {name : Name} {value : Int64}
    (resolved : heap.resolve id name = .int value) : heap.integer id name = value.toInt := by
  rw [integer, resolved]
  rfl

/-- However often the parts of an expression wrap around, the whole is congruent to what it would be if none did. -/
theorem Arena.Writes.evaluates (names : Interner) {site : Site} {id : ExprId} {term : Arithmetic} {world : World}
    (written : site.code.arena.Writes id term)
    (integers : ∀ name ∈ term.names, ∃ value, world.heap.resolve site.frame name = .int value) :
    ∃ result : Int64, Evaluates names site (.expr id) world (.value (.int result)) world ∧
      result.toInt ≡ term.interpret (world.heap.integer site.frame) [ZMOD 2 ^ 64] := by
  induction written with
  | @literal id value read => exact ⟨value, .literal read rfl, Int.ModEq.refl _⟩
  | @ident id name read =>
    obtain ⟨value, resolved⟩ := integers name List.mem_cons_self
    refine ⟨value, .ident read resolved, ?_⟩
    rw [Arithmetic.interpret, Heap.integer_of_resolve resolved]
  | @binary id left right op first second read _ _ ihLeft ihRight =>
    obtain ⟨a, evaluatesLeft, near⟩ := ihLeft fun name member => integers name (List.mem_append_left _ member)
    obtain ⟨b, evaluatesRight, near'⟩ := ihRight fun name member => integers name (List.mem_append_right _ member)
    obtain ⟨result, applied, wrapped⟩ := Operator.apply_modEq op.unbounded?_operator a b
    exact ⟨result, .binary read evaluatesLeft evaluatesRight applied, wrapped.trans (op.apply_modEq near near')⟩

/-- An arithmetic expression whose variables are integers yields the one 64-bit integer that is congruent to its exact
    value, and leaves everything as it is. Expressions that are equal as polynomials therefore yield the same. -/
theorem arithmetic_exact_modulo {site : Site} {id : ExprId} {term : Arithmetic} {world : World}
    (written : site.code.arena.Writes id term)
    (integers : ∀ name ∈ term.names, ∃ value, world.heap.resolve site.frame name = .int value) (names : Interner) :
    ∃ result : Int64,
      (∀ outcome after, Finishes names site id world outcome after ↔
        outcome = .value (.int result) ∧ after = world) ∧
      (∀ other : Int64, other.toInt ≡ term.interpret (world.heap.integer site.frame) [ZMOD 2 ^ 64] ↔ other = result) ∧
      ∀ code id' term', code.arena.Writes id' term' →
        (∀ name ∈ term'.names, ∃ value, world.heap.resolve site.frame name = .int value) →
        term'.polynomial = term.polynomial →
        ∀ outcome after, Finishes names ⟨code, site.frame⟩ id' world outcome after ↔
          outcome = .value (.int result) ∧ after = world := by
  obtain ⟨result, evaluates, near⟩ := written.evaluates names integers
  have only : ∀ other : Int64,
      other.toInt ≡ term.interpret (world.heap.integer site.frame) [ZMOD 2 ^ 64] ↔ other = result := by
    intro other
    rw [Int64.eq_iff_modEq]
    exact ⟨fun close => close.trans near.symm, fun same => same.trans near⟩
  refine ⟨result, fun outcome after => evaluates.finishes.only_iff, only, ?_⟩
  intro code id' term' written' integers' same
  obtain ⟨result', evaluates', near'⟩ :=
    @Arena.Writes.evaluates names ⟨code, site.frame⟩ id' term' world written' integers'
  have value : term'.interpret (world.heap.integer site.frame) = term.interpret (world.heap.integer site.frame) := by
    rw [← Arithmetic.eval_polynomial, ← Arithmetic.eval_polynomial, same]
  rw [value] at near'
  cases (only result').mp near'
  exact fun outcome after => evaluates'.finishes.only_iff

def squared : Arithmetic :=
  .binary .mul (.binary .add (.ident ⟨1⟩) (.literal 1)) (.binary .add (.ident ⟨1⟩) (.literal 1))

def expanded : Arithmetic :=
  .binary .add (.binary .mul (.ident ⟨1⟩) (.ident ⟨1⟩))
    (.binary .add (.binary .mul (.literal 2) (.ident ⟨1⟩)) (.literal 1))

def atGreatest : World := ⟨⟨#[⟨none, Bindings.empty.insert ⟨1⟩ (.int Int64.maxValue)⟩], 0⟩, .silent, #[]⟩

theorem expanded_polynomial : expanded.polynomial = squared.polynomial := by
  simp only [squared, expanded, Arithmetic.polynomial, Arithmetic.interpret, RingOperator.apply]
  have one : (1 : Int64).toInt = 1 := by decide
  have two : (2 : Int64).toInt = 2 := by decide
  rw [one, two]
  push_cast
  ring

theorem arithmetic_exact_modulo_wrapping :
    let names := (Interner.new.intern "x").2
    let built := (squared.tree names).build (.withNames names)
    let built' := (expanded.tree names).build (.withNames names)
    Finishes names ⟨⟨0, built.2.arena⟩, ⟨0⟩⟩ built.1 atGreatest (.value (.int 0)) atGreatest ∧
    expanded.polynomial = squared.polynomial ∧
    Finishes names ⟨⟨1, built'.2.arena⟩, ⟨0⟩⟩ built'.1 atGreatest (.value (.int 0)) atGreatest := by
  intro names built built'
  have resolved : atGreatest.heap.resolve ⟨0⟩ ⟨1⟩ = .int Int64.maxValue := Heap.resolve_of_get (by decide)
  have integers : ∀ name ∈ [(⟨1⟩ : Name), ⟨1⟩, ⟨1⟩], ∃ value, atGreatest.heap.resolve ⟨0⟩ name = .int value := by
    intro name member
    have same : name = ⟨1⟩ := by simpa using member
    exact ⟨_, same ▸ resolved⟩
  have known : ∀ name ∈ [(⟨1⟩ : Name), ⟨1⟩, ⟨1⟩], name.index < names.size := by decide +kernel
  -- From here on only the number of names counts, not what they are.
  clear_value names
  have written : built.2.arena.Writes built.1 squared :=
    Arithmetic.build_writes fun name member => known name (List.mem_cons_of_mem _ member)
  have written' : built'.2.arena.Writes built'.1 expanded := Arithmetic.build_writes known
  obtain ⟨result, ends, only, others⟩ := @arithmetic_exact_modulo ⟨⟨0, built.2.arena⟩, ⟨0⟩⟩ built.1 squared atGreatest
    written (fun name member => integers name (List.mem_cons_of_mem _ member)) names
  have zero : (0 : Int64) = result := by
    apply (only 0).mp
    simp only [squared, Arithmetic.interpret, RingOperator.apply, Heap.integer_of_resolve resolved]
    decide
  subst zero
  exact ⟨(ends _ _).mpr ⟨rfl, rfl⟩, expanded_polynomial,
    (others ⟨1, built'.2.arena⟩ built'.1 expanded written' integers expanded_polynomial _ _).mpr ⟨rfl, rfl⟩⟩

end ScopedEval
