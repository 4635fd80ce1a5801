import Mathlib.Logic.Relation
import ScopedEval.Proofs.Construction
import ScopedEval.Proofs.Relations

namespace ScopedEval

@[simp] def Node.operands : Node → List ExprId
  | .literal _ | .ident _ | .function .. => []
  | .print operand => [operand]
  | .binary _ left right => [left, right]
  | .branch condition consequent alternative => condition :: consequent :: alternative.toList
  | .loop condition body => [condition, body]
  | .seq first second => [first, second]
  | .declare _ init => [init]
  | .assign _ value => [value]
  | .call callee _ => [callee]

inductive Arena.Child (arena : Arena) : ExprId → ExprId → Prop where
  | operand {id child : ExprId} {node : Node} : arena.node? id = some node → child ∈ node.operands →
      Child arena id child
  | argument {id callee arg : ExprId} {args : Span} {ids : List ExprId} :
      arena.node? id = some (.call callee args) → arena.args? args = some ids → arg ∈ ids →
      Child arena id arg

/-- The expressions at the level of an expression: those it is made of, without the bodies of functions. -/
def Arena.OwnLevel (arena : Arena) : ExprId → ExprId → Prop := Relation.ReflTransGen arena.Child

def Arena.Owns (arena : Arena) (id : ExprId) (node : Node) : Prop :=
  ∃ inner, arena.OwnLevel id inner ∧ arena.node? inner = some node

theorem Arena.Owns.of_child {arena : Arena} {id child : ExprId} {node : Node} (owns : arena.Owns child node)
    (step : arena.Child id child) : arena.Owns id node := by
  obtain ⟨inner, level, read⟩ := owns
  exact ⟨inner, .head step level, read⟩

def Arena.DeclaresNothing (arena : Arena) (id : ExprId) : Prop :=
  ∀ inner name init, arena.OwnLevel id inner → arena.node? inner ≠ some (.declare name init)

theorem Arena.DeclaresNothing.child {arena : Arena} {id child : ExprId} (nothing : arena.DeclaresNothing id)
    (step : arena.Child id child) : arena.DeclaresNothing child :=
  fun inner name init level => nothing inner name init (.head step level)

theorem Arena.Ordered.child_lt {arena : Arena} (ordered : arena.Ordered) {id child : ExprId}
    (step : arena.Child id child) : child.index < id.index := by
  cases step with
  | argument read args member =>
    cases ordered _ _ read with
    | call _ args' below =>
      cases args.symm.trans args'
      exact below child member
  | operand read member =>
    cases ordered _ _ read <;> simp only [Node.operands, List.mem_cons, List.not_mem_nil, or_false,
      Option.toList_none, Option.toList_some] at member
    case print | declare | assign | call =>
      subst member
      assumption
    case binary | branch | loop | seq => rcases member with rfl | rfl <;> assumption
    case branchElse => rcases member with rfl | rfl | rfl <;> assumption

theorem Arena.mem_of_slice? {α : Type} {table : Array α} {span : Span} {entries : List α} {entry : α}
    (read : slice? table span = some entries) (member : entry ∈ entries) : entry ∈ table := by
  unfold slice? at read
  split at read
  · cases read
    rw [Array.toList_extract] at member
    exact Array.mem_toList_iff.mp (List.mem_of_mem_drop (List.mem_of_mem_take member))
  · cases read

theorem Arena.OwnLevel.mem_of_closed {arena : Arena} {id inner : ExprId} {ids : List ExprId}
    (level : arena.OwnLevel id inner) (member : id ∈ ids) (args : ∀ arg ∈ arena.args, arg ∈ ids)
    (operands : ∀ id ∈ ids, ∀ child ∈ ((arena.node? id).map Node.operands).getD [], child ∈ ids) : inner ∈ ids := by
  induction level with
  | refl => exact member
  | tail _ step ih =>
    cases step with
    | operand read child =>
      apply operands _ ih
      rw [read]
      exact child
    | argument _ found arg => exact args _ (mem_of_slice? found arg)

theorem Node.Matches.self {gaps : Prop} {arena : Arena} {parts : Node.Parts} {id : ExprId} {node : Node}
    (read : arena.node? id = some node) (uses : ∀ name, parts.uses name name)
    (declares : ∀ name init, node = .declare name init → parts.declares name name)
    (children : ∀ child, arena.Child id child → parts.children child child)
    (functions : ∀ params body, node = .function params body → parts.functions params body params body)
    (args : ∀ callee args, node = .call callee args → arena.args? args = none → gaps) :
    Node.Matches gaps arena arena parts node node := by
  have operand : ∀ {child}, child ∈ node.operands → parts.children child child :=
    fun member => children _ (.operand read member)
  cases node with
  | literal value => exact .literal value
  | ident name => exact .ident (uses name)
  | print => exact .print (operand (by simp))
  | binary op => exact .binary op (operand (by simp)) (operand (by simp))
  | branch condition consequent alternative =>
    cases alternative with
    | none => exact .branch (operand (by simp)) (operand (by simp))
    | some =>
      exact .branchElse (operand (by simp)) (operand (by simp))
        (operand (by simp))
  | loop => exact .loop (operand (by simp)) (operand (by simp))
  | seq => exact .seq (operand (by simp)) (operand (by simp))
  | declare name init => exact .declare (declares name init rfl) (operand (by simp))
  | assign name => exact .assign (uses name) (operand (by simp))
  | function params body => exact .function (functions params body rfl)
  | call callee span =>
    refine .call (operand (by simp)) ?_
    cases found : arena.args? span with
    | none => exact .missing (args callee span rfl found)
    | some ids =>
      exact .found (List.forall₂_same.mpr fun arg member => children arg (.argument read found member))

end ScopedEval
