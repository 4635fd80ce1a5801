import Mathlib.Data.List.Forall2
import ScopedEval.Evaluation

namespace ScopedEval

inductive Fetched {α β : Type} (gaps : Prop) (relates : α → β → Prop) : Option α → Option β → Prop where
  | missing : gaps → Fetched gaps relates none none
  | found {a : α} {b : β} : relates a b → Fetched gaps relates (some a) (some b)

namespace Fetched

variable {α β : Type} {gaps : Prop} {relates : α → β → Prop}

theorem flip {a : Option α} {b : Option β} (fetched : Fetched gaps relates a b) :
    Fetched gaps (fun b a => relates a b) b a := by
  cases fetched with
  | missing gap => exact .missing gap
  | found related => exact .found related

theorem mono {other : α → β → Prop} (weaker : ∀ a b, relates a b → other a b) {a : Option α}
    {b : Option β} (fetched : Fetched gaps relates a b) : Fetched gaps other a b := by
  cases fetched with
  | missing gap => exact .missing gap
  | found related => exact .found (weaker _ _ related)

theorem same (gap : gaps) (entries : Option (List α)) : Fetched gaps (List.Forall₂ Eq) entries entries := by
  cases entries with
  | none => exact .missing gap
  | some entries =>
    have equal : List.Forall₂ Eq entries entries := List.forall₂_refl entries
    exact .found equal

theorem of_some {a : α} {left : Option α} {right : Option β} (fetched : Fetched gaps relates left right)
    (read : left = some a) : ∃ b, right = some b ∧ relates a b := by
  cases fetched with
  | missing => cases read
  | found related =>
    cases read
    exact ⟨_, rfl, related⟩

theorem of_none {left : Option α} {right : Option β} (fetched : Fetched gaps relates left right)
    (read : left = none) : gaps ∧ right = none := by
  cases fetched with
  | missing gap => exact ⟨gap, rfl⟩
  | found => cases read

end Fetched

theorem exists_of_mem_forall₂ {α β : Type} {relates : α → β → Prop} {as : List α} {bs : List β}
    (all : List.Forall₂ relates as bs) {a : α} (member : a ∈ as) : ∃ b ∈ bs, relates a b := by
  induction all with
  | nil => cases member
  | @cons _ other _ _ head _ ih =>
    rcases List.mem_cons.mp member with rfl | member
    · exact ⟨other, List.mem_cons_self, head⟩
    · obtain ⟨b, member', related⟩ := ih member
      exact ⟨b, List.mem_cons_of_mem _ member', related⟩

/-- How the parts of two expressions are to be related: the variables they use and those they declare,
    the subexpressions they evaluate themselves, and the parameters and body of a function. -/
structure Node.Parts where
  uses : Name → Name → Prop
  declares : Name → Name → Prop
  children : ExprId → ExprId → Prop
  functions : Span → ExprId → Span → ExprId → Prop

def Node.Parts.flip (parts : Node.Parts) : Node.Parts where
  uses b a := parts.uses a b
  declares b a := parts.declares a b
  children b a := parts.children a b
  functions params' body' params body := parts.functions params body params' body'

inductive Node.Matches (gaps : Prop) (left right : Arena) (parts : Node.Parts) : Node → Node → Prop where
  | literal (value : Literal) : Matches gaps left right parts (.literal value) (.literal value)
  | ident {name name' : Name} : parts.uses name name' →
      Matches gaps left right parts (.ident name) (.ident name')
  | print {operand operand' : ExprId} : parts.children operand operand' →
      Matches gaps left right parts (.print operand) (.print operand')
  | binary (op : Operator) {a a' b b' : ExprId} : parts.children a a' → parts.children b b' →
      Matches gaps left right parts (.binary op a b) (.binary op a' b')
  | branch {condition condition' consequent consequent' : ExprId} :
      parts.children condition condition' → parts.children consequent consequent' →
      Matches gaps left right parts (.branch condition consequent none) (.branch condition' consequent' none)
  | branchElse {condition condition' consequent consequent' alternative alternative' : ExprId} :
      parts.children condition condition' → parts.children consequent consequent' →
      parts.children alternative alternative' →
      Matches gaps left right parts (.branch condition consequent (some alternative))
        (.branch condition' consequent' (some alternative'))
  | loop {condition condition' body body' : ExprId} :
      parts.children condition condition' → parts.children body body' →
      Matches gaps left right parts (.loop condition body) (.loop condition' body')
  | seq {first first' second second' : ExprId} : parts.children first first' →
      parts.children second second' →
      Matches gaps left right parts (.seq first second) (.seq first' second')
  | declare {name name' : Name} {init init' : ExprId} : parts.declares name name' →
      parts.children init init' →
      Matches gaps left right parts (.declare name init) (.declare name' init')
  | assign {name name' : Name} {value value' : ExprId} : parts.uses name name' →
      parts.children value value' →
      Matches gaps left right parts (.assign name value) (.assign name' value')
  | function {params params' : Span} {body body' : ExprId} : parts.functions params body params' body' →
      Matches gaps left right parts (.function params body) (.function params' body')
  | call {callee callee' : ExprId} {args args' : Span} : parts.children callee callee' →
      Fetched gaps (List.Forall₂ parts.children) (left.args? args) (right.args? args') →
      Matches gaps left right parts (.call callee args) (.call callee' args')

namespace Node.Matches

variable {gaps : Prop} {left right : Arena} {parts : Node.Parts} {node node' : Node}

theorem flip (same : Matches gaps left right parts node node') :
    Matches gaps right left parts.flip node' node := by
  cases same with
  | literal value => exact .literal value
  | ident name => exact .ident name
  | print operand => exact .print operand
  | binary op a b => exact .binary op a b
  | branch condition consequent => exact .branch condition consequent
  | branchElse condition consequent alternative => exact .branchElse condition consequent alternative
  | loop condition body => exact .loop condition body
  | seq first second => exact .seq first second
  | declare name init => exact .declare name init
  | assign name value => exact .assign name value
  | function same => exact .function same
  | call callee args => exact .call callee (args.flip.mono fun _ _ related => List.Forall₂.flip related)

theorem mono {other : Node.Parts} (uses : ∀ a b, parts.uses a b → other.uses a b)
    (declares : ∀ a b, parts.declares a b → other.declares a b)
    (children : ∀ a b, parts.children a b → other.children a b)
    (functions : ∀ params body params' body', parts.functions params body params' body' →
      other.functions params body params' body')
    (same : Matches gaps left right parts node node') : Matches gaps left right other node node' := by
  cases same with
  | literal value => exact .literal value
  | ident name => exact .ident (uses _ _ name)
  | print operand => exact .print (children _ _ operand)
  | binary op a b => exact .binary op (children _ _ a) (children _ _ b)
  | branch condition consequent => exact .branch (children _ _ condition) (children _ _ consequent)
  | branchElse condition consequent alternative =>
    exact .branchElse (children _ _ condition) (children _ _ consequent) (children _ _ alternative)
  | loop condition body => exact .loop (children _ _ condition) (children _ _ body)
  | seq first second => exact .seq (children _ _ first) (children _ _ second)
  | declare name init => exact .declare (declares _ _ name) (children _ _ init)
  | assign name value => exact .assign (uses _ _ name) (children _ _ value)
  | function same => exact .function (functions _ _ _ _ same)
  | call callee args => exact .call (children _ _ callee) (args.mono fun _ _ related => related.imp children)

theorem first {child : ExprId} (same : Matches gaps left right parts node node')
    (begins : node.first? = some child) : ∃ child', node'.first? = some child' ∧ parts.children child child' := by
  cases same with
  | literal | ident | function => cases begins
  | print a | binary _ a | branch a | branchElse a | loop a | seq a | declare _ a | assign _ a | call a =>
    cases begins
    exact ⟨_, rfl, a⟩

end Node.Matches

inductive Value.Related (closures : Closure → Closure → Prop) : Value → Value → Prop where
  | int (value : Int64) : Related closures (.int value) (.int value)
  | bool (value : Bool) : Related closures (.bool value) (.bool value)
  | null : Related closures .null .null
  | function {closure closure' : Closure} : closures closure closure' →
      Related closures (.function closure) (.function closure')

namespace Value.Related

variable {closures : Closure → Closure → Prop} {value value' : Value}

theorem flip (related : Related closures value value') :
    Related (fun b a => closures a b) value' value := by
  cases related with
  | int value => exact .int value
  | bool value => exact .bool value
  | null => exact .null
  | function same => exact .function same

theorem mono {other : Closure → Closure → Prop} (weaker : ∀ a b, closures a b → other a b)
    (related : Related closures value value') : Related other value value' := by
  cases related with
  | int value => exact .int value
  | bool value => exact .bool value
  | null => exact .null
  | function same => exact .function (weaker _ _ same)

theorem ofLiteral (literal : Literal) : Related closures (.ofLiteral literal) (.ofLiteral literal) := by
  cases literal with
  | int value => exact .int value
  | bool value => exact .bool value
  | null => exact .null

theorem isNull (related : Related closures value value') : value.isNull = value'.isNull := by
  cases related <;> rfl

theorem typeName (related : Related closures value value') : value.typeName = value'.typeName := by
  cases related <;> rfl

theorem text (related : Related closures value value') : value.text = value'.text := by
  cases related <;> rfl

theorem toBool? (related : Related closures value value') : value.toBool? = value'.toBool? := by
  cases related <;> rfl

theorem of_scalar (scalar : value.toFunction? = none) : Related closures value value := by
  cases value with
  | int value => exact .int value
  | bool value => exact .bool value
  | null => exact .null
  | function => cases scalar

theorem refl (same : ∀ closure, closures closure closure) (value : Value) : Related closures value value := by
  cases value with
  | function closure => exact .function (same closure)
  | _ => exact of_scalar rfl

theorem eq (related : Related Eq value value') : value = value' := by
  cases related with
  | function same => rw [same]
  | _ => rfl

theorem equals {other other' : Value}
    (identity : ∀ {a a' b b'}, closures a a' → closures b b' → a.same b = a'.same b')
    (related : Related closures value value') (related' : Related closures other other') :
    value.equals other = value'.equals other' := by
  cases related with
  | function left =>
    cases related' with
    | function right => exact identity left right
    | _ => rfl
  | _ => cases related' <;> rfl

end Value.Related

namespace Operator

theorem apply_scalar {op : Operator} {a b value : Value} (applied : op.apply a b = .ok value) :
    value.toFunction? = none := by
  unfold apply at applied
  split at applied
  · cases applied
    rfl
  · unfold applyInt at applied
    split at applied <;> (try split at applied) <;> cases applied <;> rfl
  · cases applied

theorem apply_related {closures : Closure → Closure → Prop}
    (identity : ∀ {a a' b b'}, closures a a' → closures b b' → a.same b = a'.same b')
    {a a' b b' : Value} (left : Value.Related closures a a') (right : Value.Related closures b b')
    (op : Operator) : op.apply a b = op.apply a' b' := by
  cases op with
  | eq => rw [apply_eq, apply_eq, left.equals identity right]
  | _ => cases left <;> cases right <;> rfl

end Operator

inductive Outcome.Related (gaps : Prop) (closures : Closure → Closure → Prop) : Outcome → Outcome → Prop where
  | value {value value' : Value} : Value.Related closures value value' →
      Related gaps closures (.value value) (.value value')
  | failure (failure : Failure) : Related gaps closures (.failure failure) (.failure failure)
  | outOfRange : gaps → Related gaps closures .outOfRange .outOfRange

namespace Outcome.Related

variable {gaps : Prop} {closures : Closure → Closure → Prop} {outcome outcome' : Outcome}

theorem mono {other : Closure → Closure → Prop} (related : Related gaps closures outcome outcome')
    (weaker : ∀ closure closure', closures closure closure' → other closure closure') :
    Related gaps other outcome outcome' := by
  cases related with
  | value same => exact .value (same.mono weaker)
  | failure failure => exact .failure failure
  | outOfRange gap => exact .outOfRange gap

theorem flip (related : Related gaps closures outcome outcome') :
    Related gaps (fun b a => closures a b) outcome' outcome := by
  cases related with
  | value same => exact .value same.flip
  | failure failure => exact .failure failure
  | outOfRange gap => exact .outOfRange gap

theorem eq (related : Related gaps Eq outcome outcome') : outcome = outcome' := by
  cases related with
  | value same => rw [same.eq]
  | failure | outOfRange => rfl

theorem aborts (related : Related gaps closures outcome outcome') : outcome.aborts = outcome'.aborts := by
  cases related <;> rfl

end Outcome.Related

end ScopedEval
