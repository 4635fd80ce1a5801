import Mathlib.Data.Set.Card
import ScopedEval.Proofs.OwnLevel
import ScopedEval.Tree

namespace ScopedEval

namespace Arena

/-- The second expression is one of those that the first is made of, the body of a function included. -/
inductive Part (arena : Arena) : ExprId → ExprId → Prop where
  | child {id child : ExprId} : arena.Child id child → Part arena id child
  | body {id body : ExprId} {params : Span} : arena.node? id = some (.function params body) →
      Part arena id body

def Encloses (arena : Arena) (outer inner : ExprId) : Prop :=
  ∃ params body, arena.node? outer = some (.function params body) ∧ Relation.ReflTransGen arena.Part body inner

structure Innermost (arena : Arena) (outer inner : ExprId) : Prop where
  encloses : arena.Encloses outer inner
  others : ∀ {other}, arena.Encloses other inner → other = outer ∨ arena.Encloses other outer

def Directly (arena : Arena) (outer inner : ExprId) : Prop :=
  ∃ params body, arena.node? outer = some (.function params body) ∧ arena.OwnLevel body inner

/-- No expression is a part of two expressions, and each comes after its parts. Those listed are parts of
    none. -/
structure Forest (arena : Arena) (roots : List ExprId) : Prop where
  ordered : arena.Ordered
  single {left right part : ExprId} : arena.Part left part → arena.Part right part → left = right
  top {root whole : ExprId} : root ∈ roots → ¬ arena.Part whole root
  below {root : ExprId} : root ∈ roots → root.index < arena.size
  distinct : roots.Nodup

theorem Child.not_function {arena : Arena} {id child body : ExprId} {params : Span} (step : arena.Child id child) :
    arena.node? id ≠ some (.function params body) := by
  intro function
  cases step with
  | operand read member =>
    cases read.symm.trans function
    cases member
  | argument read _ _ => cases read.symm.trans function

theorem OwnLevel.parts {arena : Arena} {id inner : ExprId} (level : arena.OwnLevel id inner) :
    Relation.ReflTransGen arena.Part id inner :=
  Relation.ReflTransGen.mono (fun _ _ => Part.child) _ _ level

theorem Directly.encloses {arena : Arena} {outer inner : ExprId} (directly : arena.Directly outer inner) :
    arena.Encloses outer inner := by
  obtain ⟨params, body, read, level⟩ := directly
  exact ⟨params, body, read, level.parts⟩

theorem Directly.child {arena : Arena} {outer id child : ExprId} (directly : arena.Directly outer id)
    (step : arena.Child id child) : arena.Directly outer child := by
  obtain ⟨params, body, read, level⟩ := directly
  exact ⟨params, body, read, level.tail step⟩

theorem Encloses.trans {arena : Arena} {outer middle inner : ExprId} (first : arena.Encloses outer middle)
    (second : arena.Encloses middle inner) : arena.Encloses outer inner := by
  obtain ⟨params, body, read, down⟩ := first
  obtain ⟨params', body', read', down'⟩ := second
  exact ⟨params, body, read, (down.tail (.body read')).trans down'⟩

/-- What lies in an expression is at its own level or directly in a function that lies in it. -/
theorem ownLevel_or_directly {arena : Arena} {id inner : ExprId} (parts : Relation.ReflTransGen arena.Part id inner) :
    arena.OwnLevel id inner ∨ ∃ outer, Relation.ReflTransGen arena.Part id outer ∧ arena.Directly outer inner := by
  induction parts with
  | refl => exact .inl .refl
  | @tail middle part down step ih =>
    cases step with
    | body read => exact .inr ⟨middle, down, _, _, read, .refl⟩
    | child step =>
      rcases ih with level | ⟨outer, around, directly⟩
      · exact .inl (level.tail step)
      · exact .inr ⟨outer, around, directly.child step⟩

theorem Encloses.directly_or {arena : Arena} {outer inner : ExprId} (encloses : arena.Encloses outer inner) :
    arena.Directly outer inner ∨ ∃ middle, arena.Encloses outer middle ∧ arena.Directly middle inner := by
  obtain ⟨params, body, read, down⟩ := encloses
  rcases ownLevel_or_directly down with level | ⟨middle, around, directly⟩
  · exact .inl ⟨params, body, read, level⟩
  · exact .inr ⟨middle, ⟨params, body, read, around⟩, directly⟩

theorem Ordered.part_lt {arena : Arena} (ordered : arena.Ordered) {id part : ExprId} (step : arena.Part id part) :
    part.index < id.index := by
  cases step with
  | child step => exact ordered.child_lt step
  | body read =>
    cases ordered _ _ read with
    | function _ below => exact below

theorem Ordered.part_le {arena : Arena} (ordered : arena.Ordered) {id inner : ExprId}
    (parts : Relation.ReflTransGen arena.Part id inner) : inner.index ≤ id.index := by
  induction parts with
  | refl => exact Nat.le_refl _
  | tail _ step ih =>
    have below := ordered.part_lt step
    omega

theorem Ordered.encloses_lt {arena : Arena} (ordered : arena.Ordered) {outer inner : ExprId}
    (encloses : arena.Encloses outer inner) : inner.index < outer.index := by
  obtain ⟨params, body, read, down⟩ := encloses
  have inside := ordered.part_le down
  have below := ordered.part_lt (.body read)
  omega

theorem Part.index_lt {arena : Arena} {id part : ExprId} (step : arena.Part id part) : id.index < arena.size := by
  cases step with
  | body read => exact (Array.getElem?_eq_some_iff.mp read).1
  | child step =>
    cases step with
    | operand read _ => exact (Array.getElem?_eq_some_iff.mp read).1
    | argument read _ _ => exact (Array.getElem?_eq_some_iff.mp read).1

namespace Forest

variable {arena : Arena} {roots : List ExprId}

theorem ownLevel_total (forest : arena.Forest roots) {left right inner : ExprId} (first : arena.OwnLevel left inner)
    (second : arena.OwnLevel right inner) : arena.OwnLevel left right ∨ arena.OwnLevel right left := by
  induction first with
  | refl => exact .inr second
  | @tail middle inner first step ih =>
    rcases Relation.ReflTransGen.cases_tail second with rfl | ⟨other, second, step'⟩
    · exact .inl (first.tail step)
    · cases forest.single (.child step) (.child step')
      exact ih second

theorem not_child_body (forest : arena.Forest roots) {function body id : ExprId} {params : Span}
    (read : arena.node? function = some (.function params body)) : ¬ arena.Child id body := by
  intro step
  cases forest.single (.body read) (.child step)
  exact step.not_function read

theorem ownLevel_body (forest : arena.Forest roots) {function body id : ExprId} {params : Span}
    (read : arena.node? function = some (.function params body)) (level : arena.OwnLevel id body) : id = body := by
  rcases Relation.ReflTransGen.cases_tail level with same | ⟨whole, _, step⟩
  · exact same.symm
  · exact absurd step (forest.not_child_body read)

theorem directly_unique (forest : arena.Forest roots) {left right inner : ExprId} (first : arena.Directly left inner)
    (second : arena.Directly right inner) : left = right := by
  obtain ⟨params, body, read, level⟩ := first
  obtain ⟨params', body', read', level'⟩ := second
  have same : body = body' := by
    rcases forest.ownLevel_total level level' with down | down
    · exact forest.ownLevel_body read' down
    · exact (forest.ownLevel_body read down).symm
  subst same
  exact forest.single (.body read) (.body read')

theorem innermost (forest : arena.Forest roots) {outer inner : ExprId} (directly : arena.Directly outer inner) :
    arena.Innermost outer inner := by
  refine ⟨directly.encloses, fun encloses => ?_⟩
  rcases encloses.directly_or with other | ⟨middle, around, other⟩
  · exact .inl (forest.directly_unique other directly)
  · cases forest.directly_unique other directly
    exact .inr around

theorem not_encloses (forest : arena.Forest roots) {root inner outer : ExprId} (member : root ∈ roots)
    (level : arena.OwnLevel root inner) : ¬ arena.Encloses outer inner := by
  have apart : ∀ {other}, ¬ arena.Directly other inner := by
    rintro other ⟨params, body, read, level'⟩
    rcases forest.ownLevel_total level level' with down | down
    · cases forest.ownLevel_body read down
      exact forest.top member (.body read)
    · rcases Relation.ReflTransGen.cases_tail down with rfl | ⟨whole, _, step⟩
      · exact forest.top member (.body read)
      · exact forest.top member (.child step)
  intro encloses
  rcases encloses.directly_or with directly | ⟨middle, _, directly⟩
  · exact apart directly
  · exact apart directly

theorem finite_encloses (inner : ExprId) : {outer | arena.Encloses outer inner}.Finite := by
  refine Set.Finite.subset ((Set.finite_lt_nat arena.size).image ExprId.mk) ?_
  rintro ⟨index⟩ ⟨params, body, read, _⟩
  exact ⟨index, Part.index_lt (.body read), rfl⟩

/-- The innermost function around an expression adds one to the number of those around it itself. -/
theorem ncard_encloses (forest : arena.Forest roots) {outer inner : ExprId} (innermost : arena.Innermost outer inner) :
    {other | arena.Encloses other inner}.ncard = {other | arena.Encloses other outer}.ncard + 1 := by
  have split : {other | arena.Encloses other inner} = insert outer {other | arena.Encloses other outer} := by
    ext other
    constructor
    · exact innermost.others
    · rintro (rfl | around)
      · exact innermost.encloses
      · exact around.trans innermost.encloses
  have apart : outer ∉ {other | arena.Encloses other outer} :=
    fun encloses => Nat.lt_irrefl _ (forest.ordered.encloses_lt encloses)
  rw [split, Set.ncard_insert_of_notMem apart (finite_encloses outer)]

end Forest

def parts (arena : Arena) : Node → List ExprId
  | .function _ body => [body]
  | .call callee args => callee :: (arena.args? args).getD []
  | node => node.operands

theorem part_iff {arena : Arena} {id part : ExprId} :
    arena.Part id part ↔ ∃ node, arena.node? id = some node ∧ part ∈ arena.parts node := by
  constructor
  · intro step
    cases step with
    | body read => exact ⟨_, read, List.mem_singleton_self _⟩
    | child step =>
      cases step with
      | argument read args member =>
        refine ⟨_, read, List.mem_cons_of_mem _ ?_⟩
        rw [args]
        exact member
      | @operand _ node read member =>
        refine ⟨node, read, ?_⟩
        cases node with
        | function => cases member
        | call callee args => exact List.mem_cons.mpr (.inl (List.mem_singleton.mp member))
        | _ => exact member
  · rintro ⟨node, read, member⟩
    cases node with
    | function params body =>
      cases List.mem_singleton.mp member
      exact .body read
    | call callee args =>
      rcases List.mem_cons.mp member with rfl | member
      · exact .child (.operand read List.mem_cons_self)
      · cases found : arena.args? args with
        | none =>
          rw [found] at member
          cases member
        | some ids =>
          rw [found] at member
          exact .child (.argument read found member)
    | _ => exact .child (.operand read member)

namespace Forest

variable {arena : Arena} {roots : List ExprId}

theorem empty : Arena.empty.Forest [] where
  ordered := .empty
  single first := by
    have outside := first.index_lt
    cases outside
  top member := by cases member
  below member := by cases member
  distinct := .nil

theorem perm (forest : arena.Forest roots) {others : List ExprId} (same : roots.Perm others) :
    arena.Forest others where
  ordered := forest.ordered
  single := forest.single
  top member := forest.top (same.mem_iff.mpr member)
  below member := forest.below (same.mem_iff.mpr member)
  distinct := same.nodup_iff.mp forest.distinct

theorem addNode {node : Node} (forest : arena.Forest (arena.parts node ++ roots)) (fits : node.Fits arena arena.size) :
    (arena.addNode node).2.Forest ((arena.addNode node).1 :: roots) := by
  have split : ∀ {id part}, (arena.addNode node).2.Part id part →
      arena.Part id part ∨ id = ⟨arena.size⟩ ∧ part ∈ arena.parts node := by
    intro id part step
    obtain ⟨other, read, member⟩ := part_iff.mp step
    simp only [Arena.addNode, Arena.node?, Array.getElem?_push] at read
    split at read
    · rename_i last
      cases read
      exact .inr ⟨congrArg ExprId.mk last, member⟩
    · exact .inl (part_iff.mpr ⟨other, read, member⟩)
  have left : ∀ {part}, part ∈ arena.parts node → part ∈ arena.parts node ++ roots :=
    fun member => List.mem_append_left _ member
  have right : ∀ {root}, root ∈ roots → root ∈ arena.parts node ++ roots :=
    fun member => List.mem_append_right _ member
  constructor
  · exact forest.ordered.addNode fits
  · intro first second part step step'
    rcases split step with old | ⟨rfl, member⟩
    · rcases split step' with old' | ⟨rfl, member⟩
      · exact forest.single old old'
      · exact absurd old (forest.top (left member))
    · rcases split step' with old' | ⟨rfl, _⟩
      · exact absurd old' (forest.top (left member))
      · rfl
  · intro root whole member step
    rcases List.mem_cons.mp member with rfl | member
    · rcases split step with old | ⟨_, member⟩
      · have later := forest.ordered.part_lt old
        have held := old.index_lt
        exact absurd later (Nat.not_lt.mpr (Nat.le_of_lt held))
      · exact absurd (forest.below (left member)) (Nat.lt_irrefl _)
    · rcases split step with old | ⟨_, member'⟩
      · exact forest.top (right member) old
      · exact (List.nodup_append.mp forest.distinct).2.2 _ member' _ member rfl
  · intro root member
    have size : (arena.addNode node).2.size = arena.size + 1 := Array.size_push _
    rw [size]
    rcases List.mem_cons.mp member with rfl | member
    · exact Nat.lt_succ_self _
    · exact Nat.lt_succ_of_lt (forest.below (right member))
  · refine List.nodup_cons.mpr ⟨fun member => ?_, (List.nodup_append.mp forest.distinct).2.1⟩
    exact Nat.lt_irrefl _ (forest.below (right member))

theorem addArgs (forest : arena.Forest roots) (ids : List ExprId) : (arena.addArgs ids).2.Forest roots := by
  have old : ∀ {id part}, (arena.addArgs ids).2.Part id part → arena.Part id part := by
    intro id part step
    cases step with
    | body read => exact .body read
    | child step =>
      cases step with
      | operand read member => exact .child (.operand read member)
      | argument read found member =>
        -- the span of a call that is there already was read in the shorter table
        cases forest.ordered _ _ read with
        | call _ held _ =>
          cases ((Extends.addArgs arena ids).args held).symm.trans found
          exact .child (.argument read held member)
  exact ⟨forest.ordered.addArgs ids, fun first second => forest.single (old first) (old second),
    fun member step => forest.top member (old step), forest.below, forest.distinct⟩

theorem addParams (forest : arena.Forest roots) (names : List Name) : (arena.addParams names).2.Forest roots := by
  have old : ∀ {id part}, (arena.addParams names).2.Part id part → arena.Part id part := by
    intro id part step
    obtain ⟨node, read, member⟩ := part_iff.mp step
    exact part_iff.mpr ⟨node, read, member⟩
  exact ⟨forest.ordered.addParams names, fun first second => forest.single (old first) (old second),
    fun member step => forest.top member (old step), forest.below, forest.distinct⟩

theorem seqFrom {builder : Builder} {first : ExprId} {rest : List ExprId}
    (forest : builder.arena.Forest (first :: rest ++ roots)) :
    (builder.seqFrom first rest).2.arena.Forest ((builder.seqFrom first rest).1 :: roots) := by
  induction rest generalizing builder first with
  | nil => exact forest
  | cons next rest ih =>
    have fits : (Node.seq first next).Fits builder.arena builder.arena.size :=
      .seq (forest.below (by simp)) (forest.below (by simp))
    exact ih (addNode forest fits)

theorem call {builder : Builder} {callee : ExprId} {args : List ExprId}
    (forest : builder.arena.Forest (callee :: args ++ roots)) :
    (builder.call callee args).2.arena.Forest ((builder.call callee args).1 :: roots) := by
  have laid := forest.addArgs args
  have held := args?_addArgs builder.arena args
  have taken : (builder.arena.addArgs args).2.parts (.call callee (builder.arena.addArgs args).1) = callee :: args := by
    rw [parts, held, Option.getD_some]
  rw [← taken] at laid
  refine addNode laid (.call (forest.below (by simp)) held fun arg member => ?_)
  exact forest.below (by simp [member])

end Forest

end Arena

namespace Tree

open Arena

mutual

theorem build_forest (tree : Tree) : ∀ {builder : Builder} {roots : List ExprId}, builder.arena.Forest roots →
    (tree.build builder).2.arena.Forest ((tree.build builder).1 :: roots) := by
  intro builder roots forest
  cases tree with
  | literal value => exact Forest.addNode forest (.literal value)
  | ident name => exact Forest.addNode forest (.ident _)
  | print operand =>
    have laid := build_forest operand forest
    exact Forest.addNode laid (.print (laid.below (by simp)))
  | binary op left right =>
    have laid := (build_forest right (build_forest left forest)).perm (.swap _ _ _)
    exact Forest.addNode laid (.binary op (laid.below (by simp)) (laid.below (by simp)))
  | ifThen condition consequent =>
    have laid := (build_forest consequent (build_forest condition forest)).perm (.swap _ _ _)
    exact Forest.addNode laid (.branch (laid.below (by simp)) (laid.below (by simp)))
  | ifElse condition consequent alternative =>
    have laid := (build_forest alternative (build_forest consequent (build_forest condition forest))).perm
      ((List.reverse_perm [_, _, _]).append_right roots)
    exact Forest.addNode laid (.branchElse (laid.below (by simp)) (laid.below (by simp)) (laid.below (by simp)))
  | loop condition body =>
    have laid := (build_forest body (build_forest condition forest)).perm (.swap _ _ _)
    exact Forest.addNode laid (.loop (laid.below (by simp)) (laid.below (by simp)))
  | seq first second =>
    have laid := (build_forest second (build_forest first forest)).perm (.swap _ _ _)
    exact Forest.addNode laid (.seq (laid.below (by simp)) (laid.below (by simp)))
  | block first rest =>
    have laid := (buildAll_forest rest (build_forest first forest)).perm List.perm_middle
    exact Forest.seqFrom laid
  | declare name init =>
    have laid := build_forest init forest
    exact Forest.addNode laid (.declare _ (laid.below (by simp)))
  | assign name value =>
    have laid := build_forest value forest
    exact Forest.addNode laid (.assign _ (laid.below (by simp)))
  | function params body =>
    have laid := (build_forest body forest).addParams ((body.build builder).2.names.internAll params).1
    exact Forest.addNode laid (.function (params?_addParams _ _) (laid.below (by simp)))
  | call callee args =>
    have laid := (buildAll_forest args (build_forest callee forest)).perm List.perm_middle
    exact Forest.call laid

theorem buildAll_forest (trees : List Tree) : ∀ {builder : Builder} {roots : List ExprId},
    builder.arena.Forest roots → (buildAll builder trees).2.arena.Forest ((buildAll builder trees).1 ++ roots) := by
  intro builder roots forest
  cases trees with
  | nil => exact forest
  | cons tree rest =>
    have laid := buildAll_forest rest (build_forest tree forest)
    exact laid.perm List.perm_middle

end

theorem buildProgram_forest {names : Interner} {program : List Tree} {root : ExprId} {builder : Builder}
    (built : buildProgram (.withNames names) program = (some root, builder)) : builder.arena.Forest [root] := by
  have laid : (buildAll (.withNames names) program).2.arena.Forest ((buildAll (.withNames names) program).1 ++ []) :=
    buildAll_forest program Forest.empty
  unfold buildProgram at built
  cases ids : (buildAll (.withNames names) program).1 with
  | nil => simp [ids, Builder.seqAll] at built
  | cons first rest =>
    rw [ids] at laid
    have joined := Forest.seqFrom laid
    simp only [ids, Builder.seqAll, Prod.mk.injEq, Option.some.injEq] at built
    rw [built.1, built.2] at joined
    exact joined

end Tree

end ScopedEval
