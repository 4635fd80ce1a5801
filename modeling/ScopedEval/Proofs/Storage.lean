import ScopedEval.Proofs.Nesting
import ScopedEval.Proofs.Unfolding

namespace ScopedEval

def Interner.text? (names : Interner) (name : Name) : Option String := names.texts[name.index]?

namespace Tree

mutual

def nested : Tree → Tree
  | .literal value => .literal value
  | .ident name => .ident name
  | .print operand => .print operand.nested
  | .binary op left right => .binary op left.nested right.nested
  | .ifThen condition consequent => .ifThen condition.nested consequent.nested
  | .ifElse condition consequent alternative =>
    .ifElse condition.nested consequent.nested alternative.nested
  | .loop condition body => .loop condition.nested body.nested
  | .seq first second => .seq first.nested second.nested
  | .block first rest => (nestedAll rest).foldl .seq first.nested
  | .declare name init => .declare name init.nested
  | .assign name value => .assign name value.nested
  | .function params body => .function params body.nested
  | .call callee args => .call callee.nested (nestedAll args)

def nestedAll : List Tree → List Tree
  | [] => []
  | tree :: rest => tree.nested :: nestedAll rest

end

end Tree

namespace Arena

def labels? (arena : Arena) : Node → Option (List Name)
  | .ident name | .declare name _ | .assign name _ => some [name]
  | .function params _ => arena.params? params
  | _ => some []

def parts? (arena : Arena) : Node → Option (List ExprId)
  | .function _ body => some [body]
  | .call callee args => (arena.args? args).map (callee :: ·)
  | node => some node.operands

theorem parts_of_parts? {arena : Arena} {node : Node} {parts : List ExprId} (read : arena.parts? node = some parts) :
    arena.parts node = parts := by
  cases node with
  | call callee args =>
    obtain ⟨ids, found, rfl⟩ := Option.map_eq_some_iff.mp read
    rw [Arena.parts, found]
    rfl
  | _ => exact Option.some.inj read

end Arena

def Node.assemble? : Node → List String → List Tree → Option Tree
  | .literal value, [], [] => some (.literal value)
  | .ident _, [text], [] => some (.ident text)
  | .print _, [], [operand] => some (.print operand)
  | .binary op _ _, [], [left, right] => some (.binary op left right)
  | .branch _ _ none, [], [condition, consequent] => some (.ifThen condition consequent)
  | .branch _ _ (some _), [], [condition, consequent, alternative] =>
    some (.ifElse condition consequent alternative)
  | .loop _ _, [], [condition, body] => some (.loop condition body)
  | .seq _ _, [], [first, second] => some (.seq first second)
  | .declare _ _, [text], [init] => some (.declare text init)
  | .assign _ _, [text], [value] => some (.assign text value)
  | .function _ _, params, [body] => some (.function params body)
  | .call _ _, [], callee :: args => some (.call callee args)
  | _, _, _ => none

theorem mapM_eq_some_iff {α β : Type} {pick : α → Option β} {entries : List α} {picked : List β} :
    entries.mapM pick = some picked ↔ List.Forall₂ (fun entry found => pick entry = some found) entries picked := by
  induction entries generalizing picked with
  | nil => simp [eq_comm]
  | cons entry rest ih =>
    simp only [List.mapM_cons, Option.bind_eq_bind, Option.pure_def, Option.bind_eq_some_iff, ih, Option.some.injEq,
      List.forall₂_cons_left_iff]
    constructor
    · rintro ⟨found, head, others, tail, rfl⟩
      exact ⟨found, others, head, tail, rfl⟩
    · rintro ⟨found, others, head, tail, rfl⟩
      exact ⟨found, head, others, tail, rfl⟩

namespace Arena

/-- The tree that the expression at an id is read as. Its parts are looked for among the expressions before it. -/
def tree? (text : Name → Option String) (arena : Arena) (id : ExprId) : Option Tree := do
  let node ← arena.node? id
  let texts ← (← arena.labels? node).mapM text
  let trees ← (← arena.parts? node).mapM fun child =>
    if child.index < id.index then arena.tree? text child else none
  node.assemble? texts trees
termination_by id.index

/-- Everything that is read when an expression is read as a tree. -/
structure Reads (text : Name → Option String) (arena : Arena) (id : ExprId) (node : Node) (labels : List Name)
    (texts : List String) (parts : List ExprId) (trees : List Tree) (tree : Tree) : Prop where
  held : arena.node? id = some node
  listed : arena.labels? node = some labels
  shown : List.Forall₂ (fun label shown => text label = some shown) labels texts
  divided : arena.parts? node = some parts
  unfolded : List.Forall₂ (fun part tree => part.index < id.index ∧ arena.tree? text part = some tree) parts trees
  assembled : node.assemble? texts trees = some tree

theorem tree?_eq_some_iff {text : Name → Option String} {arena : Arena} {id : ExprId} {tree : Tree} :
    arena.tree? text id = some tree ↔
      ∃ node labels texts parts trees, arena.Reads text id node labels texts parts trees tree := by
  have guarded (part : ExprId) (tree : Tree) :
      (if part.index < id.index then arena.tree? text part else none) = some tree ↔
        part.index < id.index ∧ arena.tree? text part = some tree := by
    split <;> simp_all
  rw [tree?]
  simp only [Option.bind_eq_bind, Option.bind_eq_some_iff, mapM_eq_some_iff, guarded]
  constructor
  · rintro ⟨node, held, labels, listed, texts, shown, parts, divided, trees, unfolded, assembled⟩
    exact ⟨node, labels, texts, parts, trees, held, listed, shown, divided, unfolded, assembled⟩
  · rintro ⟨node, labels, texts, parts, trees, held, listed, shown, divided, unfolded, assembled⟩
    exact ⟨node, held, labels, listed, texts, shown, parts, divided, trees, unfolded, assembled⟩

namespace Extends

variable {old new : Arena}

theorem labels? (grown : old.Extends new) {node : Node} {labels : List Name} (read : old.labels? node = some labels) :
    new.labels? node = some labels := by
  cases node with
  | function params body => exact grown.params read
  | _ => exact read

theorem parts? (grown : old.Extends new) {node : Node} {parts : List ExprId} (read : old.parts? node = some parts) :
    new.parts? node = some parts := by
  cases node with
  | call callee args =>
    obtain ⟨ids, found, rfl⟩ := Option.map_eq_some_iff.mp read
    exact Option.map_eq_some_iff.mpr ⟨ids, grown.args found, rfl⟩
  | _ => exact read

theorem tree? (grown : old.Extends new) {text text' : Name → Option String}
    (texts : ∀ name shown, text name = some shown → text' name = some shown) {id : ExprId} {tree : Tree}
    (read : old.tree? text id = some tree) : new.tree? text' id = some tree := by
  -- on the id, as parts are only looked for before the whole
  obtain ⟨index⟩ := id
  induction index using Nat.strongRecOn generalizing tree with
  | ind index ih =>
    obtain ⟨node, labels, shown, parts, trees, reads⟩ := tree?_eq_some_iff.mp read
    refine tree?_eq_some_iff.mpr ⟨node, labels, shown, parts, trees, grown.node reads.held,
      grown.labels? reads.listed, reads.shown.imp texts, grown.parts? reads.divided, reads.unfolded.imp ?_,
      reads.assembled⟩
    rintro part tree ⟨before, unfolded⟩
    exact ⟨before, ih part.index before unfolded⟩

end Extends

theorem tree?_part {text : Name → Option String} {arena : Arena} {id part : ExprId} {tree : Tree}
    (read : arena.tree? text id = some tree) (step : arena.Part id part) :
    part.index < id.index ∧ ∃ inner, arena.tree? text part = some inner := by
  obtain ⟨node, labels, shown, parts, trees, reads⟩ := tree?_eq_some_iff.mp read
  obtain ⟨other, held, member⟩ := part_iff.mp step
  cases reads.held.symm.trans held
  rw [parts_of_parts? reads.divided] at member
  obtain ⟨inner, _, before, unfolded⟩ := exists_of_mem_forall₂ reads.unfolded member
  exact ⟨before, inner, unfolded⟩

theorem tree?_inside {text : Name → Option String} {arena : Arena} {id inner : ExprId} {tree : Tree}
    (read : arena.tree? text id = some tree) (inside : Relation.ReflTransGen arena.Part id inner) :
    ∃ tree, arena.tree? text inner = some tree := by
  induction inside with
  | refl => exact ⟨tree, read⟩
  | tail _ step ih =>
    obtain ⟨outer, read⟩ := ih
    exact (tree?_part read step).2

end Arena

namespace Interner

theorem text?_eq_some_iff {names : Interner} {name : Name} {text : String} :
    names.text? name = some text ↔ names.find? text = some name :=
  find?_eq_some_iff.symm

theorem Extends.text? {old new : Interner} (grown : old.Extends new) (name : Name) (text : String)
    (known : old.text? name = some text) : new.text? name = some text :=
  text?_eq_some_iff.mpr (grown.find (text?_eq_some_iff.mp known))

theorem lookup_of_text? {names : Interner} (name : Name) (text : String) (known : names.text? name = some text) :
    some (names.lookup name) = some text :=
  congrArg some (lookup_of_find? (text?_eq_some_iff.mp known))

end Interner

namespace Builder

def Stores (builder : Builder) (id : ExprId) (tree : Tree) : Prop :=
  builder.arena.tree? builder.names.text? id = some tree

theorem Stores.mono {old new : Builder} {id : ExprId} {tree : Tree} (stored : old.Stores id tree)
    (grown : old.Extends new) : new.Stores id tree :=
  grown.arena.tree? grown.names.text? stored

theorem Stores.index_lt {builder : Builder} {id : ExprId} {tree : Tree} (stored : builder.Stores id tree) :
    id.index < builder.arena.size := by
  obtain ⟨_, _, _, _, _, reads⟩ := Arena.tree?_eq_some_iff.mp stored
  exact (Array.getElem?_eq_some_iff.mp reads.held).1

theorem stores_add {builder : Builder} (node : Node) {labels : List Name} {texts : List String} {parts : List ExprId}
    {trees : List Tree} {tree : Tree} (listed : builder.arena.labels? node = some labels)
    (shown : List.Forall₂ (fun text label => builder.names.find? text = some label) texts labels)
    (divided : builder.arena.parts? node = some parts) (stored : List.Forall₂ builder.Stores parts trees)
    (assembled : node.assemble? texts trees = some tree) : (builder.add node).2.Stores (builder.add node).1 tree := by
  have grown := Extends.add builder node
  refine Arena.tree?_eq_some_iff.mpr ⟨node, labels, texts, parts, trees, builder.node?_add node,
    grown.arena.labels? listed, ?_, grown.arena.parts? divided, ?_, assembled⟩
  · exact (List.Forall₂.flip shown).imp fun _ _ known => Interner.text?_eq_some_iff.mpr known
  · exact stored.imp fun _ _ inner => ⟨inner.index_lt, inner.mono grown⟩

theorem seqFrom_stores {builder : Builder} {first : ExprId} {rest : List ExprId} {tree : Tree} {trees : List Tree}
    (stored : builder.Stores first tree) (all : List.Forall₂ builder.Stores rest trees) :
    (builder.seqFrom first rest).2.Stores (builder.seqFrom first rest).1 (trees.foldl .seq tree) := by
  induction rest generalizing builder first tree trees with
  | nil =>
    cases all
    exact stored
  | cons next rest ih =>
    cases all with
    | cons stored' all =>
      have grown := Extends.add builder (.seq first next)
      have joined := stores_add (.seq first next) rfl .nil rfl (.cons stored (.cons stored' .nil)) rfl
      have later := ih joined (all.imp fun _ _ inner => inner.mono grown)
      exact later

theorem function_stores {builder : Builder} {body : ExprId} {tree : Tree} (stored : builder.Stores body tree)
    (params : List String) :
    (builder.function params body).2.Stores (builder.function params body).1 (.function params tree) := by
  have known := builder.names.find?_internAll params
  have listed := builder.arena.params?_addParams (builder.names.internAll params).1
  have grown : builder.Extends
      ⟨(builder.names.internAll params).2, (builder.arena.addParams (builder.names.internAll params).1).2⟩ :=
    ⟨.internAll _ params, .addParams _ _⟩
  exact stores_add (.function _ body) listed known rfl (.cons (stored.mono grown) .nil) rfl

theorem call_stores {builder : Builder} {callee : ExprId} {args : List ExprId} {tree : Tree} {trees : List Tree}
    (stored : builder.Stores callee tree) (all : List.Forall₂ builder.Stores args trees) :
    (builder.call callee args).2.Stores (builder.call callee args).1 (.call tree trees) := by
  have listed := builder.arena.args?_addArgs args
  have grown : builder.Extends { builder with arena := (builder.arena.addArgs args).2 } := ⟨.refl _, .addArgs _ _⟩
  exact stores_add (.call callee _) rfl .nil (congrArg (Option.map _) listed)
    (.cons (stored.mono grown) (all.imp fun _ _ inner => inner.mono grown)) rfl

end Builder

namespace Tree

open Builder

mutual

theorem build_stores (tree : Tree) (builder : Builder) :
    (tree.build builder).2.Stores (tree.build builder).1 tree.nested := by
  cases tree with
  | literal value => exact stores_add (.literal value) rfl .nil rfl .nil rfl
  | ident text =>
    have known := builder.names.find?_intern text
    exact stores_add (.ident _) rfl (.cons known .nil) rfl .nil rfl
  | print operand =>
    have inner := build_stores operand builder
    exact stores_add (.print _) rfl .nil rfl (.cons inner .nil) rfl
  | binary op left right =>
    have first := (build_stores left builder).mono (build_shows right _).1
    have second := build_stores right (left.build builder).2
    exact stores_add (.binary op _ _) rfl .nil rfl (.cons first (.cons second .nil)) rfl
  | ifThen condition consequent =>
    have test := (build_stores condition builder).mono (build_shows consequent _).1
    have first := build_stores consequent (condition.build builder).2
    exact stores_add (.branch _ _ none) rfl .nil rfl (.cons test (.cons first .nil)) rfl
  | ifElse condition consequent alternative =>
    have later := (build_shows alternative (consequent.build (condition.build builder).2).2).1
    have test := (build_stores condition builder).mono ((build_shows consequent _).1.trans later)
    have first := (build_stores consequent (condition.build builder).2).mono later
    have second := build_stores alternative (consequent.build (condition.build builder).2).2
    exact stores_add (.branch _ _ (some _)) rfl .nil rfl (.cons test (.cons first (.cons second .nil))) rfl
  | loop condition body =>
    have test := (build_stores condition builder).mono (build_shows body _).1
    have inner := build_stores body (condition.build builder).2
    exact stores_add (.loop _ _) rfl .nil rfl (.cons test (.cons inner .nil)) rfl
  | seq first second =>
    have left := (build_stores first builder).mono (build_shows second _).1
    have right := build_stores second (first.build builder).2
    exact stores_add (.seq _ _) rfl .nil rfl (.cons left (.cons right .nil)) rfl
  | block first rest =>
    have head := (build_stores first builder).mono (buildAll_shows rest _).1
    exact seqFrom_stores head (buildAll_stores rest (first.build builder).2)
  | declare text init =>
    have named := Extends.intern (init.build builder).2 text
    have known := (init.build builder).2.names.find?_intern text
    have inner := (build_stores init builder).mono named
    exact stores_add (.declare _ _) rfl (.cons known .nil) rfl (.cons inner .nil) rfl
  | assign text value =>
    have named := Extends.intern (value.build builder).2 text
    have known := (value.build builder).2.names.find?_intern text
    have inner := (build_stores value builder).mono named
    exact stores_add (.assign _ _) rfl (.cons known .nil) rfl (.cons inner .nil) rfl
  | function params body => exact function_stores (build_stores body builder) params
  | call callee args =>
    have head := (build_stores callee builder).mono (buildAll_shows args _).1
    exact call_stores head (buildAll_stores args (callee.build builder).2)

theorem buildAll_stores (trees : List Tree) (builder : Builder) :
    List.Forall₂ (buildAll builder trees).2.Stores (buildAll builder trees).1 (nestedAll trees) := by
  cases trees with
  | nil => exact .nil
  | cons tree rest =>
    have head := (build_stores tree builder).mono (buildAll_shows rest _).1
    exact .cons head (buildAll_stores rest (tree.build builder).2)

end

end Tree

structure Usage where
  nodes : Nat
  args : Nat
  params : Nat

instance : Add Usage :=
  ⟨fun first second => ⟨first.nodes + second.nodes, first.args + second.args, first.params + second.params⟩⟩

theorem Usage.add_def (a b : Usage) : a + b = ⟨a.nodes + b.nodes, a.args + b.args, a.params + b.params⟩ := rfl

theorem Usage.add_assoc (a b c : Usage) : a + b + c = a + (b + c) := by
  simp only [add_def, Nat.add_assoc]

def Arena.usage (arena : Arena) : Usage := ⟨arena.nodes.size, arena.args.size, arena.params.size⟩

namespace Tree

mutual

/-- What a tree needs: an expression for every node, where a block has one less than it has statements, and
    an entry for every argument and every parameter. -/
def usage : Tree → Usage
  | .literal _ | .ident _ => ⟨1, 0, 0⟩
  | .print operand => operand.usage + ⟨1, 0, 0⟩
  | .binary _ left right => left.usage + (right.usage + ⟨1, 0, 0⟩)
  | .ifThen condition consequent => condition.usage + (consequent.usage + ⟨1, 0, 0⟩)
  | .ifElse condition consequent alternative =>
    condition.usage + (consequent.usage + (alternative.usage + ⟨1, 0, 0⟩))
  | .loop condition body => condition.usage + (body.usage + ⟨1, 0, 0⟩)
  | .seq first second => first.usage + (second.usage + ⟨1, 0, 0⟩)
  | .block first rest => first.usage + (usageAll rest + ⟨rest.length, 0, 0⟩)
  | .declare _ init => init.usage + ⟨1, 0, 0⟩
  | .assign _ value => value.usage + ⟨1, 0, 0⟩
  | .function params body => body.usage + ⟨1, 0, params.length⟩
  | .call callee args => callee.usage + (usageAll args + ⟨1, args.length, 0⟩)

def usageAll : List Tree → Usage
  | [] => ⟨0, 0, 0⟩
  | tree :: rest => tree.usage + usageAll rest

end

end Tree

namespace Builder

theorem usage_add (builder : Builder) (node : Node) :
    (builder.add node).2.arena.usage = builder.arena.usage + ⟨1, 0, 0⟩ :=
  congrArg (Usage.mk · builder.arena.args.size builder.arena.params.size) (Array.size_push _)

theorem arena_intern (builder : Builder) (text : String) : (builder.intern text).2.arena = builder.arena := rfl

theorem usage_seqFrom (builder : Builder) (first : ExprId) (rest : List ExprId) :
    (builder.seqFrom first rest).2.arena.usage = builder.arena.usage + ⟨rest.length, 0, 0⟩ := by
  induction rest generalizing builder first with
  | nil => rfl
  | cons next rest ih =>
    have joined := builder.usage_add (.seq first next)
    have later := ih (builder.seq first next).2 (builder.seq first next).1
    have count : Usage.mk 1 0 0 + ⟨rest.length, 0, 0⟩ = ⟨rest.length + 1, 0, 0⟩ := by
      simp only [Usage.add_def, Nat.add_comm 1]
    rw [Builder.seq, joined, Usage.add_assoc, count] at later
    exact later

theorem usage_function (builder : Builder) (params : List String) (body : ExprId) :
    (builder.function params body).2.arena.usage = builder.arena.usage + ⟨1, 0, params.length⟩ := by
  have listed : (builder.arena.addParams (builder.names.internAll params).1).2.usage =
      builder.arena.usage + ⟨0, 0, (builder.names.internAll params).1.length⟩ :=
    congrArg (Usage.mk builder.arena.nodes.size builder.arena.args.size) Array.size_append
  have length := (builder.names.find?_internAll params).length_eq
  have added := usage_add ⟨(builder.names.internAll params).2, (builder.arena.addParams (builder.names.internAll params).1).2⟩
    (.function (builder.arena.addParams (builder.names.internAll params).1).1 body)
  rw [listed, ← length, Usage.add_assoc] at added
  exact added

theorem usage_call (builder : Builder) (callee : ExprId) (args : List ExprId) :
    (builder.call callee args).2.arena.usage = builder.arena.usage + ⟨1, args.length, 0⟩ := by
  have listed : (builder.arena.addArgs args).2.usage = builder.arena.usage + ⟨0, args.length, 0⟩ :=
    congrArg (Usage.mk builder.arena.nodes.size · builder.arena.params.size) Array.size_append
  have added := usage_add { builder with arena := (builder.arena.addArgs args).2 }
    (.call callee (builder.arena.addArgs args).1)
  rw [listed, Usage.add_assoc] at added
  exact added

end Builder

namespace Tree

open Builder

mutual

theorem usage_build (tree : Tree) (builder : Builder) :
    (tree.build builder).2.arena.usage = builder.arena.usage + tree.usage := by
  cases tree with
  | literal value => exact usage_add builder _
  | ident text => exact usage_add (builder.intern text).2 _
  | print operand => simp only [build, usage, Builder.print, usage_add, usage_build operand, Usage.add_assoc]
  | binary op left right =>
    simp only [build, usage, Builder.binary, usage_add, usage_build left, usage_build right, Usage.add_assoc]
  | ifThen condition consequent =>
    simp only [build, usage, Builder.branch, usage_add, usage_build condition, usage_build consequent, Usage.add_assoc]
  | ifElse condition consequent alternative =>
    simp only [build, usage, Builder.branch, usage_add, usage_build condition, usage_build consequent,
      usage_build alternative, Usage.add_assoc]
  | loop condition body =>
    simp only [build, usage, Builder.loop, usage_add, usage_build condition, usage_build body, Usage.add_assoc]
  | seq first second =>
    simp only [build, usage, Builder.seq, usage_add, usage_build first, usage_build second, Usage.add_assoc]
  | block first rest =>
    have length := (buildAll_shows rest (first.build builder).2).2.length_eq
    simp only [build, usage, usage_seqFrom, usageAll_build rest, usage_build first, length, Usage.add_assoc]
  | declare text init =>
    simp only [build, usage, Builder.declare, usage_add, arena_intern, usage_build init, Usage.add_assoc]
  | assign text value =>
    simp only [build, usage, Builder.assign, usage_add, arena_intern, usage_build value, Usage.add_assoc]
  | function params body => simp only [build, usage, usage_function, usage_build body, Usage.add_assoc]
  | call callee args =>
    have length := (buildAll_shows args (callee.build builder).2).2.length_eq
    simp only [build, usage, usage_call, usageAll_build args, usage_build callee, length, Usage.add_assoc]

theorem usageAll_build (trees : List Tree) (builder : Builder) :
    (buildAll builder trees).2.arena.usage = builder.arena.usage + usageAll trees := by
  cases trees with
  | nil => rfl
  | cons tree rest => simp only [buildAll, usageAll, usageAll_build rest, usage_build tree, Usage.add_assoc]

end

end Tree

namespace Builder

def performAll (builder : Builder) (calls : List BuilderCall) : Builder :=
  calls.foldl (fun builder call => (call.perform builder).2) builder

namespace Extends

theorem perform (builder : Builder) (call : BuilderCall) : builder.Extends (call.perform builder).2 := by
  cases call with
  | intern text => exact intern builder text
  | ident text | declare text _ | assign text _ => exact (intern builder text).trans (add _ _)
  | literal | print | binary | branch | loop | seq => exact add builder _
  | seqAll ids => exact seqAll builder ids
  | function params body => exact ⟨.internAll _ params, (Arena.Extends.addParams _ _).trans (.addNode _ _)⟩
  | call callee args => exact ⟨.refl _, (Arena.Extends.addArgs _ args).trans (.addNode _ _)⟩

theorem performAll (builder : Builder) (calls : List BuilderCall) : builder.Extends (builder.performAll calls) := by
  induction calls generalizing builder with
  | nil => exact refl builder
  | cons call rest ih =>
    have first := perform builder call
    exact first.trans (ih _)

end Extends

end Builder

theorem Interner.Extends.lookup {old new : Interner} (grown : old.Extends new) {name : Name}
    (known : name.index < old.size) : new.lookup name = old.lookup name := by
  have held : old.text? name = some old.texts[name.index] := Array.getElem?_eq_getElem known
  have kept := lookup_of_text? name _ (grown.text? name _ held)
  exact Option.some.inj (kept.trans (lookup_of_text? name _ held).symm)

/-- Whatever the arena and the interner hold before, and whatever the builder is called for afterwards, the id that
    comes back for a tree is read as that tree, its blocks nested to the left. Expressions come after their parts,
    the tables grow by what the tree needs, and what was there keeps its meaning. -/
theorem builder_stores_tree (builder : Builder) (tree : Tree) (calls : List BuilderCall) :
    let id := (tree.build builder).1
    let built := (tree.build builder).2
    let later := built.performAll calls
    later.arena.tree? (fun name => some (later.names.lookup name)) id = some tree.nested ∧
    (∀ parent child, Relation.ReflTransGen later.arena.Part id parent → later.arena.Part parent child →
      child.index < parent.index) ∧
    built.arena.usage = builder.arena.usage + tree.usage ∧
    builder.Extends built ∧ built.Extends later ∧
    (∀ old known, builder.arena.tree? builder.names.text? old = some known →
      later.arena.tree? later.names.text? old = some known) ∧
    ∀ name, name.index < builder.names.size → later.names.lookup name = builder.names.lookup name := by
  intro id built later
  have early : builder.Extends built := (tree.build_shows builder).1
  have late : built.Extends later := .performAll built calls
  have stored : later.Stores id tree.nested := (tree.build_stores builder).mono late
  refine ⟨?_, ?_, tree.usage_build builder, early, late, ?_, ?_⟩
  · exact (Arena.Extends.refl _).tree? Interner.lookup_of_text? stored
  · intro parent child inside step
    obtain ⟨inner, read⟩ := Arena.tree?_inside stored inside
    exact (Arena.tree?_part read step).1
  · intro old known read
    exact (early.trans late).arena.tree? (early.trans late).names.text? read
  · intro name known
    exact (early.trans late).names.lookup known

def crowded : Builder := ⟨(Interner.new.intern "x").2, ⟨#[.call ⟨9⟩ ⟨5, 2⟩], #[⟨3⟩], #[⟨8⟩]⟩⟩

def applied : Tree :=
  .call (.ident "f") [.call (.ident "g") [.literal (.int 1)],
    .function ["x", "y"] (.block (.ident "x") [.ident "y", .literal .null])]

theorem builder_stores_tree_crowded :
    let later := (applied.build crowded).2.performAll [.call ⟨40⟩ [⟨7⟩], .function ["q"] ⟨99⟩]
    (applied.build crowded).1 = ⟨11⟩ ∧
    later.arena.tree? (fun name => some (later.names.lookup name)) ⟨11⟩ =
      some (.call (.ident "f") [.call (.ident "g") [.literal (.int 1)],
        .function ["x", "y"] (.seq (.seq (.ident "x") (.ident "y")) (.literal .null))]) ∧
    (applied.build crowded).2.arena.usage = ⟨12, 4, 3⟩ ∧
    later.names.lookup ⟨1⟩ = "x" := by
  intro later
  obtain ⟨unfolds, -, usage, -, -, -, names⟩ := builder_stores_tree crowded applied
    [.call ⟨40⟩ [⟨7⟩], .function ["q"] ⟨99⟩]
  have root : (applied.build crowded).1 = ⟨11⟩ := by decide +kernel
  rw [root] at unfolds
  exact ⟨root, unfolds, usage, names ⟨1⟩ (by decide +kernel)⟩

end ScopedEval
