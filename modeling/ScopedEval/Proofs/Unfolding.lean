import Mathlib.Data.List.Forall2
import ScopedEval.Proofs.Construction
import ScopedEval.Tree

namespace ScopedEval

structure Interner.Extends (old new : Interner) : Prop where
  find {text : String} {name : Name} : old.find? text = some name → new.find? text = some name

namespace Interner

theorem find?_eq_some_iff {names : Interner} {text : String} {name : Name} :
    names.find? text = some name ↔ names.texts[name.index]? = some text := by
  obtain ⟨index⟩ := name
  rw [← names.inverse, find?, Option.map_eq_some_iff]
  constructor
  · rintro ⟨_, held, same⟩
    cases same
    exact held
  · intro held
    exact ⟨index, held, rfl⟩

theorem lookup_of_find? {names : Interner} {text : String} {name : Name} (known : names.find? text = some name) :
    names.lookup name = text := by
  rw [lookup, find?_eq_some_iff.mp known]
  rfl

theorem find?_intern (names : Interner) (text : String) :
    (names.intern text).2.find? text = some (names.intern text).1 := by
  unfold intern
  split
  · rename_i found
    rw [find?, found]
    rfl
  · rw [find?_eq_some_iff]
    simp [push]

namespace Extends

theorem refl (names : Interner) : names.Extends names := ⟨id⟩

theorem trans {first second third : Interner} (early : first.Extends second) (late : second.Extends third) :
    first.Extends third :=
  ⟨late.find ∘ early.find⟩

theorem intern (names : Interner) (text : String) : names.Extends (names.intern text).2 := by
  constructor
  intro other name known
  rw [find?_eq_some_iff] at known ⊢
  unfold Interner.intern
  split
  · exact known
  · have old := (Array.getElem?_eq_some_iff.mp known).1
    simp only [push, Array.getElem?_push, if_neg (Nat.ne_of_lt old)]
    exact known

theorem internAll (names : Interner) (texts : List String) : names.Extends (names.internAll texts).2 := by
  induction texts generalizing names with
  | nil => exact refl names
  | cons text rest ih =>
    have first := intern names text
    exact first.trans (ih _)

end Extends

theorem find?_internAll (names : Interner) (texts : List String) :
    List.Forall₂ (fun text name => (names.internAll texts).2.find? text = some name) texts
      (names.internAll texts).1 := by
  induction texts generalizing names with
  | nil => exact .nil
  | cons text rest ih =>
    have first := names.find?_intern text
    exact .cons ((Extends.internAll _ rest).find first) (ih _)

end Interner

/-- The expression at an id, read together with all its parts, is the tree. A block reads as its statements
    nested to the left. -/
inductive Arena.Shows (names : Interner) (arena : Arena) : ExprId → Tree → Prop where
  | literal {id : ExprId} {value : Literal} : arena.node? id = some (.literal value) →
      Shows names arena id (.literal value)
  | ident {id : ExprId} {name : Name} {text : String} : arena.node? id = some (.ident name) →
      names.find? text = some name → Shows names arena id (.ident text)
  | print {id operand : ExprId} {tree : Tree} : arena.node? id = some (.print operand) →
      Shows names arena operand tree → Shows names arena id (.print tree)
  | binary {id left right : ExprId} {op : Operator} {first second : Tree} :
      arena.node? id = some (.binary op left right) → Shows names arena left first →
      Shows names arena right second → Shows names arena id (.binary op first second)
  | ifThen {id condition consequent : ExprId} {test first : Tree} :
      arena.node? id = some (.branch condition consequent none) → Shows names arena condition test →
      Shows names arena consequent first → Shows names arena id (.ifThen test first)
  | ifElse {id condition consequent alternative : ExprId} {test first second : Tree} :
      arena.node? id = some (.branch condition consequent (some alternative)) →
      Shows names arena condition test → Shows names arena consequent first →
      Shows names arena alternative second → Shows names arena id (.ifElse test first second)
  | loop {id condition body : ExprId} {test tree : Tree} : arena.node? id = some (.loop condition body) →
      Shows names arena condition test → Shows names arena body tree → Shows names arena id (.loop test tree)
  | seq {id first second : ExprId} {left right : Tree} : arena.node? id = some (.seq first second) →
      Shows names arena first left → Shows names arena second right → Shows names arena id (.seq left right)
  | single {id : ExprId} {first : Tree} : Shows names arena id first → Shows names arena id (.block first [])
  | block {id : ExprId} {first next : Tree} {rest : List Tree} :
      Shows names arena id (.block (.seq first next) rest) → Shows names arena id (.block first (next :: rest))
  | declare {id init : ExprId} {name : Name} {text : String} {tree : Tree} :
      arena.node? id = some (.declare name init) → names.find? text = some name →
      Shows names arena init tree → Shows names arena id (.declare text tree)
  | assign {id value : ExprId} {name : Name} {text : String} {tree : Tree} :
      arena.node? id = some (.assign name value) → names.find? text = some name →
      Shows names arena value tree → Shows names arena id (.assign text tree)
  | function {id body : ExprId} {span : Span} {listed : List Name} {params : List String} {tree : Tree} :
      arena.node? id = some (.function span body) → arena.params? span = some listed →
      List.Forall₂ (fun text name => names.find? text = some name) params listed →
      Shows names arena body tree → Shows names arena id (.function params tree)
  | call {id callee : ExprId} {span : Span} {ids : List ExprId} {tree : Tree} {args : List Tree} :
      arena.node? id = some (.call callee span) → arena.args? span = some ids → ids.length = args.length →
      Shows names arena callee tree → (∀ arg tree, (arg, tree) ∈ ids.zip args → Shows names arena arg tree) →
      Shows names arena id (.call tree args)

theorem Arena.Shows.mono {names names' : Interner} {arena arena' : Arena} {id : ExprId} {tree : Tree}
    (shown : arena.Shows names id tree) (names_le : names.Extends names') (arena_le : arena.Extends arena') :
    arena'.Shows names' id tree := by
  induction shown with
  | literal read => exact .literal (arena_le.node read)
  | ident read known => exact .ident (arena_le.node read) (names_le.find known)
  | print read _ ih => exact .print (arena_le.node read) ih
  | binary read _ _ ihLeft ihRight => exact .binary (arena_le.node read) ihLeft ihRight
  | ifThen read _ _ ihTest ihFirst => exact .ifThen (arena_le.node read) ihTest ihFirst
  | ifElse read _ _ _ ihTest ihFirst ihSecond => exact .ifElse (arena_le.node read) ihTest ihFirst ihSecond
  | loop read _ _ ihTest ihBody => exact .loop (arena_le.node read) ihTest ihBody
  | seq read _ _ ihFirst ihSecond => exact .seq (arena_le.node read) ihFirst ihSecond
  | single _ ih => exact .single ih
  | block _ ih => exact .block ih
  | declare read known _ ih => exact .declare (arena_le.node read) (names_le.find known) ih
  | assign read known _ ih => exact .assign (arena_le.node read) (names_le.find known) ih
  | function read params known _ ih =>
    exact .function (arena_le.node read) (arena_le.params params) (known.imp fun _ _ => names_le.find) ih
  | call read args length _ _ ihCallee ihArgs =>
    exact .call (arena_le.node read) (arena_le.args args) length ihCallee ihArgs

structure Builder.Extends (old new : Builder) : Prop where
  names : old.names.Extends new.names
  arena : old.arena.Extends new.arena

namespace Builder

namespace Extends

theorem refl (builder : Builder) : builder.Extends builder := ⟨.refl _, .refl _⟩

theorem trans {first second third : Builder} (early : first.Extends second) (late : second.Extends third) :
    first.Extends third :=
  ⟨early.names.trans late.names, early.arena.trans late.arena⟩

theorem add (builder : Builder) (node : Node) : builder.Extends (builder.add node).2 :=
  ⟨.refl _, .addNode _ _⟩

theorem intern (builder : Builder) (text : String) : builder.Extends (builder.intern text).2 :=
  ⟨.intern _ _, .refl _⟩

theorem seqFrom (builder : Builder) (first : ExprId) (rest : List ExprId) :
    builder.Extends (builder.seqFrom first rest).2 := by
  induction rest generalizing builder first with
  | nil => exact refl builder
  | cons next rest ih =>
    have joined := add builder (.seq first next)
    exact joined.trans (ih _ _)

theorem seqAll (builder : Builder) (ids : List ExprId) : builder.Extends (builder.seqAll ids).2 := by
  cases ids with
  | nil => exact refl builder
  | cons first rest => exact seqFrom builder first rest

end Extends

theorem node?_add (builder : Builder) (node : Node) :
    (builder.add node).2.arena.node? (builder.add node).1 = some node :=
  Arena.node?_addNode _ _

def Shows (builder : Builder) (id : ExprId) (tree : Tree) : Prop := builder.arena.Shows builder.names id tree

theorem Shows.mono {old new : Builder} {id : ExprId} {tree : Tree} (shown : old.Shows id tree)
    (grown : old.Extends new) : new.Shows id tree :=
  Arena.Shows.mono shown grown.names grown.arena

theorem Shows.two {start middle last : Builder} {a b : ExprId} {first second : Tree}
    (early : start.Extends middle ∧ middle.Shows a first) (late : middle.Extends last ∧ last.Shows b second)
    (node : Node) :
    start.Extends (last.add node).2 ∧ (last.add node).2.Shows a first ∧ (last.add node).2.Shows b second := by
  have added := Extends.add last node
  have rest := late.1.trans added
  exact ⟨early.1.trans rest, early.2.mono rest, late.2.mono added⟩

theorem seqFrom_shows {builder : Builder} {first : ExprId} {rest : List ExprId} {tree : Tree} {trees : List Tree}
    (shown : builder.Shows first tree) (all : List.Forall₂ builder.Shows rest trees) :
    (builder.seqFrom first rest).2.Shows (builder.seqFrom first rest).1 (.block tree trees) := by
  induction rest generalizing builder first tree trees with
  | nil =>
    cases all
    exact .single shown
  | cons next rest ih =>
    cases all with
    | cons shown' all =>
      have grown := Extends.add builder (.seq first next)
      have joined : (builder.seq first next).2.Shows (builder.seq first next).1 (.seq tree _) :=
        .seq (builder.node?_add _) (shown.mono grown) (shown'.mono grown)
      exact .block (ih joined (all.imp fun _ _ shown => shown.mono grown))

end Builder

namespace Tree

open Builder

mutual

theorem build_shows (tree : Tree) (builder : Builder) :
    builder.Extends (tree.build builder).2 ∧ (tree.build builder).2.Shows (tree.build builder).1 tree := by
  cases tree with
  | literal value => exact ⟨.add _ _, .literal (node?_add _ _)⟩
  | ident text =>
    have known := builder.names.find?_intern text
    exact ⟨(Extends.intern builder text).trans (.add _ _), .ident (node?_add _ _) known⟩
  | print operand =>
    obtain ⟨grown, shown⟩ := build_shows operand builder
    have last := Extends.add (operand.build builder).2 (.print (operand.build builder).1)
    exact ⟨grown.trans last, .print (node?_add _ _) (shown.mono last)⟩
  | binary op left right =>
    obtain ⟨grown, first, second⟩ := Shows.two (build_shows left builder) (build_shows right _) (.binary op _ _)
    exact ⟨grown, .binary (node?_add _ _) first second⟩
  | ifThen condition consequent =>
    obtain ⟨grown, test, first⟩ :=
      Shows.two (build_shows condition builder) (build_shows consequent _) (.branch _ _ none)
    exact ⟨grown, .ifThen (node?_add _ _) test first⟩
  | ifElse condition consequent alternative =>
    obtain ⟨grown, shown⟩ := build_shows condition builder
    obtain ⟨grown', shown'⟩ := build_shows consequent (condition.build builder).2
    obtain ⟨grown'', shown''⟩ := build_shows alternative (consequent.build (condition.build builder).2).2
    have last := Extends.add (alternative.build (consequent.build (condition.build builder).2).2).2
      (.branch (condition.build builder).1 (consequent.build (condition.build builder).2).1
        (some (alternative.build (consequent.build (condition.build builder).2).2).1))
    have rest := grown''.trans last
    exact ⟨grown.trans (grown'.trans rest), .ifElse (node?_add _ _) (shown.mono (grown'.trans rest))
      (shown'.mono rest) (shown''.mono last)⟩
  | loop condition body =>
    obtain ⟨grown, test, inner⟩ := Shows.two (build_shows condition builder) (build_shows body _) (.loop _ _)
    exact ⟨grown, .loop (node?_add _ _) test inner⟩
  | seq first second =>
    obtain ⟨grown, left, right⟩ := Shows.two (build_shows first builder) (build_shows second _) (.seq _ _)
    exact ⟨grown, .seq (node?_add _ _) left right⟩
  | block first rest =>
    obtain ⟨grown, shown⟩ := build_shows first builder
    obtain ⟨grown', all⟩ := buildAll_shows rest (first.build builder).2
    exact ⟨grown.trans (grown'.trans (.seqFrom _ _ _)), seqFrom_shows (shown.mono grown') all⟩
  | declare text init =>
    obtain ⟨grown, shown⟩ := build_shows init builder
    have named := Extends.intern (init.build builder).2 text
    have known := (init.build builder).2.names.find?_intern text
    have last := Extends.add ((init.build builder).2.intern text).2
      (.declare ((init.build builder).2.intern text).1 (init.build builder).1)
    exact ⟨grown.trans (named.trans last), .declare (node?_add _ _) known (shown.mono (named.trans last))⟩
  | assign text value =>
    obtain ⟨grown, shown⟩ := build_shows value builder
    have named := Extends.intern (value.build builder).2 text
    have known := (value.build builder).2.names.find?_intern text
    have last := Extends.add ((value.build builder).2.intern text).2
      (.assign ((value.build builder).2.intern text).1 (value.build builder).1)
    exact ⟨grown.trans (named.trans last), .assign (node?_add _ _) known (shown.mono (named.trans last))⟩
  | function params body =>
    obtain ⟨grown, shown⟩ := build_shows body builder
    have known := (body.build builder).2.names.find?_internAll params
    have listed := Arena.params?_addParams (body.build builder).2.arena
      ((body.build builder).2.names.internAll params).1
    have last : (body.build builder).2.Extends ((Tree.function params body).build builder).2 :=
      ⟨.internAll _ _, (Arena.Extends.addParams _ _).trans (.addNode _ _)⟩
    exact ⟨grown.trans last, .function (node?_add _ _) listed known (shown.mono last)⟩
  | call callee args =>
    obtain ⟨grown, shown⟩ := build_shows callee builder
    obtain ⟨grown', all⟩ := buildAll_shows args (callee.build builder).2
    have listed := Arena.args?_addArgs (buildAll (callee.build builder).2 args).2.arena
      (buildAll (callee.build builder).2 args).1
    have last : (buildAll (callee.build builder).2 args).2.Extends ((Tree.call callee args).build builder).2 :=
      ⟨.refl _, (Arena.Extends.addArgs _ _).trans (.addNode _ _)⟩
    obtain ⟨length, each⟩ := List.forall₂_iff_zip.mp all
    refine ⟨grown.trans (grown'.trans last), .call (node?_add _ _) listed length (shown.mono (grown'.trans last)) ?_⟩
    exact fun arg tree member => (each member).mono last

theorem buildAll_shows (trees : List Tree) (builder : Builder) :
    builder.Extends (buildAll builder trees).2 ∧
      List.Forall₂ (buildAll builder trees).2.Shows (buildAll builder trees).1 trees := by
  cases trees with
  | nil => exact ⟨.refl _, .nil⟩
  | cons tree rest =>
    obtain ⟨grown, shown⟩ := build_shows tree builder
    obtain ⟨grown', all⟩ := buildAll_shows rest (tree.build builder).2
    exact ⟨grown.trans grown', .cons (shown.mono grown') all⟩

end

end Tree

end ScopedEval
