import ScopedEval.Builder

namespace ScopedEval

structure Arena.Extends (old new : Arena) : Prop where
  node {id : ExprId} {node : Node} : old.node? id = some node → new.node? id = some node
  args {span : Span} {ids : List ExprId} : old.args? span = some ids → new.args? span = some ids
  params {span : Span} {names : List Name} : old.params? span = some names → new.params? span = some names

namespace Arena.Extends

theorem refl (arena : Arena) : arena.Extends arena := ⟨id, id, id⟩

theorem trans {first second third : Arena} (early : first.Extends second) (late : second.Extends third) :
    first.Extends third :=
  ⟨late.node ∘ early.node, late.args ∘ early.args, late.params ∘ early.params⟩

theorem addNode (arena : Arena) (node : Node) : arena.Extends (arena.addNode node).2 :=
  ⟨fun held => node?_addNode_of_some held node, id, id⟩

theorem addArgs (arena : Arena) (ids : List ExprId) : arena.Extends (arena.addArgs ids).2 :=
  ⟨id, fun read => slice?_append read _, id⟩

theorem addParams (arena : Arena) (names : List Name) : arena.Extends (arena.addParams names).2 :=
  ⟨id, id, fun read => slice?_append read _⟩

end Arena.Extends

theorem Arena.node?_isSome (arena : Arena) (id : ExprId) :
    (arena.node? id).isSome = decide (id.index < arena.size) := by
  unfold Arena.node? Arena.size
  by_cases below : id.index < arena.nodes.size <;> simp [below]

/-- Every expression that an expression is made of lies below a limit, and its spans lie in the tables
    of the arena. -/
inductive Node.Fits (arena : Arena) (limit : Nat) : Node → Prop where
  | literal (value : Literal) : Fits arena limit (.literal value)
  | ident (name : Name) : Fits arena limit (.ident name)
  | print {operand : ExprId} : operand.index < limit → Fits arena limit (.print operand)
  | binary (op : Operator) {left right : ExprId} : left.index < limit → right.index < limit →
      Fits arena limit (.binary op left right)
  | branch {condition consequent : ExprId} : condition.index < limit → consequent.index < limit →
      Fits arena limit (.branch condition consequent none)
  | branchElse {condition consequent alternative : ExprId} : condition.index < limit →
      consequent.index < limit → alternative.index < limit →
      Fits arena limit (.branch condition consequent (some alternative))
  | loop {condition body : ExprId} : condition.index < limit → body.index < limit →
      Fits arena limit (.loop condition body)
  | seq {first second : ExprId} : first.index < limit → second.index < limit →
      Fits arena limit (.seq first second)
  | declare (name : Name) {init : ExprId} : init.index < limit → Fits arena limit (.declare name init)
  | assign (name : Name) {value : ExprId} : value.index < limit → Fits arena limit (.assign name value)
  | function {params : Span} {names : List Name} {body : ExprId} : arena.params? params = some names →
      body.index < limit → Fits arena limit (.function params body)
  | call {callee : ExprId} {args : Span} {ids : List ExprId} : callee.index < limit →
      arena.args? args = some ids → (∀ arg ∈ ids, arg.index < limit) → Fits arena limit (.call callee args)

theorem Node.Fits.extend {old new : Arena} {limit : Nat} {node : Node} (fits : node.Fits old limit)
    (extends' : old.Extends new) : node.Fits new limit := by
  cases fits with
  | literal value => exact .literal value
  | ident name => exact .ident name
  | print operand => exact .print operand
  | binary op left right => exact .binary op left right
  | branch condition consequent => exact .branch condition consequent
  | branchElse condition consequent alternative => exact .branchElse condition consequent alternative
  | loop condition body => exact .loop condition body
  | seq first second => exact .seq first second
  | declare name init => exact .declare name init
  | assign name value => exact .assign name value
  | function params body => exact .function (extends'.params params) body
  | call callee args below => exact .call callee (extends'.args args) below

def Arena.Ordered (arena : Arena) : Prop :=
  ∀ id node, arena.node? id = some node → node.Fits arena id.index

namespace Arena.Ordered

theorem empty : Arena.empty.Ordered := by
  intro id node read
  simp [Arena.empty, Arena.node?] at read

theorem addNode {arena : Arena} (ordered : arena.Ordered) {node : Node} (fits : node.Fits arena arena.size) :
    (arena.addNode node).2.Ordered := by
  intro id other read
  have more := Arena.Extends.addNode arena node
  simp only [Arena.addNode, Arena.node?, Array.getElem?_push] at read
  split at read
  · rename_i last
    cases read
    rw [last]
    exact fits.extend more
  · exact (ordered id other read).extend more

theorem addArgs {arena : Arena} (ordered : arena.Ordered) (ids : List ExprId) :
    (arena.addArgs ids).2.Ordered :=
  fun id node read => (ordered id node read).extend (.addArgs arena ids)

theorem addParams {arena : Arena} (ordered : arena.Ordered) (names : List Name) :
    (arena.addParams names).2.Ordered :=
  fun id node read => (ordered id node read).extend (.addParams arena names)

end Arena.Ordered

/-- One call of a builder. Other builders may work on the same interner at the same time; what they
    intern shows as `intern`. -/
inductive BuilderCall where
  | intern (text : String)
  | literal (value : Literal)
  | ident (text : String)
  | print (operand : ExprId)
  | binary (op : Operator) (left right : ExprId)
  | branch (condition consequent : ExprId) (alternative : Option ExprId)
  | loop (condition body : ExprId)
  | seq (first second : ExprId)
  | seqAll (ids : List ExprId)
  | declare (text : String) (init : ExprId)
  | assign (text : String) (value : ExprId)
  | function (params : List String) (body : ExprId)
  | call (callee : ExprId) (args : List ExprId)

namespace BuilderCall

@[simp] def children : BuilderCall → List ExprId
  | intern _ | literal _ | ident _ => []
  | print operand => [operand]
  | binary _ left right => [left, right]
  | branch condition consequent alternative => condition :: consequent :: alternative.toList
  | loop condition body => [condition, body]
  | seq first second => [first, second]
  | seqAll ids => ids
  | declare _ init => [init]
  | assign _ value => [value]
  | function _ body => [body]
  | call callee args => callee :: args

def perform (builder : Builder) : BuilderCall → List ExprId × Builder
  | intern text => ([], (builder.intern text).2)
  | literal value => (builder.literal value).map ([·]) id
  | ident text => (builder.ident text).map ([·]) id
  | print operand => (builder.print operand).map ([·]) id
  | binary op left right => (builder.binary op left right).map ([·]) id
  | branch condition consequent alternative =>
    (builder.branch condition consequent alternative).map ([·]) id
  | loop condition body => (builder.loop condition body).map ([·]) id
  | seq first second => (builder.seq first second).map ([·]) id
  | seqAll ids => (builder.seqAll ids).map Option.toList id
  | declare text init => (builder.declare text init).map ([·]) id
  | assign text value => (builder.assign text value).map ([·]) id
  | function params body => (builder.function params body).map ([·]) id
  | call callee args => (builder.call callee args).map ([·]) id

end BuilderCall

namespace Builder

/-- A builder that began over some names with an empty arena and was only ever handed ids that it had
    handed back before, together with all these ids. -/
inductive Made : Builder → List ExprId → Prop where
  | start (names : Interner) : Made (.withNames names) []
  | call {builder : Builder} {ids : List ExprId} (call : BuilderCall) : Made builder ids →
      (∀ child ∈ call.children, child ∈ ids) →
      Made (call.perform builder).2 ((call.perform builder).1 ++ ids)

structure Sound (builder : Builder) (ids : List ExprId) : Prop where
  ordered : builder.arena.Ordered
  below : ∀ id ∈ ids, id.index < builder.arena.size

namespace Sound

variable {builder : Builder} {ids : List ExprId}

theorem add (sound : builder.Sound ids) {node : Node} (fits : node.Fits builder.arena builder.arena.size) :
    (builder.add node).2.Sound ((builder.add node).1 :: ids) where
  ordered := sound.ordered.addNode fits
  below id member := by
    have size : (builder.add node).2.arena.size = builder.arena.size + 1 := Array.size_push _
    rw [size]
    rcases List.mem_cons.mp member with rfl | member
    · exact Nat.lt_succ_self _
    · exact Nat.lt_succ_of_lt (sound.below id member)

theorem intern (sound : builder.Sound ids) (text : String) : (builder.intern text).2.Sound ids :=
  ⟨sound.ordered, sound.below⟩

theorem addArgs (sound : builder.Sound ids) (args : List ExprId) :
    Sound { builder with arena := (builder.arena.addArgs args).2 } ids :=
  ⟨sound.ordered.addArgs args, sound.below⟩

theorem addParams (sound : builder.Sound ids) (interner : Interner) (names : List Name) :
    Sound ⟨interner, (builder.arena.addParams names).2⟩ ids :=
  ⟨sound.ordered.addParams names, sound.below⟩

theorem seqFrom (sound : builder.Sound ids) {first : ExprId} {rest : List ExprId} (member : first ∈ ids)
    (members : ∀ next ∈ rest, next ∈ ids) :
    (builder.seqFrom first rest).2.Sound ((builder.seqFrom first rest).1 :: ids) := by
  induction rest generalizing builder first ids with
  | nil =>
    refine ⟨sound.ordered, fun id known => ?_⟩
    rcases List.mem_cons.mp known with rfl | known
    · exact sound.below _ member
    · exact sound.below _ known
  | cons next rest ih =>
    have fits : (Node.seq first next).Fits builder.arena builder.arena.size :=
      .seq (sound.below _ member) (sound.below _ (members next List.mem_cons_self))
    have joined := sound.add fits
    have result := ih joined List.mem_cons_self fun id known =>
      List.mem_cons_of_mem _ (members id (List.mem_cons_of_mem _ known))
    refine ⟨result.ordered, fun id known => ?_⟩
    rcases List.mem_cons.mp known with rfl | known
    · exact result.below _ List.mem_cons_self
    · exact result.below _ (List.mem_cons_of_mem _ (List.mem_cons_of_mem _ known))

theorem perform (sound : builder.Sound ids) (call : BuilderCall)
    (known : ∀ child ∈ call.children, child ∈ ids) :
    (call.perform builder).2.Sound ((call.perform builder).1 ++ ids) := by
  have below : ∀ child ∈ call.children, child.index < builder.arena.size :=
    fun child member => sound.below child (known child member)
  cases call with
  | intern text => exact ⟨sound.ordered, sound.below⟩
  | literal value => exact sound.add (.literal value)
  | ident text => exact Sound.add (sound.intern text) (.ident _)
  | print operand => exact sound.add (.print (below operand (by simp)))
  | binary op left right =>
    exact sound.add (.binary op (below left (by simp))
      (below right (by simp)))
  | branch condition consequent alternative =>
    have tested := below condition (by simp)
    have taken := below consequent (by simp)
    cases alternative with
    | none => exact sound.add (.branch tested taken)
    | some alternative =>
      exact sound.add (.branchElse tested taken (below alternative (by simp)))
  | loop condition body =>
    exact sound.add (.loop (below condition (by simp))
      (below body (by simp)))
  | seq first second =>
    exact sound.add (.seq (below first (by simp))
      (below second (by simp)))
  | seqAll statements =>
    cases statements with
    | nil => exact sound
    | cons first rest =>
      exact sound.seqFrom (known first List.mem_cons_self) fun next member =>
        known next (List.mem_cons_of_mem _ member)
  | declare text init =>
    exact Sound.add (sound.intern text) (.declare _ (below init (by simp)))
  | assign text value =>
    exact Sound.add (sound.intern text) (.assign _ (below value (by simp)))
  | function params body =>
    have held := Arena.params?_addParams builder.arena (builder.names.internAll params).1
    exact Sound.add (sound.addParams _ _) (.function held (below body (by simp)))
  | call callee args =>
    have held := Arena.args?_addArgs builder.arena args
    exact Sound.add (sound.addArgs args) (.call (below callee (by simp)) held
      fun arg member => below arg (List.mem_cons_of_mem _ member))

end Sound

theorem Made.sound {builder : Builder} {ids : List ExprId} (made : builder.Made ids) : builder.Sound ids := by
  induction made with
  | start names => exact ⟨Arena.Ordered.empty, by simp⟩
  | call call _ known ih => exact ih.perform call known

end Builder

end ScopedEval
