import Mathlib.Data.Set.Function
import ScopedEval.Proofs.Renaming

namespace ScopedEval

def Node.name? : Node → Option Name
  | .ident name | .declare name _ | .assign name _ => some name
  | .literal _ | .print _ | .binary .. | .branch .. | .loop .. | .seq .. | .function .. | .call .. => none

def Node.rename (rename : Name → Name) : Node → Node
  | .ident name => .ident (rename name)
  | .declare name init => .declare (rename name) init
  | .assign name value => .assign (rename name) value
  | other => other

namespace Arena

def Mentions (arena : Arena) (name : Name) : Prop :=
  (∃ node ∈ arena.nodes.toList, node.name? = some name) ∨ name ∈ arena.params.toList

def rename (arena : Arena) (rename : Name → Name) : Arena :=
  ⟨arena.nodes.map (Node.rename rename), arena.args, arena.params.map rename⟩

end Arena

inductive Node.Relabelled (uses : Name → Name → Prop) : Node → Node → Prop where
  | ident {name name' : Name} : uses name name' → Relabelled uses (.ident name) (.ident name')
  | declare {name name' : Name} {init : ExprId} : uses name name' →
      Relabelled uses (.declare name init) (.declare name' init)
  | assign {name name' : Name} {value : ExprId} : uses name name' →
      Relabelled uses (.assign name value) (.assign name' value)
  | plain {node : Node} : node.name? = none → Relabelled uses node node

structure Arena.Relabelled (uses : Name → Name → Prop) (left right : Arena) : Prop where
  nodes : List.Forall₂ (Node.Relabelled uses) left.nodes.toList right.nodes.toList
  args : left.args = right.args
  params : List.Forall₂ uses left.params.toList right.params.toList

namespace Fetched

variable {α β : Type} {relates : α → β → Prop}

theorem getElem? {as : List α} {bs : List β} (all : List.Forall₂ relates as bs) (index : Nat) :
    Fetched True relates as[index]? bs[index]? := by
  induction all generalizing index with
  | nil => exact .missing trivial
  | cons head _ ih =>
    cases index with
    | zero => exact .found head
    | succ index => exact ih index

theorem slice? {left : Array α} {right : Array β} (all : List.Forall₂ relates left.toList right.toList)
    (span : Span) : Fetched True (List.Forall₂ relates) (Arena.slice? left span) (Arena.slice? right span) := by
  have size : left.size = right.size := all.length_eq
  unfold Arena.slice?
  by_cases fits : span.stop ≤ left.size
  · rw [if_pos fits, if_pos (size ▸ fits), Array.toList_extract, Array.toList_extract]
    exact .found (List.forall₂_take _ (List.forall₂_drop _ all))
  · rw [if_neg fits, if_neg (size ▸ fits)]
    exact .missing trivial

end Fetched

namespace Node.Relabelled

variable {uses : Name → Name → Prop} {node node' : Node}

theorem mono {more : Name → Name → Prop} (weaker : ∀ name name', uses name name' → more name name')
    (same : node.Relabelled uses node') : node.Relabelled more node' := by
  cases same with
  | ident used => exact .ident (weaker _ _ used)
  | declare used => exact .declare (weaker _ _ used)
  | assign used => exact .assign (weaker _ _ used)
  | plain unnamed => exact .plain unnamed

theorem flip (same : node.Relabelled uses node') : node'.Relabelled (fun b a => uses a b) node := by
  cases same with
  | ident used => exact .ident used
  | declare used => exact .declare used
  | assign used => exact .assign used
  | plain unnamed => exact .plain unnamed

theorem eq_rename {rename : Name → Name} (agrees : ∀ name name', uses name name' → rename name = name')
    (same : node.Relabelled uses node') : node.rename rename = node' := by
  cases same with
  | ident used | declare used | assign used => rw [Node.rename, agrees _ _ used]
  | plain unnamed =>
    cases node with
    | ident | declare | assign => cases unnamed
    | _ => rfl

theorem name {name : Name} (same : node.Relabelled uses node') (named : node.name? = some name) :
    ∃ name', node'.name? = some name' ∧ uses name name' := by
  cases same with
  | ident used | declare used | assign used =>
    cases named
    exact ⟨_, rfl, used⟩
  | plain unnamed => cases unnamed.symm.trans named

theorem matches_self {left right : Arena} {parts : Node.Parts} (args : left.args = right.args)
    (used : ∀ name name', uses name name' → parts.uses name name')
    (declared : ∀ name name', uses name name' → parts.declares name name')
    (children : ∀ id, parts.children id id) (functions : ∀ params body, parts.functions params body params body)
    (same : node.Relabelled uses node') : Node.Matches True left right parts node node' := by
  cases same with
  | ident shared => exact .ident (used _ _ shared)
  | declare shared => exact .declare (declared _ _ shared) (children _)
  | assign shared => exact .assign (used _ _ shared) (children _)
  | plain unnamed =>
    cases node with
    | ident | declare | assign => cases unnamed
    | literal value => exact .literal value
    | print => exact .print (children _)
    | binary op => exact .binary op (children _) (children _)
    | branch condition consequent alternative =>
      cases alternative with
      | none => exact .branch (children _) (children _)
      | some => exact .branchElse (children _) (children _) (children _)
    | loop => exact .loop (children _) (children _)
    | seq => exact .seq (children _) (children _)
    | function => exact .function (functions _ _)
    | call callee span =>
      refine .call (children _) ?_
      rw [Arena.args?, Arena.args?, args]
      apply (Fetched.same trivial _).mono
      intro ids ids' equal
      exact equal.imp fun id id' same => same ▸ children id

end Node.Relabelled

namespace Arena.Relabelled

variable {uses : Name → Name → Prop} {left right : Arena}

theorem mono {more : Name → Name → Prop} (weaker : ∀ name name', uses name name' → more name name')
    (same : left.Relabelled uses right) : left.Relabelled more right :=
  ⟨same.nodes.imp fun _ _ => .mono weaker, same.args, same.params.imp weaker⟩

theorem flip (same : left.Relabelled uses right) : right.Relabelled (fun b a => uses a b) left :=
  ⟨same.nodes.flip.imp fun _ _ => .flip, same.args.symm, same.params.flip⟩

theorem addNode (same : left.Relabelled uses right) {node node' : Node} (node_same : node.Relabelled uses node') :
    (left.addNode node).1 = (right.addNode node').1 ∧
      (left.addNode node).2.Relabelled uses (right.addNode node').2 := by
  constructor
  · exact congrArg ExprId.mk same.nodes.length_eq
  · refine ⟨?_, same.args, same.params⟩
    simp only [Arena.addNode, Array.toList_push]
    exact List.rel_append same.nodes (.cons node_same .nil)

theorem addArgs (same : left.Relabelled uses right) (ids : List ExprId) :
    (left.addArgs ids).1 = (right.addArgs ids).1 ∧
      (left.addArgs ids).2.Relabelled uses (right.addArgs ids).2 := by
  constructor
  · exact congrArg (fun args => Span.mk args.size ids.length) same.args
  · exact ⟨same.nodes, congrArg (· ++ ids.toArray) same.args, same.params⟩

theorem addParams (same : left.Relabelled uses right) {names names' : List Name}
    (used : List.Forall₂ uses names names') :
    (left.addParams names).1 = (right.addParams names').1 ∧
      (left.addParams names).2.Relabelled uses (right.addParams names').2 := by
  constructor
  · exact congrArg₂ Span.mk same.params.length_eq used.length_eq
  · refine ⟨same.nodes, same.args, ?_⟩
    simp only [Arena.addParams, Array.toList_append]
    exact List.rel_append same.params used

theorem node? (same : left.Relabelled uses right) (id : ExprId) :
    Fetched True (Node.Relabelled uses) (left.node? id) (right.node? id) := by
  rw [Arena.node?, Arena.node?, ← Array.getElem?_toList, ← Array.getElem?_toList]
  exact .getElem? same.nodes id.index

theorem params? (same : left.Relabelled uses right) (span : Span) :
    Fetched True (List.Forall₂ uses) (left.params? span) (right.params? span) :=
  .slice? same.params span

theorem mentions (same : left.Relabelled uses right) {name : Name} (mentioned : left.Mentions name) :
    ∃ name', right.Mentions name' ∧ uses name name' := by
  rcases mentioned with ⟨node, member, named⟩ | member
  · obtain ⟨node', member', related⟩ := exists_of_mem_forall₂ same.nodes member
    obtain ⟨name', named', used⟩ := related.name named
    exact ⟨name', .inl ⟨node', member', named'⟩, used⟩
  · obtain ⟨name', member', used⟩ := exists_of_mem_forall₂ same.params member
    exact ⟨name', .inr member', used⟩

theorem eq_rename (same : left.Relabelled uses right) {rename : Name → Name}
    (agrees : ∀ name name', uses name name' → rename name = name') : left.rename rename = right := by
  have nodes : left.nodes.map (Node.rename rename) = right.nodes := by
    rw [← Array.toList_inj, Array.toList_map, ← List.forall₂_eq_eq_eq, List.forall₂_map_left_iff]
    exact same.nodes.imp fun _ _ => Node.Relabelled.eq_rename agrees
  have params : left.params.map rename = right.params := by
    rw [← Array.toList_inj, Array.toList_map, ← List.forall₂_eq_eq_eq, List.forall₂_map_left_iff]
    exact same.params.imp agrees
  rw [Arena.rename, nodes, same.args, params]

theorem bijOn (same : left.Relabelled uses right) (unique : Relator.BiUnique uses) {rename : Name → Name}
    (agrees : ∀ name name', uses name name' → rename name = name') :
    Set.BijOn rename {name | left.Mentions name} {name | right.Mentions name} := by
  refine ⟨?_, ?_, ?_⟩
  · intro name mentioned
    obtain ⟨name', mentioned', used⟩ := same.mentions mentioned
    rw [agrees name name' used]
    exact mentioned'
  · intro name mentioned other mentioned' equal
    obtain ⟨_, _, used⟩ := same.mentions mentioned
    obtain ⟨_, _, used'⟩ := same.mentions mentioned'
    rw [agrees _ _ used, agrees _ _ used'] at equal
    exact unique.1 used (equal ▸ used')
  · intro name' mentioned'
    obtain ⟨name, mentioned, used⟩ := same.flip.mentions mentioned'
    exact ⟨name, mentioned, agrees name name' used⟩

end Arena.Relabelled

theorem Interner.Shares.grow {names names' more more' : Interner} (grown : names.Extends more)
    (grown' : names'.Extends more') {name name' : Name} (shares : names.Shares names' name name') :
    more.Shares more' name name' := by
  obtain ⟨text, left, right⟩ := shares
  exact ⟨text, grown.find left, grown'.find right⟩

theorem Interner.Shares.intern (names names' : Interner) (text : String) :
    (names.intern text).2.Shares (names'.intern text).2 (names.intern text).1 (names'.intern text).1 :=
  ⟨text, names.find?_intern text, names'.find?_intern text⟩

theorem Interner.Shares.internAll (names names' : Interner) (texts : List String) :
    List.Forall₂ ((names.internAll texts).2.Shares (names'.internAll texts).2) (names.internAll texts).1
      (names'.internAll texts).1 := by
  have left := List.Forall₂.flip (names.find?_internAll texts)
  have right := List.Forall₂.flip (names'.find?_internAll texts)
  exact forall₂_through left right

def Builder.Twins (left right : Builder) : Prop :=
  left.arena.Relabelled (left.names.Shares right.names) right.arena

namespace Builder.Twins

variable {left right : Builder}

theorem start (names names' : Interner) : (Builder.withNames names).Twins (.withNames names') := ⟨.nil, rfl, .nil⟩

theorem add (twins : left.Twins right) {node node' : Node}
    (same : node.Relabelled (left.names.Shares right.names) node') :
    (left.add node).1 = (right.add node').1 ∧ (left.add node).2.Twins (right.add node').2 :=
  twins.addNode same

theorem addPlain (twins : left.Twins right) {node node' : Node} (same : node = node') (unnamed : node.name? = none) :
    (left.add node).1 = (right.add node').1 ∧ (left.add node).2.Twins (right.add node').2 := by
  subst same
  exact twins.add (.plain unnamed)

theorem intern (twins : left.Twins right) (text : String) : (left.intern text).2.Twins (right.intern text).2 :=
  twins.mono fun _ _ => .grow (.intern _ text) (.intern _ text)

theorem seqFrom (twins : left.Twins right) {first first' : ExprId} (same : first = first') (rest : List ExprId) :
    (left.seqFrom first rest).1 = (right.seqFrom first' rest).1 ∧
      (left.seqFrom first rest).2.Twins (right.seqFrom first' rest).2 := by
  induction rest generalizing left right first first' with
  | nil => exact ⟨same, twins⟩
  | cons next rest ih =>
    have joined : Node.seq first next = .seq first' next := by rw [same]
    obtain ⟨id, later⟩ := twins.addPlain joined rfl
    exact ih later id

theorem function (twins : left.Twins right) {body body' : ExprId} (same : body = body') (params : List String) :
    (left.function params body).1 = (right.function params body').1 ∧
      (left.function params body).2.Twins (right.function params body').2 := by
  have grown : left.arena.Relabelled ((left.names.internAll params).2.Shares (right.names.internAll params).2)
      right.arena := twins.mono fun _ _ => .grow (.internAll _ params) (.internAll _ params)
  obtain ⟨span, later⟩ := grown.addParams (Interner.Shares.internAll left.names right.names params)
  have made : Node.function (left.arena.addParams (left.names.internAll params).1).1 body =
      .function (right.arena.addParams (right.names.internAll params).1).1 body' := by rw [span, same]
  have twins' : Twins ⟨(left.names.internAll params).2, (left.arena.addParams (left.names.internAll params).1).2⟩
      ⟨(right.names.internAll params).2, (right.arena.addParams (right.names.internAll params).1).2⟩ := later
  exact twins'.addPlain made rfl

theorem call (twins : left.Twins right) {callee callee' : ExprId} (same : callee = callee') {args args' : List ExprId}
    (sameArgs : args = args') :
    (left.call callee args).1 = (right.call callee' args').1 ∧
      (left.call callee args).2.Twins (right.call callee' args').2 := by
  subst sameArgs
  obtain ⟨span, later⟩ := twins.addArgs args
  have made : Node.call callee (left.arena.addArgs args).1 = .call callee' (right.arena.addArgs args).1 := by
    rw [span, same]
  have twins' : Twins ⟨left.names, (left.arena.addArgs args).2⟩ ⟨right.names, (right.arena.addArgs args).2⟩ := later
  exact twins'.addPlain made rfl

end Builder.Twins

namespace Tree

mutual

theorem build_twins (tree : Tree) {left right : Builder} (twins : left.Twins right) :
    (tree.build left).1 = (tree.build right).1 ∧ (tree.build left).2.Twins (tree.build right).2 := by
  cases tree with
  | literal value => exact twins.addPlain rfl rfl
  | ident text => exact (twins.intern text).add (.ident (.intern _ _ text))
  | print operand =>
    obtain ⟨id, later⟩ := build_twins operand twins
    exact later.addPlain (congrArg Node.print id) rfl
  | binary op first second =>
    obtain ⟨id, middle⟩ := build_twins first twins
    obtain ⟨id', later⟩ := build_twins second middle
    exact later.addPlain (congrArg₂ (Node.binary op) id id') rfl
  | ifThen condition consequent =>
    obtain ⟨id, middle⟩ := build_twins condition twins
    obtain ⟨id', later⟩ := build_twins consequent middle
    exact later.addPlain (congrArg₂ (Node.branch · · none) id id') rfl
  | ifElse condition consequent alternative =>
    obtain ⟨id, middle⟩ := build_twins condition twins
    obtain ⟨id', middle'⟩ := build_twins consequent middle
    obtain ⟨id'', later⟩ := build_twins alternative middle'
    exact later.addPlain (congr (congrArg₂ Node.branch id id') (congrArg some id'')) rfl
  | loop condition body =>
    obtain ⟨id, middle⟩ := build_twins condition twins
    obtain ⟨id', later⟩ := build_twins body middle
    exact later.addPlain (congrArg₂ Node.loop id id') rfl
  | seq first second =>
    obtain ⟨id, middle⟩ := build_twins first twins
    obtain ⟨id', later⟩ := build_twins second middle
    exact later.addPlain (congrArg₂ Node.seq id id') rfl
  | block first rest =>
    obtain ⟨id, middle⟩ := build_twins first twins
    obtain ⟨ids, later⟩ := buildAll_twins rest middle
    have joined := later.seqFrom id (buildAll (first.build left).2 rest).1
    simp only [build]
    rw [← ids]
    exact joined
  | declare text init =>
    obtain ⟨id, later⟩ := build_twins init twins
    have same := Interner.Shares.intern (init.build left).2.names (init.build right).2.names text
    simp only [build]
    rw [← id]
    exact (later.intern text).add (.declare same)
  | assign text value =>
    obtain ⟨id, later⟩ := build_twins value twins
    have same := Interner.Shares.intern (value.build left).2.names (value.build right).2.names text
    simp only [build]
    rw [← id]
    exact (later.intern text).add (.assign same)
  | function params body =>
    obtain ⟨id, later⟩ := build_twins body twins
    exact later.function id params
  | call callee args =>
    obtain ⟨id, middle⟩ := build_twins callee twins
    obtain ⟨ids, later⟩ := buildAll_twins args middle
    exact later.call id ids

theorem buildAll_twins (trees : List Tree) {left right : Builder} (twins : left.Twins right) :
    (buildAll left trees).1 = (buildAll right trees).1 ∧ (buildAll left trees).2.Twins (buildAll right trees).2 := by
  cases trees with
  | nil => exact ⟨rfl, twins⟩
  | cons tree rest =>
    obtain ⟨id, middle⟩ := build_twins tree twins
    obtain ⟨ids, later⟩ := buildAll_twins rest middle
    exact ⟨congrArg₂ List.cons id ids, later⟩

end

end Tree

structure Closure.Copies (left right : Code) (closure closure' : Closure) : Prop where
  stamp : closure.stamp = closure'.stamp
  params : closure.params = closure'.params
  body : closure.body = closure'.body
  scope : closure.scope = closure'.scope
  code : closure.code = left
  code' : closure'.code = right

/-- One expression of two pieces of code that differ in the names of variables only, evaluated in one frame of a
    region that holds nothing but what has been made from this code. -/
def interning (names names' : Interner) (region : FrameId → Prop) (left right : Code) : Correspondence where
  Stage := Unit
  later _ _ := True
  uses := names.Shares names'
  declares _ frame frame' name name' := frame = frame' ∧ region frame ∧ names.Shares names' name name'
  closures _ closure closure' := closure.Copies left right closure' ∧ region closure.scope
  scopes _ frame frame' := frame = frame' ∧ region frame
  exprs _ site a site' b := site.frame = site'.frame ∧ region site.frame ∧ site.code = left ∧ site'.code = right ∧ a = b
  worlds _ world world' := world.heap.Twins region (names.Shares names')
    (fun closure closure' => closure.Copies left right closure' ∧ region closure.scope) world'.heap ∧
      world.sink = world'.sink

theorem interning_read {names names' : Interner} {region : FrameId → Prop} {left right : Code}
    (same : left.arena.Relabelled (names.Shares names') right.arena) {site site' : Site} {a b : ExprId}
    (exprs : (interning names names' region left right).exprs () site a site' b) :
    Fetched True (Node.Matches True site.code.arena site'.code.arena
      ((interning names names' region left right).parts () site site')) (site.code.arena.node? a)
      (site'.code.arena.node? b) := by
  obtain ⟨code, frame⟩ := site
  obtain ⟨code', frame'⟩ := site'
  obtain ⟨rfl, inside, rfl, rfl, rfl⟩ := exprs
  apply (same.node? a).mono
  intro node node' related
  apply related.matches_self same.args
  · exact fun _ _ used => used
  · exact fun _ _ used => ⟨rfl, inside, used⟩
  · exact fun _ => ⟨rfl, inside, rfl, rfl, rfl⟩
  · rintro params body world world' ⟨heaps, sinks⟩
    exact ⟨(), trivial, ⟨⟨heaps.closures, rfl, rfl, rfl, rfl, rfl⟩, inside⟩, heaps.newClosure, sinks⟩

theorem interning_simulates {names names' : Interner} (region : FrameId → Prop) {left right : Code}
    (same : left.arena.Relabelled (names.Shares names') right.arena) :
    (interning names names' region left right).Simulates True names names' where
  later_refl _ := trivial
  later_trans _ _ := trivial
  closures_later _ copies := copies
  scopes_later _ same := same
  declares_later _ same := same
  exprs_later _ exprs := exprs
  text shares := shares.text
  declares_uses same := same.2.2
  identity left right := by simp only [Closure.same, left.1.stamp, right.1.stamp]
  scope exprs := ⟨exprs.1, exprs.2.1⟩
  read := interning_read same
  resolve worlds scopes used := by
    obtain ⟨rfl, inside⟩ := scopes
    exact worlds.1.corresponds.resolve (worlds.1.scope inside) used
  emit _ worlds := worlds
  print worlds related := ⟨worlds.1, World.sink_print related worlds.2⟩
  binds worlds same := worlds.1.corresponds.binds ⟨same.1, same.2.1⟩ same.2.2
  declare worlds same related _ := by
    obtain ⟨rfl, inside, used⟩ := same
    exact ⟨worlds.1.bind Interner.Shares.biUnique inside used related, worlds.2⟩
  assign worlds scopes used related := by
    obtain ⟨rfl, inside⟩ := scopes
    constructor
    · rw [World.heap_assign, World.heap_assign]
      exact worlds.1.assign Interner.Shares.biUnique inside used related
    · rw [World.sink_assign, World.sink_assign, worlds.2]
  arity copies := congrArg Span.length copies.1.params
  params copies := by
    obtain ⟨copies, _⟩ := copies
    rw [Closure.paramNames?, Closure.paramNames?, copies.code, copies.code', copies.params]
    exact same.params? _
  enter {stage closure closure' world world'} copies worlds := by
    obtain ⟨copies, inside⟩ := copies
    have fresh : (world.newFrame (some closure.scope)).1 = (world'.newFrame (some closure'.scope)).1 :=
      congrArg FrameId.mk worlds.1.size
    have new : region (world.newFrame (some closure.scope)).1 := worlds.1.young (Nat.le_refl _)
    refine ⟨(), trivial, ⟨?_, worlds.2⟩, ?_, fresh, new, copies.code, copies.code', copies.body⟩
    · rw [← copies.scope]
      exact worlds.1.newFrame inside
    · exact fun name name' used => ⟨fresh, new, used⟩

theorem Heap.twins_newFrame (heap : Heap) (uses : Name → Name → Prop) (relates : Closure → Closure → Prop) :
    (heap.newFrame none).2.Twins (fun id => heap.frames.size ≤ id.index) uses relates (heap.newFrame none).2 := by
  have free : ∀ id name, heap.frames.size ≤ id.index → (heap.newFrame none).2.get? id name = none := by
    intro id name new
    rw [get?_newFrame]
    split
    · rfl
    · rw [get?, frame?_of_size_le new]
      rfl
  have top : ∀ id, heap.frames.size ≤ id.index → (heap.newFrame none).2.parent? id = none := by
    intro id new
    rw [parent?_newFrame]
    split
    · rfl
    · rw [parent?, frame?_of_size_le new]
      rfl
  constructor
  · rfl
  · rfl
  · intro id last
    rw [size_newFrame] at last
    omega
  · constructor
    · intro id parent new up
      cases (top id new).symm.trans up
    · exact fun _ _ => trivial
  · exact fun _ => rfl
  · intro id name name' new _
    rw [free id name new, free id name' new]
    exact .none
  · intro id name new bound
    rw [binds, free id name new] at bound
    cases bound
  · intro id name new bound
    rw [binds, free id name new] at bound
    cases bound

/-- It cannot be observed what texts were interned before, and in what order. A tree that is laid out over two
    interners gets the same ids, with names that stand for the same texts and go together one to one; and its
    evaluations in a new global frame end alike, print the same and leave scopes that are written the same. -/
theorem interning_history_unobservable (names names' : Interner) (tree : Tree) (world : World) (stamp stamp' : Nat) :
    let laid := tree.build (.withNames names)
    let laid' := tree.build (.withNames names')
    let code : Code := ⟨stamp, laid.2.arena⟩
    let code' : Code := ⟨stamp', laid'.2.arena⟩
    let frame := (world.newFrame none).1
    let start := (world.newFrame none).2
    ∃ rename : Name → Name, laid.1 = laid'.1 ∧ code.arena.rename rename = code'.arena ∧
      Set.BijOn rename {name | code.arena.Mentions name} {name | code'.arena.Mentions name} ∧
      (∀ name, code.arena.Mentions name → laid.2.names.lookup name = laid'.2.names.lookup (rename name)) ∧
      BothOrNeither (Finishes laid.2.names ⟨code, frame⟩ laid.1 start)
        (Finishes laid'.2.names ⟨code', frame⟩ laid'.1 start)
        fun outcome after outcome' after' =>
          Outcome.Related True (Closure.Copies code code') outcome outcome' ∧ after.sink = after'.sink ∧
            after.heap.dump laid.2.names frame = after'.heap.dump laid'.2.names frame := by
  intro laid laid' code code' frame start
  obtain ⟨ids, twins⟩ := tree.build_twins (.start names names')
  have same : code.arena.Relabelled (laid.2.names.Shares laid'.2.names) code'.arena := twins
  let rename : Name → Name := fun name => (laid'.2.names.find? (laid.2.names.lookup name)).getD name
  have agrees : ∀ name name', laid.2.names.Shares laid'.2.names name name' → rename name = name' := by
    rintro name name' ⟨text, left, right⟩
    show (laid'.2.names.find? (laid.2.names.lookup name)).getD name = name'
    rw [Interner.lookup_of_find? left, right]
    rfl
  refine ⟨rename, ids, same.eq_rename agrees, same.bijOn Interner.Shares.biUnique agrees, ?_, ?_⟩
  · intro name mentioned
    obtain ⟨name', _, shares⟩ := same.mentions mentioned
    rw [agrees name name' shares, shares.text]
  · let region : FrameId → Prop := fun id => world.heap.frames.size ≤ id.index
    have inside : region frame := Nat.le_refl _
    have exprs : (interning laid.2.names laid'.2.names region code code').exprs () ⟨code, frame⟩ laid.1
        ⟨code', frame⟩ laid'.1 := ⟨rfl, inside, rfl, rfl, ids⟩
    have worlds : (interning laid.2.names laid'.2.names region code code').worlds () start start :=
      ⟨world.heap.twins_newFrame _ _, rfl⟩
    apply ((interning_simulates region same).bothOrNeither exprs worlds).mono
    rintro outcome after outcome' after' ⟨_, _, related, heaps, sinks⟩
    exact ⟨related.mono fun _ _ => And.left, sinks, heaps.dump_eq inside⟩

end ScopedEval
