import ScopedEval.Proofs.Dumping
import ScopedEval.Proofs.Regions
import ScopedEval.Proofs.Simulation
import ScopedEval.Proofs.Unfolding

namespace ScopedEval

def Interner.Shares (names names' : Interner) (name name' : Name) : Prop :=
  ∃ text, names.find? text = some name ∧ names'.find? text = some name'

namespace Interner.Shares

variable {names names' : Interner}

theorem biUnique : Relator.BiUnique (names.Shares names') := by
  constructor
  · rintro name other name' ⟨text, left, right⟩ ⟨text', left', right'⟩
    have same : text = text' := (lookup_of_find? right).symm.trans (lookup_of_find? right')
    subst same
    exact Option.some.inj (left.symm.trans left')
  · rintro name name' other ⟨text, left, right⟩ ⟨text', left', right'⟩
    have same : text = text' := (lookup_of_find? left).symm.trans (lookup_of_find? left')
    subst same
    exact Option.some.inj (right.symm.trans right')

theorem text {name name' : Name} (shares : names.Shares names' name name') :
    names.lookup name = names'.lookup name' := by
  obtain ⟨text, left, right⟩ := shares
  rw [lookup_of_find? left, lookup_of_find? right]

theorem mono {more : Interner} (grown : names'.Extends more) {name name' : Name}
    (shares : names.Shares names' name name') : names.Shares more name name' := by
  obtain ⟨text, left, right⟩ := shares
  exact ⟨text, left, grown.find right⟩

end Interner.Shares

theorem forall₂_through {α β γ : Type} {first : α → γ → Prop} {second : β → γ → Prop} {as : List α} {bs : List β}
    {cs : List γ} (left : List.Forall₂ first as cs) (right : List.Forall₂ second bs cs) :
    List.Forall₂ (fun a b => ∃ c, first a c ∧ second b c) as bs := by
  induction left generalizing bs with
  | nil =>
    cases right
    exact .nil
  | cons head _ ih =>
    cases right with
    | cons head' tail' => exact .cons ⟨_, head, head'⟩ (ih tail')

def Arena.ShowsFunction (arena : Arena) (names : Interner) (span : Span) (body : ExprId) (params : List String)
    (tree : Tree) : Prop :=
  (∃ listed, arena.params? span = some listed ∧
    List.Forall₂ (fun text name => names.find? text = some name) params listed) ∧ arena.Shows names body tree

theorem Arena.ShowsFunction.mono {arena : Arena} {names more : Interner} {span : Span} {body : ExprId}
    {params : List String} {tree : Tree} (shown : arena.ShowsFunction names span body params tree)
    (grown : names.Extends more) : arena.ShowsFunction more span body params tree := by
  obtain ⟨⟨listed, read, known⟩, inner⟩ := shown
  exact ⟨⟨listed, read, known.imp fun _ _ => grown.find⟩, inner.mono grown (.refl arena)⟩

theorem Arena.ShowsFunction.length {arena : Arena} {names : Interner} {span : Span} {body : ExprId}
    {params : List String} {tree : Tree} (shown : arena.ShowsFunction names span body params tree) :
    span.length = params.length := by
  obtain ⟨⟨listed, read, known⟩, _⟩ := shown
  have length : listed.length = span.length := slice?_length read
  rw [← length, known.length_eq]

/-- Expressions that show one tree are of one kind and have parts that show one tree. -/
theorem Arena.Shows.match_parts {names names' : Interner} {left right : Arena} {a b : ExprId} {tree : Tree}
    (first : left.Shows names a tree) (second : right.Shows names' b tree) :
    Fetched False (Node.Matches False left right
      { uses := names.Shares names'
        declares := names.Shares names'
        children := fun a b => ∃ tree, left.Shows names a tree ∧ right.Shows names' b tree
        functions := fun span body span' body' => ∃ params tree,
          left.ShowsFunction names span body params tree ∧ right.ShowsFunction names' span' body' params tree })
      (left.node? a) (right.node? b) := by
  induction first generalizing b with
  | single _ ih =>
    cases second with
    | single second => exact ih second
  | block _ ih =>
    cases second with
    | block second => exact ih second
  | literal read =>
    cases second with
    | literal read' =>
      rw [read, read']
      exact .found (.literal _)
  | ident read known =>
    cases second with
    | ident read' known' =>
      rw [read, read']
      exact .found (.ident ⟨_, known, known'⟩)
  | print read operand =>
    cases second with
    | print read' operand' =>
      rw [read, read']
      exact .found (.print ⟨_, operand, operand'⟩)
  | binary read x y =>
    cases second with
    | binary read' x' y' =>
      rw [read, read']
      exact .found (.binary _ ⟨_, x, x'⟩ ⟨_, y, y'⟩)
  | ifThen read test taken =>
    cases second with
    | ifThen read' test' taken' =>
      rw [read, read']
      exact .found (.branch ⟨_, test, test'⟩ ⟨_, taken, taken'⟩)
  | ifElse read test taken other =>
    cases second with
    | ifElse read' test' taken' other' =>
      rw [read, read']
      exact .found (.branchElse ⟨_, test, test'⟩ ⟨_, taken, taken'⟩ ⟨_, other, other'⟩)
  | loop read test body =>
    cases second with
    | loop read' test' body' =>
      rw [read, read']
      exact .found (.loop ⟨_, test, test'⟩ ⟨_, body, body'⟩)
  | seq read x y =>
    cases second with
    | seq read' x' y' =>
      rw [read, read']
      exact .found (.seq ⟨_, x, x'⟩ ⟨_, y, y'⟩)
  | declare read known init =>
    cases second with
    | declare read' known' init' =>
      rw [read, read']
      exact .found (.declare ⟨_, known, known'⟩ ⟨_, init, init'⟩)
  | assign read known source =>
    cases second with
    | assign read' known' source' =>
      rw [read, read']
      exact .found (.assign ⟨_, known, known'⟩ ⟨_, source, source'⟩)
  | function read listed known body =>
    cases second with
    | function read' listed' known' body' =>
      rw [read, read']
      exact .found (.function ⟨_, _, ⟨⟨_, listed, known⟩, body⟩, ⟨_, listed', known'⟩, body'⟩)
  | call read args length callee each =>
    cases second with
    | call read' args' length' callee' each' =>
      rw [read, read']
      refine .found (.call ⟨_, callee, callee'⟩ ?_)
      rw [args, args']
      have all := List.forall₂_iff_zip.mpr ⟨length, fun {arg tree} => each arg tree⟩
      have all' := List.forall₂_iff_zip.mpr ⟨length', fun {arg tree} => each' arg tree⟩
      exact .found (forall₂_through all all')

structure Closure.Twin (names names' : Interner) (left right : Closure) : Prop where
  stamp : left.stamp = right.stamp
  scope : left.scope = right.scope
  shown : ∃ params tree, left.code.arena.ShowsFunction names left.params left.body params tree ∧
    right.code.arena.ShowsFunction names' right.params right.body params tree

theorem Closure.Twin.mono {names names' more : Interner} {left right : Closure} (twin : left.Twin names names' right)
    (grown : names'.Extends more) : left.Twin names more right := by
  obtain ⟨params, tree, shown, shown'⟩ := twin.shown
  exact ⟨twin.stamp, twin.scope, params, tree, shown, shown'.mono grown⟩

theorem Heap.distinct_of_known {names : Interner} {heap : Heap} {id : FrameId} {frame : Frame}
    (held : heap.frame? id = some frame)
    (known : ∀ name, heap.binds id name = true → ∃ text, names.find? text = some name) : frame.Distinct names := by
  have bound : ∀ {name value}, frame.bindings.get? name = some value → heap.binds id name = true := by
    intro name value read
    rw [binds, get?, held, Option.bind_some, read]
    rfl
  intro name other value value' read read' same
  obtain ⟨text, found⟩ := known name (bound read)
  obtain ⟨text', found'⟩ := known other (bound read')
  rw [Interner.lookup_of_find? found, Interner.lookup_of_find? found'] at same
  subst same
  exact Option.some.inj (found.symm.trans found')

/-- Heaps that hold the same in a region, up to a relabelling of the names and a relation of the closures. The
    region is closed under the frames around a frame and takes in all frames to come. -/
structure Heap.Twins (region : FrameId → Prop) (uses : Name → Name → Prop) (relates : Closure → Closure → Prop)
    (left right : Heap) : Prop where
  size : left.frames.size = right.frames.size
  closures : left.closures = right.closures
  young {id : FrameId} : left.frames.size ≤ id.index → region id
  closed : left.Closed region fun _ => True
  parent {id : FrameId} : region id → left.parent? id = right.parent? id
  get {id : FrameId} {name name' : Name} : region id → uses name name' →
    Option.Rel (Value.Related relates) (left.get? id name) (right.get? id name')
  known : left.Named region fun _ name => ∃ name', uses name name'
  known' : right.Named region fun _ name' => ∃ name, uses name name'

namespace Heap.Twins

variable {region : FrameId → Prop} {uses : Name → Name → Prop} {relates : Closure → Closure → Prop}
  {left right : Heap}

theorem biUnique_region : Relator.BiUnique fun id id' : FrameId => id = id' ∧ region id := by
  constructor
  · rintro id other id' ⟨rfl, _⟩ ⟨rfl, _⟩
    rfl
  · rintro id id' other ⟨rfl, _⟩ ⟨rfl, _⟩
    rfl

theorem corresponds (twins : left.Twins region uses relates right) :
    Corresponds (fun id id' => id = id' ∧ region id) uses relates left right where
  held same := by rw [same.1, twins.size]
  get same used := by
    obtain ⟨rfl, inside⟩ := same
    exact twins.get inside used

theorem scope (twins : left.Twins region uses relates right) {id : FrameId} (inside : region id) :
    SameScope (fun id id' => id = id' ∧ region id) (fun _ => true) left right id id :=
  twins.closed.sameScope twins.parent inside

theorem target (twins : left.Twins region uses relates right) {id : FrameId} {name name' : Name} (inside : region id)
    (used : uses name name') : left.target id name = right.target id name' ∧ region (left.target id name) :=
  (twins.scope inside).target fun same => twins.corresponds.binds same used

theorem bind (twins : left.Twins region uses relates right) (unique : Relator.BiUnique uses) {id : FrameId}
    {name name' : Name} {value value' : Value} (inside : region id) (used : uses name name')
    (related : Value.Related relates value value') :
    (left.bind id name value).Twins region uses relates (right.bind id name' value') := by
  have same := twins.corresponds.bind biUnique_region unique ⟨rfl, inside⟩ used related
  constructor
  · rw [size_bind, size_bind, twins.size]
  · exact twins.closures
  · intro other last
    rw [size_bind] at last
    exact twins.young last
  · exact twins.closed.bind id name fun _ _ => trivial
  · intro other around
    rw [parent?_bind, parent?_bind, twins.parent around]
  · intro other key key' around used
    exact same.get ⟨rfl, around⟩ used
  · exact Named.bind twins.known value fun _ => ⟨name', used⟩
  · exact Named.bind twins.known' value' fun _ => ⟨name, used⟩

theorem newFrame (twins : left.Twins region uses relates right) {outer : FrameId} (inside : region outer) :
    (left.newFrame (some outer)).2.Twins region uses relates (right.newFrame (some outer)).2 := by
  have fresh : (⟨left.frames.size⟩ : FrameId) = ⟨right.frames.size⟩ := congrArg FrameId.mk twins.size
  have new : region ⟨left.frames.size⟩ := twins.young (Nat.le_refl _)
  have same := twins.corresponds.newFrame biUnique_region ⟨fresh, new⟩ (some outer) (some outer)
  constructor
  · rw [size_newFrame, size_newFrame, twins.size]
  · exact twins.closures
  · intro id last
    rw [size_newFrame] at last
    exact twins.young (by omega)
  · apply twins.closed.newFrame
    intro other same
    cases same
    exact inside
  · intro id around
    rw [parent?_newFrame, parent?_newFrame, twins.size, twins.parent around]
  · intro id name name' around used
    exact same.get ⟨rfl, around⟩ used
  · exact Named.newFrame twins.known _
  · exact Named.newFrame twins.known' _

theorem assign (twins : left.Twins region uses relates right) (unique : Relator.BiUnique uses) {id : FrameId}
    {name name' : Name} {value value' : Value} (inside : region id) (used : uses name name')
    (related : Value.Related relates value value') :
    (left.bind (left.target id name) name value).Twins region uses relates
      (right.bind (right.target id name') name' value') := by
  obtain ⟨target, around⟩ := twins.target inside used
  rw [← target]
  exact twins.bind unique around used related

theorem newClosure (twins : left.Twins region uses relates right) :
    Twins region uses relates { left with closures := left.closures + 1 }
      { right with closures := right.closures + 1 } :=
  { twins with
    closures := congrArg (· + 1) twins.closures
    closed := ⟨twins.closed.parent, twins.closed.closure⟩ }

theorem mono (twins : left.Twins region uses relates right) {uses' : Name → Name → Prop}
    {relates' : Closure → Closure → Prop} (unique : Relator.BiUnique uses')
    (more : ∀ {name name'}, uses name name' → uses' name name')
    (weaker : ∀ closure closure', relates closure closure' → relates' closure closure') :
    left.Twins region uses' relates' right where
  size := twins.size
  closures := twins.closures
  young := twins.young
  closed := twins.closed
  parent := twins.parent
  get {id name name'} inside used := by
    by_cases old : uses name name'
    · have read := twins.get inside old
      generalize left.get? id name = value at read
      generalize right.get? id name' = value' at read
      cases read with
      | none => exact .none
      | some related => exact .some (related.mono weaker)
    · have free : left.get? id name = none := by
        rw [← Option.not_isSome_iff_eq_none]
        intro bound
        obtain ⟨other, shared⟩ := twins.known inside bound
        cases unique.2 used (more shared)
        exact old shared
      have free' : right.get? id name' = none := by
        rw [← Option.not_isSome_iff_eq_none]
        intro bound
        obtain ⟨other, shared⟩ := twins.known' inside bound
        cases unique.1 used (more shared)
        exact old shared
      rw [free, free']
      exact .none
  known inside bound := by
    obtain ⟨name', used⟩ := twins.known inside bound
    exact ⟨name', more used⟩
  known' inside bound := by
    obtain ⟨name, used⟩ := twins.known' inside bound
    exact ⟨name, more used⟩

theorem partner (twins : left.Twins region uses relates right) {id : FrameId} {name : Name} {value : Value}
    (inside : region id) (read : left.get? id name = some value) :
    ∃ name' value', uses name name' ∧ right.get? id name' = some value' ∧ Value.Related relates value value' := by
  obtain ⟨name', used⟩ := twins.known inside (Option.isSome_of_eq_some read)
  have same := twins.get inside used
  rw [read] at same
  generalize stored : right.get? id name' = result at same
  cases same with
  | some related => exact ⟨name', _, used, stored, related⟩

theorem partner' (twins : left.Twins region uses relates right) {id : FrameId} {name' : Name} {value' : Value}
    (inside : region id) (read : right.get? id name' = some value') :
    ∃ name value, uses name name' ∧ left.get? id name = some value ∧ Value.Related relates value value' := by
  obtain ⟨name, used⟩ := twins.known' inside (Option.isSome_of_eq_some read)
  have same := twins.get inside used
  rw [read] at same
  generalize stored : left.get? id name = result at same
  cases same with
  | some related => exact ⟨name, _, used, stored, related⟩

theorem lists_iff {names names' : Interner} (twins : left.Twins region (names.Shares names') relates right)
    {id : FrameId} (inside : region id) {frame frame' : Frame} (held : left.frame? id = some frame)
    (held' : right.frame? id = some frame') (text shown : String) :
    frame.Lists names text shown ↔ frame'.Lists names' text shown := by
  have read : ∀ name, left.get? id name = frame.bindings.get? name := fun name => by rw [get?, held, Option.bind_some]
  have read' : ∀ name, right.get? id name = frame'.bindings.get? name := fun name => by
    rw [get?, held', Option.bind_some]
  constructor
  · rintro ⟨name, value, bound, rfl, rfl⟩
    rw [← read] at bound
    obtain ⟨name', value', shared, bound', related⟩ := twins.partner inside bound
    rw [read'] at bound'
    exact ⟨name', value', bound', shared.text.symm, related.text.symm⟩
  · rintro ⟨name', value', bound', rfl, rfl⟩
    rw [← read'] at bound'
    obtain ⟨name, value, shared, bound, related⟩ := twins.partner' inside bound'
    rw [read] at bound
    exact ⟨name, value, bound, shared.text, related.text⟩

theorem dump_eq {names names' : Interner} (twins : left.Twins region (names.Shares names') relates right)
    {id : FrameId} (inside : region id) : left.dump names id = right.dump names' id := by
  apply Heap.dump_congr (twins.closed.chain_congr twins.parent inside)
  intro other member
  have around : region other := twins.closed.chain inside member
  by_cases made : other.index < left.frames.size
  · obtain ⟨frame, held⟩ : ∃ frame, left.frame? other = some frame := ⟨_, Array.getElem?_eq_getElem made⟩
    obtain ⟨frame', held'⟩ : ∃ frame', right.frame? other = some frame' :=
      ⟨_, Array.getElem?_eq_getElem (twins.size ▸ made)⟩
    rw [held, held', Option.map_some, Option.map_some]
    congr 1
    apply Frame.dump_congr _ _ (twins.lists_iff around held held')
    · apply distinct_of_known held
      intro name bound
      obtain ⟨_, text, found, _⟩ := twins.known around bound
      exact ⟨text, found⟩
    · apply distinct_of_known held'
      intro name bound
      obtain ⟨_, text, _, found⟩ := twins.known' around bound
      exact ⟨text, found⟩
  · have free : left.frame? other = none := Array.getElem?_eq_none (Nat.not_lt.mp made)
    have free' : right.frame? other = none := Array.getElem?_eq_none (twins.size ▸ Nat.not_lt.mp made)
    rw [free, free', Option.map_none, Option.map_none]

end Heap.Twins

structure World.Twins (names names' : Interner) (region : FrameId → Prop) (left right : World) : Prop where
  heap : left.heap.Twins region (names.Shares names')
    (fun closure closure' => closure.Twin names names' closure' ∧ region closure.scope) right.heap
  sink : left.sink = right.sink

namespace World.Twins

variable {names names' : Interner} {region : FrameId → Prop} {left right : World}

theorem mono (twins : Twins names names' region left right) {more : Interner} (grown : names'.Extends more) :
    Twins names more region left right := by
  refine ⟨twins.heap.mono Interner.Shares.biUnique (·.mono grown) ?_, twins.sink⟩
  exact fun _ _ ⟨twin, inside⟩ => ⟨twin.mono grown, inside⟩

theorem leaveProgram (twins : Twins names names' region left right) (outcome : Outcome) :
    Twins names names' region (left.leaveProgram outcome) right := by
  constructor
  · rw [World.heap_leaveProgram]
    exact twins.heap
  · rw [World.sink_leaveProgram, twins.sink]

theorem leaveProgram' (twins : Twins names names' region left right) (outcome : Outcome) :
    Twins names names' region left (right.leaveProgram outcome) := by
  constructor
  · rw [World.heap_leaveProgram]
    exact twins.heap
  · rw [World.sink_leaveProgram, twins.sink]

end World.Twins

def relabelling (names names' : Interner) (region : FrameId → Prop) : Correspondence where
  Stage := Unit
  later _ _ := True
  uses := names.Shares names'
  declares _ frame frame' name name' := frame = frame' ∧ region frame ∧ names.Shares names' name name'
  closures _ closure closure' := closure.Twin names names' closure' ∧ region closure.scope
  scopes _ frame frame' := frame = frame' ∧ region frame
  exprs _ site a site' b := site.frame = site'.frame ∧ region site.frame ∧
    ∃ tree, site.code.arena.Shows names a tree ∧ site'.code.arena.Shows names' b tree
  worlds _ := World.Twins names names' region

theorem relabelling_values_mono {names names' more : Interner} {region : FrameId → Prop} {value value' : Value}
    (related : (relabelling names names' region).values () value value') (grown : names'.Extends more) :
    (relabelling names more region).values () value value' :=
  Value.Related.mono (fun _ _ ⟨twin, inside⟩ => ⟨twin.mono grown, inside⟩) related

theorem relabelling_read {names names' : Interner} {region : FrameId → Prop} {site site' : Site} {a b : ExprId}
    (exprs : (relabelling names names' region).exprs () site a site' b) :
    Fetched False (Node.Matches False site.code.arena site'.code.arena
      ((relabelling names names' region).parts () site site')) (site.code.arena.node? a) (site'.code.arena.node? b) := by
  obtain ⟨frame, inside, tree, shown, shown'⟩ := exprs
  apply (shown.match_parts shown').mono
  intro node node' same
  apply same.mono
  · exact fun _ _ used => used
  · exact fun _ _ declared => ⟨frame, inside, declared⟩
  · exact fun _ _ child => ⟨frame, inside, child⟩
  · intro params body params' body' both world world' worlds
    exact ⟨(), trivial, ⟨⟨worlds.heap.closures, frame, both⟩, inside⟩, worlds.heap.newClosure, worlds.sink⟩

theorem relabelling_simulates (names names' : Interner) (region : FrameId → Prop) :
    (relabelling names names' region).Simulates False names names' where
  later_refl _ := trivial
  later_trans _ _ := trivial
  closures_later _ twin := twin
  scopes_later _ same := same
  declares_later _ same := same
  exprs_later _ exprs := exprs
  text shares := shares.text
  declares_uses same := same.2.2
  identity left right := by simp only [Closure.same, left.1.stamp, right.1.stamp]
  scope exprs := ⟨exprs.1, exprs.2.1⟩
  read := relabelling_read
  resolve worlds scopes used := by
    obtain ⟨rfl, inside⟩ := scopes
    exact worlds.heap.corresponds.resolve (worlds.heap.scope inside) used
  emit _ worlds := ⟨worlds.heap, worlds.sink⟩
  print worlds related := ⟨worlds.heap, World.sink_print related worlds.sink⟩
  binds worlds same := worlds.heap.corresponds.binds ⟨same.1, same.2.1⟩ same.2.2
  declare worlds same related _ := by
    obtain ⟨rfl, inside, used⟩ := same
    exact ⟨worlds.heap.bind Interner.Shares.biUnique inside used related, worlds.sink⟩
  assign worlds scopes used related := by
    obtain ⟨rfl, inside⟩ := scopes
    constructor
    · rw [World.heap_assign, World.heap_assign]
      exact worlds.heap.assign Interner.Shares.biUnique inside used related
    · rw [World.sink_assign, World.sink_assign, worlds.sink]
  arity twin := by
    obtain ⟨params, tree, shown, shown'⟩ := twin.1.shown
    exact shown.length.trans shown'.length.symm
  params twin := by
    obtain ⟨params, tree, ⟨⟨listed, read, known⟩, _⟩, ⟨listed', read', known'⟩, _⟩ := twin.1.shown
    rw [Closure.paramNames?, Closure.paramNames?, read, read']
    exact .found (forall₂_through (List.Forall₂.flip known) (List.Forall₂.flip known'))
  enter {stage closure closure' world world'} twin worlds := by
    obtain ⟨twin, inside⟩ := twin
    obtain ⟨params, tree, shown, shown'⟩ := twin.shown
    have fresh : (world.newFrame (some closure.scope)).1 = (world'.newFrame (some closure'.scope)).1 :=
      congrArg FrameId.mk worlds.heap.size
    have new : region (world.newFrame (some closure.scope)).1 := worlds.heap.young (Nat.le_refl _)
    refine ⟨(), trivial, ⟨?_, worlds.sink⟩, ?_, fresh, new, tree, shown.2, shown'.2⟩
    · rw [← twin.scope]
      exact worlds.heap.newFrame inside
    · exact fun name name' used => ⟨fresh, new, used⟩

end ScopedEval
