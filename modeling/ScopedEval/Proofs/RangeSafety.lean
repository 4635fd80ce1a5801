import Mathlib.Logic.Relation
import ScopedEval.Proofs.Heaps
import ScopedEval.Proofs.OwnLevel
import ScopedEval.Proofs.Simulation
import ScopedEval.Session

namespace ScopedEval

structure Closure.InRange (closure : Closure) : Prop where
  ordered : closure.code.arena.Ordered
  body : closure.body.index < closure.code.arena.size
  params : ∃ names, closure.paramNames? = some names

def Value.InRange (value : Value) : Prop := ∀ closure, value = .function closure → closure.InRange

def Heap.InRange (heap : Heap) : Prop := ∀ id name value, heap.get? id name = some value → value.InRange

namespace Heap.InRange

variable {heap : Heap}

theorem empty : Heap.empty.InRange := by
  intro id name value read
  cases read

theorem bind (inRange : heap.InRange) (id : FrameId) (name : Name) {value : Value} (valid : value.InRange) :
    (heap.bind id name value).InRange := by
  intro other key held read
  rw [get?_bind] at read
  split at read
  · cases read
    exact valid
  · exact inRange other key held read

theorem newFrame (inRange : heap.InRange) (parent : Option FrameId) : (heap.newFrame parent).2.InRange := by
  intro id name value read
  rw [get?_newFrame] at read
  split at read
  · cases read
  · exact inRange id name value read

theorem resolve (inRange : heap.InRange) (id : FrameId) (name : Name) : (heap.resolve id name).InRange := by
  intro closure same
  unfold Heap.resolve at same
  rw [lookup_eq_findSome?] at same
  cases found : (heap.chain id).findSome? fun frame => heap.get? frame name with
  | none =>
    rw [found] at same
    cases same
  | some value =>
    rw [found] at same
    obtain ⟨frame, _, read⟩ := List.exists_of_findSome?_eq_some found
    exact inRange frame name value read closure same

end Heap.InRange

/-- An evaluation beside itself, at expressions and in worlds where everything is in range. -/
def inRange : Correspondence where
  Stage := Unit
  later _ _ := True
  uses := Eq
  declares _ frame frame' name name' := frame = frame' ∧ name = name'
  closures _ closure closure' := closure = closure' ∧ closure.InRange
  scopes _ := Eq
  exprs _ site a site' b :=
    site = site' ∧ a = b ∧ site.code.arena.Ordered ∧ a.index < site.code.arena.size
  worlds _ world world' := world = world' ∧ world.heap.InRange

theorem Value.InRange.related {value : Value} (valid : value.InRange) :
    inRange.values () value value := by
  cases value with
  | int value => exact .int value
  | bool value => exact .bool value
  | null => exact .null
  | function closure => exact .function ⟨rfl, valid closure rfl⟩

theorem Value.InRange.of_related {value value' : Value} (related : inRange.values () value value') :
    value = value' ∧ value.InRange := by
  cases related with
  | function same =>
    obtain ⟨rfl, valid⟩ := same
    refine ⟨rfl, fun closure same => ?_⟩
    cases same
    exact valid
  | _ => exact ⟨rfl, fun closure same => by cases same⟩

theorem Arena.Ordered.matches_self {site : Site} (ordered : site.code.arena.Ordered) {id : ExprId} {node : Node}
    (read : site.code.arena.node? id = some node) (inside : id.index < site.code.arena.size) :
    Node.Matches False site.code.arena site.code.arena (inRange.parts () site site) node node := by
  have fits := ordered id node read
  apply Node.Matches.self read
  · exact fun name => rfl
  · exact fun name init same => ⟨rfl, rfl⟩
  · intro child step
    exact ⟨rfl, rfl, ordered, Nat.lt_trans (ordered.child_lt step) inside⟩
  · rintro params body rfl world _ ⟨rfl, valid⟩
    cases fits with
    | function named below =>
      exact ⟨(), trivial, ⟨rfl, ordered, Nat.lt_trans below inside, _, named⟩, rfl, valid⟩
  · rintro callee args rfl absent
    cases fits with
    | call _ present => cases present.symm.trans absent

theorem inRange_simulates (names : Interner) : inRange.Simulates False names names where
  later_refl _ := trivial
  later_trans _ _ := trivial
  closures_later _ same := same
  scopes_later _ same := same
  declares_later _ same := same
  exprs_later _ exprs := exprs
  text same := by rw [same]
  declares_uses same := same.2
  identity left right := by rw [left.1, right.1]
  scope exprs := congrArg Site.frame exprs.1
  read {stage site site' a b} exprs := by
    obtain ⟨rfl, rfl, ordered, below⟩ := exprs
    have held := site.code.arena.node?_isSome a
    cases read : site.code.arena.node? a with
    | none => simp [read, below] at held
    | some node => exact .found (ordered.matches_self read below)
  resolve worlds same used := by
    obtain ⟨rfl, valid⟩ := worlds
    subst same used
    exact (valid.resolve _ _).related
  emit event worlds := ⟨by rw [worlds.1], worlds.2⟩
  print worlds related := by
    obtain ⟨rfl, valid⟩ := worlds
    obtain ⟨rfl, _⟩ := Value.InRange.of_related related
    exact ⟨rfl, valid⟩
  binds worlds same := by rw [worlds.1, same.1, same.2]
  declare worlds same related _ := by
    obtain ⟨rfl, valid⟩ := worlds
    obtain ⟨rfl, rfl⟩ := same
    obtain ⟨rfl, held⟩ := Value.InRange.of_related related
    exact ⟨rfl, valid.bind _ _ held⟩
  assign {stage world world' frame frame' name name' value value'} worlds same used related := by
    obtain ⟨rfl, valid⟩ := worlds
    subst same used
    obtain ⟨rfl, held⟩ := Value.InRange.of_related related
    refine ⟨rfl, ?_⟩
    rw [World.heap_assign]
    exact valid.bind _ _ held
  arity same := by rw [same.1]
  params {stage closure closure'} same := by
    obtain ⟨rfl, valid⟩ := same
    obtain ⟨params, read⟩ := valid.params
    have same : List.Forall₂ Eq params params := List.forall₂_refl params
    rw [read]
    exact .found same
  enter same worlds := by
    obtain ⟨rfl, valid⟩ := same
    obtain ⟨rfl, held⟩ := worlds
    exact ⟨(), trivial, ⟨rfl, held.newFrame _⟩, fun name name' used => ⟨rfl, used⟩, rfl, rfl,
      valid.ordered, valid.body⟩

structure EndsInRange (outcome : Outcome) (heap : Heap) : Prop where
  inside : outcome ≠ .outOfRange
  value : ∀ value, outcome = .value value → value.InRange
  heap : heap.InRange

theorem Finishes.inRange {names : Interner} {site : Site} {id : ExprId} {world after : World} {outcome : Outcome}
    (finishes : Finishes names site id world outcome after) (ordered : site.code.arena.Ordered)
    (below : id.index < site.code.arena.size) (valid : world.heap.InRange) :
    EndsInRange outcome after.heap := by
  have exprs : ScopedEval.inRange.exprs () site id site id := ⟨rfl, rfl, ordered, below⟩
  have worlds : ScopedEval.inRange.worlds () world world := ⟨rfl, valid⟩
  obtain ⟨_, outcome', after', _, _, related, _, held⟩ :=
    (inRange_simulates names).follows finishes.evaluates (.expr exprs) worlds
  cases related with
  | outOfRange gap => exact gap.elim
  | failure failure => exact ⟨by simp, by simp, held⟩
  | value same =>
    refine ⟨by simp, fun value same' => ?_, held⟩
    cases same'
    exact (Value.InRange.of_related same).2

namespace Session

variable {session after : Session} {fuel : Nat} {site : Site} {outcome : Outcome}

theorem evaluate_inRange {id : ExprId} (ran : session.evaluate fuel site id = some (outcome, after))
    (ordered : site.code.arena.Ordered) (below : id.index < site.code.arena.size)
    (valid : session.heap.InRange) : EndsInRange outcome after.heap := by
  obtain ⟨⟨outcome', world⟩, ended, same⟩ := Option.map_eq_some_iff.mp ran
  cases same
  have finishes : Finishes session.names site id session.world outcome world := ⟨fuel, ended⟩
  exact finishes.inRange ordered below valid

theorem run_inRange {root : Option ExprId} (ran : session.run fuel site root = some (outcome, after))
    (ordered : site.code.arena.Ordered) (below : ∀ id ∈ root, id.index < site.code.arena.size)
    (valid : session.heap.InRange) : EndsInRange outcome after.heap := by
  obtain ⟨⟨outcome', world⟩, ended, same⟩ := Option.map_eq_some_iff.mp ran
  cases same
  cases root with
  | none =>
    cases ended
    refine ⟨by simp, fun value same => ?_, valid⟩
    cases same
    exact fun closure same => by cases same
  | some id =>
    obtain ⟨⟨outcome', world'⟩, evaluated, same⟩ := Option.map_eq_some_iff.mp ended
    cases same
    have finishes : Finishes session.names site id (session.world.emit .enterProgram) outcome world' :=
      ⟨fuel, evaluated⟩
    have ends := finishes.inRange ordered (below id rfl) valid
    refine ⟨ends.inside, ends.value, ?_⟩
    rw [Session.heap, World.heap_leaveProgram]
    exact ends.heap

theorem declare_inRange {frame : FrameId} {text : String} {value : Value} (valid : session.heap.InRange)
    (held : value.InRange) : (session.declare frame text value).2.heap.InRange := by
  unfold Session.declare
  simp only
  split
  · exact valid
  · exact valid.bind _ _ held

theorem assign_inRange {frame : FrameId} {text : String} {value : Value} (valid : session.heap.InRange)
    (held : value.InRange) : (session.assign frame text value).heap.InRange := by
  unfold Session.assign Session.heap
  rw [World.heap_assign]
  exact valid.bind _ _ held

end Session

theorem State.Reaches.finishes_outOfRange {names : Interner} {site : Site} {id : ExprId} {world : World}
    {state : State} (reaches : State.Reaches names (.eval id site [] world) state)
    (delivers : state.control = .deliver .outOfRange) :
    ∃ after, Finishes names site id world .outOfRange after := by
  obtain ⟨control, site', stack, world'⟩ := state
  cases delivers
  obtain ⟨fuel, after, ended, _⟩ := State.run_abort names (rfl : Outcome.outOfRange.aborts = true) site' stack world'
  exact ⟨after, reaches.run_eq ended⟩

/-- A session together with what its user has got hold of: environments, values, and programs with the
    expressions that may be evaluated in them. -/
structure Host where
  session : Session
  frames : List FrameId
  values : List Value
  programs : List (Code × List ExprId)

namespace Host

def new (sink : Sink) : Host := ⟨.new sink, [], [], []⟩

def build (host : Host) (builder : Builder) (ids : List ExprId) : Host :=
  let (code, session) := host.session.freeze builder.arena
  { host with session := { session with names := builder.names }, programs := (code, ids) :: host.programs }

def newFrame (host : Host) (parent : Option FrameId) : Host :=
  let (frame, session) := host.session.newFrame parent
  { host with session := session, frames := frame :: host.frames }

def resolve (host : Host) (frame : FrameId) (text : String) : Host :=
  let (value, session) := host.session.resolve frame text
  { host with session := session, values := value :: host.values }

def resume (host : Host) (outcome : Outcome) (session : Session) : Host :=
  match outcome with
  | .value value => { host with session := session, values := value :: host.values }
  | .failure _ | .outOfRange => { host with session := session }

/-- One thing a user can do. Programs are built from their own expressions, and nothing is used that the
    user has not got hold of before. -/
inductive Step : Host → Host → Prop where
  | build {host : Host} {builder : Builder} {ids : List ExprId} : builder.Made ids →
      Step host (host.build builder ids)
  | newFrame {host : Host} : Step host (host.newFrame none)
  | child {host : Host} {frame : FrameId} : frame ∈ host.frames → Step host (host.newFrame (some frame))
  | captured {host : Host} {closure : Closure} : .function closure ∈ host.values →
      Step host { host with frames := closure.scope :: host.frames }
  | resolve {host : Host} {frame : FrameId} (text : String) : frame ∈ host.frames →
      Step host (host.resolve frame text)
  | declare {host : Host} {frame : FrameId} {value : Value} (text : String) : frame ∈ host.frames →
      value ∈ host.values → Step host { host with session := (host.session.declare frame text value).2 }
  | assign {host : Host} {frame : FrameId} {value : Value} (text : String) : frame ∈ host.frames →
      value ∈ host.values → Step host { host with session := host.session.assign frame text value }
  | evaluate {host : Host} {code : Code} {ids : List ExprId} {id : ExprId} {frame : FrameId} {fuel : Nat}
      {outcome : Outcome} {session : Session} : (code, ids) ∈ host.programs → id ∈ ids →
      frame ∈ host.frames → host.session.evaluate fuel ⟨code, frame⟩ id = some (outcome, session) →
      Step host (host.resume outcome session)
  | run {host : Host} {code : Code} {ids : List ExprId} {root : Option ExprId} {frame : FrameId} {fuel : Nat}
      {outcome : Outcome} {session : Session} : (code, ids) ∈ host.programs → (∀ id ∈ root, id ∈ ids) →
      frame ∈ host.frames → host.session.run fuel ⟨code, frame⟩ root = some (outcome, session) →
      Step host (host.resume outcome session)

structure InRange (host : Host) : Prop where
  heap : host.session.heap.InRange
  values : ∀ value ∈ host.values, value.InRange
  programs : ∀ code ids, (code, ids) ∈ host.programs →
    code.arena.Ordered ∧ ∀ id ∈ ids, id.index < code.arena.size

namespace InRange

theorem new (sink : Sink) : (Host.new sink).InRange := by
  refine ⟨Heap.InRange.empty, ?_, ?_⟩
  · intro value member
    cases member
  · intro code ids member
    cases member

theorem resume {host : Host} (valid : host.InRange) {outcome : Outcome} {session : Session}
    (ends : EndsInRange outcome session.heap) : (host.resume outcome session).InRange := by
  cases outcome with
  | value result =>
    refine ⟨ends.heap, fun value member => ?_, valid.programs⟩
    rcases List.mem_cons.mp member with rfl | member
    · exact ends.value _ rfl
    · exact valid.values value member
  | failure | outOfRange => exact ⟨ends.heap, valid.values, valid.programs⟩

theorem step {host next : Host} (valid : host.InRange) (step : Step host next) : next.InRange := by
  cases step with
  | @build builder ids made =>
    refine ⟨valid.heap, valid.values, fun code ids' member => ?_⟩
    rcases List.mem_cons.mp member with same | member
    · cases same
      exact ⟨made.sound.ordered, made.sound.below⟩
    · exact valid.programs code ids' member
  | newFrame => exact ⟨valid.heap.newFrame _, valid.values, valid.programs⟩
  | child => exact ⟨valid.heap.newFrame _, valid.values, valid.programs⟩
  | captured => exact ⟨valid.heap, valid.values, valid.programs⟩
  | resolve text =>
    refine ⟨valid.heap, fun value member => ?_, valid.programs⟩
    rcases List.mem_cons.mp member with rfl | member
    · exact valid.heap.resolve _ _
    · exact valid.values value member
  | declare text _ member =>
    exact ⟨Session.declare_inRange valid.heap (valid.values _ member), valid.values, valid.programs⟩
  | assign text _ member =>
    exact ⟨Session.assign_inRange valid.heap (valid.values _ member), valid.values, valid.programs⟩
  | evaluate program member _ ran =>
    obtain ⟨ordered, below⟩ := valid.programs _ _ program
    exact valid.resume (Session.evaluate_inRange ran ordered (below _ member) valid.heap)
  | run program members _ ran =>
    obtain ⟨ordered, below⟩ := valid.programs _ _ program
    exact valid.resume (Session.run_inRange ran ordered (fun id root => below id (members id root)) valid.heap)

theorem reached {sink : Sink} {host : Host} (reached : Relation.ReflTransGen Step (Host.new sink) host) :
    host.InRange := by
  induction reached with
  | refl => exact .new sink
  | tail _ step ih => exact ih.step step

end InRange

end Host

/-- However a session got to where it is, an expression of a program that was built from its own
    expressions ends in a value or a failure, and no evaluation of it, even one that never ends, gets to
    a read outside the code. -/
theorem built_programs_stay_in_range {sink : Sink} {host : Host}
    (reached : Relation.ReflTransGen Host.Step (.new sink) host) {code : Code} {ids : List ExprId} {id : ExprId}
    (program : (code, ids) ∈ host.programs) (member : id ∈ ids) (frame : FrameId) :
    (∀ fuel outcome session, host.session.evaluate fuel ⟨code, frame⟩ id = some (outcome, session) →
      outcome ≠ .outOfRange) ∧
    (∀ fuel outcome session, host.session.run fuel ⟨code, frame⟩ (some id) = some (outcome, session) →
      outcome ≠ .outOfRange) ∧
    ∀ state, State.Reaches host.session.names (.eval id ⟨code, frame⟩ [] host.session.world) state →
      state.control ≠ .deliver .outOfRange := by
  have valid := Host.InRange.reached reached
  obtain ⟨ordered, below⟩ := valid.programs code ids program
  have inside := below id member
  refine ⟨?_, ?_, ?_⟩
  · intro fuel outcome session ran
    exact (Session.evaluate_inRange ran ordered inside valid.heap).inside
  · intro fuel outcome session ran
    refine (Session.run_inRange ran ordered (fun other root => ?_) valid.heap).inside
    cases root
    exact inside
  · intro state reaches delivers
    obtain ⟨after, finishes⟩ := reaches.finishes_outOfRange delivers
    exact (finishes.inRange ordered inside valid.heap).inside rfl

def lender : Builder :=
  let (_, builder) := (Builder.withNames .new).literal (.int 7)
  let (_, builder) := builder.function [] ⟨0⟩
  (builder.assign "f" ⟨1⟩).2

def borrower : Builder :=
  let (_, builder) := (Builder.withNames lender.names).ident "f"
  (builder.call ⟨0⟩ []).2

theorem lender_made : lender.Made [⟨2⟩, ⟨1⟩, ⟨0⟩] :=
  .call (.assign "f" ⟨1⟩) (.call (.function [] ⟨0⟩) (.call (.literal (.int 7)) (.start .new) (by simp))
    (by decide +kernel)) (by decide +kernel)

theorem borrower_made : borrower.Made [⟨1⟩, ⟨0⟩] :=
  .call (.call ⟨0⟩ []) (.call (.ident "f") (.start lender.names) (by simp)) (by decide +kernel)

def lent : Host :=
  let host := ((Host.new (.buffer "")).build lender [⟨2⟩, ⟨1⟩, ⟨0⟩]).newFrame none
  match host.session.evaluate 20 ⟨⟨0, lender.arena⟩, ⟨0⟩⟩ ⟨2⟩ with
  | some (outcome, session) => host.resume outcome session
  | none => host

theorem lent_reached : Relation.ReflTransGen Host.Step (.new (.buffer "")) lent := by
  have built : Host.Step (.new (.buffer "")) _ := .build lender_made
  have framed := (Relation.ReflTransGen.single built).tail .newFrame
  unfold lent
  simp only
  split
  · rename_i ran
    exact framed.tail (.evaluate List.mem_cons_self List.mem_cons_self List.mem_cons_self ran)
  · exact framed

theorem built_programs_stay_in_range_borrowed :
    ∃ host : Host, Relation.ReflTransGen Host.Step (.new (.buffer "")) host ∧
      (⟨1, borrower.arena⟩, [⟨1⟩, ⟨0⟩]) ∈ host.programs ∧
      (host.session.evaluate 20 ⟨⟨1, borrower.arena⟩, ⟨0⟩⟩ ⟨1⟩).map Prod.fst = some (.value (.int 7)) ∧
      ∀ fuel outcome session, host.session.evaluate fuel ⟨⟨1, borrower.arena⟩, ⟨0⟩⟩ ⟨1⟩ = some (outcome, session) →
        outcome ≠ .outOfRange := by
  have reached := lent_reached.tail (.build borrower_made)
  have program : (⟨1, borrower.arena⟩, [⟨1⟩, ⟨0⟩]) ∈ (lent.build borrower [⟨1⟩, ⟨0⟩]).programs := by
    decide +kernel
  exact ⟨_, reached, program, by decide +kernel,
    (built_programs_stay_in_range reached program List.mem_cons_self ⟨0⟩).1⟩

end ScopedEval
