import ScopedEval.Proofs.Insertion
import ScopedEval.Proofs.OwnLevel
import ScopedEval.Proofs.Simulation

namespace ScopedEval

def Insertion.enters (insertion : Insertion) (site : Site) (id : ExprId) (site' : Site) : Prop :=
  site.frame = insertion.shift site'.frame ∨
    site.frame = insertion.frame ∧ site'.frame = insertion.outer ∧ site.code.arena.DeclaresNothing id

theorem Insertion.enters.scopes {insertion : Insertion} {site site' : Site} {id : ExprId}
    (enters : insertion.enters site id site') : insertion.scopes site.frame site'.frame := by
  rcases enters with same | ⟨inside, outside, _⟩
  · exact .inl same
  · exact .inr ⟨inside, outside⟩

def inlining (insertion : Insertion) : Correspondence where
  Stage := Unit
  later _ _ := True
  uses := Eq
  declares _ frame frame' name name' := frame = insertion.shift frame' ∧ name = name'
  closures _ := Closure.Inserted insertion
  scopes _ := insertion.scopes
  exprs _ site a site' b := site.code = site'.code ∧ a = b ∧ insertion.enters site a site'
  worlds _ world world' := world.heap.Inserted insertion world'.heap ∧ world.sink = world'.sink

theorem inlining_read {insertion : Insertion} {site site' : Site} {a b : ExprId}
    (exprs : (inlining insertion).exprs () site a site' b) :
    Fetched True (Node.Matches True site.code.arena site'.code.arena ((inlining insertion).parts () site site'))
      (site.code.arena.node? a) (site'.code.arena.node? b) := by
  obtain ⟨code, rfl, enters⟩ := exprs
  rw [← code]
  cases read : site.code.arena.node? a with
  | none => exact .missing trivial
  | some node =>
    refine .found (Node.Matches.self read (fun _ => rfl) ?_ ?_ ?_ fun _ _ _ _ => trivial)
    · rintro name init rfl
      rcases enters with same | ⟨_, _, nothing⟩
      · exact ⟨same, rfl⟩
      · exact absurd read (nothing a name init .refl)
    · intro child step
      refine ⟨code, rfl, ?_⟩
      rcases enters with same | ⟨inside, outside, nothing⟩
      · exact .inl same
      · exact .inr ⟨inside, outside, nothing.child step⟩
    · rintro params body rfl world world' ⟨heaps, sinks⟩
      obtain ⟨closures, heaps⟩ := heaps.newClosure enters.scopes
      rw [← code]
      exact ⟨(), trivial, closures, heaps, sinks⟩

theorem inlining_simulates (insertion : Insertion) (names : Interner) :
    (inlining insertion).Simulates True names names where
  later_refl _ := trivial
  later_trans _ _ := trivial
  closures_later _ same := same
  scopes_later _ same := same
  declares_later _ same := same
  exprs_later _ exprs := exprs
  text same := by rw [same]
  declares_uses same := same.2
  identity {stage a a' b b'} left right := by
    have same : a.stamp = b.stamp ↔ a'.stamp = b'.stamp := by
      rw [left.stamp, right.stamp]
      exact shiftIndex_inj
    rw [Bool.eq_iff_iff]
    simpa [Closure.same] using same
  scope exprs := exprs.2.2.scopes
  read := inlining_read
  resolve worlds scopes used := worlds.1.corresponds.resolve (worlds.1.scope scopes) used
  emit event worlds := worlds
  print worlds related := by
    refine ⟨worlds.1, ?_⟩
    exact World.sink_print related worlds.2
  binds worlds same := worlds.1.corresponds.binds same.1 same.2
  declare worlds same related _ := by
    obtain ⟨rfl, rfl⟩ := same
    exact ⟨worlds.1.bind _ _ related, worlds.2⟩
  assign {stage world world' frame frame' name name' value value'} worlds scopes used related := by
    subst used
    have target := (worlds.1.scope scopes).target fun same => worlds.1.corresponds.binds same (Eq.refl name)
    constructor
    · rw [World.heap_assign, World.heap_assign, target]
      exact worlds.1.bind _ name related
    · rw [World.sink_assign, World.sink_assign, worlds.2]
  arity same := congrArg Span.length same.params
  params {stage closure closure'} same := by
    have names : closure.paramNames? = closure'.paramNames? := by
      rw [Closure.paramNames?, Closure.paramNames?, same.code, same.params]
    rw [names]
    exact .same trivial _
  enter {stage closure closure' world world'} same worlds := by
    have fresh := worlds.1.fresh
    exact ⟨(), trivial, ⟨worlds.1.newFrame same.scopes, worlds.2⟩, fun name name' used => ⟨fresh, used⟩,
      same.code, same.body, .inl fresh⟩

theorem Evaluates.call_inv {names : Interner} {site : Site} {id callee : ExprId} {args : Span}
    {world after : World} {outcome : Outcome} (read : site.code.arena.node? id = some (.call callee args))
    (evaluates : Evaluates names site (.expr id) world outcome after) :
    (Evaluates names site (.expr callee) world outcome after ∧ outcome.aborts = true) ∨
    (∃ value, Evaluates names site (.expr callee) world (.value value) after ∧ value.toFunction? = none ∧
      outcome = .failure (.notCallable value.typeName)) ∨
    (∃ closure, Evaluates names site (.expr callee) world (.value (.function closure)) after ∧
      site.code.arena.args? args = none ∧ outcome = .outOfRange) ∨
    ∃ closure ids middle, Evaluates names site (.expr callee) world (.value (.function closure)) middle ∧
      site.code.arena.args? args = some ids ∧
      Evaluates names site (.arguments closure [] ids) middle outcome after := by
  generalize same : Task.expr id = task at evaluates
  cases evaluates with
  | argument | argumentAborts | argumentsDone | arity | paramsMissing | paramRepeated | body => cases same
  | firstAborts read' first child aborts =>
    cases same
    cases read.symm.trans read'
    cases first
    exact .inl ⟨child, aborts⟩
  | notCallable read' child other =>
    cases same
    cases read.symm.trans read'
    exact .inr (.inl ⟨_, child, other, rfl⟩)
  | argsMissing read' child absent =>
    cases same
    cases read.symm.trans read'
    exact .inr (.inr (.inl ⟨_, child, absent, rfl⟩))
  | call read' child present rest =>
    cases same
    cases read.symm.trans read'
    exact .inr (.inr (.inr ⟨_, _, _, child, present, rest⟩))
  | missing read' | literal read' | ident read' | function read' | print read' | binary read' | binaryFails read'
  | rightAborts read' | branchTrue read' | branchFalse read' | branchNone read' | branchOther read'
  | loopDone read' | loopAgain read' | loopAborts read' | loopOther read' | seq read' | secondAborts read'
  | declare read' | redeclare read' | assign read' =>
    cases same
    cases read.symm.trans read'

theorem evaluates_plain_call_iff {names : Interner} {site : Site} {closure : Closure} {world after : World}
    {outcome : Outcome} (plain : closure.paramNames? = some []) :
    Evaluates names site (.call closure []) world outcome after ↔
      ∃ middle, Evaluates names ⟨closure.code, ⟨world.heap.frames.size⟩⟩ (.expr closure.body)
          ((world.emit (.enterCall closure.arity)).newFrame (some closure.scope)).2 outcome middle ∧
        after = middle.leaveCall outcome := by
  have read : Arena.slice? closure.code.arena.params closure.params = some [] := plain
  have length := Arena.slice?_length read
  have arity : ([] : List Value).length = closure.arity := length
  constructor
  · intro evaluates
    cases evaluates with
    | arity different => exact absurd arity different
    | paramsMissing _ _ absent => cases plain.symm.trans absent
    | paramRepeated _ _ present repeated =>
      cases plain.symm.trans present
      cases repeated
    | body _ entered present declared ended =>
      cases plain.symm.trans present
      cases declared
      cases entered
      exact ⟨_, ended, rfl⟩
  · rintro ⟨middle, ended, rfl⟩
    exact .body arity rfl plain .done ended

/-- An expression that makes a function without parameters and calls it at once. -/
structure Arena.CallsAtOnce (arena : Arena) (call body : ExprId) : Prop where
  made : ∃ callee args params, arena.node? call = some (.call callee args) ∧ arena.args? args = some [] ∧
    arena.node? callee = some (.function params body) ∧ arena.params? params = some []

theorem Arena.CallsAtOnce.finishes_iff {names : Interner} {code : Code} {frame : FrameId} {call body : ExprId}
    {world : World} (immediate : code.arena.CallsAtOnce call body) : ∃ params,
      ∀ outcome after, Finishes names ⟨code, frame⟩ call world outcome after ↔
        ∃ middle, Finishes names ⟨code, ⟨world.heap.frames.size⟩⟩ body
            (((world.newClosure params body code frame).2.emit (.enterCall params.length)).newFrame
              (some frame)).2 outcome middle ∧ after = middle.leaveCall outcome := by
  obtain ⟨callee, args, params, called, noArgs, makes, plain⟩ := immediate.made
  have made : Evaluates names ⟨code, frame⟩ (.expr callee) world _ _ := .function makes
  refine ⟨params, fun outcome after => ?_⟩
  simp only [ScopedEval.finishes_iff]
  refine Iff.trans ?_ (@evaluates_plain_call_iff names ⟨code, frame⟩ (world.newClosure params body code frame).1
    (world.newClosure params body code frame).2 after outcome plain)
  constructor
  · intro evaluates
    rcases evaluates.call_inv called with ⟨child, aborts⟩ | ⟨value, child, other, _⟩ | ⟨_, _, absent, _⟩ |
      ⟨closure, ids, middle, child, present, rest⟩
    · obtain ⟨rfl, rfl⟩ := made.finishes.unique child.finishes
      cases aborts
    · obtain ⟨same, rfl⟩ := made.finishes.unique child.finishes
      cases same
      cases other
    · cases noArgs.symm.trans absent
    · obtain ⟨same, rfl⟩ := made.finishes.unique child.finishes
      cases same
      cases noArgs.symm.trans present
      cases rest with
      | argumentsDone ended => exact ended
  · intro ended
    exact .call called made noArgs (.argumentsDone ended)

namespace World

@[simp] theorem heap_leaveCall (world : World) (outcome : Outcome) :
    (world.leaveCall outcome).heap = world.heap := by
  cases outcome <;> rfl

@[simp] theorem sink_leaveCall (world : World) (outcome : Outcome) :
    (world.leaveCall outcome).sink = world.sink := by
  cases outcome <;> rfl

end World

/-- A function without parameters that is called where it is made can be replaced by its body, if the
    body declares nothing at its own level. The frame of the call stays empty for good, and it shows in
    the scopes of closures made meanwhile and nowhere else. -/
theorem plain_call_inlines {names : Interner} {code : Code} {frame : FrameId} {call body : ExprId} {world : World}
    (immediate : code.arena.CallsAtOnce call body) (nothing : code.arena.DeclaresNothing body)
    (wellFormed : world.heap.WellFormed) (held : frame.index < world.heap.frames.size) :
    BothOrNeither (Finishes names ⟨code, frame⟩ call world) (Finishes names ⟨code, frame⟩ body world)
      fun outcome after outcome' after' =>
        Outcome.Related True (Closure.Inserted (world.heap.insertion frame held)) outcome outcome' ∧
        after.sink = after'.sink ∧
        (∀ id name, id.index < world.heap.frames.size →
          Option.Rel (Value.Related (Closure.Inserted (world.heap.insertion frame held)))
            (after.heap.get? id name) (after'.heap.get? id name)) ∧
        (∀ scope scope', (world.heap.insertion frame held).scopes scope scope' →
          (after.heap.chain scope).filter (world.heap.insertion frame held).keeps =
            (after'.heap.chain scope').map (world.heap.insertion frame held).shift) ∧
        after.heap.Inserted (world.heap.insertion frame held) after'.heap := by
  obtain ⟨params, goesOn⟩ := @immediate.finishes_iff names code frame call body world
  have exprs : (inlining (world.heap.insertion frame held)).exprs () ⟨code, ⟨world.heap.frames.size⟩⟩ body
      ⟨code, frame⟩ body := ⟨rfl, rfl, .inr ⟨rfl, rfl, nothing⟩⟩
  have worlds : (inlining (world.heap.insertion frame held)).worlds ()
      (((world.newClosure params body code frame).2.emit (.enterCall params.length)).newFrame (some frame)).2
      world := ⟨wellFormed.inserted held params body code, rfl⟩
  apply BothOrNeither.extend goesOn
  apply ((inlining_simulates (world.heap.insertion frame held) names).bothOrNeither exprs worlds).mono
  rintro outcome middle outcome' after' ⟨_, _, related, heaps, sinks⟩
  rw [World.sink_leaveCall, World.heap_leaveCall]
  exact ⟨related, sinks, fun id name old => heaps.get_of_lt old name, fun _ _ => heaps.chain_scopes, heaps⟩

/-- Makes a function and binds it to a global name, inside a function that is called at once. -/
def exporting : Arena where
  nodes := #[.literal (.int 7), .function ⟨0, 0⟩ ⟨0⟩, .assign ⟨1⟩ ⟨1⟩, .function ⟨0, 0⟩ ⟨2⟩, .call ⟨3⟩ ⟨0, 0⟩]
  args := #[]
  params := #[]

theorem exporting_declaresNothing : exporting.DeclaresNothing ⟨2⟩ := by
  intro inner name init _ read
  have member := Array.mem_of_getElem? read
  simp [exporting] at member

theorem emptyWorld_wellFormed : emptyWorld.heap.WellFormed where
  parent_older {id parent} up := by
    rw [emptyWorld, World.newFrame, Heap.parent?_newFrame] at up
    split at up <;> cases up
  scope_exists read := by
    rw [get?_emptyWorld] at read
    cases read
  stamp_issued read := by
    rw [get?_emptyWorld] at read
    cases read

theorem plain_call_inlines_exporting :
    exporting.CallsAtOnce ⟨4⟩ ⟨2⟩ ∧ exporting.DeclaresNothing ⟨2⟩ ∧ emptyWorld.heap.WellFormed ∧
    0 < emptyWorld.heap.frames.size ∧
    (∃ after, Finishes .new ⟨⟨0, exporting⟩, ⟨0⟩⟩ ⟨4⟩ emptyWorld
      (.value (.function ⟨1, ⟨0, 0⟩, ⟨0⟩, ⟨0, exporting⟩, ⟨1⟩⟩)) after) ∧
    ∃ stamp after', Finishes .new ⟨⟨0, exporting⟩, ⟨0⟩⟩ ⟨2⟩ emptyWorld
      (.value (.function ⟨stamp, ⟨0, 0⟩, ⟨0⟩, ⟨0, exporting⟩, ⟨0⟩⟩)) after' := by
  have immediate : exporting.CallsAtOnce ⟨4⟩ ⟨2⟩ := ⟨⟨3⟩, ⟨0, 0⟩, ⟨0, 0⟩, rfl, by decide, rfl, by decide⟩
  have held : 0 < emptyWorld.heap.frames.size := by decide
  have ran : (evaluate .new 20 ⟨⟨0, exporting⟩, ⟨0⟩⟩ ⟨4⟩ emptyWorld).map Prod.fst =
      some (.value (.function ⟨1, ⟨0, 0⟩, ⟨0⟩, ⟨0, exporting⟩, ⟨1⟩⟩)) := by decide +kernel
  obtain ⟨⟨outcome, after⟩, ended, same⟩ := Option.map_eq_some_iff.mp ran
  cases same
  have left : Finishes .new ⟨⟨0, exporting⟩, ⟨0⟩⟩ ⟨4⟩ emptyWorld _ after := ⟨20, ended⟩
  refine ⟨immediate, exporting_declaresNothing, emptyWorld_wellFormed, held, ⟨after, left⟩, ?_⟩
  have both := @plain_call_inlines .new ⟨0, exporting⟩ ⟨0⟩ ⟨4⟩ ⟨2⟩ emptyWorld immediate exporting_declaresNothing
    emptyWorld_wellFormed held
  obtain ⟨outcome', after', right, related, _⟩ := both.1 _ after left
  cases related with
  | value related =>
  cases related with
  | @function _ closure inserted =>
  obtain ⟨stamp, params, body, code, scope⟩ := closure
  obtain ⟨_, rfl, rfl, rfl, captured⟩ := inserted
  rcases captured with moved | ⟨_, _, rfl⟩
  · exact absurd moved.symm (Insertion.shift_ne scope)
  · exact ⟨stamp, after', right⟩

end ScopedEval
