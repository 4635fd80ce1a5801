import ScopedEval.Proofs.Adequacy
import ScopedEval.Proofs.Growth

namespace ScopedEval

theorem Node.first?_mem_operands {node : Node} {child : ExprId} (first : node.first? = some child) :
    child ∈ node.operands := by
  cases node <;> cases first <;> exact List.mem_cons_self

theorem Heap.target_of_kept {old new : Heap} (links : ∀ id, new.parent? id = old.parent? id)
    (kept : ∀ {id name}, old.binds id name = true → new.binds id name = true) (id : FrameId) (name : Name) :
    new.target id name = old.target id name ∨
      old.binds (new.target id name) name = false ∧ new.binds (new.target id name) name = true := by
  induction id using old.inward_induction with
  | top id highest =>
    have highest' : ∀ parent, new.parent? id = some parent → ¬ parent.index < id.index := by
      rw [links id]
      exact highest
    rw [target_of_top highest', target_of_top highest]
    exact .inl rfl
  | inner id parent up older ih =>
    by_cases bound : new.binds id name = true
    · rw [target_of_binds bound]
      by_cases before : old.binds id name = true
      · exact .inl (target_of_binds before).symm
      · exact .inr ⟨Bool.eq_false_iff.mpr before, bound⟩
    · have unbound : old.binds id name = false := Bool.eq_false_iff.mpr fun before => bound (kept before)
      rw [target_of_parent (Bool.eq_false_iff.mpr bound) ((links id).trans up) older, target_of_parent unbound up older]
      exact ih

/-- What code at a frame does to the world when it makes no calls, if these are the names it declares and assigns
    and it prints or does not: every write is to the frame itself or to where an assignment went at the start. -/
structure World.Footprint (declares assigns : Name → Prop) (prints : Prop) (frame : FrameId)
    (world after : World) : Prop where
  size : after.heap.frames.size = world.heap.frames.size
  parent (id : FrameId) : after.heap.parent? id = world.heap.parent? id
  kept {id : FrameId} {name : Name} : world.heap.binds id name = true → after.heap.binds id name = true
  cell {id : FrameId} {name : Name} : after.heap.get? id name ≠ world.heap.get? id name →
    declares name ∧ id = frame ∨ assigns name ∧ id = world.heap.target frame name
  sink : ¬ prints → after.sink = world.sink
  trace : (∀ name, ¬ declares name ∧ ¬ assigns name) → after.trace = world.trace

namespace World.Footprint

variable {declares assigns : Name → Prop} {prints : Prop} {frame : FrameId} {world middle after : World}

theorem refl (world : World) : Footprint declares assigns prints frame world world :=
  ⟨rfl, fun _ => rfl, id, fun changed => absurd rfl changed, fun _ => rfl, fun _ => rfl⟩

theorem target (foot : Footprint declares assigns prints frame world after) (name : Name) :
    after.heap.target frame name = world.heap.target frame name ∨
      declares name ∧ after.heap.target frame name = frame := by
  rcases Heap.target_of_kept foot.parent foot.kept frame name with same | ⟨unbound, bound⟩
  · exact .inl same
  · have changed : after.heap.get? (after.heap.target frame name) name ≠
        world.heap.get? (after.heap.target frame name) name := by
      intro same
      rw [Heap.binds, same] at bound
      rw [Heap.binds, bound] at unbound
      cases unbound
    rcases foot.cell changed with ⟨declared, here⟩ | ⟨_, there⟩
    · exact .inr ⟨declared, here⟩
    · exact .inl there

theorem trans (first : Footprint declares assigns prints frame world middle)
    (second : Footprint declares assigns prints frame middle after) :
    Footprint declares assigns prints frame world after where
  size := second.size.trans first.size
  parent id := (second.parent id).trans (first.parent id)
  kept bound := second.kept (first.kept bound)
  cell {id name} changed := by
    by_cases early : middle.heap.get? id name = world.heap.get? id name
    · rw [← early] at changed
      rcases second.cell changed with declared | ⟨assigned, there⟩
      · exact .inl declared
      · rcases first.target name with same | ⟨declared, here⟩
        · exact .inr ⟨assigned, there.trans same⟩
        · exact .inl ⟨declared, there.trans here⟩
    · exact first.cell early
  sink none := (second.sink none).trans (first.sink none)
  trace none := (second.trace none).trans (first.trace none)

theorem of_bind {id : FrameId} {name : Name} {value : Value}
    (heap : after.heap = world.heap.bind id name value) (sink : after.sink = world.sink)
    (allowed : declares name ∧ id = frame ∨ assigns name ∧ id = world.heap.target frame name) :
    Footprint declares assigns prints frame world after where
  size := by rw [heap, Heap.size_bind]
  parent other := by rw [heap, Heap.parent?_bind]
  kept bound := by
    rw [heap, Heap.binds_bind, bound, Bool.or_true]
  cell {other key} changed := by
    rw [heap, Heap.get?_bind] at changed
    split at changed
    · rename_i here
      obtain ⟨rfl, rfl, _⟩ := here
      exact allowed
    · exact absurd rfl changed
  sink _ := sink
  trace none := by
    rcases allowed with ⟨declared, _⟩ | ⟨assigned, _⟩
    · exact absurd declared (none name).1
    · exact absurd assigned (none name).2

theorem print {value : Value} (printing : prints) :
    Footprint declares assigns prints frame world (world.print value) :=
  ⟨rfl, fun _ => rfl, id, fun changed => absurd rfl changed, fun silent => absurd printing silent, fun _ => rfl⟩

theorem nothing (foot : Footprint declares assigns prints frame world after)
    (still : ∀ name, ¬ declares name ∧ ¬ assigns name) (silent : ¬ prints) :
    after = { world with heap := { world.heap with closures := after.heap.closures } } := by
  have heap : after.heap = { world.heap with closures := after.heap.closures } := by
    refine Heap.eq_of_reads foot.size rfl foot.parent fun id name => ?_
    by_contra changed
    rcases foot.cell changed with ⟨declared, _⟩ | ⟨assigned, _⟩
    · exact (still name).1 declared
    · exact (still name).2 assigned
  have sink := foot.sink silent
  have trace := foot.trace still
  cases after
  simp only at heap sink trace
  rw [← heap, sink, trace]

end World.Footprint

/-- The footprint of an expression covers what each expression at its level does. -/
theorem Evaluates.footprint {names : Interner} {site : Site} {task : Task} {world after : World} {outcome : Outcome}
    (evaluates : Evaluates names site task world outcome after) {top inner : ExprId}
    (callFree : ∀ callee args, ¬ site.code.arena.Owns top (.call callee args)) (performs : task = .expr inner)
    (level : site.code.arena.OwnLevel top inner) :
    world.Footprint (fun name => ∃ init, site.code.arena.Owns top (.declare name init))
      (fun name => ∃ source, site.code.arena.Owns top (.assign name source))
      (∃ operand, site.code.arena.Owns top (.print operand)) site.frame after := by
  -- Every rule puts the footprints of its parts together; for a loop that runs again, the loop is one of them.
  induction evaluates generalizing inner with
  | argument | argumentAborts | argumentsDone | arity | paramsMissing | paramRepeated | body => cases performs
  | call read | argsMissing read | notCallable read =>
    cases performs
    exact absurd ⟨_, level, read⟩ (callFree _ _)
  | missing | literal | ident => exact .refl _
  | function => exact ⟨rfl, fun _ => rfl, id, fun changed => absurd rfl changed, fun _ => rfl, fun _ => rfl⟩
  | firstAborts read first _ _ ih =>
    cases performs
    exact ih callFree rfl (level.tail (.operand read (Node.first?_mem_operands first)))
  | print read _ ih =>
    cases performs
    have operand := ih callFree rfl (level.tail (.operand read (by simp)))
    exact operand.trans (.print ⟨_, _, level, read⟩)
  | binary read _ _ _ first second | binaryFails read _ _ _ first second | rightAborts read _ _ _ first second
  | seq read _ _ _ first second | secondAborts read _ _ _ first second
  | branchTrue read _ _ first second | branchFalse read _ _ first second | loopAborts read _ _ _ first second =>
    cases performs
    have early := first callFree rfl (level.tail (.operand read (by simp)))
    exact early.trans (second callFree rfl (level.tail (.operand read (by simp))))
  | branchNone read _ ih | branchOther read _ _ ih | loopDone read _ ih | loopOther read _ _ ih
  | redeclare read _ _ ih =>
    cases performs
    exact ih callFree rfl (level.tail (.operand read (by simp)))
  | loopAgain read _ _ _ tested passed again =>
    cases performs
    have condition := tested callFree rfl (level.tail (.operand read (by simp)))
    have body := passed callFree rfl (level.tail (.operand read (by simp)))
    exact (condition.trans body).trans (again callFree rfl level)
  | declare read _ _ ih =>
    cases performs
    have init := ih callFree rfl (level.tail (.operand read (by simp)))
    exact init.trans (.of_bind rfl rfl (.inl ⟨⟨_, _, level, read⟩, rfl⟩))
  | assign read _ ih =>
    cases performs
    have source := ih callFree rfl (level.tail (.operand read (by simp)))
    exact source.trans (.of_bind (World.heap_assign _ _ _ _) (World.sink_assign _ _ _ _)
      (.inr ⟨⟨_, _, level, read⟩, rfl⟩))

/-- An expression with no call at its level makes no frame, and where a frame binds a name otherwise than before,
    the name is declared at that level and the frame is the one it is evaluated in, or the name is assigned there
    and the frame is the nearest that bound it at the start, else the outermost one. Nothing is printed without a
    print at its level, and without declarations and assignments nothing changes. -/
theorem callFree_write_footprint {names : Interner} {site : Site} {id : ExprId} {world after : World}
    {outcome : Outcome} (callFree : ∀ callee args, ¬ site.code.arena.Owns id (.call callee args))
    (finishes : Finishes names site id world outcome after) :
    after.heap.frames.size = world.heap.frames.size ∧
    (∀ frame, after.heap.parent? frame = world.heap.parent? frame) ∧
    (∀ frame name, after.heap.get? frame name ≠ world.heap.get? frame name →
      (∃ init, site.code.arena.Owns id (.declare name init)) ∧ frame = site.frame ∨
      (∃ source, site.code.arena.Owns id (.assign name source)) ∧
        (world.heap.holder? site.frame name = some frame ∨
          world.heap.holder? site.frame name = none ∧ frame = world.heap.root site.frame)) ∧
    ((∀ operand, ¬ site.code.arena.Owns id (.print operand)) → after.sink = world.sink) ∧
    ((∀ name other, ¬ site.code.arena.Owns id (.declare name other) ∧
        ¬ site.code.arena.Owns id (.assign name other) ∧ ¬ site.code.arena.Owns id (.print other)) →
      after = { world with heap := { world.heap with closures := after.heap.closures } }) := by
  have foot := finishes.evaluates.footprint callFree rfl .refl
  refine ⟨foot.size, foot.parent, fun frame name changed => ?_, fun silent => ?_, fun still => ?_⟩
  · rcases foot.cell changed with declared | ⟨assigned, there⟩
    · exact .inl declared
    · refine .inr ⟨assigned, ?_⟩
      rw [Heap.target] at there
      cases held : world.heap.holder? site.frame name with
      | none =>
        rw [held] at there
        exact .inr ⟨rfl, there⟩
      | some holder =>
        rw [held] at there
        exact .inl (congrArg some there.symm)
  · exact foot.sink (not_exists.mpr silent)
  · have undeclared : ∀ name, ¬ ∃ init, site.code.arena.Owns id (.declare name init) :=
      fun name => not_exists.mpr fun init => (still name init).1
    have unassigned : ∀ name, ¬ ∃ source, site.code.arena.Owns id (.assign name source) :=
      fun name => not_exists.mpr fun source => (still name source).2.1
    have unprinted : ¬ ∃ operand, site.code.arena.Owns id (.print operand) :=
      not_exists.mpr fun operand => (still .empty operand).2.2
    exact foot.nothing (fun name => ⟨undeclared name, unassigned name⟩) unprinted

/-- While a global variable is zero, it is set to one and then declared anew in the frame at hand. -/
def redirecting : Arena where
  nodes := #[.literal (.int 1), .assign ⟨1⟩ ⟨0⟩, .declare ⟨1⟩ ⟨0⟩, .seq ⟨1⟩ ⟨2⟩, .ident ⟨1⟩, .literal (.int 0),
    .binary .eq ⟨4⟩ ⟨5⟩, .loop ⟨6⟩ ⟨3⟩]
  args := #[]
  params := #[]

def nestedZero : World where
  heap := ⟨#[⟨none, Bindings.empty.insert ⟨1⟩ (.int 0)⟩, ⟨some ⟨0⟩, Bindings.empty.insert ⟨2⟩ (.bool true)⟩], 0⟩
  sink := .buffer ""
  trace := #[]

theorem callFree_write_footprint_redirecting :
    (∀ callee args, ¬ redirecting.Owns ⟨7⟩ (.call callee args)) ∧
    ∃ after, Finishes .new ⟨⟨0, redirecting⟩, ⟨1⟩⟩ ⟨7⟩ nestedZero (.value .null) after ∧
      after.heap.frames.size = 2 ∧ after.heap.get? ⟨0⟩ ⟨1⟩ = some (.int 1) ∧
      after.heap.get? ⟨1⟩ ⟨1⟩ = some (.int 1) ∧ after.heap.get? ⟨1⟩ ⟨2⟩ = some (.bool true) ∧
      after.sink = .buffer "" := by
  have callFree : ∀ callee args, ¬ redirecting.Owns ⟨7⟩ (.call callee args) := by
    rintro callee args ⟨inner, _, read⟩
    have member := Array.mem_of_getElem? read
    simp [redirecting] at member
  have ran : (evaluate .new 60 ⟨⟨0, redirecting⟩, ⟨1⟩⟩ ⟨7⟩ nestedZero).map (fun result =>
      (result.1, result.2.heap.get? ⟨0⟩ ⟨1⟩, result.2.heap.get? ⟨1⟩ ⟨1⟩)) =
        some (.value .null, some (.int 1), some (.int 1)) := by decide +kernel
  obtain ⟨⟨outcome, after⟩, ended, same⟩ := Option.map_eq_some_iff.mp ran
  obtain ⟨yields, outer, inner⟩ : outcome = .value .null ∧ after.heap.get? ⟨0⟩ ⟨1⟩ = some (.int 1) ∧
      after.heap.get? ⟨1⟩ ⟨1⟩ = some (.int 1) := by
    simpa only [Prod.mk.injEq] using same
  subst yields
  have finishes : Finishes .new ⟨⟨0, redirecting⟩, ⟨1⟩⟩ ⟨7⟩ nestedZero (.value .null) after := ⟨60, ended⟩
  obtain ⟨size, _, cells, sink, _⟩ := callFree_write_footprint callFree finishes
  refine ⟨callFree, after, finishes, size, outer, inner, ?_, sink ?_⟩
  · -- No expression of the code declares or assigns this name.
    by_contra changed
    rcases cells ⟨1⟩ ⟨2⟩ changed with ⟨⟨_, _, _, read⟩, _⟩ | ⟨⟨_, _, _, read⟩, _⟩
    · have member := Array.mem_of_getElem? read
      simp [redirecting] at member
    · have member := Array.mem_of_getElem? read
      simp [redirecting] at member
  · rintro operand ⟨_, _, read⟩
    have member := Array.mem_of_getElem? read
    simp [redirecting] at member

end ScopedEval
