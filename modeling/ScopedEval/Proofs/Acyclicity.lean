import ScopedEval.Heap.Dump
import ScopedEval.Inspect.Scope
import ScopedEval.Proofs.Allocation
import ScopedEval.Proofs.Identity

namespace ScopedEval

namespace Heap

/-- The frames met on the way from a frame to the one around it, and on, until nothing is around. -/
inductive Walk (heap : Heap) : FrameId → List FrameId → Prop where
  | outermost {id : FrameId} : heap.parent? id = none → Walk heap id [id]
  | inner {id outer : FrameId} {frames : List FrameId} : heap.parent? id = some outer → Walk heap outer frames →
      Walk heap id (id :: frames)

theorem Walk.unique {heap : Heap} {id : FrameId} {left right : List FrameId} (first : heap.Walk id left)
    (second : heap.Walk id right) : left = right := by
  induction first generalizing right with
  | outermost top =>
    cases second with
    | outermost => rfl
    | inner up => cases top.symm.trans up
  | inner up _ ih =>
    cases second with
    | outermost top => cases up.symm.trans top
    | inner up' rest =>
      cases up.symm.trans up'
      rw [ih rest]

theorem Walk.ne_nil {heap : Heap} {id : FrameId} {frames : List FrameId} (walk : heap.Walk id frames) :
    frames ≠ [] := by
  cases walk <;> exact List.cons_ne_nil _ _

theorem chain_descends (heap : Heap) (id : FrameId) :
    (heap.chain id).Pairwise fun inner outer => outer.index < inner.index := by
  fun_induction heap.chain id with
  | case1 id parent up older ih =>
    refine List.pairwise_cons.mpr ⟨fun outer member => ?_, ih⟩
    exact Nat.lt_of_le_of_lt (index_le_of_mem_chain member) older
  | case2 | case3 => exact List.pairwise_singleton _ _

theorem chain_nodup (heap : Heap) (id : FrameId) : (heap.chain id).Nodup := by
  apply (heap.chain_descends id).imp
  rintro inner _ older rfl
  exact Nat.lt_irrefl _ older

theorem root_of_parent {heap : Heap} {id parent : FrameId} (up : heap.parent? id = some parent)
    (older : parent.index < id.index) : heap.root id = heap.root parent := by
  rw [root, up]
  simp [older]

theorem root_of_mem_chain {heap : Heap} {id frame : FrameId} (member : frame ∈ heap.chain id)
    (top : heap.parent? frame = none) : frame = heap.root id := by
  fun_induction heap.chain id with
  | case1 id parent up older ih =>
    rw [root_of_parent up older]
    rcases List.mem_cons.mp member with rfl | member
    · cases up.symm.trans top
    · exact ih member
  | case2 id parent up younger =>
    rw [List.mem_singleton.mp member] at top
    cases up.symm.trans top
  | case3 id up =>
    rw [root, up]
    exact List.mem_singleton.mp member

theorem depth_of_parent {heap : Heap} {id parent : FrameId} (up : heap.parent? id = some parent)
    (older : parent.index < id.index) : heap.depth id = heap.depth parent + 1 := by
  rw [depth_eq, depth_eq, chain_of_parent up older, List.length_cons]

theorem Grows.chain {old new : Heap} (grows : old.Grows new) {id : FrameId} (held : id.index < old.frames.size) :
    new.chain id = old.chain id := by
  induction id using old.inward_induction with
  | top id highest =>
    have highest' : ∀ parent, new.parent? id = some parent → ¬ parent.index < id.index := by
      rw [grows.parent held]
      exact highest
    rw [chain_of_top highest, chain_of_top highest']
  | inner id parent up older ih =>
    have up' : new.parent? id = some parent := (grows.parent held).trans up
    rw [chain_of_parent up older, chain_of_parent up' older, ih (Nat.lt_trans older held)]

theorem Grows.root {old new : Heap} (grows : old.Grows new) {id : FrameId} (held : id.index < old.frames.size) :
    new.root id = old.root id := by
  simp only [root_eq_getLast, grows.chain held]

theorem Grows.depth {old new : Heap} (grows : old.Grows new) {id : FrameId} (held : id.index < old.frames.size) :
    new.depth id = old.depth id := by
  rw [depth_eq, depth_eq, grows.chain held]

theorem newFrame_inside {heap : Heap} {id : FrameId} (held : id.index < heap.frames.size) :
    (heap.newFrame (some id)).2.depth (heap.newFrame (some id)).1 = heap.depth id + 1 ∧
      (heap.newFrame (some id)).2.root (heap.newFrame (some id)).1 = heap.root id := by
  have up : (heap.newFrame (some id)).2.parent? (heap.newFrame (some id)).1 = some id := by
    rw [parent?_newFrame]
    exact if_pos rfl
  have grows := Grows.newFrame heap (some id)
  rw [depth_of_parent up held, root_of_parent up held, grows.depth held, grows.root held]
  exact ⟨rfl, rfl⟩

theorem walk_chain_of_older {heap : Heap}
    (older : ∀ {id parent}, heap.parent? id = some parent → parent.index < id.index) (id : FrameId) :
    heap.Walk id (heap.chain id) := by
  fun_induction heap.chain id with
  | case1 id parent up _ ih => exact .inner up ih
  | case2 id parent up younger => exact absurd (older up) younger
  | case3 id up => exact .outermost up

namespace WellFormed

variable {heap : Heap}

theorem parent_wellFounded (wellFormed : heap.WellFormed) :
    WellFounded fun outer inner => heap.parent? inner = some outer :=
  (InvImage.wf FrameId.index Nat.lt_wfRel.wf).mono fun _ _ up => wellFormed.parent_older up

theorem walk_chain (wellFormed : heap.WellFormed) (id : FrameId) : heap.Walk id (heap.chain id) :=
  walk_chain_of_older wellFormed.parent_older id

theorem isGlobal_iff (wellFormed : heap.WellFormed) {id frame : FrameId} (member : frame ∈ heap.chain id) :
    heap.isGlobal frame = true ↔ frame = heap.root id := by
  rw [isGlobal, Option.isNone_iff_eq_none]
  constructor
  · exact root_of_mem_chain member
  · rintro rfl
    cases up : heap.parent? (heap.root id) with
    | none => rfl
    | some outer => exact absurd (wellFormed.parent_older up) (heap.root_top id up)

theorem depth_eq_one_iff (wellFormed : heap.WellFormed) (id : FrameId) :
    heap.depth id = 1 ↔ heap.isGlobal id = true := by
  have walk := wellFormed.walk_chain id
  rw [depth_eq, isGlobal]
  generalize heap.chain id = frames at walk ⊢
  cases walk with
  | outermost top => simp [top]
  | inner up walk =>
    have outer := walk.ne_nil
    simp [up, outer]

theorem lookup_eq (wellFormed : heap.WellFormed) (id : FrameId) (name : Name) :
    heap.lookup id name =
      (heap.get? id name).or ((heap.parent? id).bind fun outer => heap.lookup outer name) := by
  rw [lookup]
  cases heap.get? id name with
  | some value => rfl
  | none =>
    cases up : heap.parent? id with
    | none => rfl
    | some outer => simp [wellFormed.parent_older up]

end WellFormed

end Heap

namespace Inspect

theorem intercalate_same {α : Type} (closing bracket : String) {items : List α} (some : items ≠ []) :
    closing ++ bracket ++ bracket.intercalate (items.map fun _ => closing) =
      bracket.intercalate (items.map fun _ => closing) ++ bracket ++ closing := by
  induction items with
  | nil => exact absurd rfl some
  | cons item rest ih =>
    cases rest with
    | nil => simp
    | cons other rest =>
      have rest := ih (by simp)
      simp only [List.map_cons, String.intercalate_cons_cons, String.append_assoc] at rest ⊢
      rw [← rest]

end Inspect

theorem Heap.WellFormed.inspectFrame_eq {heap : Heap} (wellFormed : heap.WellFormed)
    (listing : FrameId → List (Name × Value)) (id : FrameId) :
    heap.inspectFrame listing id = Frame.inspectOpening (listing id) ++
      (heap.parent? id).elim "None" (fun outer => "Some(" ++ heap.inspectFrame listing outer ++ ")") ++
        " \x7d \x7d)" := by
  simp only [Heap.inspectFrame, rootPath_eq, List.reverse_reverse]
  cases up : heap.parent? id with
  | none =>
    have top : ∀ outer, heap.parent? id = some outer → ¬ outer.index < id.index := by
      intro outer up'
      cases up.symm.trans up'
    simp [chain_of_top top]
  | some outer =>
    have around : heap.chain outer ≠ [] := List.ne_nil_of_mem (heap.self_mem_chain outer)
    rw [chain_of_parent up (wellFormed.parent_older up), List.map_cons, List.map_cons,
      String.intercalate_cons_of_ne_nil (by simpa using around),
      String.intercalate_cons_of_ne_nil (by simpa using around), Inspect.intercalate_same _ _ around]
    simp only [Option.elim_some, String.append_assoc]

namespace Client

structure Placed (client : Client) : Prop where
  parent_older {id parent : FrameId} : client.heap.parent? id = some parent → parent.index < id.index
  frames {frame : FrameId} : frame ∈ client.frames → frame.index < client.heap.frames.size
  scopes {closure : Closure} : client.Holds (.function closure) → closure.scope.index < client.heap.frames.size
  running {names : Interner} {state : State} : client.activity = .evaluating names state → state.Placed

namespace Placed

variable {client next : Client} {made : Option Closure}

theorem made_scope (placed : client.Placed) (step : client.Step made next) {closure : Closure}
    (makes : made = some closure) : closure.scope.index < client.heap.frames.size := by
  cases step with
  | construct inside =>
    cases makes
    exact placed.frames inside
  | proceed =>
    obtain ⟨_, _, _, _, _, _, _, rfl⟩ := State.making?_eq_some_iff.mp makes
    exact (placed.running rfl).here
  | _ => cases makes

theorem step_older (placed : client.Placed) (step : client.Step made next) {id parent : FrameId}
    (up : next.heap.parent? id = some parent) : parent.index < id.index := by
  rcases step.parent up with before | ⟨last, known | ⟨closure, there, rfl⟩⟩
  · exact placed.parent_older before
  · rw [last]
    exact placed.frames known
  · rw [last]
    exact placed.scopes there

theorem step_frames (placed : client.Placed) (step : client.Step made next) {frame : FrameId}
    (known : frame ∈ next.frames) : frame.index < next.heap.frames.size := by
  have old : ∀ {frame}, frame ∈ client.frames → frame.index < next.heap.frames.size :=
    fun known => Nat.lt_of_lt_of_le (placed.frames known) step.grows.size
  cases step with
  | @newFrame _ _ world =>
    rcases List.mem_cons.mp known with rfl | known
    · exact (world.heap.size_newFrame none).symm ▸ Nat.lt_succ_self _
    · exact old known
  | @child _ _ world outer =>
    rcases List.mem_cons.mp known with rfl | known
    · exact (world.heap.size_newFrame (some outer)).symm ▸ Nat.lt_succ_self _
    · exact old known
  | captured held =>
    rcases List.mem_cons.mp known with rfl | known
    · exact placed.scopes (.inl held)
    · exact old known
  | scalar | construct | resolve | declare | assign | report | begin | proceed | finish => exact old known

theorem step_running (placed : client.Placed) (step : client.Step made next) {names : Interner} {state : State}
    (running : next.activity = .evaluating names state) : state.Placed := by
  cases step with
  | begin inside =>
    cases running
    exact ⟨placed.frames inside, fun caller none => by cases none⟩
  | @proceed _ _ names state =>
    cases running
    exact (state.moves names).placed (state.step_grows names) (placed.running rfl)
  | _ => cases running

theorem step (placed : client.Placed) (step : client.Step made next) : next.Placed where
  parent_older := placed.step_older step
  frames := placed.step_frames step
  scopes there := by
    rcases step.holds there with before | makes
    · exact Nat.lt_of_lt_of_le (placed.scopes before) step.grows.size
    · exact Nat.lt_of_lt_of_le (placed.made_scope step makes) step.grows.size
  running := placed.step_running step

end Placed

theorem new_holds (sink : Sink) (value : Value) : ¬ (new sink).Holds value := by
  rintro (known | ⟨id, name, read⟩)
  · cases known
  · cases read

theorem new_placed (sink : Sink) : (new sink).Placed where
  parent_older up := by cases up
  frames known := by cases known
  scopes there := absurd there (new_holds sink _)
  running evaluating := by cases evaluating

namespace Runs

variable {sink : Sink} {made : List Closure} {now : Client}

theorem placed (runs : (new sink).Runs made now) : now.Placed := by
  induction runs with
  | refl => exact new_placed sink
  | step _ step ih => exact ih.step step

theorem wellFormed (runs : (new sink).Runs made now) : now.heap.WellFormed := by
  have sound := runs.sound (sound_of_nothing (new_holds sink))
  exact ⟨runs.placed.parent_older, fun read => runs.placed.scopes (holds_of_get read),
    fun read => sound.issued (holds_of_get read)⟩

end Runs

end Client

/-- Whatever a client does, the frames around a frame can be gone through one by one, until the only one that
    nothing is around: no frame comes twice, however functions and the frames that bind them refer to each other,
    and it stays so for good. Hence all that goes through them comes to an end, and a frame put into another lies
    one level deeper. -/
theorem scope_chains_acyclic {sink : Sink} {made : List Closure} {now : Client}
    (runs : (Client.new sink).Runs made now) :
    WellFounded (fun outer inner => now.heap.parent? inner = some outer) ∧
    ∀ id : FrameId, id.index < now.heap.frames.size →
      (∃ frames, (∀ walk, now.heap.Walk id walk ↔ walk = frames) ∧
        (∀ more later, now.Runs more later → later.heap.Walk id frames) ∧ frames.Nodup ∧
        (∀ frame ∈ frames, frame.index < now.heap.frames.size) ∧
        (∀ frame ∈ frames, now.heap.isGlobal frame = true ↔ frame = now.heap.root id) ∧
        frames.getLast? = some (now.heap.root id) ∧ now.heap.depth id = frames.length ∧
        (∀ name, now.heap.holder? id name = frames.find? fun frame => now.heap.binds frame name) ∧
        ∀ names, now.heap.dump names id =
          " ".intercalate ((frames.reverse.filterMap now.heap.frame?).map (Frame.dump names))) ∧
      (∀ name, now.heap.lookup id name =
        (now.heap.get? id name).or ((now.heap.parent? id).bind fun outer => now.heap.lookup outer name)) ∧
      (∀ listing, now.heap.inspectFrame listing id = Frame.inspectOpening (listing id) ++
        (now.heap.parent? id).elim "None" (fun outer => "Some(" ++ now.heap.inspectFrame listing outer ++ ")") ++
          " \x7d \x7d)") ∧
      (now.heap.depth id = 1 ↔ now.heap.isGlobal id = true) ∧
      (∀ outer, now.heap.parent? id = some outer →
        now.heap.depth id = now.heap.depth outer + 1 ∧ now.heap.root id = now.heap.root outer) ∧
      (now.heap.newFrame (some id)).2.depth (now.heap.newFrame (some id)).1 = now.heap.depth id + 1 ∧
      (now.heap.newFrame (some id)).2.root (now.heap.newFrame (some id)).1 = now.heap.root id := by
  have wellFormed := runs.wellFormed
  refine ⟨wellFormed.parent_wellFounded, fun id held => ⟨⟨now.heap.chain id, ?_, ?_, now.heap.chain_nodup id, ?_,
    fun frame => wellFormed.isGlobal_iff, ?_, now.heap.depth_eq id, now.heap.holder?_eq_find? id, ?_⟩,
    wellFormed.lookup_eq id, fun listing => wellFormed.inspectFrame_eq listing id, wellFormed.depth_eq_one_iff id, ?_,
    Heap.newFrame_inside held⟩⟩
  · intro walk
    constructor
    · exact fun walked => walked.unique (wellFormed.walk_chain id)
    · rintro rfl
      exact wellFormed.walk_chain id
  · intro more later goesOn
    rw [← goesOn.grows.chain held]
    exact (runs.trans goesOn).wellFormed.walk_chain id
  · exact fun frame member => Nat.lt_of_le_of_lt (Heap.index_le_of_mem_chain member) held
  · rw [Heap.root_eq_getLast, List.getLast?_eq_some_getLast]
  · intro names
    rw [Heap.dump, Heap.rootPath_eq]
  · intro outer up
    have older := wellFormed.parent_older up
    exact ⟨Heap.depth_of_parent up older, Heap.root_of_parent up older⟩

/-- Declares a function that yields itself and calls it: the frame it captured is the one that binds it. -/
def selfYielding : Arena where
  nodes := #[.ident ⟨1⟩, .function ⟨0, 0⟩ ⟨0⟩, .declare ⟨1⟩ ⟨1⟩, .call ⟨0⟩ ⟨0, 0⟩, .seq ⟨2⟩ ⟨3⟩]
  args := #[]
  params := #[]

theorem scope_chains_acyclic_selfYielding :
    ∃ made now, (Client.new (.buffer "")).Runs made now ∧
      now.heap.get? ⟨0⟩ ⟨1⟩ = some (.function ⟨0, ⟨0, 0⟩, ⟨0⟩, ⟨0, selfYielding⟩, ⟨0⟩⟩) ∧
      now.heap.parent? ⟨1⟩ = some ⟨0⟩ ∧ now.heap.depth ⟨1⟩ = 2 ∧
      WellFounded fun outer inner => now.heap.parent? inner = some outer := by
  have ran : (evaluate .new 30 ⟨⟨0, selfYielding⟩, ⟨0⟩⟩ ⟨4⟩ emptyWorld).map (fun result =>
      (result.2.heap.get? ⟨0⟩ ⟨1⟩, result.2.heap.parent? ⟨0⟩, result.2.heap.parent? ⟨1⟩,
        result.2.heap.frames.size)) =
      some (some (.function ⟨0, ⟨0, 0⟩, ⟨0⟩, ⟨0, selfYielding⟩, ⟨0⟩⟩), none, some ⟨0⟩, 2) := by decide +kernel
  obtain ⟨⟨outcome, after⟩, ended, same⟩ := Option.map_eq_some_iff.mp ran
  obtain ⟨bound, rest⟩ := Prod.mk.inj same
  obtain ⟨top, rest⟩ := Prod.mk.inj rest
  obtain ⟨up, size⟩ := Prod.mk.inj rest
  have first : (Client.new (.buffer "")).Runs [] ⟨[⟨0⟩], [], .idle emptyWorld⟩ := .step .refl .newFrame
  obtain ⟨made, evaluated⟩ := Client.Runs.of_finishes ⟨30, ended⟩ (List.mem_singleton_self (⟨0⟩ : FrameId)) []
  have runs := first.trans evaluated
  obtain ⟨wellFounded, all⟩ := scope_chains_acyclic runs
  have size : after.heap.frames.size = 2 := size
  have top : after.heap.parent? ⟨0⟩ = none := top
  obtain ⟨_, _, _, _, inside, _⟩ := all ⟨1⟩ (size.symm ▸ Nat.lt_succ_self 1)
  obtain ⟨_, _, _, depth, _⟩ := all ⟨0⟩ (size.symm ▸ Nat.two_pos)
  have isGlobal : after.heap.isGlobal ⟨0⟩ = true := by
    rw [Heap.isGlobal, top]
    rfl
  have outermost : after.heap.depth ⟨0⟩ = 1 := depth.mpr isGlobal
  refine ⟨_, _, runs, bound, up, ?_, wellFounded⟩
  rw [(inside ⟨0⟩ up).1]
  exact congrArg (· + 1) outermost

end ScopedEval
