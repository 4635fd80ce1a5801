import ScopedEval.Proofs.Reachability
import ScopedEval.Proofs.Renaming
import ScopedEval.Proofs.Sequencing
import ScopedEval.Session

namespace ScopedEval

namespace Session

def runProgram (session : Session) (fuel : Nat) (frame : FrameId) (program : List Tree) : Option (Outcome × Session) :=
  let (code, root, session) := session.load program
  session.run fuel ⟨code, frame⟩ root

def runPieces (session : Session) (fuel : Nat) (frame : FrameId) :
    List (List Tree) → Option (List Outcome × Session)
  | [] => some ([], session)
  | piece :: rest =>
    match session.runProgram fuel frame piece with
    | none => none
    | some (outcome, session) =>
      if outcome.aborts then some ([outcome], session)
      else (session.runPieces fuel frame rest).map fun (outcomes, session) => (outcome :: outcomes, session)

def Ends (session : Session) (frame : FrameId) (program : List Tree) (outcome : Outcome) (after : Session) : Prop :=
  ∃ fuel, session.runProgram fuel frame program = some (outcome, after)

def PiecesEnd (session : Session) (frame : FrameId) (pieces : List (List Tree)) (outcomes : List Outcome)
    (after : Session) : Prop :=
  ∃ fuel, session.runPieces fuel frame pieces = some (outcomes, after)

theorem runProgram_more {session : Session} {fuel : Nat} {frame : FrameId} {program : List Tree}
    {result : Outcome × Session} (ended : session.runProgram fuel frame program = some result) (more : Nat) :
    session.runProgram (fuel + more) frame program = some result := by
  obtain ⟨ran, evaluated, rfl⟩ := Option.map_eq_some_iff.mp ended
  exact Option.map_eq_some_iff.mpr ⟨ran, evaluateProgram_more evaluated more, rfl⟩

theorem runPieces_more {session : Session} {fuel : Nat} {frame : FrameId} {pieces : List (List Tree)}
    {result : List Outcome × Session} (ended : session.runPieces fuel frame pieces = some result) (more : Nat) :
    session.runPieces (fuel + more) frame pieces = some result := by
  induction pieces generalizing session result with
  | nil => exact ended
  | cons piece rest ih =>
    unfold runPieces at ended ⊢
    cases first : session.runProgram fuel frame piece with
    | none =>
      rw [first] at ended
      cases ended
    | some ran =>
      rw [runProgram_more first]
      rw [first] at ended
      by_cases aborts : ran.1.aborts = true
      · simpa only [if_pos aborts] using ended
      · simp only [if_neg aborts] at ended ⊢
        obtain ⟨later, second, rfl⟩ := Option.map_eq_some_iff.mp ended
        rw [ih second, Option.map_some]

theorem piecesEnd_cons_iff {session after : Session} {frame : FrameId} {piece : List Tree} {rest : List (List Tree)}
    {outcomes : List Outcome} : session.PiecesEnd frame (piece :: rest) outcomes after ↔
      (∃ outcome, outcome.aborts = true ∧ session.Ends frame piece outcome after ∧ outcomes = [outcome]) ∨
        ∃ value middle later, session.Ends frame piece (.value value) middle ∧
          middle.PiecesEnd frame rest later after ∧ outcomes = .value value :: later := by
  constructor
  · rintro ⟨fuel, ended⟩
    unfold runPieces at ended
    split at ended
    · cases ended
    · rename_i outcome middle first
      split at ended
      · rename_i aborts
        cases ended
        exact .inl ⟨outcome, aborts, ⟨fuel, first⟩, rfl⟩
      · rename_i goesOn
        obtain ⟨⟨later, last⟩, second, same⟩ := Option.map_eq_some_iff.mp ended
        cases same
        cases outcome with
        | value value => exact .inr ⟨value, middle, later, ⟨fuel, first⟩, ⟨fuel, second⟩, rfl⟩
        | failure | outOfRange => exact absurd rfl goesOn
  · rintro (⟨outcome, aborts, ⟨fuel, first⟩, rfl⟩ | ⟨value, middle, later, ⟨fuel, first⟩, ⟨fuel', ended⟩, rfl⟩)
    · refine ⟨fuel, ?_⟩
      simp only [runPieces, first, if_pos aborts]
    · refine ⟨fuel + fuel', ?_⟩
      have first := runProgram_more first fuel'
      have ended := runPieces_more ended fuel
      rw [Nat.add_comm] at ended
      simp only [runPieces, first, Outcome.aborts, Bool.false_eq_true, if_false, ended, Option.map_some]

theorem exists_layout (session : Session) (frame : FrameId) (program : List Tree) :
    ∃ names ids, ∃ code : Code, session.names.Extends names ∧ List.Forall₂ (code.arena.Shows names) ids program ∧
      ∀ {outcome after}, session.Ends frame program outcome after ↔
        ∃ middle, Statements names ⟨code, frame⟩ .null ids (session.world.emit .enterProgram) outcome middle ∧
          after = ⟨names, middle.leaveProgram outcome, session.codes + 1⟩ := by
  obtain ⟨grown, shown⟩ := Tree.buildAll_shows program (.withNames session.names)
  generalize laid : Tree.buildAll (.withNames session.names) program = built at grown shown
  obtain ⟨ids, builder⟩ := built
  have joined : builder.Extends (builder.seqAll ids).2 := .seqAll builder ids
  refine ⟨(builder.seqAll ids).2.names, ids, ⟨session.codes, (builder.seqAll ids).2.arena⟩,
    (grown.trans joined).names, shown.imp fun _ _ shown => shown.mono joined, ?_⟩
  intro outcome after
  have ran : ∀ fuel, session.runProgram fuel frame program =
      (evaluateProgram (builder.seqAll ids).2.names fuel ⟨⟨session.codes, (builder.seqAll ids).2.arena⟩, frame⟩
        (builder.seqAll ids).1 session.world).map fun result =>
          (result.1, ⟨(builder.seqAll ids).2.names, result.2, session.codes + 1⟩) := by
    intro fuel
    rw [runProgram, load, Tree.buildProgram, laid]
    rfl
  constructor
  · rintro ⟨fuel, ended⟩
    rw [ran] at ended
    obtain ⟨⟨_, world⟩, evaluated, same⟩ := Option.map_eq_some_iff.mp ended
    cases same
    obtain ⟨middle, run, rfl⟩ := evaluateProgram_iff.mp ⟨fuel, evaluated⟩
    exact ⟨middle, run, rfl⟩
  · rintro ⟨middle, run, rfl⟩
    obtain ⟨fuel, evaluated⟩ := evaluateProgram_iff.mpr ⟨middle, run, rfl⟩
    refine ⟨fuel, ?_⟩
    rw [ran, evaluated, Option.map_some]

theorem Ends.names_extends {session after : Session} {frame : FrameId} {program : List Tree} {outcome : Outcome}
    (ended : session.Ends frame program outcome after) : session.names.Extends after.names := by
  obtain ⟨names, ids, code, grown, _, ends⟩ := session.exists_layout frame program
  obtain ⟨middle, _, rfl⟩ := ends.mp ended
  exact grown

theorem PiecesEnd.names_extends {session after : Session} {frame : FrameId} {pieces : List (List Tree)}
    {outcomes : List Outcome} (ended : session.PiecesEnd frame pieces outcomes after) :
    session.names.Extends after.names := by
  induction pieces generalizing session outcomes with
  | nil =>
    obtain ⟨_, ended⟩ := ended
    cases ended
    exact .refl _
  | cons piece rest ih =>
    rcases piecesEnd_cons_iff.mp ended with ⟨_, _, first, _⟩ | ⟨_, _, _, first, later, _⟩
    · exact first.names_extends
    · exact first.names_extends.trans (ih later)

/-- All that can be got at from a frame was written with the names of the session. It is so of a new frame, and
    stays so when programs are run. -/
structure Knows (session : Session) (frame : FrameId) : Prop where
  name {id : FrameId} {name : Name} : session.heap.Reaches frame id → session.heap.binds id name = true →
    ∃ text, session.names.find? text = some name
  closure {id : FrameId} {name : Name} {closure : Closure} : session.heap.Reaches frame id →
    session.heap.get? id name = some (.function closure) → ∃ params tree,
      closure.code.arena.ShowsFunction session.names closure.params closure.body params tree

theorem knows_newFrame (session : Session) : (session.newFrame none).2.Knows (session.newFrame none).1 := by
  have free : ∀ name, (session.newFrame none).2.heap.get? (session.newFrame none).1 name = none := by
    intro name
    show (session.heap.newFrame none).2.get? ⟨session.heap.frames.size⟩ name = none
    rw [Heap.get?_newFrame, if_pos rfl]
  have alone : ∀ id, (session.newFrame none).2.heap.Reaches (session.newFrame none).1 id →
      id = (session.newFrame none).1 := by
    intro id reaches
    induction reaches with
    | start => rfl
    | parent _ up same =>
      have top : (session.heap.newFrame none).2.parent? ⟨session.heap.frames.size⟩ = none := by
        rw [Heap.parent?_newFrame, if_pos rfl]
      subst same
      cases top.symm.trans up
    | captured _ read same =>
      subst same
      cases (free _).symm.trans read
  constructor
  · intro id name reaches bound
    rw [alone id reaches, Heap.binds, free] at bound
    cases bound
  · intro id name closure reaches read
    rw [alone id reaches, free] at read
    cases read

theorem Knows.begun {session : Session} {frame : FrameId} (known : session.Knows frame) {names : Interner}
    (grown : session.names.Extends names) : World.Twins names session.names (session.heap.reach frame)
      (session.world.emit .enterProgram) session.world := by
  have closed := session.heap.reach_closed frame
  have shared : ∀ {id name}, session.heap.reach frame id → session.heap.binds id name = true →
      names.Shares session.names name name := by
    intro id name inside bound
    obtain ⟨text, found⟩ := known.name (Heap.reaches_of_binds inside bound) bound
    exact ⟨text, grown.find found, found⟩
  refine ⟨⟨rfl, rfl, .inr, ⟨closed.parent, fun _ _ => trivial⟩, fun _ => rfl, ?_, ?_, ?_⟩, rfl⟩
  · rintro id name name' inside ⟨text, left, right⟩
    cases left.symm.trans (grown.find right)
    show Option.Rel _ (session.heap.get? id name) (session.heap.get? id name)
    cases read : session.heap.get? id name with
    | none => exact .none
    | some value =>
      apply Option.Rel.some
      cases value with
      | function closure =>
        have reaches := Heap.reaches_of_binds inside (Option.isSome_of_eq_some read)
        obtain ⟨params, tree, shown⟩ := known.closure reaches read
        exact .function ⟨⟨rfl, rfl, params, tree, shown.mono grown, shown⟩, closed.closure inside read⟩
      | _ => exact .of_scalar rfl
  · exact fun inside bound => ⟨_, shared inside bound⟩
  · exact fun inside bound => ⟨_, shared inside bound⟩

structure Alike (frame : FrameId) (outcome : Outcome) (whole : Session) (outcomes : List Outcome) (last : Session) :
    Prop where
  outcome : Outcome.Related False (Closure.Twin whole.names last.names) outcome (Outcome.settle outcomes)
  output : whole.output = last.output
  dump : whole.dump frame = last.dump frame

end Session

namespace World.Twins

variable {names : Interner} {code : Code} {frame : FrameId} {region : FrameId → Prop} {pieces : List (List Tree)}
  {session : Session} {ids : List ExprId} {world : World}

theorem knows {names' : Interner} {left right : World}
    (twins : Twins names names' region left right) (inside : region frame) (codes : Nat) :
    Session.Knows ⟨names, left, codes⟩ frame := by
  have captured : ∀ {id name closure}, region id → left.heap.get? id name = some (.function closure) →
      (∃ params tree, closure.code.arena.ShowsFunction names closure.params closure.body params tree) ∧
        region closure.scope := by
    intro id name closure around read
    obtain ⟨_, _, _, _, related⟩ := twins.heap.partner around read
    cases related with
    | function both =>
      obtain ⟨params, tree, shown, _⟩ := both.1.shown
      exact ⟨⟨params, tree, shown⟩, both.2⟩
  have reached : ∀ {id}, left.heap.Reaches frame id → region id := by
    intro id reaches
    induction reaches with
    | start => exact inside
    | parent _ up around => exact twins.heap.closed.parent around up
    | captured _ read around => exact (captured around read).2
  constructor
  · intro id name reaches bound
    obtain ⟨_, text, found, _⟩ := twins.heap.known (reached reaches) bound
    exact ⟨text, found⟩
  · intro id name closure reaches read
    exact (captured (reached reaches) read).1

/-- A piece, run with code of its own, does what its statements do in the code of the whole program. -/
theorem piece_follows {piece : List Tree} {after : World} {outcome : Outcome}
    (twins : Twins names session.names region world session.world) (inside : region frame)
    (shown : List.Forall₂ (code.arena.Shows names) ids piece)
    (run : Statements names ⟨code, frame⟩ .null ids world outcome after) :
    ∃ outcome' last, session.Ends frame piece outcome' last ∧
      (relabelling names last.names region).outcomes False () outcome outcome' ∧
      Twins names last.names region after last.world := by
  obtain ⟨names', ids', code', grown, shown', ends⟩ := session.exists_layout frame piece
  have begun : Twins names names' region world (session.world.emit .enterProgram) :=
    ⟨(twins.mono grown).heap, twins.sink⟩
  have exprs : List.Forall₂ (fun a b => (relabelling names names' region).exprs () ⟨code, frame⟩ a
      ⟨code', frame⟩ b) ids ids' :=
    (forall₂_through shown shown').imp fun _ _ both => ⟨rfl, inside, both⟩
  obtain ⟨_, outcome', middle, _, run', related, worlds⟩ :=
    (relabelling_simulates names names' region).statements run exprs .null begun
  exact ⟨outcome', _, ends.mpr ⟨middle, run', rfl⟩, related, worlds.leaveProgram' outcome'⟩

theorem follows_piece {last : Session} {piece : List Tree} {outcome' : Outcome}
    (twins : Twins names session.names region world session.world) (inside : region frame)
    (shown : List.Forall₂ (code.arena.Shows names) ids piece) (ended : session.Ends frame piece outcome' last) :
    ∃ outcome after, Statements names ⟨code, frame⟩ .null ids world outcome after ∧
      (relabelling names last.names region).outcomes False () outcome outcome' ∧
      Twins names last.names region after last.world := by
  obtain ⟨names', ids', code', grown, shown', ends⟩ := session.exists_layout frame piece
  obtain ⟨middle, run', rfl⟩ := ends.mp ended
  have begun : Twins names names' region world (session.world.emit .enterProgram) :=
    ⟨(twins.mono grown).heap, twins.sink⟩
  have exprs : List.Forall₂ (fun a b => (relabelling names names' region).flip.exprs () ⟨code', frame⟩ a
      ⟨code, frame⟩ b) ids' ids :=
    (forall₂_through shown' shown).imp fun _ _ ⟨tree, both⟩ => ⟨rfl, inside, tree, both.symm⟩
  obtain ⟨_, outcome, after, _, run, related, worlds⟩ :=
    (relabelling_simulates names names' region).flip.statements run' exprs .null begun
  exact ⟨outcome, after, run, related.flip, leaveProgram' worlds outcome'⟩

theorem pieces_follow {after : World} {outcome : Outcome}
    (twins : Twins names session.names region world session.world) (inside : region frame)
    (shown : List.Forall₂ (code.arena.Shows names) ids pieces.flatten)
    (run : Statements names ⟨code, frame⟩ .null ids world outcome after) :
    ∃ outcomes last, session.PiecesEnd frame pieces outcomes last ∧
      (relabelling names last.names region).outcomes False () outcome (Outcome.settle outcomes) ∧
      Twins names last.names region after last.world := by
  induction pieces generalizing session ids world outcome with
  | nil =>
    cases shown
    cases run
    exact ⟨[], session, ⟨0, rfl⟩, .value .null, twins⟩
  | cons piece rest ih =>
    have first := List.forall₂_take_append _ _ _ shown
    have later := List.forall₂_drop_append _ _ _ shown
    -- the rest of the statements are run as if no value were held, since the next piece holds none
    rw [← List.take_append_drop piece.length ids] at run
    rcases Statements.append_iff.mp run with ⟨aborts, early⟩ | ⟨value, middle, early, late⟩
    · obtain ⟨outcome', last, ended, related, worlds⟩ := twins.piece_follows inside first early
      have aborts' := related.aborts.symm.trans aborts
      refine ⟨[outcome'], last, Session.piecesEnd_cons_iff.mpr (.inl ⟨outcome', aborts', ended, rfl⟩), ?_, worlds⟩
      rw [Outcome.settle_of_aborts aborts']
      exact related
    · obtain ⟨alone, lateAlone, rfl⟩ := Statements.held_iff.mp late
      obtain ⟨outcome', between, ended, related, worlds⟩ := twins.piece_follows inside first early
      cases related with
      | value values =>
        obtain ⟨outcomes, last, ended', related, worlds⟩ := ih worlds later lateAlone
        refine ⟨_, last, Session.piecesEnd_cons_iff.mpr (.inr ⟨_, between, outcomes, ended, ended', rfl⟩), ?_, worlds⟩
        rw [Outcome.settle_cons]
        exact related.over (relabelling_values_mono values ended'.names_extends)

theorem follows_pieces {last : Session} {outcomes : List Outcome}
    (twins : Twins names session.names region world session.world) (inside : region frame)
    (shown : List.Forall₂ (code.arena.Shows names) ids pieces.flatten)
    (ended : session.PiecesEnd frame pieces outcomes last) :
    ∃ outcome after, Statements names ⟨code, frame⟩ .null ids world outcome after ∧
      (relabelling names last.names region).outcomes False () outcome (Outcome.settle outcomes) ∧
      Twins names last.names region after last.world := by
  induction pieces generalizing session ids world outcomes with
  | nil =>
    cases shown
    obtain ⟨_, ended⟩ := ended
    cases ended
    exact ⟨_, _, .done, .value .null, twins⟩
  | cons piece rest ih =>
    have first := List.forall₂_take_append _ _ _ shown
    have later := List.forall₂_drop_append _ _ _ shown
    rw [← List.take_append_drop piece.length ids]
    rcases Session.piecesEnd_cons_iff.mp ended with
      ⟨outcome', aborts', early, rfl⟩ | ⟨value', between, outcomes, early, late, rfl⟩
    · obtain ⟨outcome, after, run, related, worlds⟩ := twins.follows_piece inside first early
      have aborts := related.aborts.trans aborts'
      rw [Outcome.settle_of_aborts aborts']
      exact ⟨outcome, after, Statements.append_iff.mpr (.inl ⟨aborts, run⟩), related, worlds⟩
    · obtain ⟨outcome, middle, run, related, worlds⟩ := twins.follows_piece inside first early
      cases related with
      | value values =>
        obtain ⟨alone, after, run', related, worlds⟩ := ih worlds later late
        have whole := Statements.append_iff.mpr
          (.inr ⟨_, middle, run, Statements.held_iff.mpr ⟨alone, run', rfl⟩⟩)
        rw [Outcome.settle_cons]
        exact ⟨_, after, whole, related.over (relabelling_values_mono values late.names_extends), worlds⟩

theorem alike {outcome : Outcome} {outcomes : List Outcome} {last : Session}
    (twins : Twins names last.names region world last.world) (inside : region frame)
    (related : (relabelling names last.names region).outcomes False () outcome (Outcome.settle outcomes)) (codes : Nat) :
    Session.Alike frame outcome ⟨names, world, codes⟩ outcomes last where
  outcome := related.mono fun _ _ twin => twin.1
  output := congrArg Sink.output twins.sink
  dump := twins.heap.dump_eq inside

end World.Twins

theorem Session.Knows.ends {session after : Session} {frame : FrameId} {program : List Tree} {outcome : Outcome}
    (known : session.Knows frame) (ended : session.Ends frame program outcome after) : after.Knows frame := by
  obtain ⟨names, ids, code, grown, shown, ends⟩ := session.exists_layout frame program
  obtain ⟨middle, run, rfl⟩ := ends.mp ended
  obtain ⟨_, _, _, _, worlds⟩ := (known.begun grown).piece_follows (.inl .start) shown run
  exact (worlds.leaveProgram outcome).knows (.inl .start) _

/-- A program and its pieces, run one after the other with code of their own, both end or neither does, and show
    the same at the end. -/
theorem pieces_run_as_one (session : Session) (frame : FrameId) (known : session.Knows frame)
    (pieces : List (List Tree)) :
    (∀ outcome whole, session.Ends frame pieces.flatten outcome whole →
      ∃ outcomes last, session.PiecesEnd frame pieces outcomes last ∧
        Session.Alike frame outcome whole outcomes last) ∧
    ∀ outcomes last, session.PiecesEnd frame pieces outcomes last →
      ∃ outcome whole, session.Ends frame pieces.flatten outcome whole ∧
        Session.Alike frame outcome whole outcomes last := by
  obtain ⟨names, ids, code, grown, shown, ends⟩ := session.exists_layout frame pieces.flatten
  have inside : session.heap.reach frame frame := .inl .start
  have begun := known.begun grown
  constructor
  · intro outcome whole ended
    obtain ⟨middle, run, rfl⟩ := ends.mp ended
    obtain ⟨outcomes, last, ended', related, worlds⟩ := begun.pieces_follow inside shown run
    exact ⟨outcomes, last, ended', (worlds.leaveProgram outcome).alike inside related _⟩
  · intro outcomes last ended'
    obtain ⟨outcome, middle, run, related, worlds⟩ := begun.follows_pieces inside shown ended'
    exact ⟨outcome, _, ends.mpr ⟨middle, run, rfl⟩, (worlds.leaveProgram outcome).alike inside related _⟩

/-- A function is declared in one piece and called from a later one, and a last piece is not reached. -/
def calledLater : List (List Tree) :=
  [[.declare "f" (.function ["x"] (.print (.ident "x")))], [], [.call (.ident "f") [.literal (.int 7)]],
    [.declare "f" (.literal .null)], [.print (.literal .null)]]

theorem pieces_run_as_one_calledLater :
    let session := ((Session.new (.buffer "")).newFrame none).2
    let frame := ((Session.new (.buffer "")).newFrame none).1
    session.Knows frame ∧ ∃ outcome whole, session.Ends frame calledLater.flatten outcome whole ∧
      outcome.aborts = true ∧ whole.output = "7\n" ∧ whole.dump frame = "\x7b \x7bf=function\x7d \x7d" := by
  intro session frame
  have known : session.Knows frame := Session.knows_newFrame _
  have ran : (session.runPieces 100 frame calledLater).map (fun (outcomes, last) =>
      ((Outcome.settle outcomes).aborts, last.output, last.dump frame)) =
        some (true, "7\n", "\x7b \x7bf=function\x7d \x7d") := by
    decide +kernel
  obtain ⟨⟨outcomes, last⟩, ended, shown⟩ := Option.map_eq_some_iff.mp ran
  obtain ⟨outcome, whole, ended', alike⟩ := (pieces_run_as_one session frame known calledLater).2 _ _ ⟨100, ended⟩
  simp only [Prod.mk.injEq] at shown
  obtain ⟨aborts, output, dump⟩ := shown
  exact ⟨known, outcome, whole, ended', alike.outcome.aborts.trans aborts, alike.output.trans output,
    alike.dump.trans dump⟩

end ScopedEval
