import ScopedEval.Proofs.Simulation
import ScopedEval.Proofs.Unfolding

namespace ScopedEval

def Value.over (value held : Value) : Value := if value.isNull then held else value

def Outcome.over (outcome : Outcome) (held : Value) : Outcome :=
  match outcome with
  | .value result => .value (result.over held)
  | .failure _ | .outOfRange => outcome

namespace Value

@[simp] theorem null_over (held : Value) : Value.null.over held = held := rfl

theorem over_null (value : Value) : value.over .null = value := by
  cases value <;> rfl

theorem over_over (value held earlier : Value) : (value.over held).over earlier = value.over (held.over earlier) := by
  cases value <;> rfl

theorem Related.over {closures : Closure → Closure → Prop} {value value' held held' : Value}
    (related : Related closures value value') (before : Related closures held held') :
    Related closures (value.over held) (value'.over held') := by
  unfold Value.over
  rw [related.isNull]
  split
  · exact before
  · exact related

end Value

namespace Outcome

def isNull : Outcome → Bool
  | .value result => result.isNull
  | .failure _ | .outOfRange => false

def settle (outcomes : List Outcome) : Outcome :=
  (outcomes.filter fun outcome => !outcome.isNull).getLastD (.value .null)

theorem over_null (outcome : Outcome) : outcome.over .null = outcome := by
  cases outcome with
  | value result => exact congrArg Outcome.value result.over_null
  | failure | outOfRange => rfl

theorem over_of_not_isNull {outcome : Outcome} (counts : outcome.isNull = false) (held : Value) :
    outcome.over held = outcome := by
  cases outcome with
  | value result =>
    have counts : result.isNull = false := counts
    simp only [Outcome.over, Value.over, counts, Bool.false_eq_true, if_false]
  | failure | outOfRange => rfl

theorem isNull_of_aborts {outcome : Outcome} (aborts : outcome.aborts = true) : outcome.isNull = false := by
  cases outcome with
  | value => cases aborts
  | failure | outOfRange => rfl

theorem over_of_aborts {outcome : Outcome} (aborts : outcome.aborts = true) (held : Value) :
    outcome.over held = outcome :=
  over_of_not_isNull (isNull_of_aborts aborts) held

theorem settle_of_aborts {outcome : Outcome} (aborts : outcome.aborts = true) : settle [outcome] = outcome := by
  simp [settle, isNull_of_aborts aborts]

theorem settle_cons (held : Value) (rest : List Outcome) :
    settle (.value held :: rest) = (settle rest).over held := by
  unfold settle
  by_cases null : held.isNull = true
  · have dropped : (Outcome.value held).isNull = true := null
    have same : held = .null := by
      cases held <;> first | rfl | cases null
    rw [List.filter_cons_of_neg (by simp [dropped]), same, over_null]
  · have kept : (Outcome.value held).isNull = false := Bool.eq_false_iff.mpr null
    rw [List.filter_cons_of_pos (by simp [kept])]
    rcases List.eq_nil_or_concat' (rest.filter fun outcome => !outcome.isNull) with empty | ⟨earlier, last, ends⟩
    · rw [empty]
      rfl
    · have member : last ∈ rest.filter fun outcome => !outcome.isNull := ends ▸ List.mem_concat_self
      have counts : last.isNull = false := by simpa using (List.mem_filter.mp member).2
      rw [ends, ← List.cons_append, List.getLastD_concat, List.getLastD_concat, over_of_not_isNull counts]

theorem Related.over {gaps : Prop} {closures : Closure → Closure → Prop} {outcome outcome' : Outcome}
    {held held' : Value} (related : Related gaps closures outcome outcome')
    (before : Value.Related closures held held') :
    Related gaps closures (outcome.over held) (outcome'.over held') := by
  cases related with
  | value related => exact .value (related.over before)
  | failure failure => exact .failure failure
  | outOfRange gap => exact .outOfRange gap

end Outcome

/-- Statements are evaluated one after the other in one frame, up to the first that does not yield a value.
    The value held is that of the last statement so far whose value is not null. -/
inductive Statements (names : Interner) (site : Site) :
    Value → List ExprId → World → Outcome → World → Prop where
  | done {held : Value} {world : World} : Statements names site held [] world (.value held) world
  | stop {held : Value} {id : ExprId} {rest : List ExprId} {world after : World} {outcome : Outcome} :
      Evaluates names site (.expr id) world outcome after → outcome.aborts = true →
      Statements names site held (id :: rest) world outcome after
  | next {held value : Value} {id : ExprId} {rest : List ExprId} {world middle after : World} {outcome : Outcome} :
      Evaluates names site (.expr id) world (.value value) middle →
      Statements names site (value.over held) rest middle outcome after →
      Statements names site held (id :: rest) world outcome after

namespace Statements

variable {names : Interner} {site : Site} {held : Value} {ids rest : List ExprId} {world after : World}
  {outcome : Outcome}

theorem cons_iff {id : ExprId} : Statements names site held (id :: rest) world outcome after ↔
    outcome.aborts = true ∧ Evaluates names site (.expr id) world outcome after ∨
      ∃ value middle, Evaluates names site (.expr id) world (.value value) middle ∧
        Statements names site (value.over held) rest middle outcome after := by
  constructor
  · intro run
    cases run with
    | stop evaluates aborts => exact .inl ⟨aborts, evaluates⟩
    | next evaluates run => exact .inr ⟨_, _, evaluates, run⟩
  · rintro (⟨aborts, evaluates⟩ | ⟨value, middle, evaluates, run⟩)
    · exact .stop evaluates aborts
    · exact .next evaluates run

theorem append_iff : Statements names site held (ids ++ rest) world outcome after ↔
    outcome.aborts = true ∧ Statements names site held ids world outcome after ∨
      ∃ value middle, Statements names site held ids world (.value value) middle ∧
        Statements names site value rest middle outcome after := by
  induction ids generalizing held world with
  | nil =>
    constructor
    · intro run
      exact .inr ⟨held, world, .done, run⟩
    · rintro (⟨aborts, run⟩ | ⟨value, middle, run, later⟩)
      · cases run
        cases aborts
      · cases run
        exact later
  | cons id ids ih =>
    constructor
    · intro run
      cases run with
      | stop evaluates aborts => exact .inl ⟨aborts, .stop evaluates aborts⟩
      | next evaluates run =>
        rcases ih.mp run with ⟨aborts, run⟩ | ⟨value, middle, run, later⟩
        · exact .inl ⟨aborts, .next evaluates run⟩
        · exact .inr ⟨value, middle, .next evaluates run, later⟩
    · rintro (⟨aborts, run⟩ | ⟨value, middle, run, later⟩)
      · cases run with
        | stop evaluates aborts => exact .stop evaluates aborts
        | next evaluates run => exact .next evaluates (ih.mpr (.inl ⟨aborts, run⟩))
      · cases run with
        | stop _ aborts => cases aborts
        | next evaluates run => exact .next evaluates (ih.mpr (.inr ⟨value, middle, run, later⟩))

theorem hold (run : Statements names site held ids world outcome after) (earlier : Value) :
    Statements names site (held.over earlier) ids world (outcome.over earlier) after := by
  induction run with
  | done => exact .done
  | stop evaluates aborts =>
    rw [Outcome.over_of_aborts aborts]
    exact .stop evaluates aborts
  | @next held value _ _ _ _ _ _ evaluates _ ih =>
    rw [Value.over_over] at ih
    exact .next evaluates ih

theorem unhold {earlier : Value} (run : Statements names site (held.over earlier) ids world outcome after) :
    ∃ alone, Statements names site held ids world alone after ∧ outcome = alone.over earlier := by
  induction ids generalizing held world with
  | nil =>
    cases run
    exact ⟨.value held, .done, rfl⟩
  | cons id ids ih =>
    cases run with
    | stop evaluates aborts => exact ⟨outcome, .stop evaluates aborts, (Outcome.over_of_aborts aborts earlier).symm⟩
    | next evaluates run =>
      rw [← Value.over_over] at run
      obtain ⟨alone, run, same⟩ := ih run
      exact ⟨alone, .next evaluates run, same⟩

/-- What statements do does not depend on the value held before; it shows only if they have none to put in
    its place. -/
theorem held_iff : Statements names site held ids world outcome after ↔
    ∃ alone, Statements names site .null ids world alone after ∧ outcome = alone.over held := by
  constructor
  · intro run
    rw [← Value.null_over held] at run
    exact unhold run
  · rintro ⟨alone, run, rfl⟩
    exact run.hold held

end Statements

def Arena.Joined (arena : Arena) (first : ExprId) : List ExprId → ExprId → Prop
  | [], root => first = root
  | next :: rest, root => ∃ joined, arena.node? joined = some (.seq first next) ∧ arena.Joined joined rest root

theorem Builder.seqFrom_joined (builder : Builder) (first : ExprId) (rest : List ExprId) :
    (builder.seqFrom first rest).2.arena.Joined first rest (builder.seqFrom first rest).1 := by
  induction rest generalizing builder first with
  | nil => rfl
  | cons next rest ih =>
    have read := builder.node?_add (.seq first next)
    have grown := Extends.seqFrom (builder.add (.seq first next)).2 (builder.add (.seq first next)).1 rest
    exact ⟨_, grown.arena.node read, ih _ _⟩

namespace Arena

inductive Brackets (arena : Arena) : List ExprId → ExprId → Prop where
  | single (id : ExprId) : Brackets arena [id] id
  | join {id first second : ExprId} {left right : List ExprId} : arena.node? id = some (.seq first second) →
      Brackets arena left first → Brackets arena right second → Brackets arena (left ++ right) id

theorem Joined.brackets {arena : Arena} {first root : ExprId} {front rest : List ExprId}
    (begun : arena.Brackets front first) (joined : arena.Joined first rest root) :
    arena.Brackets (front ++ rest) root := by
  induction rest generalizing front first with
  | nil =>
    cases joined
    rw [List.append_nil]
    exact begun
  | cons next rest ih =>
    obtain ⟨middle, read, joined⟩ := joined
    have longer : arena.Brackets (front ++ [next]) middle := .join read begun (.single next)
    have whole := ih longer joined
    rwa [List.append_assoc, List.singleton_append] at whole

end Arena

section

variable {names : Interner} {site : Site}

theorem Evaluates.seq_iff {id first second : ExprId} {world after : World} {outcome : Outcome}
    (read : site.code.arena.node? id = some (.seq first second)) :
    Evaluates names site (.expr id) world outcome after ↔
      Statements names site .null [first, second] world outcome after := by
  constructor
  · intro evaluates
    cases evaluates with
    | firstAborts read' begins evaluates aborts =>
      cases read.symm.trans read'
      cases begins
      exact .stop evaluates aborts
    | seq read' evaluates evaluates' same =>
      cases read.symm.trans read'
      subst same
      refine .next evaluates (.next evaluates' ?_)
      rw [Value.over_null]
      exact .done
    | secondAborts read' evaluates evaluates' aborts =>
      cases read.symm.trans read'
      exact .next evaluates (.stop evaluates' aborts)
    | _ read' => cases read.symm.trans read'
  · intro run
    cases run with
    | stop evaluates aborts => exact .firstAborts read rfl evaluates aborts
    | next evaluates run =>
      cases run with
      | stop evaluates' aborts => exact .secondAborts read evaluates evaluates' aborts
      | next evaluates' run =>
        cases run
        rw [Value.over_null]
        exact .seq read evaluates evaluates' rfl

theorem Statements.single_iff {id : ExprId} {world after : World} {outcome : Outcome} :
    Statements names site .null [id] world outcome after ↔ Evaluates names site (.expr id) world outcome after := by
  constructor
  · intro run
    cases run with
    | stop evaluates _ => exact evaluates
    | next evaluates run =>
      cases run
      rw [Value.over_null]
      exact evaluates
  · intro evaluates
    cases outcome with
    | value value =>
      refine .next evaluates ?_
      rw [Value.over_null]
      exact .done
    | failure | outOfRange => exact .stop evaluates rfl

/-- Statements joined in one expression are evaluated one after the other, wherever the brackets stand. -/
theorem Arena.Brackets.evaluates_iff {ids : List ExprId} {root : ExprId} {world after : World} {outcome : Outcome}
    (brackets : site.code.arena.Brackets ids root) :
    Evaluates names site (.expr root) world outcome after ↔
      Statements names site .null ids world outcome after := by
  induction brackets generalizing world outcome after with
  | single id => exact Statements.single_iff.symm
  | @join id first second left right read _ _ ihLeft ihRight =>
    -- The value held before shows only if the second part has none, so the second part can be taken by itself.
    have later : ∀ {held : Value} {middle : World}, Statements names site held [second] middle outcome after ↔
        Statements names site held right middle outcome after := by
      intro held middle
      rw [Statements.held_iff, Statements.held_iff]
      simp only [Statements.single_iff, ihRight]
    rw [Evaluates.seq_iff read, Statements.cons_iff, Statements.append_iff]
    simp only [ihLeft, Value.over_null, later]

theorem Arena.Joined.evaluates_iff {first root : ExprId} {rest : List ExprId} {world after : World}
    {outcome : Outcome} (joined : site.code.arena.Joined first rest root) :
    Evaluates names site (.expr root) world outcome after ↔
      Statements names site .null (first :: rest) world outcome after :=
  (Joined.brackets (.single first) joined).evaluates_iff

theorem evaluateProgram_iff {builder : Builder} {ids : List ExprId} {stamp : Nat} {frame : FrameId}
    {world after : World} {outcome : Outcome} :
    (∃ fuel, evaluateProgram names fuel ⟨⟨stamp, (builder.seqAll ids).2.arena⟩, frame⟩ (builder.seqAll ids).1 world =
        some (outcome, after)) ↔
      ∃ middle, Statements names ⟨⟨stamp, (builder.seqAll ids).2.arena⟩, frame⟩ .null ids (world.emit .enterProgram)
        outcome middle ∧ after = middle.leaveProgram outcome := by
  cases ids with
  | nil =>
    constructor
    · rintro ⟨fuel, ran⟩
      cases ran
      exact ⟨_, .done, rfl⟩
    · rintro ⟨middle, run, rfl⟩
      cases run
      exact ⟨0, rfl⟩
  | cons first rest =>
    have joined := builder.seqFrom_joined first rest
    have finishes : ∀ {middle}, Finishes names ⟨⟨stamp, (builder.seqFrom first rest).2.arena⟩, frame⟩
        (builder.seqFrom first rest).1 (world.emit .enterProgram) outcome middle ↔
          Statements names ⟨⟨stamp, (builder.seqFrom first rest).2.arena⟩, frame⟩ .null (first :: rest)
            (world.emit .enterProgram) outcome middle := by
      intro middle
      rw [finishes_iff]
      exact Arena.Joined.evaluates_iff joined
    constructor
    · rintro ⟨fuel, ran⟩
      obtain ⟨⟨outcome', middle⟩, ended, same⟩ := Option.map_eq_some_iff.mp ran
      cases same
      exact ⟨middle, finishes.mp ⟨fuel, ended⟩, rfl⟩
    · rintro ⟨middle, run, rfl⟩
      obtain ⟨fuel, ended⟩ := finishes.mpr run
      refine ⟨fuel, ?_⟩
      simp only [Builder.seqAll, evaluateProgram, ended, Option.map_some]

end

theorem evaluateProgram_more {names : Interner} {fuel : Nat} {site : Site} {root : Option ExprId} {world : World}
    {result : Outcome × World} (ended : evaluateProgram names fuel site root world = some result) (more : Nat) :
    evaluateProgram names (fuel + more) site root world = some result := by
  cases root with
  | none => exact ended
  | some id =>
    obtain ⟨last, evaluated, rfl⟩ := Option.map_eq_some_iff.mp ended
    exact Option.map_eq_some_iff.mpr ⟨last, State.run_more evaluated more, rfl⟩

namespace Correspondence.Simulates

variable {pair : Correspondence} {gaps : Prop} {names names' : Interner}

theorem statements (sim : pair.Simulates gaps names names') {stage : pair.Stage} {site site' : Site}
    {held held' : Value} {ids ids' : List ExprId} {world world' after : World} {outcome : Outcome}
    (run : Statements names site held ids world outcome after)
    (exprs : List.Forall₂ (fun a b => pair.exprs stage site a site' b) ids ids')
    (values : pair.values stage held held') (worlds : pair.worlds stage world world') :
    ∃ next outcome' after', pair.later stage next ∧ Statements names' site' held' ids' world' outcome' after' ∧
      pair.outcomes gaps next outcome outcome' ∧ pair.worlds next after after' := by
  induction run generalizing stage held' ids' world' with
  | done =>
    cases exprs
    exact ⟨stage, _, _, sim.later_refl stage, .done, .value values, worlds⟩
  | stop evaluates aborts =>
    cases exprs with
    | cons first _ =>
      obtain ⟨next, outcome', after', later, ended, related, worlds⟩ := sim.follows evaluates (.expr first) worlds
      have aborts' := related.aborts.symm.trans aborts
      exact ⟨next, outcome', after', later, .stop ended aborts', related, worlds⟩
  | next evaluates _ ih =>
    cases exprs with
    | cons first rest =>
      obtain ⟨middle, value', _, later, ended, related, worlds⟩ :=
        (sim.follows evaluates (.expr first) worlds).value
      have rest := rest.imp fun _ _ => sim.exprs_later later
      have values := sim.values_later later values
      obtain ⟨next, outcome', after', later', run, related, worlds⟩ := ih rest (related.over values) worlds
      exact ⟨next, outcome', after', sim.later_trans later later', .next ended run, related, worlds⟩

end Correspondence.Simulates

end ScopedEval
