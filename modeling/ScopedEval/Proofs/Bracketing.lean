import ScopedEval.Proofs.Heaps
import ScopedEval.Proofs.Sequencing

namespace ScopedEval

/-- Statements are evaluated one by one, up to the first that does not yield a value, each with an outcome. -/
inductive OneByOne (names : Interner) (site : Site) : List ExprId → World → List Outcome → World → Prop where
  | done {world : World} : OneByOne names site [] world [] world
  | stop {id : ExprId} {rest : List ExprId} {world after : World} {outcome : Outcome} :
      Finishes names site id world outcome after → outcome.aborts = true →
      OneByOne names site (id :: rest) world [outcome] after
  | next {id : ExprId} {rest : List ExprId} {world middle after : World} {value : Value} {outcomes : List Outcome} :
      Finishes names site id world (.value value) middle → OneByOne names site rest middle outcomes after →
      OneByOne names site (id :: rest) world (.value value :: outcomes) after

namespace Arena

/-- The second list is the first one with null literals put in. -/
inductive Padded (arena : Arena) : List ExprId → List ExprId → Prop where
  | nil : Padded arena [] []
  | keep {ids ids' : List ExprId} (id : ExprId) : Padded arena ids ids' → Padded arena (id :: ids) (id :: ids')
  | null {ids ids' : List ExprId} {id : ExprId} : arena.node? id = some (.literal .null) → Padded arena ids ids' →
      Padded arena ids (id :: ids')

theorem Joined.mono {old new : Arena} (grown : old.Extends new) {first root : ExprId} {rest : List ExprId}
    (joined : old.Joined first rest root) : new.Joined first rest root := by
  induction rest generalizing first with
  | nil => exact joined
  | cons next rest ih =>
    obtain ⟨middle, read, joined⟩ := joined
    exact ⟨middle, grown.node read, ih joined⟩

end Arena

section

variable {names : Interner} {site : Site} {world after : World} {outcome : Outcome}

theorem Evaluates.literal_iff {id : ExprId} {literal : Literal}
    (read : site.code.arena.node? id = some (.literal literal)) :
    Evaluates names site (.expr id) world outcome after ↔ outcome = .value (.ofLiteral literal) ∧ after = world := by
  constructor
  · intro evaluates
    cases evaluates with
    | literal read' same =>
      cases read.symm.trans read'
      rw [same]
      exact ⟨rfl, rfl⟩
    | firstAborts read' begins =>
      cases read.symm.trans read'
      cases begins
    | _ read' => cases read.symm.trans read'
  · rintro ⟨rfl, rfl⟩
    exact .literal read rfl

theorem Arena.Padded.statements_iff {ids ids' : List ExprId} (padded : site.code.arena.Padded ids ids') {held : Value} :
    Statements names site held ids' world outcome after ↔ Statements names site held ids world outcome after := by
  induction padded generalizing held world with
  | nil => rfl
  | keep id _ ih =>
    rw [Statements.cons_iff, Statements.cons_iff]
    simp only [ih]
  | null read _ ih =>
    rw [Statements.cons_iff]
    simp only [Evaluates.literal_iff read]
    constructor
    · rintro (⟨aborts, rfl, _⟩ | ⟨value, middle, ⟨same, rfl⟩, run⟩)
      · cases aborts
      · cases same
        exact ih.mp run
    · intro run
      exact .inr ⟨.null, world, ⟨rfl, rfl⟩, ih.mpr run⟩

theorem Statements.settle_iff {ids : List ExprId} :
    Statements names site .null ids world outcome after ↔
      ∃ outcomes, OneByOne names site ids world outcomes after ∧ outcome = Outcome.settle outcomes := by
  induction ids generalizing world outcome with
  | nil =>
    constructor
    · intro run
      cases run
      exact ⟨[], .done, rfl⟩
    · rintro ⟨outcomes, run, rfl⟩
      cases run
      exact .done
  | cons id rest ih =>
    constructor
    · intro run
      cases run with
      | stop evaluates aborts =>
        exact ⟨[outcome], .stop evaluates.finishes aborts, (Outcome.settle_of_aborts aborts).symm⟩
      | @next _ value _ _ _ middle _ _ evaluates run =>
        rw [Value.over_null] at run
        obtain ⟨alone, apart, rfl⟩ := Statements.held_iff.mp run
        obtain ⟨outcomes, each, rfl⟩ := ih.mp apart
        exact ⟨.value value :: outcomes, .next evaluates.finishes each, (Outcome.settle_cons value outcomes).symm⟩
    · rintro ⟨outcomes, run, rfl⟩
      cases run with
      | stop ended aborts =>
        rw [Outcome.settle_of_aborts aborts]
        exact .stop ended.evaluates aborts
      | @next _ _ _ middle _ value outcomes ended run =>
        refine .next ended.evaluates ?_
        rw [Value.over_null, Outcome.settle_cons]
        exact Statements.held_iff.mpr ⟨_, ih.mpr ⟨outcomes, run, rfl⟩, rfl⟩

end

/-- Statements joined by the builder are evaluated one by one, and what stands after them is the last value that is
    not null, or null if there is none. Brackets may stand elsewhere and null literals may stand anywhere between. -/
theorem sequencing_keeps_last_value {builder : Builder} {first : ExprId} {rest : List ExprId} {site : Site}
    (grown : (builder.seqAll (first :: rest)).2.arena.Extends site.code.arena) (names : Interner) (world : World) :
    ∃ root, (builder.seqAll (first :: rest)).1 = some root ∧
      (∀ outcome after, Finishes names site root world outcome after ↔
        ∃ outcomes, OneByOne names site (first :: rest) world outcomes after ∧ outcome = .settle outcomes) ∧
      ∀ ids other, site.code.arena.Padded (first :: rest) ids → site.code.arena.Brackets ids other →
        ∀ outcome after, Finishes names site other world outcome after ↔
          Finishes names site root world outcome after := by
  have joined := (builder.seqFrom_joined first rest).mono grown
  refine ⟨(builder.seqFrom first rest).1, rfl, ?_, ?_⟩
  · intro outcome after
    rw [finishes_iff, joined.evaluates_iff, Statements.settle_iff]
  · intro ids other padded brackets outcome after
    rw [finishes_iff, finishes_iff, joined.evaluates_iff, brackets.evaluates_iff, padded.statements_iff]

/-- Prints a number and then reads a variable that is bound nowhere; there is a null literal, too. -/
def pausing : Builder := ⟨.new, ⟨#[.literal (.int 7), .print ⟨0⟩, .literal .null, .ident ⟨1⟩], #[], #[]⟩⟩

def paused : Arena := ((pausing.seqAll [⟨1⟩, ⟨3⟩]).2.arena.addNode (.seq ⟨2⟩ ⟨3⟩)).2.addNode (.seq ⟨1⟩ ⟨5⟩) |>.2

theorem sequencing_keeps_last_value_paused :
    (pausing.seqAll [⟨1⟩, ⟨3⟩]).2.arena.Extends paused ∧ (pausing.seqAll [⟨1⟩, ⟨3⟩]).1 = some ⟨4⟩ ∧
    ∃ after, Finishes .new ⟨⟨0, paused⟩, ⟨0⟩⟩ ⟨4⟩ emptyWorld (.value (.int 7)) after ∧
      Finishes .new ⟨⟨0, paused⟩, ⟨0⟩⟩ ⟨6⟩ emptyWorld (.value (.int 7)) after ∧ after.sink.output = "7\n" := by
  have ran : (evaluate .new 20 ⟨⟨0, paused⟩, ⟨0⟩⟩ ⟨4⟩ emptyWorld).map (fun result =>
      (result.1, result.2.sink.output)) = some (.value (.int 7), "7\n") := by decide +kernel
  have grown : (pausing.seqAll [⟨1⟩, ⟨3⟩]).2.arena.Extends paused := .trans (.addNode _ _) (.addNode _ _)
  obtain ⟨⟨outcome, after⟩, ended, same⟩ := Option.map_eq_some_iff.mp ran
  obtain ⟨rfl, output⟩ := Prod.mk.inj same
  obtain ⟨root, made, _, others⟩ :=
    @sequencing_keeps_last_value pausing ⟨1⟩ [⟨3⟩] ⟨⟨0, paused⟩, ⟨0⟩⟩ grown .new emptyWorld
  cases made
  have padded : paused.Padded [⟨1⟩, ⟨3⟩] [⟨1⟩, ⟨2⟩, ⟨3⟩] := .keep _ (.null rfl (.keep _ .nil))
  have brackets : paused.Brackets [⟨1⟩, ⟨2⟩, ⟨3⟩] ⟨6⟩ :=
    .join rfl (.single ⟨1⟩) (.join rfl (.single ⟨2⟩) (.single ⟨3⟩))
  exact ⟨grown, rfl, after, ⟨20, ended⟩, (others _ _ padded brackets _ _).mpr ⟨20, ended⟩, output⟩

end ScopedEval
