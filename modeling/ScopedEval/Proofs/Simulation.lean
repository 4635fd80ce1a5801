import ScopedEval.Proofs.Adequacy
import ScopedEval.Proofs.Relations

namespace ScopedEval

/-- How two evaluations are to be compared. A stage records what has been paired so far, and a later
    one has paired more. Scopes are frames that names are looked up from and assigned through;
    `declares` holds of frames and names whose declarations correspond. -/
structure Correspondence where
  Stage : Type
  later : Stage → Stage → Prop
  uses : Name → Name → Prop
  declares : Stage → FrameId → FrameId → Name → Name → Prop
  closures : Stage → Closure → Closure → Prop
  scopes : Stage → FrameId → FrameId → Prop
  exprs : Stage → Site → ExprId → Site → ExprId → Prop
  worlds : Stage → World → World → Prop

namespace Correspondence

variable (pair : Correspondence)

def values (stage : pair.Stage) : Value → Value → Prop := Value.Related (pair.closures stage)

def outcomes (gaps : Prop) (stage : pair.Stage) : Outcome → Outcome → Prop :=
  Outcome.Related gaps (pair.closures stage)

def functions (stage : pair.Stage) (site site' : Site) (params : Span) (body : ExprId) (params' : Span)
    (body' : ExprId) : Prop :=
  ∀ world world', pair.worlds stage world world' → ∃ next, pair.later stage next ∧
    pair.closures next (world.newClosure params body site.code site.frame).1
      (world'.newClosure params' body' site'.code site'.frame).1 ∧
    pair.worlds next (world.newClosure params body site.code site.frame).2
      (world'.newClosure params' body' site'.code site'.frame).2

def parts (stage : pair.Stage) (site site' : Site) : Node.Parts where
  uses := pair.uses
  declares := pair.declares stage site.frame site'.frame
  children a b := pair.exprs stage site a site' b
  functions := pair.functions stage site site'

inductive tasks (stage : pair.Stage) (site site' : Site) : Task → Task → Prop where
  | expr {id id' : ExprId} : pair.exprs stage site id site' id' →
      tasks stage site site' (.expr id) (.expr id')
  | arguments {callee callee' : Closure} {evaluated evaluated' : List Value} {rest rest' : List ExprId} :
      pair.closures stage callee callee' → List.Forall₂ (pair.values stage) evaluated evaluated' →
      List.Forall₂ (fun a b => pair.exprs stage site a site' b) rest rest' →
      tasks stage site site' (.arguments callee evaluated rest) (.arguments callee' evaluated' rest')
  | call {callee callee' : Closure} {args args' : List Value} :
      pair.closures stage callee callee' → List.Forall₂ (pair.values stage) args args' →
      tasks stage site site' (.call callee args) (.call callee' args')

def Follows (gaps : Prop) (names' : Interner) (stage : pair.Stage) (site' : Site) (task' : Task)
    (world' : World) (outcome : Outcome) (after : World) : Prop :=
  ∃ next outcome' after', pair.later stage next ∧ Evaluates names' site' task' world' outcome' after' ∧
    pair.outcomes gaps next outcome outcome' ∧ pair.worlds next after after'

def flip : Correspondence where
  Stage := pair.Stage
  later := pair.later
  uses b a := pair.uses a b
  declares stage frame' frame b a := pair.declares stage frame frame' a b
  closures stage b a := pair.closures stage a b
  scopes stage b a := pair.scopes stage a b
  exprs stage site' b site a := pair.exprs stage site a site' b
  worlds stage b a := pair.worlds stage a b

theorem Follows.value {pair : Correspondence} {gaps : Prop} {names' : Interner} {stage : pair.Stage}
    {site' : Site} {task' : Task} {world' after : World} {value : Value}
    (follows : pair.Follows gaps names' stage site' task' world' (.value value) after) :
    ∃ next value' after', pair.later stage next ∧
      Evaluates names' site' task' world' (.value value') after' ∧ pair.values next value value' ∧
      pair.worlds next after after' := by
  obtain ⟨next, outcome', after', later, evaluates, related, worlds⟩ := follows
  cases related with
  | value same => exact ⟨next, _, after', later, evaluates, same, worlds⟩

/-- What keeps two evaluations in step: corresponding expressions read alike, and every operation on
    corresponding worlds leads to corresponding worlds. -/
structure Simulates (gaps : Prop) (names names' : Interner) : Prop where
  later_refl (stage : pair.Stage) : pair.later stage stage
  later_trans {first second third : pair.Stage} :
    pair.later first second → pair.later second third → pair.later first third
  closures_later {stage next : pair.Stage} {closure closure' : Closure} :
    pair.later stage next → pair.closures stage closure closure' → pair.closures next closure closure'
  scopes_later {stage next : pair.Stage} {frame frame' : FrameId} :
    pair.later stage next → pair.scopes stage frame frame' → pair.scopes next frame frame'
  declares_later {stage next : pair.Stage} {frame frame' : FrameId} {name name' : Name} :
    pair.later stage next → pair.declares stage frame frame' name name' →
      pair.declares next frame frame' name name'
  exprs_later {stage next : pair.Stage} {site site' : Site} {id id' : ExprId} :
    pair.later stage next → pair.exprs stage site id site' id' → pair.exprs next site id site' id'
  text {name name' : Name} : pair.uses name name' → names.lookup name = names'.lookup name'
  declares_uses {stage : pair.Stage} {frame frame' : FrameId} {name name' : Name} :
    pair.declares stage frame frame' name name' → pair.uses name name'
  identity {stage : pair.Stage} {a a' b b' : Closure} :
    pair.closures stage a a' → pair.closures stage b b' → a.same b = a'.same b'
  scope {stage : pair.Stage} {site site' : Site} {id id' : ExprId} :
    pair.exprs stage site id site' id' → pair.scopes stage site.frame site'.frame
  read {stage : pair.Stage} {site site' : Site} {id id' : ExprId} :
    pair.exprs stage site id site' id' →
      Fetched gaps (Node.Matches gaps site.code.arena site'.code.arena (pair.parts stage site site'))
        (site.code.arena.node? id) (site'.code.arena.node? id')
  resolve {stage : pair.Stage} {world world' : World} {frame frame' : FrameId} {name name' : Name} :
    pair.worlds stage world world' → pair.scopes stage frame frame' → pair.uses name name' →
      pair.values stage (world.heap.resolve frame name) (world'.heap.resolve frame' name')
  emit {stage : pair.Stage} {world world' : World} (event : Event) :
    pair.worlds stage world world' → pair.worlds stage (world.emit event) (world'.emit event)
  print {stage : pair.Stage} {world world' : World} {value value' : Value} :
    pair.worlds stage world world' → pair.values stage value value' →
      pair.worlds stage (world.print value) (world'.print value')
  binds {stage : pair.Stage} {world world' : World} {frame frame' : FrameId} {name name' : Name} :
    pair.worlds stage world world' → pair.declares stage frame frame' name name' →
      world.heap.binds frame name = world'.heap.binds frame' name'
  declare {stage : pair.Stage} {world world' : World} {frame frame' : FrameId} {name name' : Name}
    {value value' : Value} :
    pair.worlds stage world world' → pair.declares stage frame frame' name name' →
      pair.values stage value value' → world.heap.binds frame name = false →
      pair.worlds stage (world.declare frame name value) (world'.declare frame' name' value')
  assign {stage : pair.Stage} {world world' : World} {frame frame' : FrameId} {name name' : Name}
    {value value' : Value} :
    pair.worlds stage world world' → pair.scopes stage frame frame' → pair.uses name name' →
      pair.values stage value value' →
      pair.worlds stage (world.assign frame name value) (world'.assign frame' name' value')
  arity {stage : pair.Stage} {closure closure' : Closure} :
    pair.closures stage closure closure' → closure.arity = closure'.arity
  params {stage : pair.Stage} {closure closure' : Closure} :
    pair.closures stage closure closure' →
      Fetched gaps (List.Forall₂ pair.uses) closure.paramNames? closure'.paramNames?
  enter {stage : pair.Stage} {closure closure' : Closure} {world world' : World} :
    pair.closures stage closure closure' → pair.worlds stage world world' →
      ∃ next, pair.later stage next ∧
        pair.worlds next (world.newFrame (some closure.scope)).2 (world'.newFrame (some closure'.scope)).2 ∧
        (∀ name name', pair.uses name name' →
          pair.declares next (world.newFrame (some closure.scope)).1
            (world'.newFrame (some closure'.scope)).1 name name') ∧
        pair.exprs next ⟨closure.code, (world.newFrame (some closure.scope)).1⟩ closure.body
          ⟨closure'.code, (world'.newFrame (some closure'.scope)).1⟩ closure'.body

namespace Simulates

variable {pair} {gaps : Prop} {names names' : Interner}

theorem values_later (sim : pair.Simulates gaps names names') {stage next : pair.Stage} {value value' : Value}
    (later : pair.later stage next) (related : pair.values stage value value') :
    pair.values next value value' :=
  related.mono fun _ _ => sim.closures_later later

theorem reads (sim : pair.Simulates gaps names names') {stage : pair.Stage} {site site' : Site} {id : ExprId}
    {task' : Task} {node : Node} (tasks : pair.tasks stage site site' (.expr id) task')
    (read : site.code.arena.node? id = some node) :
    ∃ id' node', task' = .expr id' ∧ pair.exprs stage site id site' id' ∧
      site'.code.arena.node? id' = some node' ∧
      Node.Matches gaps site.code.arena site'.code.arena (pair.parts stage site site') node node' := by
  obtain ⟨exprs⟩ := tasks
  obtain ⟨node', read', same⟩ := (sim.read exprs).of_some read
  exact ⟨_, node', rfl, exprs, read', same⟩

theorem enterCall (sim : pair.Simulates gaps names names') {stage : pair.Stage} {closure closure' : Closure}
    {world world' : World} (closures : pair.closures stage closure closure')
    (worlds : pair.worlds stage world world') :
    pair.worlds stage (world.emit (.enterCall closure.arity)) (world'.emit (.enterCall closure'.arity)) := by
  rw [sim.arity closures]
  exact sim.emit _ worlds

theorem leaveCall (sim : pair.Simulates gaps names names') {stage : pair.Stage} {world world' : World}
    {outcome outcome' : Outcome} (worlds : pair.worlds stage world world')
    (related : pair.outcomes gaps stage outcome outcome') :
    pair.worlds stage (world.leaveCall outcome) (world'.leaveCall outcome') := by
  cases related with
  | value => exact sim.emit _ worlds
  | failure failure => exact sim.emit _ (sim.emit _ worlds)
  | outOfRange => exact sim.emit _ worlds

theorem declareAll (sim : pair.Simulates gaps names names') {stage : pair.Stage} {frame frame' : FrameId}
    {params params' : List Name} {args args' : List Value} {world world' : World}
    (fresh : ∀ name name', pair.uses name name' → pair.declares stage frame frame' name name')
    (named : List.Forall₂ pair.uses params params') (valued : List.Forall₂ (pair.values stage) args args')
    (worlds : pair.worlds stage world world') :
    Option.Rel pair.uses (world.declareAll frame (params.zip args)).1
        (world'.declareAll frame' (params'.zip args')).1 ∧
      pair.worlds stage (world.declareAll frame (params.zip args)).2
        (world'.declareAll frame' (params'.zip args')).2 := by
  induction named generalizing args args' world world' with
  | nil => exact ⟨.none, worlds⟩
  | @cons name name' _ _ used _ ih =>
    cases valued with
    | nil => exact ⟨.none, worlds⟩
    | @cons value value' _ _ related valued =>
      have declares := fresh name name' used
      have same := sim.binds worlds declares
      simp only [List.zip_cons_cons, World.declareAll]
      cases bound : world.heap.binds frame name with
      | true =>
        rw [← same, bound]
        exact ⟨.some used, worlds⟩
      | false =>
        rw [← same, bound]
        exact ih valued (sim.declare worlds declares related bound)

theorem follows (sim : pair.Simulates gaps names names') {site site' : Site} {task task' : Task}
    {world world' after : World} {outcome : Outcome} {stage : pair.Stage}
    (evaluates : Evaluates names site task world outcome after) (tasks : pair.tasks stage site site' task task')
    (worlds : pair.worlds stage world world') :
    pair.Follows gaps names' stage site' task' world' outcome after := by
  -- the stage moves on with every premise, so what was related before is carried to the later one
  induction evaluates generalizing stage site' task' world' with
  | missing read =>
    obtain ⟨exprs⟩ := tasks
    obtain ⟨gap, read'⟩ := (sim.read exprs).of_none read
    exact ⟨stage, _, _, sim.later_refl stage, .missing read', .outOfRange gap, worlds⟩
  | literal read same =>
    obtain ⟨id', node', rfl, exprs, read', same'⟩ := sim.reads tasks read
    cases same'
    subst same
    exact ⟨stage, _, _, sim.later_refl stage, .literal read' rfl, .value (.ofLiteral _), worlds⟩
  | ident read same =>
    obtain ⟨id', node', rfl, exprs, read', same'⟩ := sim.reads tasks read
    cases same' with
    | ident used =>
    subst same
    have resolved := sim.resolve worlds (sim.scope exprs) used
    exact ⟨stage, _, _, sim.later_refl stage, .ident read' rfl, .value resolved, worlds⟩
  | function read =>
    obtain ⟨id', node', rfl, exprs, read', same'⟩ := sim.reads tasks read
    cases same' with
    | function made =>
    obtain ⟨next, later, closures, worlds⟩ := made _ _ worlds
    exact ⟨next, _, _, later, .function read', .value (.function closures), worlds⟩
  | firstAborts read begins _ aborts ih =>
    obtain ⟨id', node', rfl, exprs, read', same'⟩ := sim.reads tasks read
    obtain ⟨child', begins', child⟩ := same'.first begins
    obtain ⟨next, outcome', after', later, ended, related, worlds⟩ := ih (.expr child) worlds
    have aborts' := related.aborts.symm.trans aborts
    exact ⟨next, outcome', after', later, .firstAborts read' begins' ended aborts', related, worlds⟩
  | print read _ ih =>
    obtain ⟨id', node', rfl, exprs, read', same'⟩ := sim.reads tasks read
    cases same' with
    | print operand =>
    obtain ⟨next, value', after', later, ended, related, worlds⟩ := (ih (.expr operand) worlds).value
    exact ⟨next, _, _, later, .print read' ended, .value related, sim.print worlds related⟩
  | binary read _ _ applied ihLeft ihRight =>
    obtain ⟨id', node', rfl, exprs, read', same'⟩ := sim.reads tasks read
    cases same' with
    | binary _ left right =>
    obtain ⟨middle, a', _, later, ended, relatedLeft, worlds⟩ := (ihLeft (.expr left) worlds).value
    have right := sim.exprs_later later right
    obtain ⟨next, b', _, later', ended', relatedRight, worlds⟩ := (ihRight (.expr right) worlds).value
    have relatedLeft := sim.values_later later' relatedLeft
    have applied' := (Operator.apply_related sim.identity relatedLeft relatedRight _).symm.trans applied
    have scalar := Operator.apply_scalar applied
    exact ⟨next, _, _, sim.later_trans later later', .binary read' ended ended' applied',
      .value (.of_scalar scalar), worlds⟩
  | binaryFails read _ _ applied ihLeft ihRight =>
    obtain ⟨id', node', rfl, exprs, read', same'⟩ := sim.reads tasks read
    cases same' with
    | binary _ left right =>
    obtain ⟨middle, a', _, later, ended, relatedLeft, worlds⟩ := (ihLeft (.expr left) worlds).value
    have right := sim.exprs_later later right
    obtain ⟨next, b', _, later', ended', relatedRight, worlds⟩ := (ihRight (.expr right) worlds).value
    have relatedLeft := sim.values_later later' relatedLeft
    have applied' := (Operator.apply_related sim.identity relatedLeft relatedRight _).symm.trans applied
    exact ⟨next, _, _, sim.later_trans later later', .binaryFails read' ended ended' applied',
      .failure _, worlds⟩
  | rightAborts read _ _ aborts ihLeft ihRight =>
    obtain ⟨id', node', rfl, exprs, read', same'⟩ := sim.reads tasks read
    cases same' with
    | binary _ left right =>
    obtain ⟨middle, a', _, later, ended, _, worlds⟩ := (ihLeft (.expr left) worlds).value
    have right := sim.exprs_later later right
    obtain ⟨next, outcome', after', later', ended', related, worlds⟩ := ihRight (.expr right) worlds
    have aborts' := related.aborts.symm.trans aborts
    exact ⟨next, outcome', after', sim.later_trans later later', .rightAborts read' ended ended' aborts',
      related, worlds⟩
  | branchTrue read _ _ ihCondition ihTaken =>
    obtain ⟨id', node', rfl, exprs, read', same'⟩ := sim.reads tasks read
    cases same' with
    | branch condition taken | branchElse condition taken =>
      obtain ⟨middle, _, _, later, ended, ⟨⟩, worlds⟩ := (ihCondition (.expr condition) worlds).value
      have taken := sim.exprs_later later taken
      obtain ⟨next, outcome', after', later', ended', related, worlds⟩ := ihTaken (.expr taken) worlds
      exact ⟨next, outcome', after', sim.later_trans later later', .branchTrue read' ended ended',
        related, worlds⟩
  | branchFalse read _ _ ihCondition ihTaken =>
    obtain ⟨id', node', rfl, exprs, read', same'⟩ := sim.reads tasks read
    cases same' with
    | branchElse condition _ taken =>
    obtain ⟨middle, _, _, later, ended, ⟨⟩, worlds⟩ := (ihCondition (.expr condition) worlds).value
    have taken := sim.exprs_later later taken
    obtain ⟨next, outcome', after', later', ended', related, worlds⟩ := ihTaken (.expr taken) worlds
    exact ⟨next, outcome', after', sim.later_trans later later', .branchFalse read' ended ended',
      related, worlds⟩
  | branchNone read _ ihCondition =>
    obtain ⟨id', node', rfl, exprs, read', same'⟩ := sim.reads tasks read
    cases same' with
    | branch condition _ =>
    obtain ⟨next, _, _, later, ended, ⟨⟩, worlds⟩ := (ihCondition (.expr condition) worlds).value
    exact ⟨next, _, _, later, .branchNone read' ended, .value .null, worlds⟩
  | branchOther read _ other ihCondition =>
    obtain ⟨id', node', rfl, exprs, read', same'⟩ := sim.reads tasks read
    cases same' with
    | branch condition | branchElse condition =>
      obtain ⟨next, _, _, later, ended, related, worlds⟩ := (ihCondition (.expr condition) worlds).value
      have other' := related.toBool?.symm.trans other
      rw [related.typeName]
      exact ⟨next, _, _, later, .branchOther read' ended other', .failure _, worlds⟩
  | loopDone read _ ihCondition =>
    obtain ⟨id', node', rfl, exprs, read', same'⟩ := sim.reads tasks read
    cases same' with
    | loop condition _ =>
    obtain ⟨next, _, _, later, ended, ⟨⟩, worlds⟩ := (ihCondition (.expr condition) worlds).value
    exact ⟨next, _, _, later, .loopDone read' ended, .value .null, worlds⟩
  | loopAgain read _ _ _ ihCondition ihBody ihAgain =>
    obtain ⟨id', node', rfl, exprs, read', same'⟩ := sim.reads tasks read
    cases same' with
    | loop condition body =>
    obtain ⟨tested, _, _, later, ended, ⟨⟩, worlds⟩ := (ihCondition (.expr condition) worlds).value
    have body := sim.exprs_later later body
    obtain ⟨passed, _, _, later', ended', _, worlds⟩ := (ihBody (.expr body) worlds).value
    have again := sim.exprs_later (sim.later_trans later later') exprs
    obtain ⟨next, outcome', after', later'', ended'', related, worlds⟩ := ihAgain (.expr again) worlds
    exact ⟨next, outcome', after', sim.later_trans (sim.later_trans later later') later'',
      .loopAgain read' ended ended' ended'', related, worlds⟩
  | loopAborts read _ _ aborts ihCondition ihBody =>
    obtain ⟨id', node', rfl, exprs, read', same'⟩ := sim.reads tasks read
    cases same' with
    | loop condition body =>
    obtain ⟨tested, _, _, later, ended, ⟨⟩, worlds⟩ := (ihCondition (.expr condition) worlds).value
    have body := sim.exprs_later later body
    obtain ⟨next, outcome', after', later', ended', related, worlds⟩ := ihBody (.expr body) worlds
    have aborts' := related.aborts.symm.trans aborts
    exact ⟨next, outcome', after', sim.later_trans later later', .loopAborts read' ended ended' aborts',
      related, worlds⟩
  | loopOther read _ other ihCondition =>
    obtain ⟨id', node', rfl, exprs, read', same'⟩ := sim.reads tasks read
    cases same' with
    | loop condition _ =>
    obtain ⟨next, _, _, later, ended, related, worlds⟩ := (ihCondition (.expr condition) worlds).value
    have other' := related.toBool?.symm.trans other
    rw [related.typeName]
    exact ⟨next, _, _, later, .loopOther read' ended other', .failure _, worlds⟩
  | seq read _ _ same ihFirst ihSecond =>
    obtain ⟨id', node', rfl, exprs, read', same'⟩ := sim.reads tasks read
    cases same' with
    | seq first second =>
    obtain ⟨middle, a', _, later, ended, relatedFirst, worlds⟩ := (ihFirst (.expr first) worlds).value
    have second := sim.exprs_later later second
    obtain ⟨next, b', _, later', ended', relatedSecond, worlds⟩ := (ihSecond (.expr second) worlds).value
    have relatedFirst := sim.values_later later' relatedFirst
    refine ⟨next, _, _, sim.later_trans later later', .seq read' ended ended' rfl, ?_, worlds⟩
    rw [← same, relatedSecond.isNull]
    split
    · exact .value relatedFirst
    · exact .value relatedSecond
  | secondAborts read _ _ aborts ihFirst ihSecond =>
    obtain ⟨id', node', rfl, exprs, read', same'⟩ := sim.reads tasks read
    cases same' with
    | seq first second =>
    obtain ⟨middle, a', _, later, ended, _, worlds⟩ := (ihFirst (.expr first) worlds).value
    have second := sim.exprs_later later second
    obtain ⟨next, outcome', after', later', ended', related, worlds⟩ := ihSecond (.expr second) worlds
    have aborts' := related.aborts.symm.trans aborts
    exact ⟨next, outcome', after', sim.later_trans later later', .secondAborts read' ended ended' aborts',
      related, worlds⟩
  | declare read _ free ih =>
    obtain ⟨id', node', rfl, exprs, read', same'⟩ := sim.reads tasks read
    cases same' with
    | declare declares init =>
    obtain ⟨next, value', _, later, ended, related, worlds⟩ := (ih (.expr init) worlds).value
    have declares := sim.declares_later later declares
    have free' := (sim.binds worlds declares).symm.trans free
    exact ⟨next, _, _, later, .declare read' ended free', .value related,
      sim.declare worlds declares related free⟩
  | redeclare read _ bound ih =>
    obtain ⟨id', node', rfl, exprs, read', same'⟩ := sim.reads tasks read
    cases same' with
    | declare declares init =>
    obtain ⟨next, value', _, later, ended, _, worlds⟩ := (ih (.expr init) worlds).value
    have declares := sim.declares_later later declares
    have bound' := (sim.binds worlds declares).symm.trans bound
    rw [sim.text (sim.declares_uses declares)]
    exact ⟨next, _, _, later, .redeclare read' ended bound', .failure _, worlds⟩
  | assign read _ ih =>
    obtain ⟨id', node', rfl, exprs, read', same'⟩ := sim.reads tasks read
    cases same' with
    | assign used source =>
    obtain ⟨next, value', _, later, ended, related, worlds⟩ := (ih (.expr source) worlds).value
    have scopes := sim.scopes_later later (sim.scope exprs)
    exact ⟨next, _, _, later, .assign read' ended, .value related, sim.assign worlds scopes used related⟩
  | notCallable read _ other ih =>
    obtain ⟨id', node', rfl, exprs, read', same'⟩ := sim.reads tasks read
    cases same' with
    | call callee _ =>
    obtain ⟨next, value', _, later, ended, related, worlds⟩ := (ih (.expr callee) worlds).value
    have other' : value'.toFunction? = none := by cases related <;> first | rfl | cases other
    rw [related.typeName]
    exact ⟨next, _, _, later, .notCallable read' ended other', .failure _, worlds⟩
  | argsMissing read _ absent ih =>
    obtain ⟨id', node', rfl, exprs, read', same'⟩ := sim.reads tasks read
    cases same' with
    | call callee args =>
    obtain ⟨next, _, _, later, ended, ⟨⟩, worlds⟩ := (ih (.expr callee) worlds).value
    obtain ⟨gap, absent'⟩ := args.of_none absent
    exact ⟨next, _, _, later, .argsMissing read' ended absent', .outOfRange gap, worlds⟩
  | call read _ present _ ihCallee ihArguments =>
    obtain ⟨id', node', rfl, exprs, read', same'⟩ := sim.reads tasks read
    cases same' with
    | call callee args =>
    obtain ⟨middle, _, _, later, ended, related, worlds⟩ := (ihCallee (.expr callee) worlds).value
    cases related with
    | function closures =>
    obtain ⟨ids', present', listed⟩ := args.of_some present
    have listed := listed.imp fun _ _ => sim.exprs_later later
    obtain ⟨next, outcome', after', later', ended', related, worlds⟩ :=
      ihArguments (.arguments closures .nil listed) worlds
    exact ⟨next, outcome', after', sim.later_trans later later', .call read' ended present' ended',
      related, worlds⟩
  | argument _ _ ihFirst ihRest =>
    obtain _ | ⟨closures, valued, listed⟩ := tasks
    cases listed with
    | cons first rest =>
    obtain ⟨middle, value', _, later, ended, related, worlds⟩ := (ihFirst (.expr first) worlds).value
    have closures := sim.closures_later later closures
    have valued := valued.imp fun _ _ => sim.values_later later
    have rest := rest.imp fun _ _ => sim.exprs_later later
    obtain ⟨next, outcome', after', later', ended', related, worlds⟩ :=
      ihRest (.arguments closures (.cons related valued) rest) worlds
    exact ⟨next, outcome', after', sim.later_trans later later', .argument ended ended', related, worlds⟩
  | argumentAborts _ aborts ih =>
    obtain _ | ⟨closures, valued, listed⟩ := tasks
    cases listed with
    | cons first rest =>
    obtain ⟨next, outcome', after', later, ended, related, worlds⟩ := ih (.expr first) worlds
    have aborts' := related.aborts.symm.trans aborts
    exact ⟨next, outcome', after', later, .argumentAborts ended aborts', related, worlds⟩
  | argumentsDone _ ih =>
    obtain _ | ⟨closures, valued, listed⟩ := tasks
    cases listed
    have valued := List.rel_reverse valued
    obtain ⟨next, outcome', after', later, ended, related, worlds⟩ := ih (.call closures valued) worlds
    exact ⟨next, outcome', after', later, .argumentsDone ended, related, worlds⟩
  | arity different =>
    obtain _ | _ | ⟨closures, valued⟩ := tasks
    rw [sim.arity closures, valued.length_eq] at different ⊢
    exact ⟨stage, _, _, sim.later_refl stage, .arity different, .failure _, sim.emit _ (sim.emit _ worlds)⟩
  | paramsMissing same entered absent =>
    obtain _ | _ | ⟨closures, valued⟩ := tasks
    have same' := valued.length_eq.symm.trans (same.trans (sim.arity closures))
    obtain ⟨gap, absent'⟩ := (sim.params closures).of_none absent
    obtain ⟨next, later, worlds, _, _⟩ := sim.enter closures (sim.enterCall closures worlds)
    rw [entered] at worlds
    exact ⟨next, _, _, later, .paramsMissing same' rfl absent', .outOfRange gap, sim.emit _ worlds⟩
  | paramRepeated same entered present repeated =>
    obtain _ | _ | ⟨closures, valued⟩ := tasks
    have same' := valued.length_eq.symm.trans (same.trans (sim.arity closures))
    obtain ⟨params', present', named⟩ := (sim.params closures).of_some present
    obtain ⟨next, later, worlds, fresh, _⟩ := sim.enter closures (sim.enterCall closures worlds)
    have valued := valued.imp fun _ _ => sim.values_later later
    obtain ⟨stopped, worlds⟩ := sim.declareAll fresh named valued worlds
    rw [entered, repeated.declareAll] at stopped worlds
    generalize bound : World.declareAll _ _ (params'.zip _) = result at stopped worlds
    obtain ⟨stop', bound'⟩ := result
    cases stopped with
    | some used =>
    rw [sim.text used]
    have repeated' := World.declares_of_declareAll (Closure.params_paired same' present') bound
    exact ⟨next, _, _, later, .paramRepeated same' rfl present' repeated', .failure _, sim.emit _ worlds⟩
  | body same entered present declared _ ih =>
    obtain _ | _ | ⟨closures, valued⟩ := tasks
    have same' := valued.length_eq.symm.trans (same.trans (sim.arity closures))
    obtain ⟨params', present', named⟩ := (sim.params closures).of_some present
    obtain ⟨middle, later, worlds, fresh, body⟩ := sim.enter closures (sim.enterCall closures worlds)
    have valued := valued.imp fun _ _ => sim.values_later later
    obtain ⟨stopped, worlds⟩ := sim.declareAll fresh named valued worlds
    rw [entered, declared.declareAll] at stopped worlds
    rw [entered] at body
    generalize bound : World.declareAll _ _ (params'.zip _) = result at stopped worlds
    obtain ⟨stop', bound'⟩ := result
    cases stopped
    obtain ⟨next, outcome', after', later', ended, related, worlds⟩ := ih (.expr body) worlds
    have declared' := World.declares_of_declareAll (Closure.params_paired same' present') bound
    exact ⟨next, _, _, sim.later_trans later later', .body same' rfl present' declared' ended, related,
      sim.leaveCall worlds related⟩

theorem flip (sim : pair.Simulates gaps names names') : pair.flip.Simulates gaps names' names where
  later_refl := sim.later_refl
  later_trans := sim.later_trans
  closures_later := sim.closures_later
  scopes_later := sim.scopes_later
  declares_later := sim.declares_later
  exprs_later := sim.exprs_later
  text used := (sim.text used).symm
  declares_uses := sim.declares_uses
  identity left right := (sim.identity left right).symm
  scope := sim.scope
  read {stage site site' id id'} exprs := by
    apply (sim.read exprs).flip.mono
    intro node node' same
    apply same.flip.mono
    · exact fun _ _ used => used
    · exact fun _ _ declares => declares
    · exact fun _ _ child => child
    · intro params body params' body' made world world' worlds
      exact made world' world worlds
  resolve worlds scopes used := (sim.resolve worlds scopes used).flip
  emit := sim.emit
  print worlds related := sim.print worlds related.flip
  binds worlds declares := (sim.binds worlds declares).symm
  declare worlds declares related free :=
    sim.declare worlds declares related.flip ((sim.binds worlds declares).trans free)
  assign worlds scopes used related := sim.assign worlds scopes used related.flip
  arity closures := (sim.arity closures).symm
  params closures := (sim.params closures).flip.mono fun _ _ named => List.Forall₂.flip named
  enter closures worlds := by
    obtain ⟨next, later, worlds, fresh, body⟩ := sim.enter closures worlds
    exact ⟨next, later, worlds, fun name name' used => fresh name' name used, body⟩

end Simulates

end Correspondence

/-- Two evaluations both end or neither does, and if they end they do so in a related way. -/
def BothOrNeither (left right : Outcome → World → Prop)
    (relates : Outcome → World → Outcome → World → Prop) : Prop :=
  (∀ outcome after, left outcome after →
    ∃ outcome' after', right outcome' after' ∧ relates outcome after outcome' after') ∧
  ∀ outcome' after', right outcome' after' →
    ∃ outcome after, left outcome after ∧ relates outcome after outcome' after'

theorem BothOrNeither.mono {left right : Outcome → World → Prop}
    {relates other : Outcome → World → Outcome → World → Prop} (both : BothOrNeither left right relates)
    (weaker : ∀ outcome after outcome' after', relates outcome after outcome' after' →
      other outcome after outcome' after') : BothOrNeither left right other := by
  constructor
  · intro outcome after ended
    obtain ⟨outcome', after', ended', related⟩ := both.1 outcome after ended
    exact ⟨outcome', after', ended', weaker _ _ _ _ related⟩
  · intro outcome' after' ended'
    obtain ⟨outcome, after, ended, related⟩ := both.2 outcome' after' ended'
    exact ⟨outcome, after, ended, weaker _ _ _ _ related⟩

theorem BothOrNeither.extend {left right longer : Outcome → World → Prop}
    {relates : Outcome → World → Outcome → World → Prop} {finish : World → Outcome → World}
    (goesOn : ∀ outcome after, longer outcome after ↔ ∃ middle, left outcome middle ∧ after = finish middle outcome)
    (both : BothOrNeither left right fun outcome middle => relates outcome (finish middle outcome)) :
    BothOrNeither longer right relates := by
  constructor
  · intro outcome after ended
    obtain ⟨middle, early, rfl⟩ := (goesOn outcome after).mp ended
    exact both.1 outcome middle early
  · intro outcome' after' ended'
    obtain ⟨outcome, middle, early, related⟩ := both.2 outcome' after' ended'
    exact ⟨outcome, _, (goesOn outcome _).mpr ⟨middle, early, rfl⟩, related⟩

theorem Correspondence.Simulates.bothOrNeither {pair : Correspondence} {gaps : Prop} {names names' : Interner}
    (sim : pair.Simulates gaps names names') {stage : pair.Stage} {site site' : Site} {id id' : ExprId}
    {world world' : World} (exprs : pair.exprs stage site id site' id') (worlds : pair.worlds stage world world') :
    BothOrNeither (Finishes names site id world) (Finishes names' site' id' world')
      fun outcome after outcome' after' => ∃ next, pair.later stage next ∧
        pair.outcomes gaps next outcome outcome' ∧ pair.worlds next after after' := by
  constructor
  · intro outcome after finishes
    obtain ⟨next, outcome', after', later, ended, related, worlds⟩ :=
      sim.follows finishes.evaluates (.expr exprs) worlds
    exact ⟨outcome', after', ended.finishes, next, later, related, worlds⟩
  · intro outcome' after' finishes
    have exprs : pair.flip.exprs stage site' id' site id := exprs
    obtain ⟨next, outcome, after, later, ended, related, worlds⟩ :=
      sim.flip.follows finishes.evaluates (.expr exprs) worlds
    exact ⟨outcome, after, ended.finishes, next, later, related.flip, worlds⟩

end ScopedEval
