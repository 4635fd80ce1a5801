import ScopedEval.Proofs.Heaps
import ScopedEval.Proofs.Printing

namespace ScopedEval

def linesText (lines : List String) : String := String.join (lines.map fun line => line ++ "\n")

@[simp] theorem linesText_nil : linesText [] = "" := String.join_nil

theorem linesText_cons (line : String) (rest : List String) :
    linesText (line :: rest) = line ++ "\n" ++ linesText rest := by
  rw [linesText, List.map_cons, String.join_cons]
  rfl

theorem linesText_append (early late : List String) :
    linesText (early ++ late) = linesText early ++ linesText late := by
  rw [linesText, List.map_append, String.join_append]
  rfl

theorem linesText_values (values : List Value) : linesText (values.map Value.text) = printedText values := by
  induction values with
  | nil => exact linesText_nil
  | cons value rest ih => rw [List.map_cons, linesText_cons, ih, printedText]

theorem sink_of_evaluate {names : Interner} {fuel : Nat} {site : Site} {id : ExprId} {world after : World}
    {outcome : Outcome} {prints : List (Nat × Value)} (ended : evaluate names fuel site id world = some (outcome, after))
    (printed : (State.eval id site [] world).Prints names prints) :
    after.sink = world.sink.receive (linesText ((prints.map Prod.snd).map Value.text)) := by
  obtain ⟨all, same, received⟩ := State.exists_prints ⟨fuel, ended⟩
  rw [linesText_values, printed.unique same, received]

theorem sink_of_evaluateProgram {names : Interner} {fuel : Nat} {site : Site} {id : ExprId} {world after : World}
    {outcome : Outcome} {prints : List (Nat × Value)}
    (ended : evaluateProgram names fuel site (some id) world = some (outcome, after))
    (printed : (State.eval id site [] (world.emit .enterProgram)).Prints names prints) :
    after.sink = world.sink.receive (linesText ((prints.map Prod.snd).map Value.text)) := by
  obtain ⟨⟨other, last⟩, evaluated, same⟩ := Option.map_eq_some_iff.mp ended
  cases same
  have received := sink_of_evaluate evaluated printed
  rw [World.sink_leaveProgram, received]
  rfl

inductive Use where
  | wrote (line : String)
  | printed (value : Value)
  | read (text : String)
  | took (text : String)
  | evaluated (values : List Value)

namespace Use

def lines : Use → List String
  | wrote line => [line]
  | printed value => [value.text]
  | evaluated values => values.map Value.text
  | read _ | took _ => []

def taken? : Use → Option String
  | took text => some text
  | wrote _ | printed _ | read _ | evaluated _ => none

def answer? : Use → Option String
  | read text | took text => some text
  | wrote _ | printed _ | evaluated _ => none

def reads : Use → Bool
  | read _ => true
  | wrote _ | printed _ | took _ | evaluated _ => false

end Use

namespace Sink

def captures : Sink → Bool
  | buffer _ => true
  | stdout _ | silent => false

@[simp] theorem captures_receive (sink : Sink) (text : String) : (sink.receive text).captures = sink.captures := by
  cases sink <;> rfl

@[simp] theorem captures_take (sink : Sink) : sink.take.2.captures = sink.captures := by cases sink <;> rfl

theorem output_of_not_captures {sink : Sink} (discards : sink.captures = false) : sink.output = "" := by
  cases sink with
  | buffer captured => cases discards
  | stdout | silent => rfl

/-- One use of a sink by those who share it. An evaluation may be with any names, at any site and in any frames:
    evaluations need not have more in common than the sink. -/
inductive Serves : Sink → Use → Sink → Prop where
  | writeLine (sink : Sink) (line : String) : Serves sink (.wrote line) (sink.writeLine line)
  | writeValue (sink : Sink) (value : Value) : Serves sink (.printed value) (sink.writeValue value)
  | output (sink : Sink) : Serves sink (.read sink.output) sink
  | take (sink : Sink) : Serves sink (.took sink.take.1) sink.take.2
  | evaluate {names : Interner} {fuel : Nat} {site : Site} {id : ExprId} {world after : World} {outcome : Outcome}
      {prints : List (Nat × Value)} :
      evaluate names fuel site id world = some (outcome, after) →
      (State.eval id site [] world).Prints names prints →
      Serves world.sink (.evaluated (prints.map Prod.snd)) after.sink
  | run {names : Interner} {fuel : Nat} {site : Site} {id : ExprId} {world after : World} {outcome : Outcome}
      {prints : List (Nat × Value)} :
      evaluateProgram names fuel site (some id) world = some (outcome, after) →
      (State.eval id site [] (world.emit .enterProgram)).Prints names prints →
      Serves world.sink (.evaluated (prints.map Prod.snd)) after.sink
  | runNothing {names : Interner} {fuel : Nat} {site : Site} {world after : World} {outcome : Outcome} :
      evaluateProgram names fuel site none world = some (outcome, after) →
      Serves world.sink (.evaluated []) after.sink

inductive History (start : Sink) : List Use → Sink → Prop where
  | refl : History start [] start
  | step {uses : List Use} {middle now : Sink} {use : Use} : History start uses middle →
      middle.Serves use now → History start (uses ++ [use]) now

namespace Serves

variable {sink now : Sink} {use : Use}

theorem effect (serves : sink.Serves use now) :
    (use = .took sink.output ∧ now = sink.take.2) ∨
      (use.taken? = none ∧ now = sink.receive (linesText use.lines)) := by
  have single (line : String) : linesText [line] = line ++ "\n" := by
    rw [linesText_cons, linesText_nil, String.append_empty]
  cases serves with
  | writeLine line => exact .inr ⟨rfl, by rw [Use.lines, single, writeLine_eq]⟩
  | writeValue value => exact .inr ⟨rfl, by rw [Use.lines, single, writeValue_eq]⟩
  | output => exact .inr ⟨rfl, by rw [Use.lines, linesText_nil, receive_empty]⟩
  | take => exact .inl ⟨by rw [take_fst], rfl⟩
  | evaluate ended printed => exact .inr ⟨rfl, sink_of_evaluate ended printed⟩
  | run ended printed => exact .inr ⟨rfl, sink_of_evaluateProgram ended printed⟩
  | runNothing ended =>
    cases ended
    exact .inr ⟨rfl, by rw [Use.lines, List.map_nil, linesText_nil, receive_empty]; rfl⟩

theorem captures_eq (serves : sink.Serves use now) : now.captures = sink.captures := by
  rcases serves.effect with ⟨_, rfl⟩ | ⟨_, rfl⟩
  · exact sink.captures_take
  · exact sink.captures_receive _

theorem answer (serves : sink.Serves use now) {text : String} (answers : use.answer? = some text) :
    text = sink.output := by
  cases serves with
  | output => exact (Option.some.inj answers).symm
  | take => exact (Option.some.inj answers).symm.trans sink.take_fst
  | _ => cases answers

theorem unchanged (serves : sink.Serves use now) (reads : use.reads = true) : now = sink := by
  cases serves with
  | output => rfl
  | _ => cases reads

end Serves

namespace History

variable {start now : Sink} {uses : List Use}

theorem captures_eq (history : start.History uses now) : now.captures = start.captures := by
  induction history with
  | refl => rfl
  | step _ serves ih => exact serves.captures_eq.trans ih

/-- What was taken and what a buffer holds now is, in order, what it held at first and what was written since. -/
theorem balance {held : String} (history : (buffer held).History uses now) :
    ∃ captured, now = .buffer captured ∧
      String.join (uses.filterMap Use.taken?) ++ captured = held ++ linesText (uses.flatMap Use.lines) := by
  induction history with
  | refl => exact ⟨held, rfl, by simp⟩
  | @step uses middle now use _ serves ih =>
    obtain ⟨captured, rfl, balanced⟩ := ih
    rw [List.filterMap_append, List.flatMap_append, String.join_append, linesText_append, ← String.append_assoc,
      ← balanced]
    -- text that is taken only changes sides; lines that are written come last on both
    rcases serves.effect with ⟨rfl, rfl⟩ | ⟨kept, rfl⟩
    · refine ⟨"", rfl, ?_⟩
      simp [Use.taken?, Use.lines, output]
    · refine ⟨captured ++ linesText use.lines, rfl, ?_⟩
      simp [kept, String.append_assoc]

theorem answers (history : start.History uses now) (discards : start.captures = false) :
    ∀ use ∈ uses, ∀ text, use.answer? = some text → text = "" := by
  induction history with
  | refl => exact fun _ none => by cases none
  | @step uses middle now use earlier serves ih =>
    intro other member text answers
    rcases List.mem_append.mp member with member | last
    · exact ih other member text answers
    · cases List.mem_singleton.mp last
      rw [serves.answer answers]
      exact output_of_not_captures (earlier.captures_eq.trans discards)

theorem without_reads (history : start.History uses now) :
    start.History (uses.filter fun use => !use.reads) now := by
  induction history with
  | refl => exact .refl
  | @step uses middle now use _ serves ih =>
    rw [List.filter_append]
    cases reads : use.reads with
    | true =>
      rw [serves.unchanged reads]
      simpa [reads] using ih
    | false => simpa [reads] using ih.step serves

end History

end Sink

/-- A buffer neither loses nor repeats text: all that was taken from a new one, followed by what it holds, is the lines
    written to it, in order and each with its newline; and once it is taken from, it is empty. Readings change
    nothing: without them the other uses lead to the same sink. No other sink ever hands back text. -/
theorem captured_text_is_written_text {start now : Sink} {uses : List Use} (history : start.History uses now) :
    (start = .buffer "" →
      String.join (uses.filterMap Use.taken?) ++ now.output = linesText (uses.flatMap Use.lines) ∧
        now.take = (now.output, .buffer "")) ∧
    start.History (uses.filter fun use => !use.reads) now ∧
    (start.captures = false → ∀ use ∈ uses, ∀ text, use.answer? = some text → text = "") := by
  refine ⟨?_, history.without_reads, history.answers⟩
  rintro rfl
  obtain ⟨captured, rfl, balanced⟩ := history.balance
  rw [String.empty_append] at balanced
  exact ⟨balanced, rfl⟩

/-- Calls a function that prints and calls another, which prints and then divides by zero; the outer one was to print
    what the inner one yields. -/
def interrupted : Arena where
  nodes := #[.literal (.int 7), .print ⟨0⟩, .literal (.int 0), .binary .div ⟨0⟩ ⟨2⟩, .seq ⟨1⟩ ⟨3⟩,
    .function ⟨0, 0⟩ ⟨4⟩, .call ⟨5⟩ ⟨0, 0⟩, .print ⟨6⟩, .literal (.bool true), .print ⟨8⟩, .seq ⟨9⟩ ⟨7⟩,
    .function ⟨0, 0⟩ ⟨10⟩, .call ⟨11⟩ ⟨0, 0⟩]
  args := #[]
  params := #[]

theorem captured_text_is_written_text_interrupted :
    let values : List Value := [.bool true, .int 7]
    let uses : List Use := [.wrote "", .evaluated values, .read "\ntrue\n7\n", .took "\ntrue\n7\n", .printed (.int (-3)),
      .took "-3\n", .evaluated values]
    Sink.History (.buffer "") uses (.buffer "true\n7\n") ∧
    String.join ["\ntrue\n7\n", "-3\n"] ++ "true\n7\n" = linesText ["", "true", "7", "-3", "true", "7"] ∧
    Sink.History .silent [.evaluated values, .took ""] .silent ∧
    ∀ text now, Sink.History .silent [.evaluated values, .took text] now → text = "" := by
  intro values uses
  have fails {sink now : Sink}
      (ran : (evaluate .new 60 ⟨⟨0, interrupted⟩, ⟨0⟩⟩ ⟨12⟩ (emptyWorld.withSink sink)).map
        (fun result => (result.1, result.2.sink)) = some (.failure .divisionByZero, now)) :
      sink.Serves (.evaluated values) now := by
    have stopped : ((State.step .new)^[60] (State.eval ⟨12⟩ ⟨⟨0, interrupted⟩, ⟨0⟩⟩ [] emptyWorld)).ended = true := by
      decide +kernel
    have shown : ((State.eval ⟨12⟩ ⟨⟨0, interrupted⟩, ⟨0⟩⟩ [] emptyWorld).printsWithin .new 60).map Prod.snd = values := by
      decide +kernel
    obtain ⟨⟨outcome, after⟩, ended, same⟩ := Option.map_eq_some_iff.mp ran
    obtain ⟨_, rfl⟩ := Prod.mk.inj same
    rw [← shown]
    exact .evaluate ended (State.prints_withSink rfl stopped sink)
  have early : Sink.Serves (.buffer "\n") (.evaluated values) (.buffer "\ntrue\n7\n") :=
    fails (by decide +kernel)
  have late : Sink.Serves (.buffer "") (.evaluated values) (.buffer "true\n7\n") :=
    fails (by decide +kernel)
  have unheard : Sink.Serves .silent (.evaluated values) .silent := fails (by decide +kernel)
  have begun : Sink.History (.buffer "") [.wrote "", .evaluated values] (.buffer "\ntrue\n7\n") :=
    (Sink.History.refl.step (.writeLine _ "")).step early
  have history : Sink.History (.buffer "") uses (.buffer "true\n7\n") :=
    ((((begun.step (.output _)).step (.take _)).step (.writeValue _ (.int (-3)))).step (.take _)).step late
  refine ⟨history, ((captured_text_is_written_text history).1 rfl).1,
    (Sink.History.refl.step unheard).step (.take .silent), fun text now other => ?_⟩
  exact (captured_text_is_written_text other).2.2 rfl (.took text) (by simp) text rfl

end ScopedEval
