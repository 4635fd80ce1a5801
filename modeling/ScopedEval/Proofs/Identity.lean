import ScopedEval.Proofs.Clients

namespace ScopedEval

namespace Value

theorem equals_iff {left right : Value} :
    left.equals right = true ↔ Related (fun closure closure' => closure.stamp = closure'.stamp) left right := by
  constructor
  · intro same
    cases left with
    | int value =>
      cases right with
      | int other => exact beq_iff_eq.mp same ▸ .int value
      | _ => cases same
    | bool value =>
      cases right with
      | bool other => exact beq_iff_eq.mp same ▸ .bool value
      | _ => cases same
    | null =>
      cases right with
      | null => exact .null
      | _ => cases same
    | function closure =>
      cases right with
      | function other => exact .function (beq_iff_eq.mp same)
      | _ => cases same
  · intro related
    cases related with
    | function same => exact beq_iff_eq.mpr same
    | _ => exact equals_self _

theorem equals_trans {first second third : Value} (left : first.equals second = true)
    (right : second.equals third = true) : first.equals third = true := by
  rw [equals_iff] at left right ⊢
  cases left with
  | function same =>
    cases right with
    | function same' => exact .function (same.trans same')
  | _ => exact right

end Value

inductive Origin where
  | given (closure : Closure)
  | made (index : Nat)

namespace Client

structure Sound (client : Client) : Prop where
  issued {closure : Closure} : client.Holds (.function closure) → closure.stamp < client.heap.closures
  one {left right : Closure} : client.Holds (.function left) → client.Holds (.function right) →
    (Value.function left).equals (.function right) = true → left = right

theorem sound_of_nothing {client : Client} (nothing : ∀ value, ¬ client.Holds value) : client.Sound :=
  ⟨fun there => absurd there (nothing _), fun there => absurd there (nothing _)⟩

def Stems (start : Client) (made : List Closure) (closure : Closure) : Origin → Prop
  | .given source => start.Holds (.function source) ∧ closure = source
  | .made index => made[index]? = some closure

theorem Stems.unique {start : Client} {made : List Closure} {left right : Closure} {origin : Origin}
    (first : start.Stems made left origin) (second : start.Stems made right origin) : left = right := by
  cases origin with
  | given source => exact first.2.trans second.2.symm
  | made index => exact Option.some.inj (first.symm.trans second)

namespace Runs

variable {start now : Client} {made : List Closure}

theorem stems (runs : start.Runs made now) {closure : Closure} (there : now.Holds (.function closure)) :
    ∃ origin, start.Stems made closure origin := by
  rcases runs.holds there with given | member
  · exact ⟨.given closure, given, rfl⟩
  · obtain ⟨index, read⟩ := List.mem_iff_getElem?.mp member
    exact ⟨.made index, read⟩

theorem stamp (runs : start.Runs made now) {index : Nat} {closure : Closure} (read : made[index]? = some closure) :
    index < made.length ∧ closure.stamp = start.heap.closures + index := by
  obtain ⟨_, stamps⟩ := runs.closures
  have inside : index < made.length := (List.getElem?_eq_some_iff.mp read).1
  have numbered : (made.map Closure.stamp)[index]? = some closure.stamp := by
    rw [List.getElem?_map, read]
    rfl
  rw [stamps, List.getElem?_range' inside] at numbered
  refine ⟨inside, ?_⟩
  have same := Option.some.inj numbered
  omega

theorem origin_unique (runs : start.Runs made now) (sound : start.Sound) {left right : Closure} {a b : Origin}
    (first : start.Stems made left a) (second : start.Stems made right b) (same : left.stamp = right.stamp) :
    left = right ∧ a = b := by
  -- the functions given at the start have smaller numbers than all made since
  cases a with
  | given source =>
    obtain ⟨given, rfl⟩ := first
    cases b with
    | given source' =>
      obtain ⟨given', rfl⟩ := second
      have one := sound.one given given' (beq_iff_eq.mpr same)
      exact ⟨one, congrArg Origin.given one⟩
    | made index =>
      have issued := sound.issued given
      have numbered := (runs.stamp second).2
      omega
  | made index =>
    have numbered := (runs.stamp first).2
    cases b with
    | given source =>
      obtain ⟨given, rfl⟩ := second
      have issued := sound.issued given
      omega
    | made index' =>
      have numbered' := (runs.stamp second).2
      have here : index = index' := by omega
      subst here
      exact ⟨first.unique second, rfl⟩

theorem stamp_lt (runs : start.Runs made now) (sound : start.Sound) {closure : Closure}
    (there : now.Holds (.function closure)) : closure.stamp < now.heap.closures := by
  have count := runs.closures.1
  rcases runs.stems there with ⟨source | index, stems⟩
  · obtain ⟨given, rfl⟩ := stems
    have issued := sound.issued given
    omega
  · have numbered := runs.stamp stems
    omega

theorem sound (runs : start.Runs made now) (sound : start.Sound) : now.Sound where
  issued := runs.stamp_lt sound
  one there there' same := by
    obtain ⟨_, stems⟩ := runs.stems there
    obtain ⟨_, stems'⟩ := runs.stems there'
    exact (runs.origin_unique sound stems stems' (beq_iff_eq.mp same)).1

/-- A function that is made equals nothing there has been. -/
theorem fresh {earlier next : Client} {late : List Closure} {closure : Closure} {value : Value}
    (early : start.Runs made earlier) (sound : start.Sound) (there : earlier.Holds value)
    (later : earlier.Runs late now) (step : now.Step (some closure) next) :
    value.equals (.function closure) = false := by
  cases value with
  | function other =>
    have older := early.stamp_lt sound there
    have count := later.closures.1
    have newest := step.closures.2 closure rfl
    have different : other.stamp ≠ closure.stamp := by omega
    exact beq_eq_false_iff_ne.mpr different
  | _ => rfl

end Runs

theorem Step.makes {client next : Client} {closure : Closure} (step : client.Step (some closure) next) :
    next.Holds (.function closure) := by
  generalize labelled : some closure = made at step
  cases step with
  | construct =>
    cases labelled
    exact .inl List.mem_cons_self
  | @proceed _ _ names state =>
    obtain ⟨_, _, makes⟩ := State.making?_eq_some_iff.mp labelled.symm
    have result : .function closure ∈ (state.step names).control.values := by
      rw [(makes.step names).1]
      exact List.mem_singleton_self _
    exact .inr (.inl (List.mem_append_left _ result))
  | _ => cases labelled

end Client

/-- Two functions are equal if and only if they are copies of one that was made once, be it by evaluating a
    function expression, by the client, or before the start. Every function has exactly one such origin, and one
    that is made is equal to no value there has been, in this state or any earlier one. -/
theorem function_identity_sound {start now : Client} {made : List Closure} (sound : start.Sound)
    (runs : start.Runs made now) :
    (∀ closure, now.Holds (.function closure) → ∃! origin, start.Stems made closure origin) ∧
    (∀ left right, now.Holds (.function left) → now.Holds (.function right) →
      ((Value.function left).equals (.function right) = true ↔
        ∃ origin, start.Stems made left origin ∧ start.Stems made right origin) ∧
      ((Value.function left).equals (.function right) = true →
        left.params = right.params ∧ left.body = right.body ∧ left.code = right.code ∧ left.scope = right.scope)) ∧
    (∀ names state id params body, now.activity = .evaluating names state → state.control = .perform (.expr id) →
      state.site.code.arena.node? id = some (.function params body) →
      ∃ closure, now.Step (some closure) { now with activity := .evaluating names (state.step names) } ∧
        (state.step names).control = .deliver (.value (.function closure)) ∧ closure.params = params ∧
        closure.body = body ∧ closure.code = state.site.code ∧ closure.scope = state.site.frame) ∧
    (∀ closure next, now.Step (some closure) next → next.Holds (.function closure) ∧
      ∀ early late earlier value, start.Runs early earlier → earlier.Runs late now → earlier.Holds value →
        value.equals (.function closure) = false) ∧
    now.Sound ∧
    (∀ value : Value, value.equals value = true) ∧
    (∀ left right : Value, left.equals right = right.equals left) ∧
    (∀ first second third : Value, first.equals second = true → second.equals third = true →
      first.equals third = true) ∧
    ∀ left right : Value, left.typeName ≠ right.typeName → left.equals right = false := by
  refine ⟨?_, ?_, ?_, ?_, runs.sound sound, Value.equals_self, Value.equals_comm, fun _ _ _ => Value.equals_trans, ?_⟩
  · intro closure there
    obtain ⟨origin, stems⟩ := runs.stems there
    exact ⟨origin, stems, fun other stems' => (runs.origin_unique sound stems' stems rfl).2⟩
  · intro left right there there'
    obtain ⟨origin, stems⟩ := runs.stems there
    obtain ⟨origin', stems'⟩ := runs.stems there'
    have one : (Value.function left).equals (.function right) = true → left = right ∧ origin = origin' :=
      fun same => runs.origin_unique sound stems stems' (beq_iff_eq.mp same)
    refine ⟨⟨fun same => ?_, ?_⟩, fun same => ?_⟩
    · obtain ⟨_, rfl⟩ := one same
      exact ⟨origin, stems, stems'⟩
    · rintro ⟨shared, first, second⟩
      rw [first.unique second]
      exact Value.equals_self _
    · obtain ⟨rfl, _⟩ := one same
      exact ⟨rfl, rfl, rfl, rfl⟩
  · intro names state id params body running performs read
    have makes : state.Makes state.site.code id _ := ⟨params, body, performs, rfl, read, rfl⟩
    obtain ⟨frames, values, activity⟩ := now
    cases running
    refine ⟨_, ?_, (makes.step names).1, rfl, rfl, rfl, rfl⟩
    rw [← State.making?_eq_some_iff.mpr ⟨_, _, makes⟩]
    exact .proceed
  · intro closure next step
    exact ⟨step.makes, fun _ _ _ _ early later there => early.fresh sound there later step⟩
  · intro left right different
    exact Bool.eq_false_iff.mpr fun same => different (Value.equals_iff.mp same).typeName

/-- Declares a function that makes a function, calls it twice, and copies the first result to a third name. -/
def makers : Arena where
  nodes := #[.literal .null, .function ⟨0, 0⟩ ⟨0⟩, .function ⟨0, 0⟩ ⟨1⟩, .declare ⟨1⟩ ⟨2⟩, .ident ⟨1⟩, .call ⟨4⟩ ⟨0, 0⟩,
    .declare ⟨2⟩ ⟨5⟩, .declare ⟨3⟩ ⟨5⟩, .ident ⟨2⟩, .declare ⟨4⟩ ⟨8⟩, .seq ⟨3⟩ ⟨6⟩, .seq ⟨10⟩ ⟨7⟩, .seq ⟨11⟩ ⟨9⟩]
  args := #[]
  params := #[]

def madeByCall (call : Nat) : Closure := ⟨call, ⟨0, 0⟩, ⟨0⟩, ⟨0, makers⟩, ⟨call⟩⟩

theorem emptyWorld_sound (frames : List FrameId) : Client.Sound ⟨frames, [], .idle emptyWorld⟩ := by
  apply Client.sound_of_nothing
  rintro value (known | ⟨id, name, read⟩)
  · cases known
  · rw [get?_emptyWorld] at read
    cases read

theorem function_identity_sound_makers :
    Client.Sound ⟨[⟨0⟩], [], .idle emptyWorld⟩ ∧ ∃ made now, Client.Runs ⟨[⟨0⟩], [], .idle emptyWorld⟩ made now ∧
      now.heap.get? ⟨0⟩ ⟨2⟩ = some (.function (madeByCall 1)) ∧
      now.heap.get? ⟨0⟩ ⟨3⟩ = some (.function (madeByCall 2)) ∧
      now.heap.get? ⟨0⟩ ⟨4⟩ = some (.function (madeByCall 1)) ∧
      (∃! origin, Client.Stems ⟨[⟨0⟩], [], .idle emptyWorld⟩ made (madeByCall 1) origin) ∧
      ¬ ∃ origin, Client.Stems ⟨[⟨0⟩], [], .idle emptyWorld⟩ made (madeByCall 1) origin ∧
        Client.Stems ⟨[⟨0⟩], [], .idle emptyWorld⟩ made (madeByCall 2) origin := by
  have ran : (evaluate .new 60 ⟨⟨0, makers⟩, ⟨0⟩⟩ ⟨12⟩ emptyWorld).map (fun result => (result.2.heap.get? ⟨0⟩ ⟨2⟩,
      result.2.heap.get? ⟨0⟩ ⟨3⟩, result.2.heap.get? ⟨0⟩ ⟨4⟩)) = some (some (.function (madeByCall 1)),
        some (.function (madeByCall 2)), some (.function (madeByCall 1))) := by decide +kernel
  obtain ⟨⟨outcome, after⟩, ended, same⟩ := Option.map_eq_some_iff.mp ran
  obtain ⟨first, rest⟩ := Prod.mk.inj same
  obtain ⟨second, copy⟩ := Prod.mk.inj rest
  obtain ⟨made, runs⟩ := Client.Runs.of_finishes ⟨60, ended⟩ (List.mem_singleton_self (⟨0⟩ : FrameId)) []
  have sound := function_identity_sound (emptyWorld_sound [⟨0⟩]) runs
  have held : Client.Holds ⟨[⟨0⟩], outcome.values ++ [], .idle after⟩ (.function (madeByCall 1)) :=
    .inr ⟨⟨0⟩, ⟨2⟩, first⟩
  have held' : Client.Holds ⟨[⟨0⟩], outcome.values ++ [], .idle after⟩ (.function (madeByCall 2)) :=
    .inr ⟨⟨0⟩, ⟨3⟩, second⟩
  refine ⟨emptyWorld_sound [⟨0⟩], made, _, runs, first, second, copy, sound.1 _ held, fun shared => ?_⟩
  have equal := (sound.2.1 _ _ held held').1.mpr shared
  cases equal

end ScopedEval
