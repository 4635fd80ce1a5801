import Mathlib.Data.List.Forall2
import ScopedEval.Inspect.Code
import ScopedEval.Proofs.Construction

namespace ScopedEval

inductive Entry where
  | node (node : Node)
  | args (ids : List ExprId)
  | params (names : List Name)
  deriving DecidableEq

inductive Place where
  | node (id : ExprId)
  | args (span : Span)
  | params (span : Span)
  deriving DecidableEq

inductive Table where
  | nodes
  | args
  | params

namespace Place

def id? : Place → Option ExprId
  | node id => some id
  | args _ | params _ => none

def extent? : Table → Place → Option Span
  | .nodes, node id => some ⟨id.index, 1⟩
  | .args, args span => some span
  | .params, params span => some span
  | _, _ => none

theorem extent?_nodes (place : Place) : place.extent? .nodes = place.id?.map fun id => ⟨id.index, 1⟩ := by
  cases place <;> rfl

end Place

namespace Arena

def length (arena : Arena) : Table → Nat
  | .nodes => arena.nodes.size
  | .args => arena.args.size
  | .params => arena.params.size

def put (arena : Arena) : Entry → Place × Arena
  | .node node => (arena.addNode node).map .node id
  | .args ids => (arena.addArgs ids).map .args id
  | .params names => (arena.addParams names).map .params id

def putAll (arena : Arena) : List Entry → List Place × Arena
  | [] => ([], arena)
  | entry :: rest =>
    ((arena.put entry).1 :: ((arena.put entry).2.putAll rest).1, ((arena.put entry).2.putAll rest).2)

def read? (arena : Arena) : Place → Option Entry
  | .node id => (arena.node? id).map .node
  | .args span => (arena.args? span).map .args
  | .params span => (arena.params? span).map .params

theorem read?_put (arena : Arena) (entry : Entry) : (arena.put entry).2.read? (arena.put entry).1 = some entry := by
  cases entry with
  | node node => exact congrArg (Option.map Entry.node) (arena.node?_addNode node)
  | args ids => exact congrArg (Option.map Entry.args) (arena.args?_addArgs ids)
  | params names => exact congrArg (Option.map Entry.params) (arena.params?_addParams names)

namespace Extends

theorem read? {old new : Arena} (grown : old.Extends new) {place : Place} {entry : Entry}
    (read : old.read? place = some entry) : new.read? place = some entry := by
  cases place with
  | node id =>
    obtain ⟨node, held, rfl⟩ := Option.map_eq_some_iff.mp read
    exact congrArg (Option.map Entry.node) (grown.node held)
  | args span =>
    obtain ⟨ids, held, rfl⟩ := Option.map_eq_some_iff.mp read
    exact congrArg (Option.map Entry.args) (grown.args held)
  | params span =>
    obtain ⟨names, held, rfl⟩ := Option.map_eq_some_iff.mp read
    exact congrArg (Option.map Entry.params) (grown.params held)

theorem put (arena : Arena) (entry : Entry) : arena.Extends (arena.put entry).2 := by
  cases entry with
  | node node => exact addNode arena node
  | args ids => exact addArgs arena ids
  | params names => exact addParams arena names

theorem putAll (arena : Arena) (entries : List Entry) : arena.Extends (arena.putAll entries).2 := by
  induction entries generalizing arena with
  | nil => exact refl arena
  | cons entry rest ih =>
    have first := put arena entry
    exact first.trans (ih _)

end Extends

theorem read?_putAll (arena : Arena) (entries : List Entry) :
    List.Forall₂ (fun place entry => (arena.putAll entries).2.read? place = some entry)
      (arena.putAll entries).1 entries := by
  induction entries generalizing arena with
  | nil => exact .nil
  | cons entry rest ih =>
    have first := arena.read?_put entry
    exact .cons ((Extends.putAll _ rest).read? first) (ih _)

end Arena

/-- Runs of positions that follow each other without gaps, from one position up to another. -/
inductive Tiles : Nat → List Span → Nat → Prop where
  | nil (position : Nat) : Tiles position [] position
  | cons {span : Span} {rest : List Span} {stop : Nat} : Tiles span.stop rest stop →
      Tiles span.start (span :: rest) stop

namespace Tiles

variable {start middle stop : Nat} {spans : List Span}

theorem single (span : Span) (ends : stop = span.stop) : Tiles span.start [span] stop := by
  subst ends
  exact .cons (.nil _)

theorem append {more : List Span} (first : Tiles start spans middle) (second : Tiles middle more stop) :
    Tiles start (spans ++ more) stop := by
  induction first with
  | nil => exact second
  | cons _ ih => exact .cons (ih second)

theorem start_le (tiles : Tiles start spans stop) : start ≤ stop := by
  induction tiles with
  | nil => exact Nat.le_refl _
  | @cons span _ _ _ ih => exact Nat.le_trans (Nat.le_add_right _ _) ih

theorem inside (tiles : Tiles start spans stop) : ∀ span ∈ spans, start ≤ span.start ∧ span.stop ≤ stop := by
  induction tiles with
  | nil => simp
  | @cons first rest stop later ih =>
    intro span member
    have ahead : first.start ≤ first.stop := Nat.le_add_right _ _
    rcases List.mem_cons.mp member with rfl | member
    · exact ⟨Nat.le_refl _, later.start_le⟩
    · obtain ⟨after, before⟩ := ih span member
      exact ⟨Nat.le_trans ahead after, before⟩

theorem pairwise (tiles : Tiles start spans stop) :
    spans.Pairwise fun early late => early.stop ≤ late.start := by
  induction tiles with
  | nil => exact .nil
  | cons later ih => exact .cons (fun span member => (later.inside span member).1) ih

theorem eq_range {ids : List ExprId} (tiles : Tiles start (ids.map fun id => ⟨id.index, 1⟩) stop) :
    ids = (List.range' start (stop - start)).map ExprId.mk := by
  induction ids generalizing start with
  | nil =>
    cases tiles
    simp
  | cons first rest ih =>
    cases tiles with
    | cons later =>
      have ahead : first.index + 1 ≤ stop := later.start_le
      have more : stop - first.index = stop - (first.index + 1) + 1 := by omega
      rw [more, List.range'_succ, List.map_cons]
      exact congrArg (List.cons first) (ih later)

end Tiles

namespace Arena

theorem put_tiles (arena : Arena) (entry : Entry) (table : Table) :
    Tiles (arena.length table) ((arena.put entry).1.extent? table).toList ((arena.put entry).2.length table) := by
  cases entry with
  | node node =>
    have size : (arena.put (.node node)).2.nodes.size = arena.nodes.size + 1 := Array.size_push _
    cases table with
    | nodes => exact .single ⟨arena.nodes.size, 1⟩ size
    | args | params => exact .nil _
  | args ids =>
    have size : (arena.put (.args ids)).2.args.size = arena.args.size + ids.length := Array.size_append
    cases table with
    | args => exact .single ⟨arena.args.size, ids.length⟩ size
    | nodes | params => exact .nil _
  | params names =>
    have size : (arena.put (.params names)).2.params.size = arena.params.size + names.length := Array.size_append
    cases table with
    | params => exact .single ⟨arena.params.size, names.length⟩ size
    | nodes | args => exact .nil _

/-- The places that an arena hands out in a table lie one behind the other, from the old end of the table to
    its new one. -/
theorem putAll_tiles (arena : Arena) (entries : List Entry) (table : Table) :
    Tiles (arena.length table) ((arena.putAll entries).1.filterMap (Place.extent? table))
      ((arena.putAll entries).2.length table) := by
  induction entries generalizing arena with
  | nil => exact .nil _
  | cons entry rest ih =>
    have first := arena.put_tiles entry table
    have later := ih (arena.put entry).2
    have split : (arena.putAll (entry :: rest)).1.filterMap (Place.extent? table) =
        ((arena.put entry).1.extent? table).toList ++
          ((arena.put entry).2.putAll rest).1.filterMap (Place.extent? table) := by
      rw [putAll, List.filterMap_cons]
      cases (arena.put entry).1.extent? table <;> rfl
    rw [split]
    exact first.append later

end Arena

/-- However entries come into an arena, each is found for ever where the arena said it would be. Expressions get
    the ids from zero on, and argument lists and parameter lists get runs that follow each other and end inside
    their table. A read fails exactly if it reaches past the end of the table. -/
theorem arena_tables_keep_entries (entries : List Entry) :
    let places := (Arena.empty.putAll entries).1
    let arena := (Arena.empty.putAll entries).2
    (∀ more, List.Forall₂ (fun place entry => (arena.putAll more).2.read? place = some entry) places entries) ∧
    places.filterMap Place.id? = (List.range arena.size).map ExprId.mk ∧
    (∀ table, (places.filterMap (Place.extent? table)).Pairwise fun early late => early.stop ≤ late.start) ∧
    (∀ table, ∀ span ∈ places.filterMap (Place.extent? table),
      span.stop ≤ arena.length table ∧ (arena.length table ≤ 4294967295 → span.stop? = some span.stop)) ∧
    (∀ id, (arena.node? id).isSome = true ↔ id.index < arena.size) ∧
    (∀ span, (arena.args? span).isSome = true ↔ span.start + span.length ≤ arena.args.size) ∧
    ∀ span, (arena.params? span).isSome = true ↔ span.start + span.length ≤ arena.params.size := by
  intro places arena
  have tiles := Arena.empty.putAll_tiles entries
  refine ⟨?_, ?_, fun table => (tiles table).pairwise, ?_, ?_, ?_, ?_⟩
  · intro more
    exact (Arena.empty.read?_putAll entries).imp fun _ _ read => (Arena.Extends.putAll arena more).read? read
  · -- an expression takes up one position, so that tiling its table means counting
    have ids := tiles .nodes
    have extents : places.filterMap (Place.extent? .nodes) =
        (places.filterMap Place.id?).map fun id => ⟨id.index, 1⟩ := by
      rw [List.map_filterMap]
      exact List.filterMap_congr fun place _ => place.extent?_nodes
    rw [extents] at ids
    rw [ids.eq_range, List.range_eq_range']
    rfl
  · intro table span member
    have bound := ((tiles table).inside span member).2
    refine ⟨bound, fun small => ?_⟩
    exact if_pos (Nat.lt_succ_of_le (Nat.le_trans bound small))
  · intro id
    rw [Arena.node?_isSome, decide_eq_true_iff]
  · intro span
    rw [Arena.args?, Arena.slice?_isSome, decide_eq_true_iff]
    rfl
  · intro span
    rw [Arena.params?, Arena.slice?_isSome, decide_eq_true_iff]
    rfl

def scattered : List Entry :=
  [.args [⟨9⟩, ⟨0⟩], .node (.call ⟨5⟩ ⟨7, 0⟩), .params [⟨3⟩], .args [], .node (.ident ⟨8⟩), .args [⟨1⟩]]

theorem arena_tables_keep_entries_scattered :
    let places : List Place := [.args ⟨0, 2⟩, .node ⟨0⟩, .params ⟨0, 1⟩, .args ⟨2, 0⟩, .node ⟨1⟩, .args ⟨2, 1⟩]
    let arena := (Arena.empty.putAll scattered).2
    (Arena.empty.putAll scattered).1 = places ∧
    List.Forall₂ (fun place entry => (arena.putAll [.args [⟨4⟩]]).2.read? place = some entry) places scattered ∧
    (⟨2, 1⟩ : Span).stop? = some 3 ∧ (arena.args? ⟨3, 0⟩).isSome = true ∧ ¬ (arena.args? ⟨4, 0⟩).isSome = true := by
  intro places arena
  have made : (Arena.empty.putAll scattered).1 = places := by decide
  obtain ⟨kept, -, -, bounded, -, within, -⟩ := arena_tables_keep_entries scattered
  rw [made] at kept bounded
  refine ⟨made, kept [.args [⟨4⟩]], ?_, ?_, ?_⟩
  · exact (bounded .args ⟨2, 1⟩ (by decide)).2 (by decide)
  · exact (within ⟨3, 0⟩).mpr (by decide)
  · exact fun read => absurd ((within ⟨4, 0⟩).mp read) (by decide)

end ScopedEval
