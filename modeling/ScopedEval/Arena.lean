import ScopedEval.Node

namespace ScopedEval

/-- Three tables that only grow: expressions, argument lists laid end to end, and parameter lists
    laid end to end. Nothing asks that the ids in an expression lie in the table. -/
structure Arena where
  nodes : Array Node
  args : Array ExprId
  params : Array Name
  deriving DecidableEq

namespace Arena

def empty : Arena := ⟨#[], #[], #[]⟩

instance : Inhabited Arena := ⟨empty⟩

def size (arena : Arena) : Nat := arena.nodes.size

def addNode (arena : Arena) (node : Node) : ExprId × Arena :=
  (⟨arena.nodes.size⟩, { arena with nodes := arena.nodes.push node })

def addArgs (arena : Arena) (ids : List ExprId) : Span × Arena :=
  (⟨arena.args.size, ids.length⟩, { arena with args := arena.args ++ ids.toArray })

def addParams (arena : Arena) (names : List Name) : Span × Arena :=
  (⟨arena.params.size, names.length⟩, { arena with params := arena.params ++ names.toArray })

def node? (arena : Arena) (id : ExprId) : Option Node := arena.nodes[id.index]?

/-- The entries of a span. A span reaches outside its table when it stops past the table's end, even
    if it holds no entry. -/
def slice? {α : Type} (table : Array α) (span : Span) : Option (List α) :=
  if span.stop ≤ table.size then some (table.extract span.start span.stop).toList else none

def args? (arena : Arena) (span : Span) : Option (List ExprId) := slice? arena.args span

def params? (arena : Arena) (span : Span) : Option (List Name) := slice? arena.params span

@[simp] theorem slice?_isSome {α : Type} (table : Array α) (span : Span) :
    (slice? table span).isSome = decide (span.stop ≤ table.size) := by
  by_cases fits : span.stop ≤ table.size <;> simp [slice?, fits]

theorem slice?_length {α : Type} {table : Array α} {span : Span} {entries : List α}
    (read : slice? table span = some entries) : entries.length = span.length := by
  unfold slice? at read
  split at read
  · rename_i fits
    cases read
    simp only [Array.length_toList, Array.size_extract]
    unfold Span.stop at *
    omega
  · cases read

theorem slice?_append {α : Type} {table : Array α} {span : Span} {entries : List α}
    (read : slice? table span = some entries) (more : Array α) :
    slice? (table ++ more) span = some entries := by
  unfold slice? at read
  split at read
  · rename_i fits
    cases read
    have wide : span.stop ≤ (table ++ more).size := by rw [Array.size_append]; omega
    rw [slice?, if_pos wide]
    congr 2
    rw [Array.extract_append]
    simp [Nat.sub_eq_zero_of_le fits]
  · cases read

theorem slice?_added {α : Type} (table : Array α) (entries : List α) :
    slice? (table ++ entries.toArray) ⟨table.size, entries.length⟩ = some entries := by
  rw [slice?, if_pos (by simp [Span.stop])]
  simp [Span.stop, Array.extract_append]

@[simp] theorem node?_addNode (arena : Arena) (node : Node) :
    (arena.addNode node).2.node? (arena.addNode node).1 = some node := by
  simp [addNode, node?]

theorem node?_addNode_of_some {arena : Arena} {id : ExprId} {old : Node}
    (held : arena.node? id = some old) (node : Node) : (arena.addNode node).2.node? id = some old := by
  have bound : id.index < arena.nodes.size := (Array.getElem?_eq_some_iff.mp held).1
  simp only [addNode, node?] at held ⊢
  rw [Array.getElem?_push, if_neg (Nat.ne_of_lt bound)]
  exact held

@[simp] theorem args?_addArgs (arena : Arena) (ids : List ExprId) :
    (arena.addArgs ids).2.args? (arena.addArgs ids).1 = some ids := slice?_added _ _

@[simp] theorem params?_addParams (arena : Arena) (names : List Name) :
    (arena.addParams names).2.params? (arena.addParams names).1 = some names := slice?_added _ _

end Arena

/-- A finished arena that closures and evaluations share. Two of them are the same one exactly when
    their stamps agree, whatever they hold. -/
structure Code where
  stamp : Nat
  arena : Arena
  deriving DecidableEq

def Code.same (left right : Code) : Bool := left.stamp == right.stamp

end ScopedEval
