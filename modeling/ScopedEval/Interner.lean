import Std.Data.TreeMap

namespace ScopedEval

structure Name where
  index : Nat
  deriving DecidableEq, Repr

namespace Name

def empty : Name := ⟨0⟩

instance : Inhabited Name := ⟨empty⟩

instance : LT Name := ⟨fun left right => left.index < right.index⟩

instance (left right : Name) : Decidable (left < right) :=
  inferInstanceAs (Decidable (left.index < right.index))

instance : Max Name := ⟨fun left right => if left < right then right else left⟩

theorem ext_index {left right : Name} (same : left.index = right.index) : left = right := by
  cases left; cases right; cases same; rfl

theorem lt_irrefl (name : Name) : ¬ name < name := Nat.lt_irrefl _

theorem lt_trans {a b c : Name} (first : a < b) (second : b < c) : a < c := Nat.lt_trans first second

theorem lt_or_gt_of_ne {a b : Name} (different : a ≠ b) : a < b ∨ b < a :=
  Nat.lt_or_gt_of_ne fun same => different (ext_index same)

end Name

/-- The texts interned so far in order of first interning, together with the position of each.
    The two tables are inverse to each other, and the empty text comes first. -/
structure Interner where
  positions : Std.TreeMap String Nat
  texts : Array String
  inverse : ∀ (text : String) (index : Nat), positions[text]? = some index ↔ texts[index]? = some text
  empty_first : texts[0]? = some ""

namespace Interner

def new : Interner where
  positions := Std.TreeMap.empty.insert "" 0
  texts := #[""]
  inverse := by
    intro text index
    rw [Std.TreeMap.getElem?_insert]
    simp only [Std.compare_eq_iff_eq]
    rcases index with _ | index
    · by_cases same : "" = text
      · simp [same]
      · simp [same]
    · by_cases same : "" = text
      · simp [same]
      · simp [same]
  empty_first := rfl

def size (names : Interner) : Nat := names.texts.size

def isEmpty (names : Interner) : Bool := names.size ≤ 1

/-- The text of a name; a name this interner never made reads as the empty text. -/
def lookup (names : Interner) (name : Name) : String := (names.texts[name.index]?).getD ""

def find? (names : Interner) (text : String) : Option Name := (names.positions[text]?).map Name.mk

def push (names : Interner) (text : String) (unknown : names.positions[text]? = none) : Interner where
  positions := names.positions.insert text names.texts.size
  texts := names.texts.push text
  inverse := by
    intro other index
    rw [Std.TreeMap.getElem?_insert]
    simp only [Std.compare_eq_iff_eq]
    rw [Array.getElem?_push]
    by_cases atEnd : index = names.texts.size
    · subst atEnd
      by_cases same : text = other
      · simp [same]
      · have missing : names.texts[names.texts.size]? = none := by simp
        simp [same, names.inverse]
    · by_cases same : text = other
      · subst same
        have absent : names.texts[index]? ≠ some text := by
          intro held
          rw [(names.inverse text index).mpr held] at unknown
          cases unknown
        simp [atEnd, Ne.symm atEnd, absent]
      · simp [same, atEnd, names.inverse]
  empty_first := by
    rw [Array.getElem?_push]
    have first := names.empty_first
    have positive : 0 < names.texts.size := (Array.getElem?_eq_some_iff.mp first).1
    simp [Nat.ne_of_lt positive, first]

def intern (names : Interner) (text : String) : Name × Interner :=
  match found : names.positions[text]? with
  | some index => (⟨index⟩, names)
  | none => (⟨names.texts.size⟩, names.push text found)

def internAll (names : Interner) : List String → List Name × Interner
  | [] => ([], names)
  | text :: rest =>
    let (name, names) := names.intern text
    let (others, names) := names.internAll rest
    (name :: others, names)

theorem lookup_of_size_le {names : Interner} {name : Name} (unknown : names.size ≤ name.index) :
    names.lookup name = "" := by
  simp [lookup, Array.getElem?_eq_none unknown]

end Interner

end ScopedEval
