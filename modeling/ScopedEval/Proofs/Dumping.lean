import Mathlib.Data.List.Nodup
import ScopedEval.Heap.Chain
import ScopedEval.Heap.Dump

namespace ScopedEval

namespace Frame

def Lists (frame : Frame) (names : Interner) (text shown : String) : Prop :=
  ∃ name value, frame.bindings.get? name = some value ∧ names.lookup name = text ∧ value.text = shown

def Distinct (frame : Frame) (names : Interner) : Prop :=
  ∀ {name name' value value'}, frame.bindings.get? name = some value → frame.bindings.get? name' = some value' →
    names.lookup name = names.lookup name' → name = name'

def lines (frame : Frame) (names : Interner) : List (String × String) :=
  frame.bindings.entries.map fun (name, value) => (names.lookup name, value.text)

theorem mem_lines {frame : Frame} {names : Interner} {text shown : String} :
    (text, shown) ∈ frame.lines names ↔ frame.Lists names text shown := by
  constructor
  · intro member
    obtain ⟨⟨name, value⟩, held, same⟩ := List.mem_map.mp member
    cases same
    exact ⟨name, value, Bindings.mem_entries_iff.mp held, rfl, rfl⟩
  · rintro ⟨name, value, held, rfl, rfl⟩
    exact List.mem_map.mpr ⟨(name, value), Bindings.mem_entries_iff.mpr held, rfl⟩

def inOrder (left right : String × String) : Bool := !decide (right.1 < left.1)

theorem inOrder_iff {left right : String × String} : inOrder left right = true ↔ left.1 ≤ right.1 := by
  unfold inOrder
  rw [Bool.not_eq_true', decide_eq_false_iff_not, String.not_lt]

theorem inOrder_trans (a b c : String × String) (first : inOrder a b = true) (second : inOrder b c = true) :
    inOrder a c = true := by
  rw [inOrder_iff] at first second ⊢
  exact String.le_trans first second

theorem inOrder_total (a b : String × String) : (inOrder a b || inOrder b a) = true := by
  rw [Bool.or_eq_true, inOrder_iff, inOrder_iff]
  exact String.le_total a.1 b.1

/-- The text of a frame when its bindings are enumerated as listed. -/
def dumpAs (names : Interner) (listing : List (Name × Value)) : String :=
  let sorted := (listing.map fun binding => (names.lookup binding.1, binding.2)).mergeSort
    fun left right => !decide (right.1 < left.1)
  "\x7b \x7b" ++ ", ".intercalate (sorted.map fun binding => binding.1 ++ "=" ++ binding.2.text) ++ "\x7d \x7d"

theorem dumpAs_eq (names : Interner) (listing : List (Name × Value)) :
    dumpAs names listing = "\x7b \x7b" ++ ", ".intercalate
      (((listing.map fun binding => (names.lookup binding.1, binding.2.text)).mergeSort inOrder).map fun line =>
        line.1 ++ "=" ++ line.2) ++ "\x7d \x7d" := by
  have sorted : ((listing.map fun binding => (names.lookup binding.1, binding.2)).mergeSort fun left right =>
      !decide (right.1 < left.1)).map (fun binding => (binding.1, binding.2.text)) =
      (listing.map fun binding => (names.lookup binding.1, binding.2.text)).mergeSort inOrder := by
    have pushed := @List.map_mergeSort _ _ (fun left right : String × Value => !decide (right.1 < left.1)) inOrder
      (fun binding => (binding.1, binding.2.text))
      (listing.map fun binding => (names.lookup binding.1, binding.2)) fun _ _ _ _ => rfl
    rw [List.map_map] at pushed
    exact pushed
  rw [← sorted, List.map_map]
  rfl

theorem dump_eq (frame : Frame) (names : Interner) :
    frame.dump names = "\x7b \x7b" ++ ", ".intercalate (((frame.lines names).mergeSort inOrder).map fun line =>
      line.1 ++ "=" ++ line.2) ++ "\x7d \x7d" := dumpAs_eq names frame.bindings.entries

/-- Sorting forgets the order of lines no two of which are about the same text. -/
theorem sorted_congr {lines lines' : List (String × String)} (perm : lines.Perm lines')
    (single : ∀ text shown shown', (text, shown) ∈ lines' → (text, shown') ∈ lines' → shown = shown') :
    lines.mergeSort inOrder = lines'.mergeSort inOrder := by
  have order := (List.mergeSort_perm lines inOrder).trans (perm.trans (List.mergeSort_perm lines' inOrder).symm)
  apply order.eq_of_pairwise ?_ (List.pairwise_mergeSort inOrder_trans inOrder_total _)
    (List.pairwise_mergeSort inOrder_trans inOrder_total _)
  rintro ⟨text, shown⟩ ⟨text', shown'⟩ member member' before after
  rw [inOrder_iff] at before after
  cases String.le_antisymm before after
  have member := perm.mem_iff.mp (List.mem_mergeSort.mp member)
  rw [single text shown shown' member (List.mem_mergeSort.mp member')]

theorem nodup_entries (frame : Frame) : frame.bindings.entries.Nodup := by
  apply List.Pairwise.imp _ frame.bindings.ascending
  rintro entry _ before rfl
  exact Name.lt_irrefl _ before

namespace Distinct

variable {frame : Frame} {names : Interner}

theorem nodup (distinct : frame.Distinct names) : (frame.lines names).Nodup := by
  apply (nodup_entries frame).map_on
  rintro ⟨name, value⟩ held ⟨name', value'⟩ held' same
  rw [Bindings.mem_entries_iff] at held held'
  have texts : names.lookup name = names.lookup name' := congrArg Prod.fst same
  cases distinct held held' texts
  cases held.symm.trans held'
  rfl

theorem single (distinct : frame.Distinct names) (text shown shown' : String)
    (member : (text, shown) ∈ frame.lines names) (member' : (text, shown') ∈ frame.lines names) : shown = shown' := by
  rw [mem_lines] at member member'
  obtain ⟨name, value, held, rfl, rfl⟩ := member
  obtain ⟨name', value', held', texts, rfl⟩ := member'
  cases distinct held held' texts.symm
  cases held.symm.trans held'
  rfl

theorem dumpAs_eq (distinct : frame.Distinct names) {listing : List (Name × Value)} (once : listing.Nodup)
    (complete : ∀ name value, (name, value) ∈ listing ↔ frame.bindings.get? name = some value) :
    dumpAs names listing = frame.dump names := by
  have perm : listing.Perm frame.bindings.entries := by
    rw [List.perm_ext_iff_of_nodup once (nodup_entries frame)]
    rintro ⟨name, value⟩
    rw [complete, Bindings.mem_entries_iff]
  rw [Frame.dumpAs_eq, dump_eq]
  rw [sorted_congr (perm.map _) distinct.single]
  rfl

end Distinct

theorem dump_congr {left right : Frame} {names names' : Interner} (distinct : left.Distinct names)
    (distinct' : right.Distinct names')
    (same : ∀ text shown, left.Lists names text shown ↔ right.Lists names' text shown) :
    left.dump names = right.dump names' := by
  have perm : (left.lines names).Perm (right.lines names') := by
    rw [List.perm_ext_iff_of_nodup distinct.nodup distinct'.nodup]
    rintro ⟨text, shown⟩
    rw [mem_lines, mem_lines]
    exact same text shown
  rw [dump_eq, dump_eq, sorted_congr perm distinct'.single]

end Frame

theorem Heap.dump_congr {left right : Heap} {names names' : Interner} {id : FrameId}
    (chains : left.chain id = right.chain id)
    (frames : ∀ other ∈ left.chain id, (left.frame? other).map (Frame.dump names) =
      (right.frame? other).map (Frame.dump names')) :
    left.dump names id = right.dump names' id := by
  unfold Heap.dump
  rw [rootPath_eq, rootPath_eq, ← chains, List.map_filterMap, List.map_filterMap]
  congr 1
  apply List.filterMap_congr
  intro other member
  exact frames other (List.mem_reverse.mp member)

end ScopedEval
