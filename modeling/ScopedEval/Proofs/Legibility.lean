import Mathlib.Data.List.Permutation
import ScopedEval.Proofs.Dumping
import ScopedEval.Proofs.Steps
import Std.Data.String.ToInt

namespace ScopedEval

section Separation

variable {α : Type} {mark : α} {sep : List α}

theorem eq_of_append_mark {left right rest rest' : List α} (plain : mark ∉ left) (plain' : mark ∉ right)
    (same : left ++ mark :: rest = right ++ mark :: rest') : left = right ∧ rest = rest' := by
  rcases List.append_eq_append_iff.mp same with ⟨more, rfl, tail⟩ | ⟨more, rfl, tail⟩
  · cases more with
    | nil => simpa using tail
    | cons first more =>
      have marked : mark = first := (List.cons.inj tail).1
      exact absurd (List.mem_append_right left (marked ▸ List.mem_cons_self)) plain'
  · cases more with
    | nil => simpa [eq_comm] using tail
    | cons first more =>
      have marked : mark = first := (List.cons.inj tail).1
      exact absurd (List.mem_append_right right (marked ▸ List.mem_cons_self)) plain

theorem intercalate_cons (sep item : List α) (items : List (List α)) :
    sep.intercalate (item :: items) = item ++ items.flatMap (sep ++ ·) := by
  induction items generalizing item with
  | nil => simp
  | cons next items ih => rw [List.intercalate_cons_cons, ih, List.flatMap_cons, List.append_assoc, List.append_assoc]

def Follows (sep rest : List α) : Prop := rest = [] ∨ ∃ more, rest = sep ++ more

theorem follows_flatMap (sep : List α) (items : List (List α)) : Follows sep (items.flatMap (sep ++ ·)) := by
  cases items with
  | nil => exact .inl rfl
  | cons item items => exact .inr ⟨item ++ items.flatMap (sep ++ ·), by rw [List.flatMap_cons, List.append_assoc]⟩

/-- One can tell where an item ends, whatever is written behind it. -/
structure Delimited (sep : List α) (Item : List α → Prop) : Prop where
  visible : sep ≠ []
  nonempty : ¬ Item []
  ends {item item' rest rest' : List α} : Item item → Item item' → Follows sep rest → Follows sep rest' →
    item ++ rest = item' ++ rest' → item = item' ∧ rest = rest'

namespace Delimited

variable {Item : List α → Prop} {items items' : List (List α)}

theorem flatMap_inj (delimited : Delimited sep Item) (all : ∀ item ∈ items, Item item)
    (all' : ∀ item ∈ items', Item item) (same : items.flatMap (sep ++ ·) = items'.flatMap (sep ++ ·)) :
    items = items' := by
  induction items generalizing items' with
  | nil =>
    cases items' with
    | nil => rfl
    | cons item' items' =>
      rw [List.flatMap_nil, List.flatMap_cons, List.append_assoc, List.nil_eq, List.append_eq_nil_iff] at same
      exact absurd same.1 delimited.visible
  | cons item items ih =>
    cases items' with
    | nil =>
      rw [List.flatMap_nil, List.flatMap_cons, List.append_assoc, List.append_eq_nil_iff] at same
      exact absurd same.1 delimited.visible
    | cons item' items' =>
      rw [List.flatMap_cons, List.flatMap_cons, List.append_assoc, List.append_assoc, List.append_cancel_left_eq] at same
      obtain ⟨rfl, rest⟩ := delimited.ends (all item List.mem_cons_self) (all' item' List.mem_cons_self)
        (follows_flatMap sep items) (follows_flatMap sep items') same
      rw [ih (fun other member => all other (List.mem_cons_of_mem _ member))
        (fun other member => all' other (List.mem_cons_of_mem _ member)) rest]

theorem intercalate_inj (delimited : Delimited sep Item) (all : ∀ item ∈ items, Item item)
    (all' : ∀ item ∈ items', Item item) (same : sep.intercalate items = sep.intercalate items') :
    items = items' := by
  have blank {item : List α} {rest : List (List α)} (written : Item item) : sep.intercalate (item :: rest) ≠ [] := by
    intro empty
    rw [intercalate_cons] at empty
    rw [(List.append_eq_nil_iff.mp empty).1] at written
    exact delimited.nonempty written
  cases items with
  | nil =>
    cases items' with
    | nil => rfl
    | cons item' items' => exact absurd same.symm (blank (all' item' List.mem_cons_self))
  | cons item items =>
    cases items' with
    | nil => exact absurd same (blank (all item List.mem_cons_self))
    | cons item' items' =>
      apply delimited.flatMap_inj all all'
      rw [List.flatMap_cons, List.flatMap_cons, List.append_assoc, List.append_assoc, ← intercalate_cons,
        ← intercalate_cons, same]

theorem of_mark (mark : α) (more : List α) : Delimited (mark :: more) fun item => item ≠ [] ∧ mark ∉ item where
  visible := List.cons_ne_nil _ _
  nonempty := by simp
  ends := by
    rintro item item' rest rest' ⟨-, plain⟩ ⟨-, plain'⟩ (rfl | ⟨tail, rfl⟩) (rfl | ⟨tail', rfl⟩) same
    · simpa using same
    · rw [List.append_nil] at same
      rw [same] at plain
      simp at plain
    · rw [List.append_nil] at same
      rw [← same] at plain'
      simp at plain'
    · obtain ⟨items, rests⟩ := eq_of_append_mark plain plain' same
      exact ⟨items, congrArg (List.cons mark) rests⟩

theorem of_closing (mark : α) (opening closing : List α) (visible : sep ≠ []) :
    Delimited sep fun item => ∃ body, mark ∉ body ∧ item = opening ++ (body ++ mark :: closing) where
  visible := visible
  nonempty := by simp
  ends := by
    rintro item item' rest rest' ⟨body, plain, rfl⟩ ⟨body', plain', rfl⟩ - - same
    simp only [List.append_assoc, List.cons_append, List.append_cancel_left_eq] at same
    obtain ⟨rfl, tails⟩ := eq_of_append_mark plain plain' same
    exact ⟨rfl, List.append_cancel_left tails⟩

end Delimited

theorem mem_intercalate {items : List (List α)} (member : mark ∈ sep.intercalate items) :
    mark ∈ sep ∨ ∃ item ∈ items, mark ∈ item := by
  cases items with
  | nil => simp at member
  | cons item items =>
    rw [intercalate_cons, List.mem_append, List.mem_flatMap] at member
    rcases member with member | ⟨other, listed, member⟩
    · exact .inr ⟨item, List.mem_cons_self, member⟩
    · rcases List.mem_append.mp member with member | member
      · exact .inl member
      · exact .inr ⟨other, List.mem_cons_of_mem _ listed, member⟩

end Separation

def separators : List Char := [' ', ',', '=', '\x7b', '\x7d']

def Plain (text : String) : Prop := ∀ mark ∈ separators, mark ∉ text.toList

-- over the separators, and not over all characters, which are finitely many
instance (text : String) : Decidable (Plain text) := List.decidableBAll (fun mark => mark ∉ text.toList) separators

namespace Value

inductive Alike : Value → Value → Prop where
  | int (value : Int64) : Alike (.int value) (.int value)
  | bool (value : Bool) : Alike (.bool value) (.bool value)
  | null : Alike .null .null
  | function (left right : Closure) : Alike (.function left) (.function right)

theorem mem_text_int {value : Int64} {mark : Char} (member : mark ∈ (int value).text.toList) :
    mark.isDigit = true ∨ mark = '-' := by
  have digits {count : Nat} (member : mark ∈ count.repr.toList) : mark.isDigit = true := by
    rw [Nat.repr_eq_ofList_toDigits, String.toList_ofList] at member
    exact Nat.isDigit_of_mem_toDigits (by decide) (by decide) member
  rw [text, Int.toString_eq_repr, Int.repr_eq_if] at member
  split at member
  · exact .inl (digits member)
  · rw [String.toList_append, List.mem_append] at member
    rcases member with member | member
    · exact .inr (List.mem_singleton.mp member)
    · exact .inl (digits member)

theorem text_plain (value : Value) : Plain value.text := by
  intro mark structural member
  cases value with
  | int value =>
    have free : ∀ mark ∈ separators, ¬ (mark.isDigit = true ∨ mark = '-') := by simp [separators]
    exact free mark structural (mem_text_int member)
  | bool value =>
    have free : Plain "true" ∧ Plain "false" := by decide
    cases value with
    | true => exact free.1 mark structural member
    | false => exact free.2 mark structural member
  | null =>
    have free : Plain "null" := by decide
    exact free mark structural member
  | function closure =>
    have free : Plain "function" := by decide
    exact free mark structural member

/-- Every word among the texts has one of two letters, which no number has. -/
theorem text_int_ne {value : Int64} (word : String) (letter : 'u' ∈ word.toList ∨ 's' ∈ word.toList) :
    (int value).text ≠ word := by
  rintro rfl
  rcases letter with letter | letter <;> exact absurd (mem_text_int letter) (by decide)

theorem alike_of_text_eq {value value' : Value} (same : value.text = value'.text) : value.Alike value' := by
  cases value with
  | int left =>
    cases value' with
    | int right =>
      rw [text, text, Int.toString_eq_repr, Int.toString_eq_repr, Int.repr_inj, Int64.toInt_inj] at same
      exact same ▸ .int left
    | bool right => cases right <;> exact absurd same (text_int_ne _ (by decide))
    | null => exact absurd same (text_int_ne "null" (by decide))
    | function => exact absurd same (text_int_ne "function" (by decide))
  | bool left =>
    cases value' with
    | int right => cases left <;> exact absurd same.symm (text_int_ne _ (by decide))
    | bool right =>
      have equal : left = right := by cases left <;> cases right <;> simp_all [text]
      exact equal ▸ .bool left
    | null | function => cases left <;> simp [text] at same
  | null =>
    cases value' with
    | int right => exact absurd same.symm (text_int_ne "null" (by decide))
    | bool right => cases right <;> simp [text] at same
    | null => exact .null
    | function => simp [text] at same
  | function closure =>
    cases value' with
    | int right => exact absurd same.symm (text_int_ne "function" (by decide))
    | bool right => cases right <;> simp [text] at same
    | null => simp [text] at same
    | function other => exact .function closure other

theorem text_eq_iff {value value' : Value} : value.text = value'.text ↔ value.Alike value' := by
  refine ⟨alike_of_text_eq, fun alike => ?_⟩
  cases alike <;> rfl

end Value

theorem line_inj {line line' : String × String} (plain : Plain line.1) (plain' : Plain line'.1)
    (same : line.1 ++ "=" ++ line.2 = line'.1 ++ "=" ++ line'.2) : line = line' := by
  have chars := congrArg String.toList same
  simp only [String.toList_append, List.append_assoc] at chars
  have sign : '=' ∈ separators := by decide
  obtain ⟨texts, shown⟩ := eq_of_append_mark (plain _ sign) (plain' _ sign) chars
  exact Prod.ext (String.toList_injective texts) (String.toList_injective shown)

namespace Frame

variable {frame left right : Frame} {names names' : Interner}

def Plain (frame : Frame) (names : Interner) : Prop :=
  ∀ name value, frame.bindings.get? name = some value → ScopedEval.Plain (names.lookup name)

def written (frame : Frame) (names : Interner) : List (List Char) :=
  ((frame.lines names).mergeSort inOrder).map fun line => (line.1 ++ "=" ++ line.2).toList

theorem toList_dump (frame : Frame) (names : Interner) :
    (frame.dump names).toList =
      ['\x7b', ' ', '\x7b'] ++ ([',', ' '].intercalate (frame.written names) ++ '\x7d' :: [' ', '\x7d']) := by
  rw [dump_eq, String.toList_append, String.toList_append, String.toList_intercalate, List.map_map, List.append_assoc]
  rfl

theorem mem_written {item : List Char} : item ∈ frame.written names ↔
    ∃ line ∈ frame.lines names, (line.1 ++ "=" ++ line.2).toList = item := by
  simp only [written, List.mem_map, List.mem_mergeSort]

namespace Plain

theorem of_mem_lines (plain : frame.Plain names) {line : String × String} (member : line ∈ frame.lines names) :
    ScopedEval.Plain line.1 ∧ ScopedEval.Plain line.2 := by
  obtain ⟨name, value, held, text, shown⟩ := mem_lines.mp (show (line.1, line.2) ∈ frame.lines names from member)
  rw [← text, ← shown]
  exact ⟨plain name value held, value.text_plain⟩

theorem of_mem_written (plain : frame.Plain names) {item : List Char} (member : item ∈ frame.written names) :
    (item ≠ [] ∧ ',' ∉ item) ∧ '\x7d' ∉ item := by
  obtain ⟨line, listed, rfl⟩ := mem_written.mp member
  obtain ⟨text, shown⟩ := plain.of_mem_lines listed
  have free {mark : Char} (structural : mark ∈ separators) (apart : mark ≠ '=') :
      mark ∉ (line.1 ++ "=" ++ line.2).toList := by
    rw [String.toList_append, String.toList_append, List.mem_append, List.mem_append, not_or, not_or]
    exact ⟨⟨text mark structural, fun here => apart (List.mem_singleton.mp here)⟩, shown mark structural⟩
  refine ⟨⟨?_, free (by decide) (by decide)⟩, free (by decide) (by decide)⟩
  simp [String.toList_append]

theorem not_mem_body (plain : frame.Plain names) : '\x7d' ∉ [',', ' '].intercalate (frame.written names) := by
  intro member
  rcases mem_intercalate member with mark | ⟨item, listed, member⟩
  · exact absurd mark (by decide)
  · exact (plain.of_mem_written listed).2 member

theorem lists_of_dump_eq (plain : left.Plain names) (plain' : right.Plain names')
    (same : left.dump names = right.dump names') {text shown : String} (listed : left.Lists names text shown) :
    right.Lists names' text shown := by
  have chars := congrArg String.toList same
  rw [toList_dump, toList_dump, List.append_cancel_left_eq, List.append_cancel_right_eq] at chars
  have items : left.written names = right.written names' :=
    (Delimited.of_mark ',' [' ']).intercalate_inj (fun _ member => (plain.of_mem_written member).1)
      (fun _ member => (plain'.of_mem_written member).1) chars
  -- the lines come in the same order, but that they are the same lines is all we need
  have member := mem_lines.mpr listed
  have there : (text ++ "=" ++ shown).toList ∈ right.written names' := items ▸ mem_written.mpr ⟨_, member, rfl⟩
  obtain ⟨line, member', texts⟩ := mem_written.mp there
  have lines : line = (text, shown) := line_inj (plain'.of_mem_lines member').1 (plain.of_mem_lines member).1
    (String.toList_injective texts)
  exact mem_lines.mp (lines ▸ member')

theorem dump_eq_iff (plain : left.Plain names) (plain' : right.Plain names') (distinct : left.Distinct names)
    (distinct' : right.Distinct names') : left.dump names = right.dump names' ↔
      ∀ text shown, left.Lists names text shown ↔ right.Lists names' text shown := by
  constructor
  · intro same text shown
    exact ⟨plain.lists_of_dump_eq plain' same, plain'.lists_of_dump_eq plain same.symm⟩
  · exact dump_congr distinct distinct'

end Plain

end Frame

namespace Heap

variable {heap left right : Heap} {names names' : Interner} {id id' : FrameId}

def entries (heap : Heap) (id : FrameId) : List (Name × Value) :=
  ((heap.frame? id).map fun frame => frame.bindings.entries).getD []

theorem mem_entries {name : Name} {value : Value} :
    (name, value) ∈ heap.entries id ↔ heap.get? id name = some value := by
  unfold entries get?
  cases heap.frame? id with
  | none => simp
  | some frame => exact Bindings.mem_entries_iff

def DistinctTexts (heap : Heap) (names : Interner) (id : FrameId) : Prop :=
  ∀ frame ∈ heap.rootPath id, ∀ entry ∈ heap.entries frame, ∀ entry' ∈ heap.entries frame,
    names.lookup entry.1 = names.lookup entry'.1 → entry.1 = entry'.1

def PlainTexts (heap : Heap) (names : Interner) (id : FrameId) : Prop :=
  ∀ frame ∈ heap.rootPath id, ∀ entry ∈ heap.entries frame, Plain (names.lookup entry.1)

instance : Decidable (heap.DistinctTexts names id) :=
  inferInstanceAs (Decidable (∀ frame ∈ heap.rootPath id, ∀ entry ∈ heap.entries frame,
    ∀ entry' ∈ heap.entries frame, names.lookup entry.1 = names.lookup entry'.1 → entry.1 = entry'.1))

instance : Decidable (heap.PlainTexts names id) :=
  inferInstanceAs (Decidable (∀ frame ∈ heap.rootPath id, ∀ entry ∈ heap.entries frame, Plain (names.lookup entry.1)))

structure Enumerates (heap : Heap) (id : FrameId) (listing : List (Name × Value)) : Prop where
  once : listing.Nodup
  complete : ∀ name value, (name, value) ∈ listing ↔ heap.get? id name = some value

def Binds (heap : Heap) (names : Interner) (id : FrameId) (text : String) (value : Value) : Prop :=
  ∃ name, heap.get? id name = some value ∧ names.lookup name = text

structure Resembles (left : Heap) (names : Interner) (right : Heap) (names' : Interner) (id id' : FrameId) :
    Prop where
  forth : ∀ text value, left.Binds names id text value → ∃ value', right.Binds names' id' text value' ∧ value.Alike value'
  back : ∀ text value', right.Binds names' id' text value' → ∃ value, left.Binds names id text value ∧ value.Alike value'

theorem get?_of_frame? {frame : Frame} (held : heap.frame? id = some frame) (name : Name) :
    heap.get? id name = frame.bindings.get? name := by
  rw [get?, held, Option.bind_some]

theorem lists_iff {frame : Frame} (held : heap.frame? id = some frame) {text shown : String} :
    frame.Lists names text shown ↔ ∃ value, heap.Binds names id text value ∧ value.text = shown := by
  constructor
  · rintro ⟨name, value, bound, texts, shows⟩
    exact ⟨value, ⟨name, (get?_of_frame? held name).trans bound, texts⟩, shows⟩
  · rintro ⟨value, ⟨name, bound, texts⟩, shows⟩
    exact ⟨name, value, (get?_of_frame? held name).symm.trans bound, texts, shows⟩

theorem resembles_iff {frame frame' : Frame} (held : left.frame? id = some frame)
    (held' : right.frame? id' = some frame') : left.Resembles names right names' id id' ↔
      ∀ text shown, frame.Lists names text shown ↔ frame'.Lists names' text shown := by
  constructor
  · intro alike text shown
    rw [lists_iff held, lists_iff held']
    constructor
    · rintro ⟨value, bound, rfl⟩
      obtain ⟨value', bound', same⟩ := alike.forth text value bound
      exact ⟨value', bound', (Value.text_eq_iff.mpr same).symm⟩
    · rintro ⟨value', bound', rfl⟩
      obtain ⟨value, bound, same⟩ := alike.back text value' bound'
      exact ⟨value, bound, Value.text_eq_iff.mpr same⟩
  · intro same
    constructor
    · intro text value bound
      obtain ⟨value', bound', shows⟩ := (lists_iff held').mp ((same _ _).mp ((lists_iff held).mpr ⟨value, bound, rfl⟩))
      exact ⟨value', bound', Value.text_eq_iff.mp shows.symm⟩
    · intro text value' bound'
      obtain ⟨value, bound, shows⟩ := (lists_iff held).mp ((same _ _).mpr ((lists_iff held').mpr ⟨value', bound', rfl⟩))
      exact ⟨value, bound, Value.text_eq_iff.mp shows⟩

theorem frame?_of_mem_rootPath (held : id.index < heap.frames.size) {other : FrameId}
    (member : other ∈ heap.rootPath id) : ∃ frame, heap.frame? other = some frame := by
  rw [rootPath_eq, List.mem_reverse] at member
  rw [← Option.isSome_iff_exists, frame?_isSome, decide_eq_true_eq]
  exact Nat.lt_of_le_of_lt (index_le_of_mem_chain member) held

theorem DistinctTexts.frame (distinct : heap.DistinctTexts names id) {other : FrameId}
    (member : other ∈ heap.rootPath id) {frame : Frame} (held : heap.frame? other = some frame) :
    frame.Distinct names := by
  intro name name' value value' bound bound' texts
  rw [← get?_of_frame? held, ← mem_entries] at bound bound'
  exact distinct other member (name, value) bound (name', value') bound' texts

theorem PlainTexts.frame (plain : heap.PlainTexts names id) {other : FrameId}
    (member : other ∈ heap.rootPath id) {frame : Frame} (held : heap.frame? other = some frame) :
    frame.Plain names := by
  intro name value bound
  rw [← get?_of_frame? held, ← mem_entries] at bound
  exact plain other member (name, value) bound

theorem dump_eq_intercalate (held : id.index < heap.frames.size) {text : FrameId → String}
    (shows : ∀ other ∈ heap.rootPath id, ∀ frame, heap.frame? other = some frame → text other = frame.dump names) :
    heap.dump names id = " ".intercalate ((heap.rootPath id).map text) := by
  rw [dump, List.map_filterMap]
  congr 1
  rw [List.filterMap_eq_map_iff_forall_eq_some]
  intro other member
  obtain ⟨frame, found⟩ := frame?_of_mem_rootPath held member
  rw [found, Option.map_some, shows other member frame found]

theorem bindAll_perm {frame : FrameId} {bindings bindings' : List (Name × Value)} (perm : bindings.Perm bindings')
    (distinct : (bindings.map Prod.fst).Nodup) : heap.bindAll frame bindings = heap.bindAll frame bindings' := by
  apply perm.foldl_eq'
  intro first member second member' before
  by_cases same : first.1 = second.1
  · rw [List.inj_on_of_nodup_map distinct member member' same]
  · exact bind_comm before (fun both => same both.2) first.2 second.2

def frameText (heap : Heap) (names : Interner) (id : FrameId) : String := Frame.dumpAs names (heap.entries id)

theorem frameText_eq {frame : Frame} (held : heap.frame? id = some frame) :
    heap.frameText names id = frame.dump names := by
  rw [frameText, entries, held]
  rfl

theorem frameText_eq_iff {frame frame' : FrameId} (held : id.index < left.frames.size)
    (held' : id'.index < right.frames.size) (distinct : left.DistinctTexts names id)
    (distinct' : right.DistinctTexts names' id') (plain : left.PlainTexts names id)
    (plain' : right.PlainTexts names' id') (member : frame ∈ left.rootPath id) (member' : frame' ∈ right.rootPath id') :
    left.frameText names frame = right.frameText names' frame' ↔ left.Resembles names right names' frame frame' := by
  obtain ⟨own, found⟩ := frame?_of_mem_rootPath held member
  obtain ⟨own', found'⟩ := frame?_of_mem_rootPath held' member'
  rw [frameText_eq found, frameText_eq found', resembles_iff found found']
  exact (plain.frame member found).dump_eq_iff (plain'.frame member' found') (distinct.frame member found)
    (distinct'.frame member' found')

theorem PlainTexts.closing (plain : heap.PlainTexts names id) (held : id.index < heap.frames.size) :
    ∀ item ∈ ((heap.rootPath id).map (heap.frameText names)).map String.toList, ∃ body, '\x7d' ∉ body ∧
      item = ['\x7b', ' ', '\x7b'] ++ (body ++ '\x7d' :: [' ', '\x7d']) := by
  intro item member
  rw [List.map_map] at member
  obtain ⟨other, around, rfl⟩ := List.mem_map.mp member
  obtain ⟨frame, found⟩ := frame?_of_mem_rootPath held around
  -- the names and values of a frame have no closing brace, so the first one is the frame's own
  refine ⟨_, (plain.frame around found).not_mem_body, ?_⟩
  rw [Function.comp_apply, frameText_eq found, Frame.toList_dump]

theorem frameTexts_eq_of_dump_eq (held : id.index < left.frames.size) (held' : id'.index < right.frames.size)
    (plain : left.PlainTexts names id) (plain' : right.PlainTexts names' id')
    (same : left.dump names id = right.dump names' id') :
    (left.rootPath id).map (left.frameText names) = (right.rootPath id').map (right.frameText names') := by
  rw [dump_eq_intercalate held fun _ _ _ => frameText_eq, dump_eq_intercalate held' fun _ _ _ => frameText_eq] at same
  have chars := congrArg String.toList same
  rw [String.toList_intercalate, String.toList_intercalate] at chars
  have closed := Delimited.of_closing '\x7d' ['\x7b', ' ', '\x7b'] [' ', '\x7d'] (show " ".toList ≠ [] by decide)
  have items := closed.intercalate_inj (plain.closing held) (plain'.closing held') chars
  exact List.map_injective_iff.mpr (fun _ _ => String.toList_injective) items

theorem dump_eq_iff (held : id.index < left.frames.size) (held' : id'.index < right.frames.size)
    (distinct : left.DistinctTexts names id) (distinct' : right.DistinctTexts names' id')
    (plain : left.PlainTexts names id) (plain' : right.PlainTexts names' id') :
    left.dump names id = right.dump names' id' ↔
      List.Forall₂ (left.Resembles names right names') (left.rootPath id) (right.rootPath id') := by
  have texts : left.dump names id = right.dump names' id' ↔
      (left.rootPath id).map (left.frameText names) = (right.rootPath id').map (right.frameText names') := by
    refine ⟨frameTexts_eq_of_dump_eq held held' plain plain', fun same => ?_⟩
    rw [dump_eq_intercalate held fun _ _ _ => frameText_eq, dump_eq_intercalate held' fun _ _ _ => frameText_eq, same]
  rw [texts, ← List.forall₂_eq_eq_eq, List.forall₂_map_left_iff, List.forall₂_map_right_iff, List.forall₂_iff_zip,
    List.forall₂_iff_zip]
  have pair {frame frame' : FrameId} (member : (frame, frame') ∈ (left.rootPath id).zip (right.rootPath id')) :=
    frameText_eq_iff held held' distinct distinct' plain plain' (List.of_mem_zip member).1 (List.of_mem_zip member).2
  exact and_congr_right fun _ =>
    ⟨fun all _ _ member => (pair member).mp (all member), fun all _ _ member => (pair member).mpr (all member)⟩

end Heap

/-- A dump does not show in which order bindings came or are enumerated. If no name has a separator in its text, it
    shows the rest: dumps are equal exactly if the chains are equally long and, frame by frame from the outermost one,
    bind the same texts to values that are alike. -/
theorem environment_dumps_canonical (left right : Heap) (names names' : Interner) (id id' : FrameId)
    (held : id.index < left.frames.size) (held' : id'.index < right.frames.size)
    (distinct : left.DistinctTexts names id) (distinct' : right.DistinctTexts names' id') :
    (∀ listing : FrameId → List (Name × Value), (∀ frame ∈ left.rootPath id, left.Enumerates frame (listing frame)) →
      left.dump names id =
        " ".intercalate ((left.rootPath id).map fun frame => Frame.dumpAs names (listing frame))) ∧
    (∀ (frame : FrameId) (bindings bindings' : List (Name × Value)), bindings.Perm bindings' →
      (bindings.map Prod.fst).Nodup →
      (left.bindAll frame bindings).dump names id = (left.bindAll frame bindings').dump names id) ∧
    (left.PlainTexts names id → right.PlainTexts names' id' →
      (left.dump names id = right.dump names' id' ↔
        List.Forall₂ (left.Resembles names right names') (left.rootPath id) (right.rootPath id'))) := by
  refine ⟨?_, ?_, ?_⟩
  · intro listing enumerates
    apply Heap.dump_eq_intercalate held
    intro other member frame found
    apply Frame.Distinct.dumpAs_eq (distinct.frame member found) (enumerates other member).once
    intro name value
    rw [(enumerates other member).complete, Heap.get?_of_frame? found]
  · intro frame bindings bindings' perm once
    rw [Heap.bindAll_perm perm once]
  · exact Heap.dump_eq_iff held held' distinct distinct'

def idle (stamp : Nat) (scope : FrameId) : Value := .function ⟨stamp, ⟨0, 0⟩, ⟨0⟩, ⟨0, ⟨#[], #[], #[]⟩⟩, scope⟩

def spelling : Interner := (Interner.new.internAll ["b", "a", "f"]).2

def sketched : Heap :=
  (((Heap.empty.newFrame none).2.newFrame (some ⟨0⟩)).2.bindAll ⟨0⟩
    [(⟨2⟩, .int Int64.minValue), (⟨3⟩, idle 0 ⟨1⟩), (⟨1⟩, .null)]).bind ⟨1⟩ ⟨1⟩ (.bool true)

def respelling : Interner := (Interner.new.internAll ["f", "q,", "a", "b"]).2

def redrawn : Heap :=
  (((((Heap.empty.newFrame none).2.newFrame none).2.newFrame (some ⟨1⟩)).2.bindAll ⟨1⟩
    [(⟨4⟩, .null), (⟨1⟩, idle 7 ⟨0⟩), (⟨3⟩, .int Int64.minValue)]).bind ⟨2⟩ ⟨4⟩ (.bool true)).bind ⟨0⟩ ⟨2⟩ .null

theorem environment_dumps_canonical_redrawn :
    sketched.dump spelling ⟨1⟩ = "\x7b \x7ba=-9223372036854775808, b=null, f=function\x7d \x7d \x7b \x7bb=true\x7d \x7d" ∧
    sketched.dump spelling ⟨1⟩ = " ".intercalate ((sketched.rootPath ⟨1⟩).map fun frame =>
      Frame.dumpAs spelling (sketched.entries frame).reverse) ∧
    sketched.dump spelling ⟨1⟩ = redrawn.dump respelling ⟨2⟩ ∧
    List.Forall₂ (sketched.Resembles spelling redrawn respelling) (sketched.rootPath ⟨1⟩) (redrawn.rootPath ⟨2⟩) := by
  obtain ⟨enumerations, -, chains⟩ := environment_dumps_canonical sketched redrawn spelling respelling ⟨1⟩ ⟨2⟩
    (by decide) (by decide) (by decide +kernel) (by decide +kernel)
  have same : sketched.dump spelling ⟨1⟩ = redrawn.dump respelling ⟨2⟩ := by cbv
  refine ⟨by cbv, ?_, same, (chains (by decide +kernel) (by decide +kernel)).mp same⟩
  apply enumerations fun frame => (sketched.entries frame).reverse
  intro frame member
  have once : ∀ frame ∈ sketched.rootPath ⟨1⟩, (sketched.entries frame).Nodup := by decide +kernel
  exact ⟨List.nodup_reverse.mpr (once frame member), fun name value => List.mem_reverse.trans Heap.mem_entries⟩

end ScopedEval
