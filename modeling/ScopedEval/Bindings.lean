import ScopedEval.Interner

namespace ScopedEval

namespace Bindings.Entries

variable {α : Type}

abbrev Ascending (entries : List (Name × α)) : Prop :=
  entries.Pairwise fun left right => left.1 < right.1

def get? (name : Name) : List (Name × α) → Option α
  | [] => none
  | (other, value) :: rest => if other = name then some value else get? name rest

def insert (name : Name) (value : α) : List (Name × α) → List (Name × α)
  | [] => [(name, value)]
  | (other, held) :: rest =>
    if name < other then (name, value) :: (other, held) :: rest
    else if other = name then (name, value) :: rest
    else (other, held) :: insert name value rest

theorem fst_mem_insert {name : Name} {value : α} {entries : List (Name × α)} {entry : Name × α}
    (member : entry ∈ insert name value entries) : entry.1 = name ∨ entry ∈ entries := by
  induction entries with
  | nil => simp_all [insert]
  | cons head rest ih =>
    obtain ⟨other, held⟩ := head
    unfold insert at member
    split at member
    · rcases List.mem_cons.mp member with rfl | member
      · exact .inl rfl
      · exact .inr member
    · split at member
      · rcases List.mem_cons.mp member with rfl | member
        · exact .inl rfl
        · exact .inr (List.mem_cons_of_mem _ member)
      · rcases List.mem_cons.mp member with rfl | member
        · exact .inr List.mem_cons_self
        · exact (ih member).imp id (List.mem_cons_of_mem _)

theorem ascending_insert {entries : List (Name × α)} (ascending : Ascending entries) (name : Name)
    (value : α) : Ascending (insert name value entries) := by
  induction entries with
  | nil => simp [insert]
  | cons head rest ih =>
    obtain ⟨other, held⟩ := head
    obtain ⟨above, ascending'⟩ := List.pairwise_cons.mp ascending
    unfold insert
    split
    · rename_i before
      refine List.pairwise_cons.mpr ⟨?_, ascending⟩
      intro entry member
      rcases List.mem_cons.mp member with rfl | member
      · exact before
      · exact Name.lt_trans before (above _ member)
    · rename_i notBefore
      split
      · rename_i same
        subst same
        exact List.pairwise_cons.mpr ⟨above, ascending'⟩
      · rename_i different
        refine List.pairwise_cons.mpr ⟨?_, ih ascending'⟩
        intro entry member
        rcases fst_mem_insert member with same | member
        · rw [same]
          exact (Name.lt_or_gt_of_ne different).resolve_right notBefore
        · exact above _ member

theorem get?_eq_none_of_below {name : Name} {entries : List (Name × α)}
    (below : ∀ entry ∈ entries, name < entry.1) : get? name entries = none := by
  induction entries with
  | nil => rfl
  | cons head rest ih =>
    have different : head.1 ≠ name := fun same => Name.lt_irrefl name (same ▸ below head List.mem_cons_self)
    rw [get?, if_neg different]
    exact ih fun entry member => below entry (List.mem_cons_of_mem _ member)

theorem get?_insert (name other : Name) (value : α) (entries : List (Name × α)) :
    get? other (insert name value entries) = if name = other then some value else get? other entries := by
  induction entries with
  | nil => rfl
  | cons head rest ih =>
    obtain ⟨first, held⟩ := head
    unfold insert
    split
    · rfl
    · split
      · rename_i same
        subst same
        by_cases target : first = other <;> simp [get?, target]
      · rename_i different
        simp only [get?, ih]
        by_cases target : first = other
        · subst target
          simp [Ne.symm different]
        · simp [target]

theorem length_insert {entries : List (Name × α)} (ascending : Ascending entries) (name : Name)
    (value : α) : (insert name value entries).length =
      if (get? name entries).isSome then entries.length else entries.length + 1 := by
  induction entries with
  | nil => rfl
  | cons head rest ih =>
    obtain ⟨other, held⟩ := head
    obtain ⟨above, ascending'⟩ := List.pairwise_cons.mp ascending
    unfold insert
    split
    · rename_i before
      have absent : get? name ((other, held) :: rest) = none := by
        refine get?_eq_none_of_below fun entry member => ?_
        rcases List.mem_cons.mp member with rfl | member
        · exact before
        · exact Name.lt_trans before (above _ member)
      simp [absent]
    · split
      · rename_i same
        simp [get?, same]
      · rename_i different
        simp only [List.length_cons, get?, if_neg different, ih ascending']
        split <;> rfl

theorem get?_eq_some_iff {entries : List (Name × α)} (ascending : Ascending entries) {name : Name}
    {value : α} : get? name entries = some value ↔ (name, value) ∈ entries := by
  induction entries with
  | nil => simp [get?]
  | cons head rest ih =>
    obtain ⟨other, held⟩ := head
    obtain ⟨above, ascending'⟩ := List.pairwise_cons.mp ascending
    by_cases same : other = name
    · subst same
      have absent : (other, value) ∉ rest := fun member => Name.lt_irrefl other (above (other, value) member)
      simp [get?, absent, eq_comm]
    · simp [get?, same, ih ascending', Ne.symm same]

theorem eq_of_get? {left right : List (Name × α)} (ascendingLeft : Ascending left)
    (ascendingRight : Ascending right) (same : ∀ name, get? name left = get? name right) :
    left = right := by
  induction left generalizing right with
  | nil =>
    cases right with
    | nil => rfl
    | cons head rest =>
      have read := same head.1
      simp [get?] at read
  | cons head rest ih =>
    obtain ⟨name, value⟩ := head
    obtain ⟨above, restLeft⟩ := List.pairwise_cons.mp ascendingLeft
    cases right with
    | nil =>
      have read := same name
      simp [get?] at read
    | cons head' rest' =>
      obtain ⟨name', value'⟩ := head'
      obtain ⟨above', restRight⟩ := List.pairwise_cons.mp ascendingRight
      have sameName : name = name' := by
        apply Decidable.byContradiction
        intro different
        rcases Name.lt_or_gt_of_ne different with before | before
        · have read := same name
          rw [get?, if_pos rfl, get?, if_neg (Ne.symm different)] at read
          rw [get?_eq_none_of_below fun entry member => Name.lt_trans before (above' entry member)] at read
          cases read
        · have read := same name'
          rw [get?, if_neg different, get?, if_pos rfl] at read
          rw [get?_eq_none_of_below fun entry member => Name.lt_trans before (above entry member)] at read
          cases read
      subst sameName
      have sameValue : value = value' := by simpa [get?] using same name
      subst sameValue
      congr 1
      refine ih restLeft restRight fun other => ?_
      have read := same other
      by_cases target : name = other
      · subst target
        rw [get?_eq_none_of_below above, get?_eq_none_of_below above']
      · simpa [get?, target] using read

end Bindings.Entries

/-- What the names of one frame are bound to: a finite map, kept as entries in ascending order of
    names so that equal maps are equal values. -/
structure Bindings (α : Type) where
  entries : List (Name × α)
  ascending : Bindings.Entries.Ascending entries

namespace Bindings

variable {α : Type}

def empty : Bindings α := ⟨[], .nil⟩

instance : Inhabited (Bindings α) := ⟨empty⟩

def get? (bindings : Bindings α) (name : Name) : Option α := Entries.get? name bindings.entries

def contains (bindings : Bindings α) (name : Name) : Bool := (bindings.get? name).isSome

def insert (bindings : Bindings α) (name : Name) (value : α) : Bindings α :=
  ⟨Entries.insert name value bindings.entries, Entries.ascending_insert bindings.ascending name value⟩

def size (bindings : Bindings α) : Nat := bindings.entries.length

@[ext] theorem ext {left right : Bindings α} (same : ∀ name, left.get? name = right.get? name) :
    left = right := by
  have entries := Entries.eq_of_get? left.ascending right.ascending same
  cases left; cases right; cases entries; rfl

theorem get?_insert (bindings : Bindings α) (name other : Name) (value : α) :
    (bindings.insert name value).get? other = if name = other then some value else bindings.get? other :=
  Entries.get?_insert name other value bindings.entries

theorem size_insert (bindings : Bindings α) (name : Name) (value : α) :
    (bindings.insert name value).size =
      if bindings.contains name then bindings.size else bindings.size + 1 :=
  Entries.length_insert bindings.ascending name value

theorem mem_entries_iff {bindings : Bindings α} {name : Name} {value : α} :
    (name, value) ∈ bindings.entries ↔ bindings.get? name = some value :=
  (Entries.get?_eq_some_iff bindings.ascending).symm

end Bindings

end ScopedEval
