import Mathlib.Data.Finset.Card
import ScopedEval.Proofs.Unfolding

namespace ScopedEval

section FirstOccurrences

variable {α : Type} [DecidableEq α]

theorem eraseDups_snoc (entries : List α) (last : α) :
    (entries ++ [last]).eraseDups =
      if last ∈ entries then entries.eraseDups else entries.eraseDups ++ [last] := by
  rw [List.eraseDups_append]
  by_cases known : last ∈ entries <;> simp [List.removeAll, known, List.eraseDups_cons]

theorem idxOf_snoc_lt_iff {entries : List α} {last a b : α} (new : last ∉ entries) (left : a ∈ entries ++ [last])
    (right : b ∈ entries ++ [last]) :
    (entries ++ [last]).idxOf a < (entries ++ [last]).idxOf b ↔
      a ∈ entries ∧ (b = last ∨ entries.idxOf a < entries.idxOf b) := by
  rw [List.idxOf_append, List.idxOf_append]
  rcases List.mem_append.mp left with held | held <;> rcases List.mem_append.mp right with held' | held'
  · have different : b ≠ last := fun same => new (same ▸ held')
    simp [held, held', different]
  · rw [List.mem_singleton] at held'
    subst held'
    simp [held, new, List.idxOf_lt_length_of_mem held]
  · rw [List.mem_singleton] at held
    subst held
    have before := List.idxOf_lt_length_of_mem held'
    simp only [new, held', if_true, if_false, false_and, iff_false]
    omega
  · rw [List.mem_singleton] at held held'
    subst held held'
    simp [new]

theorem idxOf_eraseDups_lt_iff {entries : List α} {a b : α} (left : a ∈ entries) (right : b ∈ entries) :
    entries.eraseDups.idxOf a < entries.eraseDups.idxOf b ↔ entries.idxOf a < entries.idxOf b := by
  induction entries using List.reverseRecOn with
  | nil => cases left
  | append_singleton entries last ih =>
    rw [eraseDups_snoc]
    by_cases known : last ∈ entries
    · have held {c : α} (member : c ∈ entries ++ [last]) : c ∈ entries := by
        rcases List.mem_append.mp member with member | member
        · exact member
        · exact List.mem_singleton.mp member ▸ known
      rw [if_pos known, List.idxOf_append_of_mem (held left), List.idxOf_append_of_mem (held right)]
      exact ih (held left) (held right)
    · have same {c : α} (member : c ∈ entries ++ [last]) : c ∈ entries.eraseDups ++ [last] := by
        rw [List.mem_append, List.mem_eraseDups, ← List.mem_append]
        exact member
      have new : last ∉ entries.eraseDups := fun member => known (List.mem_eraseDups.mp member)
      rw [if_neg known, idxOf_snoc_lt_iff new (same left) (same right), idxOf_snoc_lt_iff known left right,
        List.mem_eraseDups]
      apply and_congr_right
      intro held
      apply or_congr_right'
      intro different
      rcases List.mem_append.mp right with held' | held'
      · exact ih held held'
      · exact absurd (List.mem_singleton.mp held') different

end FirstOccurrences

namespace Interner

theorem mem_texts {names : Interner} {text : String} :
    text ∈ names.texts.toList ↔ ∃ name, names.find? text = some name := by
  rw [List.mem_iff_getElem?]
  constructor
  · rintro ⟨index, held⟩
    rw [Array.getElem?_toList] at held
    exact ⟨⟨index⟩, find?_eq_some_iff.mpr held⟩
  · rintro ⟨name, known⟩
    rw [find?_eq_some_iff, ← Array.getElem?_toList] at known
    exact ⟨name.index, known⟩

theorem intern_of_find? {names : Interner} {text : String} {name : Name} (known : names.find? text = some name) :
    names.intern text = (name, names) := by
  obtain ⟨index, held, rfl⟩ := Option.map_eq_some_iff.mp known
  unfold intern
  split
  · rename_i found
    cases held.symm.trans found
    rfl
  · rename_i missing
    cases held.symm.trans missing

theorem texts_intern (names : Interner) (text : String) :
    (names.intern text).2.texts.toList =
      if text ∈ names.texts.toList then names.texts.toList else names.texts.toList ++ [text] := by
  by_cases known : text ∈ names.texts.toList
  · obtain ⟨name, found⟩ := mem_texts.mp known
    rw [if_pos known, intern_of_find? found]
  · rw [if_neg known]
    unfold intern
    split
    · rename_i index found
      exact absurd (mem_texts.mpr ⟨⟨index⟩, by rw [find?, found]; rfl⟩) known
    · exact Array.toList_push

def Holds (names : Interner) (history : List String) : Prop := names.texts.toList = history.eraseDups

namespace Holds

variable {names : Interner} {history : List String}

theorem new : Interner.new.Holds [""] := rfl

theorem intern (holds : names.Holds history) (text : String) : (names.intern text).2.Holds (history ++ [text]) := by
  unfold Holds at holds ⊢
  rw [texts_intern, eraseDups_snoc, holds]
  simp only [List.mem_eraseDups]

theorem internAll (holds : names.Holds history) (texts : List String) :
    (names.internAll texts).2.Holds (history ++ texts) := by
  induction texts generalizing names history with
  | nil =>
    rw [List.append_nil]
    exact holds
  | cons text rest ih =>
    have later := ih (holds.intern text)
    rw [List.append_assoc] at later
    exact later

theorem nodup (holds : names.Holds history) : history.eraseDups.Nodup := by
  rw [← holds, List.nodup_iff_getElem?_ne_getElem?]
  intro i j before bound same
  rw [Array.getElem?_toList, Array.getElem?_toList] at same
  -- the map would have to send the text to both positions
  have held : names.texts[j]? = some names.texts[j] := Array.getElem?_eq_getElem bound
  have first := (names.inverse _ i).mpr (same.trans held)
  have second := (names.inverse _ j).mpr held
  cases first.symm.trans second
  exact Nat.lt_irrefl _ before

theorem find?_eq_some_iff (holds : names.Holds history) {text : String} {name : Name} :
    names.find? text = some name ↔ text ∈ history ∧ name = ⟨history.eraseDups.idxOf text⟩ := by
  rw [Interner.find?_eq_some_iff, ← Array.getElem?_toList, holds]
  constructor
  · intro held
    obtain ⟨bound, same⟩ := List.getElem?_eq_some_iff.mp held
    refine ⟨List.mem_eraseDups.mp (List.mem_of_getElem? held), Name.ext_index ?_⟩
    rw [← same, holds.nodup.idxOf_getElem]
  · rintro ⟨member, rfl⟩
    exact List.getElem?_idxOf (List.mem_eraseDups.mpr member)

theorem size (holds : names.Holds history) : names.size = history.toFinset.card := by
  have same : history.toFinset = history.eraseDups.toFinset := by
    ext text
    rw [List.mem_toFinset, List.mem_toFinset, List.mem_eraseDups]
  rw [same, List.toFinset_card_of_nodup holds.nodup, ← holds]
  rfl

end Holds

end Interner

/-- Whatever is interned, the names are the positions of the distinct texts in the order in which they first came,
    behind the empty text. Names and texts determine each other, for ever; a known text changes nothing, and a
    name beyond those handed out reads as the empty text. -/
theorem interner_names_distinct_texts (texts : List String) (returned : List Name) (names : Interner)
    (made : Interner.new.internAll texts = (returned, names)) :
    let history := "" :: texts
    names.texts.toList = history.eraseDups ∧
    (∀ (text : String) (index : Nat), names.positions[text]? = some index ↔ names.texts[index]? = some text) ∧
    names.find? "" = some .empty ∧
    (∀ text, names.find? text = if text ∈ history then some ⟨history.eraseDups.idxOf text⟩ else none) ∧
    List.Forall₂ (fun text name => names.find? text = some name) texts returned ∧
    (∀ first ∈ texts.zip returned, ∀ second ∈ texts.zip returned,
      (first.2 = second.2 ↔ first.1 = second.1) ∧
      (first.2 < second.2 ↔ history.idxOf first.1 < history.idxOf second.1)) ∧
    (∀ more, List.Forall₂ (fun text name => (names.internAll more).2.lookup name = text) texts returned) ∧
    names.size = history.toFinset.card ∧
    (∀ text ∈ history, (names.intern text).2 = names) ∧
    ∀ name, names.size ≤ name.index → names.lookup name = "" := by
  intro history
  have holds : (Interner.new.internAll texts).2.Holds history := Interner.Holds.new.internAll texts
  have found := Interner.new.find?_internAll texts
  rw [made] at holds found
  have named {text : String} (member : text ∈ history) : names.find? text = some ⟨history.eraseDups.idxOf text⟩ :=
    holds.find?_eq_some_iff.mpr ⟨member, rfl⟩
  have pairs {pair : String × Name} (member : pair ∈ texts.zip returned) :
      pair.1 ∈ history ∧ pair.2 = ⟨history.eraseDups.idxOf pair.1⟩ :=
    holds.find?_eq_some_iff.mp ((List.forall₂_iff_zip.mp found).2 member)
  refine ⟨holds, names.inverse, ?_, ?_, found, ?_, ?_, holds.size, ?_, ?_⟩
  · rw [named List.mem_cons_self, List.eraseDups_cons, List.idxOf_cons_self]
    rfl
  · intro text
    split
    · rename_i member
      exact named member
    · rename_i unknown
      rw [Option.eq_none_iff_forall_ne_some]
      intro name known
      exact unknown (holds.find?_eq_some_iff.mp known).1
  · intro first member second member'
    obtain ⟨held, at_first⟩ := pairs member
    obtain ⟨held', at_second⟩ := pairs member'
    rw [at_first, at_second]
    refine ⟨⟨fun same => ?_, fun same => ?_⟩, idxOf_eraseDups_lt_iff held held'⟩
    · exact (List.idxOf_inj (List.mem_eraseDups.mpr held)).mp (congrArg Name.index same)
    · rw [same]
  · intro more
    exact found.imp fun _ _ known => Interner.lookup_of_find? ((Interner.Extends.internAll names more).find known)
  · intro text member
    rw [Interner.intern_of_find? (named member)]
  · exact fun name => Interner.lookup_of_size_le

theorem interner_names_distinct_texts_repeated :
    let names := (Interner.new.internAll ["b", "", "a", "b"]).2
    Interner.new.internAll ["b", "", "a", "b"] = ([⟨1⟩, ⟨0⟩, ⟨2⟩, ⟨1⟩], names) ∧
    names.texts.toList = ["", "b", "a"] ∧ names.size = 3 ∧
    (((⟨1⟩ : Name) < ⟨2⟩) ↔ ["", "b", "", "a", "b"].idxOf "b" < ["", "b", "", "a", "b"].idxOf "a") ∧
    (names.intern "a").2 = names ∧ names.lookup ⟨3⟩ = "" := by
  intro names
  have made : Interner.new.internAll ["b", "", "a", "b"] = ([⟨1⟩, ⟨0⟩, ⟨2⟩, ⟨1⟩], names) :=
    Prod.ext (by decide +kernel) rfl
  obtain ⟨texts, -, -, -, -, order, -, size, known, unknown⟩ := interner_names_distinct_texts _ _ _ made
  have three : names.size = 3 := size.trans (by decide)
  refine ⟨made, texts.trans (by decide), three, ?_, known "a" (by decide), unknown ⟨3⟩ (Nat.le_of_eq three)⟩
  exact (order ("b", ⟨1⟩) (by decide) ("a", ⟨2⟩) (by decide)).2

end ScopedEval
