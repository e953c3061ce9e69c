import Mathlib.Data.List.Perm.Basic
import Mathlib.Logic.Function.Basic
import MsaBroker.Lib.KeyedList

/-! A finite map together with the one enumeration of its entries in increasing
key order. The order is part of the value, so two maps that find the same under
every key are the same, and a map is given once it is said what it finds. -/
namespace MsaBroker

open KeyedList (LawfulCompare Sorted)

variable {κ β : Type*}

/-- A keyed list in strictly increasing order. -/
structure SortedMap (cmp : κ → κ → Int) (key : β → κ) where
  entries : List β
  sorted : Sorted cmp key entries

namespace SortedMap

variable {cmp : κ → κ → Int} {key : β → κ} {m n : SortedMap cmp key} {k : κ} {item e : β} {before after : List β}

def empty : SortedMap cmp key := ⟨[], .nil⟩

@[simp] theorem entries_empty : (empty : SortedMap cmp key).entries = [] := rfl

/-- The entry under this key. -/
def find (m : SortedMap cmp key) (k : κ) : Option β := KeyedList.find cmp key k m.entries

/-- The entries that satisfy `keep`. -/
def filter (keep : β → Bool) (m : SortedMap cmp key) : SortedMap cmp key :=
  ⟨m.entries.filter keep, m.sorted.sublist List.filter_sublist⟩

variable [DecidableEq κ] (lawful : LawfulCompare cmp)
include lawful

theorem find_eq_some : m.find k = some e ↔ e ∈ m.entries ∧ key e = k := by
  constructor
  · exact KeyedList.find_some lawful
  · rintro ⟨member, rfl⟩
    exact KeyedList.Sorted.find_of_mem lawful m.sorted member

omit [DecidableEq κ] in
theorem find_eq_none : m.find k = none ↔ k ∉ m.entries.map key := KeyedList.find_eq_none lawful

/-- A map is what it finds. -/
theorem ext_find (same : ∀ k, m.find k = n.find k) : m = n := by
  have members : ∀ e, e ∈ m.entries ↔ e ∈ n.entries := by
    intro e
    have found := same (key e)
    constructor
    · intro member
      rw [(find_eq_some lawful).mpr ⟨member, rfl⟩] at found
      exact ((find_eq_some lawful).mp found.symm).1
    · intro member
      rw [(find_eq_some lawful).mpr ⟨member, rfl⟩] at found
      exact ((find_eq_some lawful).mp found).1
  have perm : m.entries.Perm n.entries :=
    (List.perm_ext_iff_of_nodup (KeyedList.Sorted.keys_nodup lawful m.sorted).of_map
      (KeyedList.Sorted.keys_nodup lawful n.sorted).of_map).mpr members
  have entries : m.entries = n.entries := by
    refine perm.eq_of_pairwise (fun a b _ _ less more => ?_) m.sorted n.sorted
    exact absurd (lawful.trans _ _ _ less more) (lawful.irrefl _)
  cases m
  cases n
  simpa using entries

/-- The map with one entry more, put in where the order has its place. -/
theorem exists_inserted (item : β) (split : m.entries = before ++ after)
    (below : ∀ e ∈ before, cmp (key e) (key item) < 0) (above : ∀ e ∈ after, cmp (key item) (key e) < 0) :
    ∃ n : SortedMap cmp key, n.entries = before ++ item :: after ∧
      n.find = Function.update m.find (key item) (some item) := by
  have sorted := m.sorted
  rw [split, Sorted, List.pairwise_append] at sorted
  obtain ⟨left, right, across⟩ := sorted
  have inserted : Sorted cmp key (before ++ item :: after) := by
    refine List.pairwise_append.mpr ⟨left, List.pairwise_cons.mpr ⟨above, right⟩, fun a inBefore b member => ?_⟩
    rcases List.mem_cons.mp member with rfl | inAfter
    · exact below a inBefore
    · exact across a inBefore b inAfter
  refine ⟨⟨_, inserted⟩, rfl, funext fun k => Option.ext fun e => ?_⟩
  rw [find_eq_some lawful]
  by_cases same : k = key item
  · subst same
    have alone : ∀ e ∈ before ++ after, key e ≠ key item := by
      intro e member equal
      rcases List.mem_append.mp member with inBefore | inAfter
      · exact lawful.irrefl _ (equal ▸ below e inBefore)
      · exact lawful.irrefl _ (equal ▸ above e inAfter)
    simp only [Function.update_self, Option.some.injEq]
    constructor
    · rintro ⟨member, equal⟩
      rcases List.mem_cons.mp (List.perm_middle.mem_iff.mp member) with rfl | other
      · rfl
      · exact absurd equal (alone e other)
    · rintro rfl
      simp
  · rw [Function.update_of_ne same, find_eq_some lawful, split]
    constructor
    · rintro ⟨member, rfl⟩
      refine ⟨?_, rfl⟩
      rcases List.mem_cons.mp (List.perm_middle.mem_iff.mp member) with rfl | other
      · exact absurd rfl same
      · exact other
    · rintro ⟨member, rfl⟩
      exact ⟨List.perm_middle.mem_iff.mpr (List.mem_cons_of_mem _ member), rfl⟩

theorem find_filter (keep : β → Bool) : (m.filter keep).find k = (m.find k).filter keep := by
  refine Option.ext fun e => ?_
  rw [find_eq_some lawful, Option.filter_eq_some_iff, find_eq_some lawful, filter, List.mem_filter]
  tauto

/-- The map with one entry less. -/
theorem exists_erased (split : m.entries = before ++ item :: after) :
    ∃ n : SortedMap cmp key, n.entries = before ++ after ∧
      n.find = Function.update m.find (key item) none := by
  have sorted := m.sorted
  rw [split] at sorted
  have fewer : Sorted cmp key (before ++ after) :=
    sorted.sublist ((List.sublist_cons_self item after).append_left before)
  refine ⟨⟨_, fewer⟩, rfl, funext fun k => Option.ext fun e => ?_⟩
  have members : ∀ e, e ∈ m.entries ↔ e = item ∨ e ∈ before ++ after := by
    intro e
    rw [split, List.perm_middle.mem_iff, List.mem_cons]
  have alone : ∀ e ∈ before ++ after, key e ≠ key item := by
    intro e member equal
    have nodup := KeyedList.Sorted.keys_nodup lawful sorted
    rw [(List.perm_middle.map key).nodup_iff, List.map_cons, List.nodup_cons] at nodup
    exact nodup.1 (equal ▸ List.mem_map_of_mem member)
  rw [find_eq_some lawful]
  by_cases same : k = key item
  · subst same
    simp only [Function.update_self, reduceCtorEq, iff_false]
    rintro ⟨member, equal⟩
    exact alone e member equal
  · rw [Function.update_of_ne same, find_eq_some lawful, members]
    constructor
    · rintro ⟨member, rfl⟩
      exact ⟨.inr member, rfl⟩
    · rintro ⟨rfl | member, rfl⟩
      · exact absurd rfl same
      · exact ⟨member, rfl⟩

end SortedMap

end MsaBroker
