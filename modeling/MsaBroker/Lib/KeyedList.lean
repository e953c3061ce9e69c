import Mathlib.Data.List.Basic
import Mathlib.Data.List.Nodup
import Mathlib.Tactic.Common

/-! A table kept as a list in strictly increasing key order, under a comparator
in the manner of C: negative, zero or positive. Insertion refuses a key that
is present; lookup and removal act on the first match, which the order makes
the only one. -/
namespace MsaBroker.KeyedList

variable {κ β : Type*}

/-- The comparator is a strict total order with `0` for equality. -/
structure LawfulCompare (cmp : κ → κ → Int) : Prop where
  eq_zero_iff : ∀ a b, cmp a b = 0 ↔ a = b
  pos_iff : ∀ a b, 0 < cmp a b ↔ cmp b a < 0
  trans : ∀ a b c, cmp a b < 0 → cmp b c < 0 → cmp a c < 0

variable (cmp : κ → κ → Int) (key : β → κ)

/-- Walk past smaller keys; refuse an equal one. -/
def insert (item : β) : List β → Option (List β)
  | [] => some [item]
  | e :: rest =>
    if 0 < cmp (key item) (key e) then (insert item rest).map (e :: ·)
    else if cmp (key item) (key e) = 0 then none
    else some (item :: e :: rest)

/-- The first entry under this key. -/
def find (k : κ) (l : List β) : Option β := l.find? fun e => cmp (key e) k = 0

/-- The list without its first entry under this key. -/
def erase (k : κ) (l : List β) : List β := l.eraseP fun e => cmp (key e) k = 0

/-- Keys strictly increase along the list. -/
def Sorted (l : List β) : Prop := l.Pairwise fun a b => cmp (key a) (key b) < 0

variable {cmp key}

section Laws
variable [DecidableEq κ] (lawful : LawfulCompare cmp) {k : κ} {item e : β} {l l' : List β}
include lawful

omit [DecidableEq κ] in
theorem LawfulCompare.irrefl (a : κ) : ¬ cmp a a < 0 := by
  have equal := (lawful.eq_zero_iff a a).mpr rfl
  omega

omit [DecidableEq κ] in
theorem find_eq_none : find cmp key k l = none ↔ k ∉ l.map key := by
  simp only [find, List.find?_eq_none, decide_eq_true_eq, lawful.eq_zero_iff, List.mem_map, not_exists,
    not_and]

omit [DecidableEq κ] in
theorem find_some (found : find cmp key k l = some e) : e ∈ l ∧ key e = k := by
  have matched := List.find?_some found
  exact ⟨List.mem_of_find?_eq_some found, (lawful.eq_zero_iff _ _).mp (by simpa using matched)⟩

theorem find_cons : find cmp key k (e :: l) = if key e = k then some e else find cmp key k l := by
  split
  · rename_i same
    have equal : cmp (key e) k = 0 := (lawful.eq_zero_iff _ _).mpr same
    simp [find, equal]
  · rename_i other
    have different : cmp (key e) k ≠ 0 := fun zero => other ((lawful.eq_zero_iff _ _).mp zero)
    simp [find, different]

theorem erase_cons : erase cmp key k (e :: l) = if key e = k then l else e :: erase cmp key k l := by
  split
  · rename_i same
    have equal : cmp (key e) k = 0 := (lawful.eq_zero_iff _ _).mpr same
    simp [erase, equal]
  · rename_i other
    have different : cmp (key e) k ≠ 0 := fun zero => other ((lawful.eq_zero_iff _ _).mp zero)
    simp [erase, different]

omit [DecidableEq κ] in
/-- Distinct keys, so an entry is determined by its key. -/
theorem Sorted.keys_nodup (sorted : Sorted cmp key l) : (l.map key).Nodup :=
  List.Pairwise.map key (fun _ _ less same => lawful.irrefl _ (same ▸ less)) sorted

theorem Sorted.find_of_mem (sorted : Sorted cmp key l) (member : e ∈ l) :
    find cmp key (key e) l = some e := by
  induction l with
  | nil => simp at member
  | cons a l ih =>
    obtain ⟨first, rest⟩ := List.pairwise_cons.mp sorted
    rw [find_cons lawful]
    rcases List.mem_cons.mp member with rfl | member
    · simp
    · have different : key a ≠ key e := fun same => lawful.irrefl _ (same ▸ first e member)
      simp [different, ih rest member]

omit [DecidableEq κ] lawful in
theorem insert_perm (inserted : insert cmp key item l = some l') : l'.Perm (item :: l) := by
  induction l generalizing l' with
  | nil =>
    obtain rfl : [item] = l' := by simpa [insert] using inserted
    exact .refl _
  | cons e l ih =>
    simp only [insert] at inserted
    split at inserted
    · obtain ⟨rest, inner, rfl⟩ := Option.map_eq_some_iff.mp inserted
      exact ((ih inner).cons e).trans (.swap _ _ _)
    · split at inserted
      · cases inserted
      · cases inserted
        exact .refl _

omit [DecidableEq κ] in
theorem insert_sorted (sorted : Sorted cmp key l) (inserted : insert cmp key item l = some l') :
    Sorted cmp key l' := by
  induction l generalizing l' with
  | nil =>
    obtain rfl : [item] = l' := by simpa [insert] using inserted
    exact List.pairwise_singleton _ _
  | cons e l ih =>
    obtain ⟨first, rest⟩ := List.pairwise_cons.mp sorted
    simp only [insert] at inserted
    split at inserted
    · rename_i greater
      obtain ⟨tail, inner, rfl⟩ := Option.map_eq_some_iff.mp inserted
      refine List.pairwise_cons.mpr ⟨fun b member => ?_, ih rest inner⟩
      rcases List.mem_cons.mp ((insert_perm inner).mem_iff.mp member) with rfl | member
      · exact (lawful.pos_iff _ _).mp greater
      · exact first b member
    · split at inserted
      · cases inserted
      · rename_i notGreater different
        cases inserted
        have less : cmp (key item) (key e) < 0 := by omega
        refine List.pairwise_cons.mpr ⟨fun b member => ?_, sorted⟩
        rcases List.mem_cons.mp member with rfl | member
        · exact less
        · exact lawful.trans _ _ _ less (first b member)

omit [DecidableEq κ] in
/-- In an ordered list the walk finds a present key before it can stop. -/
theorem insert_eq_none (sorted : Sorted cmp key l) :
    insert cmp key item l = none ↔ key item ∈ l.map key := by
  induction l with
  | nil => simp [insert]
  | cons e l ih =>
    obtain ⟨first, rest⟩ := List.pairwise_cons.mp sorted
    simp only [insert, List.map_cons, List.mem_cons]
    split
    · rename_i greater
      have different : key item ≠ key e := fun same => lawful.irrefl _
        (same ▸ (lawful.pos_iff _ _).mp greater)
      simp [ih rest, different]
    · split
      · rename_i equal
        simp [(lawful.eq_zero_iff _ _).mp equal]
      · rename_i notGreater different
        have less : cmp (key item) (key e) < 0 := by omega
        have absent : key item ∉ l.map key := by
          intro member
          obtain ⟨b, member, same⟩ := List.mem_map.mp member
          exact lawful.irrefl _ (lawful.trans _ _ _ less (same ▸ first b member))
        simpa [absent] using fun same => different ((lawful.eq_zero_iff _ _).mpr same)

/-- An inserted entry is found under its key, and hides no other. -/
theorem find_insert (sorted : Sorted cmp key l) (inserted : insert cmp key item l = some l') :
    find cmp key k l' = if key item = k then some item else find cmp key k l := by
  induction l generalizing l' with
  | nil =>
    obtain rfl : [item] = l' := by simpa [insert] using inserted
    rw [find_cons lawful]
  | cons e l ih =>
    obtain ⟨first, rest⟩ := List.pairwise_cons.mp sorted
    simp only [insert] at inserted
    split at inserted
    · rename_i greater
      obtain ⟨tail, inner, rfl⟩ := Option.map_eq_some_iff.mp inserted
      have different : key e ≠ key item := fun same => lawful.irrefl _
        (same ▸ (lawful.pos_iff _ _).mp greater)
      rw [find_cons lawful, ih rest inner, find_cons lawful]
      by_cases here : key e = k
      · simp [← here, Ne.symm different]
      · simp [here]
    · split at inserted
      · cases inserted
      · cases inserted
        rw [find_cons lawful]

omit [DecidableEq κ] lawful in
theorem erase_sublist : (erase cmp key k l).Sublist l := List.eraseP_sublist

omit [DecidableEq κ] lawful in
theorem Sorted.erase (sorted : Sorted cmp key l) : Sorted cmp key (erase cmp key k l) :=
  sorted.sublist erase_sublist

/-- Removal leaves no entry under its key, and every other entry in place. -/
theorem find_erase {k' : κ} (sorted : Sorted cmp key l) :
    find cmp key k (erase cmp key k' l) = if k' = k then none else find cmp key k l := by
  induction l with
  | nil => simp [KeyedList.erase, find]
  | cons e l ih =>
    obtain ⟨first, rest⟩ := List.pairwise_cons.mp sorted
    rw [erase_cons lawful]
    by_cases here : key e = k'
    · subst here
      by_cases same : key e = k
      · subst same
        have absent : key e ∉ l.map key := by
          intro member
          obtain ⟨b, member, same⟩ := List.mem_map.mp member
          exact lawful.irrefl _ (same ▸ first b member)
        simpa using (find_eq_none lawful).mpr absent
      · simp [find_cons lawful, same]
    · rw [if_neg here, find_cons lawful, ih rest, find_cons lawful]
      by_cases same : key e = k
      · simp [← same, Ne.symm here]
      · simp [same]

/-- Removing a key that is present removes exactly its entry. -/
theorem erase_perm (found : find cmp key k l = some e) : l.Perm (e :: erase cmp key k l) := by
  induction l with
  | nil => simp [find] at found
  | cons a l ih =>
    rw [find_cons lawful] at found
    rw [erase_cons lawful]
    split at found
    · cases found
      rename_i here
      simp [here]
    · rename_i here
      rw [if_neg here]
      exact ((ih found).cons a).trans (.swap _ _ _)

omit [DecidableEq κ] in
/-- Between the smaller and the larger entries the walk stops. -/
theorem insert_between {before after : List β} (below : ∀ e ∈ before, cmp (key e) (key item) < 0)
    (above : ∀ e ∈ after, cmp (key item) (key e) < 0) :
    insert cmp key item (before ++ after) = some (before ++ item :: after) := by
  induction before with
  | nil =>
    cases after with
    | nil => rfl
    | cons e after =>
      have smaller := above e List.mem_cons_self
      have notGreater : ¬ 0 < cmp (key item) (key e) := by omega
      have different : cmp (key item) (key e) ≠ 0 := by omega
      simp [insert, notGreater, different]
  | cons e before ih =>
    have greater := (lawful.pos_iff _ _).mpr (below e List.mem_cons_self)
    simp [insert, greater, ih fun e member => below e (List.mem_cons_of_mem _ member)]

end Laws

end MsaBroker.KeyedList
