import MsaBroker.Lib.CMemory
import MsaBroker.Lib.KeyedList

/-! `libs/elem.c`: the element list behind every table of the broker. The list
here is what follows the root node in forward order; the root, whose key is
`NULL`, is always there and never matches. Positions stand for the element
pointers: the element a lookup returns is the first one under its key. -/
namespace MsaBroker
open CMemory

/-- The sign of `strcmp` on two C strings. -/
def strcmp : Bytes → Bytes → Int
  | [], [] => 0
  | [], _ :: _ => -1
  | _ :: _, [] => 1
  | a :: s, b :: t => if a = b then strcmp s t else (a.toNat : Int) - b.toNat

structure Element (α : Type) where
  key : Bytes
  data : α
  deriving DecidableEq

variable {α : Type}

/-- `add_element`: `target` trails the traversal past every smaller key, and the
item goes in after it; `none` is the return value `-1`. -/
def addElement (item : Element α) : List (Element α) → Option (List (Element α))
  | [] => some [item]
  | traverse :: forward =>
    if strcmp item.key traverse.key > 0 then (addElement item forward).map (traverse :: ·)
    else if strcmp item.key traverse.key = 0 then none
    else some (item :: traverse :: forward)

/-- `get_element`: the first element under this key. -/
def getElement (key : Bytes) : List (Element α) → Option (Element α)
  | [] => none
  | traverse :: forward =>
    if strcmp traverse.key key = 0 then some traverse else getElement key forward

/-- `rem_element(get_element(list, key))`. -/
def remElement (key : Bytes) : List (Element α) → List (Element α)
  | [] => []
  | traverse :: forward =>
    if strcmp traverse.key key = 0 then forward else traverse :: remElement key forward

/-- `memcpy` over the data of `get_element(list, key)`; the key is not touched. -/
def setElement (key : Bytes) (data : α) : List (Element α) → List (Element α)
  | [] => []
  | traverse :: forward =>
    if strcmp traverse.key key = 0 then { traverse with data := data } :: forward
    else traverse :: setElement key data forward

/-! ## `strcmp` is a strict total order -/

theorem strcmp_eq_zero_iff (s t : Bytes) : strcmp s t = 0 ↔ s = t := by
  induction s generalizing t with
  | nil => cases t <;> simp [strcmp]
  | cons a s ih =>
    cases t with
    | nil => simp [strcmp]
    | cons b t =>
      simp only [strcmp, List.cons.injEq]
      split
      · rename_i same
        simp [ih, same]
      · rename_i different
        have apart : a.toNat ≠ b.toNat := fun same => different (UInt8.toNat_inj.mp same)
        simp only [different, false_and, iff_false]
        omega

theorem strcmp_pos_iff (s t : Bytes) : 0 < strcmp s t ↔ strcmp t s < 0 := by
  induction s generalizing t with
  | nil => cases t <;> simp [strcmp]
  | cons a s ih =>
    cases t with
    | nil => simp [strcmp]
    | cons b t =>
      simp only [strcmp]
      by_cases same : a = b
      · simp [same, ih]
      · simp only [same, Ne.symm same, ↓reduceIte]
        omega

theorem strcmp_trans (s t u : Bytes) (first : strcmp s t < 0) (second : strcmp t u < 0) :
    strcmp s u < 0 := by
  induction s generalizing t u with
  | nil =>
    cases u with
    | nil => cases t <;> simp [strcmp] at second
    | cons => simp [strcmp]
  | cons a s ih =>
    cases t with
    | nil => simp [strcmp] at first
    | cons b t =>
      cases u with
      | nil => simp [strcmp] at second
      | cons c u =>
        simp only [strcmp] at first second ⊢
        by_cases ab : a = b
        · by_cases bc : b = c
          · simp only [ab, bc, ↓reduceIte] at first second ⊢
            exact ih t u first second
          · simpa [ab, bc] using second
        · by_cases bc : b = c
          · subst bc
            simpa [ab] using first
          · have less : (a.toNat : Int) - b.toNat < 0 := by simpa [ab] using first
            have more : (b.toNat : Int) - c.toNat < 0 := by simpa [bc] using second
            have apart : a ≠ c := fun same => by subst same; omega
            simp only [apart, ↓reduceIte]
            omega

theorem strcmp_lawful : KeyedList.LawfulCompare strcmp :=
  ⟨strcmp_eq_zero_iff, strcmp_pos_iff, strcmp_trans⟩

/-! ## The list operations are those of an ordered keyed list -/

variable {key k : Bytes} {item e : Element α} {l l' : List (Element α)}

/-- The list is in strictly increasing `strcmp` order of its keys. -/
def ElemSorted (l : List (Element α)) : Prop := KeyedList.Sorted strcmp Element.key l

theorem addElement_eq_insert (item : Element α) (l : List (Element α)) :
    addElement item l = KeyedList.insert strcmp Element.key item l := by
  induction l with
  | nil => rfl
  | cons e l ih => simp only [addElement, KeyedList.insert, ih, gt_iff_lt]

theorem getElement_eq_find (key : Bytes) (l : List (Element α)) :
    getElement key l = KeyedList.find strcmp Element.key key l := by
  induction l with
  | nil => rfl
  | cons e l ih =>
    simp only [getElement, ih, KeyedList.find_cons strcmp_lawful, strcmp_eq_zero_iff]

theorem remElement_eq_erase (key : Bytes) (l : List (Element α)) :
    remElement key l = KeyedList.erase strcmp Element.key key l := by
  induction l with
  | nil => rfl
  | cons e l ih =>
    simp only [remElement, ih, KeyedList.erase_cons strcmp_lawful, strcmp_eq_zero_iff]

theorem getElement_eq_none : getElement key l = none ↔ key ∉ l.map Element.key := by
  rw [getElement_eq_find, KeyedList.find_eq_none strcmp_lawful]

theorem getElement_some (found : getElement key l = some e) : e ∈ l ∧ e.key = key :=
  KeyedList.find_some strcmp_lawful (getElement_eq_find key l ▸ found)

theorem getElement_of_mem (sorted : ElemSorted l) (member : e ∈ l) : getElement e.key l = some e := by
  rw [getElement_eq_find]
  exact KeyedList.Sorted.find_of_mem strcmp_lawful sorted member

/-- The element overwritten is the first one under the key. -/
theorem setElement_split {front back : List (Element α)} (data : α) (passed : ∀ e ∈ front, strcmp e.key key ≠ 0)
    (here : strcmp e.key key = 0) :
    setElement key data (front ++ e :: back) = front ++ { e with data := data } :: back := by
  induction front with
  | nil => simp [setElement, here]
  | cons other front ih =>
    have others := ih fun e member => passed e (List.mem_cons_of_mem _ member)
    simp [setElement, passed other List.mem_cons_self, others]

/-- The order is one of keys alone. -/
theorem ElemSorted.of_keys (sorted : ElemSorted l) (same : l'.map Element.key = l.map Element.key) :
    ElemSorted l' := by
  have keys : (l.map Element.key).Pairwise fun a b => strcmp a b < 0 := List.pairwise_map.mpr sorted
  rw [← same] at keys
  exact List.pairwise_map.mp keys

theorem ElemSorted.keys_nodup (sorted : ElemSorted l) : (l.map Element.key).Nodup :=
  KeyedList.Sorted.keys_nodup strcmp_lawful sorted

theorem addElement_perm (added : addElement item l = some l') : l'.Perm (item :: l) :=
  KeyedList.insert_perm (addElement_eq_insert item l ▸ added)

theorem addElement_sorted (sorted : ElemSorted l) (added : addElement item l = some l') : ElemSorted l' :=
  KeyedList.insert_sorted strcmp_lawful sorted (addElement_eq_insert item l ▸ added)

/-- `-1` exactly when the key is already in the list. -/
theorem addElement_eq_none (sorted : ElemSorted l) :
    addElement item l = none ↔ item.key ∈ l.map Element.key := by
  rw [addElement_eq_insert, KeyedList.insert_eq_none strcmp_lawful sorted]

theorem getElement_addElement (sorted : ElemSorted l) (added : addElement item l = some l') :
    getElement k l' = if item.key = k then some item else getElement k l := by
  rw [getElement_eq_find, getElement_eq_find]
  exact KeyedList.find_insert strcmp_lawful sorted (addElement_eq_insert item l ▸ added)

theorem remElement_sorted (sorted : ElemSorted l) : ElemSorted (remElement key l) := by
  rw [remElement_eq_erase]
  exact KeyedList.Sorted.erase sorted

theorem getElement_remElement (sorted : ElemSorted l) :
    getElement k (remElement key l) = if key = k then none else getElement k l := by
  rw [remElement_eq_erase, getElement_eq_find, getElement_eq_find]
  exact KeyedList.find_erase strcmp_lawful sorted

theorem remElement_perm (found : getElement key l = some e) : l.Perm (e :: remElement key l) := by
  rw [remElement_eq_erase]
  exact KeyedList.erase_perm strcmp_lawful (getElement_eq_find key l ▸ found)

end MsaBroker
