import MsaBroker.Lib.SortedMap
import MsaBroker.Sweep

/-! What the element list is for: a finite map from keys to elements, walked in
the order of its keys. Any sequence of calls within the contract of `elem.c` is
answered as such a map answers it, and at any time the nodes in memory are the
list that the map prescribes. -/
namespace MsaBroker.ElemRefinement
open CMemory ElemHeap LinkedList

variable {α : Type}

/-! ## The calls -/

/-- A callback with its argument; somewhere in its state is the heap. -/
structure Callback (α : Type) where
  Cbarg : Type
  heap : Cbarg → Heap (Cell α)
  /-- The argument it is given, in this heap. -/
  cbarg : Heap (Cell α) → Cbarg
  cbfunc : Nat → Cbarg → Option Cbarg
  heap_cbarg : ∀ h, heap (cbarg h) = h

inductive Op (α : Type)
  /-- `calloc` returns this block, or `NULL`. -/
  | newElement (calloc : Option Nat) (key : Option Bytes) (data : Option α)
  | addElement (item : Nat)
  | getElement (key : Bytes)
  | remElement (item : Nat)
  | listElement (cb : Callback α)

/-- A call of a callback: the element it was given, and whether it removed it. -/
structure Call where
  elem : Nat
  removed : Bool

/-- What a caller sees of a call. -/
inductive Ret
  | element (e : Option Nat)
  | status (ret : Int)
  | done
  | called (calls : List Call)

structure State (α : Type) where
  heap : Heap (Cell α)
  /-- The calls made so far. There are never as many elements, so a loop over
  them is given that many iterations. -/
  calls : Nat

/-- `cbfunc`, with a record of its calls that nothing reads. -/
def Callback.logged (cb : Callback α) (elem : Nat) (t : cb.Cbarg × List Call) : Option (cb.Cbarg × List Call) :=
  (cb.cbfunc elem t.1).map fun arg => (arg, t.2 ++ [⟨elem, (cb.heap arg elem).isNone⟩])

/-- One call; no result where the code would follow a stray pointer or not come
to an end. -/
def step (root : Nat) (s : State α) : Op α → Option (State α × List Ret)
  | .newElement none _ _ => some (⟨s.heap, s.calls + 1⟩, [.element none])
  | .newElement (some e) key data =>
    some (⟨ElemHeap.newElement s.heap e key data, s.calls + 1⟩, [.element (some e)])
  | .addElement item => (ElemHeap.addElement s.heap s.calls root item).map fun (ret, heap) =>
      (⟨heap, s.calls + 1⟩, [.status ret])
  | .getElement key => (ElemHeap.getElement s.heap key s.calls root).map fun found =>
      (⟨s.heap, s.calls + 1⟩, [.element found])
  | .remElement item => (ElemHeap.remElement s.heap item).map fun heap => (⟨heap, s.calls + 1⟩, [.done])
  | .listElement cb =>
    (ElemHeap.listElement (fun t => cb.heap t.1) cb.logged s.calls root (cb.cbarg s.heap, [])).map fun t =>
      (⟨cb.heap t.1, s.calls + 1⟩, [.called t.2])

/-- The calls that follow `root = new_element(NULL, NULL, 0)`, in memory where
`before` is already in use. -/
def machine (before : Heap (Cell α)) (root : Nat) : Machine (State α) (Op α) Ret :=
  ⟨⟨ElemHeap.newElement before root none none, 1⟩, step root⟩

/-! ## The contract -/

/-- The node of an element that has a key. -/
def cell (e : Element (Option α)) : Cell α := ⟨some e.key, e.data⟩

theorem cell_injective : Function.Injective (cell (α := α)) := by
  rintro ⟨key, data⟩ ⟨key', data'⟩ same
  obtain ⟨sameKey, sameData⟩ := Cell.mk.inj same
  obtain rfl : key = key' := Option.some.inj sameKey
  obtain rfl : data = data' := sameData
  rfl

/-- The forward links lead from the root to this element. -/
def Listed (h : Heap (Cell α)) (root item : Nat) : Prop := Relation.TransGen (Follows h) root item

/-- On a list of fewer elements than `bound`, the callback returns and has left
the heap alone, or has removed the element it was given; the root it leaves. -/
def Callback.MayRemove (cb : Callback α) (root bound : Nat) : Prop :=
  ∀ (l : List (Nat × Element (Option α))) (arg : cb.Cbarg) (elem : Nat),
    Laid (cb.heap arg) (chain cell root l) → l.length < bound → elem ∈ root :: l.map Prod.fst →
    ∃ arg', cb.cbfunc elem arg = some arg' ∧
      (cb.heap arg' = cb.heap arg ∨
        elem ≠ root ∧ ElemHeap.remElement (cb.heap arg) elem = some (cb.heap arg'))

/-- What the library is promised about a call. -/
def Contract (before : Heap (Cell α)) (root : Nat) (s : State α) : Op α → Prop
  | .newElement none _ _ => True
  /- `calloc` returns a block that is not in use -/
  | .newElement (some e) _ _ => s.heap e = none
  /- an element made before, with a key, and not in the list -/
  | .addElement item => before item = none ∧ item ≠ root ∧ ¬ Listed s.heap root item ∧
      ∃ node, s.heap item = some node ∧ node.val.key ≠ none
  | .getElement _ => True
  | .remElement item => Listed s.heap root item
  | .listElement cb => cb.MayRemove root s.calls

/-! ## The map -/

/-- The listed elements by their keys, and the elements made and not listed. -/
structure ElemMap (α : Type) where
  listed : SortedMap strcmp fun n : Nat × Element (Option α) => n.2.key
  loose : Nat → Option (Cell α)

namespace ElemMap

/-- The elements listed, in key order. -/
def elems (m : ElemMap α) : List Nat := m.listed.entries.map Prod.fst

/-- What a call returns and does, said about the map alone. -/
inductive Effect (root : Nat) (m : ElemMap α) : Op α → Ret → ElemMap α → Prop
  | noMemory {key : Option Bytes} {data : Option α} :
      Effect root m (.newElement none key data) (.element none) m
  | newElement {e : Nat} {key : Option Bytes} {data : Option α} :
      Effect root m (.newElement (some e) key data) (.element (some e))
        ⟨m.listed, Function.update m.loose e (some ⟨key, data⟩)⟩
  | refused {item : Nat} {e : Element (Option α)} {other : Nat × Element (Option α)}
      (made : m.loose item = some (cell e)) (present : m.listed.find e.key = some other) :
      Effect root m (.addElement item) (.status (-1)) m
  | addElement {item : Nat} {e : Element (Option α)} {listed : SortedMap strcmp fun n => n.2.key}
      (made : m.loose item = some (cell e)) (absent : m.listed.find e.key = none)
      (updated : listed.find = Function.update m.listed.find e.key (some (item, e))) :
      Effect root m (.addElement item) (.status 0) ⟨listed, Function.update m.loose item none⟩
  | getElement {key : Bytes} :
      Effect root m (.getElement key) (.element ((m.listed.find key).map Prod.fst)) m
  | remElement {item : Nat} {e : Element (Option α)} {listed : SortedMap strcmp fun n => n.2.key}
      (present : m.listed.find e.key = some (item, e))
      (updated : listed.find = Function.update m.listed.find e.key none) :
      Effect root m (.remElement item) .done ⟨listed, m.loose⟩
  | listElement {cb : Callback α} {listed : SortedMap strcmp fun n => n.2.key} (removed : Nat → Bool)
      (updated : ∀ key, listed.find key = (m.listed.find key).filter fun n => !removed n.1) :
      Effect root m (.listElement cb) (.called (⟨root, false⟩ :: m.elems.map fun e => ⟨e, removed e⟩))
        ⟨listed, m.loose⟩

/-- The map after these calls that returned this, from nothing listed and nothing
made. -/
inductive Runs (root : Nat) : List (Op α) → List Ret → ElemMap α → Prop
  | start : Runs root [] [] ⟨.empty, fun _ => none⟩
  | call {ops : List (Op α)} {rets : List Ret} {m m' : ElemMap α} {op : Op α} {ret : Ret}
      (run : Runs root ops rets m) (effect : m.Effect root op ret m') :
      Runs root (ops ++ [op]) (rets ++ [ret]) m'

end ElemMap

/-! ## The map in memory -/

/-- The nodes are the list the map prescribes, the elements not listed, and what
was there before. -/
structure Represents (before : Heap (Cell α)) (root : Nat) (s : State α) (m : ElemMap α) : Prop where
  laid : Laid s.heap (chain cell root m.listed.entries)
  apart : ∀ x ∈ root :: m.elems, before x = none ∧ m.loose x = none
  others : ∀ x, x ∉ root :: m.elems → s.heap x = ((m.loose x).map fun cell => ⟨none, none, cell⟩).or (before x)
  enough : m.listed.entries.length < s.calls

variable {before : Heap (Cell α)} {root x item : Nat} {s t : State α} {m m' : ElemMap α} {cb : Callback α}

@[simp] theorem addrs_listed : addrs (chain cell root m.listed.entries) = root :: m.elems := addrs_chain

/-- No node of the heap is left open. -/
theorem Represents.heap_eq (one : Represents before root s m) (two : Represents before root t m) :
    s.heap = t.heap := by
  funext x
  by_cases member : x ∈ root :: m.elems
  · rw [← addrs_listed] at member
    obtain ⟨⟨a, v⟩, inList, rfl⟩ := List.mem_map.mp member
    obtain ⟨front, back, split⟩ := List.append_of_mem inList
    have first := one.laid
    have second := two.laid
    rw [split] at first second
    rw [first.read, second.read]
  · rw [one.others x member, two.others x member]

theorem Represents.listed_iff (rep : Represents before root s m) : Listed s.heap root x ↔ x ∈ m.elems := by
  have nodes : addrs (m.listed.entries.map fun n => (n.1, cell n.2)) = m.elems := by
    simp [ElemMap.elems, addrs, Function.comp_def]
  rw [Listed, ← nodes]
  exact rep.laid.linked.reaches

/-- The nodes of the list are allocated. -/
theorem Represents.allocated (rep : Represents before root s m) (member : x ∈ root :: m.elems) :
    s.heap x ≠ none := by
  rw [← addrs_listed] at member
  obtain ⟨⟨a, v⟩, inList, rfl⟩ := List.mem_map.mp member
  obtain ⟨front, back, split⟩ := List.append_of_mem inList
  have laid := rep.laid
  rw [split] at laid
  rw [laid.read]
  exact Option.some_ne_none _

theorem represents_start (free : before root = none) :
    Represents before root (machine before root).init ⟨.empty, fun _ => none⟩ where
  laid := ⟨⟨by simp [machine, ElemHeap.newElement, Cell.root], trivial⟩, List.nodup_singleton _⟩
  apart x member := by
    obtain rfl : x = root := by simpa [ElemMap.elems] using member
    exact ⟨free, rfl⟩
  others x outside := by
    have other : x ≠ root := by simpa [ElemMap.elems] using outside
    simp [machine, ElemHeap.newElement, other]
  enough := Nat.one_pos

/-! ## Each call -/

theorem Represents.newElement {e : Nat} {key : Option Bytes} {data : Option α} (rep : Represents before root s m)
    (free : s.heap e = none) :
    Represents before root ⟨ElemHeap.newElement s.heap e key data, s.calls + 1⟩
      ⟨m.listed, Function.update m.loose e (some ⟨key, data⟩)⟩ := by
  have outside : e ∉ root :: m.elems := fun member => rep.allocated member free
  have unused : before e = none := by
    have here := rep.others e outside
    rw [free, eq_comm, Option.or_eq_none_iff] at here
    exact here.2
  have still (x : Nat) (other : x ≠ e) : ElemHeap.newElement s.heap e key data x = s.heap x :=
    Function.update_of_ne other _ _
  constructor
  · refine ⟨rep.laid.linked.frame fun x member => still x fun same => outside ?_, rep.laid.nodup⟩
    rw [← same, ← addrs_listed]
    exact member
  · intro x member
    have other : x ≠ e := fun same => outside (same ▸ member)
    simpa [other] using rep.apart x member
  · intro x notThere
    by_cases same : x = e
    · subst same
      simp [ElemHeap.newElement]
    · simpa [still x same, same] using rep.others x notThere
  · exact Nat.lt_succ_of_lt rep.enough

/-- An element a caller may add: made, not listed, and with a key. -/
theorem Represents.loose_of_contract (rep : Represents before root s m)
    (contract : Contract before root s (.addElement item)) :
    before item = none ∧ item ∉ root :: m.elems ∧
      ∃ e, m.loose item = some (cell e) ∧ s.heap item = some ⟨none, none, cell e⟩ := by
  obtain ⟨unused, notRoot, unlisted, node, allocated, hasKey⟩ := contract
  have outside : item ∉ root :: m.elems := by
    rw [rep.listed_iff] at unlisted
    simp [notRoot, unlisted]
  have here := rep.others item outside
  rw [allocated, unused, Option.or_none, eq_comm, Option.map_eq_some_iff] at here
  obtain ⟨⟨key, data⟩, loose, rfl⟩ := here
  cases key with
  | none => exact absurd rfl hasKey
  | some key => exact ⟨unused, outside, ⟨key, data⟩, loose, allocated⟩

/-- One element among the others. -/
private theorem mem_addrs_middle {front back : List (Nat × Element (Option α))} {e : Element (Option α)} :
    x ∈ (front ++ (item, e) :: back).map Prod.fst ↔ x = item ∨ x ∈ (front ++ back).map Prod.fst := by
  rw [(List.perm_middle.map Prod.fst).mem_iff, List.map_cons, List.mem_cons]

theorem Represents.addElement (rep : Represents before root s m)
    (contract : Contract before root s (.addElement item)) :
    ∃ t ret m', step root s (.addElement item) = some (t, [ret]) ∧
      m.Effect root (.addElement item) ret m' ∧ Represents before root t m' := by
  obtain ⟨unused, outside, e, loose, made⟩ := rep.loose_of_contract contract
  rcases chain_addElement (fun _ => rfl) rep.laid m.listed.sorted outside made rfl rep.enough with
    ⟨present, refused⟩ | ⟨front, back, h', split, below, above, added, laid', frame⟩
  · refine ⟨⟨s.heap, s.calls + 1⟩, .status (-1), m, by simp [step, refused], ?_,
      ⟨rep.laid, rep.apart, rep.others, Nat.lt_succ_of_lt rep.enough⟩⟩
    cases found : m.listed.find e.key with
    | none => exact absurd present ((SortedMap.find_eq_none strcmp_lawful).mp found)
    | some other => exact .refused loose found
  · obtain ⟨listed, entries, updated⟩ := SortedMap.exists_inserted strcmp_lawful (item, e) split below above
    have absent : m.listed.find e.key = none := by
      rw [SortedMap.find_eq_none strcmp_lawful, split]
      intro member
      obtain ⟨n, inList, same⟩ := List.mem_map.mp member
      have equal := (strcmp_eq_zero_iff _ _).mpr same
      have equal' := (strcmp_eq_zero_iff _ _).mpr same.symm
      rcases List.mem_append.mp inList with inFront | inBack
      · have less := below n inFront
        omega
      · have more := above n inBack
        omega
    have elems : ∀ x, x ∈ listed.entries.map Prod.fst ↔ x = item ∨ x ∈ m.elems := by
      intro x
      rw [entries, ElemMap.elems, split]
      exact mem_addrs_middle
    refine ⟨⟨h', s.calls + 1⟩, .status 0, ⟨listed, Function.update m.loose item none⟩, by simp [step, added],
      .addElement loose absent updated, ?_, ?_, ?_, ?_⟩
    · rw [entries]
      exact laid'
    · intro x member
      by_cases same : x = item
      · subst same
        exact ⟨unused, Function.update_self _ _ _⟩
      · have earlier : x ∈ root :: m.elems := by
          simpa [ElemMap.elems, elems, same] using member
        simpa [same] using rep.apart x earlier
    · intro x notThere
      have parts : x ≠ root ∧ x ≠ item ∧ x ∉ m.elems := by
        simpa [ElemMap.elems, elems, not_or] using notThere
      obtain ⟨notRoot, notItem, notListed⟩ := parts
      have same := rep.others x (by simp [notRoot, notListed])
      simpa [notItem, frame x notItem notRoot notListed] using same
    · have size : listed.entries.length = m.listed.entries.length + 1 := by
        rw [entries, split]
        simp
        omega
      have enough := rep.enough
      simp only [size]
      omega

theorem Represents.remElement (rep : Represents before root s m) (listed : Listed s.heap root item) :
    ∃ t m', step root s (.remElement item) = some (t, [.done]) ∧ m.Effect root (.remElement item) .done m' ∧
      Represents before root t m' := by
  obtain ⟨⟨item, e⟩, inList, rfl⟩ := List.mem_map.mp (rep.listed_iff.mp listed)
  obtain ⟨front, back, split⟩ := List.append_of_mem inList
  have laid := rep.laid
  rw [split] at laid
  obtain ⟨h', removed, laid', freed, frame⟩ := chain_remElement laid
  obtain ⟨fewer, entries, updated⟩ := SortedMap.exists_erased strcmp_lawful split
  have elems : ∀ x, x ∈ m.elems ↔ x = item ∨ x ∈ fewer.entries.map Prod.fst := by
    intro x
    rw [entries, ElemMap.elems, split]
    exact mem_addrs_middle
  refine ⟨⟨h', s.calls + 1⟩, ⟨fewer, m.loose⟩, by simp [step, removed],
    .remElement ((SortedMap.find_eq_some strcmp_lawful).mpr ⟨inList, rfl⟩) updated, ?_, ?_, ?_, ?_⟩
  · rw [entries]
    exact laid'
  · intro x member
    apply rep.apart x
    rcases List.mem_cons.mp member with rfl | later
    · exact List.mem_cons_self
    · exact List.mem_cons_of_mem _ ((elems x).mpr (.inr later))
  · intro x notThere
    obtain ⟨notRoot, notFewer⟩ : x ≠ root ∧ x ∉ fewer.entries.map Prod.fst := by
      simpa only [ElemMap.elems, List.mem_cons, not_or] using notThere
    by_cases same : x = item
    · subst same
      obtain ⟨unused, notLoose⟩ := rep.apart x (List.mem_cons_of_mem _ ((elems x).mpr (.inl rfl)))
      simp [freed, unused, notLoose]
    · have outside : x ∉ m.elems := fun member => ((elems x).mp member).elim same notFewer
      have still : h' x = s.heap x := frame x notRoot (split ▸ outside)
      exact still.trans (rep.others x (by simp [notRoot, outside]))
  · have size : m.listed.entries.length = fewer.entries.length + 1 := by
      rw [entries, split]
      simp
      omega
    have enough := rep.enough
    simp only
    omega

/-! ## The traversal -/

/-- How far a traversal is: what it has passed, and what became of it. -/
structure Visited (cb : Callback α) (root : Nat) (h : Heap (Cell α)) (entries done todo : List (Nat × Element (Option α)))
    (removed : Nat → Bool) (t : cb.Cbarg × List Call) : Prop where
  split : entries = done ++ todo
  calls : t.2 = ⟨root, false⟩ :: done.map fun n => ⟨n.1, removed n.1⟩
  laid : Laid (cb.heap t.1) (chain cell root (done.filter (fun n => !removed n.1) ++ todo))
  freed : ∀ n ∈ done, removed n.1 = true → cb.heap t.1 n.1 = none
  frame : ∀ x, x ∉ root :: entries.map Prod.fst → cb.heap t.1 x = h x

/-- What the contract allows a callback to do with an element, in terms of the
list. -/
theorem Callback.MayRemove.visit {kept todo : List (Nat × Element (Option α))} {a bound : Nat}
    {e : Element (Option α)} {arg : cb.Cbarg} (may : cb.MayRemove root bound)
    (laid : Laid (cb.heap arg) (chain cell root (kept ++ (a, e) :: todo)))
    (short : (kept ++ (a, e) :: todo).length < bound) :
    ∃ arg' removed, cb.cbfunc a arg = some arg' ∧ (cb.heap arg' a).isNone = removed ∧
      Laid (cb.heap arg') (chain cell root (kept ++ (if removed then [] else [(a, e)]) ++ todo)) ∧
      ∀ x, x ≠ root → x ∉ (kept ++ (a, e) :: todo).map Prod.fst → cb.heap arg' x = cb.heap arg x := by
  obtain ⟨arg', ran, same | ⟨-, removed⟩⟩ := may _ arg a laid short (by simp)
  · obtain ⟨prev, here⟩ := chain_read laid
    refine ⟨arg', false, ran, by simp [same, here], ?_, fun x _ _ => by rw [same]⟩
    rw [same]
    simpa using laid
  · obtain ⟨h', removed', laid', freed, frame⟩ := chain_remElement laid
    obtain rfl : h' = cb.heap arg' := Option.some.inj (removed'.symm.trans removed)
    exact ⟨arg', true, ran, by simp [freed], by simpa using laid', frame⟩

/-- A call of the callback takes the traversal one element further. -/
theorem Visited.visit {h : Heap (Cell α)} {entries done todo : List (Nat × Element (Option α))}
    {removed : Nat → Bool} {t : cb.Cbarg × List Call} {a : Nat} {e : Element (Option α)} {bound : Nat}
    (visited : Visited cb root h entries done ((a, e) :: todo) removed t)
    (nodup : (root :: entries.map Prod.fst).Nodup) (may : cb.MayRemove root bound) (enough : entries.length < bound) :
    ∃ t' removed', cb.logged a t = some t' ∧ Visited cb root h entries (done ++ [(a, e)]) todo removed' t' := by
  obtain ⟨split, calls, laid, freed, frame⟩ := visited
  have short : (done.filter (fun n => !removed n.1) ++ (a, e) :: todo).length < bound := by
    have fewer := List.length_filter_le (fun n : Nat × Element (Option α) => !removed n.1) done
    have size := congrArg List.length split
    simp only [List.length_append, List.length_cons] at size ⊢
    omega
  obtain ⟨arg', gone, ran, isGone, laid', frame'⟩ := may.visit laid short
  -- what was decided before is not about this element
  obtain ⟨rootApart, apart⟩ := List.nodup_cons.mp nodup
  rw [split, List.map_append, List.map_cons, List.nodup_append, List.nodup_cons] at apart
  have earlier : ∀ n ∈ done, n.1 ≠ a := fun n member =>
    apart.2.2 n.1 (List.mem_map_of_mem member) a List.mem_cons_self
  have still : ∀ n ∈ done, Function.update removed a gone n.1 = removed n.1 := fun n member =>
    Function.update_of_ne (earlier n member) _ _
  refine ⟨(arg', t.2 ++ [⟨a, gone⟩]), Function.update removed a gone, by simp [Callback.logged, ran, isGone], ?_⟩
  constructor
  · simp [split]
  · have same : done.map (fun n => Call.mk n.1 (Function.update removed a gone n.1)) =
        done.map fun n => Call.mk n.1 (removed n.1) :=
      List.map_congr_left fun n member => by rw [still n member]
    simp [calls, same]
  · have same : done.filter (fun n => !Function.update removed a gone n.1) = done.filter fun n => !removed n.1 :=
      List.filter_congr fun n member => by rw [still n member]
    have last : [(a, e)].filter (fun n => !Function.update removed a gone n.1) = if gone then [] else [(a, e)] := by
      cases gone <;> simp
    rw [List.filter_append, same, last]
    exact laid'
  · intro n member isRemoved
    rcases List.mem_append.mp member with before | now
    · rw [still n before] at isRemoved
      have inEntries : n.1 ∈ entries.map Prod.fst := by
        rw [split, List.map_append]
        exact List.mem_append_left _ (List.mem_map_of_mem before)
      have notRoot : n.1 ≠ root := fun same => rootApart (same ▸ inEntries)
      have outside : n.1 ∉ (done.filter (fun n => !removed n.1) ++ (a, e) :: todo).map Prod.fst := by
        rw [List.map_append, List.mem_append, not_or]
        refine ⟨fun inKept => ?_, fun later => apart.2.2 n.1 (List.mem_map_of_mem before) n.1 later rfl⟩
        obtain ⟨other, kept, same⟩ := List.mem_map.mp inKept
        simp [same, isRemoved] at kept
      exact (frame' n.1 notRoot outside).trans (freed n before isRemoved)
    · obtain rfl := List.mem_singleton.mp now
      rw [Function.update_self] at isRemoved
      exact Option.isNone_iff_eq_none.mp (isGone.trans isRemoved)
  · intro x outside
    obtain ⟨notRoot, notListed⟩ : x ≠ root ∧ x ∉ entries.map Prod.fst := by
      simpa only [List.mem_cons, not_or] using outside
    refine (frame' x notRoot fun inside => notListed ?_).trans (frame x outside)
    rw [split, List.map_append]
    rw [List.map_append] at inside
    exact List.mem_append.mpr ((List.mem_append.mp inside).imp_left fun kept =>
      (List.filter_sublist.map Prod.fst).mem kept)

theorem Represents.listElement (rep : Represents before root s m) (may : cb.MayRemove root s.calls) :
    ∃ t ret m', step root s (.listElement cb) = some (t, [ret]) ∧ m.Effect root (.listElement cb) ret m' ∧
      Represents before root t m' := by
  have start : Laid (cb.heap (cb.cbarg s.heap)) (chain cell root m.listed.entries) := by
    rw [cb.heap_cbarg]
    exact rep.laid
  have nodup : (root :: m.listed.entries.map Prod.fst).Nodup := by simpa using rep.laid.nodup
  -- the root is given to the callback, and left
  obtain ⟨arg, atRoot, same⟩ : ∃ arg, cb.cbfunc root (cb.cbarg s.heap) = some arg ∧ cb.heap arg = s.heap := by
    obtain ⟨arg, ran, same | ⟨notRoot, -⟩⟩ := may _ _ root start rep.enough List.mem_cons_self
    · exact ⟨arg, ran, same.trans (cb.heap_cbarg _)⟩
    · exact absurd rfl notRoot
  have rootStays : cb.logged root (cb.cbarg s.heap, []) = some (arg, [⟨root, false⟩]) := by
    have here := chain_readRoot rep.laid
    simp [Callback.logged, atRoot, same, here]
  have visited : Visited cb root s.heap m.listed.entries [] m.listed.entries (fun _ => false) (arg, [⟨root, false⟩]) :=
    ⟨rfl, rfl, same ▸ rep.laid, by simp, fun x _ => by rw [same]⟩
  let Passed (todo : List (Nat × Element (Option α))) (t : cb.Cbarg × List Call) : Prop :=
    ∃ done removed, Visited cb root s.heap m.listed.entries done todo removed t
  have placed : ∀ a e todo t, Passed ((a, e) :: todo) t →
      ∃ prev, cb.heap t.1 a = some ⟨(todo.map Prod.fst).head?, prev, cell e⟩ := by
    rintro a e todo t ⟨done, removed, visited⟩
    exact chain_read visited.laid
  have visits : ∀ a e todo t, Passed ((a, e) :: todo) t → ∃ t', cb.logged a t = some t' ∧ Passed todo t' := by
    rintro a e todo t ⟨done, removed, visited⟩
    obtain ⟨t', removed', ran, visited'⟩ := visited.visit nodup may rep.enough
    exact ⟨t', ran, _, removed', visited'⟩
  have traversal : ∃ t, ElemHeap.listElement (fun t => cb.heap t.1) cb.logged s.calls root (cb.cbarg s.heap, []) =
      some t ∧ Passed [] t :=
    chain_rule Passed start rootStays ⟨[], fun _ => false, visited⟩ placed visits rep.enough
  obtain ⟨t, ran, done, removed, split, calls, laid, freed, frame⟩ := traversal
  rw [List.append_nil] at split laid
  rw [← split] at calls laid freed
  have fewer : ∀ x, x ∈ (m.listed.filter fun n => !removed n.1).entries.map Prod.fst → x ∈ m.elems :=
    fun x member => (List.filter_sublist.map Prod.fst).mem member
  refine ⟨⟨cb.heap t.1, s.calls + 1⟩, .called t.2, ⟨m.listed.filter fun n => !removed n.1, m.loose⟩,
    by simp [step, ran], ?_, laid, ?_, ?_, ?_⟩
  · have effect : m.Effect root (.listElement cb) _ ⟨m.listed.filter fun n => !removed n.1, m.loose⟩ :=
      .listElement removed fun key => SortedMap.find_filter strcmp_lawful _
    simpa [calls, ElemMap.elems, Function.comp_def] using effect
  · intro x member
    apply rep.apart x
    rcases List.mem_cons.mp member with rfl | later
    · exact List.mem_cons_self
    · exact List.mem_cons_of_mem _ (fewer x later)
  · intro x notThere
    obtain ⟨notRoot, notKept⟩ : x ≠ root ∧ x ∉ (m.listed.filter fun n => !removed n.1).entries.map Prod.fst := by
      simpa only [ElemMap.elems, List.mem_cons, not_or] using notThere
    by_cases listed : x ∈ m.elems
    · obtain ⟨n, inList, rfl⟩ := List.mem_map.mp listed
      have gone : removed n.1 = true := by
        by_contra stays
        apply notKept
        exact List.mem_map_of_mem (List.mem_filter.mpr ⟨inList, by simpa using stays⟩)
      obtain ⟨unused, notLoose⟩ := rep.apart n.1 (List.mem_cons_of_mem _ listed)
      simp [freed n inList gone, unused, notLoose]
    · have outside : x ∉ root :: m.elems := by simp [notRoot, listed]
      exact (frame x outside).trans (rep.others x outside)
  · have size := List.length_filter_le (fun n : Nat × Element (Option α) => !removed n.1) m.listed.entries
    exact Nat.lt_succ_of_lt (Nat.lt_of_le_of_lt size rep.enough)

/-! ## The callbacks of MGNT -/

/-- `check_svc_alive`, as `manage_appls` passes it. -/
def checkSvcAlive (reading : Nat → Int64) (applsLlist fuel : Nat) : Callback ApplsCtx where
  Cbarg := Sweep.State
  heap := Sweep.State.heap
  cbarg h := ⟨h, 0, [], []⟩
  cbfunc := Sweep.checkSvcAlive reading applsLlist fuel
  heap_cbarg _ := rfl

/-- `find_svc_exist`, as `handle_regi` and `check_svc_alive` pass it. -/
def findSvcExist (svcname : Bytes) : Callback ApplsCtx where
  Cbarg := Heap (Cell ApplsCtx) × Nat
  heap := Prod.fst
  cbarg h := (h, 0)
  cbfunc elem arg := (Sweep.findSvcExist arg.1 svcname elem arg.2).map fun find => (arg.1, find)
  heap_cbarg _ := rfl

section Mgnt
variable {h : Heap (Cell ApplsCtx)} {svcname : Bytes} {elem find fuel : Nat} {node : Node (Cell ApplsCtx)}
  {l : List (Nat × Element (Option ApplsCtx))}

/-- A node of the list: the root, or an element at some place. -/
private theorem chain_node (laid : Laid h (chain cell root l)) (member : elem ∈ root :: l.map Prod.fst) :
    ∃ node, h elem = some node ∧ (node.val.key ≠ none → elem ≠ root ∧
      ∃ front e back, l = front ++ (elem, e) :: back) := by
  rcases List.mem_cons.mp member with rfl | inList
  · exact ⟨_, chain_readRoot laid, fun hasKey => absurd rfl hasKey⟩
  · obtain ⟨⟨elem, e⟩, entry, rfl⟩ := List.mem_map.mp inList
    have apart := laid.nodup
    rw [addrs_chain, List.nodup_cons] at apart
    obtain ⟨front, back, split⟩ := List.append_of_mem entry
    obtain ⟨prev, here⟩ := chain_read (split ▸ laid)
    exact ⟨_, here, fun _ => ⟨fun same => apart.1 (same ▸ inList), front, e, back, split⟩⟩

private theorem findSvcExist_returns (svcname : Bytes) (find : Nat) (allocated : h elem = some node) :
    ∃ find', Sweep.findSvcExist h svcname elem find = some find' := by
  simp only [Sweep.findSvcExist, allocated, Option.bind_some]
  split <;> exact ⟨_, rfl⟩

theorem findSvcExist_mayRemove (svcname : Bytes) (root bound : Nat) : (findSvcExist svcname).MayRemove root bound := by
  rintro l ⟨h, find⟩ elem laid short member
  obtain ⟨node, allocated, -⟩ := chain_node laid member
  obtain ⟨find', ran⟩ := findSvcExist_returns svcname find allocated
  exact ⟨(h, find'), Option.map_eq_some_iff.mpr ⟨find', ran, rfl⟩, .inl rfl⟩

private theorem countSvc_returns (svcname : Bytes) (laid : Laid h (chain cell root l)) (enough : l.length < fuel) :
    ∃ find, Sweep.countSvc root fuel h svcname = some find := by
  unfold Sweep.countSvc
  split
  · obtain ⟨find, atRoot⟩ := findSvcExist_returns svcname 0 (chain_readRoot laid)
    have visits : ∀ a e todo find, (∃ done, l = done ++ (a, e) :: todo) →
        ∃ find', Sweep.findSvcExist h svcname a find = some find' ∧ ∃ done, l = done ++ todo := by
      rintro a e todo find ⟨done, split⟩
      obtain ⟨prev, here⟩ := chain_read (split ▸ laid)
      obtain ⟨find', ran⟩ := findSvcExist_returns svcname find here
      exact ⟨find', ran, done ++ [(a, e)], by simp [split]⟩
    have placed : ∀ a e todo (_ : Nat), (∃ done, l = done ++ (a, e) :: todo) →
        ∃ prev, h a = some ⟨(todo.map Prod.fst).head?, prev, cell e⟩ := by
      rintro a e todo - ⟨done, split⟩
      exact chain_read (split ▸ laid)
    have traversal : ∃ find, ElemHeap.listElement (fun _ => h) (Sweep.findSvcExist h svcname) fuel root 0 = some find ∧
        ∃ done, l = done ++ [] :=
      chain_rule (fun todo _ => ∃ done, l = done ++ todo) laid atRoot ⟨[], rfl⟩ placed visits enough
    obtain ⟨find, ran, -⟩ := traversal
    exact ⟨find, ran⟩
  · exact ⟨0, rfl⟩

theorem checkSvcAlive_mayRemove (reading : Nat → Int64) (root fuel : Nat) :
    (checkSvcAlive reading root fuel).MayRemove root fuel := by
  intro l s elem laid short member
  change Laid s.heap (chain cell root l) at laid
  obtain ⟨node, allocated, place⟩ := chain_node laid member
  simp only [checkSvcAlive, Sweep.checkSvcAlive, allocated, Option.bind_some]
  split
  · rename_i key applsCtx hasKey hasData
    split
    · obtain ⟨find, counted⟩ := countSvc_returns applsCtx.svcnameStr laid short
      obtain ⟨notRoot, front, e, back, split⟩ := place (by simp [hasKey])
      obtain ⟨h', removed, -⟩ := chain_remElement (split ▸ laid)
      rw [counted, Option.bind_some, removed]
      exact ⟨_, rfl, .inr ⟨notRoot, rfl⟩⟩
    · exact ⟨_, rfl, .inl rfl⟩
  · exact ⟨_, rfl, .inl rfl⟩

end Mgnt

/-! ## Any sequence of calls -/

/-- What the map says of the links. -/
structure Shape (h : Heap (Cell α)) (root : Nat) (m : ElemMap α) : Prop where
  /-- In this order and linked both ways: the root, and the elements by their
  keys. -/
  laid : Laid h (chain cell root m.listed.entries)
  /-- The forward links from the root lead to no other node, -/
  reached : ∀ x, Relation.ReflTransGen (Follows h) root x ↔ x ∈ root :: m.elems
  /-- and never back. -/
  acyclic : ∀ x ∈ root :: m.elems, ¬ Relation.TransGen (Follows h) x x
  inverse : ∀ x ∈ root :: m.elems, ∀ y ∈ root :: m.elems, Follows h x y ↔ Precedes h x y
  increasing : (m.listed.entries.map fun n => n.2.key).Pairwise fun k k' => strcmp k k' < 0

theorem Represents.shape (rep : Represents before root s m) : Shape s.heap root m where
  laid := rep.laid
  reached x := by
    rw [← addrs_listed]
    exact rep.laid.reaches
  acyclic x member := rep.laid.acyclic (by rwa [addrs_listed])
  inverse x here y there := rep.laid.follows_iff (by rwa [addrs_listed]) (by rwa [addrs_listed])
  increasing := List.pairwise_map.mpr m.listed.sorted

/-- Every call within the contract returns what the map says, and leaves memory
as the map it makes says. -/
theorem Represents.step {op : Op α} (rep : Represents before root s m) (contract : Contract before root s op) :
    ∃ t ret m', step root s op = some (t, [ret]) ∧ m.Effect root op ret m' ∧ Represents before root t m' := by
  have same : Represents before root ⟨s.heap, s.calls + 1⟩ m :=
    ⟨rep.laid, rep.apart, rep.others, Nat.lt_succ_of_lt rep.enough⟩
  cases op with
  | newElement calloc key data =>
    cases calloc with
    | none => exact ⟨_, _, m, rfl, .noMemory, same⟩
    | some e => exact ⟨_, _, _, rfl, .newElement, rep.newElement contract⟩
  | addElement item => exact rep.addElement contract
  | getElement key =>
    have found : ElemHeap.getElement s.heap key s.calls root = some ((m.listed.find key).map Prod.fst) :=
      chain_getElement (fun _ => rfl) rep.laid rep.enough
    exact ⟨⟨s.heap, s.calls + 1⟩, _, m, by simp [ElemRefinement.step, found], .getElement, same⟩
  | remElement item =>
    obtain ⟨t, m', ran, effect, rep'⟩ := rep.remElement contract
    exact ⟨t, .done, m', ran, effect, rep'⟩
  | listElement cb => exact rep.listElement contract

/-- **The element list is a finite map in key order.** Calls within the contract
come to an end and are answered as the map answers them; the map says all there
is to say about memory, and a refused `add_element` leaves it alone. -/
theorem element_list_refines_map {ops : List (Op α)} (free : before root = none)
    (keeps : (machine before root).Keeps (Contract before root) ops) :
    ∃ s rets m, (machine before root).Runs ops s rets ∧ ElemMap.Runs root ops rets m ∧
      Represents before root s m ∧ Shape s.heap root m ∧
      ∀ op, Contract before root s op → ∃ t ret m', step root s op = some (t, [ret]) ∧ m.Effect root op ret m' ∧
        Represents before root t m' ∧ Shape t.heap root m' ∧ (ret = .status (-1) → t.heap = s.heap) := by
  let Answered (ops : List (Op α)) (rets : List Ret) (s : State α) : Prop :=
    ∃ m, ElemMap.Runs root ops rets m ∧ Represents before root s m
  have calls : ∀ ops rets s op, Answered ops rets s → Contract before root s op →
      ∃ t out, ElemRefinement.step root s op = some (t, out) ∧ Answered (ops ++ [op]) (rets ++ out) t := by
    rintro ops rets s op ⟨m, mapRun, rep⟩ contract
    obtain ⟨t, ret, m', ran, effect, rep'⟩ := rep.step contract
    exact ⟨t, [ret], ran, m', .call mapRun effect, rep'⟩
  obtain ⟨s, rets, run, m, mapRun, rep⟩ := keeps.runs Answered ⟨_, .start, represents_start free⟩ calls
  refine ⟨s, rets, m, run, mapRun, rep, rep.shape, fun op contract => ?_⟩
  obtain ⟨t, ret, m', ran, effect, rep'⟩ := rep.step contract
  refine ⟨t, ret, m', ran, effect, rep', rep'.shape, ?_⟩
  rintro rfl
  cases effect with
  | refused made present => exact rep'.heap_eq rep

/-- `calls` counts the calls, that for the root included. -/
theorem runs_calls {ops : List (Op α)} {rets : List Ret} (run : (machine before root).Runs ops s rets) :
    s.calls = ops.length + 1 := by
  induction ops using List.reverseRecOn generalizing s rets with
  | nil =>
    obtain ⟨rfl, -⟩ := Machine.runs_nil_iff.mp run
    rfl
  | append_singleton ops op ih =>
    obtain ⟨s₁, rets₁, out, front, ran, -⟩ := Machine.runs_snoc_iff.mp run
    have counted : s.calls = s₁.calls + 1 := by
      cases op with
      | newElement calloc key data => cases calloc <;> cases ran <;> rfl
      | addElement item | getElement key | remElement item | listElement cb =>
        obtain ⟨result, -, same⟩ := Option.map_eq_some_iff.mp ran
        cases same
        rfl
    rw [counted, ih front, List.length_append, List.length_singleton]

/-- A record is made and listed, and a sweep comes by. -/
def recordCalls : List (Op ApplsCtx) :=
  [.newElement (some 1) (some (ascii "a")) (some (Mgnt.record "a" "x"))] ++ [.addElement 1] ++
    [.listElement (checkSvcAlive (fun _ => 11) 0 3)]

theorem recordCalls_keep : (machine (fun _ => none) 0).Keeps (Contract (fun _ => none) 0) recordCalls := by
  refine Machine.keeps_snoc.mpr ⟨Machine.keeps_snoc.mpr ⟨Machine.keeps_snoc.mpr ⟨Machine.keeps_nil, ?_⟩, ?_⟩, ?_⟩
  · intro s rets run
    obtain ⟨rfl, -⟩ := Machine.runs_nil_iff.mp run
    rfl
  · intro s rets run
    change (machine _ 0).Runs ([] ++ [_]) s rets at run
    obtain ⟨s₁, rets₁, out, start, ran, -⟩ := Machine.runs_snoc_iff.mp run
    obtain ⟨rfl, -⟩ := Machine.runs_nil_iff.mp start
    cases ran
    refine ⟨rfl, by decide, fun listed => ?_, ⟨none, none, ⟨some (ascii "a"), some (Mgnt.record "a" "x")⟩⟩, rfl,
      Option.some_ne_none _⟩
    obtain ⟨x, ⟨node, atRoot, next⟩, -⟩ := Relation.TransGen.head'_iff.mp listed
    cases atRoot
    cases next
  · intro s rets run
    have calls : s.calls = 3 := runs_calls run
    show Callback.MayRemove _ 0 s.calls
    rw [calls]
    exact checkSvcAlive_mayRemove _ 0 3

theorem element_list_refines_map_record : ∃ s rets m, (machine (fun _ => none) 0).Runs recordCalls s rets ∧
    ElemMap.Runs 0 recordCalls rets m ∧ Represents (fun _ => none) 0 s m ∧ Shape s.heap 0 m ∧
      ∀ op, Contract (fun _ => none) 0 s op → ∃ t ret m', step 0 s op = some (t, [ret]) ∧ m.Effect 0 op ret m' ∧
        Represents (fun _ => none) 0 t m' ∧ Shape t.heap 0 m' ∧ (ret = .status (-1) → t.heap = s.heap) :=
  element_list_refines_map rfl recordCalls_keep

/-! ## No choice of the map -/

/-- What a call returned leaves no choice of the map. -/
theorem Represents.effect_unique {op : Op α} {ret ret' : Ret} {m₁ m₂ : ElemMap α} (rep : Represents before root s m)
    (one : m.Effect root op ret m₁) (two : m.Effect root op ret' m₂) (answer : ret' = ret) : m₁ = m₂ := by
  cases one with
  | noMemory =>
    cases two
    rfl
  | newElement =>
    cases two
    rfl
  | refused made present =>
    cases two with
    | refused => rfl
    | addElement => cases answer
  | addElement made absent updated =>
    cases two with
    | refused => cases answer
    | addElement made' absent' updated' =>
      obtain rfl := cell_injective (Option.some.inj (made.symm.trans made'))
      rw [SortedMap.ext_find strcmp_lawful (congrFun (updated.trans updated'.symm))]
  | getElement =>
    cases two
    rfl
  | remElement present updated =>
    cases two with
    | remElement present' updated' =>
      have here := ((SortedMap.find_eq_some strcmp_lawful).mp present).1
      have here' := ((SortedMap.find_eq_some strcmp_lawful).mp present').1
      have nodup : (m.listed.entries.map Prod.fst).Nodup := by
        have apart := rep.laid.nodup
        rw [addrs_chain] at apart
        exact (List.nodup_cons.mp apart).2
      obtain ⟨-, rfl⟩ := Prod.mk.inj (List.inj_on_of_nodup_map nodup here here' rfl)
      rw [SortedMap.ext_find strcmp_lawful (congrFun (updated.trans updated'.symm))]
  | listElement removed updated =>
    cases two with
    | listElement removed' updated' =>
      obtain ⟨-, calls⟩ := List.cons.inj (Ret.called.inj answer)
      have same : ∀ e ∈ m.elems, removed e = removed' e := by
        intro e member
        have one := List.map_inj_left.mp calls e member
        exact (Call.mk.inj one).2.symm
      have finds : ∀ key, (m.listed.find key).filter (fun n => !removed n.1) =
          (m.listed.find key).filter fun n => !removed' n.1 := by
        intro key
        cases found : m.listed.find key with
        | none => rfl
        | some n =>
          have member := ((SortedMap.find_eq_some strcmp_lawful).mp found).1
          simp [Option.filter, same n.1 (List.mem_map_of_mem member)]
      rw [SortedMap.ext_find strcmp_lawful fun key => (updated key).trans ((finds key).trans (updated' key).symm)]

theorem ElemMap.Runs.snoc_inv {ops : List (Op α)} {rets : List Ret} {op : Op α} {ret : Ret}
    (run : ElemMap.Runs root (ops ++ [op]) (rets ++ [ret]) m') :
    ∃ m, ElemMap.Runs root ops rets m ∧ m.Effect root op ret m' := by
  generalize whole : ops ++ [op] = ops' at run
  generalize answers : rets ++ [ret] = rets' at run
  cases run with
  | start => simp at whole
  | call front effect =>
    obtain ⟨rfl, sameOp⟩ := List.append_inj' whole rfl
    obtain ⟨rfl, sameRet⟩ := List.append_inj' answers rfl
    cases sameOp
    cases sameRet
    exact ⟨_, front, effect⟩

/-- The calls and what they returned leave no choice of the map either. -/
theorem runs_map_unique {ops : List (Op α)} {rets : List Ret} {m₁ m₂ : ElemMap α} (free : before root = none)
    (keeps : (machine before root).Keeps (Contract before root) ops) (run : (machine before root).Runs ops s rets)
    (one : ElemMap.Runs root ops rets m₁) (two : ElemMap.Runs root ops rets m₂) : m₁ = m₂ := by
  let Only (ops : List (Op α)) (rets : List Ret) (s : State α) : Prop :=
    ∃ m, Represents before root s m ∧ ∀ n, ElemMap.Runs root ops rets n → n = m
  have start : Only [] [] (machine before root).init := by
    refine ⟨_, represents_start free, fun n run => ?_⟩
    generalize none : ([] : List (Op α)) = ops at run
    generalize silent : ([] : List Ret) = rets at run
    cases run with
    | start => rfl
    | call => simp at none
  have calls : ∀ ops rets s op, Only ops rets s → Contract before root s op →
      ∃ t out, ElemRefinement.step root s op = some (t, out) ∧ Only (ops ++ [op]) (rets ++ out) t := by
    rintro ops rets s op ⟨m, rep, only⟩ contract
    obtain ⟨t, ret, m', ran, effect, rep'⟩ := rep.step contract
    refine ⟨t, [ret], ran, m', rep', fun n mapRun => ?_⟩
    obtain ⟨m₀, front, effect'⟩ := mapRun.snoc_inv
    obtain rfl := only m₀ front
    exact rep.effect_unique effect' effect rfl
  obtain ⟨s', rets', run', m, -, only⟩ := keeps.runs Only start calls
  obtain ⟨rfl, rfl⟩ := Prod.mk.inj (Option.some.inj (run.symm.trans run'))
  exact (only m₁ one).trans (only m₂ two).symm

end MsaBroker.ElemRefinement
