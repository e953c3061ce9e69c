import MsaBroker.Elem
import MsaBroker.Lib.LinkedList

/-! `libs/elem.c` once more, at the level of its pointers: nodes in the heap,
linked by `insque` and `remque`. `Elem` speaks about what follows the root of
such a list; here the root is a node too, and a callback can unlink and free the
node it is given while the list is being traversed. -/
namespace MsaBroker.ElemHeap
open CMemory LinkedList

variable {α σ : Type}

/-- `element_t` without its links; `none` where the pointer is `NULL`. -/
structure Cell (α : Type) where
  key : Option Bytes
  data : Option α

/-- The node `new_element(NULL, NULL, 0)` makes. -/
def Cell.root : Cell α := ⟨none, none⟩

/-- The node of an element that has a key and data. -/
def Cell.ofElement (e : Element α) : Cell α := ⟨some e.key, some e.data⟩

/-- `new_element`, where `calloc` returned this block. `strdup` and `malloc` are
taken to succeed. -/
def newElement (h : Heap (Cell α)) (e : Nat) (key : Option Bytes) (data : Option α) : Heap (Cell α) :=
  Function.update h e (some ⟨none, none, ⟨key, data⟩⟩)

/-- `list_element`, for as many iterations as there is `fuel`. `heap` is the part
of the callback's state where the nodes are. -/
def listElement (heap : σ → Heap (Cell α)) (cbfunc : Nat → σ → Option σ) (fuel list : Nat) (s : σ) : Option σ :=
  walk heap cbfunc fuel list s

/-- The loop of `add_element`: the node to insert after, or `none` where the key
is already there. -/
def addTarget (h : Heap (Cell α)) (item : Nat) : Nat → Nat → Nat → Option (Option Nat)
  | 0, _, _ => none
  | fuel + 1, target, traverse =>
    (h traverse).bind fun here =>
      -- `target = traverse`, and on to the next node
      let onward := match here.forward with
        | none => some (some traverse)
        | some forward => addTarget h item fuel traverse forward
      match here.val.key with
      | none => onward
      | some traverseKey => (h item).bind fun elem => elem.val.key.bind fun itemKey =>
        if strcmp itemKey traverseKey > 0 then onward
        else if strcmp itemKey traverseKey = 0 then some none
        else some (some target)

/-- `add_element`: what it returns, and the heap afterwards. -/
def addElement (h : Heap (Cell α)) (fuel root item : Nat) : Option (Int × Heap (Cell α)) :=
  (addTarget h item fuel root root).bind fun
    | none => some (-1, h)
    | some target => (insque h item target).map fun h => (0, h)

/-- `get_element`. -/
def getElement (h : Heap (Cell α)) (key : Bytes) : Nat → Nat → Option (Option Nat)
  | 0, _ => none
  | fuel + 1, traverse =>
    (h traverse).bind fun here =>
      if here.val.key.any fun traverseKey => strcmp traverseKey key = 0 then some (some traverse)
      else match here.forward with
        | none => some none
        | some forward => getElement h key fuel forward

/-- `rem_element`. -/
def remElement (h : Heap (Cell α)) (item : Nat) : Option (Heap (Cell α)) :=
  (remque h item).bind (free · item)

/-- `memcpy` over the data of an element. -/
def setData (h : Heap (Cell α)) (elem : Nat) (data : α) : Option (Heap (Cell α)) :=
  (h elem).bind fun node => node.val.data.map fun _ =>
    Function.update h elem (some { node with val := { node.val with data := some data } })

/-- The nodes of a list, its root first; `cell` is what the elements are stored
as. -/
def chain {β : Type} (cell : β → Cell α) (root : Nat) (l : List (Nat × β)) : List (Nat × Cell α) :=
  (root, .root) :: l.map fun node => (node.1, cell node.2)

/-- The nodes of a list whose elements all have data. -/
def cells (root : Nat) (l : List (Nat × Element α)) : List (Nat × Cell α) :=
  (root, .root) :: l.map fun node => (node.1, .ofElement node.2)

/-- The list of this root, laid out in the heap. -/
def Holds (h : Heap (Cell α)) (root : Nat) (l : List (Nat × Element α)) : Prop := Laid h (cells root l)

/-! ## One list in the heap -/

section Chain
variable {β : Type} {cell : β → Cell α} {h : Heap (Cell α)} {root a : Nat} {e : β} {l before after : List (Nat × β)}

@[simp] theorem addrs_chain : addrs (chain cell root l) = root :: l.map Prod.fst := by
  simp [chain, addrs, Function.comp_def]

theorem chain_split : chain cell root (before ++ (a, e) :: after) =
    chain cell root before ++ (a, cell e) :: after.map fun node => (node.1, cell node.2) := by
  simp [chain]

theorem chain_append :
    chain cell root (before ++ after) = chain cell root before ++ after.map fun node => (node.1, cell node.2) := by
  simp [chain]

@[simp] private theorem first_nodes : first (l.map fun node => (node.1, cell node.2)) = (l.map Prod.fst).head? := by
  simp [first, addrs, Function.comp_def]

/-- The root, read. -/
theorem chain_readRoot (laid : Laid h (chain cell root l)) :
    h root = some ⟨(l.map Prod.fst).head?, none, .root⟩ := by
  have here := Laid.read (show Laid h ([] ++ (root, .root) :: _) from laid)
  simpa [last] using here

/-- An element, read. -/
theorem chain_read (laid : Laid h (chain cell root (before ++ (a, e) :: after))) :
    ∃ prev, h a = some ⟨(after.map Prod.fst).head?, prev, cell e⟩ := by
  rw [chain_split] at laid
  exact ⟨_, by simpa using laid.read⟩

/-- `rem_element` on an element of the list: it is gone and freed, and no other
node but its neighbours' links changed. -/
theorem chain_remElement (laid : Laid h (chain cell root (before ++ (a, e) :: after))) :
    ∃ h', ElemHeap.remElement h a = some h' ∧ Laid h' (chain cell root (before ++ after)) ∧ h' a = none ∧
      ∀ x, x ≠ root → x ∉ (before ++ (a, e) :: after).map Prod.fst → h' x = h x := by
  have nodes : ∀ x, x ∈ addrs (chain cell root (before ++ (a, e) :: after)) ↔
      x = root ∨ x ∈ (before ++ (a, e) :: after).map Prod.fst := by simp
  rw [chain_split] at laid
  obtain ⟨h', removed, laid', freed, frame⟩ := laid.remque_free
  refine ⟨h', removed, ?_, freed, fun x notRoot outside => ?_⟩
  · rw [chain_append]
    exact laid'
  · apply frame
    rw [← chain_split, nodes]
    exact fun member => member.elim notRoot outside

/-- The traversal rule. The invariant speaks about the elements not visited yet;
it holds once the root is visited, places the next element in the heap, and is
kept by a visit of it. -/
theorem chain_rule {heap : σ → Heap (Cell α)} {cbfunc : Nat → σ → Option σ}
    (I : List (Nat × β) → σ → Prop) {s₀ s : σ} {fuel : Nat}
    (laid : Laid (heap s₀) (chain cell root l)) (atRoot : cbfunc root s₀ = some s) (start : I l s)
    (placed : ∀ a e rest s, I ((a, e) :: rest) s → ∃ prev,
      heap s a = some ⟨(rest.map Prod.fst).head?, prev, cell e⟩)
    (visits : ∀ a e rest s, I ((a, e) :: rest) s → ∃ s', cbfunc a s = some s' ∧ I rest s')
    (enough : l.length < fuel) : ∃ s', listElement heap cbfunc fuel root s₀ = some s' ∧ I [] s' := by
  -- the root is the one node before the elements
  let J : List (Nat × Cell α) → σ → Prop := fun nodes t =>
    (nodes = chain cell root l ∧ t = s₀) ∨ ∃ rest, nodes = rest.map (fun node => (node.1, cell node.2)) ∧ I rest t
  have placedJ : ∀ b w nodes t, J ((b, w) :: nodes) t → ∃ prev, heap t b = some ⟨first nodes, prev, w⟩ := by
    rintro b w nodes t (⟨isRoot, rfl⟩ | ⟨rest, isRest, inv⟩)
    · cases isRoot
      exact ⟨none, by rw [first_nodes]; exact chain_readRoot laid⟩
    · cases rest with
      | nil => cases isRest
      | cons node rest =>
        cases isRest
        rw [first_nodes]
        exact placed _ _ _ _ inv
  have visitsJ : ∀ b w nodes t, J ((b, w) :: nodes) t → ∃ t', cbfunc b t = some t' ∧ J nodes t' := by
    rintro b w nodes t (⟨isRoot, rfl⟩ | ⟨rest, isRest, inv⟩)
    · cases isRoot
      exact ⟨s, atRoot, .inr ⟨l, rfl, start⟩⟩
    · cases rest with
      | nil => cases isRest
      | cons node rest =>
        cases isRest
        obtain ⟨t', visited, inv'⟩ := visits _ _ _ _ inv
        exact ⟨t', visited, .inr ⟨rest, rfl, inv'⟩⟩
  have length_map : (l.map fun node => (node.1, cell node.2)).length < fuel := by simpa using enough
  obtain ⟨s', walked, done⟩ := walk_rule J placedJ visitsJ (.inl ⟨rfl, rfl⟩) length_map
  refine ⟨s', walked, ?_⟩
  rcases done with ⟨impossible, -⟩ | ⟨rest, none_left, inv⟩
  · cases impossible
  · obtain rfl : rest = [] := by simpa using none_left.symm
    exact inv

end Chain

/-! ## The two searches -/

section Search
variable {β : Type} {cell : β → Cell α} {name : β → Bytes} {h : Heap (Cell α)} {root item a t fuel : Nat} {e : β}
  {key : Bytes} {node : Node (Cell α)} {l before todo : List (Nat × β)}

/-- Keys increase along the list. -/
def Ordered (name : β → Bytes) (l : List (Nat × β)) : Prop := KeyedList.Sorted strcmp (fun n => name n.2) l

/-- One iteration of the loop of `add_element`, at an element. -/
private theorem addTarget_elem {forward prev : Option Nat} (keyed : ∀ b, (cell b).key = some (name b))
    (here : h a = some ⟨forward, prev, cell e⟩) (made : h item = some node) (isKey : node.val.key = some key) :
    addTarget h item (fuel + 1) t a =
      if strcmp key (name e) > 0 then
        forward.elim (some (some a)) fun forward => addTarget h item fuel a forward
      else if strcmp key (name e) = 0 then some none else some (some t) := by
  cases forward <;> simp [addTarget, here, keyed, made, isKey]

/-- Where the loop of `add_element` ends: at the key, or between the smaller and
the larger ones. -/
private inductive Position (name : β → Bytes) (key : Bytes) (t : Nat) (l : List (Nat × β)) : Option Nat → Prop
  | present (member : key ∈ l.map fun n => name n.2) : Position name key t l none
  | between {passed left : List (Nat × β)} (split : l = passed ++ left)
      (below : ∀ n ∈ passed, strcmp (name n.2) key < 0) (above : ∀ n ∈ left, strcmp key (name n.2) < 0) :
      Position name key t l (some ((passed.map Prod.fst).getLast?.getD t))

private theorem Position.nil : Position name key t [] (some t) := by
  have split : ([] : List (Nat × β)) = [] ++ [] := rfl
  exact .between split (fun _ member => nomatch member) fun _ member => nomatch member

/-- The loop goes no further than an element that is not smaller. -/
private theorem position_here (ordered : Ordered name ((a, e) :: todo)) (stop : ¬ strcmp key (name e) > 0) :
    Position name key t ((a, e) :: todo) (if strcmp key (name e) = 0 then none else some t) := by
  obtain ⟨below, -⟩ := List.pairwise_cons.mp ordered
  by_cases same : strcmp key (name e) = 0
  · rw [if_pos same]
    exact .present (by simp [(strcmp_eq_zero_iff _ _).mp same])
  · rw [if_neg same]
    have smaller : strcmp key (name e) < 0 := by omega
    refine .between (List.nil_append _).symm (by simp) ?_
    rintro n (_ | ⟨_, later⟩)
    · exact smaller
    · exact strcmp_trans _ _ _ smaller (below n later)

private theorem Position.cons {target : Option Nat} (smaller : strcmp (name e) key < 0)
    (position : Position name key a todo target) : Position name key t ((a, e) :: todo) target := by
  cases position with
  | present member => exact .present (List.mem_cons_of_mem _ member)
  | @between passed left split below above =>
    have last : (passed.map Prod.fst).getLast?.getD a = (((a, e) :: passed).map Prod.fst).getLast?.getD t := by
      simp [List.getLast?_cons]
    rw [last]
    refine .between (by simp [split]) ?_ above
    rintro n (_ | ⟨_, later⟩)
    · exact smaller
    · exact below n later

private theorem addTarget_todo (keyed : ∀ b, (cell b).key = some (name b))
    (laid : Laid h (chain cell root (before ++ (a, e) :: todo))) (ordered : Ordered name ((a, e) :: todo))
    (made : h item = some node) (isKey : node.val.key = some key) (enough : todo.length < fuel) :
    ∃ target, addTarget h item fuel t a = some target ∧ Position name key t ((a, e) :: todo) target := by
  induction fuel generalizing before a e todo t with
  | zero => simp at enough
  | succ fuel ih =>
    obtain ⟨prev, here⟩ := chain_read laid
    rw [addTarget_elem keyed here made isKey]
    by_cases larger : strcmp key (name e) > 0
    · rw [if_pos larger]
      have smaller := (strcmp_pos_iff _ _).mp larger
      cases todo with
      | nil => exact ⟨some a, rfl, Position.nil.cons smaller⟩
      | cons next todo =>
        obtain ⟨b, d⟩ := next
        have seam : before ++ (a, e) :: (b, d) :: todo = (before ++ [(a, e)]) ++ (b, d) :: todo := by simp
        obtain ⟨-, rest⟩ := List.pairwise_cons.mp ordered
        obtain ⟨target, found, position⟩ := ih (seam ▸ laid) rest (by simpa using enough)
        exact ⟨target, found, position.cons smaller⟩
    · rw [if_neg larger]
      refine ⟨_, ?_, position_here ordered larger⟩
      split <;> rfl

/-- The loop from the root. -/
private theorem addTarget_root (keyed : ∀ b, (cell b).key = some (name b)) (laid : Laid h (chain cell root l))
    (ordered : Ordered name l) (made : h item = some node) (isKey : node.val.key = some key)
    (enough : l.length < fuel) :
    ∃ target, addTarget h item fuel root root = some target ∧ Position name key root l target := by
  obtain ⟨fuel, rfl⟩ : ∃ n, fuel = n + 1 := ⟨fuel - 1, by omega⟩
  have here := chain_readRoot laid
  cases l with
  | nil => exact ⟨some root, by simp [addTarget, here, Cell.root], .nil⟩
  | cons first l =>
    obtain ⟨a, e⟩ := first
    have onward : addTarget h item (fuel + 1) root root = addTarget h item fuel root a := by
      simp [addTarget, here, Cell.root]
    rw [onward]
    have whole : Laid h (chain cell root ([] ++ (a, e) :: l)) := laid
    exact addTarget_todo keyed whole ordered made isKey (by simpa using enough)

/-- `add_element` of a node that is in no list: refused where the key is already
there, else linked in where the order has its place. -/
theorem chain_addElement {d : β} (keyed : ∀ b, (cell b).key = some (name b)) (laid : Laid h (chain cell root l))
    (ordered : Ordered name l) (alone : item ∉ root :: l.map Prod.fst) (made : h item = some node)
    (isItem : node.val = cell d) (enough : l.length < fuel) :
    (name d ∈ l.map (fun n => name n.2) ∧ addElement h fuel root item = some (-1, h)) ∨
      ∃ before after h', l = before ++ after ∧ (∀ n ∈ before, strcmp (name n.2) (name d) < 0) ∧
        (∀ n ∈ after, strcmp (name d) (name n.2) < 0) ∧ addElement h fuel root item = some (0, h') ∧
        Laid h' (chain cell root (before ++ (item, d) :: after)) ∧
        ∀ x, x ≠ item → x ≠ root → x ∉ l.map Prod.fst → h' x = h x := by
  have isKey : node.val.key = some (name d) := by rw [isItem, keyed]
  obtain ⟨target, found, position⟩ := addTarget_root keyed laid ordered made isKey enough
  cases position with
  | present member => exact .inl ⟨member, by simp [addElement, found]⟩
  | @between passed left split below above =>
    refine .inr ⟨passed, left, ?_⟩
    -- the node before the gap: the last one passed, or the root
    obtain ⟨front, w, ends⟩ : ∃ front w, chain cell root passed =
        front ++ [((passed.map Prod.fst).getLast?.getD root, w)] := by
      rcases List.eq_nil_or_concat passed with rfl | ⟨front, ⟨b, e⟩, rfl⟩
      · exact ⟨[], .root, rfl⟩
      · exact ⟨chain cell root front, cell e, by simp [chain]⟩
    have seam : chain cell root l = front ++ ((passed.map Prod.fst).getLast?.getD root, w) ::
        left.map fun node => (node.1, cell node.2) := by
      rw [split, chain_append, ends]
      simp
    have apart : item ∉ addrs (chain cell root l) := by simpa using alone
    obtain ⟨forward, backward, val⟩ := node
    rw [seam] at laid apart
    obtain ⟨h', linked, laid', frame⟩ := laid.insque apart made
    have added : addElement h fuel root item = some (0, h') := by
      simp only [addElement, found, Option.bind_some, linked, Option.map_some]
    refine ⟨h', split, below, above, added, ?_, fun x notItem notRoot outside => ?_⟩
    · rw [chain_split, ends, ← isItem]
      simpa using laid'
    · apply frame x notItem
      rw [← seam, addrs_chain, List.mem_cons, not_or]
      exact ⟨notRoot, outside⟩

private theorem getElement_todo (keyed : ∀ b, (cell b).key = some (name b))
    (laid : Laid h (chain cell root (before ++ (a, e) :: todo))) (enough : todo.length < fuel) :
    getElement h key fuel a =
      some ((KeyedList.find strcmp (fun n => name n.2) key ((a, e) :: todo)).map Prod.fst) := by
  induction fuel generalizing before a e todo with
  | zero => simp at enough
  | succ fuel ih =>
    obtain ⟨prev, here⟩ := chain_read laid
    by_cases same : strcmp (name e) key = 0
    · simp [getElement, here, keyed, KeyedList.find, same]
    · cases todo with
      | nil => simp [getElement, here, keyed, KeyedList.find, same]
      | cons next todo =>
        obtain ⟨b, d⟩ := next
        have seam : before ++ (a, e) :: (b, d) :: todo = (before ++ [(a, e)]) ++ (b, d) :: todo := by simp
        have rest := ih (seam ▸ laid) (by simpa using enough)
        simpa [getElement, here, keyed, KeyedList.find, same] using rest

/-- `get_element` is the first element under the key. -/
theorem chain_getElement (keyed : ∀ b, (cell b).key = some (name b)) (laid : Laid h (chain cell root l))
    (enough : l.length < fuel) : getElement h key fuel root =
      some ((KeyedList.find strcmp (fun n => name n.2) key l).map Prod.fst) := by
  obtain ⟨fuel, rfl⟩ : ∃ n, fuel = n + 1 := ⟨fuel - 1, by omega⟩
  have here := chain_readRoot laid
  cases l with
  | nil => simp [getElement, here, Cell.root, KeyedList.find]
  | cons first l =>
    obtain ⟨a, e⟩ := first
    have onward : getElement h key (fuel + 1) root = getElement h key fuel a := by
      simp [getElement, here, Cell.root]
    have whole : Laid h (chain cell root ([] ++ (a, e) :: l)) := laid
    rw [onward]
    exact getElement_todo keyed whole (by simpa using enough)

end Search

/-! ## A list whose elements all have data -/

variable {h : Heap (Cell α)} {root a : Nat} {e : Element α} {l before after : List (Nat × Element α)}

@[simp] theorem addrs_cells : addrs (cells root l) = root :: l.map Prod.fst := addrs_chain

theorem holds_iff : Holds h root l ↔ Laid h (chain Cell.ofElement root l) := Iff.rfl

/-- The root, read. -/
theorem Holds.readRoot (holds : Holds h root l) : h root = some ⟨(l.map Prod.fst).head?, none, .root⟩ :=
  chain_readRoot (holds_iff.mp holds)

/-- An element, read. -/
theorem Holds.read (holds : Holds h root (before ++ (a, e) :: after)) :
    ∃ prev, h a = some ⟨(after.map Prod.fst).head?, prev, .ofElement e⟩ :=
  chain_read (holds_iff.mp holds)

/-- `rem_element` on an element of the list: it is gone and freed, and no other
node but its neighbours' links changed. -/
theorem Holds.remElement (holds : Holds h root (before ++ (a, e) :: after)) :
    ∃ h', ElemHeap.remElement h a = some h' ∧ Holds h' root (before ++ after) ∧ h' a = none ∧
      ∀ x, x ≠ root → x ∉ (before ++ (a, e) :: after).map Prod.fst → h' x = h x :=
  chain_remElement (holds_iff.mp holds)

/-- Overwriting the data of an element of the list. -/
theorem Holds.setData (holds : Holds h root (before ++ (a, e) :: after)) (data : α) :
    ∃ h', ElemHeap.setData h a data = some h' ∧ Holds h' root (before ++ (a, { e with data := data }) :: after) ∧
      ∀ x, x ≠ a → h' x = h x := by
  have laid : Laid h (cells root before ++ (a, .ofElement e) :: after.map fun node => (node.1, .ofElement node.2)) :=
    chain_split ▸ holds
  have written := laid.write (.ofElement { e with data := data })
  have seam : cells root (before ++ (a, { e with data := data }) :: after) = cells root before ++
      (a, .ofElement { e with data := data }) :: after.map fun node => (node.1, .ofElement node.2) := by simp [cells]
  rw [← seam] at written
  refine ⟨_, ?_, written, fun x other => Function.update_of_ne other _ _⟩
  rw [ElemHeap.setData, laid.read]
  rfl

/-- A block made elsewhere. -/
theorem Holds.newElement {item : Nat} (holds : Holds h root l) (alone : item ∉ root :: l.map Prod.fst)
    (key : Option Bytes) (data : Option α) : Holds (ElemHeap.newElement h item key data) root l := by
  refine ⟨holds.linked.frame fun x member => Function.update_of_ne (fun same => alone ?_) _ _, holds.nodup⟩
  rwa [addrs_cells, same] at member

/-- `get_element` on such a list: the first element under the key, or nothing. -/
theorem Holds.getElement {fuel : Nat} (holds : Holds h root l) (enough : l.length < fuel) (key : Bytes) :
    (MsaBroker.getElement key (l.map Prod.snd) = none ∧ ElemHeap.getElement h key fuel root = some none) ∨
      ∃ before a e after, l = before ++ (a, e) :: after ∧ strcmp e.key key = 0 ∧
        (∀ n ∈ before, strcmp n.2.key key ≠ 0) ∧ MsaBroker.getElement key (l.map Prod.snd) = some e ∧
        ElemHeap.getElement h key fuel root = some (some a) := by
  have ran : ElemHeap.getElement h key fuel root = some ((KeyedList.find strcmp (fun n => n.2.key) key l).map Prod.fst) :=
    chain_getElement (fun _ => rfl) (holds_iff.mp holds) enough
  have same : MsaBroker.getElement key (l.map Prod.snd) =
      (KeyedList.find strcmp (fun n : Nat × Element α => n.2.key) key l).map Prod.snd := by
    rw [getElement_eq_find, KeyedList.find, KeyedList.find, List.find?_map]
    rfl
  rw [ran, same]
  cases found : KeyedList.find strcmp (fun n : Nat × Element α => n.2.key) key l with
  | none => exact .inl ⟨rfl, rfl⟩
  | some n =>
    obtain ⟨here, front, back, split, passed⟩ := List.find?_eq_some_iff_append.mp found
    exact .inr ⟨front, n.1, n.2, back, split, by simpa using here, by simpa using passed, rfl, rfl⟩

/-- `add_element` on such a list is `addElement` on its elements. -/
theorem Holds.addElement {fuel item : Nat} {node : Node (Cell α)} (holds : Holds h root l)
    (sorted : ElemSorted (l.map Prod.snd)) (alone : item ∉ root :: l.map Prod.fst) (made : h item = some node)
    (isItem : node.val = .ofElement e) (enough : l.length < fuel) :
    (MsaBroker.addElement e (l.map Prod.snd) = none ∧ ElemHeap.addElement h fuel root item = some (-1, h)) ∨
      ∃ before after h', l = before ++ after ∧
        MsaBroker.addElement e (l.map Prod.snd) = some ((before ++ (item, e) :: after).map Prod.snd) ∧
        ElemHeap.addElement h fuel root item = some (0, h') ∧ Holds h' root (before ++ (item, e) :: after) ∧
        ∀ x, x ≠ item → x ≠ root → x ∉ l.map Prod.fst → h' x = h x := by
  have ordered : Ordered Element.key l := List.pairwise_map.mp sorted
  rcases chain_addElement (fun _ => rfl) (holds_iff.mp holds) ordered alone made isItem enough with
    ⟨present, refused⟩ | ⟨before, after, h', split, below, above, added, laid', frame⟩
  · exact .inl ⟨(addElement_eq_none sorted).mpr (by simpa using present), refused⟩
  · refine .inr ⟨before, after, h', split, ?_, added, laid', frame⟩
    rw [addElement_eq_insert, split, List.map_append, List.map_append, List.map_cons]
    exact KeyedList.insert_between strcmp_lawful (by simpa using fun e n member => below (n, e) member)
      (by simpa using fun e n member => above (n, e) member)

/-- The traversal rule. -/
theorem listElement_rule {heap : σ → Heap (Cell α)} {cbfunc : Nat → σ → Option σ}
    (I : List (Nat × Element α) → σ → Prop) {s₀ s : σ} {fuel : Nat}
    (holds : Holds (heap s₀) root l) (atRoot : cbfunc root s₀ = some s) (start : I l s)
    (placed : ∀ a e rest s, I ((a, e) :: rest) s → ∃ prev,
      heap s a = some ⟨(rest.map Prod.fst).head?, prev, .ofElement e⟩)
    (visits : ∀ a e rest s, I ((a, e) :: rest) s → ∃ s', cbfunc a s = some s' ∧ I rest s')
    (enough : l.length < fuel) : ∃ s', listElement heap cbfunc fuel root s₀ = some s' ∧ I [] s' :=
  chain_rule I (holds_iff.mp holds) atRoot start placed visits enough

end MsaBroker.ElemHeap
