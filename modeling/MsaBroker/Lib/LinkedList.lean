import Mathlib.Data.List.Nodup
import Mathlib.Data.Option.Basic
import Mathlib.Logic.Function.Basic
import Mathlib.Logic.Relation
import Mathlib.Tactic.Common

/-! Doubly linked lists in a heap of nodes, as `insque` and `remque` of the C
library keep them. A pointer is an address or null; following one to a block
that is not allocated has no result. A list is laid out at given addresses with
given values, and unlinking a node is a change of its two neighbours. The walk
reads the successor of a node before it visits the node, so a visit may unlink
and free the node it is given; the rule for it carries an invariant over what is
left to visit. -/
namespace MsaBroker.LinkedList

variable {β σ : Type*}

structure Node (β : Type*) where
  forward : Option Nat
  backward : Option Nat
  val : β

/-- The blocks allocated. -/
abbrev Heap (β : Type*) := Nat → Option (Node β)

/-- `if (p != NULL) p->forward = next`. -/
def Heap.setForward (h : Heap β) : Option Nat → Option Nat → Option (Heap β)
  | none, _ => some h
  | some p, next => (h p).map fun node => Function.update h p (some { node with forward := next })

/-- `if (p != NULL) p->backward = prev`. -/
def Heap.setBackward (h : Heap β) : Option Nat → Option Nat → Option (Heap β)
  | none, _ => some h
  | some p, prev => (h p).map fun node => Function.update h p (some { node with backward := prev })

/-- `remque`: the neighbours of a node are linked to each other. -/
def remque (h : Heap β) (item : Nat) : Option (Heap β) :=
  (h item).bind fun node => (h.setBackward node.forward node.backward).bind fun h =>
    h.setForward node.backward node.forward

/-- `insque`: the item is linked in after the node `prev`. -/
def insque (h : Heap β) (item prev : Nat) : Option (Heap β) :=
  (h prev).bind fun node => (h.setForward (some prev) (some item)).bind fun h =>
    (h.setBackward node.forward (some item)).bind fun h => (h.setForward (some item) node.forward).bind fun h =>
      h.setBackward (some item) (some prev)

/-- `free`. -/
def free (h : Heap β) (item : Nat) : Option (Heap β) := (h item).map fun _ => Function.update h item none

/-- `do { next = now->forward; visit(now); now = next; } while (next != NULL)`,
for as many iterations as there is `fuel`. -/
def walk (heap : σ → Heap β) (visit : Nat → σ → Option σ) : Nat → Nat → σ → Option σ
  | 0, _, _ => none
  | fuel + 1, now, s =>
    (heap s now).bind fun node => (visit now s).bind fun s =>
      match node.forward with
      | none => some s
      | some next => walk heap visit fuel next s

/-! ## Layout -/

/-- The addresses of a laid out list. -/
def addrs (l : List (Nat × β)) : List Nat := l.map Prod.fst

/-- The address of the first node. -/
def first (l : List (Nat × β)) : Option Nat := (addrs l).head?

/-- The address of the last node. -/
def last (l : List (Nat × β)) : Option Nat := (addrs l).getLast?

/-- These nodes, by address and value, are linked both ways in this order, the
first of them back to `prev` and the last of them on to `next`. -/
def Linked (h : Heap β) : Option Nat → List (Nat × β) → Option Nat → Prop
  | _, [], _ => True
  | prev, (a, v) :: l, next => h a = some ⟨(first l).or next, prev, v⟩ ∧ Linked h (some a) l next

/-- The nodes are a list of their own: no node occurs twice, and nothing precedes
the first or follows the last. -/
structure Laid (h : Heap β) (l : List (Nat × β)) : Prop where
  linked : Linked h none l none
  nodup : (addrs l).Nodup

variable {h h' : Heap β} {prev next : Option Nat} {l before after : List (Nat × β)} {a : Nat} {v : β}

@[simp] theorem addrs_nil : addrs ([] : List (Nat × β)) = [] := rfl

@[simp] theorem addrs_cons : addrs ((a, v) :: l) = a :: addrs l := rfl

@[simp] theorem addrs_append : addrs (before ++ after) = addrs before ++ addrs after := List.map_append

@[simp] theorem first_nil : first ([] : List (Nat × β)) = none := rfl

@[simp] theorem first_cons : first ((a, v) :: l) = some a := rfl

@[simp] theorem first_append : first (before ++ after) = (first before).or (first after) := by
  simp [first, List.head?_append]

/-- A list is linked when both parts are, with the seam between them. -/
theorem linked_append : Linked h prev (before ++ after) next ↔
    Linked h prev before ((first after).or next) ∧ Linked h ((last before).or prev) after next := by
  induction before generalizing prev with
  | nil => simp [Linked, last]
  | cons node before ih =>
    obtain ⟨a, v⟩ := node
    have ends : (last ((a, v) :: before)).or prev = (last before).or (some a) := by
      simp only [last, addrs_cons, List.getLast?_cons]
      cases (addrs before).getLast? <;> rfl
    simp only [List.cons_append, Linked, ih, first_append, Option.or_assoc, ends, and_assoc]

/-- The links of a list are read from its own nodes alone. -/
theorem Linked.frame (linked : Linked h prev l next) (same : ∀ x ∈ addrs l, h' x = h x) :
    Linked h' prev l next := by
  induction l generalizing prev with
  | nil => trivial
  | cons node l ih =>
    obtain ⟨here, rest⟩ := linked
    exact ⟨(same _ List.mem_cons_self).trans here, ih rest fun x member => same x (List.mem_cons_of_mem _ member)⟩

/-- Turning the backward link of the first node. -/
theorem Linked.setBackward (linked : Linked h prev l next) (nodup : (addrs l).Nodup) (prev' : Option Nat) :
    ∃ h', h.setBackward (first l) prev' = some h' ∧ Linked h' prev' l next ∧ ∀ x ∉ addrs l, h' x = h x := by
  cases l with
  | nil => exact ⟨h, rfl, trivial, fun _ _ => rfl⟩
  | cons node l =>
    obtain ⟨a, v⟩ := node
    obtain ⟨here, rest⟩ := linked
    obtain ⟨alone, -⟩ := List.nodup_cons.mp nodup
    refine ⟨Function.update h a (some ⟨(first l).or next, prev', v⟩), ?_, ?_, ?_⟩
    · simp [Heap.setBackward, here]
    · refine ⟨by simp, rest.frame fun x member => ?_⟩
      have other : x ≠ a := fun same => alone (same ▸ member)
      simp [other]
    · intro x outside
      have other : x ≠ a := fun same => outside (by simp [same])
      simp [other]

/-- Turning the forward link of the last node. -/
theorem Linked.setForward (linked : Linked h none l next) (nodup : (addrs l).Nodup) (next' : Option Nat) :
    ∃ h', h.setForward (last l) next' = some h' ∧ Linked h' none l next' ∧ ∀ x ∉ addrs l, h' x = h x := by
  rcases List.eq_nil_or_concat l with rfl | ⟨front, ⟨a, v⟩, rfl⟩
  · exact ⟨h, rfl, trivial, fun _ _ => rfl⟩
  · simp only [List.concat_eq_append] at linked nodup ⊢
    obtain ⟨linked, here, -⟩ := linked_append.mp linked
    have alone : a ∉ addrs front := by
      intro member
      exact (List.nodup_append.mp (addrs_append ▸ nodup)).2.2 a member a (by simp) rfl
    refine ⟨Function.update h a (some ⟨next', last front, v⟩), ?_, ?_, ?_⟩
    · have ends : last (front ++ [(a, v)]) = some a := by simp [last]
      simp only [first_nil, Option.none_or, Option.or_none] at here
      simp [ends, Heap.setForward, here]
    · refine linked_append.mpr ⟨linked.frame fun x member => ?_, ?_, trivial⟩
      · have other : x ≠ a := fun same => alone (same ▸ member)
        simp [other]
      · simp
    · intro x outside
      have other : x ≠ a := fun same => outside (by simp [same])
      simp [other]

/-- A node of the list, read. -/
theorem Laid.read (laid : Laid h (before ++ (a, v) :: after)) :
    h a = some ⟨first after, last before, v⟩ := by
  have here := (linked_append.mp laid.linked).2.1
  simpa using here

theorem Laid.nodup_split (laid : Laid h (before ++ (a, v) :: after)) :
    (addrs before).Nodup ∧ (addrs after).Nodup ∧ (addrs (before ++ after)).Nodup ∧
      a ∉ addrs (before ++ after) ∧ (∀ x ∈ addrs before, x ∉ addrs after) := by
  have nodup := laid.nodup
  simp only [addrs_append, addrs_cons, List.nodup_middle, List.nodup_cons] at nodup ⊢
  obtain ⟨alone, rest⟩ := nodup
  obtain ⟨left, right, apart⟩ := List.nodup_append.mp rest
  exact ⟨left, right, rest, alone, fun x member other => apart x member x other rfl⟩

/-- Writing the value of a node leaves the links as they are. -/
theorem Laid.write (laid : Laid h (before ++ (a, v) :: after)) (w : β) :
    Laid (Function.update h a (some ⟨first after, last before, w⟩)) (before ++ (a, w) :: after) := by
  obtain ⟨-, -, -, alone, -⟩ := laid.nodup_split
  obtain ⟨linked, -, rest⟩ := linked_append.mp laid.linked
  have still : ∀ x ∈ addrs (before ++ after),
      Function.update h a (some ⟨first after, last before, w⟩) x = h x := by
    intro x member
    have other : x ≠ a := fun same => alone (same ▸ member)
    simp [other]
  constructor
  · refine linked_append.mpr ⟨linked.frame fun x member => still x (by simp [member]), by simp, ?_⟩
    exact rest.frame fun x member => still x (by simp [member])
  · simpa using laid.nodup

/-- `remque` takes a node out of its list. -/
theorem Laid.remque (laid : Laid h (before ++ (a, v) :: after)) :
    ∃ h', LinkedList.remque h a = some h' ∧ Laid h' (before ++ after) ∧
      ∀ x ∉ addrs (before ++ after), h' x = h x := by
  obtain ⟨left, right, nodup, alone, apart⟩ := laid.nodup_split
  have here := laid.read
  obtain ⟨linked, -, rest⟩ := linked_append.mp laid.linked
  obtain ⟨h₁, turned₁, rest₁, frame₁⟩ := rest.setBackward right (last before)
  have same₁ : ∀ x ∈ addrs before, h₁ x = h x := fun x member => frame₁ x (apart x member)
  have linked₁ := linked.frame same₁
  obtain ⟨h₂, turned₂, linked₂, frame₂⟩ := linked₁.setForward left (first after)
  have same₂ : ∀ x ∈ addrs after, h₂ x = h₁ x := fun x member => frame₂ x fun other => apart x other member
  have rest₂ := rest₁.frame same₂
  refine ⟨h₂, ?_, ⟨linked_append.mpr ⟨?_, ?_⟩, nodup⟩, ?_⟩
  · simp [LinkedList.remque, here, turned₁, turned₂]
  · simpa using linked₂
  · simpa using rest₂
  · intro x outside
    simp only [addrs_append, List.mem_append, not_or] at outside
    rw [frame₂ x outside.1, frame₁ x outside.2]

/-- What a node's owner does to be rid of it: unlink it, then free it. -/
theorem Laid.remque_free (laid : Laid h (before ++ (a, v) :: after)) :
    ∃ h', (LinkedList.remque h a).bind (free · a) = some h' ∧ Laid h' (before ++ after) ∧ h' a = none ∧
      ∀ x ∉ addrs (before ++ (a, v) :: after), h' x = h x := by
  obtain ⟨h₁, unlinked, laid₁, frame₁⟩ := laid.remque
  obtain ⟨-, -, -, alone, -⟩ := laid.nodup_split
  have still : h₁ a = some ⟨first after, last before, v⟩ := (frame₁ a alone).trans laid.read
  refine ⟨Function.update h₁ a none, ?_, ⟨laid₁.linked.frame fun x member => ?_, laid₁.nodup⟩, by simp, ?_⟩
  · simp [unlinked, free, still]
  · have other : x ≠ a := fun same => alone (same ▸ member)
    simp [other]
  · intro x outside
    simp only [addrs_append, addrs_cons, List.mem_append, List.mem_cons, not_or] at outside
    rw [Function.update_of_ne outside.2.1, frame₁ x (by simp [outside])]

/-- `insque` puts a node that is in no list right after one of this list. -/
theorem Laid.insque {t : Nat} {w : β} {forward backward : Option Nat} (laid : Laid h (before ++ (t, w) :: after))
    (alone : a ∉ addrs (before ++ (t, w) :: after)) (here : h a = some ⟨forward, backward, v⟩) :
    ∃ h', LinkedList.insque h a t = some h' ∧ Laid h' (before ++ (t, w) :: (a, v) :: after) ∧
      ∀ x, x ≠ a → x ∉ addrs (before ++ (t, w) :: after) → h' x = h x := by
  have target := laid.read
  have seam : before ++ (t, w) :: after = (before ++ [(t, w)]) ++ after := by simp
  have ends : last (before ++ [(t, w)]) = some t := by simp [last]
  rw [seam] at alone
  have nodup := laid.nodup
  rw [seam] at nodup
  have linked := laid.linked
  rw [seam, linked_append, ends] at linked
  obtain ⟨front, back⟩ := linked
  have whole : addrs ((before ++ [(t, w)]) ++ after) = addrs (before ++ [(t, w)]) ++ addrs after := addrs_append
  have outside := alone
  rw [whole, List.mem_append, not_or] at outside
  have parts := nodup
  rw [whole, List.nodup_append] at parts
  obtain ⟨left, right, apart⟩ := parts
  -- the four assignments: before the item, behind it, and the item's own links
  obtain ⟨h₁, turned₁, front₁, frame₁⟩ := front.setForward left (some a)
  have back₁ := back.frame fun x member => frame₁ x fun other => apart x other x member rfl
  obtain ⟨h₂, turned₂, back₂, frame₂⟩ := back₁.setBackward right (some a)
  have front₂ := front₁.frame fun x member => frame₂ x fun other => apart x member x other rfl
  have here₂ : h₂ a = some ⟨forward, backward, v⟩ := by rw [frame₂ a outside.2, frame₁ a outside.1, here]
  rw [ends] at turned₁
  refine ⟨Function.update h₂ a (some ⟨first after, some t, v⟩), ?_, ⟨?_, ?_⟩, ?_⟩
  · have turned₃ : h₂.setForward (some a) (first after) =
        some (Function.update h₂ a (some ⟨first after, backward, v⟩)) := by simp [Heap.setForward, here₂]
    have turned₄ : Heap.setBackward (Function.update h₂ a (some ⟨first after, backward, v⟩)) (some a) (some t) =
        some (Function.update h₂ a (some ⟨first after, some t, v⟩)) := by simp [Heap.setBackward]
    simp only [LinkedList.insque, target, Option.bind_some, turned₁, turned₂, turned₃, turned₄]
  · have still : ∀ x, x ≠ a → Function.update h₂ a (some ⟨first after, some t, v⟩) x = h₂ x :=
      fun x other => Function.update_of_ne other _ _
    have seam' : before ++ (t, w) :: (a, v) :: after = (before ++ [(t, w)]) ++ (a, v) :: after := by simp
    rw [seam', linked_append, ends]
    refine ⟨?_, by simp, ?_⟩
    · exact front₂.frame fun x member => still x fun same => outside.1 (same ▸ member)
    · exact back₂.frame fun x member => still x fun same => outside.2 (same ▸ member)
  · have seam' : before ++ (t, w) :: (a, v) :: after = (before ++ [(t, w)]) ++ (a, v) :: after := by simp
    rw [seam', addrs_append, addrs_cons, List.nodup_middle, List.nodup_cons, ← addrs_append]
    exact ⟨alone, nodup⟩
  · intro x other notThere
    rw [seam, addrs_append, List.mem_append, not_or] at notThere
    rw [Function.update_of_ne other, frame₂ x notThere.2, frame₁ x notThere.1]

/-! ## The links as relations -/

/-- The forward link of `x` is `y`. -/
def Follows (h : Heap β) (x y : Nat) : Prop := ∃ node, h x = some node ∧ node.forward = some y

/-- The backward link of `y` is `x`. -/
def Precedes (h : Heap β) (x y : Nat) : Prop := ∃ node, h y = some node ∧ node.backward = some x

variable {x y : Nat}

/-- What can be reached from the first node of a list that ends: the nodes after
it. -/
theorem Linked.reaches (linked : Linked h prev ((a, v) :: l) none) :
    Relation.TransGen (Follows h) a x ↔ x ∈ addrs l := by
  induction l generalizing prev a v with
  | nil =>
    refine iff_of_false (fun reaches => ?_) (by simp)
    obtain ⟨y, ⟨node, here, next⟩, -⟩ := Relation.TransGen.head'_iff.mp reaches
    rw [linked.1] at here
    cases here
    simp at next
  | cons node l ih =>
    obtain ⟨b, w⟩ := node
    obtain ⟨here, rest⟩ := linked
    have step (y : Nat) : Follows h a y ↔ y = b := by
      simp [Follows, here, eq_comm]
    rw [Relation.TransGen.head'_iff]
    simp only [step, exists_eq_left, Relation.reflTransGen_iff_eq_or_transGen, ih rest, addrs_cons, List.mem_cons]

theorem Laid.reaches (laid : Laid h ((a, v) :: l)) : Relation.ReflTransGen (Follows h) a x ↔ x ∈ addrs ((a, v) :: l) := by
  rw [Relation.reflTransGen_iff_eq_or_transGen, laid.linked.reaches, addrs_cons, List.mem_cons]

/-- No node of a list can be reached from itself. -/
theorem Laid.acyclic (laid : Laid h l) (member : x ∈ addrs l) : ¬ Relation.TransGen (Follows h) x x := by
  obtain ⟨⟨b, w⟩, inList, rfl⟩ := List.mem_map.mp member
  obtain ⟨before, after, rfl⟩ := List.append_of_mem inList
  have tail := (linked_append.mp laid.linked).2
  rw [tail.reaches]
  obtain ⟨-, -, -, alone, -⟩ := laid.nodup_split
  rw [addrs_append, List.mem_append, not_or] at alone
  exact alone.2

/-- Forward and backward links are each other's inverse. -/
theorem Laid.follows_iff (laid : Laid h l) (here : x ∈ addrs l) (there : y ∈ addrs l) :
    Follows h x y ↔ Precedes h x y := by
  constructor
  · rintro ⟨node, read, next⟩
    obtain ⟨⟨b, w⟩, inList, rfl⟩ := List.mem_map.mp here
    obtain ⟨before, after, rfl⟩ := List.append_of_mem inList
    rw [laid.read] at read
    cases read
    cases after with
    | nil => simp at next
    | cons second after =>
      obtain ⟨c, u⟩ := second
      obtain rfl : c = y := by simpa using next
      have seam : before ++ (b, w) :: (c, u) :: after = (before ++ [(b, w)]) ++ (c, u) :: after := by simp
      rw [seam] at laid
      exact ⟨_, laid.read, by simp [last]⟩
  · rintro ⟨node, read, previous⟩
    obtain ⟨⟨b, w⟩, inList, rfl⟩ := List.mem_map.mp there
    obtain ⟨before, after, rfl⟩ := List.append_of_mem inList
    rw [laid.read] at read
    cases read
    rcases List.eq_nil_or_concat before with rfl | ⟨front, ⟨c, u⟩, rfl⟩
    · simp [last] at previous
    · obtain rfl : c = x := by simpa [last] using previous
      have seam : front.concat (c, u) ++ (b, w) :: after = front ++ (c, u) :: (b, w) :: after := by simp
      rw [seam] at laid
      exact ⟨_, laid.read, by simp⟩

/-! ## Walking a list -/

variable {heap : σ → Heap β} {visit : Nat → σ → Option σ}

/-- The walk rule. The invariant speaks about the nodes not visited yet and the
state; it must place the next of them in the heap with its successor, and a
visit of that one must keep it. Then the walk ends, having visited them all. -/
theorem walk_rule (I : List (Nat × β) → σ → Prop)
    (placed : ∀ a v rest s, I ((a, v) :: rest) s → ∃ prev, heap s a = some ⟨first rest, prev, v⟩)
    (visits : ∀ a v rest s, I ((a, v) :: rest) s → ∃ s', visit a s = some s' ∧ I rest s')
    {s : σ} {fuel : Nat} (start : I ((a, v) :: l) s) (enough : l.length < fuel) :
    ∃ s', walk heap visit fuel a s = some s' ∧ I [] s' := by
  induction fuel generalizing a v l s with
  | zero => simp at enough
  | succ fuel ih =>
    obtain ⟨prev, here⟩ := placed a v l s start
    obtain ⟨s', visited, kept⟩ := visits a v l s start
    cases l with
    | nil => exact ⟨s', by simp [walk, here, visited], kept⟩
    | cons node l =>
      obtain ⟨b, w⟩ := node
      obtain ⟨s'', walked, done⟩ := ih kept (by simpa using enough)
      exact ⟨s'', by simp [walk, here, visited, walked], done⟩

end MsaBroker.LinkedList
