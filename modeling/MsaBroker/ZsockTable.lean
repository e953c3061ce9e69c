import Mathlib.Tactic.FinCases
import MsaBroker.Lib.Machine
import MsaBroker.ZsockList

/-! The socket table of a thread as a keyed table. A name is looked up as it is,
but stored and inserted as the text it makes as a format; the laws of a table
are tested here for every name that is defined as a format, against every table
that additions and removals can build, and so is the table's hold on the sockets
that were opened. -/
namespace MsaBroker
open CMemory

/-- The socket of an entry. -/
def Element.sock (e : Element ZsockCtx) : OpenSock := ⟨e.data.zsock, e.data.type, e.data.ipcPath⟩

/-- Every open socket is that of exactly one of these entries, and they have no
others. -/
structure Owned (net : Net) (entries : List (Element ZsockCtx)) : Prop where
  perm : net.opened.Perm (entries.map Element.sock)
  handles : (net.opened.map OpenSock.zsock).Nodup

/-- A handle is never reused. -/
def Net.Fresh (net : Net) : Prop := ∀ s ∈ net.opened, s.zsock < net.next

namespace ZsockTable

/-- The table of one thread and the sockets it opened. -/
structure State where
  net : Net
  llist : List (Element ZsockCtx)

inductive Act where
  | add (key : Bytes) (type : ZmqType)
  | del (key : Bytes) (type : ZmqType)

/-- The name of the step is defined as a format. -/
def Act.Doubled : Act → Prop
  | .add key _ | .del key _ => percentDoubled key = true

variable (host : Host)

/-- `add_zsock_to_list` or `del_zsock_from_list`. -/
def step (s : State) (a : Act) : Option (State × List Unit) :=
  let (net, llist) := match a with
    | .add key type => addZsockToList host key type s.net s.llist
    | .del key type => delZsockFromList key type s.net s.llist
  some (⟨net, llist⟩, [])

/-- From an empty list and no sockets. -/
def machine : Machine State Act Unit := ⟨⟨⟨0, []⟩, []⟩, step host⟩

/-- What a keyed table does with this name and type. -/
structure Laws (s : State) (key : Bytes) (type : ZmqType) : Prop where
  /-- An absent name is added: it is found, with its type, key and path and a
  socket just opened, among the entries that were there; and removing it closes
  that socket and gives the list back. -/
  added : getElement key s.llist = none →
    ∃ entry, getElement key (addZsockToList host key type s.net s.llist).2 = some entry ∧
      entry.data.type = type ∧ entry.data.myKey = key ∧ entry.data.ipcPath = zsockIpcPath host key ∧
      (addZsockToList host key type s.net s.llist).2.Perm (entry :: s.llist) ∧
      (addZsockToList host key type s.net s.llist).1.opened = s.net.opened ++ [entry.sock] ∧
      let (net, llist) := addZsockToList host key type s.net s.llist
      (delZsockFromList key type net llist).2 = s.llist ∧
        (delZsockFromList key type net llist).1.opened = s.net.opened
  /-- A name that is there is refused. -/
  refused : ∀ entry, getElement key s.llist = some entry →
    addZsockToList host key type s.net s.llist = (s.net, s.llist)
  /-- There is nothing to remove under an absent name, -/
  missing : getElement key s.llist = none → delZsockFromList key type s.net s.llist = (s.net, s.llist)
  /-- or under another type. -/
  mismatch : ∀ entry, getElement key s.llist = some entry → entry.data.type ≠ type →
    delZsockFromList key type s.net s.llist = (s.net, s.llist)

end ZsockTable

/-! ## One addition, one removal -/

variable {host : Host} {key : Bytes} {type : ZmqType} {net : Net} {l l' : List (Element ZsockCtx)}
  {item : Element ZsockCtx}

/-- Removing what was just added. -/
theorem remElement_addElement (added : addElement item l = some l') : remElement item.key l' = l := by
  induction l generalizing l' with
  | nil =>
    cases added
    simp [remElement, strcmp_eq_zero_iff]
  | cons e l ih =>
    simp only [addElement] at added
    split at added
    · rename_i past
      obtain ⟨rest, addedRest, rfl⟩ := Option.map_eq_some_iff.mp added
      have apart : e.key ≠ item.key := by
        intro same
        rw [(strcmp_eq_zero_iff _ _).mpr same.symm] at past
        omega
      simp [remElement, strcmp_eq_zero_iff, apart, ih addedRest]
    · split at added
      · cases added
      · cases added
        simp [remElement, strcmp_eq_zero_iff]

/-- Closing the socket opened last leaves the others. -/
theorem Net.Fresh.close_opened (fresh : net.Fresh) (type : ZmqType) (path : Bytes) :
    (Net.close ⟨net.next + 1, net.opened ++ [⟨net.next, type, path⟩]⟩ net.next).opened = net.opened := by
  have others : ∀ s ∈ net.opened, s.zsock ≠ net.next := fun s member => Nat.ne_of_lt (fresh s member)
  simpa [Net.close] using others

theorem Net.Fresh.open_ (fresh : net.Fresh) (type : ZmqType) (path : Bytes) :
    Net.Fresh ⟨net.next + 1, net.opened ++ [⟨net.next, type, path⟩]⟩ := by
  intro s member
  rcases List.mem_append.mp member with earlier | new
  · exact Nat.lt_succ_of_lt (fresh s earlier)
  · obtain rfl := List.mem_singleton.mp new
    exact Nat.lt_succ_self _

theorem Net.Fresh.close (fresh : net.Fresh) (zsock : Nat) : (net.close zsock).Fresh :=
  fun s member => fresh s (List.mem_of_mem_filter member)

theorem Owned.of_perm (owned : Owned net l) (perm : l.Perm l') : Owned net l' :=
  ⟨owned.perm.trans (perm.map _), owned.handles⟩

theorem Owned.open_ (owned : Owned net l) (fresh : net.Fresh) {path : Bytes} {e : Element ZsockCtx}
    (sock : e.sock = ⟨net.next, type, path⟩) :
    Owned ⟨net.next + 1, net.opened ++ [⟨net.next, type, path⟩]⟩ (e :: l) where
  perm := by
    rw [List.map_cons, sock]
    exact (List.perm_append_singleton _ _).trans (owned.perm.cons _)
  handles := by
    rw [List.map_append, List.map_singleton, (List.perm_append_singleton _ _).nodup_iff, List.nodup_cons]
    refine ⟨fun member => ?_, owned.handles⟩
    obtain ⟨s, earlier, same⟩ := List.mem_map.mp member
    exact Nat.ne_of_lt (fresh s earlier) same

/-- Handles are never reused, so closing an entry's socket closes no other. -/
theorem Owned.close {e : Element ZsockCtx} (owned : Owned net (e :: l)) : Owned (net.close e.data.zsock) l where
  perm := by
    have handles := owned.handles
    rw [(owned.perm.map _).nodup_iff, List.map_cons, List.map_cons, List.nodup_cons] at handles
    have others : (l.map Element.sock).filter (fun s => s.zsock ≠ e.data.zsock) = l.map Element.sock := by
      rw [List.filter_eq_self]
      intro s member
      have apart : s.zsock ≠ e.data.zsock := fun same => handles.1 (List.mem_map.mpr ⟨s, member, same⟩)
      simpa using apart
    have closed := owned.perm.filter fun s => s.zsock ≠ e.data.zsock
    rw [List.map_cons, List.filter_cons_of_neg (by simp [Element.sock]), others] at closed
    exact closed
  handles := owned.handles.sublist (List.filter_sublist.map _)

/-- Removing an entry of this type under its own name. -/
theorem delZsockFromList_found (net : Net) {e : Element ZsockCtx} (found : getElement key l = some e)
    (sameType : e.data.type = type) :
    delZsockFromList key type net l = (net.close e.data.zsock, remElement key l) := by
  simp [delZsockFromList, found, sameType]

theorem addZsockToList_found {e : Element ZsockCtx} (found : getElement key l = some e) :
    addZsockToList host key type net l = (net, l) := by
  simp [addZsockToList, found]

/-- An absent name that is defined as a format: a socket is opened, and an entry
made under the text. -/
theorem addZsockToList_doubled (doubled : percentDoubled key = true) (absent : getElement key l = none) :
    addZsockToList host key type net l =
      (⟨net.next + 1, net.opened ++ [⟨net.next, type, zsockIpcPath host key⟩]⟩,
        (addElement ⟨expand key, newZsock host key type net⟩ l).getD l) := by
  have text : formatText host.printfUndef key = expand key := if_pos doubled
  unfold newZsock
  simp [addZsockToList, absent, text]

namespace ZsockTable

variable {s s' : State} {a : Act} {acts : List Act} {out trace : List Unit}

/-- Where the name is its own text as a format, all laws hold. -/
theorem laws_of_plain (sorted : ElemSorted s.llist) (fresh : s.net.Fresh) (plain : 37 ∉ key) :
    Laws host s key type where
  added absent := by
    obtain ⟨llist, added, result⟩ := addZsockToList_absent host type s.net sorted plain absent
    have found : getElement key llist = some ⟨key, newZsock host key type s.net⟩ := by
      rw [getElement_addElement sorted added]
      simp
    have myKey : formatText host.printfUndef key = key := formatText_of_plain _ plain
    have gone : remElement key llist = s.llist := remElement_addElement added
    rw [result]
    refine ⟨_, found, rfl, myKey, rfl, addElement_perm added, rfl, ?_⟩
    have removed (net : Net) : delZsockFromList key type net llist = (net.close s.net.next, remElement key llist) :=
      delZsockFromList_found net found rfl
    simp only [removed, gone, true_and]
    exact fresh.close_opened type (zsockIpcPath host key)
  refused entry found := addZsockToList_found found
  missing absent := by simp [delZsockFromList, absent]
  mismatch entry found other := by simp [delZsockFromList, found, other]

theorem laws_of_found (found : getElement key s.llist ≠ none) : Laws host s key type where
  added absent := absurd absent found
  refused entry found := addZsockToList_found found
  missing absent := absurd absent found
  mismatch entry found other := by simp [delZsockFromList, found, other]

/-- For one name: the laws hold exactly when it has no `'%'`, or is there. -/
theorem laws_iff (sorted : ElemSorted s.llist) (fresh : s.net.Fresh) (doubled : percentDoubled key = true) :
    Laws host s key type ↔ 37 ∉ key ∨ getElement key s.llist ≠ none := by
  constructor
  · intro laws
    by_contra neither
    obtain ⟨percent, absent⟩ := not_or.mp neither
    rw [not_not] at percent absent
    obtain ⟨entry, found, -⟩ := laws.added absent
    rw [addZsockToList_doubled doubled absent] at found
    -- the entry, if any was made, is under the shorter text
    have shorter := expand_length_lt doubled percent
    have apart : expand key ≠ key := fun same => by rw [same] at shorter; omega
    cases added : addElement ⟨expand key, newZsock host key type s.net⟩ s.llist with
    | none =>
      simp only [added, Option.getD_none, absent] at found
      cases found
    | some llist =>
      simp only [added, Option.getD_some, getElement_addElement sorted added, apart, ↓reduceIte, absent] at found
      cases found
  · rintro (plain | found)
    · exact laws_of_plain sorted fresh plain
    · exact laws_of_found found

/-! ## Runs -/

/-- What holds of every reachable table. -/
structure Inv (s : State) : Prop where
  sorted : ElemSorted s.llist
  fresh : s.net.Fresh

/-- The step does not add an absent name whose text as a format is there. -/
def KeepsSockets (s : State) : Act → Prop
  | .add key _ => getElement key s.llist = none → getElement (expand key) s.llist = none
  | .del _ _ => True

theorem step_add {key : Bytes} {type : ZmqType} (ran : step host s (.add key type) = some (s', out)) :
    s'.net = (addZsockToList host key type s.net s.llist).1 ∧
      s'.llist = (addZsockToList host key type s.net s.llist).2 := by
  simp only [step, Option.some.injEq, Prod.mk.injEq] at ran
  obtain ⟨rfl, -⟩ := ran
  exact ⟨rfl, rfl⟩

theorem step_del {key : Bytes} {type : ZmqType} (ran : step host s (.del key type) = some (s', out)) :
    s'.net = (delZsockFromList key type s.net s.llist).1 ∧
      s'.llist = (delZsockFromList key type s.net s.llist).2 := by
  simp only [step, Option.some.injEq, Prod.mk.injEq] at ran
  obtain ⟨rfl, -⟩ := ran
  exact ⟨rfl, rfl⟩

theorem step_inv (inv : Inv s) (doubled : a.Doubled) (ran : step host s a = some (s', out)) : Inv s' := by
  cases a with
  | add key type =>
    obtain ⟨net, llist⟩ := step_add ran
    refine ⟨llist ▸ addZsockToList_sorted inv.sorted, ?_⟩
    rw [net]
    cases found : getElement key s.llist with
    | none =>
      rw [addZsockToList_doubled doubled found]
      exact inv.fresh.open_ type _
    | some entry =>
      rw [addZsockToList_found found]
      exact inv.fresh
  | del key type =>
    obtain ⟨net, llist⟩ := step_del ran
    refine ⟨llist ▸ delZsockFromList_sorted inv.sorted, ?_⟩
    rw [net]
    unfold delZsockFromList
    split
    · exact inv.fresh
    · split
      · exact inv.fresh
      · exact inv.fresh.close _

/-- A step leaves every socket with its entry exactly when it is no addition of
that kind. -/
theorem step_owned_iff (inv : Inv s) (owned : Owned s.net s.llist) (doubled : a.Doubled)
    (ran : step host s a = some (s', out)) : Owned s'.net s'.llist ↔ KeepsSockets s a := by
  cases a with
  | add key type =>
    obtain ⟨net, llist⟩ := step_add ran
    rw [net, llist, KeepsSockets]
    cases found : getElement key s.llist with
    | some entry =>
      rw [addZsockToList_found found]
      simpa using owned
    | none =>
      rw [addZsockToList_doubled doubled found]
      cases added : addElement ⟨expand key, newZsock host key type s.net⟩ s.llist with
      | some llist =>
        have absent : getElement (expand key) s.llist = none := by
          apply getElement_eq_none.mpr
          intro taken
          rw [(addElement_eq_none inv.sorted).mpr taken] at added
          cases added
        have entry := (owned.open_ inv.fresh (e := ⟨expand key, newZsock host key type s.net⟩) rfl).of_perm
          (addElement_perm added).symm
        exact iff_of_true entry fun _ => absent
      | none =>
        have taken := (addElement_eq_none inv.sorted).mp added
        refine iff_of_false (fun leaked => ?_) fun keeps => getElement_eq_none.mp (keeps rfl) taken
        -- one socket more, and no entry more
        have sockets := leaked.perm.length_eq
        have before := owned.perm.length_eq
        simp only [Option.getD_none, List.length_append, List.length_map, List.length_singleton] at sockets before
        omega
  | del key type =>
    obtain ⟨net, llist⟩ := step_del ran
    rw [net, llist]
    refine iff_of_true ?_ trivial
    cases found : getElement key s.llist with
    | none => simpa [delZsockFromList, found] using owned
    | some entry =>
      by_cases same : entry.data.type = type
      · rw [delZsockFromList_found _ found same]
        exact (owned.of_perm (remElement_perm found)).close
      · simpa [delZsockFromList, found, same] using owned

theorem runs_inv (run : (machine host).Runs acts s trace) (doubled : ∀ a ∈ acts, a.Doubled) : Inv s :=
  run.invariant (fun _ s => Inv s) Act.Doubled doubled ⟨.nil, by simp [Net.Fresh, machine]⟩
    fun _ _ _ _ _ inv doubled ran => step_inv inv doubled ran

/-- **When the table obeys its laws.** In every table that additions and removals
of names defined as formats can build, the laws hold for a name exactly when it
has no `'%'` or an entry is under it; and over a run every socket stays with one
entry exactly when no step adds an absent name whose text is there. -/
theorem table_lawful_iff (host : Host) (acts : List Act) (doubled : ∀ a ∈ acts, a.Doubled) :
    (∀ s trace, (machine host).Runs acts s trace → ∀ key type, percentDoubled key = true →
      (Laws host s key type ↔ 37 ∉ key ∨ getElement key s.llist ≠ none)) ∧
    ((machine host).Always (fun _ s => Owned s.net s.llist) acts ↔ (machine host).EveryStep KeepsSockets acts) := by
  constructor
  · intro s trace run key type defined
    have inv := runs_inv run doubled
    exact laws_iff inv.sorted inv.fresh defined
  · apply Machine.always_iff_everyStep (fun _ s => Inv s) (fun _ s => Owned s.net s.llist) KeepsSockets
      Act.Doubled doubled
    · exact ⟨.nil, by simp [Net.Fresh, machine]⟩
    · exact ⟨.nil, by simp [machine]⟩
    · exact fun tr s a s' out inv doubled ran => step_inv inv doubled ran
    · exact fun tr s a s' out inv owned doubled ran => step_owned_iff inv owned doubled ran

theorem table_lawful_iff_service :
    (machine .bare).Always (fun _ s => Owned s.net s.llist) [.add (ascii "x%%") .push, .del (ascii "x%%") .push] ↔
      (machine .bare).EveryStep KeepsSockets [.add (ascii "x%%") .push, .del (ascii "x%%") .push] := by
  refine (table_lawful_iff .bare _ ?_).2
  intro a member
  fin_cases member <;> exact (by decide : percentDoubled (ascii "x%%") = true)

/-- A service of that name is added under another, and not found under its own. -/
theorem table_unlawful : ¬ ∀ host acts, (∀ a ∈ acts, a.Doubled) → ∀ s trace, (machine host).Runs acts s trace →
    ∀ key type, percentDoubled key = true → Laws host s key type := by
  intro always
  have laws := always .bare [] (by simp) _ [] (Machine.runs_nil_iff.mpr ⟨rfl, rfl⟩) (ascii "x%%") .push (by decide)
  obtain ⟨entry, found, -⟩ := laws.added (by decide)
  have absent : getElement (ascii "x%%") (addZsockToList .bare (ascii "x%%") .push ⟨0, []⟩ []).2 = none := by decide
  cases absent.symm.trans found

end ZsockTable

end MsaBroker
