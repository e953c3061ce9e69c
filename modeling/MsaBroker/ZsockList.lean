import MsaBroker.Broker

/-! The socket table of a thread. An addition never disturbs an entry that is
there, and a removal takes away only an entry of the type it names; with SEND
adding and removing nothing but PUSH sockets, its ROUTER entry stays whatever
the service names are. -/
namespace MsaBroker
open CMemory

variable {host : Host} {key k : Bytes} {type : ZmqType} {net : Net} {l : List (Element ZsockCtx)}
  {e : Element ZsockCtx}

/-- The entry `add_zsock_to_list` makes. -/
def newZsock (host : Host) (key : Bytes) (type : ZmqType) (net : Net) : ZsockCtx where
  myKey := formatText host.printfUndef key
  type := type
  ipcPath := zsockIpcPath host key
  zsock := net.next

/-- The two outcomes for the table: a new entry under its formatted key, or, where
either the name or the formatted key is taken, no change. -/
theorem addZsockToList_cases (host : Host) (key : Bytes) (type : ZmqType) (net : Net)
    (l : List (Element ZsockCtx)) :
    (addZsockToList host key type net l).2 = l ∨
      addElement ⟨(newZsock host key type net).myKey, newZsock host key type net⟩ l =
        some (addZsockToList host key type net l).2 := by
  unfold addZsockToList
  split
  · exact .inl rfl
  · cases added : addElement ⟨(newZsock host key type net).myKey, newZsock host key type net⟩ l with
    | none =>
      left
      unfold newZsock at added
      simp [added]
    | some l' =>
      right
      unfold newZsock at added
      simp [added]

/-- Where the name is its own text as a format, an absent one is added. -/
theorem addZsockToList_absent (host : Host) (type : ZmqType) (net : Net) (sorted : ElemSorted l)
    (plain : 37 ∉ key) (absent : getElement key l = none) :
    ∃ l', addElement ⟨key, newZsock host key type net⟩ l = some l' ∧
      addZsockToList host key type net l =
        (⟨net.next + 1, net.opened ++ [⟨net.next, type, zsockIpcPath host key⟩]⟩, l') := by
  have myKey : formatText host.printfUndef key = key := formatText_of_plain _ plain
  cases added : addElement ⟨key, newZsock host key type net⟩ l with
  | none => exact absurd ((addElement_eq_none sorted).mp added) (getElement_eq_none.mp absent)
  | some l' =>
    refine ⟨l', rfl, ?_⟩
    unfold newZsock at added
    rw [myKey] at added
    simp [addZsockToList, absent, myKey, added]

theorem addZsockToList_sorted (sorted : ElemSorted l) :
    ElemSorted (addZsockToList host key type net l).2 := by
  rcases addZsockToList_cases host key type net l with same | added
  · rwa [same]
  · exact addElement_sorted sorted added

theorem addZsockToList_keeps (sorted : ElemSorted l) (found : getElement k l = some e) :
    getElement k (addZsockToList host key type net l).2 = some e := by
  rcases addZsockToList_cases host key type net l with same | added
  · rwa [same]
  · have apart : (newZsock host key type net).myKey ≠ k := by
      intro same
      have taken := getElement_some found
      have member : (newZsock host key type net).myKey ∈ l.map Element.key :=
        List.mem_map.mpr ⟨e, taken.1, taken.2.trans same.symm⟩
      rw [(addElement_eq_none sorted).mpr member] at added
      cases added
    rw [getElement_addElement sorted added]
    simp [apart, found]

/-- A removal adds nothing and moves nothing. -/
theorem delZsockFromList_sublist : (delZsockFromList key type net l).2.Sublist l := by
  unfold delZsockFromList
  split
  · exact .refl l
  · split
    · exact .refl l
    · rw [remElement_eq_erase]
      exact KeyedList.erase_sublist

theorem delZsockFromList_sorted (sorted : ElemSorted l) :
    ElemSorted (delZsockFromList key type net l).2 :=
  List.Pairwise.sublist delZsockFromList_sublist sorted

theorem delZsockFromList_keeps (sorted : ElemSorted l) (found : getElement k l = some e)
    (other : e.data.type ≠ type) : getElement k (delZsockFromList key type net l).2 = some e := by
  unfold delZsockFromList
  split
  · exact found
  · rename_i elem taken
    split
    · exact found
    · rename_i sameType
      have apart : key ≠ k := by
        rintro rfl
        rw [taken] at found
        cases found
        exact sameType other
      simp [getElement_remElement sorted, apart, found]

/-- Every entry but the router's is a PUSH socket: what services are added and
removed under whatever names. -/
def PushOnly (l : List (Element ZsockCtx)) : Prop := ∀ e ∈ l, e.key ≠ ascii "ROUTER" → e.data.type = .push

theorem addZsockToList_pushOnly (only : PushOnly l) : PushOnly (addZsockToList host key .push net l).2 := by
  rcases addZsockToList_cases host key .push net l with same | added
  · rwa [same]
  · intro e member other
    rcases List.mem_cons.mp ((addElement_perm added).mem_iff.mp member) with rfl | earlier
    · rfl
    · exact only e earlier other

theorem delZsockFromList_pushOnly (only : PushOnly l) : PushOnly (delZsockFromList key type net l).2 :=
  fun e member => only e (delZsockFromList_sublist.mem member)

end MsaBroker
