import MsaBroker.BrokerRuns
import MsaBroker.ZsockTable

/-! The endpoints the broker listens on. Every open socket belongs to an entry of
one of the three tables and is bound to the path of that entry's key, so two
sockets share a path exactly when two tables share a key. A table refuses a key
it has; nothing keeps a service from a name that another thread's table has. -/
namespace MsaBroker
open CMemory

/-- The open sockets are those of these tables. -/
structure Opened (host : Host) (net : Net) (tables : List (Element ZsockCtx)) : Prop where
  perm : net.opened.Perm (tables.map Element.sock)
  handles : (net.opened.map OpenSock.zsock).Nodup
  fresh : ∀ s ∈ net.opened, s.zsock < net.next
  paths : ∀ e ∈ tables, e.data.ipcPath = zsockIpcPath host e.key

namespace Opened

variable {host : Host} {net : Net} {tables tables' llist : List (Element ZsockCtx)} {key : Bytes}
  {type : ZmqType} {e : Element ZsockCtx}

theorem zsockIpcPath_injective (host : Host) : Function.Injective (zsockIpcPath host) := by
  intro a b same
  simpa [zsockIpcPath] using same

theorem of_perm (opened : Opened host net tables) (perm : tables.Perm tables') : Opened host net tables' where
  perm := opened.perm.trans (perm.map _)
  handles := opened.handles
  fresh := opened.fresh
  paths e member := opened.paths e (perm.mem_iff.mpr member)

/-- Sockets share a path exactly when entries share a key. -/
theorem distinct_iff (opened : Opened host net tables) :
    (net.opened.map OpenSock.ipcPath).Nodup ↔ (tables.map Element.key).Nodup := by
  have paths : (tables.map Element.sock).map OpenSock.ipcPath =
      (tables.map Element.key).map (zsockIpcPath host) := by
    rw [List.map_map, List.map_map]
    exact List.map_congr_left opened.paths
  rw [(opened.perm.map _).nodup_iff, paths, List.nodup_map_iff (zsockIpcPath_injective host)]

theorem owned (opened : Opened host net tables) : Owned net tables := ⟨opened.perm, opened.handles⟩

theorem open_ (opened : Opened host net tables) (key : Bytes) (type : ZmqType) :
    Opened host ⟨net.next + 1, net.opened ++ [⟨net.next, type, zsockIpcPath host key⟩]⟩
      (⟨key, newZsock host key type net⟩ :: tables) := by
  have owned : Owned _ (⟨key, newZsock host key type net⟩ :: tables) :=
    opened.owned.open_ opened.fresh (e := ⟨key, newZsock host key type net⟩) rfl
  refine ⟨owned.perm, owned.handles, Net.Fresh.open_ opened.fresh type _, fun e member => ?_⟩
  rcases List.mem_cons.mp member with rfl | earlier
  · rfl
  · exact opened.paths e earlier

/-- Handles are never reused, so closing an entry's socket closes no other. -/
theorem close (opened : Opened host net (e :: tables)) : Opened host (net.close e.data.zsock) tables where
  perm := opened.owned.close.perm
  handles := opened.owned.close.handles
  fresh := Net.Fresh.close opened.fresh _
  paths e' member := opened.paths e' (List.mem_cons_of_mem _ member)

variable {own : List (Element ZsockCtx)} {k : Bytes}

/-- `add_zsock_to_list` beside other tables. -/
theorem add (opened : Opened host net (own ++ llist)) (sorted : ElemSorted llist) (plain : 37 ∉ key)
    (type : ZmqType) :
    Opened host (addZsockToList host key type net llist).1
        (own ++ (addZsockToList host key type net llist).2) ∧
      ∀ k, k ∈ (addZsockToList host key type net llist).2.map Element.key ↔
        k = key ∨ k ∈ llist.map Element.key := by
  cases found : getElement key llist with
  | some elem =>
    have same : addZsockToList host key type net llist = (net, llist) := by
      simp [addZsockToList, found]
    have there := getElement_some found
    rw [same]
    refine ⟨opened, fun k => (or_iff_right_of_imp ?_).symm⟩
    rintro rfl
    exact List.mem_map.mpr ⟨elem, there⟩
  | none =>
    obtain ⟨llist', added, result⟩ := addZsockToList_absent host type net sorted plain found
    have perm := addElement_perm added
    rw [result]
    refine ⟨(opened.open_ key type).of_perm ?_, fun k => ?_⟩
    · exact (List.perm_middle.symm.trans (perm.symm.append_left own))
    · rw [(perm.map _).mem_iff, List.map_cons, List.mem_cons]

/-- `del_zsock_from_list` beside other tables. -/
theorem del (opened : Opened host net (own ++ llist)) (type : ZmqType) :
    Opened host (delZsockFromList key type net llist).1 (own ++ (delZsockFromList key type net llist).2) ∧
      ∀ k, k ∈ (delZsockFromList key type net llist).2.map Element.key → k ∈ llist.map Element.key := by
  cases found : getElement key llist with
  | none => simpa [delZsockFromList, found] using opened
  | some elem =>
    by_cases same : elem.data.type = type
    · have result : delZsockFromList key type net llist =
          (net.close elem.data.zsock, remElement key llist) := by simp [delZsockFromList, found, same]
      have perm := remElement_perm found
      rw [result]
      refine ⟨(opened.of_perm ((perm.append_left own).trans List.perm_middle)).close, fun k member => ?_⟩
      rw [(perm.map _).mem_iff]
      exact List.mem_cons_of_mem _ member
    · simpa [delZsockFromList, found, same] using opened

end Opened

/-! ## The endpoints over a run -/

namespace MainCtx

variable {host : Host} {s t : MainCtx} {a : Act} {acts : List Act} {trace out : List Obs}

/-- The names of the sockets RECV and MGNT listen on. -/
def reserved : List Bytes := [ascii "PULL", ascii "PUB", ascii "SUB"]

/-- The svcname of a REGI message is terminated within its field and free of
`'%'`. -/
def Act.PlainSvcname : Act → Prop
  | .mgnt (.regi _ _ appls) => appls.svcname.Terminated ∧ 37 ∉ appls.svcnameStr
  | .mgnt .sweepStart | .mgnt (.visit _) | .pipe _ => True

/-- The notification this step acts on. -/
def acted (s : MainCtx) : Act → Option Notification
  | .mgnt _ => none
  | .pipe a => s.pipe.acted a

/-- The step does not create a service under a name that is reserved. -/
def SparesReserved (s : MainCtx) (a : Act) : Prop :=
  ∀ appls, s.acted a = some (.create appls) → appls.svcnameStr ∉ reserved

/-- All open sockets are bound to different paths. -/
def Distinct (s : MainCtx) : Prop := (s.pipe.net.opened.map OpenSock.ipcPath).Nodup

/-- The sockets and names of every state of a run with plain svcnames. -/
structure Listens (host : Host) (s : MainCtx) : Prop where
  opened : Opened host s.pipe.net ((s.recvLlist ++ s.mgntLlist) ++ s.pipe.zsockLlist)
  own : (s.recvLlist ++ s.mgntLlist).map Element.key = reserved
  sorted : ElemSorted s.pipe.zsockLlist
  records : ∀ e ∈ s.reg.list, 37 ∉ e.svc
  pending : ∀ n ∈ s.pipe.notifications, 37 ∉ n.svc

/-- Only SEND's table can bring a path in twice, with a name that is reserved. -/
theorem Listens.distinct_iff (listens : Listens host s) :
    s.Distinct ↔ ∀ k ∈ reserved, k ∉ s.pipe.zsockLlist.map Element.key := by
  have ownNodup : reserved.Nodup := by decide
  have sendNodup := listens.sorted.keys_nodup
  rw [Distinct, listens.opened.distinct_iff, List.map_append, listens.own, List.nodup_append]
  constructor
  · rintro ⟨-, -, apart⟩ k mine theirs
    exact apart k mine k theirs rfl
  · intro apart
    refine ⟨ownNodup, sendNodup, ?_⟩
    rintro k mine _ theirs rfl
    exact apart k mine theirs

theorem init_listens (host : Host) : Listens host (MainCtx.init host) := by
  let entry (key : String) (type : ZmqType) (zsock : Nat) : Element ZsockCtx :=
    ⟨ascii key, ascii key, type, zsockIpcPath host (ascii key), zsock⟩
  have tables : ((MainCtx.init host).recvLlist ++ (MainCtx.init host).mgntLlist) ++
      (MainCtx.init host).pipe.zsockLlist =
        [entry "PULL" .pull 1, entry "PUB" .pub 2, entry "SUB" .sub 3, entry "ROUTER" .router 0] := rfl
  have net : (MainCtx.init host).pipe.net = ⟨4, [(entry "ROUTER" .router 0).sock, (entry "PULL" .pull 1).sock,
      (entry "PUB" .pub 2).sock, (entry "SUB" .sub 3).sock]⟩ := rfl
  refine ⟨?_, rfl, addZsockToList_sorted .nil, by simp [MainCtx.init, Registry.list], ?_⟩
  · rw [tables, net]
    refine ⟨?_, by simp [Element.sock, entry], by simp [Element.sock, entry], by simp [entry]⟩
    exact (List.perm_append_singleton _ _).symm
  · have idle : (MainCtx.init host).pipe.notifications = [] := rfl
    simp [idle]

theorem init_distinct (host : Host) : (MainCtx.init host).Distinct := by
  rw [(init_listens host).distinct_iff]
  have keys : (MainCtx.init host).pipe.zsockLlist.map Element.key = [ascii "ROUTER"] := rfl
  rw [keys]
  decide

/-- How acting on a notification changes the keys of SEND's table. -/
def Notification.Rekeys (n : Notification) (before after : List (Element ZsockCtx)) : Prop :=
  match n with
  | .create appls => ∀ k, k ∈ after.map Element.key ↔ k = appls.svcnameStr ∨ k ∈ before.map Element.key
  | .remove _ => ∀ k, k ∈ after.map Element.key → k ∈ before.map Element.key

theorem Listens.acted (listens : Listens host s) {n : Notification} {pipe : Pipeline} (plain : 37 ∉ n.svc)
    (run : (pipe.net, pipe.zsockLlist) = n.run host s.pipe.net s.pipe.zsockLlist) :
    Opened host pipe.net ((s.recvLlist ++ s.mgntLlist) ++ pipe.zsockLlist) ∧ ElemSorted pipe.zsockLlist ∧
      Notification.Rekeys n s.pipe.zsockLlist pipe.zsockLlist := by
  obtain ⟨net, llist⟩ := Prod.mk.inj run
  rw [net, llist]
  cases n with
  | create appls =>
    obtain ⟨opened, keys⟩ := listens.opened.add listens.sorted plain .push
    exact ⟨opened, addZsockToList_sorted listens.sorted, keys⟩
  | remove appls =>
    obtain ⟨opened, keys⟩ := listens.opened.del .push
    exact ⟨opened, delZsockFromList_sorted listens.sorted, keys⟩

theorem Moves.listens (moves : Moves host s a t out) (plain : a.PlainSvcname) (listens : Listens host s) :
    Listens host t := by
  cases moves with
  | @mgnt a reg posts moves =>
    obtain ⟨notifications, llist, net⟩ := postAll_same s.pipe posts
    have stores : a.Stores fun e => 37 ∉ e.svc := by
      cases a with
      | sweepStart => trivial
      | visit now => trivial
      | regi now nBytes appls =>
        intro size
        have stored := ApplsCtx.setTimestamp_svcnameStr now plain.1
        have svc : 37 ∉ (appls.setTimestamp now).svcnameStr := stored.symm ▸ plain.2
        exact svc
    refine ⟨?_, listens.own, ?_, moves.records stores listens.records, ?_⟩
    · simpa only [net, llist] using listens.opened
    · simpa only [llist] using listens.sorted
    · intro n member
      simp only [notifications] at member
      rcases List.mem_append.mp member with earlier | new
      · exact listens.pending n earlier
      · obtain ⟨post, posted, rfl⟩ := List.mem_map.mp new
        obtain ⟨e, good, copy⟩ := moves.posted_record stores listens.records post posted
        rwa [Notification.svc, ← copy]
  | quiet idle notifications llist net =>
    refine ⟨?_, listens.own, ?_, listens.records, ?_⟩
    · simpa only [net, llist] using listens.opened
    · simpa only [llist] using listens.sorted
    · simpa only [notifications] using listens.pending
  | @acted a pipe n running next run =>
    have later : ∀ m ∈ n :: pipe.notifications, 37 ∉ m.svc := next ▸ listens.pending
    obtain ⟨opened, sorted, -⟩ := listens.acted (later n List.mem_cons_self) run
    exact ⟨opened, listens.own, sorted, listens.records, fun m member =>
      later m (List.mem_cons_of_mem _ member)⟩

/-- A step keeps the paths apart exactly when it creates no service under a name
that is reserved. -/
theorem Moves.distinct_iff (moves : Moves host s a t out) (plain : a.PlainSvcname)
    (listens : Listens host s) (distinct : s.Distinct) : t.Distinct ↔ s.SparesReserved a := by
  have absent := listens.distinct_iff.mp distinct
  rw [(moves.listens plain listens).distinct_iff]
  cases moves with
  | @mgnt a reg posts moves =>
    obtain ⟨-, llist, -⟩ := postAll_same s.pipe posts
    simpa [SparesReserved, MainCtx.acted, llist] using absent
  | quiet idle notifications llist net =>
    simpa [SparesReserved, MainCtx.acted, idle, llist] using absent
  | @acted a pipe n running next run =>
    have plain : 37 ∉ n.svc := listens.pending n (next ▸ List.mem_cons_self)
    obtain ⟨-, -, rekeys⟩ := listens.acted plain run
    cases n with
    | create appls =>
      have rekeys : ∀ k, k ∈ pipe.zsockLlist.map Element.key ↔
        k = appls.svcnameStr ∨ k ∈ s.pipe.zsockLlist.map Element.key := rekeys
      simp only [SparesReserved, MainCtx.acted, running, Option.some.injEq, Notification.create.injEq,
        forall_eq', rekeys]
      constructor
      · intro apart mine
        exact apart _ mine (.inl rfl)
      · rintro spared k mine (rfl | earlier)
        · exact spared mine
        · exact absent k mine earlier
    | remove appls =>
      simp only [SparesReserved, MainCtx.acted, running, Option.some.injEq, reduceCtorEq, false_implies,
        implies_true, iff_true]
      intro k mine later
      exact absent k mine (rekeys k later)

/-- **When the broker's endpoints stay its own.** In every run whose REGI
messages carry terminated svcnames free of `'%'`, the open sockets are bound to
pairwise different paths throughout if and only if SEND never acts on a create
notification for a service named like a socket of RECV or MGNT. -/
theorem endpoints_distinct_iff (host : Host) (acts : List Act) (plain : ∀ a ∈ acts, a.PlainSvcname) :
    (machine host).Always (fun _ s => s.Distinct) acts ↔ (machine host).EveryStep SparesReserved acts := by
  apply Machine.always_iff_everyStep (fun _ s => s.Ok ∧ Listens host s) (fun _ s => s.Distinct) SparesReserved
    Act.PlainSvcname plain
  · exact ⟨init_ok host, init_listens host⟩
  · exact init_distinct host
  · rintro tr s a t out ⟨ok, listens⟩ plain step
    obtain ⟨moves, ok'⟩ := ok.step_moves step
    exact ⟨ok', moves.listens plain listens⟩
  · rintro tr s a t out ⟨ok, listens⟩ distinct plain step
    exact (ok.step_moves step).1.distinct_iff plain listens distinct

/-- A service registers under the name of RECV's socket. -/
def registerPull : List Act :=
  [.mgnt (.regi 0 424 (Mgnt.record "a" "PULL")), .pipe .sendTake, .pipe (.sendRun ⟨0, 0, 0⟩)]

private theorem registerPull_plain : ∀ a ∈ registerPull, a.PlainSvcname := by
  intro a member
  fin_cases member
  · exact ⟨by decide, by decide⟩
  · trivial
  · trivial

set_option maxRecDepth 20000 in
private theorem registerPull_shared : ¬ (machine .bare).Always (fun _ s => s.Distinct) registerPull := by
  intro always
  have run : (machine .bare).Runs registerPull _ _ := rfl
  have distinct := always registerPull [] (List.append_nil _).symm _ _ run
  exact absurd distinct (by unfold Distinct; decide)

theorem endpoints_distinct_iff_pull : ¬ (machine .bare).EveryStep SparesReserved registerPull := by
  intro spared
  exact registerPull_shared ((endpoints_distinct_iff .bare registerPull registerPull_plain).mpr spared)

/-- SEND binds a second socket to the path RECV listens on. -/
theorem endpoints_shared : ¬ ∀ host acts, (∀ a ∈ acts, a.PlainSvcname) →
    (machine host).Always (fun _ s => s.Distinct) acts := by
  intro distinct
  exact registerPull_shared (distinct .bare registerPull registerPull_plain)

end MainCtx

end MsaBroker
