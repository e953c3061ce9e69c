import Mathlib.Data.List.Dedup
import Mathlib.Data.List.Perm.Basic
import MsaBroker.BrokerRuns
import MsaBroker.Lib.Lease

/-! MGNT and SEND agree on the services. MGNT never stores the set of services
and SEND never sees the registry; what ties them together is the queue of
notifications. A service's notifications are the uses of one socket: a create
acquires it and a remove releases it. MGNT keeps every such life in order and
live exactly while the service is offered, and SEND's table is what the lives
come to once the notifications it has acted on are read. -/
namespace MsaBroker
open CMemory Lease

/-! ## The life of a service -/

def Notification.use : Notification → Use
  | .create _ => .acquire
  | .remove _ => .release

/-- The notifications about one service, as uses of its socket. -/
def lifeOf (svc : Bytes) (ns : List Notification) : List Use :=
  (ns.filter fun n => n.svc = svc).map Notification.use

variable {svc key : Bytes} {svcOf : Bytes → Bytes} {ns past : List Notification} {n : Notification}

theorem lifeOf_append (svc : Bytes) (ns₁ ns₂ : List Notification) :
    lifeOf svc (ns₁ ++ ns₂) = lifeOf svc ns₁ ++ lifeOf svc ns₂ := by
  simp [lifeOf]

theorem lifeOf_snoc (svc : Bytes) (ns : List Notification) (n : Notification) :
    lifeOf svc (ns ++ [n]) = lifeOf svc ns ++ if n.svc = svc then [n.use] else [] := by
  rw [lifeOf_append]
  by_cases mine : n.svc = svc <;> simp [lifeOf, mine]

theorem touch_notMem_lifeOf : .touch ∉ lifeOf svc ns := by
  simp only [lifeOf, List.mem_map, not_exists, not_and]
  rintro n -
  cases n <;> simp [Notification.use]

theorem lifeOf_eq_nil (others : ∀ n ∈ ns, n.svc ≠ svc) : lifeOf svc ns = [] := by
  simpa [lifeOf] using others

/-- A name that is its own text as a format, and is not that of the router's
entry. -/
def PlainName (svc : Bytes) : Prop := 37 ∉ svc ∧ svc ≠ ascii "ROUTER"

instance (svc : Bytes) : Decidable (PlainName svc) := inferInstanceAs (Decidable (_ ∧ _))

/-! ## MGNT announces what its registry offers -/

namespace Mgnt

variable {reg reg' : Registry} {a : Act} {posts out : List Post}

/-- What the clients promise about the message of a step: terminated names, a
plain svcname, and the same one under every uuid each time. -/
def Act.Promised (svcOf : Bytes → Bytes) : Act → Prop
  | .regi _ nBytes appls => nBytes.toInt = sizeofApplsCtx →
      appls.uuid.Terminated ∧ appls.svcname.Terminated ∧ PlainName appls.svcnameStr ∧
        appls.svcnameStr = svcOf appls.uuidStr
  | .sweepStart | .visit _ => True

/-- The record stored under a uuid carries the svcname promised for it. -/
def Registered (svcOf : Bytes → Bytes) (e : Element ApplsCtx) : Prop := e.svc = svcOf e.key ∧ PlainName e.svc

theorem Act.Promised.stores (promised : a.Promised svcOf) : a.Stores (Registered svcOf) := by
  cases a with
  | sweepStart => trivial
  | visit now => trivial
  | regi now nBytes appls =>
    intro size
    obtain ⟨uuid, svcname, plain, same⟩ := promised size
    have stored := ApplsCtx.setTimestamp_svcnameStr now svcname
    constructor
    · exact stored.trans (same.trans (congrArg svcOf (ApplsCtx.setTimestamp_uuidStr now uuid).symm))
    · exact (congrArg PlainName stored).mpr plain

/-- The creates and removes posted so far, read against the registry. -/
structure Announced (svcOf : Bytes → Bytes) (posts : List Post) (reg : Registry) : Prop where
  records : ∀ e ∈ reg.list, Registered svcOf e
  /-- A service is live exactly while it is offered. -/
  live : ∀ svc, svc ≠ [] →
    track false (lifeOf svc (posts.map Post.notification)) = some (decide (Offers reg svc))
  /-- So it was right after each record that caused a notification. -/
  snapshots : ∀ front post back, posts = front ++ post :: back → ∀ svc, svc ≠ [] →
    track false (lifeOf svc ((front ++ [post]).map Post.notification)) =
      some (decide (∃ e ∈ post.list, e.svc = svc))
  named : ∀ post ∈ posts, post.notification.svc ≠ [] ∧ PlainName post.notification.svc

/-- A uuid that keeps its svcname never takes a service away by registering
again. -/
theorem keepsServices_of_promised (records : ∀ e ∈ reg.list, Registered svcOf e)
    (promised : a.Promised svcOf) : KeepsServices reg a := by
  cases a with
  | sweepStart => trivial
  | visit now => trivial
  | regi now nBytes appls =>
    intro old size known svc changed
    have found := getElement_some known
    refine absurd ?_ changed
    calc old.svc = svcOf old.key := (records old found.1).1
      _ = svcOf (appls.setTimestamp now).uuidStr := by rw [found.2]
      _ = svc := (promised.stores size).1.symm

/-- What a shift posts continues every service's life to what is offered now. -/
theorem Shift.live (shift : Shift reg reg' out) (named : svc ≠ [])
    (live : track false (lifeOf svc ns) = some (decide (Offers reg svc))) :
    track false (lifeOf svc (ns ++ out.map Post.notification)) = some (decide (Offers reg' svc)) := by
  cases shift with
  | same offered => simpa [offered svc named] using live
  | gained appls _ absent offered =>
    rw [List.map_singleton, lifeOf_snoc, track_append, live]
    by_cases mine : appls.svcnameStr = svc
    · subst mine
      simp [absent, Notification.svc, Notification.appls, Notification.use, track, offered _ named]
    · simp [mine, Notification.svc, Notification.appls, track, offered _ named]
  | lost appls _ present offered =>
    rw [List.map_singleton, lifeOf_snoc, track_append, live]
    by_cases mine : appls.svcnameStr = svc
    · subst mine
      simp [present, Notification.svc, Notification.appls, Notification.use, track, offered _ named]
    · simp [mine, Notification.svc, Notification.appls, track, offered _ named]

/-- A shift posts at most one notification, with the registry as it is after. -/
theorem Shift.posted (shift : Shift reg reg' out) : out = [] ∨
    ∃ post, out = [post] ∧ post.list = reg'.list ∧ post.notification.svc ≠ [] := by
  cases shift with
  | same offered => exact .inl rfl
  | gained appls named absent offered => exact .inr ⟨_, rfl, rfl, named⟩
  | lost appls named present offered => exact .inr ⟨_, rfl, rfl, named⟩

theorem Moves.announced (moves : Moves reg a reg' out) (promised : a.Promised svcOf)
    (announced : Announced svcOf posts reg) : Announced svcOf (posts ++ out) reg' := by
  have records := moves.records promised.stores announced.records
  have copied := moves.posted_record promised.stores announced.records
  have shift := moves.shift (keepsServices_of_promised announced.records promised)
  have live (svc : Bytes) (named : svc ≠ []) :
      track false (lifeOf svc ((posts ++ out).map Post.notification)) = some (decide (Offers reg' svc)) := by
    rw [List.map_append]
    exact shift.live named (announced.live svc named)
  rcases shift.posted with rfl | ⟨post, rfl, list, named⟩
  · refine ⟨records, live, ?_, ?_⟩
    · simpa using announced.snapshots
    · simpa using announced.named
  · refine ⟨records, live, ?_, ?_⟩
    · intro front last back split svc named
      rcases List.eq_nil_or_concat back with rfl | ⟨back, end_, rfl⟩
      · obtain ⟨rfl, same⟩ := List.append_inj' split rfl
        cases same
        rw [list]
        exact live svc named
      · have whole : posts ++ [post] = (front ++ last :: back) ++ [end_] := by simpa using split
        exact announced.snapshots front last back (List.append_inj' whole rfl).1 svc named
    · intro other member
      rcases List.mem_append.mp member with earlier | now
      · exact announced.named other earlier
      · obtain rfl := List.mem_singleton.mp now
        obtain ⟨e, ⟨-, plain⟩, copy⟩ := copied other now
        refine ⟨named, ?_⟩
        rwa [Notification.svc, ← copy]

end Mgnt

/-! ## SEND's table is what the notifications come to -/

/-- The entry SEND should hold under a key once it has acted on these: the
router's, and a PUSH socket for every service that is live. -/
def entryType (past : List Notification) (key : Bytes) : Option ZmqType :=
  if key = ascii "ROUTER" then some .router
  else if track false (lifeOf key past) = some true then some .push
  else none

structure Follows (past : List Notification) (llist : List (Element ZsockCtx)) : Prop where
  sorted : ElemSorted llist
  entry : ∀ key, (getElement key llist).map (·.data.type) = entryType past key

/-- SEND acts on the notification without an early return: the name it is to add
is not there yet, or the one it is to delete is there and of type PUSH. -/
def Clean (n : Notification) (llist : List (Element ZsockCtx)) : Prop :=
  match n with
  | .create appls => getElement appls.svcnameStr llist = none
  | .remove appls => ∃ elem, getElement appls.svcnameStr llist = some elem ∧ elem.data.type = .push

/-- One notification only changes the entry of its own service. -/
theorem entryType_snoc (plain : PlainName n.svc) : entryType (past ++ [n]) key =
    if n.svc = key then if track false (lifeOf key (past ++ [n])) = some true then some .push else none
    else entryType past key := by
  by_cases mine : n.svc = key
  · subst mine
    simp [entryType, plain.2]
  · simp [entryType, lifeOf_snoc, mine]

section Send
variable {llist : List (Element ZsockCtx)} {live : Bool}

theorem Follows.acted (host : Host) (net : Net) (follows : Follows past llist) (plain : PlainName n.svc)
    (tracked : track false (lifeOf n.svc (past ++ [n])) = some live) :
    Clean n llist ∧ Follows (past ++ [n]) (n.run host net llist).2 := by
  have next := tracked
  rw [lifeOf_snoc, if_pos rfl, track_append] at next
  obtain ⟨held, before, use⟩ := Option.bind_eq_some_iff.mp next
  have own : (getElement n.svc llist).map (·.data.type) = if held then some .push else none := by
    rw [follows.entry, entryType, if_neg plain.2, before]
    cases held <;> rfl
  -- Every other entry stays as it was, and so does what it should be.
  have entries {llist' : List (Element ZsockCtx)}
      (mine : (getElement n.svc llist').map (·.data.type) = if live then some .push else none)
      (others : ∀ key, n.svc ≠ key → getElement key llist' = getElement key llist) (key : Bytes) :
      (getElement key llist').map (·.data.type) = entryType (past ++ [n]) key := by
    rw [entryType_snoc plain]
    by_cases same : n.svc = key
    · subst same
      rw [mine, if_pos rfl, tracked]
      cases live <;> rfl
    · rw [others key same, if_neg same, follows.entry]
  cases n with
  | create appls =>
    obtain ⟨rfl, rfl⟩ : held = false ∧ live = true := by
      cases held <;> simp_all [Notification.use, track]
    have absent : getElement appls.svcnameStr llist = none := Option.map_eq_none_iff.mp own
    refine ⟨absent, ?_⟩
    have plainName : 37 ∉ appls.svcnameStr := plain.1
    obtain ⟨llist', added, result⟩ := addZsockToList_absent host .push net follows.sorted plainName absent
    rw [Notification.run, result]
    refine ⟨addElement_sorted follows.sorted added, entries ?_ fun key other => ?_⟩
    · simp [getElement_addElement follows.sorted added, Notification.svc, Notification.appls, newZsock]
    · rw [getElement_addElement follows.sorted added, if_neg (show appls.svcnameStr ≠ key from other)]
  | remove appls =>
    obtain ⟨rfl, rfl⟩ : held = true ∧ live = false := by
      cases held <;> simp_all [Notification.use, track]
    obtain ⟨elem, found, type⟩ : ∃ elem, getElement appls.svcnameStr llist = some elem ∧ elem.data.type = .push :=
      Option.map_eq_some_iff.mp own
    refine ⟨⟨elem, found, type⟩, ?_⟩
    have result : (Notification.run host (.remove appls) net llist).2 = remElement appls.svcnameStr llist := by
      simp [Notification.run, delZsockFromList, found, type]
    rw [result]
    refine ⟨remElement_sorted follows.sorted, entries ?_ fun key other => ?_⟩
    · simp [getElement_remElement follows.sorted, Notification.svc, Notification.appls]
    · rw [getElement_remElement follows.sorted, if_neg (show appls.svcnameStr ≠ key from other)]

end Send

/-- The registry right after the record that caused the `k`-th notification was
added or removed; empty before the first. -/
def snapshot (posts : List Post) : Nat → List (Element ApplsCtx)
  | 0 => []
  | k + 1 => (posts[k]?.map Post.list).getD []

/-- The non-empty svcnames of a registry, each once. -/
def services (list : List (Element ApplsCtx)) : List Bytes :=
  ((list.map Element.svc).filter (· ≠ [])).dedup

theorem mem_services {list : List (Element ApplsCtx)} :
    svc ∈ services list ↔ svc ≠ [] ∧ ∃ e ∈ list, e.svc = svc := by
  simp [services, and_comm]

theorem Mgnt.Announced.named_before {posts : List Post} {reg : Registry} {rest : List Notification}
    (announced : Announced svcOf posts reg) (split : posts.map Post.notification = past ++ rest) :
    ∀ n ∈ past, n.svc ≠ [] ∧ PlainName n.svc := by
  intro n member
  have posted : n ∈ posts.map Post.notification := split ▸ List.mem_append_left _ member
  obtain ⟨post, found, rfl⟩ := List.mem_map.mp posted
  exact announced.named post found

/-- A prefix of the notifications leaves live what was offered at its end. -/
theorem Mgnt.Announced.live_after {posts : List Post} {reg : Registry} {rest : List Notification}
    (announced : Announced svcOf posts reg) (split : posts.map Post.notification = past ++ rest)
    (svc : Bytes) :
    track false (lifeOf svc past) = some true ↔ svc ∈ services (snapshot posts past.length) := by
  rw [mem_services]
  by_cases named : svc = []
  · subst named
    have unused := lifeOf_eq_nil fun n member => (announced.named_before split n member).1
    simp [unused, track]
  · rcases List.eq_nil_or_concat past with rfl | ⟨front, n, rfl⟩
    · simp [lifeOf, track, snapshot]
    · obtain ⟨before, after, rfl, first, -⟩ := List.map_eq_append_iff.mp split
      obtain ⟨earlier, last, rfl, same, one⟩ := List.map_eq_append_iff.mp (first.trans List.concat_eq_append)
      obtain ⟨post, rfl, rfl⟩ := List.map_eq_singleton_iff.mp one
      have live := announced.snapshots earlier post after (by simp) svc named
      rw [first] at live
      have here : snapshot (earlier ++ [post] ++ after) (front.concat post.notification).length = post.list := by
        simp [← same, snapshot]
      rw [live, here]
      simp [named]

/-- The table is the one for the services of the registry as it was when MGNT
posted the last notification SEND has acted on. -/
theorem Follows.table {posts : List Post} {reg : Registry} {rest : List Notification}
    {llist : List (Element ZsockCtx)} (follows : Follows past llist)
    (announced : Mgnt.Announced svcOf posts reg) (split : posts.map Post.notification = past ++ rest) :
    (llist.map fun e => (e.key, e.data.type)).Perm
      ((ascii "ROUTER", .router) :: (services (snapshot posts past.length)).map (·, .push)) := by
  have entries (key : Bytes) (type : ZmqType) :
      (key, type) ∈ llist.map (fun e => (e.key, e.data.type)) ↔ entryType past key = some type := by
    rw [← follows.entry key]
    constructor
    · intro member
      obtain ⟨e, held, same⟩ := List.mem_map.mp member
      cases same
      simp [getElement_of_mem follows.sorted held]
    · intro found
      obtain ⟨e, held, rfl⟩ := Option.map_eq_some_iff.mp found
      obtain ⟨member, rfl⟩ := getElement_some held
      exact List.mem_map.mpr ⟨e, member, rfl⟩
  have notRouter : ascii "ROUTER" ∉ services (snapshot posts past.length) := by
    rw [← announced.live_after split, lifeOf_eq_nil fun n member => (announced.named_before split n member).2.2]
    simp [track]
  rw [List.perm_ext_iff_of_nodup]
  · rintro ⟨key, type⟩
    rw [entries, entryType]
    by_cases router : key = ascii "ROUTER"
    · subst router
      simp [notRouter, eq_comm]
    · by_cases live : key ∈ services (snapshot posts past.length)
      · simp [router, (announced.live_after split key).mpr live, live, eq_comm]
      · simp [router, announced.live_after split key, live]
  · have distinct := follows.sorted.keys_nodup
    exact List.Nodup.of_map Prod.fst (by simpa [List.map_map, Function.comp_def] using distinct)
  · refine List.nodup_cons.mpr ⟨?_, ?_⟩
    · simp
    · exact (List.nodup_dedup _).map fun _ _ same => congrArg Prod.fst same

/-! ## The run -/

namespace MainCtx

variable {host : Host} {s t : MainCtx} {a : Act} {acts : List Act} {trace out : List Obs}

def Act.Promised (svcOf : Bytes → Bytes) : Act → Prop
  | .mgnt a => a.Promised svcOf
  | .pipe _ => True

/-- What the two threads are to each other in every state of a run. -/
structure Agrees (svcOf : Bytes → Bytes) (trace : List Obs) (s : MainCtx) : Prop where
  announced : Mgnt.Announced svcOf (posts trace) s.reg
  /-- SEND acts on the notifications in the order MGNT posted them. -/
  fifo : (posts trace).map Post.notification = done trace ++ s.pipe.notifications
  follows : Follows (done trace) s.pipe.zsockLlist
  clean : ∀ n llist, .acted n llist ∈ trace → Clean n llist

theorem posts_append (tr₁ tr₂ : List Obs) : posts (tr₁ ++ tr₂) = posts tr₁ ++ posts tr₂ :=
  List.filterMap_append

theorem done_append (tr₁ tr₂ : List Obs) : done (tr₁ ++ tr₂) = done tr₁ ++ done tr₂ :=
  List.filterMap_append

@[simp] theorem posts_posted (ps : List Post) : posts (ps.map .posted) = ps := by
  simp [posts, List.filterMap_map]

@[simp] theorem done_posted (ps : List Post) : done (ps.map .posted) = [] := by
  simp [done, List.filterMap_map]

@[simp] theorem posts_acted (n : Notification) (llist : List (Element ZsockCtx)) :
    posts [.acted n llist] = [] := rfl

@[simp] theorem done_acted (n : Notification) (llist : List (Element ZsockCtx)) :
    done [.acted n llist] = [n] := rfl

theorem init_agrees (host : Host) : Agrees svcOf [] (MainCtx.init host) := by
  have router : 37 ∉ ascii "ROUTER" := by decide
  obtain ⟨llist, added, result⟩ :=
    addZsockToList_absent host .router ⟨0, []⟩ (l := []) .nil router rfl
  have table : (MainCtx.init host).pipe.zsockLlist = llist := congrArg Prod.snd result
  refine ⟨⟨by simp [MainCtx.init, Registry.list], ?_, by simp [posts], by simp [posts]⟩, rfl, ?_, by simp⟩
  · intro svc named
    simp [posts, lifeOf, track, Mgnt.Offers, MainCtx.init, Registry.list]
  · rw [table]
    refine ⟨addElement_sorted .nil added, fun key => ?_⟩
    rw [getElement_addElement .nil added]
    by_cases here : key = ascii "ROUTER"
    · subst here
      simp [entryType, newZsock]
    · simp [entryType, here, Ne.symm here, getElement, done, lifeOf, track]

theorem Moves.agrees (moves : Moves host s a t out) (promised : a.Promised svcOf)
    (agrees : Agrees svcOf trace s) : Agrees svcOf (trace ++ out) t := by
  obtain ⟨announced, fifo, follows, clean⟩ := agrees
  cases moves with
  | @mgnt a reg ps moves =>
    obtain ⟨notifications, llist, -⟩ := postAll_same s.pipe ps
    refine ⟨?_, ?_, ?_, ?_⟩
    · rw [posts_append, posts_posted]
      exact moves.announced promised announced
    · simp [posts_append, done_append, fifo, notifications]
    · simpa [done_append, llist] using follows
    · intro n table member
      refine clean n table ?_
      simpa using member
  | quiet idle notifications llist net =>
    rw [List.append_nil]
    exact ⟨announced, notifications ▸ fifo, llist ▸ follows, clean⟩
  | @acted a pipe n _ next run =>
    have posted : n ∈ (posts trace).map Post.notification := by
      simp [fifo, next]
    obtain ⟨post, member, rfl⟩ := List.mem_map.mp posted
    obtain ⟨named, plain⟩ := announced.named post member
    have whole := announced.live _ named
    rw [fifo, next, ← List.singleton_append, ← List.append_assoc, lifeOf_append, track_append] at whole
    obtain ⟨live, tracked, -⟩ := Option.bind_eq_some_iff.mp whole
    have table : pipe.zsockLlist = (post.notification.run host s.pipe.net s.pipe.zsockLlist).2 :=
      congrArg Prod.snd run
    obtain ⟨cleanly, followed⟩ := follows.acted host s.pipe.net plain tracked
    refine ⟨?_, ?_, ?_, ?_⟩
    · rw [posts_append, posts_acted, List.append_nil]
      exact announced
    · simp [posts_append, done_append, fifo, next]
    · rw [table, done_append]
      exact followed
    · intro n table member
      rcases List.mem_append.mp member with earlier | now
      · exact clean n table earlier
      · cases List.mem_singleton.mp now
        exact cleanly

theorem runs_agrees (run : (machine host).Runs acts s trace) (promised : ∀ a ∈ acts, a.Promised svcOf) :
    Agrees svcOf trace s := by
  apply runs_invariant (Agrees svcOf) (Act.Promised svcOf) run promised (init_agrees host)
  intro tr s a t out _ agrees promised moves
  exact moves.agrees promised agrees

/-- The two threads' agreement, as an observer of the run can check it. -/
structure ServicesAgree (trace : List Obs) (s : MainCtx) : Prop where
  /-- The notifications about a service are create, remove, create, and so on. -/
  alternate : ∀ svc i n,
    (((posts trace).map Post.notification).filter fun n => n.svc = svc)[i]? = some n →
      (n.use = .acquire ↔ i % 2 = 0)
  named : ∀ post ∈ posts trace, post.notification.svc ≠ []
  /-- SEND acts on the notifications in the order they were posted. -/
  fifo : done trace <+: (posts trace).map Post.notification
  /-- SEND's table: the router's entry, and one PUSH entry for every service of
  the registry as it was when the last notification acted on was posted. -/
  table : (s.pipe.zsockLlist.map fun e => (e.key, e.data.type)).Perm
    ((ascii "ROUTER", .router) :: (services (snapshot (posts trace) (done trace).length)).map (·, .push))
  /-- No addition or removal came to an early return. -/
  clean : ∀ n llist, .acted n llist ∈ trace → Clean n llist

/-- **MGNT and SEND agree on the services.** However the REGI messages, the
sweeps and SEND's callbacks are interleaved and whatever the clocks read, as
long as every uuid registers under one plain svcname. -/
theorem services_agree (run : (machine host).Runs acts s trace)
    (promised : ∀ a ∈ acts, a.Promised svcOf) : ServicesAgree trace s := by
  obtain ⟨announced, fifo, follows, clean⟩ := runs_agrees run promised
  refine ⟨?_, fun post member => (announced.named post member).1, ⟨_, fifo.symm⟩,
    follows.table announced fifo, clean⟩
  intro svc i n found
  have used : (lifeOf svc ((posts trace).map Post.notification))[i]? = some n.use := by
    rw [lifeOf, List.getElem?_map, found, Option.map_some]
  have named : svc ≠ [] := by
    rintro rfl
    obtain ⟨member, mine⟩ := List.mem_filter.mp (List.mem_of_getElem? found)
    obtain ⟨post, posted, rfl⟩ := List.mem_map.mp member
    exact (announced.named post posted).1 (by simpa using mine)
  have turn := track_alternates (announced.live svc named) touch_notMem_lifeOf used
  simpa using turn

/-- Two instances of one service register, SEND lags behind, both expire, and a
third brings the service back. -/
def cameBack : List Act :=
  [.mgnt (.regi 0 424 (Mgnt.record "a" "x")), .mgnt (.regi 5 424 (Mgnt.record "b" "x")),
    .mgnt .sweepStart, .mgnt (.visit 20), .mgnt (.visit 20), .pipe .sendTake, .pipe (.sendRun ⟨0, 0, 0⟩),
    .mgnt (.regi 30 424 (Mgnt.record "c" "x")), .pipe .sendTake, .pipe (.sendRun ⟨0, 0, 0⟩)]

set_option maxRecDepth 20000 in
theorem services_agree_cameBack :
    ∃ s trace, (machine .bare).Runs cameBack s trace ∧ (done trace).length = 2 ∧
      (posts trace).length = 3 ∧ ServicesAgree trace s := by
  have promised : ∀ a ∈ cameBack, a.Promised fun _ => ascii "x" := by
    intro a member
    fin_cases member <;> first | trivial | exact fun _ => ⟨by decide, by decide, by decide, by decide⟩
  have run : (machine .bare).Runs cameBack _ _ := rfl
  exact ⟨_, _, run, rfl, rfl, services_agree run promised⟩

end MainCtx

end MsaBroker
