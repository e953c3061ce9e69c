import MsaBroker.BrokerRuns
import MsaBroker.Verdict

/-! Where a relay may send. SEND keeps its own ROUTER socket in the table of the
services, under a name a client can put into `dest`; a relay to a service looks
its socket up by that name and not by its type. -/
namespace MsaBroker
open CMemory

variable {host : Host}

/-- The tables SEND can have: the one it starts with, and what notifications of
plain svcnames make of it, whatever sockets the process has by then. -/
inductive SendTable (host : Host) : List (Element ZsockCtx) → Prop
  | started (net : Net) : SendTable host (initializeThread host .trSend net).2
  | acted {llist : List (Element ZsockCtx)} (net : Net) (n : Notification) (plain : 37 ∉ n.svc)
      (table : SendTable host llist) : SendTable host (n.run host net llist).2

/-- The frames handed to `zmq_send`, each with the socket it was handed for. -/
def framesOf (obs : List Obs) : List (ZsockCtx × Frame) :=
  obs.filterMap fun
    | .zmqSend _ zsockCtx frame _ => some (zsockCtx, frame)
    | _ => none

/-- What a route allows: the PUSH socket of `dest`; or the ROUTER socket, behind
the identity `dest`; or nothing. -/
def Isolated (route : UInt32) (dest : Bytes) (frames : List (ZsockCtx × Frame)) : Prop :=
  if route = zmsgRouteSvc then ∀ f ∈ frames, f.1.type = .push ∧ f.1.myKey = dest
  else if route = zmsgRouteInst then
    frames = [] ∨ ∃ router rest, frames = (router, .identity dest) :: rest ∧ router.type = .router ∧
      ∀ f ∈ rest, f.1 = router
  else frames = []

/-! ## The table -/

/-- What holds of every table SEND can have. -/
structure SendInv (l : List (Element ZsockCtx)) : Prop where
  sorted : ElemSorted l
  pushOnly : PushOnly l
  router : ∃ e, getElement (ascii "ROUTER") l = some e ∧ e.data.type = .router
  named : ∀ e ∈ l, e.data.myKey = e.key

theorem SendTable.inv {l : List (Element ZsockCtx)} (table : SendTable host l) : SendInv l := by
  induction table with
  | started net =>
    have entry : (initializeThread host .trSend net).2 =
        [⟨ascii "ROUTER", ascii "ROUTER", .router, zsockIpcPath host (ascii "ROUTER"), net.next⟩] := rfl
    rw [entry]
    exact ⟨List.pairwise_singleton _ _, by simp [PushOnly], ⟨_, rfl, rfl⟩, by simp⟩
  | acted net n plain table inv =>
    obtain ⟨e, found, isRouter⟩ := inv.router
    cases n with
    | create appls =>
      refine ⟨addZsockToList_sorted inv.sorted, addZsockToList_pushOnly inv.pushOnly,
        ⟨e, addZsockToList_keeps inv.sorted found, isRouter⟩, ?_⟩
      have text : formatText host.printfUndef appls.svcnameStr = appls.svcnameStr := formatText_of_plain _ plain
      rcases addZsockToList_cases host appls.svcnameStr .push net _ with same | added
      · rw [Notification.run, same]
        exact inv.named
      · intro entry member
        rcases List.mem_cons.mp ((addElement_perm added).mem_iff.mp member) with rfl | earlier
        · rfl
        · exact inv.named entry earlier
    | remove appls =>
      have notPush : e.data.type ≠ .push := by rw [isRouter]; decide
      refine ⟨delZsockFromList_sorted inv.sorted, delZsockFromList_pushOnly inv.pushOnly,
        ⟨e, delZsockFromList_keeps inv.sorted found notPush, isRouter⟩, ?_⟩
      exact fun entry member => inv.named entry (delZsockFromList_sublist.mem member)

section Runs

variable {p p' : Pipeline} {a : Pipeline.Act} {obs trace : List Obs} {acts : List Pipeline.Act}

/-- A step that posts nothing but a plain svcname. -/
theorem moves_sendTable (moves : Pipeline.Moves host trace p a p' obs) (posted : ∀ n, a = .post n → 37 ∉ n.svc)
    (queued : ∀ n ∈ p.notifications, 37 ∉ n.svc) (table : SendTable host p.zsockLlist) :
    (∀ n ∈ p'.notifications, 37 ∉ n.svc) ∧ SendTable host p'.zsockLlist := by
  by_cases post : ∃ n, a = .post n
  · obtain ⟨n, rfl⟩ := post
    cases moves
    refine ⟨fun m member => ?_, table⟩
    rw [Pipeline.notifications_eventBaseOnce] at member
    rcases List.mem_append.mp member with earlier | last
    · exact queued m earlier
    · rw [List.mem_singleton.mp last]
      exact posted n rfl
  · have notified := moves.notified fun n same => post ⟨n, same⟩
    cases acted : p.acted a with
    | none =>
      rw [acted] at notified
      obtain ⟨notifications, llist, -⟩ := notified
      rw [notifications, llist]
      exact ⟨queued, table⟩
    | some n =>
      rw [acted] at notified
      obtain ⟨notifications, acting⟩ := notified
      have llist : p'.zsockLlist = (n.run host p.net p.zsockLlist).2 := congrArg Prod.snd acting
      rw [notifications] at queued
      rw [llist]
      exact ⟨fun m later => queued m (List.mem_cons_of_mem n later),
        .acted p.net n (queued n List.mem_cons_self) table⟩

/-- Every table of a run in which only plain svcnames are posted is one of them. -/
theorem runs_sendTable (run : (Pipeline.machine host).Runs acts p trace)
    (plain : ∀ n, .post n ∈ acts → 37 ∉ n.svc) : SendTable host p.zsockLlist := by
  refine (run.invariant
    (fun tr p => p.Inv tr ∧ (∀ n ∈ p.notifications, 37 ∉ n.svc) ∧ SendTable host p.zsockLlist)
    (fun a => ∀ n, a = .post n → 37 ∉ n.svc) ?_ ?_ ?_).2.2
  · rintro a taken n rfl
    exact plain n taken
  · have nothing : (Pipeline.init host).notifications = [] := rfl
    exact ⟨Pipeline.init_inv host, nothing ▸ List.forall_mem_nil _, .started ⟨0, []⟩⟩
  · rintro tr p a p' obs ⟨inv, queued, table⟩ posted step
    have moves := inv.step_moves step
    exact ⟨moves.inv inv, moves_sendTable moves posted queued table⟩

end Runs

/-! ## The frames -/

variable {p : Pipeline} {r : CtxRef} {i : Nat} {res : SendRes} {target : Option Target} {cb : Callback} {ctx : MsgCtx}

theorem framesOf_append (before after : List Obs) : framesOf (before ++ after) = framesOf before ++ framesOf after :=
  List.filterMap_append

/-- A relay's frames are those of its attempt on the target. -/
theorem framesOf_relay : framesOf (evsockPushRelay host r i res p).2 =
    framesOf (relayAttempt host (.pushRelay r i) r (p.pool.read r)
      (relayTarget (p.pool.read r).head (relayDest host p r) p.zsockLlist) res) := by
  by_cases verdict : relayVerdict (p.pool.read r).head (relayDest host p r) p.zsockLlist res = .ok
  · rw [evsockPushRelay_ok host verdict, framesOf_append]
    simp [framesOf]
  · rw [evsockPushRelay_refused host verdict, framesOf_append]
    simp [framesOf]

/-- To a service: the header first, and all to that socket. -/
theorem framesOf_service (host : Host) (cb : Callback) (r : CtxRef) (ctx : MsgCtx) (zsockCtx : ZsockCtx)
    (res : SendRes) :
    ∃ rest, framesOf (relayAttempt host cb r ctx (some ⟨zsockCtx, none⟩) res) = (zsockCtx, .head ctx.head) :: rest ∧
      ∀ f ∈ rest, f.1 = zsockCtx := by
  obtain ⟨routeRes, headRes, bodyRes⟩ := res
  by_cases head : headRes < 0 <;> by_cases body : bodyRes < 0 <;>
    simp [relayAttempt, relayTo, serviceRelay, msgRelay, handing, framesOf, head, body]

/-- To the router: the identity first, and all to that socket. -/
theorem framesOf_router (host : Host) (cb : Callback) (r : CtxRef) (ctx : MsgCtx) (zsockCtx : ZsockCtx)
    (uuid : Bytes) (res : SendRes) :
    ∃ rest, framesOf (relayAttempt host cb r ctx (some ⟨zsockCtx, some uuid⟩) res) =
      (zsockCtx, .identity uuid) :: rest ∧ ∀ f ∈ rest, f.1 = zsockCtx := by
  obtain ⟨routeRes, headRes, bodyRes⟩ := res
  by_cases route : routeRes < 0
  · exact ⟨[], by simp [relayAttempt, relayTo, routerRelay, framesOf, route], by simp⟩
  · obtain ⟨rest, frames, same⟩ := framesOf_service host cb r ctx zsockCtx ⟨routeRes, headRes, bodyRes⟩
    refine ⟨(zsockCtx, .head ctx.head) :: rest, ?_, ?_⟩
    · rw [← frames]
      simp [relayAttempt, relayTo, routerRelay, serviceRelay, framesOf, handing, route]
    · intro f member
      rcases List.mem_cons.mp member with rfl | later
      · rfl
      · exact same f later

/-! ## The law -/

/-- To a service of another name than the router's, only that service's socket. -/
private theorem isolated_service {name : Bytes} {l : List (Element ZsockCtx)} (inv : SendInv l)
    (svc : ctx.head.route = zmsgRouteSvc) (other : name ≠ ascii "ROUTER") :
    Isolated ctx.head.route name (framesOf (relayAttempt host cb r ctx (relayTarget ctx.head name l) res)) := by
  rw [Isolated, if_pos svc]
  cases found : getElement name l with
  | none => simp [relayTarget, svc, found, relayAttempt, framesOf]
  | some e =>
    obtain ⟨member, key⟩ := getElement_some found
    have socket : e.data.type = .push ∧ e.data.myKey = name :=
      ⟨inv.pushOnly e member (key ▸ other), (inv.named e member).trans key⟩
    obtain ⟨rest, frames, same⟩ := framesOf_service host cb r ctx e.data res
    have target : relayTarget ctx.head name l = some ⟨e.data, none⟩ := by simp [relayTarget, svc, found]
    rw [target, frames]
    intro f sent
    rcases List.mem_cons.mp sent with rfl | later
    · exact socket
    · rw [same f later]
      exact socket

/-- To a service of the router's name, the header is the router's identity
frame. -/
private theorem not_isolated_router {l : List (Element ZsockCtx)} (inv : SendInv l)
    (svc : ctx.head.route = zmsgRouteSvc) :
    ¬ Isolated ctx.head.route (ascii "ROUTER")
      (framesOf (relayAttempt host cb r ctx (relayTarget ctx.head (ascii "ROUTER") l) res)) := by
  obtain ⟨e, found, isRouter⟩ := inv.router
  obtain ⟨rest, frames, -⟩ := framesOf_service host cb r ctx e.data res
  have target : relayTarget ctx.head (ascii "ROUTER") l = some ⟨e.data, none⟩ := by
    simp [relayTarget, svc, found]
  rw [Isolated, if_pos svc, target, frames]
  intro isolated
  obtain ⟨push, -⟩ := isolated _ List.mem_cons_self
  rw [isRouter] at push
  cases push

/-- Any other route goes to the router, behind the identity, or nowhere. -/
private theorem isolated_otherwise {name : Bytes} {l : List (Element ZsockCtx)} (inv : SendInv l)
    (notSvc : ctx.head.route ≠ zmsgRouteSvc) :
    Isolated ctx.head.route name (framesOf (relayAttempt host cb r ctx (relayTarget ctx.head name l) res)) := by
  rw [Isolated, if_neg notSvc]
  by_cases inst : ctx.head.route = zmsgRouteInst
  · obtain ⟨e, found, isRouter⟩ := inv.router
    obtain ⟨rest, frames, same⟩ := framesOf_router host cb r ctx e.data name res
    have target : relayTarget ctx.head name l = some ⟨e.data, some name⟩ := by
      simp [relayTarget, inst, zmsgRouteInst_ne_zmsgRouteSvc, found]
    rw [if_pos inst, target]
    exact .inr ⟨e.data, rest, frames, isRouter, same⟩
  · rw [if_neg inst]
    simp [relayTarget, notSvc, inst, relayAttempt, framesOf]

/-- **Routing isolation, and its one exception.** Whatever services came and
went, a relay stays on the sockets its route allows, unless it is to a service
of the name under which SEND keeps its router. -/
theorem relay_isolated_iff (table : SendTable host p.zsockLlist)
    (terminated : (p.pool.read r).head.dest.Terminated) :
    Isolated (p.pool.read r).head.route (cstr (p.pool.read r).head.dest.bytes)
        (framesOf (evsockPushRelay host r i res p).2) ↔
      ¬ ((p.pool.read r).head.route = zmsgRouteSvc ∧ cstr (p.pool.read r).head.dest.bytes = ascii "ROUTER") := by
  have inv := table.inv
  have dest : relayDest host p r = cstr (p.pool.read r).head.dest.bytes :=
    Envelop.destStr_of_terminated terminated _
  rw [framesOf_relay, dest]
  by_cases svc : (p.pool.read r).head.route = zmsgRouteSvc
  · by_cases router : cstr (p.pool.read r).head.dest.bytes = ascii "ROUTER"
    · rw [router]
      exact iff_of_false (not_isolated_router inv svc) fun other => other ⟨svc, rfl⟩
    · exact iff_of_true (isolated_service inv svc router) fun both => router both.2
  · exact iff_of_true (isolated_otherwise inv svc) fun both => svc both.1

/-- The header of a message for a service. -/
def forService (svcname : Bytes) : Envelop :=
  { Envelop.zero with
    type := zmsgTraffic, route := zmsgRouteSvc, nBytes := 1, dest := (Buf.zero _).snprintf svcname }

theorem forService_terminated (svcname : Bytes) : (forService svcname).dest.Terminated :=
  Buf.snprintf_terminated _ _ zmsgCommStrlen_pos

theorem forService_dest {svcname : Bytes} (text : 0 ∉ svcname) (fits : svcname.length < zmsgCommStrlen) :
    cstr (forService svcname).dest.bytes = svcname := by
  have whole : svcname.take 127 = svcname := List.take_of_length_le (Nat.le_of_lt_succ fits)
  have stored := Buf.cstr_snprintf (Buf.zero zmsgCommStrlen) [] zmsgCommStrlen_pos text
  simpa [forService, whole] using stored

/-- The record of an instance of the service `a`. -/
def applsOfA : ApplsCtx := { ApplsCtx.zero with svcname := (Buf.zero _).snprintf (ascii "a") }

/-- SEND after the service `a` was registered, with a message for the service
`a` in the first slot. -/
def takenForA : Pipeline := (evsockPushCreate .bare applsOfA (.init .bare)).setHead (.slot 0) (forService (ascii "a"))

theorem relay_isolated_iff_registered :
    Isolated zmsgRouteSvc (cstr (forService (ascii "a")).dest.bytes)
      (framesOf (evsockPushRelay .bare (.slot 0) 0 ⟨0, 0, 0⟩ takenForA).2) := by
  have started : SendTable .bare (Pipeline.init .bare).zsockLlist := .started ⟨0, []⟩
  have table : SendTable .bare takenForA.zsockLlist :=
    .acted (Pipeline.init .bare).net (.create applsOfA) (by decide) started
  apply (relay_isolated_iff table (r := .slot 0) (forService_terminated _)).mpr
  rintro ⟨-, router⟩
  have name : cstr (forService (ascii "a")).dest.bytes = ascii "a" := forService_dest (by decide) (by decide)
  have same : ascii "a" = ascii "ROUTER" := name.symm.trans router
  revert same
  decide

/-- SEND with a message for the service `ROUTER` in the first slot. -/
def takenForRouter : Pipeline := (Pipeline.init .bare).setHead (.slot 0) (forService (ascii "ROUTER"))

/-- A client writes the router's name into `dest`: the header itself is sent to
the router, where an identity frame belongs. -/
theorem header_as_identity :
    SendTable .bare takenForRouter.zsockLlist ∧
      (takenForRouter.pool.read (.slot 0)).head = forService (ascii "ROUTER") ∧
      (forService (ascii "ROUTER")).dest.Terminated ∧
      ¬ Isolated zmsgRouteSvc (cstr (forService (ascii "ROUTER")).dest.bytes)
        (framesOf (evsockPushRelay .bare (.slot 0) 0 ⟨0, 0, 0⟩ takenForRouter).2) := by
  have table : SendTable .bare takenForRouter.zsockLlist := .started ⟨0, []⟩
  have held : (takenForRouter.pool.read (.slot 0)).head = forService (ascii "ROUTER") := rfl
  have name : cstr (forService (ascii "ROUTER")).dest.bytes = ascii "ROUTER" := forService_dest (by decide) (by decide)
  refine ⟨table, held, forService_terminated _, ?_⟩
  have dest : relayDest .bare takenForRouter (.slot 0) = ascii "ROUTER" := by
    rw [relayDest, held, Envelop.destStr_of_terminated (forService_terminated _), name]
  rw [framesOf_relay, name, dest]
  exact not_isolated_router table.inv (congrArg Envelop.route held)

end MsaBroker
