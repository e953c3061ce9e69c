import MsaBroker.Accounting
import MsaBroker.Parcels

/-! End to end, over every run of the broker with its clients: what a client
takes from its sockets is what some client sent to it, or its own message come
back; nothing comes twice, nothing overtakes, and nothing is forgotten. -/
namespace MsaBroker
open CMemory

namespace Network

variable {S : Site} {N N' : Network} {trace out : List Obs} {acts : List Pipeline.Act} {c d n i : Nat}
  {inlet : Inlet} {m : Message}

/-! ## The clients and their sockets -/

/-- A client as its own calls and the network left it. -/
structure Holds (S : Site) (c : Nat) (z : ZutilCtx) (dealer pull : List Parcel) : Prop where
  registered : z.regiBody.uuid.Terminated
  uuid : z.regiBody.uuidStr = S.uuid c
  sub : z.sub = ⟨[], []⟩
  dealer : z.dealer = ⟨[], dealer.map Parcel.msg⟩
  pull : z.pull = ⟨[], pull.map Parcel.msg⟩

section Client

variable {z z' : ZutilCtx} {dealer pull : List Parcel} {parcel : Parcel}

theorem uuidStr_of_same (registered : z.regiBody.uuid.Terminated) (same : z'.regiBody.uuid = z.regiBody.uuid) :
    z'.regiBody.uuid.Terminated ∧ z'.regiBody.uuidStr = z.regiBody.uuidStr := by
  have kept : z'.regiBody.uuid.Terminated := same ▸ registered
  refine ⟨kept, ?_⟩
  rw [ApplsCtx.uuidStr_of_terminated kept, ApplsCtx.uuidStr_of_terminated registered, same]

/-- Nothing a call does to the counters matters here. -/
theorem Holds.call (holds : Holds S c z dealer pull) (uuid : z'.regiBody.uuid = z.regiBody.uuid)
    (sockets : z'.sub = z.sub ∧ z'.dealer = z.dealer ∧ z'.pull = z.pull) : Holds S c z' dealer pull := by
  obtain ⟨sub, dealer, pull⟩ := sockets
  obtain ⟨registered, same⟩ := uuidStr_of_same holds.registered uuid
  exact ⟨registered, same.trans holds.uuid, sub.trans holds.sub, dealer.trans holds.dealer, pull.trans holds.pull⟩

theorem Holds.start (S : Site) (c : Nat) : Holds S c (S.start c).1 [] [] :=
  ⟨zutilInit_registered .., rfl, rfl, rfl, rfl⟩

theorem zutilSend_sockets (route : UInt32) (dest buff : Bytes) (size : Nat) (stamp : Option Bytes) (res : ZutilRes)
    (z : ZutilCtx) :
    (zutilSend route dest buff size stamp res z).2.1.sub = z.sub ∧
      (zutilSend route dest buff size stamp res z).2.1.dealer = z.dealer ∧
      (zutilSend route dest buff size stamp res z).2.1.pull = z.pull := by
  simp only [zutilSend]
  split_ifs <;> exact ⟨rfl, rfl, rfl⟩

theorem zutilRegi_sockets (now : Int64) (ctime : Bytes) (res : ZutilRes) (z : ZutilCtx) :
    (zutilRegi now ctime res z).1.sub = z.sub ∧ (zutilRegi now ctime res z).1.dealer = z.dealer ∧
      (zutilRegi now ctime res z).1.pull = z.pull := by
  unfold zutilRegi
  split <;> exact ⟨rfl, rfl, rfl⟩

/-- What `zutil_recv` shows of a message of two frames. -/
def Shown (msg : Message) (rc : Int32) (head : Envelop) (buff : Bytes) : Prop :=
  ∀ h body, msg = ⟨h.bytes, [body]⟩ → body.length ≤ maxMsgsizeByte →
    rc.toInt = body.length ∧ head = h ∧ buff.take body.length = body ∧ buff[body.length]? = some 0

/-- A call with nothing to receive. -/
theorem Holds.nothing (holds : Holds S c z [] []) (head : Envelop) (buff : Bytes) (size : Nat) :
    served z = none ∧ (zutilRecv head buff size z).2.2.2 = z := by
  simp [served, zutilRecv, holds.sub, holds.dealer, holds.pull, InSock.pollin]

/-- The DEALER socket comes first. -/
theorem Holds.from_dealer (holds : Holds S c z (parcel :: dealer) pull) (framed : Framed parcel.msg)
    (head : Envelop) {buff : Bytes} {size : Nat} (room : maxMsgsizeByte < size) (memory : size ≤ buff.length) :
    served z = some .dealer ∧
      Shown parcel.msg (zutilRecv head buff size z).1 (zutilRecv head buff size z).2.1
        (zutilRecv head buff size z).2.2.1 ∧
      Holds S c (zutilRecv head buff size z).2.2.2 dealer pull := by
  obtain ⟨h, body, msg, short⟩ := framed
  have waiting : z.dealer = ⟨[], ⟨h.bytes, [body]⟩ :: dealer.map Parcel.msg⟩ := by
    rw [holds.dealer, List.map_cons, msg]
  have empty : z.sub.pollin = false := by rw [holds.sub]; rfl
  have ready : z.dealer.pollin = true := by rw [waiting]; rfl
  refine ⟨by simp [served, empty, ready], fun h' body' same short' => ?_, ?_⟩
  · exact nextOnDealer_yields h' short' z head buff size ⟨empty, dealer.map Parcel.msg, by
      rw [holds.dealer, List.map_cons, same]⟩ (Nat.lt_of_le_of_lt short' room) memory
  · obtain ⟨registered, same⟩ := uuidStr_of_same holds.registered (zutilRecv_uuid head buff size z)
    have small : body.length ≤ 1024 := short
    have taken := zutilRecvFrom_sent h body (dealer.map Parcel.msg) head buff size (by omega)
    refine ⟨registered, same.trans holds.uuid, ?_, ?_, ?_⟩ <;> simp only [zutilRecv, empty, waiting, taken]
    · exact holds.sub
    · rfl
    · exact holds.pull

/-- The PULL socket is served where the DEALER socket has nothing. -/
theorem Holds.from_pull (holds : Holds S c z [] (parcel :: pull)) (framed : Framed parcel.msg)
    (head : Envelop) {buff : Bytes} {size : Nat} (room : maxMsgsizeByte < size) (memory : size ≤ buff.length) :
    served z = some .pull ∧
      Shown parcel.msg (zutilRecv head buff size z).1 (zutilRecv head buff size z).2.1
        (zutilRecv head buff size z).2.2.1 ∧
      Holds S c (zutilRecv head buff size z).2.2.2 [] pull := by
  obtain ⟨h, body, msg, short⟩ := framed
  have waiting : z.pull = ⟨[], ⟨h.bytes, [body]⟩ :: pull.map Parcel.msg⟩ := by
    rw [holds.pull, List.map_cons, msg]
  have empty : z.sub.pollin = false := by rw [holds.sub]; rfl
  have silent : z.dealer.pollin = false := by rw [holds.dealer]; rfl
  have ready : z.pull.pollin = true := by rw [waiting]; rfl
  refine ⟨by simp [served, empty, silent, ready], fun h' body' same short' => ?_, ?_⟩
  · exact nextOnPull_yields h' short' z head buff size ⟨empty, silent, pull.map Parcel.msg, by
      rw [holds.pull, List.map_cons, same]⟩ (Nat.lt_of_le_of_lt short' room) memory
  · obtain ⟨registered, same⟩ := uuidStr_of_same holds.registered (zutilRecv_uuid head buff size z)
    have small : body.length ≤ 1024 := short
    have taken := zutilRecvFrom_sent h body (pull.map Parcel.msg) head buff size (by omega)
    refine ⟨registered, same.trans holds.uuid, ?_, ?_, ?_⟩ <;>
      simp only [zutilRecv, empty, silent, waiting, taken]
    · exact holds.sub
    · exact holds.dealer
    · rfl

end Client

/-! ## The way down -/

/-- From SEND's sockets to the clients' `zutil_recv` calls. -/
structure Downward (S : Site) (trace : List Obs) (N : Network) : Prop where
  clients : ∀ c, Holds S c (N.client c) (N.inbox (c, .dealer)) (N.inbox (c, .pull))
  down : ∀ way, Fifo (.lost ∈ trace) ((yields trace).filter (·.way = way)) (N.inbox way ++ N.flight way)
    ((routed trace).filter (·.way = way))
  shown : ∀ parcel rc head buff, .yielded parcel rc head buff ∈ trace → Shown parcel.msg rc head buff

/-- A call that takes nothing from a socket, or a step elsewhere. -/
theorem Downward.frame (downward : Downward S trace N) (noRouted : routed out = [])
    (noYield : ∀ parcel rc head buff, .yielded parcel rc head buff ∉ out)
    (clients : ∀ c, Holds S c (N'.client c) (N.inbox (c, .dealer)) (N.inbox (c, .pull)))
    (inbox : N'.inbox = N.inbox) (flight : N'.flight = N.flight) : Downward S (trace ++ out) N' := by
  have none : yields out = [] := by
    refine List.filterMap_eq_nil_iff.mpr fun o member => ?_
    cases o with
    | yielded parcel rc head buff => exact absurd member (noYield parcel rc head buff)
    | _ => rfl
  refine ⟨fun c => inbox ▸ clients c, fun way => ?_, fun parcel rc head buff member => ?_⟩
  · simpa [none, noRouted, inbox, flight] using (downward.down way).weaken (lost_later out)
  · rcases List.mem_append.mp member with earlier | last
    · exact downward.shown parcel rc head buff earlier
    · exact absurd last (noYield parcel rc head buff)

theorem Holds.update {z : ZutilCtx} (clients : ∀ c, Holds S c (N.client c) (N.inbox (c, .dealer)) (N.inbox (c, .pull)))
    (own : Holds S c z (N.inbox (c, .dealer)) (N.inbox (c, .pull))) (c' : Nat) :
    Holds S c' (Function.update N.client c z c') (N.inbox (c', .dealer)) (N.inbox (c', .pull)) := by
  by_cases same : c' = c
  · subst same
    simpa using own
  · simpa [same] using clients c'

/-- One of SEND's sockets takes a parcel. -/
theorem Downward.route {parcel : Parcel} {pipe : Pipeline} (downward : Downward S trace N)
    (obs : List MsaBroker.Obs) :
    Downward S (trace ++ (obs.map .broker ++ [.routed parcel])) { N with
      pipe := pipe, flight := Function.update N.flight parcel.way (N.flight parcel.way ++ [parcel]) } := by
  have own : routed (obs.map Obs.broker ++ [.routed parcel]) = [parcel] := by
    rw [routed_append, routed_broker]
    rfl
  have none : yields (obs.map Obs.broker ++ [.routed parcel]) = [] := by
    simp [yields, List.filterMap_map]
  refine ⟨downward.clients, fun way => ?_, fun parcel' rc head buff member => ?_⟩
  · have before := (downward.down way).weaken (lost_later (obs.map .broker ++ [.routed parcel]))
    rw [yields_append, none, List.append_nil, routed_append, own, List.filter_append]
    by_cases same : way = parcel.way
    · subst same
      simpa [← List.append_assoc] using before.push parcel
    · simpa [same, Ne.symm same] using before
  · rcases List.mem_append.mp member with earlier | last
    · exact downward.shown parcel' rc head buff earlier
    · simp at last

/-- A parcel reaches the client's socket. -/
theorem Downward.deliver {parcel : Parcel} {flight : List Parcel} (downward : Downward S trace N)
    (next : N.flight (c, inlet) = parcel :: flight) :
    Downward S (trace ++ []) { N with
      flight := Function.update N.flight (c, inlet) flight
      client := Function.update N.client c (arrive inlet parcel.msg (N.client c))
      inbox := Function.update N.inbox (c, inlet) (N.inbox (c, inlet) ++ [parcel]) } := by
  rw [List.append_nil]
  refine ⟨fun c' => ?_, fun way => ?_, downward.shown⟩
  · have before := downward.clients c'
    by_cases same : c' = c
    · subst same
      obtain ⟨registered, uuid, sub, dealer, pull⟩ := before
      cases inlet with
      | dealer => exact ⟨by simpa [arrive] using registered, by simpa [arrive] using uuid, by simpa [arrive] using sub,
          by simp [arrive, dealer, InSock.arrive], by simpa [arrive] using pull⟩
      | pull => exact ⟨by simpa [arrive] using registered, by simpa [arrive] using uuid, by simpa [arrive] using sub,
          by simpa [arrive] using dealer, by simp [arrive, pull, InSock.arrive]⟩
    · simpa [same] using before
  · by_cases same : way = (c, inlet)
    · subst same
      have before := downward.down (c, inlet)
      rw [next] at before
      simpa using before
    · simpa [same] using downward.down way

/-- Or is lost. -/
theorem Downward.lose {parcel : Parcel} {flight : List Parcel} (downward : Downward S trace N)
    (next : N.flight (c, inlet) = parcel :: flight) :
    Downward S (trace ++ [.lost]) { N with flight := Function.update N.flight (c, inlet) flight } := by
  have silent : routed [.lost] = [] := rfl
  have none : yields [.lost] = [] := rfl
  have gone : Obs.lost ∈ trace ++ [.lost] := List.mem_append_right _ (List.mem_singleton_self _)
  refine ⟨downward.clients, fun way => ?_, fun parcel' rc head buff member => ?_⟩
  · rw [yields_append, none, List.append_nil, routed_append, silent, List.append_nil]
    by_cases same : way = (c, inlet)
    · subst same
      have fewer : (N.inbox (c, inlet) ++ flight).Sublist (N.inbox (c, inlet) ++ N.flight (c, inlet)) := by
        rw [next]
        exact (List.Sublist.refl _).append (List.sublist_cons_self _ _)
      simpa using (downward.down (c, inlet)).lose fewer gone
    · simpa [same] using (downward.down way).lose (.refl _) gone
  · rcases List.mem_append.mp member with earlier | last
    · exact downward.shown parcel' rc head buff earlier
    · simp at last

/-- A `zutil_recv` takes the first parcel of a socket. -/
theorem Downward.take {parcel : Parcel} {inbox : List Parcel} {rc : Int32} {head : Envelop} {buff : Bytes}
    {z : ZutilCtx} (downward : Downward S trace N) (next : N.inbox (c, inlet) = parcel :: inbox)
    (shown : Shown parcel.msg rc head buff)
    (holds : Holds S c z (Function.update N.inbox (c, inlet) inbox (c, .dealer))
      (Function.update N.inbox (c, inlet) inbox (c, .pull))) (way : parcel.way = (c, inlet)) :
    Downward S (trace ++ [.yielded parcel rc head buff]) { N with
      client := Function.update N.client c z, inbox := Function.update N.inbox (c, inlet) inbox } := by
  have silent : routed [.yielded parcel rc head buff] = [] := rfl
  have own : yields [.yielded parcel rc head buff] = [parcel] := rfl
  refine ⟨fun c' => ?_, fun way' => ?_, fun parcel' rc' head' buff' member => ?_⟩
  · by_cases same : c' = c
    · subst same
      simpa using holds
    · simpa [same] using downward.clients c'
  · rw [yields_append, own, routed_append, silent, List.append_nil, List.filter_append]
    by_cases same : way' = (c, inlet)
    · subst same
      have before := (downward.down (c, inlet)).weaken (lost_later [.yielded parcel rc head buff])
      rw [next, List.cons_append] at before
      simpa [way] using before.pop
    · have other : parcel.way ≠ way' := way ▸ Ne.symm same
      simpa [same, other] using (downward.down way').weaken (lost_later [.yielded parcel rc head buff])
  · rcases List.mem_append.mp member with earlier | last
    · exact downward.shown parcel' rc' head' buff' earlier
    · cases List.mem_singleton.mp last
      exact shown

/-! ## All of it -/

/-- What the callers of the client library promise: bodies that fit a context,
strings that are strings, receive buffers larger than a context's, and svcnames
without a percent sign. -/
def Act.Promised : Act → Prop
  | .send _ route dest buff size stamp _ =>
    size ≤ maxMsgsizeByte ∧ size ≤ buff.length ∧ 0 ∉ dest ∧ 0 ∉ stamp.getD [] ∧
      (route = zmsgRouteSvc → dest ≠ ascii "ROUTER")
  | .broker a _ => ∀ n, a = .post n → 37 ∉ n.svc
  | .recv _ _ buff size => maxMsgsizeByte < size ∧ size ≤ buff.length
  | .carry .. | .deliver .. | .regi .. => True

structure Inv (S : Site) (trace : List Obs) (N : Network) : Prop where
  upward : Upward S trace N
  relays : ∃ acts, Relays S acts trace N
  downward : Downward S trace N

theorem init_inv (S : Site) : Inv S [] (init S) where
  upward := ⟨fun _ => rfl, fun _ => List.forall_mem_nil _, fun _ => .nil, fun _ => List.forall_mem_nil _, .nil⟩
  relays := ⟨[], Machine.runs_nil_iff.mpr ⟨rfl, rfl⟩, fun _ => List.not_mem_nil.elim, rfl, .nil, List.forall_mem_nil _⟩
  downward := ⟨Holds.start S, fun _ => .nil, fun _ _ _ _ => List.not_mem_nil.elim⟩

theorem zutilSend_taken {route : UInt32} {dest buff : Bytes} {size : Nat} {stamp : Option Bytes} {res : ZutilRes}
    {z : ZutilCtx} (taken : ¬ (zutilSend route dest buff size stamp res z).1 < 0) :
    (route = zmsgRouteSvc ∨ route = zmsgRouteInst) ∧
      (zutilSend route dest buff size stamp res z).2.2 = [(zutilHead route dest size stamp z).bytes, buff.take size] := by
  by_cases sends : Accounting.Sends route size res
  · obtain ⟨valid, positive, fits, head, body⟩ := sends
    have known : ¬ (route ≠ zmsgRouteSvc ∧ route ≠ zmsgRouteInst) := by
      rintro ⟨notSvc, notInst⟩
      exact valid.elim notSvc notInst
    have sized : ¬ (size = 0 ∨ size ≥ maxZmqmsgSize) := by omega
    exact ⟨valid, by simp [zutilSend, known, sized, head]⟩
  · exact absurd (Accounting.zutilSend_fails dest buff stamp z sends).1 taken

/-- A client calls `zutil_send`. -/
theorem Inv.send {route : UInt32} {dest buff : Bytes} {size : Nat} {stamp : Option Bytes} {res : ZutilRes}
    (inv : Inv S trace N) (ran : stepSend d route dest buff size stamp res N = some (N', out))
    (promised : (Act.send d route dest buff size stamp res).Promised) : Inv S (trace ++ out) N' := by
  obtain ⟨upward, ⟨acts, relays⟩, downward⟩ := inv
  obtain ⟨fits, memory, destText, stampText, notRouter⟩ := promised
  have holds := downward.clients d
  have own := holds.call (zutilSend_uuid route dest buff size stamp res _)
    (zutilSend_sockets route dest buff size stamp res _)
  have clients := Holds.update downward.clients own
  simp only [stepSend] at ran
  split at ran
  · cases ran
  · split at ran
    · cases ran
      exact ⟨upward.frame (fun _ => rfl) rfl rfl rfl rfl, ⟨acts, relays.frame rfl rfl rfl⟩,
        downward.frame rfl (by simp) clients rfl rfl⟩
    · rename_i taken
      obtain ⟨valid, frames⟩ := zutilSend_taken taken
      rw [frames] at ran
      cases ran
      have length : (buff.take size).length = size := by
        rw [List.length_take]
        omega
      have made : Posted S d ⟨(zutilHead route dest size stamp (N.client d)).bytes, [buff.take size]⟩ :=
        posted_callMessage valid fits length destText stampText notRouter holds.registered holds.uuid
      exact ⟨upward.post made, ⟨acts, relays.frame rfl rfl rfl⟩, downward.frame rfl (by simp) clients rfl rfl⟩

/-- A client calls `zutil_recv`. -/
theorem Inv.recv {head : Envelop} {buff : Bytes} {size : Nat} (inv : Inv S trace N)
    (ran : stepRecv c head buff size N = some (N', out)) (promised : (Act.recv c head buff size).Promised) :
    Inv S (trace ++ out) N' := by
  obtain ⟨upward, ⟨acts, relays⟩, downward⟩ := inv
  obtain ⟨room, memory⟩ := promised
  have holds := downward.clients c
  have parcelOf {way : Nat × Inlet} {parcel : Parcel} (member : parcel ∈ N.inbox way) :
      parcel.way = way ∧ Framed parcel.msg := by
    have put := (downward.down way).mem_queue (List.mem_append_left _ member)
    obtain ⟨taken, same⟩ := List.mem_filter.mp put
    exact ⟨by simpa using same, (relays.genuine parcel taken).framed⟩
  simp only [stepRecv] at ran
  cases dealer : N.inbox (c, .dealer) with
  | cons parcel inbox =>
    obtain ⟨way, framed⟩ := parcelOf (dealer ▸ List.mem_cons_self : parcel ∈ N.inbox (c, .dealer))
    rw [dealer] at holds
    obtain ⟨served, shown, after⟩ := holds.from_dealer framed head room memory
    simp only [served, dealer] at ran
    cases ran
    exact ⟨upward.frame (fun _ => rfl) rfl rfl rfl rfl, ⟨acts, relays.frame rfl rfl rfl⟩,
      downward.take dealer shown (by simpa using after) way⟩
  | nil =>
    rw [dealer] at holds
    cases pull : N.inbox (c, .pull) with
    | cons parcel inbox =>
      obtain ⟨way, framed⟩ := parcelOf (pull ▸ List.mem_cons_self : parcel ∈ N.inbox (c, .pull))
      rw [pull] at holds
      obtain ⟨served, shown, after⟩ := holds.from_pull framed head room memory
      simp only [served, pull] at ran
      cases ran
      exact ⟨upward.frame (fun _ => rfl) rfl rfl rfl rfl, ⟨acts, relays.frame rfl rfl rfl⟩,
        downward.take pull shown (by simpa [dealer] using after) way⟩
    | nil =>
      rw [pull] at holds
      obtain ⟨served, same⟩ := holds.nothing head buff size
      simp only [served] at ran
      cases ran
      refine ⟨upward.frame (fun _ => rfl) rfl rfl rfl rfl, ⟨acts, relays.frame rfl rfl rfl⟩,
        downward.frame rfl (by simp) (Holds.update downward.clients ?_) rfl rfl⟩
      rw [same]
      exact downward.clients c

theorem step_inv {a : Act} (inv : Inv S trace N) (ran : step S N a = some (N', out)) (promised : a.Promised) :
    Inv S (trace ++ out) N' := by
  cases a with
  | send d route dest buff size stamp res => exact inv.send ran promised
  | recv c head buff size => exact inv.recv ran promised
  | carry d arrives =>
    obtain ⟨upward, ⟨acts, relays⟩, downward⟩ := inv
    simp only [step, stepCarry] at ran
    split at ran
    · cases ran
    · rename_i n m up next
      split at ran
      · cases ran
        exact ⟨upward.carry next, ⟨_, relays.carry m⟩, downward.frame rfl (by simp) downward.clients rfl rfl⟩
      · cases ran
        exact ⟨upward.lose next, ⟨acts, relays.frame rfl rfl rfl⟩,
          downward.frame rfl (by simp) downward.clients rfl rfl⟩
  | deliver c inlet arrives =>
    obtain ⟨upward, ⟨acts, relays⟩, downward⟩ := inv
    simp only [step, stepDeliver] at ran
    split at ran
    · cases ran
    · rename_i parcel flight next
      split at ran
      · cases ran
        exact ⟨upward.frame (fun _ => rfl) rfl rfl rfl rfl, ⟨acts, relays.frame rfl rfl rfl⟩, downward.deliver next⟩
      · cases ran
        exact ⟨upward.frame (fun _ => rfl) rfl rfl rfl rfl, ⟨acts, relays.frame rfl rfl rfl⟩, downward.lose next⟩
  | regi c now ctime res =>
    obtain ⟨upward, ⟨acts, relays⟩, downward⟩ := inv
    cases ran
    have own := (downward.clients c).call (zutilRegi_uuid now ctime res _) (zutilRegi_sockets now ctime res _)
    exact ⟨upward.frame (fun _ => rfl) rfl rfl rfl rfl, ⟨acts, relays.frame rfl rfl rfl⟩,
      downward.frame rfl (by simp) (Holds.update downward.clients own) rfl rfl⟩
  | broker a recipient =>
    obtain ⟨upward, ⟨acts, relays⟩, downward⟩ := inv
    obtain ⟨pipe, obs, notArrive, stepped, sends⟩ := stepBroker_sends ran
    have after := relays.broker upward stepped promised notArrive sends
    have received : pipe.seen ++ pipe.pull.queue = N.pipe.seen ++ N.pipe.pull.queue := by
      have now := Pipeline.runs_arrivals (relays.run.snoc stepped)
      rw [Pipeline.arrivals_append, Pipeline.runs_arrivals relays.run] at now
      have nothing : Pipeline.arrivals [a] = [] := by
        cases a with
        | arrive m => exact absurd rfl (notArrive m)
        | _ => rfl
      rw [← now, nothing, List.append_nil]
    refine ⟨?_, ⟨_, after⟩, ?_⟩
    · have noPosts (d : Nat) : posts d (obs.map .broker) = [] := by simp [posts, List.filterMap_map]
      have noOrigin : origin (obs.map .broker) = [] := by simp [origin, List.filterMap_map]
      cases sends with
      | quiet => exact upward.frame noPosts noOrigin rfl rfl received
      | lost =>
        exact upward.frame (fun d => by rw [posts_append, noPosts]; rfl) (by rw [origin_append, noOrigin]; rfl) rfl
          rfl received
      | routed =>
        exact upward.frame (fun d => by rw [posts_append, noPosts]; rfl) (by rw [origin_append, noOrigin]; rfl) rfl
          rfl received
    · cases sends with
      | quiet => exact downward.frame (routed_broker obs) (by simp) downward.clients rfl rfl
      | lost =>
        exact downward.frame (by rw [routed_append, routed_broker]; rfl) (by simp) downward.clients rfl rfl
      | routed => exact downward.route obs

theorem runs_network {acts : List Act} (run : (machine S).Runs acts N trace) (promised : ∀ a ∈ acts, a.Promised) :
    Inv S trace N :=
  run.invariant (Inv S) Act.Promised promised (init_inv S) fun _ _ _ _ _ inv promised ran => step_inv inv ran promised

/-! ## Once, and in order -/

theorem origin_increasing (upward : Upward S trace N) :
    (origin trace).Pairwise fun one other => one.1 = other.1 → one.2 < other.2 := by
  rw [List.pairwise_iff_getElem]
  intro i j inside inside' before same
  have own := (upward.up (origin trace)[i].1).pairwise_got List.pairwise_lt_range
  rw [List.pairwise_map, List.pairwise_filter, List.pairwise_iff_getElem] at own
  exact own i j inside inside' before (by simp) (by simp [same])

/-- Each message the broker received makes one parcel at most. -/
theorem Relays.numbers_nodup (relays : Relays S acts trace N) : ((routed trace).map Parcel.i).Nodup := by
  have books := Pipeline.runs_balanced relays.run
  have both := (List.filter_append_perm (fun parcel : Parcel => parcel.reply) (routed trace)).map Parcel.i
  rw [List.map_append] at both
  refine List.nodup_iff_count_le_one.mpr fun i => ?_
  have replies := relays.replies.got_sublist.count_le i
  have once : (N.pipe.pending.filterMap Callback.relay?).count i +
      ((brokerTrace trace).filterMap Obs.relayed?).count i +
      (((brokerTrace trace).filterMap Obs.refused?).map Prod.fst).count i ≤ 1 := by
    refine (books.once i).le.trans ?_
    split <;> decide
  rw [← both.count_eq, List.count_append, relays.relays]
  omega

theorem Relays.increasing (relays : Relays S acts trace N) (upward : Upward S trace N) (reply : Bool) :
    (((routed trace).filter (·.reply = reply)).map Parcel.i).Pairwise (· < ·) := by
  have handled := (Pipeline.runs_balanced relays.run).handled_increasing
  have ordered := Pipeline.runs_ordered relays.run
  cases reply with
  | false =>
    have same : (routed trace).filter (fun parcel => decide (parcel.reply = false)) =
        (routed trace).filter (!·.reply) := by
      congr 1
      funext parcel
      cases parcel.reply <;> rfl
    rw [same, relays.relays]
    exact handled.sublist ordered.relayed
  | true =>
    have passed : ∀ m ∈ N.pipe.seen, firstCheck m = none := by
      intro m member
      obtain ⟨d, posted⟩ := upward.received (List.mem_append_left _ member)
      exact posted.passed
    simpa using relays.replies.pairwise_got (handled.sublist (ordered.refused passed))

/-- The number a parcel's message has at client `d`, if it is one of its. -/
def numberAt (d : Nat) (trace : List Obs) (parcel : Parcel) : Option Nat :=
  ((origin trace)[parcel.i]?).bind fun from_ => if from_.1 = d then some from_.2 else none

/-- What every `zutil_recv` that returns a message has got. -/
structure Delivered (S : Site) (trace : List Obs) : Prop where
  /-- The message a client posted, whole, at a client it names; or, with the
  header of its error reply, at its sender. -/
  genuine : ∀ parcel rc head buff, .yielded parcel rc head buff ∈ trace →
    ∃ d n m, (origin trace)[parcel.i]? = some (d, n) ∧ (posts d trace)[n]? = some m ∧
      (rc.toInt = m.body.length ∧ buff.take m.body.length = m.body ∧ buff[m.body.length]? = some 0) ∧
      if parcel.reply then head = replyHead m .failToRoute ∧ S.uuid parcel.recipient = S.uuid d
      else head = m.header ∧ Addressed S parcel.recipient parcel.inlet m
  /-- No message comes twice, nor once as itself and once as its reply. -/
  once : (origin trace).Nodup ∧ ((yields trace).map Parcel.i).Nodup
  /-- On one socket, messages of one sender come in the order they were posted,
  and so do replies. -/
  inOrder : ∀ way reply d,
    ((((yields trace).filter (·.way = way)).filter (·.reply = reply)).filterMap (numberAt d trace)).Pairwise
      (· < ·)

theorem Inv.genuine (inv : Inv S trace N) {parcel : Parcel} {rc : Int32} {head : Envelop} {buff : Bytes}
    (yielded : .yielded parcel rc head buff ∈ trace) : ∃ d n m, (origin trace)[parcel.i]? = some (d, n) ∧
      (posts d trace)[n]? = some m ∧
      (rc.toInt = m.body.length ∧ buff.take m.body.length = m.body ∧ buff[m.body.length]? = some 0) ∧
      if parcel.reply then head = replyHead m .failToRoute ∧ S.uuid parcel.recipient = S.uuid d
      else head = m.header ∧ Addressed S parcel.recipient parcel.inlet m := by
  obtain ⟨upward, ⟨acts, relays⟩, downward⟩ := inv
  have taken : parcel ∈ yields trace := List.mem_filterMap.mpr ⟨_, yielded, rfl⟩
  have put := (downward.down parcel.way).mem_got (List.mem_filter.mpr ⟨taken, by simp⟩)
  have shown := downward.shown parcel rc head buff yielded
  -- the sender and the number of a message received
  have known {i : Nat} {m : Message} (received : N.pipe.seen[i]? = some m) :
      ∃ d n, (origin trace)[i]? = some (d, n) ∧ (posts d trace)[n]? = some m ∧ Posted S d m := by
    have arrived : (N.pipe.seen ++ N.pipe.pull.queue)[i]? = some m := getElem?_later received
    obtain ⟨inside, same⟩ := List.getElem?_eq_some_iff.mp arrived
    have length := upward.arrived.length_eq
    have from_ := (List.forall₂_iff_get.mp upward.arrived).2 i (by omega) inside
    simp only [List.get_eq_getElem, same] at from_
    exact ⟨_, _, List.getElem?_eq_getElem (by omega), from_, upward.made _ _ (List.mem_of_getElem? from_)⟩
  cases relays.genuine parcel (List.mem_of_mem_filter put) with
  | relay received posted addressed =>
    obtain ⟨d, n, from_, kept, -⟩ := known received
    obtain ⟨rc, head, content⟩ := shown _ _ posted.frames posted.fits
    exact ⟨d, n, _, from_, kept, ⟨rc, content⟩, head, addressed⟩
  | reply received posted sender =>
    obtain ⟨d, n, from_, kept, own⟩ := known received
    obtain ⟨rc, head, content⟩ := shown _ _ rfl posted.fits
    exact ⟨d, n, _, from_, kept, ⟨rc, content⟩, head, sender.trans own.sender.2⟩

/-- **Messages are delivered once, whole, in order, and to whom they name.**
Over every run of any number of clients and the broker, however the network
delays, loses and distributes what it is given, and whatever services MGNT
announces meanwhile. -/
theorem delivered {acts : List Act} (run : (machine S).Runs acts N trace) (promised : ∀ a ∈ acts, a.Promised) :
    Delivered S trace := by
  have inv := runs_network run promised
  refine ⟨fun parcel rc head buff yielded => inv.genuine yielded, ⟨?_, ?_⟩, fun way reply d => ?_⟩
  · refine (origin_increasing inv.upward).imp fun {one other} less same => ?_
    subst same
    exact Nat.lt_irrefl _ (less rfl)
  · obtain ⟨upward, ⟨acts, relays⟩, downward⟩ := inv
    have numbers := relays.numbers_nodup
    have routedOnce : (routed trace).Nodup := numbers.of_map Parcel.i
    have taken {parcel : Parcel} (member : parcel ∈ yields trace) : parcel ∈ routed trace :=
      List.mem_of_mem_filter ((downward.down parcel.way).mem_got (List.mem_filter.mpr ⟨member, by simp⟩))
    have yieldedOnce : (yields trace).Nodup := by
      refine List.nodup_iff_count_le_one.mpr fun parcel => ?_
      have fewer := (downward.down parcel.way).got_sublist.count_le parcel
      rw [List.count_filter (by simp), List.count_filter (by simp)] at fewer
      have one := List.nodup_iff_count_le_one.mp routedOnce parcel
      omega
    exact yieldedOnce.map_on fun one member other member' same =>
      List.inj_on_of_nodup_map numbers (taken member) (taken member') same
  · obtain ⟨upward, ⟨acts, relays⟩, downward⟩ := inv
    have ordered := relays.increasing upward reply
    rw [List.pairwise_map] at ordered
    have fewer : (((yields trace).filter (·.way = way)).filter (·.reply = reply)).Sublist
        ((routed trace).filter (·.reply = reply)) :=
      ((downward.down way).got_sublist.trans List.filter_sublist).filter _
    refine List.pairwise_filterMap.mpr ((ordered.sublist fewer).imp fun {one other} before n from_ n' from_' => ?_)
    obtain ⟨⟨d₁, n₁⟩, at_, same⟩ := Option.bind_eq_some_iff.mp from_
    obtain ⟨⟨d₂, n₂⟩, at', same'⟩ := Option.bind_eq_some_iff.mp from_'
    simp only [Option.ite_none_right_eq_some, Option.some.injEq] at same same'
    obtain ⟨rfl, rfl⟩ := same
    obtain ⟨rfl, rfl⟩ := same'
    obtain ⟨inside, here⟩ := List.getElem?_eq_some_iff.mp at_
    obtain ⟨inside', there⟩ := List.getElem?_eq_some_iff.mp at'
    have less := List.pairwise_iff_getElem.mp (origin_increasing upward) _ _ inside inside' before
    rw [here, there] at less
    exact less rfl

/-- The first sends the second a greeting. -/
def greeting : List Act :=
  [.send 0 zmsgRouteInst (ascii "b") (ascii "hi") 2 none ⟨1, 2⟩, .carry 0 true, .broker .recvPrepare 0] ++
    [.broker .recvProcess 0] ++ [.broker .sendTake 0] ++ [.broker (.sendRun ⟨0, 0, 0⟩) 1] ++
    [.deliver 1 .dealer true] ++ [.recv 1 .zero (List.replicate 2048 0) 2048]

theorem greeting_promised : ∀ a ∈ greeting, a.Promised := by
  intro a member
  fin_cases member
  · exact ⟨by decide, by decide, by decide, by decide, fun svc => absurd svc (by decide)⟩
  · trivial
  · exact fun _ post => by cases post
  · exact fun _ post => by cases post
  · exact fun _ post => by cases post
  · exact fun _ post => by cases post
  · trivial
  · exact ⟨by decide, (List.length_replicate ..).ge⟩

theorem greeting_pipe {acts : List Act} (run : (machine twoClients).Runs acts N trace) (part : acts <+: greeting) :
    ∃ tr, N.pipe.Inv tr ∧ SendTable .bare N.pipe.zsockLlist := by
  obtain ⟨acts', relays⟩ := (runs_network run fun a member => greeting_promised a (part.subset member)).relays
  exact ⟨_, Pipeline.runs_inv relays.run, runs_sendTable relays.run relays.plain⟩

/-- The message this posts. -/
def greetingMessage : Message := callMessage zmsgRouteInst (ascii "b") 2 none (twoClients.start 0).1 (ascii "hi")

theorem greeting_received : ∃ N trace, (machine twoClients).Runs
      ([.send 0 zmsgRouteInst (ascii "b") (ascii "hi") 2 none ⟨1, 2⟩, .carry 0 true, .broker .recvPrepare 0] ++
        [.broker .recvProcess 0] ++ [.broker .sendTake 0]) N trace ∧
    N.pipe.send = some (.pushRelay (.slot 0) 0) ∧ N.pipe.seen = [greetingMessage] ∧ N.flight = (fun _ => []) ∧
    N.inbox = (fun _ => []) ∧ N.client 1 = (twoClients.start 1).1 ∧ .lost ∉ trace ∧ (posts 0 trace).length = 1 := by
  have posted : Posted twoClients 0 greetingMessage :=
    posted_callMessage (.inr rfl) (by decide) rfl (by decide) (by decide) (fun svc => absurd svc (by decide))
      (zutilInit_registered ..) rfl
  obtain ⟨N₁, tr₁, run₁, held, queued, idle, empty, fresh, flight, inbox, client, whole, one⟩ : ∃ N₁ tr₁,
      (machine twoClients).Runs [.send 0 zmsgRouteInst (ascii "b") (ascii "hi") 2 none ⟨1, 2⟩, .carry 0 true,
        .broker .recvPrepare 0] N₁ tr₁ ∧
      N₁.pipe.recv = some (.slot 0) ∧ N₁.pipe.pull.queue = [greetingMessage] ∧ N₁.pipe.send = none ∧
      N₁.pipe.evbase = [] ∧ N₁.pipe.seen = [] ∧ N₁.flight = (fun _ => []) ∧ N₁.inbox = (fun _ => []) ∧
      N₁.client 1 = (twoClients.start 1).1 ∧ .lost ∉ tr₁ ∧ (posts 0 tr₁).length = 1 :=
    ⟨_, _, rfl, rfl, rfl, rfl, rfl, rfl, rfl, rfl, rfl, by simp, rfl⟩
  obtain ⟨tr, inv₁, -⟩ := greeting_pipe run₁ ⟨_, rfl⟩
  obtain ⟨p₂, step₂, send₂, evbase₂, seen₂⟩ := inv₁.accepts twoClients.host held queued posted.passed
  rw [idle] at send₂
  rw [empty, fresh] at evbase₂
  rw [fresh] at seen₂
  have run₂ := run₁.snoc (show (machine twoClients).step N₁ (.broker .recvProcess 0) =
      some ({ N₁ with pipe := p₂ }, _) by
    simp only [machine, step, stepBroker, step₂]
    rfl)
  have run₃ := run₂.snoc (show (machine twoClients).step { N₁ with pipe := p₂ } (.broker .sendTake 0) =
      some ({ N₁ with pipe := { p₂ with send := some (.pushRelay (.slot 0) 0), evbase := [] } }, []) by
    simp [machine, step, stepBroker, Pipeline.step, send₂, evbase₂, sendResults, outgoing])
  refine ⟨_, _, run₃, rfl, seen₂, flight, inbox, client, ?_, ?_⟩
  · simp [whole]
  · simpa [posts_append, posts] using one

/-- SEND relays the greeting to the second client. -/
theorem greeting_relayed {tr : List MsaBroker.Obs} (inv : N.pipe.Inv tr) (table : SendTable .bare N.pipe.zsockLlist)
    (running : N.pipe.send = some (.pushRelay (.slot 0) 0)) (seen : N.pipe.seen = [greetingMessage]) :
    ∃ p, ∃ obs : List MsaBroker.Obs, ∃ parcel : Parcel, parcel.way = (1, .dealer) ∧
      (machine twoClients).step N (.broker (.sendRun ⟨0, 0, 0⟩) 1) =
        some ({ N with pipe := p, flight := Function.update N.flight parcel.way (N.flight parcel.way ++ [parcel]) },
          obs.map .broker ++ [.routed parcel]) := by
  obtain ⟨p, obs, ran⟩ : ∃ p obs, Pipeline.step .bare N.pipe (.sendRun ⟨0, 0, 0⟩) = some (p, obs) := by
    simp [Pipeline.step, running]
  have dest : Pipeline.destOf .bare (.slot 0) greetingMessage = ascii "b" := callMessage_dest .bare (.slot 0) (by decide)
  have route : greetingMessage.header.route = zmsgRouteInst := by rw [greetingMessage, callMessage_header, zutilHead]
  obtain ⟨router, found, type⟩ := inv.router
  have path : router.data.ipcPath = zsockIpcPath .bare (ascii "ROUTER") := by
    obtain ⟨member, key⟩ := getElement_some found
    rw [← key]
    exact sendTable_paths table router member
  have inlet : twoClients.inlet 1 router.data (some (ascii "b")) = some .dealer := by
    simp only [Site.inlet, path]
    exact if_pos (by decide)
  have target : relayTarget greetingMessage.header (ascii "b") N.pipe.zsockLlist =
      some ⟨router.data, some (ascii "b")⟩ := by
    simp only [relayTarget, route, zmsgRouteInst_ne_zmsgRouteSvc, ↓reduceIte]
    rw [show getElement (ascii "ROUTER") N.pipe.zsockLlist = some router from found]
    rfl
  refine ⟨p, obs, ?_⟩
  have moves : N.pipe.Moves .bare tr (.sendRun ⟨0, 0, 0⟩) p obs := inv.step_moves ran
  have own {i : Nat} {m : Message} (received : N.pipe.seen[i]? = some m) (zero : i = 0) : m = greetingMessage := by
    subst zero
    simpa [seen] using received.symm
  cases moves with
  | @relay r i m old res running' received passed head buffer verdict =>
    obtain ⟨rfl, rfl⟩ : CtxRef.slot 0 = r ∧ 0 = i := by simpa [running] using running'
    obtain rfl := own received rfl
    rw [dest, target] at ran
    have quiet : ∀ o ∈ [MsaBroker.Obs.relayed (.slot 0) 0, .freeMsgCtx (.slot 0)], o.isAttempt = false := by
      simp [Obs.isAttempt]
    have results := callback_results .bare (.pushRelay (.slot 0) 0) N.pipe.zsockLlist (.slot 0)
      (N.pipe.pool.read (.slot 0)) ⟨router.data, some (ascii "b")⟩ ⟨0, 0, 0⟩ quiet
    let msg : Message :=
      ⟨(N.pipe.pool.read (.slot 0)).head.bytes, [bodySent .bare (.slot 0) (N.pipe.pool.read (.slot 0))]⟩
    have deliver : router.data.type.deliver ([ascii "b"] ++
        [(N.pipe.pool.read (.slot 0)).head.bytes, bodySent .bare (.slot 0) (N.pipe.pool.read (.slot 0))]) =
          some (some (ascii "b"), msg) := by
      rw [type]
      rfl
    have going := callback_outgoing .bare (.pushRelay (.slot 0) 0) N.pipe.zsockLlist (.slot 0)
      (N.pipe.pool.read (.slot 0)) ⟨router.data, some (ascii "b")⟩ ⟨0, 0, 0⟩ quiet rfl deliver
    rw [dest, target]
    refine ⟨⟨1, .dealer, 0, false, msg⟩, rfl, ?_⟩
    simp only [machine, step, stepBroker, twoClients, ran, Option.bind_some, results, going]
    simp only [twoClients] at inlet
    simp [Target.delivered, Target.routed, inlet, Callback.parcel]
  | @relayFail r i m old res code running' received passed head buffer verdict failed =>
    obtain ⟨rfl, rfl⟩ : CtxRef.slot 0 = r ∧ 0 = i := by simpa [running] using running'
    obtain rfl := own received rfl
    rw [dest, relayVerdict, target] at verdict
    simp [route, Target.delivered, Target.routed, failed.symm] at verdict
  | reply running' => simp [running] at running'
  | create running' => simp [running] at running'
  | remove running' => simp [running] at running'

/-- The second client takes what is on its way to it. -/
theorem greeting_taken {parcel : Parcel} (flight : N.flight (1, .dealer) = [parcel]) (inbox : N.inbox (1, .dealer) = [])
    (client : N.client 1 = (twoClients.start 1).1) : ∃ N' rc head buff, (machine twoClients).runFrom N
      [.deliver 1 .dealer true, .recv 1 .zero (List.replicate 2048 0) 2048] =
        some (N', [.yielded parcel rc head buff]) := by
  obtain ⟨N₁, step₁, inbox₁, client₁⟩ : ∃ N₁, (machine twoClients).step N (.deliver 1 .dealer true) = some (N₁, []) ∧
      N₁.inbox (1, .dealer) = [parcel] ∧ N₁.client 1 = arrive .dealer parcel.msg (twoClients.start 1).1 := by
    refine ⟨_, by simp only [machine, step, stepDeliver, flight]; rfl, ?_, ?_⟩
    · simp [inbox]
    · simp [client]
  have served₁ : served (N₁.client 1) = some .dealer := by rw [client₁]; rfl
  let out := zutilRecv .zero (List.replicate 2048 0) 2048 (N₁.client 1)
  refine ⟨{ N₁ with
    client := Function.update N₁.client 1 out.2.2.2, inbox := Function.update N₁.inbox (1, .dealer) [] },
    out.1, out.2.1, out.2.2.1, ?_⟩
  rw [Machine.runFrom_cons]
  refine ⟨N₁, [], [.yielded parcel out.1 out.2.1 out.2.2.1], step₁, ?_, rfl⟩
  rw [Machine.runFrom_cons]
  refine ⟨_, [.yielded parcel out.1 out.2.1 out.2.2.1], [], ?_, rfl, rfl⟩
  simp only [machine, step, stepRecv, served₁, inbox₁]
  rfl

theorem greeting_runs : ∃ N trace parcel rc head buff, (machine twoClients).Runs greeting N trace ∧
    .lost ∉ trace ∧ (posts 0 trace).length = 1 ∧ .yielded parcel rc head buff ∈ trace := by
  obtain ⟨N, trace, run, running, seen, flight, inbox, client, whole, one⟩ := greeting_received
  obtain ⟨tr, inv, table⟩ := greeting_pipe run ⟨_, rfl⟩
  obtain ⟨p, obs, parcel, way, relayed⟩ := greeting_relayed inv table running seen
  let N₁ : Network :=
    { N with pipe := p, flight := Function.update N.flight parcel.way (N.flight parcel.way ++ [parcel]) }
  have onWay : N₁.flight (1, .dealer) = [parcel] := by simp [N₁, way, flight]
  obtain ⟨N', rc, head, buff, taken⟩ := greeting_taken onWay (by simp [N₁, inbox]) client
  have noPosts : posts 0 (obs.map Obs.broker ++ [.routed parcel]) = [] := by simp [posts, List.filterMap_map]
  have noPosts' : posts 0 [.yielded parcel rc head buff] = [] := rfl
  have whole_run := Machine.runFrom_append.mpr ⟨N₁, _, _, run.snoc relayed, taken, rfl⟩
  refine ⟨N', _, parcel, rc, head, buff, whole_run, ?_, ?_, ?_⟩
  · simp [whole]
  · simp only [posts_append, noPosts, noPosts', List.append_nil, one]
  · simp

/-- The second client is given what the first sent. -/
theorem delivered_greeting : ∃ N trace parcel rc head buff, (machine twoClients).Runs greeting N trace ∧
    .yielded parcel rc head buff ∈ trace ∧ Delivered twoClients trace := by
  obtain ⟨N, trace, parcel, rc, head, buff, run, -, -, yielded⟩ := greeting_runs
  exact ⟨N, trace, parcel, rc, head, buff, run, yielded, delivered run greeting_promised⟩

/-! ## Nothing is forgotten -/

/-- Where message `n` of client `d` is. -/
inductive Place (trace : List Obs) (N : Network) (d n : Nat) : Prop
  | up {m : Message} (waits : (n, m) ∈ N.up d) : Place trace N d n
  | received {i : Nat} (from_ : (origin trace)[i]? = some (d, n)) (waits : N.pipe.seen.length ≤ i) : Place trace N d n
  | relay {r : CtxRef} {i : Nat} (from_ : (origin trace)[i]? = some (d, n))
      (waits : .pushRelay r i ∈ N.pipe.pending) : Place trace N d n
  | reply {r : CtxRef} {i : Nat} (from_ : (origin trace)[i]? = some (d, n))
      (waits : .routerErrReply r i ∈ N.pipe.pending) : Place trace N d n
  | down {parcel : Parcel} (from_ : (origin trace)[parcel.i]? = some (d, n))
      (waits : parcel ∈ N.inbox parcel.way ++ N.flight parcel.way) : Place trace N d n
  | yielded {parcel : Parcel} (from_ : (origin trace)[parcel.i]? = some (d, n))
      (taken : parcel ∈ yields trace) : Place trace N d n

/-- Nothing is on its way to anyone. -/
structure Idle (N : Network) : Prop where
  up : ∀ d, N.up d = []
  broker : N.pipe.Drained
  down : ∀ way, N.inbox way = [] ∧ N.flight way = []

theorem Relays.place (relays : Relays S acts trace N) (downward : Downward S trace N) (whole : .lost ∉ trace)
    (from_ : (origin trace)[i]? = some (d, n)) (seen : i < N.pipe.seen.length) : Place trace N d n := by
  have parcelPlace {parcel : Parcel} (taken : parcel ∈ routed trace) (same : parcel.i = i) : Place trace N d n := by
    subst same
    have own : parcel ∈ (routed trace).filter (·.way = parcel.way) := List.mem_filter.mpr ⟨taken, by simp⟩
    rw [← (downward.down parcel.way).complete whole] at own
    rcases List.mem_append.mp own with got | waits
    · exact .yielded from_ (List.mem_of_mem_filter got)
    · exact .down from_ waits
  have once := (Pipeline.runs_balanced relays.run).once i
  rw [if_pos (show i < (N.pipe.ledger (brokerTrace trace)).received.length from seen)] at once
  have somewhere : i ∈ N.pipe.pending.filterMap Callback.relay? ∨
      i ∈ (brokerTrace trace).filterMap Obs.relayed? ∨
      i ∈ ((brokerTrace trace).filterMap Obs.refused?).map Prod.fst := by
    by_contra nowhere
    obtain ⟨noRelay, other⟩ := not_or.mp nowhere
    obtain ⟨noRelayed, noRefused⟩ := not_or.mp other
    simp only [Pipeline.ledger, List.count_eq_zero.mpr noRelay, List.count_eq_zero.mpr noRelayed,
      List.count_eq_zero.mpr noRefused] at once
    omega
  rcases somewhere with waits | relayed | refused
  · obtain ⟨cb, queued, same⟩ := List.mem_filterMap.mp waits
    cases cb with
    | pushRelay r i' =>
      cases same
      exact .relay from_ queued
    | _ => cases same
  · rw [← relays.relays] at relayed
    obtain ⟨parcel, taken, same⟩ := List.mem_map.mp relayed
    exact parcelPlace (List.mem_of_mem_filter taken) same
  · rw [← relays.replies.complete whole] at refused
    rcases List.mem_append.mp refused with replied | waits
    · obtain ⟨parcel, taken, same⟩ := List.mem_map.mp replied
      exact parcelPlace (List.mem_of_mem_filter taken) same
    · obtain ⟨cb, queued, same⟩ := List.mem_filterMap.mp waits
      cases cb with
      | routerErrReply r i' =>
        cases same
        exact .reply from_ queued
      | _ => cases same

end Network

end MsaBroker
