import MsaBroker.Endpoints
import MsaBroker.Posting

/-! Through the broker: what SEND's sockets are given for the clients. Each
message the broker received makes one parcel, the message itself for a client it
names or its error reply for its sender; and the ledger says in which order. -/
namespace MsaBroker
open CMemory

/-! ## The order of the ledger -/

namespace Ledger

variable {l l' : Ledger} {received : List Message}

/-- What leaves the ledger leaves in the order it was handled. -/
structure Ordered (l : Ledger) : Prop where
  relayed : l.relayed.Sublist l.handled
  refused : (∀ m ∈ l.received, firstCheck m = none) → (l.refused.map Prod.fst).Sublist l.handled

theorem Entry.ordered (entry : Entry l l') (ordered : l.Ordered) : l'.Ordered := by
  obtain ⟨relayed, refused⟩ := ordered
  cases entry with
  | idle => exact ⟨relayed, refused⟩
  | @refuse m code failed =>
    refine ⟨relayed, fun passed => ?_⟩
    have clean := passed m (by simp)
    rw [failed] at clean
    cases clean
  | accept passed => exact ⟨relayed, fun all => refused fun m member => all m (List.mem_append_left _ member)⟩
  | @relay i relays next =>
    exact ⟨relayed.append (.refl [i]), fun all => (refused all).trans (List.sublist_append_left _ _)⟩
  | @relayFail i relays code next failed =>
    refine ⟨relayed.trans (List.sublist_append_left _ _), fun all => ?_⟩
    simpa using (refused all).append (.refl [i])
  | reply next => exact ⟨relayed, refused⟩

theorem passing_increasing (received : List Message) : (passing received).Pairwise (· < ·) := by
  have numbers : (received.zipIdx.map Prod.snd).Pairwise (· < ·) := by
    rw [List.zipIdx_map_snd]
    exact List.pairwise_lt_range'
  exact numbers.sublist (List.filter_sublist.map Prod.snd)

theorem Balanced.handled_increasing (books : l.Balanced) : l.handled.Pairwise (· < ·) :=
  (passing_increasing l.received).sublist (books.inOrder ▸ List.sublist_append_left _ _)

end Ledger

theorem Pipeline.runs_ordered {host : Host} {acts : List Pipeline.Act} {p : Pipeline} {trace : List Obs}
    (run : (Pipeline.machine host).Runs acts p trace) : (p.ledger trace).Ordered := by
  apply Pipeline.runs_invariant (fun tr p => (p.ledger tr).Ordered) run
  · exact ⟨.slnil, fun _ => .slnil⟩
  · intro tr p a p' obs _ ordered moves
    exact moves.entry.ordered ordered

/-! ## What a callback sends -/

section Sends

variable (host : Host) (cb : Callback) (llist : List (Element ZsockCtx)) (r : CtxRef) (ctx : MsgCtx)
  (t : Target) (res : SendRes) {last : List Obs}

/-- The sends of a callback all succeed where those of its attempt do. -/
theorem callback_results (quiet : ∀ o ∈ last, o.isAttempt = false) :
    (sendResults (.callback cb llist res :: (relayAttempt host cb r ctx (some t) res ++ last))).all (0 ≤ ·) =
      t.delivered res := by
  have nothing : sendResults last = [] := by
    refine List.filterMap_eq_nil_iff.mpr fun o member => ?_
    have still := quiet o member
    cases o <;> first | rfl | cases still
  have split : sendResults (.callback cb llist res :: (relayAttempt host cb r ctx (some t) res ++ last)) =
      sendResults (relayAttempt host cb r ctx (some t) res) := by
    simp only [sendResults] at nothing ⊢
    simp [nothing]
  rw [split]
  obtain ⟨zsockCtx, uuid⟩ := t
  obtain ⟨routeRes, headRes, bodyRes⟩ := res
  cases uuid <;> by_cases route : routeRes < 0 <;> by_cases head : headRes < 0 <;> by_cases body : bodyRes < 0 <;>
    simp [relayAttempt, relayTo, serviceRelay, routerRelay, msgRelay, handing, sendResults, Target.delivered,
      Target.routed, route, head, body] <;> omega

theorem callback_sender (last : List Obs) :
    (Obs.callback cb llist res :: (relayAttempt host cb r ctx (some t) res ++ last)).findSome? Obs.sender? =
      some (cb, t.zsockCtx) := by
  obtain ⟨zsockCtx, uuid⟩ := t
  obtain ⟨routeRes, headRes, bodyRes⟩ := res
  cases uuid <;> by_cases route : routeRes < 0 <;> by_cases head : headRes < 0 <;> by_cases body : bodyRes < 0 <;>
    simp [relayAttempt, relayTo, serviceRelay, routerRelay, msgRelay, handing, Obs.sender?, List.findSome?_cons,
      route, head, body]

/-- Where they all succeed, what its frames come to. -/
theorem callback_outgoing (quiet : ∀ o ∈ last, o.isAttempt = false) (delivered : t.delivered res = true)
    {msg : Message}
    (deliver : t.zsockCtx.type.deliver (t.uuid.toList ++ [ctx.head.bytes, bodySent host r ctx]) =
      some (t.uuid, msg)) :
    outgoing (.callback cb llist res :: (relayAttempt host cb r ctx (some t) res ++ last)) =
      some (cb, t.zsockCtx, t.uuid, msg) := by
  obtain ⟨-, frames⟩ := callback_sends host cb llist r ctx delivered last quiet
  rw [outgoing, callback_sender, Option.bind_some, frames, deliver]
  rfl

end Sends

namespace Network

variable {S : Site} {N N' : Network} {trace out : List Obs} {acts : List Pipeline.Act} {c d n i : Nat}
  {inlet : Inlet} {m : Message}

/-! ## Through the broker -/

/-- The client a posted message names, on the socket for its route. -/
def Addressed (S : Site) (c : Nat) (inlet : Inlet) (m : Message) : Prop :=
  m.header.route = zmsgRouteSvc ∧ inlet = .pull ∧ (S.conf c).svcname = cstr m.header.dest.bytes ∨
    m.header.route = zmsgRouteInst ∧ inlet = .dealer ∧ S.uuid c = cstr m.header.dest.bytes

/-- A parcel is a message received, for the client it names, or the reply to one,
for its sender. -/
inductive Genuine (S : Site) (seen : List Message) : Parcel → Prop
  | relay {c d i : Nat} {inlet : Inlet} {m : Message} (received : seen[i]? = some m) (posted : Posted S d m)
      (addressed : Addressed S c inlet m) : Genuine S seen ⟨c, inlet, i, false, m⟩
  | reply {c d i : Nat} {m : Message} (received : seen[i]? = some m) (posted : Posted S d m)
      (sender : S.uuid c = cstr m.header.from_.bytes) :
      Genuine S seen ⟨c, .dealer, i, true, ⟨(replyHead m .failToRoute).bytes, [m.body]⟩⟩

theorem Genuine.later {seen : List Message} {parcel : Parcel} (genuine : Genuine S seen parcel)
    (more : List Message) : Genuine S (seen ++ more) parcel := by
  cases genuine with
  | relay received posted addressed => exact .relay (getElem?_later received) posted addressed
  | reply received posted sender => exact .reply (getElem?_later received) posted sender

/-- The message is one the network carries to clients. -/
def Framed (msg : Message) : Prop :=
  ∃ (h : Envelop) (body : Bytes), msg = ⟨h.bytes, [body]⟩ ∧ body.length ≤ maxMsgsizeByte

theorem Genuine.framed {seen : List Message} {parcel : Parcel} (genuine : Genuine S seen parcel) :
    Framed parcel.msg := by
  cases genuine with
  | @relay _ _ _ _ m received posted => exact ⟨m.header, m.body, posted.frames, posted.fits⟩
  | @reply _ _ _ m received posted => exact ⟨_, m.body, rfl, posted.fits⟩

/-- What a step of the broker comes to for its clients. -/
inductive Sends (S : Site) (c : Nat) (N : Network) (pipe : Pipeline) (obs : List MsaBroker.Obs) :
    Network → List Obs → Prop
  | quiet (nothing : (sendResults obs).all (0 ≤ ·) = true → outgoing obs = none)
      (noReply : (sendResults obs).all (0 ≤ ·) = false →
        ∀ r i zsockCtx, obs.findSome? Obs.sender? ≠ some (.routerErrReply r i, zsockCtx)) :
      Sends S c N pipe obs { N with pipe := pipe } (obs.map .broker)
  | lost {r : CtxRef} {i : Nat} {zsockCtx : ZsockCtx} (failed : (sendResults obs).all (0 ≤ ·) = false)
      (sender : obs.findSome? Obs.sender? = some (.routerErrReply r i, zsockCtx)) :
      Sends S c N pipe obs { N with pipe := pipe } (obs.map .broker ++ [.lost])
  | routed {cb : Callback} {zsockCtx : ZsockCtx} {peer : Option Bytes} {msg : Message} {inlet : Inlet}
      {parcel : Parcel} (sent : (sendResults obs).all (0 ≤ ·) = true)
      (going : outgoing obs = some (cb, zsockCtx, peer, msg)) (connected : S.inlet c zsockCtx peer = some inlet)
      (made : cb.parcel c inlet msg = some parcel) :
      Sends S c N pipe obs
        { N with
          pipe := pipe
          flight := Function.update N.flight parcel.way (N.flight parcel.way ++ [parcel]) }
        (obs.map .broker ++ [.routed parcel])

theorem stepBroker_sends {a : Pipeline.Act} (ran : stepBroker S a c N = some (N', out)) :
    ∃ pipe obs, (∀ m, a ≠ .arrive m) ∧ Pipeline.step S.host N.pipe a = some (pipe, obs) ∧
      Sends S c N pipe obs N' out := by
  unfold stepBroker at ran
  split at ran
  · cases ran
  · rename_i a notArrive
    obtain ⟨⟨pipe, obs⟩, step, ran⟩ := Option.bind_eq_some_iff.mp ran
    refine ⟨pipe, obs, notArrive, step, ?_⟩
    simp only at ran
    split at ran
    · rename_i sent
      split at ran
      · rename_i nothing
        cases ran
        exact .quiet (fun _ => nothing) fun failed => absurd (sent.symm.trans failed) (by decide)
      · rename_i cb zsockCtx peer msg going
        obtain ⟨parcel, made, same⟩ := Option.map_eq_some_iff.mp ran
        obtain ⟨inlet, connected, made⟩ := Option.bind_eq_some_iff.mp made
        cases same
        exact .routed sent going connected made
    · rename_i failed
      have failed : (sendResults obs).all (0 ≤ ·) = false := by simpa using failed
      split at ran
      · split at ran
        · rename_i sender
          cases ran
          exact .lost failed sender
        · rename_i other
          cases ran
          exact .quiet (fun sent => absurd (sent.symm.trans failed) (by decide)) fun _ r i zsockCtx sender =>
            other r i zsockCtx sender
      · cases ran

/-- SEND's table names each socket as the path it is bound to. -/
theorem sendTable_paths {host : Host} {llist : List (Element ZsockCtx)} (table : SendTable host llist) :
    ∀ e ∈ llist, e.data.ipcPath = zsockIpcPath host e.key := by
  induction table with
  | started net =>
    have entry : (initializeThread host .trSend net).2 =
        [⟨ascii "ROUTER", ascii "ROUTER", .router, zsockIpcPath host (ascii "ROUTER"), net.next⟩] := rfl
    rw [entry]
    simp
  | @acted llist net n plain table paths =>
    cases n with
    | create appls =>
      have text : formatText host.printfUndef appls.svcnameStr = appls.svcnameStr := formatText_of_plain _ plain
      rcases addZsockToList_cases host appls.svcnameStr .push net llist with same | added
      · rw [Notification.run, same]
        exact paths
      · intro entry member
        rcases List.mem_cons.mp ((addElement_perm added).mem_iff.mp member) with rfl | earlier
        · simp [newZsock, text]
        · exact paths entry earlier
    | remove appls => exact fun entry member => paths entry (delZsockFromList_sublist.mem member)

/-- A client on the service's own path is an instance of the service. -/
theorem inlet_service {zsockCtx : ZsockCtx} {svc : Bytes} (connected : S.inlet c zsockCtx none = some inlet)
    (path : zsockCtx.ipcPath = zsockIpcPath S.host svc) : inlet = .pull ∧ (S.conf c).svcname = svc := by
  simp only [Site.inlet] at connected
  split at connected
  · rename_i same
    have own : (S.start c).2.pull = zsockIpcPath S.host (S.conf c).svcname := by
      simp [Site.start, zutilInit, zutilInitCreateZconnects, zsockIpcPath, S.sameHome, mainIpcPath]
    cases connected
    exact ⟨rfl, Opened.zsockIpcPath_injective S.host (own.symm.trans (same.trans path))⟩
  · cases connected

theorem inlet_instance {zsockCtx : ZsockCtx} {identity : Bytes}
    (connected : S.inlet c zsockCtx (some identity) = some inlet) : inlet = .dealer ∧ S.uuid c = identity := by
  simp only [Site.inlet] at connected
  split at connected
  · rename_i same
    cases connected
    exact ⟨rfl, same.2⟩
  · cases connected

/-- What the broker has made of what it received: each successful relay is a
parcel, and each refusal a parcel too, once its reply is sent. -/
structure Relays (S : Site) (acts : List Pipeline.Act) (trace : List Obs) (N : Network) : Prop where
  run : (Pipeline.machine S.host).Runs acts N.pipe (brokerTrace trace)
  plain : ∀ n, .post n ∈ acts → 37 ∉ n.svc
  relays : ((routed trace).filter (!·.reply)).map Parcel.i = (brokerTrace trace).filterMap Obs.relayed?
  replies : Fifo (.lost ∈ trace) (((routed trace).filter (·.reply)).map Parcel.i)
    (N.pipe.pending.filterMap Callback.reply?) (((brokerTrace trace).filterMap Obs.refused?).map Prod.fst)
  genuine : ∀ parcel ∈ routed trace, Genuine S N.pipe.seen parcel

theorem brokerTrace_broker (obs : List MsaBroker.Obs) : brokerTrace (obs.map .broker) = obs := by
  simp [brokerTrace, List.filterMap_map]

theorem routed_broker (obs : List MsaBroker.Obs) : routed (obs.map .broker) = [] := by
  simp [routed, List.filterMap_map]

/-- What the clients and the network do leaves the broker as it is. -/
theorem Relays.frame (relays : Relays S acts trace N) (noBroker : brokerTrace out = []) (noRouted : routed out = [])
    (pipe : N'.pipe = N.pipe) : Relays S acts (trace ++ out) N' := by
  obtain ⟨run, plain, relayed, replies, genuine⟩ := relays
  refine ⟨?_, plain, ?_, ?_, ?_⟩
  · simpa [noBroker, pipe] using run
  · simpa [noBroker, noRouted] using relayed
  · simpa [noBroker, noRouted, pipe] using replies.weaken (lost_later out)
  · simpa [noRouted, pipe] using genuine

/-- A message reaches the PULL socket. -/
theorem Relays.carry {up : Nat → List (Nat × Message)} (relays : Relays S acts trace N) (m : Message) :
    Relays S (acts ++ [.arrive m]) (trace ++ [.carried d n])
      { N with up := up, pipe := { N.pipe with pull := N.pipe.pull.arrive m } } := by
  have silent : brokerTrace [.carried d n] = [] := rfl
  have nothing : routed [.carried d n] = [] := rfl
  refine ⟨?_, ?_, ?_, ?_, ?_⟩
  · simpa [silent] using relays.run.snoc (show (Pipeline.machine S.host).step N.pipe (.arrive m) = _ from rfl)
  · simpa using relays.plain
  · simpa [silent, nothing] using relays.relays
  · simpa [silent, nothing, Pipeline.pending] using relays.replies.weaken (lost_later [.carried d n])
  · simpa [nothing] using relays.genuine

theorem Relays.plain_snoc {a : Pipeline.Act} (relays : Relays S acts trace N) (plain : ∀ n, a = .post n → 37 ∉ n.svc) :
    ∀ n, .post n ∈ acts ++ [a] → 37 ∉ n.svc := by
  intro n member
  rcases List.mem_append.mp member with earlier | last
  · exact relays.plain n earlier
  · exact plain n (List.mem_singleton.mp last).symm

section Step

variable {a : Pipeline.Act} {p' : Pipeline} {obs : List MsaBroker.Obs} {r : CtxRef}
  (relays : Relays S acts trace N) (step : Pipeline.step S.host N.pipe a = some (p', obs))
  (plain : ∀ n, a = .post n → 37 ∉ n.svc)
include relays step plain

/-- A step that sends no parcel, with the refusal it makes, if it makes one. -/
theorem Relays.quiet {refused : List Nat} (later : List Message) (seen : p'.seen = N.pipe.seen ++ later)
    (noRelay : obs.filterMap Obs.relayed? = []) (refusals : (obs.filterMap Obs.refused?).map Prod.fst = refused)
    (queued : p'.pending.filterMap Callback.reply? = N.pipe.pending.filterMap Callback.reply? ++ refused)
    (one : refused = [] ∨ ∃ i, refused = [i]) :
    Relays S (acts ++ [a]) (trace ++ obs.map .broker) { N with pipe := p' } := by
  refine ⟨?_, relays.plain_snoc plain, ?_, ?_, ?_⟩
  · rw [brokerTrace_append, brokerTrace_broker]
    exact relays.run.snoc step
  · simp [brokerTrace_broker, routed_broker, noRelay, relays.relays]
  · have before := relays.replies.weaken (lost_later (obs.map .broker))
    simp only [brokerTrace_append, brokerTrace_broker, routed_append, routed_broker, List.append_nil,
      List.filterMap_append, List.map_append, refusals, queued]
    rcases one with rfl | ⟨i, rfl⟩
    · simpa using before
    · exact before.push i
  · intro parcel member
    rw [routed_append, routed_broker, List.append_nil] at member
    exact seen ▸ (relays.genuine parcel member).later later

/-- A step that ends a relay. -/
theorem Relays.relay {parcel : Parcel} {flight : Nat × Inlet → List Parcel} (seen : p'.seen = N.pipe.seen)
    (relayed : obs.filterMap Obs.relayed? = [parcel.i]) (noRefusal : obs.filterMap Obs.refused? = [])
    (queued : p'.pending.filterMap Callback.reply? = N.pipe.pending.filterMap Callback.reply?)
    (noReply : parcel.reply = false) (genuine : Genuine S N.pipe.seen parcel) :
    Relays S (acts ++ [a]) (trace ++ (obs.map .broker ++ [.routed parcel])) { N with pipe := p', flight := flight } := by
  have own : routed [.routed parcel] = [parcel] := rfl
  have silent : brokerTrace [.routed parcel] = [] := rfl
  refine ⟨?_, relays.plain_snoc plain, ?_, ?_, ?_⟩
  · simp only [brokerTrace_append, brokerTrace_broker, silent, List.append_nil]
    exact relays.run.snoc step
  · simp [brokerTrace_broker, routed_broker, own, silent, relayed, noReply, relays.relays]
  · simp only [brokerTrace_append, brokerTrace_broker, silent, List.append_nil, routed_append, routed_broker, own,
      List.nil_append, List.filter_append, List.filterMap_append, noRefusal, queued]
    simpa [noReply] using relays.replies
  · intro parcel' member
    simp only [routed_append, routed_broker, own, List.nil_append] at member
    rw [seen]
    rcases List.mem_append.mp member with earlier | last
    · exact relays.genuine parcel' earlier
    · rwa [List.mem_singleton.mp last]

/-- A step that sends a reply. -/
theorem Relays.reply {parcel : Parcel} {flight : Nat × Inlet → List Parcel} {replies : List Nat}
    (seen : p'.seen = N.pipe.seen) (noRelay : obs.filterMap Obs.relayed? = [])
    (noRefusal : obs.filterMap Obs.refused? = [])
    (next : N.pipe.pending.filterMap Callback.reply? = parcel.i :: replies)
    (queued : p'.pending.filterMap Callback.reply? = replies) (isReply : parcel.reply = true)
    (genuine : Genuine S N.pipe.seen parcel) :
    Relays S (acts ++ [a]) (trace ++ (obs.map .broker ++ [.routed parcel])) { N with pipe := p', flight := flight } := by
  have before := relays.replies
  rw [next] at before
  have silent : brokerTrace [.routed parcel] = [] := rfl
  have own : routed [.routed parcel] = [parcel] := rfl
  refine ⟨?_, relays.plain_snoc plain, ?_, ?_, ?_⟩
  · simp only [brokerTrace_append, brokerTrace_broker, silent, List.append_nil]
    exact relays.run.snoc step
  · simp [brokerTrace_broker, routed_broker, silent, own, noRelay, isReply, relays.relays]
  · simp only [brokerTrace_append, brokerTrace_broker, silent, List.append_nil, routed_append, routed_broker, own,
      List.nil_append, List.filter_append, List.filterMap_append, noRefusal, queued]
    simpa [isReply] using before.pop
  · intro parcel' member
    simp only [routed_append, routed_broker, own, List.nil_append] at member
    rw [seen]
    rcases List.mem_append.mp member with earlier | last
    · exact relays.genuine parcel' earlier
    · rwa [List.mem_singleton.mp last]

/-- A step that fails to. -/
theorem Relays.unanswered {replies : List Nat} (seen : p'.seen = N.pipe.seen)
    (noRelay : obs.filterMap Obs.relayed? = []) (noRefusal : obs.filterMap Obs.refused? = [])
    (next : N.pipe.pending.filterMap Callback.reply? = i :: replies)
    (queued : p'.pending.filterMap Callback.reply? = replies) :
    Relays S (acts ++ [a]) (trace ++ (obs.map .broker ++ [.lost])) { N with pipe := p' } := by
  have before := relays.replies
  rw [next] at before
  have silent : brokerTrace [.lost] = [] := rfl
  have nothing : routed [.lost] = [] := rfl
  refine ⟨?_, relays.plain_snoc plain, ?_, ?_, ?_⟩
  · simp only [brokerTrace_append, brokerTrace_broker, silent, List.append_nil]
    exact relays.run.snoc step
  · simp [brokerTrace_broker, routed_broker, silent, nothing, noRelay, relays.relays]
  · simp only [brokerTrace_append, brokerTrace_broker, silent, List.append_nil, routed_append, routed_broker,
      nothing, List.filterMap_append, noRefusal, queued]
    exact before.lose (List.sublist_cons_self _ _) (by simp)
  · intro parcel member
    simp only [routed_append, routed_broker, nothing, List.append_nil] at member
    exact seen ▸ relays.genuine parcel member

end Step

theorem Sends.nothing {pipe : Pipeline} {obs : List MsaBroker.Obs} (sends : Sends S c N pipe obs N' out)
    (unsent : obs.findSome? Obs.sender? = none ∨ (sendResults obs).all (0 ≤ ·) = false ∧
      ∀ r i zsockCtx, obs.findSome? Obs.sender? ≠ some (.routerErrReply r i, zsockCtx)) :
    N' = { N with pipe := pipe } ∧ out = obs.map .broker := by
  cases sends with
  | quiet => exact ⟨rfl, rfl⟩
  | lost failed sender =>
    rcases unsent with silent | ⟨-, noReply⟩
    · cases silent.symm.trans sender
    · exact absurd sender (noReply _ _ _)
  | routed sent going =>
    rcases unsent with silent | ⟨failed, -⟩
    · rw [outgoing, silent] at going
      cases going
    · cases sent.symm.trans failed

/-- A callback with a target: what it sends is a parcel, or a lost reply, or
nothing. -/
theorem Sends.attempt {pipe : Pipeline} {cb : Callback} {llist : List (Element ZsockCtx)} {r : CtxRef} {ctx : MsgCtx}
    {t : Target} {res : SendRes} {last : List MsaBroker.Obs} {msg : Message}
    (sends : Sends S c N pipe (.callback cb llist res :: (relayAttempt S.host cb r ctx (some t) res ++ last)) N' out)
    (quiet : ∀ o ∈ last, o.isAttempt = false)
    (deliver : t.zsockCtx.type.deliver (t.uuid.toList ++ [ctx.head.bytes, bodySent S.host r ctx]) =
      some (t.uuid, msg)) :
    let obs := .callback cb llist res :: (relayAttempt S.host cb r ctx (some t) res ++ last)
    (t.delivered res = false ∧ (∀ r i, cb ≠ .routerErrReply r i) ∧ N' = { N with pipe := pipe } ∧
        out = obs.map .broker) ∨
      (t.delivered res = false ∧ (∃ r i, cb = .routerErrReply r i) ∧ N' = { N with pipe := pipe } ∧
        out = obs.map .broker ++ [.lost]) ∨
      t.delivered res = true ∧ ∃ inlet parcel, S.inlet c t.zsockCtx t.uuid = some inlet ∧
        cb.parcel c inlet msg = some parcel ∧
        N' = { N with
          pipe := pipe
          flight := Function.update N.flight parcel.way (N.flight parcel.way ++ [parcel]) } ∧
        out = obs.map .broker ++ [.routed parcel] := by
  intro obs
  have results := callback_results S.host cb llist r ctx t res quiet
  have sender := callback_sender S.host cb llist r ctx t res last
  have going (delivered : t.delivered res = true) : outgoing obs = some (cb, t.zsockCtx, t.uuid, msg) :=
    callback_outgoing S.host cb llist r ctx t res quiet delivered deliver
  cases sends with
  | quiet nothing noReply =>
    left
    have failed : t.delivered res = false := by
      by_contra sent
      have delivered : t.delivered res = true := by simpa using sent
      have none := nothing (results.trans delivered)
      rw [going delivered] at none
      cases none
    refine ⟨failed, fun r' i same => ?_, rfl, rfl⟩
    exact noReply (results.trans failed) r' i t.zsockCtx (same ▸ sender)
  | lost failed isReply =>
    right; left
    rw [sender] at isReply
    cases isReply
    exact ⟨results.symm.trans failed, ⟨_, _, rfl⟩, rfl, rfl⟩
  | routed sent gone connected made =>
    right; right
    have delivered : t.delivered res = true := results.symm.trans sent
    rw [going delivered] at gone
    cases gone
    exact ⟨delivered, _, _, connected, made, rfl, rfl⟩

/-- **Every step of the broker keeps its parcels genuine and in the ledger's
order.** -/
theorem Relays.broker {a : Pipeline.Act} {p' : Pipeline} {obs : List MsaBroker.Obs}
    (relays : Relays S acts trace N) (upward : Upward S trace N)
    (step : Pipeline.step S.host N.pipe a = some (p', obs)) (plain : ∀ n, a = .post n → 37 ∉ n.svc)
    (notArrive : ∀ m, a ≠ .arrive m) (sends : Sends S c N p' obs N' out) :
    Relays S (acts ++ [a]) (trace ++ out) N' := by
  have inv := Pipeline.runs_inv relays.run
  have moves : N.pipe.Moves S.host (brokerTrace trace) a p' obs := inv.step_moves step
  cases moves with
  | arrive m => exact absurd rfl (notArrive m)
  | prepare idle =>
    obtain ⟨rfl, rfl⟩ := sends.nothing (.inl rfl)
    exact relays.quiet step plain [] (by simp) rfl rfl (by simp [Pipeline.pending]) (.inl rfl)
  | empty held nothing =>
    obtain ⟨rfl, rfl⟩ := sends.nothing (.inl rfl)
    exact relays.quiet step plain [] (by simp) rfl rfl (by simp [Pipeline.pending]) (.inl rfl)
  | @refuse r m code queue more held next failed =>
    have member : m ∈ N.pipe.seen ++ N.pipe.pull.queue := by simp [next]
    obtain ⟨d, posted⟩ := upward.received member
    cases failed.symm.trans posted.passed
  | @accept r m queue more held next passed =>
    obtain ⟨rfl, rfl⟩ := sends.nothing (.inl rfl)
    exact relays.quiet step plain [m] rfl rfl rfl
      (by simp [Pipeline.pending, Pipeline.eventBaseOnce, Pipeline.taken, List.filterMap_cons]) (.inl rfl)
  | post n =>
    obtain ⟨rfl, rfl⟩ := sends.nothing (.inl rfl)
    refine relays.quiet step plain [] (by simp [Pipeline.eventBaseOnce]) rfl rfl ?_ (.inl rfl)
    cases n <;> simp [Pipeline.pending, Pipeline.eventBaseOnce, Notification.callback, List.filterMap_cons]
  | take idle next =>
    obtain ⟨rfl, rfl⟩ := sends.nothing (.inl rfl)
    exact relays.quiet step plain [] (by simp) rfl rfl (by simp [Pipeline.pending, idle, next]) (.inl rfl)
  | create running =>
    obtain ⟨rfl, rfl⟩ := sends.nothing (.inl rfl)
    exact relays.quiet step plain [] (by simp [evsockPushCreate]) rfl rfl
      (by simp [Pipeline.pending, running, evsockPushCreate, List.filterMap_cons]) (.inl rfl)
  | remove running =>
    obtain ⟨rfl, rfl⟩ := sends.nothing (.inl rfl)
    exact relays.quiet step plain [] (by simp [evsockPushRemove]) rfl rfl
      (by simp [Pipeline.pending, running, evsockPushRemove, List.filterMap_cons]) (.inl rfl)
  | @relay r i m old res running received passed head buffer verdict =>
    obtain ⟨d, posted⟩ := upward.received (List.mem_append_left _ (List.mem_of_getElem? received))
    obtain ⟨t, target, delivered⟩ : ∃ t, relayTarget m.header (cstr m.header.dest.bytes) N.pipe.zsockLlist = some t ∧
        t.delivered res = true := by
      rw [posted.destOf] at verdict
      rcases relayVerdict_valid _ N.pipe.zsockLlist res posted.route with ⟨t, target, delivered, -⟩ | failed
      · exact ⟨t, target, delivered⟩
      · cases verdict.symm.trans failed
    obtain ⟨deliver, svc, inst⟩ := Pipeline.relayTarget_delivers inv (Pipeline.runs_pushOnly relays.run)
      posted.notRouter target (N.pipe.pool.read r).head.bytes (bodySent S.host r (N.pipe.pool.read r))
    rw [posted.destOf, target] at sends step
    rcases sends.attempt (by simp [Obs.isAttempt]) deliver with
      ⟨failed, -⟩ | ⟨failed, -⟩ | ⟨-, inlet, parcel, connected, made, rfl, rfl⟩
    · cases delivered.symm.trans failed
    · cases delivered.symm.trans failed
    · cases made
      refine relays.relay step plain rfl (by simp [List.filterMap_cons]) (by simp [List.filterMap_cons])
        (by simp [Pipeline.pending, running, Pipeline.statInc, Pipeline.reasonInc, List.filterMap_cons]) rfl ?_
      have whole : (⟨(N.pipe.pool.read r).head.bytes, [bodySent S.host r (N.pipe.pool.read r)]⟩ : Message) = m := by
        rw [posted.body (.inl rfl) head buffer, head]
        exact posted.frames.symm
      rw [whole]
      refine .relay received posted ?_
      rcases posted.route with route | route
      · obtain ⟨unnamed, entry⟩ := svc route
        obtain ⟨e, found, data⟩ := Option.map_eq_some_iff.mp entry
        obtain ⟨member, key⟩ := getElement_some found
        have path := sendTable_paths (runs_sendTable relays.run relays.plain) e member
        rw [data, key] at path
        rw [unnamed] at connected
        obtain ⟨pull, name⟩ := inlet_service connected path
        exact .inl ⟨route, pull, name⟩
      · rw [inst route] at connected
        obtain ⟨dealer, name⟩ := inlet_instance connected
        exact .inr ⟨route, dealer, name⟩
  | @relayFail r i m old res code running received passed head buffer verdict failed =>
    obtain ⟨d, posted⟩ := upward.received (List.mem_append_left _ (List.mem_of_getElem? received))
    rw [posted.destOf] at sends verdict step
    have unsent (t : Target) (target : relayTarget m.header (cstr m.header.dest.bytes) N.pipe.zsockLlist = some t) :
        t.delivered res = false := by
      by_contra sent
      have delivered : t.delivered res = true := by simpa using sent
      have valid : ¬ (m.header.route ≠ zmsgRouteSvc ∧ m.header.route ≠ zmsgRouteInst) := by
        rintro ⟨notSvc, notInst⟩
        exact posted.route.elim notSvc notInst
      rw [relayVerdict, if_neg valid, target] at verdict
      exact failed (by simpa [delivered] using verdict.symm)
    cases target : relayTarget m.header (cstr m.header.dest.bytes) N.pipe.zsockLlist with
    | none =>
      rw [target] at sends step
      obtain ⟨rfl, rfl⟩ := sends.nothing (.inl rfl)
      exact relays.quiet step plain [] (by simp [Pipeline.refused]) rfl rfl
        (by simp [Pipeline.pending, running, Pipeline.refused, List.filterMap_cons]) (.inr ⟨i, rfl⟩)
    | some t =>
      rw [target] at sends step
      have noSend : ∀ o ∈ [Obs.errMsgReply r i code], o.isAttempt = false := by simp [Obs.isAttempt]
      have results := callback_results S.host (.pushRelay r i) N.pipe.zsockLlist r (N.pipe.pool.read r) t res noSend
      have sender := callback_sender S.host (.pushRelay r i) N.pipe.zsockLlist r (N.pipe.pool.read r) t res
        [.errMsgReply r i code]
      obtain ⟨rfl, rfl⟩ := sends.nothing (.inr ⟨results.trans (unsent t target), fun r' i' zsockCtx reply => by
        cases sender.symm.trans reply⟩)
      exact relays.quiet step plain [] (by simp [Pipeline.refused]) (by simp [List.filterMap_cons])
        (by simp [List.filterMap_cons]) (by simp [Pipeline.pending, running, Pipeline.refused, List.filterMap_cons])
        (.inr ⟨i, rfl⟩)
  | @reply r i elem res running carried router =>
    cases carried with
    | @reply r i m code old received refuses counted head buffer =>
      obtain ⟨d, posted⟩ := upward.received (List.mem_append_left _ (List.mem_of_getElem? received))
      obtain rfl : code = .failToRoute := posted.refused relays.run received counted
      obtain ⟨elem', found, type⟩ := inv.router
      cases router.symm.trans found
      have queued : N.pipe.pending.filterMap Callback.reply? = i :: N.pipe.evbase.filterMap Callback.reply? := by
        simp [Pipeline.pending, running]
      have sender : (N.pipe.pool.read r).head.fromStr (S.host.afterHead r) = cstr m.header.from_.bytes := by
        have same : (N.pipe.pool.read r).head.from_ = m.header.from_ := by
          rw [head]
          exact (replyHead_addressed refuses).2
        have terminated : (N.pipe.pool.read r).head.from_.Terminated := same ▸ posted.sender.1
        rw [Envelop.fromStr_of_terminated terminated, same]
      rw [sender] at sends step
      have deliver : elem.data.type.deliver ([cstr m.header.from_.bytes] ++
          [(N.pipe.pool.read r).head.bytes, bodySent S.host r (N.pipe.pool.read r)]) =
            some (some (cstr m.header.from_.bytes), ⟨(replyHead m .failToRoute).bytes, [m.body]⟩) := by
        rw [type, posted.body (.inr rfl) head buffer, head]
        rfl
      rcases sends.attempt (by simp [Obs.isAttempt]) deliver with
        ⟨-, noReply, -⟩ | ⟨-, -, rfl, rfl⟩ | ⟨-, inlet, parcel, connected, made, rfl, rfl⟩
      · exact absurd rfl (noReply r i)
      · exact relays.unanswered step plain rfl (by simp [List.filterMap_cons]) (by simp [List.filterMap_cons]) queued
          (by simp [Pipeline.pending])
      · cases made
        obtain ⟨rfl, own⟩ := inlet_instance connected
        exact relays.reply step plain rfl (by simp [List.filterMap_cons]) (by simp [List.filterMap_cons]) queued
          (by simp [Pipeline.pending]) rfl (.reply received posted own)

end Network

end MsaBroker
