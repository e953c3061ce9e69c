import MsaBroker.BufferLength
import MsaBroker.Counters
import MsaBroker.MsgBody
import MsaBroker.Zutil

/-! From `zutil_send` in one client through RECV and SEND to `zutil_recv` in
another, or back to the sender as an error reply. The header a client makes
passes every check of RECV, so only the route can fail, and what a relay or a
reply hands to ZeroMQ is what the sender gave. -/
namespace MsaBroker
open CMemory

/-! ## The sender -/

/-- A client after `zutil_init` and any calls of its own, whatever its sockets
hold. -/
inductive ZutilCtx.Reached : ZutilCtx → Prop
  | init (undef : Bytes → Bytes) (ivHome sysuuid svcname appname : Bytes) :
      Reached (zutilInit undef ivHome sysuuid svcname appname).1
  | sockets {z : ZutilCtx} (sub dealer pull : InSock) (before : Reached z) :
      Reached { z with sub := sub, dealer := dealer, pull := pull }
  | regi {z : ZutilCtx} (now : Int64) (ctime : Bytes) (res : ZutilRes) (before : Reached z) :
      Reached (zutilRegi now ctime res z).1
  | send {z : ZutilCtx} (route : UInt32) (dest buff : Bytes) (size : Nat) (stamp : Option Bytes) (res : ZutilRes)
      (before : Reached z) : Reached (zutilSend route dest buff size stamp res z).2.1
  | recv {z : ZutilCtx} (head : Envelop) (buff : Bytes) (size : Nat) (before : Reached z) :
      Reached (zutilRecv head buff size z).2.2.2

variable {route : UInt32} {dest buff head body : Bytes} {size : Nat} {stamp : Option Bytes}
  {sendRes : ZutilRes} {z : ZutilCtx}

/-- `zutil_init` leaves a terminator in the sender's identity, whatever the
system's uuid file holds. -/
theorem zutilInit_registered (undef : Bytes → Bytes) (ivHome sysuuid svcname appname : Bytes) :
    (zutilInit undef ivHome sysuuid svcname appname).1.regiBody.uuid.Terminated := by
  have short : ((sysuuid.take (zmsgCommStrlen - 1)).takeWhile (· ≠ 10)).length < zmsgCommStrlen := by
    apply Nat.lt_of_le_of_lt (List.takeWhile_sublist _).length_le
    rw [List.length_take]
    exact Nat.lt_of_le_of_lt (Nat.min_le_left _ _) (by decide)
  apply List.mem_append_right
  rw [ApplsCtx.zero, Buf.zero_bytes, List.drop_replicate]
  exact List.mem_replicate.mpr ⟨by omega, rfl⟩

theorem zutilRegi_uuid (now : Int64) (ctime : Bytes) (res : ZutilRes) (z : ZutilCtx) :
    (zutilRegi now ctime res z).1.regiBody.uuid = z.regiBody.uuid := by
  unfold zutilRegi
  split <;> rfl

theorem zutilSend_uuid (route : UInt32) (dest buff : Bytes) (size : Nat) (stamp : Option Bytes) (res : ZutilRes)
    (z : ZutilCtx) : (zutilSend route dest buff size stamp res z).2.1.regiBody.uuid = z.regiBody.uuid := by
  simp only [zutilSend]
  split_ifs <;> rfl

theorem zutilRecv_uuid (head : Envelop) (buff : Bytes) (size : Nat) (z : ZutilCtx) :
    (zutilRecv head buff size z).2.2.2.regiBody.uuid = z.regiBody.uuid := by
  have kept (rc : Int32) : (z.regiBody.received rc).uuid = z.regiBody.uuid := by
    unfold ApplsCtx.received
    split <;> rfl
  unfold zutilRecv
  split_ifs
  · exact kept _
  · exact kept _
  · exact kept _
  · rfl

/-- No later call writes the identity. -/
theorem ZutilCtx.Reached.registered (reached : z.Reached) : z.regiBody.uuid.Terminated := by
  induction reached with
  | init => apply zutilInit_registered
  | sockets _ _ _ _ before => exact before
  | regi now ctime res _ before => rwa [zutilRegi_uuid]
  | send route dest buff size stamp res _ before => rwa [zutilSend_uuid]
  | recv head buff size _ before => rwa [zutilRecv_uuid]

/-! ## What a client sends -/

/-- An accepted call hands over its header and the bytes of `buff`. -/
theorem zutilSend_frames (sent : (zutilSend route dest buff size stamp sendRes z).2.2 = [head, body]) :
    (route = zmsgRouteSvc ∨ route = zmsgRouteInst) ∧ 0 < size ∧
      head = (zutilHead route dest size stamp z).bytes ∧ body = buff.take size := by
  unfold zutilSend at sent
  split at sent
  · cases sent
  · rename_i invalid
    split at sent
    · cases sent
    · rename_i limits
      simp only at sent
      split at sent
      · cases sent
        refine ⟨?_, by omega, rfl, rfl⟩
        by_contra neither
        exact invalid (not_or.mp neither)
      · cases sent

/-- A header whose fields are those of a call, its strings cut to their fields. -/
structure CarriesCall (route : UInt32) (dest : Bytes) (size : Nat) (stamp : Option Bytes) (z : ZutilCtx)
    (h : Envelop) : Prop where
  type : h.type = zmsgTraffic
  route : h.route = route
  nBytes : h.nBytes.toInt = size
  from_ : cstr h.from_.bytes = z.regiBody.uuidStr
  stamp : cstr h.stamp.bytes = (stamp.getD []).take (zmsgCommStrlen - 1)
  dest : cstr h.dest.bytes = dest.take (zmsgCommStrlen - 1)

/-- A string of a client's header as it was formatted. -/
private theorem cstr_field (old : Buf zmsgCommStrlen) {text : Bytes} (plain : 0 ∉ text) :
    cstr (old.snprintf text).bytes = text.take (zmsgCommStrlen - 1) := by
  have read := Buf.cstr_snprintf old [] zmsgCommStrlen_pos plain
  rwa [List.append_nil] at read

theorem zutilHead_carries (registered : z.regiBody.uuid.Terminated) (destText : 0 ∉ dest)
    (stampText : 0 ∉ stamp.getD []) (fits : size ≤ maxMsgsizeByte) :
    CarriesCall route dest size stamp z (zutilHead route dest size stamp z) where
  type := rfl
  route := rfl
  nBytes := by
    have small : size ≤ 1024 := fits
    exact Int32.toInt_ofNat_of_lt (by omega)
  from_ := by
    have short : z.regiBody.uuidStr.length < zmsgCommStrlen := by
      rw [ApplsCtx.uuidStr_of_terminated registered]
      simpa using cstr_length_lt registered
    have read := cstr_field Envelop.zero.from_ (cstr_no_zero (z.regiBody.uuid.bytes ++ z.regiBody.fromSvcname))
    rw [List.take_of_length_le (by exact Nat.le_sub_one_of_lt short)] at read
    exact read
  stamp := cstr_field Envelop.zero.stamp stampText
  dest := cstr_field Envelop.zero.dest destText

/-- An error reply keeps the fields of the call. -/
theorem CarriesCall.reply {h : Envelop} (carries : CarriesCall route dest size stamp z h) (code : ZmsgResp)
    (text : Bytes) : CarriesCall route dest size stamp z (h.reply code text) :=
  ⟨carries.type, carries.route, carries.nBytes, carries.from_, carries.stamp, carries.dest⟩

/-! ## What a client receives -/

/-- The message is next on the client's PULL socket, and the sockets polled
before it have nothing. -/
def ZutilCtx.NextOnPull (msg : Message) (z : ZutilCtx) : Prop :=
  z.sub.pollin = false ∧ z.dealer.pollin = false ∧ ∃ queue, z.pull = ⟨[], msg :: queue⟩

/-- The message is next on the client's DEALER socket, and the SUB socket has
nothing. -/
def ZutilCtx.NextOnDealer (msg : Message) (z : ZutilCtx) : Prop :=
  z.sub.pollin = false ∧ ∃ queue, z.dealer = ⟨[], msg :: queue⟩

/-- Wherever `zutil_recv` takes the message, with a buffer larger than the body,
it returns the body's length, this header, and the body with a terminator. -/
def Yields (next : ZutilCtx → Prop) (h : Envelop) (body : Bytes) : Prop :=
  ∀ z old buff size, next z → body.length < size → size ≤ buff.length →
    let (rc, head, buff, _) := zutilRecv old buff size z
    rc.toInt = body.length ∧ head = h ∧ buff.take body.length = body ∧ buff[body.length]? = some 0

/-- The two receives on a message of two frames. -/
private theorem zutilRecvFrom_yields (h : Envelop) (body : Bytes) (queue : List Message) (old : Envelop)
    {buff : Bytes} {size : Nat} (short : body.length ≤ maxMsgsizeByte) (room : body.length < size)
    (memory : size ≤ buff.length) :
    let (rc, head, buff, _) := zutilRecvFrom ⟨[], ⟨h.bytes, [body]⟩ :: queue⟩ old buff size
    rc.toInt = body.length ∧ head = h ∧ buff.take body.length = body ∧ buff[body.length]? = some 0 := by
  have small : body.length ≤ 1024 := short
  rw [zutilRecvFrom_sent h body queue old buff size (by omega)]
  have whole : body.take size = body := List.take_of_length_le (by omega)
  have part : min body.length size = body.length := by omega
  refine ⟨Int32.toInt_ofNat_of_lt (by omega), rfl, ?_, ?_⟩
  · simp [whole, part]
  · rw [whole, part]
    apply List.getElem?_set_self
    rw [List.length_append, List.length_drop]
    omega

theorem nextOnPull_yields (h : Envelop) (short : body.length ≤ maxMsgsizeByte) :
    Yields (ZutilCtx.NextOnPull ⟨h.bytes, [body]⟩) h body := by
  rintro z old buff size ⟨sub, dealer, queue, pull⟩ room memory
  have ready : InSock.pollin ⟨[], ⟨h.bytes, [body]⟩ :: queue⟩ = true := rfl
  have taken := zutilRecvFrom_yields h body queue old short room memory
  simpa [zutilRecv, sub, dealer, ready, pull] using taken

theorem nextOnDealer_yields (h : Envelop) (short : body.length ≤ maxMsgsizeByte) :
    Yields (ZutilCtx.NextOnDealer ⟨h.bytes, [body]⟩) h body := by
  rintro z old buff size ⟨sub, queue, dealer⟩ room memory
  have ready : InSock.pollin ⟨[], ⟨h.bytes, [body]⟩ :: queue⟩ = true := rfl
  have taken := zutilRecvFrom_yields h body queue old short room memory
  simpa [zutilRecv, sub, ready, dealer] using taken

/-! ## What the broker hands to ZeroMQ -/

/-- A frame as it travels. -/
def Frame.bytes : Frame → Bytes
  | .identity uuid => uuid
  | .head h => h.bytes
  | .body _ data => data

/-- The frames given to `zmq_send`, in order. -/
def sentFrames (obs : List Obs) : List Bytes :=
  obs.filterMap fun
    | .zmqSend _ _ frame _ => some frame.bytes
    | _ => none

/-- Everything sent goes to this socket. -/
def SentOn (zsockCtx : ZsockCtx) (obs : List Obs) : Prop :=
  ∀ cb zsockCtx' frame rc, .zmqSend cb zsockCtx' frame rc ∈ obs → zsockCtx' = zsockCtx

variable {host : Host} {cb : Callback} {r : CtxRef} {ctx : MsgCtx} {t : Target} {res : SendRes}

/-- A relay whose sends all succeed sends the identity, where there is one, the
header and the body. -/
theorem relayTo_sent (delivered : t.delivered res = true) :
    sentFrames (relayTo host cb r ctx t res).2 = t.uuid.toList ++ [ctx.head.bytes, bodySent host r ctx] := by
  obtain ⟨zsockCtx, uuid⟩ := t
  obtain ⟨routeRes, headRes, bodyRes⟩ := res
  cases uuid with
  | none =>
    obtain ⟨head, body⟩ : ¬ headRes < 0 ∧ ¬ bodyRes < 0 := by
      simpa [Target.delivered, Target.routed] using delivered
    simp [relayTo, serviceRelay, msgRelay, handing, sentFrames, Frame.bytes, head, body]
  | some uuid =>
    obtain ⟨⟨route, head⟩, body⟩ : (¬ routeRes < 0 ∧ ¬ headRes < 0) ∧ ¬ bodyRes < 0 := by
      simpa [Target.delivered, Target.routed] using delivered
    simp [relayTo, routerRelay, msgRelay, handing, sentFrames, Frame.bytes, route, head, body]

theorem relayAttempt_sentOn : SentOn t.zsockCtx (relayAttempt host cb r ctx (some t) res) := by
  intro cb' zsockCtx frame rc sent
  obtain ⟨t', same, handed | ⟨_, _, -, one⟩ | ⟨_, one⟩ | ⟨_, one⟩⟩ := relayAttempt_obs host sent
  · cases handed
  all_goals
    cases same
    cases one
    rfl

namespace Pipeline

variable {p p' : Pipeline} {a : Act} {acts : List Act} {obs trace : List Obs} {i : Nat}

theorem Moves.pushOnly (moves : Moves host trace p a p' obs) (only : PushOnly p.zsockLlist) :
    PushOnly p'.zsockLlist := by
  cases moves with
  | create => exact addZsockToList_pushOnly only
  | remove => exact delZsockFromList_pushOnly only
  | _ => exact only

theorem runs_pushOnly (run : (machine host).Runs acts p trace) : PushOnly p.zsockLlist := by
  apply runs_invariant (fun _ p => PushOnly p.zsockLlist) run
  · intro e member other
    have keys : (Pipeline.init host).zsockLlist.map Element.key = [ascii "ROUTER"] := rfl
    have key : e.key ∈ (Pipeline.init host).zsockLlist.map Element.key := List.mem_map_of_mem member
    rw [keys] at key
    exact absurd (List.mem_singleton.mp key) other
  · intro tr p a p' obs _ only moves
    exact moves.pushOnly only

end Pipeline

/-! ## The broker on a client's message -/

section Call
variable {route : UInt32} {dest buff body : Bytes} {size : Nat} {stamp : Option Bytes} {z : ZutilCtx}

/-- The message of an accepted call. -/
def callMessage (route : UInt32) (dest : Bytes) (size : Nat) (stamp : Option Bytes) (z : ZutilCtx)
    (body : Bytes) : Message := ⟨(zutilHead route dest size stamp z).bytes, [body]⟩

@[simp] theorem callMessage_header :
    (callMessage route dest size stamp z body).header = zutilHead route dest size stamp z :=
  Envelop.store_sent _ _

@[simp] theorem callMessage_body : (callMessage route dest size stamp z body).body = body := rfl

/-- It passes all checks of RECV. -/
theorem callMessage_passes (fits : size ≤ maxMsgsizeByte) (length : body.length = size) :
    firstCheck (callMessage route dest size stamp z body) = none := by
  have small : size ≤ 1024 := fits
  rw [firstCheck_none, callMessage_header, callMessage_body]
  refine ⟨rfl, List.cons_ne_nil _ _, ?_⟩
  rw [recvLength, length, Nat.min_eq_left (by omega)]
  rfl

/-- The header of its error reply. -/
theorem callMessage_reply (route : UInt32) (dest body : Bytes) (size : Nat) (stamp : Option Bytes)
    (z : ZutilCtx) : ∃ text, replyHead (callMessage route dest size stamp z body) .failToRoute =
    (zutilHead route dest size stamp z).reply .failToRoute text :=
  ⟨_, by rw [replyHead, callMessage_header]⟩

/-- What its outcomes send as body, and as header, on a context as the broker
left it. -/
theorem callMessage_sent {code : ZmsgResp} {ctx : MsgCtx} {old : Buf maxMsgsizeByte} (host : Host) (r : CtxRef)
    (fits : size ≤ maxMsgsizeByte) (length : body.length = size)
    (outcome : code = .ok ∨ code = .failToRoute)
    (head : ctx.head = replyHead (callMessage route dest size stamp z body) code)
    (buffer : ctx.buffer = bufferAfter (callMessage route dest size stamp z body) code old) :
    bodySent host r ctx = body := by
  have passed : firstCheck (callMessage route dest size stamp z body) = none := callMessage_passes fits length
  have whole : Message.Outcome (callMessage route dest size stamp z body) code := by
    rcases outcome with rfl | rfl
    · exact .inl ⟨rfl, passed⟩
    · exact .inr (.inr ⟨passed, .inr rfl⟩)
  rw [bodySent_outcome whole head buffer (by simpa [length] using fits)]
  rcases outcome with rfl | rfl <;> rfl

/-- The string the relay looks up is the destination cut to its field. -/
theorem callMessage_dest (host : Host) (r : CtxRef) (destText : 0 ∉ dest) :
    Pipeline.destOf host r (callMessage route dest size stamp z body) = dest.take (zmsgCommStrlen - 1) := by
  have terminated : (zutilHead route dest size stamp z).dest.Terminated :=
    Buf.snprintf_terminated _ _ zmsgCommStrlen_pos
  rw [Pipeline.destOf, callMessage_header, Envelop.destStr_of_terminated terminated]
  exact cstr_field _ destText

/-- With a route of `zutil_send`, a relay that is not successful failed to
route. -/
theorem relayVerdict_valid {h : Envelop} (dest : Bytes) (llist : List (Element ZsockCtx)) (res : SendRes)
    (valid : h.route = zmsgRouteSvc ∨ h.route = zmsgRouteInst) :
    (∃ t, relayTarget h dest llist = some t ∧ t.delivered res = true ∧ relayVerdict h dest llist res = .ok) ∨
      relayVerdict h dest llist res = .failToRoute := by
  have allowed : ¬ (h.route ≠ zmsgRouteSvc ∧ h.route ≠ zmsgRouteInst) := by
    rintro ⟨notSvc, notInst⟩
    exact valid.elim notSvc notInst
  rw [relayVerdict, if_neg allowed]
  cases target : relayTarget h dest llist with
  | none => exact .inr rfl
  | some t =>
    cases delivered : t.delivered res with
    | true => exact .inl ⟨t, rfl, delivered, by simp [delivered]⟩
    | false => exact .inr (by simp [delivered])

end Call

/-! ## The round trip -/

/-- Everything that can become of a call's message, the `i`-th the broker
received, up to the client that takes it from its socket. -/
structure RoundTrip (host : Host) (route : UInt32) (dest : Bytes) (size : Nat) (stamp : Option Bytes)
    (z : ZutilCtx) (body : Bytes) (p : Pipeline) (trace : List Obs) (i : Nat) : Prop where
  /-- It is never refused for its type, its body or its route type. -/
  refused : ∀ r code, .errMsgReply r i code ∈ trace → code = .failToRoute
  /-- A relay that is not successful is answered with FAIL_TO_ROUTE. -/
  failed : ∀ r res p' obs, p.send = some (.pushRelay r i) →
    Pipeline.step host p (.sendRun res) = some (p', obs) → .relayed r i ∉ obs →
      .errMsgReply r i .failToRoute ∈ obs
  /-- A successful one reaches the service or the instance named by the call,
  whose `zutil_recv` yields the call's header and body. -/
  relayed : ∀ r res p' obs, p.send = some (.pushRelay r i) →
    Pipeline.step host p (.sendRun res) = some (p', obs) → .relayed r i ∈ obs →
      ∃ zsockCtx peer msg h, SentOn zsockCtx obs ∧ zsockCtx.type.deliver (sentFrames obs) = some (peer, msg) ∧
        CarriesCall route dest size stamp z h ∧
          (route = zmsgRouteSvc → peer = none ∧
            (getElement (dest.take (zmsgCommStrlen - 1)) p.zsockLlist).map (·.data) = some zsockCtx ∧
              Yields (ZutilCtx.NextOnPull msg) h body) ∧
          (route = zmsgRouteInst → peer = some (dest.take (zmsgCommStrlen - 1)) ∧
            Yields (ZutilCtx.NextOnDealer msg) h body)
  /-- An error reply whose sends succeed reaches the sender, whose `zutil_recv`
  yields the same header with the reason, and the same body. -/
  replied : ∀ r res p' obs, p.send = some (.routerErrReply r i) →
    Pipeline.step host p (.sendRun res) = some (p', obs) →
      0 ≤ res.routeRes → 0 ≤ res.headRes → 0 ≤ res.bodyRes →
        ∃ zsockCtx msg h, SentOn zsockCtx obs ∧
          zsockCtx.type.deliver (sentFrames obs) = some (some z.regiBody.uuidStr, msg) ∧
            CarriesCall route dest size stamp z h ∧ h.respCode = ZmsgResp.failToRoute.code ∧
              Yields (ZutilCtx.NextOnDealer msg) h body

/-- What a callback sends, it sends in its one relay attempt. -/
theorem callback_sends (host : Host) (cb : Callback) (llist : List (Element ZsockCtx)) (r : CtxRef)
    (ctx : MsgCtx) {res : SendRes} {t : Target} (delivered : t.delivered res = true) (last : List Obs)
    (quiet : ∀ o ∈ last, o.isAttempt = false) :
    SentOn t.zsockCtx (.callback cb llist res :: (relayAttempt host cb r ctx (some t) res ++ last)) ∧
      sentFrames (.callback cb llist res :: (relayAttempt host cb r ctx (some t) res ++ last)) =
        t.uuid.toList ++ [ctx.head.bytes, bodySent host r ctx] := by
  constructor
  · intro cb' zsockCtx frame rc sent
    rcases mem_callback.mp sent with none | attempt | after
    · cases none
    · exact relayAttempt_sentOn _ _ _ _ attempt
    · cases quiet _ after
  · have nothing : sentFrames last = [] := by
      refine List.filterMap_eq_nil_iff.mpr fun o member => ?_
      have still := quiet o member
      cases o <;> first | rfl | cases still
    have split : sentFrames (.callback cb llist res :: (relayAttempt host cb r ctx (some t) res ++ last)) =
        sentFrames (relayAttempt host cb r ctx (some t) res) ++ sentFrames last := by
      simp [sentFrames]
    rw [split, nothing, List.append_nil]
    exact relayTo_sent delivered

namespace Pipeline

variable {host : Host} {acts : List Act} {p : Pipeline} {trace : List Obs} {i : Nat} {route : UInt32}
  {dest buff head body : Bytes} {size : Nat} {stamp : Option Bytes} {sendRes : ZutilRes} {z : ZutilCtx}

/-- Cutting a string to its field does not make the router's name of it. -/
theorem eq_router_of_take (same : dest.take 127 = ascii "ROUTER") : dest = ascii "ROUTER" := by
  have cut := congrArg List.length same
  rw [List.length_take] at cut
  have six : (ascii "ROUTER").length = 6 := rfl
  rwa [List.take_of_length_le (by omega)] at same

/-- The socket a relay chooses delivers the two frames to the peer meant: a PUSH
socket for a service, and the router for an instance. -/
theorem relayTarget_delivers {h : Envelop} {t : Target} (inv : p.Inv trace) (only : PushOnly p.zsockLlist)
    (notRouter : h.route = zmsgRouteSvc → dest ≠ ascii "ROUTER")
    (target : relayTarget h dest p.zsockLlist = some t) (head body : Bytes) :
    t.zsockCtx.type.deliver (t.uuid.toList ++ [head, body]) = some (t.uuid, ⟨head, [body]⟩) ∧
      (h.route = zmsgRouteSvc → t.uuid = none ∧ (getElement dest p.zsockLlist).map (·.data) = some t.zsockCtx) ∧
      (h.route = zmsgRouteInst → t.uuid = some dest) := by
  unfold relayTarget at target
  split at target
  · rename_i svc
    obtain ⟨e, found, rfl⟩ := Option.map_eq_some_iff.mp target
    obtain ⟨member, key⟩ := getElement_some found
    have type : e.data.type = .push := only e member (key ▸ notRouter svc)
    exact ⟨by simp [type, ZmqType.deliver], fun _ => ⟨rfl, by simp [found]⟩,
      fun inst => absurd (inst.symm.trans svc) zmsgRouteInst_ne_zmsgRouteSvc⟩
  · rename_i notSvc
    split at target
    · obtain ⟨router, found, type⟩ := inv.router
      rw [found] at target
      cases target
      exact ⟨by simp [type, ZmqType.deliver], fun svc => absurd svc notSvc, fun _ => rfl⟩
    · cases target

section Step
variable (inv : p.Inv trace) (fits : size ≤ maxMsgsizeByte) (length : body.length = size)
  (received : p.seen[i]? = some (callMessage route dest size stamp z body))
  {r : CtxRef} {res : SendRes} {p' : Pipeline} {obs : List Obs}
include inv fits length received

/-- The relay step of a call's message. -/
private theorem call_relay (valid : route = zmsgRouteSvc ∨ route = zmsgRouteInst) (destText : 0 ∉ dest)
    (running : p.send = some (.pushRelay r i)) (step : Pipeline.step host p (.sendRun res) = some (p', obs)) :
    .relayed r i ∉ obs ∧ .errMsgReply r i .failToRoute ∈ obs ∨
      .relayed r i ∈ obs ∧ ∃ t,
        relayTarget (zutilHead route dest size stamp z) (dest.take (zmsgCommStrlen - 1)) p.zsockLlist = some t ∧
        SentOn t.zsockCtx obs ∧
          sentFrames obs = t.uuid.toList ++ [(zutilHead route dest size stamp z).bytes, body] := by
  have moves : Moves host trace p (.sendRun res) p' obs := inv.step_moves step
  cases moves with
  | @relay r' i' m old res other received' passed head buffer verdict =>
    cases running.symm.trans other
    cases received.symm.trans received'
    rw [callMessage_header, callMessage_dest host r destText] at verdict ⊢
    rcases relayVerdict_valid _ p.zsockLlist res (h := zutilHead route dest size stamp z) valid with
      ⟨t, target, delivered, -⟩ | failed
    · right
      refine ⟨by simp, t, target, ?_⟩
      obtain ⟨sentOn, frames⟩ := callback_sends host (.pushRelay r i) p.zsockLlist r (p.pool.read r) delivered
        [.relayed r i, .freeMsgCtx r] (by simp [Obs.isAttempt])
      rw [callMessage_sent host r fits length (.inl rfl) head buffer, head, callMessage_header] at frames
      rw [target]
      exact ⟨sentOn, frames⟩
    · rw [failed] at verdict
      cases verdict
  | @relayFail r' i' m old res code other received' passed head buffer verdict failed =>
    cases running.symm.trans other
    cases received.symm.trans received'
    rw [callMessage_header] at verdict
    left
    constructor
    · intro relayed
      rcases mem_callback.mp relayed with none | attempt | last
      · cases none
      · cases relayAttempt_isAttempt host attempt
      · cases List.mem_singleton.mp last
    · rcases relayVerdict_valid _ p.zsockLlist res (h := zutilHead route dest size stamp z) valid with
        ⟨t, -, -, ok⟩ | fails
      · exact absurd (verdict.symm.trans ok) failed
      · rw [← verdict, fails]
        simp
  | reply other => cases running.symm.trans other
  | create other => cases running.symm.trans other
  | remove other => cases running.symm.trans other

/-- The step of its error reply, where all sends succeed. -/
private theorem call_reply (carries : CarriesCall route dest size stamp z (zutilHead route dest size stamp z))
    (refused : ∀ r code, .errMsgReply r i code ∈ trace → code = .failToRoute)
    (running : p.send = some (.routerErrReply r i)) (step : Pipeline.step host p (.sendRun res) = some (p', obs))
    (routeOk : 0 ≤ res.routeRes) (headOk : 0 ≤ res.headRes) (bodyOk : 0 ≤ res.bodyRes) :
    ∃ zsockCtx text, zsockCtx.type = .router ∧ SentOn zsockCtx obs ∧ sentFrames obs =
      [z.regiBody.uuidStr, ((zutilHead route dest size stamp z).reply .failToRoute text).bytes, body] := by
  have moves : Moves host trace p (.sendRun res) p' obs := inv.step_moves step
  cases moves with
  | @reply r' i' elem res other carried router =>
    cases running.symm.trans other
    cases carried with
    | @reply r i m code old received' refuses counted head buffer =>
      cases received.symm.trans received'
      obtain rfl := refused r code counted
      obtain ⟨elem', found, type⟩ := inv.router
      cases router.symm.trans found
      obtain ⟨text, header⟩ := callMessage_reply route dest body size stamp z
      have terminated : ((zutilHead route dest size stamp z).reply .failToRoute text).from_.Terminated :=
        Buf.snprintf_terminated _ _ zmsgCommStrlen_pos
      have sender : (p.pool.read r).head.fromStr (host.afterHead r) = z.regiBody.uuidStr := by
        rw [head, header, Envelop.fromStr_of_terminated terminated]
        exact carries.from_
      have delivered : (Target.mk elem.data (some z.regiBody.uuidStr)).delivered res = true := by
        simp [Target.delivered, Target.routed, routeOk, headOk, bodyOk]
      obtain ⟨sentOn, frames⟩ := callback_sends host (.routerErrReply r i) p.zsockLlist r (p.pool.read r)
        delivered [.freeMsgCtx r] (by simp [Obs.isAttempt])
      rw [callMessage_sent host r fits length (.inr rfl) head buffer, head, header] at frames
      rw [sender]
      exact ⟨elem.data, text, type, sentOn, frames⟩
  | relay other => cases running.symm.trans other
  | relayFail other => cases running.symm.trans other
  | create other => cases running.symm.trans other
  | remove other => cases running.symm.trans other

end Step

/-- A refusal of a call's message is for its route. -/
private theorem call_refused (run : (machine host).Runs acts p trace) (fits : size ≤ maxMsgsizeByte)
    (length : body.length = size) (valid : route = zmsgRouteSvc ∨ route = zmsgRouteInst)
    (received : p.seen[i]? = some (callMessage route dest size stamp z body)) (r : CtxRef) (code : ZmsgResp)
    (counted : .errMsgReply r i code ∈ trace) : code = .failToRoute := by
  obtain ⟨m, same, failure⟩ := runs_justified run _ counted
  cases received.symm.trans same
  rcases failure with failed | ⟨-, notOk, llist, res, -, verdict⟩
  · rw [callMessage_passes fits length] at failed
    cases failed
  · rw [callMessage_header] at verdict
    rcases relayVerdict_valid _ llist res (h := zutilHead route dest size stamp z) valid with
      ⟨t, -, -, ok⟩ | failed
    · exact absurd (verdict.symm.trans ok) notOk
    · exact verdict.symm.trans failed

/-- **Client to client.** Whatever else the broker does, a message a client sent
with a body that fits a context reaches the peer its call names with the header
and the body of the call, or comes back with FAIL_TO_ROUTE. -/
theorem round_trip (run : (machine host).Runs acts p trace)
    (sent : (zutilSend route dest buff size stamp sendRes z).2.2 = [head, body])
    (received : p.seen[i]? = some ⟨head, [body]⟩) (reached : z.Reached)
    (memory : size ≤ buff.length) (fits : size ≤ maxMsgsizeByte)
    (destText : 0 ∉ dest) (stampText : 0 ∉ stamp.getD [])
    (notRouter : route = zmsgRouteSvc → dest ≠ ascii "ROUTER") :
    body = buff.take size ∧ RoundTrip host route dest size stamp z body p trace i := by
  obtain ⟨valid, -, rfl, rfl⟩ := zutilSend_frames sent
  refine ⟨rfl, ?_⟩
  have length : (buff.take size).length = size := by
    rw [List.length_take]
    omega
  have short : (buff.take size).length ≤ maxMsgsizeByte := by rwa [length]
  have carries : CarriesCall route dest size stamp z (zutilHead route dest size stamp z) :=
    zutilHead_carries reached.registered destText stampText fits
  have inv := runs_inv run
  have refused := call_refused run fits length valid received
  refine ⟨refused, ?_, ?_, ?_⟩
  · intro r res p' obs running step notRelayed
    rcases call_relay inv fits length received valid destText running step with ⟨-, answered⟩ | ⟨done, -⟩
    · exact answered
    · exact absurd done notRelayed
  · intro r res p' obs running step relayed
    rcases call_relay inv fits length received valid destText running step with
      ⟨notRelayed, -⟩ | ⟨-, t, target, sentOn, frames⟩
    · exact absurd relayed notRelayed
    · obtain ⟨deliver, svc, inst⟩ := relayTarget_delivers inv (runs_pushOnly run) (fun svc same =>
        notRouter svc (eq_router_of_take same)) target (zutilHead route dest size stamp z).bytes (buff.take size)
      refine ⟨t.zsockCtx, t.uuid, _, _, sentOn, frames ▸ deliver, carries, ?_, ?_⟩
      · intro route_
        obtain ⟨peer, entry⟩ := svc route_
        exact ⟨peer, entry, nextOnPull_yields _ short⟩
      · intro route_
        exact ⟨inst route_, nextOnDealer_yields _ short⟩
  · intro r res p' obs running step routeOk headOk bodyOk
    obtain ⟨zsockCtx, text, type, sentOn, frames⟩ :=
      call_reply inv fits length received carries refused running step routeOk headOk bodyOk
    refine ⟨zsockCtx, _, _, sentOn, ?_, carries.reply .failToRoute text, rfl, nextOnDealer_yields _ short⟩
    rw [frames, type]
    rfl

theorem round_trip_hello : ∃ z p trace,
    (machine .bare).Runs [.arrive (callMessage zmsgRouteInst (ascii "b") 5 none z (ascii "hello")),
      .recvPrepare, .recvProcess, .sendTake, .sendRun ⟨0, 0, 0⟩] p trace ∧
    ascii "hello" = (ascii "hello!").take 5 ∧
      RoundTrip .bare zmsgRouteInst (ascii "b") 5 none z (ascii "hello") p trace 0 := by
  let z : ZutilCtx := (zutilInit id (ascii "/home/broker") (ascii "a") (ascii "x") []).1
  let m : Message := callMessage zmsgRouteInst (ascii "b") 5 none z (ascii "hello")
  have passed : firstCheck m = none := callMessage_passes (by decide) rfl
  have inst : m.header.route = zmsgRouteInst := by rw [callMessage_header, zutilHead]
  obtain ⟨p, trace, -, -, -, run, seen, -⟩ := inst_relay_run .bare passed inst
  have sent : (zutilSend zmsgRouteInst (ascii "b") (ascii "hello!") 5 none ⟨1, 5⟩ z).2.2 =
      [(zutilHead zmsgRouteInst (ascii "b") 5 none z).bytes, ascii "hello"] := rfl
  have reached : z.Reached := .init id (ascii "/home/broker") (ascii "a") (ascii "x") []
  exact ⟨z, p, trace, run, round_trip run sent (by rw [seen]; rfl) reached (by decide) (by decide) (by decide)
    (by decide) (by decide)⟩

end Pipeline

end MsaBroker
