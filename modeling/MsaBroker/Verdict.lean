import MsaBroker.CtxPool
import MsaBroker.TrSend

/-! What becomes of a message, as functions of the message alone where RECV
decides and of the message, SEND's socket table and the send results where SEND
decides; and one equation for each callback that says it does exactly that. -/
namespace MsaBroker
open CMemory

/-! ## RECV's checks -/

/-- The header as received: the first frame over a cleared header. -/
def Message.header (m : Message) : Envelop := Envelop.zero.store m.head

/-- The second frame. -/
def Message.body (m : Message) : Bytes := m.rest.headD []

/-- The first check of `evsock_pull_read` the message fails. -/
def firstCheck (m : Message) : Option ZmsgResp :=
  if m.header.type ≠ zmsgTraffic then some .failInvalidType
  else
    match m.rest with
    | [] => some .failNullRecv
    | body :: _ => if recvLength body ≠ m.header.nBytes then some .failDiffRecv else none

/-- The reasons a message can be refused for, by RECV or later by SEND. -/
def Message.Refuses (m : Message) (code : ZmsgResp) : Prop :=
  firstCheck m = some code ∨ firstCheck m = none ∧ (code = .invldRouteType ∨ code = .failToRoute)

/-- What a callback may be given a message for: its relay, under `.ok`, or the
reply to its refusal. -/
def Message.Outcome (m : Message) (code : ZmsgResp) : Prop :=
  code = .ok ∧ firstCheck m = none ∨ m.Refuses code

/-- The two assignments of `err_msg_reply` to the header. -/
def Envelop.reply (h : Envelop) (errCode : ZmsgResp) (text : Bytes) : Envelop :=
  { h with respCode := errCode.code, reasonString := h.reasonString.snprintf text }

/-- The header an error reply carries, for each reason a message is refused. -/
def replyHead (m : Message) : ZmsgResp → Envelop
  | .ok => m.header
  | .failInvalidType =>
    { m.header with nBytes := 0 }.reply .failInvalidType (invalidTypeText m.header.type)
  | .failNullRecv => { m.header with nBytes := 0 }.reply .failNullRecv nullRecvText
  | .failDiffRecv =>
    { m.header with nBytes := recvLength m.body }.reply .failDiffRecv
      (diffRecvText (recvLength m.body) (recvLength m.body))
  | .invldRouteType => m.header.reply .invldRouteType (unknownRouteText m.header.route)
  | .failToRoute =>
    m.header.reply .failToRoute (failToRouteText m.header.route
      ({ m.header with respCode := ZmsgResp.failToRoute.code }.destStr []))

theorem firstCheck_ne_ok (m : Message) : firstCheck m ≠ some .ok := by
  unfold firstCheck
  split
  · simp
  · split
    · simp
    · split <;> simp

/-- The reply header names the reason, and its sender is the one received. -/
theorem replyHead_addressed {m : Message} {code : ZmsgResp} (refuses : m.Refuses code) :
    (replyHead m code).respCode = code.code ∧ (replyHead m code).from_ = m.header.from_ := by
  have notOk : code ≠ .ok := by
    rintro rfl
    rcases refuses with failed | ⟨-, same | same⟩
    · exact firstCheck_ne_ok m failed
    · cases same
    · cases same
  cases code
  case ok => exact absurd rfl notOk
  all_goals exact ⟨rfl, rfl⟩

/-- The checks before the body is read. -/
def ZmsgResp.beforeBody : ZmsgResp → Bool
  | .failInvalidType | .failNullRecv => true
  | _ => false

/-- The context's buffer once message `m` was taken into it and refused with
this code (or accepted). -/
def bufferAfter (m : Message) (code : ZmsgResp) (old : Buf maxMsgsizeByte) : Buf maxMsgsizeByte :=
  if code.beforeBody then old else old.store m.body

/-- `err_msg_reply` as one update of the pipeline. -/
theorem errMsgReply_eq (r : CtxRef) (i : Nat) (code : ZmsgResp) (format : Envelop → Bytes) (p : Pipeline) :
    errMsgReply r i code format p =
      ({ p with
          stat := Function.update p.stat .fail (p.stat .fail + 1)
          reason := Function.update p.reason code (p.reason code + 1)
          pool := p.pool.write r { p.pool.read r with
            head := (p.pool.read r).head.reply code
              (format { (p.pool.read r).head with respCode := code.code }) }
          evbase := p.evbase ++ [.routerErrReply r i] },
        [.errMsgReply r i code]) := rfl

/-- RECV's iteration on an empty socket gives the context back. -/
theorem pullReadProcess_empty {p : Pipeline} (r : CtxRef) (nothing : p.pull.recv = none) :
    pullReadProcess r p = ({ p with pool := freeMsgCtx r p.pool }, [.freeMsgCtx r]) := by
  simp [pullReadProcess, zmqRecv, nothing]

/-- The pipeline after RECV took message `m` into context `r`, before it posts
anything. -/
def Pipeline.taken (p : Pipeline) (r : CtxRef) (m : Message) (pull : InSock) (head : Envelop)
    (buffer : Buf maxMsgsizeByte) : Pipeline :=
  { p with
    pull := pull
    seen := p.seen ++ [m]
    stat := Function.update p.stat .att (p.stat .att + 1)
    pool := p.pool.write r { p.pool.read r with head := head, buffer := buffer } }

/-- A refused message: counted, its reply header written, its reply queued. -/
def Pipeline.refused (p : Pipeline) (r : CtxRef) (i : Nat) (code : ZmsgResp) : Pipeline :=
  { p with
    stat := Function.update p.stat .fail (p.stat .fail + 1)
    reason := Function.update p.reason code (p.reason code + 1)
    evbase := p.evbase ++ [.routerErrReply r i] }

/-- RECV's iteration on a message at the head of a drained socket: the first
failed check decides, and without one the context goes to SEND. -/
theorem pullReadProcess_message {p : Pipeline} {r : CtxRef} {m : Message} {queue : List Message}
    (boundary : p.pull.more = []) (next : p.pull.queue = m :: queue)
    (clear : (p.pool.read r).head = .zero) :
    ∃ more, pullReadProcess r p =
      match firstCheck m with
      | some code =>
        (((p.taken r m ⟨more, queue⟩ (replyHead m code)
            (bufferAfter m code (p.pool.read r).buffer)).refused r p.seen.length code),
          [.received r p.seen.length, .errMsgReply r p.seen.length code])
      | none =>
        ((p.taken r m ⟨more, queue⟩ m.header (bufferAfter m .ok (p.pool.read r).buffer)).eventBaseOnce
            (.pushRelay r p.seen.length),
          [.received r p.seen.length, .accepted r p.seen.length]) := by
  have header : p.pull.recv = some (m.head, ⟨m.rest, queue⟩) := by simp [InSock.recv, boundary, next]
  have counted : ¬ (recvLength m.head).toInt < 0 := Int.not_lt.mpr (recvLength_nonneg _)
  have frame : Envelop.ofMem (Envelop.zero.mem.store m.head) = m.header := rfl
  simp only [pullReadProcess, zmqRecv, header, counted, ↓reduceIte, clear, frame, next, List.head?_cons,
    Option.toList_some]
  by_cases typed : m.header.type = zmsgTraffic
  · cases frames : m.rest with
    | nil =>
      refine ⟨[], ?_⟩
      simp [Pipeline.setHead, Pipeline.statInc, Pipeline.taken, Pipeline.refused, firstCheck, typed, frames,
        InSock.rcvmore, errMsgReply_eq, replyHead, Envelop.reply, bufferAfter, ZmsgResp.beforeBody]
    | cons body rest =>
      refine ⟨rest, ?_⟩
      by_cases length : recvLength body = m.header.nBytes
      · simp [Pipeline.setHead, Pipeline.setBuffer, Pipeline.statInc, Pipeline.taken, firstCheck, typed,
          frames, length, InSock.rcvmore, InSock.recv, Pipeline.eventBaseOnce, bufferAfter,
          ZmsgResp.beforeBody, Message.body]
      · simp [Pipeline.setHead, Pipeline.setBuffer, Pipeline.statInc, Pipeline.taken, Pipeline.refused,
          firstCheck, typed, frames, length, InSock.rcvmore, InSock.recv, errMsgReply_eq, replyHead,
          Envelop.reply, bufferAfter, ZmsgResp.beforeBody, Message.body]
  · refine ⟨m.rest, ?_⟩
    simp [Pipeline.setHead, Pipeline.statInc, Pipeline.taken, Pipeline.refused, firstCheck, typed,
      errMsgReply_eq, replyHead, Envelop.reply, bufferAfter, ZmsgResp.beforeBody]

/-! ## SEND's decision -/

/-- Where `evsock_push_relay` sends a header: the socket registered under `dest`,
or the router with `dest` as identity. -/
def relayTarget (h : Envelop) (dest : Bytes) (llist : List (Element ZsockCtx)) : Option Target :=
  if h.route = zmsgRouteSvc then (getElement dest llist).map fun e => ⟨e.data, none⟩
  else if h.route = zmsgRouteInst then
    (getElement (ascii "ROUTER") llist).map fun e => ⟨e.data, some dest⟩
  else none

/-- The identity frame, where there is one, was accepted, so `msg_relay` is
called. -/
def Target.routed (t : Target) (res : SendRes) : Bool := t.uuid.isNone || !decide (res.routeRes < 0)

/-- Every `zmq_send` the relay to this target makes succeeds. -/
def Target.delivered (t : Target) (res : SendRes) : Bool :=
  t.routed res && !decide (res.headRes < 0) && !decide (res.bodyRes < 0)

/-- What `evsock_push_relay` concludes. -/
def relayVerdict (h : Envelop) (dest : Bytes) (llist : List (Element ZsockCtx)) (res : SendRes) :
    ZmsgResp :=
  if h.route ≠ zmsgRouteSvc ∧ h.route ≠ zmsgRouteInst then .invldRouteType
  else
    match relayTarget h dest llist with
    | none => .failToRoute
    | some t => if t.delivered res then .ok else .failToRoute

/-- The reply header for what `evsock_push_relay` refuses. -/
def relayReply (h : Envelop) : ZmsgResp → Envelop
  | .invldRouteType => h.reply .invldRouteType (unknownRouteText h.route)
  | _ =>
    h.reply .failToRoute
      (failToRouteText h.route ({ h with respCode := ZmsgResp.failToRoute.code }.destStr []))

theorem relayVerdict_mem (h : Envelop) (dest : Bytes) (llist : List (Element ZsockCtx)) (res : SendRes) :
    relayVerdict h dest llist res = .ok ∨ relayVerdict h dest llist res = .invldRouteType ∨
      relayVerdict h dest llist res = .failToRoute := by
  unfold relayVerdict
  split
  · exact .inr (.inl rfl)
  · split
    · exact .inr (.inr rfl)
    · split
      · exact .inl rfl
      · exact .inr (.inr rfl)

/-- What SEND refuses is answered as the message's own reply header says. -/
theorem relayReply_header {m : Message} {code : ZmsgResp}
    (refused : code = .invldRouteType ∨ code = .failToRoute) :
    relayReply m.header code = replyHead m code := by
  rcases refused with rfl | rfl <;> rfl

variable (host : Host) {p : Pipeline} {r : CtxRef} {i : Nat} {res : SendRes}

/-- `service_relay` or `router_relay`, as the target asks. -/
def relayTo (cb : Callback) (r : CtxRef) (ctx : MsgCtx) (t : Target) (res : SendRes) : Int × List Obs :=
  match t.uuid with
  | none => serviceRelay host cb r ctx t.zsockCtx res
  | some uuid => routerRelay host cb r ctx t.zsockCtx uuid res

theorem relayTo_fails (cb : Callback) (ctx : MsgCtx) (t : Target) :
    (relayTo host cb r ctx t res).1 < 0 ↔ t.delivered res = false := by
  obtain ⟨zsockCtx, uuid⟩ := t
  obtain ⟨routeRes, headRes, bodyRes⟩ := res
  cases uuid <;> by_cases route : routeRes < 0 <;> by_cases head : headRes < 0 <;>
    by_cases body : bodyRes < 0 <;>
    simp [relayTo, serviceRelay, routerRelay, msgRelay, Target.delivered, Target.routed, route, head, body]

/-- The observations of one relay attempt. -/
def relayAttempt (cb : Callback) (r : CtxRef) (ctx : MsgCtx) (target : Option Target) (res : SendRes) :
    List Obs :=
  match target with
  | none => []
  | some t => (relayTo host cb r ctx t res).2

/-- Every observation of a relay attempt: the hand-over, or one of the frames. -/
theorem relayAttempt_obs {cb : Callback} {ctx : MsgCtx} {target : Option Target} {o : Obs}
    (seen : o ∈ relayAttempt host cb r ctx target res) :
    ∃ t, target = some t ∧ (o = .handed cb t ctx.head (bodySent host r ctx) ∨
      (∃ uuid rc, t.uuid = some uuid ∧ o = .zmqSend cb t.zsockCtx (.identity uuid) rc) ∨
      (∃ rc, o = .zmqSend cb t.zsockCtx (.head ctx.head) rc) ∨
      ∃ rc, o = .zmqSend cb t.zsockCtx (.body ctx.head.nBytes (bodySent host r ctx)) rc) := by
  cases target with
  | none => simp [relayAttempt] at seen
  | some t =>
    refine ⟨t, rfl, ?_⟩
    obtain ⟨zsockCtx, uuid⟩ := t
    obtain ⟨routeRes, headRes, bodyRes⟩ := res
    cases uuid <;> by_cases route : routeRes < 0 <;> by_cases head : headRes < 0 <;>
      by_cases body : bodyRes < 0 <;>
      simp [relayAttempt, relayTo, serviceRelay, routerRelay, msgRelay, handing, route, head, body] at seen <;>
      grind

theorem relayAttempt_isAttempt {cb : Callback} {ctx : MsgCtx} {target : Option Target} {o : Obs}
    (seen : o ∈ relayAttempt host cb r ctx target res) : o.isAttempt = true := by
  obtain ⟨t, -, rfl | ⟨uuid, rc, -, rfl⟩ | ⟨rc, rfl⟩ | ⟨rc, rfl⟩⟩ := relayAttempt_obs host seen <;> rfl

/-- What ignores frames sees nothing of a relay attempt. -/
theorem filterMap_attempt {β : Type} (see : Obs → Option β) (blind : ∀ o, o.isAttempt = true → see o = none)
    (cb : Callback) (r : CtxRef) (ctx : MsgCtx) (target : Option Target) (res : SendRes) :
    (relayAttempt host cb r ctx target res).filterMap see = [] := by
  rw [List.filterMap_eq_nil_iff]
  exact fun o member => blind o (relayAttempt_isAttempt host member)

theorem relayAttempt_handed {cb cb' : Callback} {ctx : MsgCtx} {target : Option Target} {t : Target}
    {head : Envelop} {body : Bytes} (seen : .handed cb' t head body ∈ relayAttempt host cb r ctx target res) :
    cb' = cb ∧ target = some t ∧ head = ctx.head ∧ body = bodySent host r ctx := by
  obtain ⟨t, chosen, same | ⟨_, _, -, same⟩ | ⟨_, same⟩ | ⟨_, same⟩⟩ := relayAttempt_obs host seen <;> cases same
  exact ⟨rfl, chosen, rfl, rfl⟩

theorem relayAttempt_identity {cb cb' : Callback} {ctx : MsgCtx} {target : Option Target} {zsockCtx : ZsockCtx}
    {uuid : Bytes} {rc : Int}
    (seen : .zmqSend cb' zsockCtx (.identity uuid) rc ∈ relayAttempt host cb r ctx target res) :
    cb' = cb ∧ target = some ⟨zsockCtx, some uuid⟩ := by
  obtain ⟨⟨zsockCtx, uuid⟩, chosen, same | ⟨_, _, routed, same⟩ | ⟨_, same⟩ | ⟨_, same⟩⟩ :=
    relayAttempt_obs host seen <;> cases same
  cases routed
  exact ⟨rfl, chosen⟩

theorem relayAttempt_body {cb cb' : Callback} {ctx : MsgCtx} {target : Option Target} {zsockCtx : ZsockCtx}
    {nBytes : Int32} {data : Bytes} {rc : Int}
    (seen : .zmqSend cb' zsockCtx (.body nBytes data) rc ∈ relayAttempt host cb r ctx target res) :
    cb' = cb ∧ nBytes = ctx.head.nBytes ∧ data = bodySent host r ctx := by
  obtain ⟨t, -, same | ⟨_, _, -, same⟩ | ⟨_, same⟩ | ⟨_, same⟩⟩ := relayAttempt_obs host seen <;> cases same
  exact ⟨rfl, rfl, rfl⟩

/-- What a callback emits: its start, its relay attempt, and what came of it. -/
theorem mem_callback {cb : Callback} {llist : List (Element ZsockCtx)} {attempt last : List Obs} {o : Obs} :
    o ∈ .callback cb llist res :: (attempt ++ last) ↔ o = .callback cb llist res ∨ o ∈ attempt ∨ o ∈ last := by
  rw [List.mem_cons, List.mem_append]

/-- The string the relay looks up and sends as identity. -/
def relayDest (p : Pipeline) (r : CtxRef) : Bytes := (p.pool.read r).head.destStr (host.afterHead r)

/-- With a valid route, the target found or missing decides the branch. -/
private theorem evsockPushRelay_routed
    (valid : (p.pool.read r).head.route = zmsgRouteSvc ∨ (p.pool.read r).head.route = zmsgRouteInst) :
    evsockPushRelay host r i res p =
      let ctx := p.pool.read r
      let refuse := errMsgReply r i .failToRoute
        (fun h => failToRouteText ctx.head.route (h.destStr (host.afterHead r))) p
      match relayTarget ctx.head (relayDest host p r) p.zsockLlist with
      | none => refuse
      | some t =>
        let relay := relayTo host (.pushRelay r i) r ctx t res
        if relay.1 < 0 then (refuse.1, relay.2 ++ refuse.2)
        else
          ({ (p.statInc .succ).reasonInc .ok with pool := freeMsgCtx r p.pool },
            relay.2 ++ [.relayed r i, .freeMsgCtx r]) := by
  rcases valid with svc | inst
  · cases found : getElement (relayDest host p r) p.zsockLlist <;>
      simp only [relayDest] at found <;>
      simp [evsockPushRelay, relayTarget, relayDest, relayTo, svc, found]
  · cases found : getElement (ascii "ROUTER") p.zsockLlist <;>
      simp [evsockPushRelay, relayTarget, relayDest, relayTo, inst, zmsgRouteInst_ne_zmsgRouteSvc, found]

/-- The reply text names the destination as it was received: `resp_code`, already
written, ends the string at the latest. -/
private theorem failToRoute_reply (h : Envelop) (after : Bytes) :
    h.reply .failToRoute
      (failToRouteText h.route ({ h with respCode := ZmsgResp.failToRoute.code }.destStr after)) =
      relayReply h .failToRoute := by
  have inside : 0 ∈ { h with respCode := ZmsgResp.failToRoute.code }.fromDest :=
    Envelop.zero_mem_fromDest_of_respCode (ZmsgResp.code_small _)
  simp only [relayReply, Envelop.destStr_inside inside]

/-- A relay that succeeds is counted and its context given back. -/
theorem evsockPushRelay_ok
    (verdict : relayVerdict (p.pool.read r).head (relayDest host p r) p.zsockLlist res = .ok) :
    evsockPushRelay host r i res p =
      ({ (p.statInc .succ).reasonInc .ok with pool := freeMsgCtx r p.pool },
        relayAttempt host (.pushRelay r i) r (p.pool.read r)
          (relayTarget (p.pool.read r).head (relayDest host p r) p.zsockLlist) res ++
          [.relayed r i, .freeMsgCtx r]) := by
  unfold relayVerdict at verdict
  split at verdict
  · cases verdict
  · rename_i invalid
    have valid : (p.pool.read r).head.route = zmsgRouteSvc ∨
        (p.pool.read r).head.route = zmsgRouteInst := by
      by_contra neither
      exact invalid (not_or.mp neither)
    rw [evsockPushRelay_routed host valid]
    split at verdict
    · cases verdict
    · rename_i t target
      split at verdict
      · rename_i delivered
        have sent : ¬ (relayTo host (.pushRelay r i) r (p.pool.read r) t res).1 < 0 := by
          rw [relayTo_fails, delivered]
          simp
        simp [target, sent, relayAttempt]
      · cases verdict

/-- Anything else turns the context into an error reply under the verdict. -/
theorem evsockPushRelay_refused
    (verdict : relayVerdict (p.pool.read r).head (relayDest host p r) p.zsockLlist res ≠ .ok) :
    evsockPushRelay host r i res p =
      ({ p with
          pool := p.pool.write r { p.pool.read r with
            head := relayReply (p.pool.read r).head
              (relayVerdict (p.pool.read r).head (relayDest host p r) p.zsockLlist res) } }.refused r i
          (relayVerdict (p.pool.read r).head (relayDest host p r) p.zsockLlist res),
        relayAttempt host (.pushRelay r i) r (p.pool.read r)
          (relayTarget (p.pool.read r).head (relayDest host p r) p.zsockLlist) res ++
          [.errMsgReply r i (relayVerdict (p.pool.read r).head (relayDest host p r) p.zsockLlist res)]) := by
  unfold relayVerdict at verdict ⊢
  split at verdict
  · rename_i invalid
    simp [evsockPushRelay, invalid, relayTarget, relayAttempt, errMsgReply_eq, Pipeline.refused, relayReply]
  · rename_i invalid
    have valid : (p.pool.read r).head.route = zmsgRouteSvc ∨
        (p.pool.read r).head.route = zmsgRouteInst := by
      by_contra neither
      exact invalid (not_or.mp neither)
    rw [evsockPushRelay_routed host valid]
    simp only [invalid, ↓reduceIte, errMsgReply_eq, failToRoute_reply]
    split at verdict
    · rename_i target
      simp [target, relayAttempt, Pipeline.refused]
    · rename_i t target
      split at verdict
      · exact absurd rfl verdict
      · rename_i failed
        have lost : (relayTo host (.pushRelay r i) r (p.pool.read r) t res).1 < 0 := by
          rw [relayTo_fails]
          simpa using failed
        simp [target, failed, lost, relayAttempt, Pipeline.refused]

end MsaBroker
