import MsaBroker.TrRecv

/-! `tr_send.c`: relaying a context to a service or an instance, the error
reply, and the callbacks that open and close service sockets. -/
namespace MsaBroker
open CMemory

variable (host : Host)

/-- The `size_t` an `int` length becomes as an argument of `zmq_send`. -/
def sizeArg (n : Int32) : Nat := (n.toInt % 2 ^ 64).toNat

/-- What `zmq_send(zsock, msg_ctx->buffer, n_bytes, ...)` reads: the buffer, and
memory behind it where the length exceeds its size. -/
def bodySent (r : CtxRef) (ctx : MsgCtx) : Bytes :=
  (ctx.buffer.bytes ++ host.afterBuffer r).take (sizeArg ctx.head.nBytes)

/-- `msg_relay`. -/
def msgRelay (cb : Callback) (r : CtxRef) (ctx : MsgCtx) (zsockCtx : ZsockCtx) (res : SendRes) :
    Int × List Obs :=
  let head := .zmqSend cb zsockCtx (.head ctx.head) res.headRes
  if res.headRes < 0 then (-1, [head])
  else
    let body := .zmqSend cb zsockCtx (.body ctx.head.nBytes (bodySent host r ctx)) res.bodyRes
    if res.bodyRes < 0 then (-1, [head, body]) else (0, [head, body])

/-- What the callback hands to `msg_relay`. -/
def handing (cb : Callback) (r : CtxRef) (ctx : MsgCtx) (target : Target) : Obs :=
  .handed cb target ctx.head (bodySent host r ctx)

/-- `service_relay`. -/
def serviceRelay (cb : Callback) (r : CtxRef) (ctx : MsgCtx) (zsockCtx : ZsockCtx) (res : SendRes) :
    Int × List Obs :=
  let (rc, obs) := msgRelay host cb r ctx zsockCtx res
  (rc, handing host cb r ctx ⟨zsockCtx, none⟩ :: obs)

/-- `router_relay`. -/
def routerRelay (cb : Callback) (r : CtxRef) (ctx : MsgCtx) (zsockCtx : ZsockCtx) (uuid : Bytes)
    (res : SendRes) : Int × List Obs :=
  let route := .zmqSend cb zsockCtx (.identity uuid) res.routeRes
  if res.routeRes < 0 then (-1, [route])
  else
    let (rc, obs) := msgRelay host cb r ctx zsockCtx res
    (rc, route :: handing host cb r ctx ⟨zsockCtx, some uuid⟩ :: obs)

/-- `evsock_router_err_reply`. -/
def evsockRouterErrReply (r : CtxRef) (i : Nat) (res : SendRes) (p : Pipeline) : Pipeline × List Obs :=
  match getElement (ascii "ROUTER") p.zsockLlist with
  | none => (p, [])
  | some elem =>
    let ctx := p.pool.read r
    let (_, obs) := routerRelay host (.routerErrReply r i) r ctx elem.data
      (ctx.head.fromStr (host.afterHead r)) res
    ({ p with pool := freeMsgCtx r p.pool }, obs ++ [.freeMsgCtx r])

/-- `"unknown route_type=(%d)"`. -/
def unknownRouteText (route : UInt32) : Bytes :=
  ascii "unknown route_type=(" ++ showInt (Int32.ofUInt32 route).toInt ++ ascii ")"

/-- `"fail to route type=(%d) dest=[%s]"`. -/
def failToRouteText (route : UInt32) (dest : Bytes) : Bytes :=
  ascii "fail to route type=(" ++ showInt (Int32.ofUInt32 route).toInt ++ ascii ") dest=[" ++ dest ++
    ascii "]"

/-- `evsock_push_relay`. -/
def evsockPushRelay (r : CtxRef) (i : Nat) (res : SendRes) (p : Pipeline) : Pipeline × List Obs :=
  let ctx := p.pool.read r
  let head := ctx.head
  if head.route ≠ zmsgRouteSvc ∧ head.route ≠ zmsgRouteInst then
    errMsgReply r i .invldRouteType (fun _ => unknownRouteText head.route) p
  else
    let dest := head.destStr (host.afterHead r)
    match getElement (if head.route = zmsgRouteSvc then dest else ascii "ROUTER") p.zsockLlist with
    | none =>
      errMsgReply r i .failToRoute (fun h => failToRouteText head.route (h.destStr (host.afterHead r))) p
    | some elem =>
      let (relayRes, relayObs) :=
        if head.route = zmsgRouteSvc then serviceRelay host (.pushRelay r i) r ctx elem.data res
        else routerRelay host (.pushRelay r i) r ctx elem.data dest res
      if relayRes < 0 then
        let (p, obs) := errMsgReply r i .failToRoute
          (fun h => failToRouteText head.route (h.destStr (host.afterHead r))) p
        (p, relayObs ++ obs)
      else
        let p := (p.statInc .succ).reasonInc .ok
        ({ p with pool := freeMsgCtx r p.pool }, relayObs ++ [.relayed r i, .freeMsgCtx r])

/-- `evsock_push_create`. -/
def evsockPushCreate (appls : ApplsCtx) (p : Pipeline) : Pipeline :=
  let (net, llist) := addZsockToList host appls.svcnameStr .push p.net p.zsockLlist
  { p with net := net, zsockLlist := llist }

/-- `evsock_push_remove`. -/
def evsockPushRemove (appls : ApplsCtx) (p : Pipeline) : Pipeline :=
  let (net, llist) := delZsockFromList appls.svcnameStr .push p.net p.zsockLlist
  { p with net := net, zsockLlist := llist }

/-- The callback libevent invokes. -/
def runCallback (cb : Callback) (res : SendRes) (p : Pipeline) : Pipeline × List Obs :=
  match cb with
  | .pushRelay r i => evsockPushRelay host r i res p
  | .routerErrReply r i => evsockRouterErrReply host r i res p
  | .pushCreate appls => (evsockPushCreate host appls p, [])
  | .pushRemove appls => (evsockPushRemove appls p, [])

end MsaBroker
