import MsaBroker.Broker

/-! `tr_recv.c`: the context pool, the error reply and one iteration of the PULL
reader. -/
namespace MsaBroker
open CMemory

/-! ## The context pool -/

/-- The search loop of `get_msg_ctx`: `left` iterations remain, the next with
this `i`. -/
def emptySlot (p : Pool) (i : Nat) : Nat → Option Int
  | 0 => none
  | left + 1 =>
    let pos := (p.currPos + i).tmod maxMsgctxNum
    if (p.slot pos).occupied = false then some pos else emptySlot p (i + 1) left

/-- `get_msg_ctx`: the empty slot the search finds, else a temporary context
from the heap. The last assignment parses as `msg_ctx_id + (1 % N)`. -/
def getMsgCtx (p : Pool) : CtxRef × Pool :=
  match emptySlot p 0 maxMsgctxNum with
  | some pos =>
    let msgCtx := { p.slot pos with occupied := true, head := .zero }
    (.slot pos, { p.write (.slot pos) msgCtx with
      currPos := msgCtx.msgCtxId + Int.tmod 1 maxMsgctxNum })
  | none =>
    let msgCtx : MsgCtx := { msgCtxId := -1, occupied := true, head := .zero, buffer := .zero _ }
    (.temp p.nextBlock, { p.write (.temp p.nextBlock) msgCtx with
      nextBlock := p.nextBlock + 1, currPos := msgCtx.msgCtxId + Int.tmod 1 maxMsgctxNum })

/-- `free(msg_ctx->buffer); free(msg_ctx)`. -/
def Pool.release (p : Pool) : CtxRef → Pool
  | .slot _ => p
  | .temp block => { p with temp := Function.update p.temp block none }

/-- `free_msg_ctx`. -/
def freeMsgCtx (r : CtxRef) (p : Pool) : Pool :=
  if (p.read r).msgCtxId ≥ 0 then p.write r { p.read r with occupied := false } else p.release r

/-! ## Frames -/

/-- `zmq_recv(zsock, buf, n, ZMQ_DONTWAIT)`: the return value, the buffer and the
socket afterwards. -/
def zmqRecv {n : Nat} (s : InSock) (buf : Buf n) : Int32 × Buf n × InSock :=
  match s.recv with
  | none => (-1, buf, s)
  | some (frame, s) => (recvLength frame, buf.store frame, s)

/-- `zsock_drain_remain_part`: receive and drop frames while `ZMQ_RCVMORE`. -/
def zsockDrainRemainPart (s : InSock) : InSock :=
  go s.more s.queue
where
  go : List Bytes → List Message → InSock
    | [], queue => ⟨[], queue⟩
    | _ :: more, queue => go more queue

theorem zsockDrainRemainPart_eq (s : InSock) : zsockDrainRemainPart s = ⟨[], s.queue⟩ := by
  obtain ⟨more, queue⟩ := s
  induction more with
  | nil => rfl
  | cons frame more ih => exact ih

/-! ## One iteration of `evsock_pull_read` -/

/-- `msg_ctx->head = head`. -/
def Pipeline.setHead (p : Pipeline) (r : CtxRef) (head : Envelop) : Pipeline :=
  { p with pool := p.pool.write r { p.pool.read r with head := head } }

/-- `msg_ctx->buffer` overwritten. -/
def Pipeline.setBuffer (p : Pipeline) (r : CtxRef) (buffer : Buf maxMsgsizeByte) : Pipeline :=
  { p with pool := p.pool.write r { p.pool.read r with buffer := buffer } }

/-- `STAT_INC(stat, a)`. -/
def Pipeline.statInc (p : Pipeline) (a : StatEnum) : Pipeline :=
  { p with stat := Function.update p.stat a (p.stat a + 1) }

/-- `STAT_INC(reason, b)`. -/
def Pipeline.reasonInc (p : Pipeline) (b : ZmsgResp) : Pipeline :=
  { p with reason := Function.update p.reason b (p.reason b + 1) }

@[simp] theorem Pipeline.statInc_pool (p : Pipeline) (a : StatEnum) : (p.statInc a).pool = p.pool := rfl

@[simp] theorem Pipeline.reasonInc_pool (p : Pipeline) (b : ZmsgResp) : (p.reasonInc b).pool = p.pool := rfl

/-- `event_base_once(MAIN_CTX->thrd_ctx[TR_SEND].evbase_thrd, -1, EV_TIMEOUT, ...)`. -/
def Pipeline.eventBaseOnce (p : Pipeline) (cb : Callback) : Pipeline :=
  { p with evbase := p.evbase ++ [cb] }

/-- `err_msg_reply`. `format` is the formatted text as a function of the header
at the time it is formatted, after `resp_code` was set. -/
def errMsgReply (r : CtxRef) (i : Nat) (errCode : ZmsgResp) (format : Envelop → Bytes) (p : Pipeline) :
    Pipeline × List Obs :=
  let p := (p.statInc .fail).reasonInc errCode
  let head := { (p.pool.read r).head with respCode := errCode.code }
  let head := { head with reasonString := head.reasonString.snprintf (format head) }
  ((p.setHead r head).eventBaseOnce (.routerErrReply r i), [.errMsgReply r i errCode])

/-- `"recv invalid type=(%d)/valid_type=(%d)"`. -/
def invalidTypeText (type : UInt32) : Bytes :=
  ascii "recv invalid type=(" ++ showInt (Int32.ofUInt32 type).toInt ++ ascii ")/valid_type=(" ++
    showInt (Int32.ofUInt32 zmsgTraffic).toInt ++ ascii ")"

/-- `"%s"` of `"recv null body"`. -/
def nullRecvText : Bytes := ascii "recv null body"

/-- `"send=(%d)/recv=(%d) bytes mismatch"`. -/
def diffRecvText (send recv : Int32) : Bytes :=
  ascii "send=(" ++ showInt send.toInt ++ ascii ")/recv=(" ++ showInt recv.toInt ++ ascii ") bytes mismatch"

/-- The top of `EVSOCK_PULL_READ_TRY`: drop what is left of the previous
message and take a context. -/
def pullReadPrepare (p : Pipeline) : CtxRef × Pipeline :=
  let p := { p with pull := zsockDrainRemainPart p.pull }
  let (r, pool) := getMsgCtx p.pool
  (r, { p with pool := pool })

/-- The rest of the iteration, on the context taken: receive, check, and hand the
context to SEND, or give it back when nothing was received. The drained socket
starts the next queued message, which `seen` records. -/
def pullReadProcess (r : CtxRef) (p : Pipeline) : Pipeline × List Obs :=
  let (rc, mem, pull) := zmqRecv p.pull (p.pool.read r).head.mem
  if rc.toInt < 0 then ({ p with pool := freeMsgCtx r p.pool }, [.freeMsgCtx r])
  else
    let i := p.seen.length
    let p := { p with pull := pull, seen := p.seen ++ p.pull.queue.head?.toList }
    let p := (p.setHead r (.ofMem mem)).statInc .att
    let head := (p.pool.read r).head
    if head.type ≠ zmsgTraffic then
      let (p, obs) := errMsgReply r i .failInvalidType (fun _ => invalidTypeText head.type)
        (p.setHead r { head with nBytes := 0 })
      (p, .received r i :: obs)
    else if p.pull.rcvmore = false then
      let (p, obs) := errMsgReply r i .failNullRecv (fun _ => nullRecvText)
        (p.setHead r { head with nBytes := 0 })
      (p, .received r i :: obs)
    else
      let (rcvBytes, buffer, pull) := zmqRecv p.pull (p.pool.read r).buffer
      let p := { p with pull := pull }.setBuffer r buffer
      if rcvBytes ≠ head.nBytes then
        let p := p.setHead r { head with nBytes := rcvBytes }
        -- `n_bytes` is overwritten before it is printed as the send value
        let (p, obs) := errMsgReply r i .failDiffRecv
          (fun _ => diffRecvText (p.pool.read r).head.nBytes rcvBytes) p
        (p, .received r i :: obs)
      else (p.eventBaseOnce (.pushRelay r i), [.received r i, .accepted r i])

end MsaBroker
