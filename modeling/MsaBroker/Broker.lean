import Mathlib.Logic.Function.Basic
import MsaBroker.Elem
import MsaBroker.Zmessage
import MsaBroker.Zmq

/-! `broker.h` and the tables of `main.c`: message contexts and their pool, the
socket table of a thread, the callbacks queued on SEND's event base, and the
state RECV and SEND share. -/
namespace MsaBroker
open CMemory

def maxMsgctxNum : Nat := 10240
abbrev maxMsgsizeByte : Nat := 1024

/-! ## Message contexts -/

/-- `msg_ctx_t`. -/
structure MsgCtx where
  msgCtxId : Int
  occupied : Bool
  head : Envelop
  buffer : Buf maxMsgsizeByte

/-- `msg_ctx_t *`: a cell of the `MAIN_CTX->msg_ctx` array, or a block `malloc`
returned. Blocks are numbered, so a block freed is never the same as a later
one. -/
inductive CtxRef where
  | slot (pos : Int)
  | temp (block : Nat)
  deriving DecidableEq, Repr

/-- `MAIN_CTX->msg_ctx` with `CURR_POS`, and the temporary contexts alive. -/
structure Pool where
  slot : Int → MsgCtx
  temp : Nat → Option MsgCtx
  nextBlock : Nat
  currPos : Int

namespace Pool

/-- `*msg_ctx`. A freed block reads as an arbitrary context. -/
def read (p : Pool) : CtxRef → MsgCtx
  | .slot pos => p.slot pos
  | .temp block => (p.temp block).getD ⟨-1, false, .zero, .zero _⟩

/-- `*msg_ctx = c`. -/
def write (p : Pool) : CtxRef → MsgCtx → Pool
  | .slot pos, c => { p with slot := Function.update p.slot pos c }
  | .temp block, c => { p with temp := Function.update p.temp block (some c) }

/-- The pool as `initialize_main` prepares it. -/
def init : Pool where
  slot pos := ⟨pos, false, .zero, .zero _⟩
  temp _ := none
  nextBlock := 0
  currPos := 0

end Pool

/-! ## What the code does not determine -/

/-- The environment: the configured directory of the ipc paths, what lies in
memory behind a context's header and behind its buffer, and what `sprintf` does
with a format that C leaves undefined. -/
structure Host where
  ipcPath : Bytes
  afterHead : CtxRef → Bytes
  afterBuffer : CtxRef → Bytes
  printfUndef : Bytes → Bytes

/-- `MAIN_CTX->ipc_path` as `initialize_main` formats it: below `IV_HOME`, or
below `HOME` where that is not set. -/
def mainIpcPath (ivHome : Option Bytes) (home : Bytes) : Bytes :=
  ivHome.getD home ++ ascii "/data/ipc_path"

/-- A host with no memory to be read behind its contexts. -/
def Host.bare : Host where
  ipcPath := mainIpcPath (some (ascii "/home/broker")) []
  afterHead _ := []
  afterBuffer _ := []
  printfUndef text := text

/-! ## Socket tables -/

/-- `zsock_ctx_t`; `zsock` is the handle `zmq_socket` returned. -/
structure ZsockCtx where
  myKey : Bytes
  type : ZmqType
  ipcPath : Bytes
  zsock : Nat
  deriving DecidableEq

/-- A socket that was opened, bound to its path and not closed yet. -/
structure OpenSock where
  zsock : Nat
  type : ZmqType
  ipcPath : Bytes
  deriving DecidableEq

/-- The sockets of the process. -/
structure Net where
  next : Nat
  opened : List OpenSock

/-- `zmq_close`. -/
def Net.close (net : Net) (zsock : Nat) : Net :=
  { net with opened := net.opened.filter fun s => s.zsock ≠ zsock }

/-- `sprintf(ipc_path, "ipc://%s/%s.ipc", MAIN_CTX->ipc_path, key)`. -/
def zsockIpcPath (host : Host) (key : Bytes) : Bytes :=
  ascii "ipc://" ++ host.ipcPath ++ ascii "/" ++ key ++ ascii ".ipc"

/-- `add_zsock_to_list`. The key is looked up as it is, stored as the text
`sprintf(my_key, key)` makes of it, and inserted under that text; the socket is
opened and bound also where the insertion was refused. -/
def addZsockToList (host : Host) (key : Bytes) (type : ZmqType) (net : Net)
    (llist : List (Element ZsockCtx)) : Net × List (Element ZsockCtx) :=
  if (getElement key llist).isSome then (net, llist)
  else
    let zsockCtx : ZsockCtx :=
      { myKey := formatText host.printfUndef key, type, ipcPath := zsockIpcPath host key, zsock := net.next }
    let elem : Element ZsockCtx := ⟨zsockCtx.myKey, zsockCtx⟩
    ({ next := net.next + 1, opened := net.opened ++ [⟨zsockCtx.zsock, type, zsockCtx.ipcPath⟩] },
      (addElement elem llist).getD llist)

/-- `del_zsock_from_list`. -/
def delZsockFromList (key : Bytes) (type : ZmqType) (net : Net) (llist : List (Element ZsockCtx)) :
    Net × List (Element ZsockCtx) :=
  match getElement key llist with
  | none => (net, llist)
  | some elem =>
    if elem.data.type ≠ type then (net, llist)
    else (net.close elem.data.zsock, remElement key llist)

/-- `thrd_enum_t`. -/
inductive ThrdEnum where
  | trSend
  | trRecv
  | trMgnt
  deriving DecidableEq, Repr

/-- The sockets `initialize_thread` creates, on an empty list. -/
def initializeThread (host : Host) (thrdRole : ThrdEnum) (net : Net) : Net × List (Element ZsockCtx) :=
  match thrdRole with
  | .trSend => addZsockToList host (ascii "ROUTER") .router net []
  | .trRecv => addZsockToList host (ascii "PULL") .pull net []
  | .trMgnt =>
    let (net, llist) := addZsockToList host (ascii "PUB") .pub net []
    addZsockToList host (ascii "SUB") .sub net llist

/-! ## SEND's event base -/

/-- A callback queued with `event_base_once` on SEND's event base, with its
argument. `i` is the receive number of the message the event was posted for; no
callback reads it. -/
inductive Callback where
  | pushRelay (ctx : CtxRef) (i : Nat)
  | routerErrReply (ctx : CtxRef) (i : Nat)
  | pushCreate (appls : ApplsCtx)
  | pushRemove (appls : ApplsCtx)
  deriving DecidableEq

/-- The context the callback was given. -/
def Callback.ctx? : Callback → Option CtxRef
  | .pushRelay r _ | .routerErrReply r _ => some r
  | .pushCreate _ | .pushRemove _ => none

/-- `stat_enum_t`. -/
inductive StatEnum where
  | att
  | succ
  | fail
  deriving DecidableEq, Repr

/-- What RECV and SEND share, and how far each thread is. -/
structure Pipeline where
  pool : Pool
  stat : StatEnum → Nat
  reason : ZmsgResp → Nat
  /-- RECV's PULL socket. -/
  pull : InSock
  /-- SEND's event base: callbacks activated and not yet run, in order. -/
  evbase : List Callback
  /-- SEND's socket table. -/
  zsockLlist : List (Element ZsockCtx)
  net : Net
  /-- The context of the RECV iteration in progress. -/
  recv : Option CtxRef
  /-- The SEND callback in progress. -/
  send : Option Callback
  /-- The messages RECV has taken from its socket, in order. -/
  seen : List Message

/-! ## What an observer of a run sees -/

/-- Where a relay goes: the socket, and the identity frame a router is given. -/
structure Target where
  zsockCtx : ZsockCtx
  uuid : Option Bytes
  deriving DecidableEq

/-- One frame handed to `zmq_send`. -/
inductive Frame where
  | identity (uuid : Bytes)
  | head (head : Envelop)
  | body (nBytes : Int32) (data : Bytes)

inductive Obs where
  /-- `get_msg_ctx` returned this context. -/
  | getMsgCtx (ctx : CtxRef)
  /-- `free_msg_ctx` was given this context. -/
  | freeMsgCtx (ctx : CtxRef)
  /-- RECV took the header of message `i` into the context. -/
  | received (ctx : CtxRef) (i : Nat)
  /-- RECV posted `evsock_push_relay` for message `i`. -/
  | accepted (ctx : CtxRef) (i : Nat)
  /-- `err_msg_reply` ran for message `i`. -/
  | errMsgReply (ctx : CtxRef) (i : Nat) (errCode : ZmsgResp)
  /-- A SEND callback started, on this socket table and with these results of
  its `zmq_send` calls. -/
  | callback (cb : Callback) (zsockLlist : List (Element ZsockCtx)) (res : SendRes)
  /-- The callback handed a header and a body to `msg_relay`. -/
  | handed (cb : Callback) (target : Target) (head : Envelop) (body : Bytes)
  /-- The callback called `zmq_send`. -/
  | zmqSend (cb : Callback) (zsockCtx : ZsockCtx) (frame : Frame) (res : Int)
  /-- The relay of message `i` succeeded and was counted. -/
  | relayed (ctx : CtxRef) (i : Nat)

/-- The context an observation touches. -/
def Obs.ctx? : Obs → Option CtxRef
  | .getMsgCtx r | .freeMsgCtx r | .received r _ | .accepted r _ | .errMsgReply r _ _ | .relayed r _ => some r
  | .callback cb _ _ | .handed cb _ _ _ | .zmqSend cb _ _ _ => cb.ctx?

/-- Made by `service_relay` or `router_relay`. -/
def Obs.isAttempt : Obs → Bool
  | .handed .. | .zmqSend .. => true
  | _ => false

end MsaBroker
