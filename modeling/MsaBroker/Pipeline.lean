import MsaBroker.Lib.Machine
import MsaBroker.TrMgnt
import MsaBroker.TrSend

/-! RECV and SEND as one machine. A RECV iteration and a SEND callback each take
two steps, so that the other thread may run in between; MGNT appears only as
whatever notifications it posts. Every interleaving is a list of these steps. -/
namespace MsaBroker
open CMemory

namespace Pipeline

/-- The broker's sockets and SEND's table once all threads have started, in the
order in which `initialize_main` creates them. -/
def init (host : Host) : Pipeline :=
  let (net, send) := initializeThread host .trSend ⟨0, []⟩
  let (net, _) := initializeThread host .trRecv net
  let (net, _) := initializeThread host .trMgnt net
  { pool := .init, stat := fun _ => 0, reason := fun _ => 0, pull := ⟨[], []⟩, evbase := [],
    zsockLlist := send, net := net, recv := none, send := none, seen := [] }

/-- The steps of the two threads and of their surroundings. -/
inductive Act where
  /-- A message reaches the PULL socket. -/
  | arrive (m : Message)
  /-- RECV starts an iteration: it drains the socket and takes a context. -/
  | recvPrepare
  /-- RECV finishes its iteration. -/
  | recvProcess
  /-- MGNT posts a notification. -/
  | post (n : Notification)
  /-- SEND takes the next callback off its event base. -/
  | sendTake
  /-- SEND runs the callback it took; its `zmq_send` calls return these results. -/
  | sendRun (res : SendRes)

/-- One step; `none` where the thread is not at that point. -/
def step (host : Host) (p : Pipeline) : Act → Option (Pipeline × List Obs)
  | .arrive m => some ({ p with pull := p.pull.arrive m }, [])
  | .recvPrepare =>
    match p.recv with
    | some _ => none
    | none =>
      let (r, p) := pullReadPrepare p
      some ({ p with recv := some r }, [.getMsgCtx r])
  | .recvProcess =>
    match p.recv with
    | none => none
    | some r =>
      let (p, obs) := pullReadProcess r p
      some ({ p with recv := none }, obs)
  | .post n => some (p.eventBaseOnce n.callback, [])
  | .sendTake =>
    match p.send, p.evbase with
    | none, cb :: evbase => some ({ p with send := some cb, evbase := evbase }, [])
    | _, _ => none
  | .sendRun res =>
    match p.send with
    | none => none
    | some cb =>
      let (p', obs) := runCallback host cb res p
      some ({ p' with send := none }, .callback cb p.zsockLlist res :: obs)

/-- The pipeline as a machine over its interleavings. -/
def machine (host : Host) : Machine Pipeline Act Obs := ⟨init host, step host⟩

end Pipeline

end MsaBroker
