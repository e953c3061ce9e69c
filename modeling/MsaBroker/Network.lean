import MsaBroker.ClientRoundTrip
import MsaBroker.Lib.Fifo
import MsaBroker.RoutingIsolation

/-! The broker with its clients, and ZeroMQ between them. A client's PUSH socket
and the broker's PULL socket, and one of SEND's sockets and a client's, are
connected by a pipe that keeps the order and may lose messages, since every
socket has a linger of zero. Which service instance a PUSH socket picks, and when
anything arrives, is up to the network. -/
namespace MsaBroker
open CMemory

/-- What a client is started with: its system's uuid file and the arguments of
`zutil_init`. -/
structure ClientConf where
  sysuuid : Bytes
  svcname : Bytes
  appname : Bytes

/-- A broker and its clients, with `IV_HOME` the same on both sides. -/
structure Site where
  host : Host
  undef : Bytes → Bytes
  ivHome : Bytes
  conf : Nat → ClientConf
  sameHome : host.ipcPath = mainIpcPath (some ivHome) []

/-- The sockets on which a client hears from the broker. -/
inductive Inlet where
  | dealer
  | pull
  deriving DecidableEq

namespace Site

variable (S : Site)

def start (c : Nat) : ZutilCtx × Zconnects :=
  zutilInit S.undef S.ivHome (S.conf c).sysuuid (S.conf c).svcname (S.conf c).appname

/-- The uuid a client goes by. -/
def uuid (c : Nat) : Bytes := (S.start c).1.regiBody.uuidStr

/-- The socket of client `c` that one of SEND's sockets is connected to: the PULL
socket that connected to its path, or the DEALER socket with that identity. -/
def inlet (c : Nat) (zsockCtx : ZsockCtx) : Option Bytes → Option Inlet
  | none => if (S.start c).2.pull = zsockCtx.ipcPath then some .pull else none
  | some identity =>
    if (S.start c).2.dealer = zsockCtx.ipcPath ∧ (S.start c).2.routingId = identity then some .dealer else none

end Site

/-! ## What SEND's sockets take -/

/-- The results of the `zmq_send` calls, in order. -/
def sendResults (obs : List Obs) : List Int :=
  obs.filterMap fun
    | .zmqSend _ _ _ res => some res
    | _ => none

/-- The callback that sends, and its socket. -/
def Obs.sender? : Obs → Option (Callback × ZsockCtx)
  | .zmqSend cb zsockCtx _ _ => some (cb, zsockCtx)
  | _ => none

/-- What the frames a callback sent come to: the peer, where the socket chooses by
identity, and the message. -/
def outgoing (obs : List Obs) : Option (Callback × ZsockCtx × Option Bytes × Message) :=
  (obs.findSome? Obs.sender?).bind fun sender =>
    (sender.2.type.deliver (sentFrames obs)).map fun sent => (sender.1, sender.2, sent.1, sent.2)

/-! ## The network as a machine -/

/-- A message on its way to a client; `i` is the receive number of the message it
relays or answers. -/
structure Parcel where
  recipient : Nat
  inlet : Inlet
  i : Nat
  reply : Bool
  msg : Message
  deriving DecidableEq

/-- The socket it is on its way to. -/
def Parcel.way (parcel : Parcel) : Nat × Inlet := (parcel.recipient, parcel.inlet)

/-- What a callback sends. -/
def Callback.parcel (recipient : Nat) (inlet : Inlet) (msg : Message) : Callback → Option Parcel
  | .pushRelay _ i => some ⟨recipient, inlet, i, false, msg⟩
  | .routerErrReply _ i => some ⟨recipient, inlet, i, true, msg⟩
  | .pushCreate _ | .pushRemove _ => none

structure Network where
  pipe : Pipeline
  client : Nat → ZutilCtx
  /-- How many messages each client's PUSH socket has taken. -/
  posted : Nat → Nat
  /-- Of these, with their numbers, those the broker has not yet received. -/
  up : Nat → List (Nat × Message)
  /-- What SEND's sockets have taken, and the client's socket has not. -/
  flight : Nat × Inlet → List Parcel
  /-- What the client's socket holds. -/
  inbox : Nat × Inlet → List Parcel

namespace Network

inductive Act where
  /-- Client `d` calls `zutil_send`. -/
  | send (d : Nat) (route : UInt32) (dest buff : Bytes) (size : Nat) (stamp : Option Bytes) (res : ZutilRes)
  /-- The next message of client `d` reaches the broker, or is lost. -/
  | carry (d : Nat) (arrives : Bool)
  /-- RECV or SEND takes a step, or MGNT posts a notification; what is sent goes
  to this client. -/
  | broker (a : Pipeline.Act) (recipient : Nat)
  /-- The next parcel for a socket of client `c` reaches it, or is lost. -/
  | deliver (c : Nat) (inlet : Inlet) (arrives : Bool)
  /-- Client `c` calls `zutil_recv`. -/
  | recv (c : Nat) (head : Envelop) (buff : Bytes) (size : Nat)
  /-- Client `c` calls `zutil_regi`. -/
  | regi (c : Nat) (now : Int64) (ctime : Bytes) (res : ZutilRes)

inductive Obs where
  | broker (o : MsaBroker.Obs)
  /-- Client `d`'s PUSH socket took this message. -/
  | posted (d : Nat) (m : Message)
  /-- Message `n` of client `d` reached the broker. -/
  | carried (d n : Nat)
  /-- ZeroMQ lost a message, or an error reply could not be sent. -/
  | lost
  /-- One of SEND's sockets took this parcel. -/
  | routed (parcel : Parcel)
  /-- A `zutil_recv` took this parcel, and ended with this return value, header
  and buffer. -/
  | yielded (parcel : Parcel) (rc : Int32) (head : Envelop) (buff : Bytes)

/-- A message arrives at a client's socket. -/
def arrive (inlet : Inlet) (m : Message) (z : ZutilCtx) : ZutilCtx :=
  match inlet with
  | .dealer => { z with dealer := z.dealer.arrive m }
  | .pull => { z with pull := z.pull.arrive m }

/-- The socket `zutil_recv` serves. -/
def served (z : ZutilCtx) : Option Inlet :=
  if z.sub.pollin then none
  else if z.dealer.pollin then some .dealer
  else if z.pull.pollin then some .pull
  else none

variable (S : Site)

def init : Network where
  pipe := Pipeline.init S.host
  client c := (S.start c).1
  posted _ := 0
  up _ := []
  flight _ := []
  inbox _ := []

/-- A client's `zutil_send`. ZeroMQ decides at the first frame of a message
whether there is room, so a body frame is not refused behind its header. -/
def stepSend (d : Nat) (route : UInt32) (dest buff : Bytes) (size : Nat) (stamp : Option Bytes) (res : ZutilRes)
    (N : Network) : Option (Network × List Obs) :=
  let (rc, z, frames) := zutilSend route dest buff size stamp res (N.client d)
  if res.headRes > 0 ∧ res.bodyRes < 0 then none
  else
    let N := { N with client := Function.update N.client d z }
    if rc < 0 then some (N, [])
    else
      match ZmqType.push.deliver frames with
      | none => some (N, [])
      | some (_, m) =>
        some ({ N with
            posted := Function.update N.posted d (N.posted d + 1)
            up := Function.update N.up d (N.up d ++ [(N.posted d, m)]) }, [.posted d m])

def stepCarry (d : Nat) (arrives : Bool) (N : Network) : Option (Network × List Obs) :=
  match N.up d with
  | [] => none
  | (n, m) :: up =>
    let N := { N with up := Function.update N.up d up }
    if arrives then some ({ N with pipe := { N.pipe with pull := N.pipe.pull.arrive m } }, [.carried d n])
    else some (N, [.lost])

/-- A step of the broker. A callback's sends all succeed, and its parcel goes to a
client that is connected, or the first of them fails. -/
def stepBroker (a : Pipeline.Act) (recipient : Nat) (N : Network) : Option (Network × List Obs) :=
  match a with
  | .arrive _ => none
  | a =>
    (Pipeline.step S.host N.pipe a).bind fun next =>
      let (pipe, obs) := next
      let N := { N with pipe := pipe }
      if (sendResults obs).all (0 ≤ ·) then
        match outgoing obs with
        | none => some (N, obs.map .broker)
        | some (cb, zsockCtx, peer, msg) =>
          ((S.inlet recipient zsockCtx peer).bind fun inlet => cb.parcel recipient inlet msg).map fun parcel =>
            ({ N with flight := Function.update N.flight parcel.way (N.flight parcel.way ++ [parcel]) },
              obs.map .broker ++ [.routed parcel])
      else if (sendResults obs).length = 1 then
        match obs.findSome? Obs.sender? with
        | some (.routerErrReply .., _) => some (N, obs.map .broker ++ [.lost])
        | _ => some (N, obs.map .broker)
      else none

def stepDeliver (c : Nat) (inlet : Inlet) (arrives : Bool) (N : Network) : Option (Network × List Obs) :=
  match N.flight (c, inlet) with
  | [] => none
  | parcel :: flight =>
    let N := { N with flight := Function.update N.flight (c, inlet) flight }
    if arrives then
      some ({ N with
        client := Function.update N.client c (arrive inlet parcel.msg (N.client c))
        inbox := Function.update N.inbox (c, inlet) (N.inbox (c, inlet) ++ [parcel]) }, [])
    else some (N, [.lost])

def stepRecv (c : Nat) (head : Envelop) (buff : Bytes) (size : Nat) (N : Network) : Option (Network × List Obs) :=
  let (rc, head, buff, z) := zutilRecv head buff size (N.client c)
  let N' := { N with client := Function.update N.client c z }
  match served (N.client c) with
  | none => some (N', [])
  | some inlet =>
    match N.inbox (c, inlet) with
    | [] => some (N', [])
    | parcel :: inbox =>
      some ({ N' with inbox := Function.update N.inbox (c, inlet) inbox }, [.yielded parcel rc head buff])

def stepRegi (c : Nat) (now : Int64) (ctime : Bytes) (res : ZutilRes) (N : Network) : Option (Network × List Obs) :=
  some ({ N with client := Function.update N.client c (zutilRegi now ctime res (N.client c)).1 }, [])

def step (N : Network) : Act → Option (Network × List Obs)
  | .send d route dest buff size stamp res => stepSend d route dest buff size stamp res N
  | .carry d arrives => stepCarry d arrives N
  | .broker a recipient => stepBroker S a recipient N
  | .deliver c inlet arrives => stepDeliver c inlet arrives N
  | .recv c head buff size => stepRecv c head buff size N
  | .regi c now ctime res => stepRegi c now ctime res N

def machine : Machine Network Act Obs := ⟨init S, step S⟩

/-- Two clients of one broker. -/
def twoClients : Site where
  host := .bare
  undef := id
  ivHome := ascii "/home/broker"
  conf c := ⟨if c = 0 then ascii "a" else ascii "b", ascii "x", ascii "p"⟩
  sameHome := rfl

end Network

end MsaBroker
