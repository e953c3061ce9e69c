import MsaBroker.Lib.CMemory

/-! The parts of ZeroMQ the broker calls, as documented: a receiving socket
queues whole multipart messages and hands out one frame at a time;
`ZMQ_RCVMORE` is positive exactly when the last frame received has a successor
in its message; a non-blocking receive fails exactly when nothing is queued.
Sending may fail at any call, so its results are inputs of the model. -/
namespace MsaBroker
open CMemory

/-- Socket types. -/
inductive ZmqType where
  | router
  | pull
  | pub
  | sub
  | push
  deriving DecidableEq, Repr

/-- A multipart message: at least one frame. -/
structure Message where
  head : Bytes
  rest : List Bytes
  deriving DecidableEq

/-- What becomes of the frames sent on a socket of this type: the peer it goes
to, where the socket chooses by identity, and the message that peer receives. A
router takes the first frame for the identity. -/
def ZmqType.deliver : ZmqType → List Bytes → Option (Option Bytes × Message)
  | .push, head :: rest => some (none, ⟨head, rest⟩)
  | .router, identity :: head :: rest => some (some identity, ⟨head, rest⟩)
  | _, _ => none

/-- The receiving side of a socket. -/
structure InSock where
  /-- Frames of the message being read that have not been received yet. -/
  more : List Bytes
  /-- Messages not begun. -/
  queue : List Message

/-- `zmq_getsockopt(zsock, ZMQ_RCVMORE)`. -/
def InSock.rcvmore (s : InSock) : Bool := !s.more.isEmpty

/-- A non-blocking receive of the next frame. -/
def InSock.recv (s : InSock) : Option (Bytes × InSock) :=
  match s.more, s.queue with
  | frame :: more, queue => some (frame, ⟨more, queue⟩)
  | [], m :: queue => some (m.head, ⟨m.rest, queue⟩)
  | [], [] => none

/-- A message arrives. -/
def InSock.arrive (s : InSock) (m : Message) : InSock := { s with queue := s.queue ++ [m] }

/-- `zmq_recv` returns the length of the frame, also where it stored less. The
return type is `int`, so a longer frame reports `INT_MAX`. -/
def recvLength (frame : Bytes) : Int32 := Int32.ofNat (min frame.length 2147483647)

/-- The results of the `zmq_send` calls of one callback, under the names the
source gives them; a call that is not made leaves its result unused. -/
structure SendRes where
  routeRes : Int
  headRes : Int
  bodyRes : Int
  deriving DecidableEq

theorem recvLength_toInt (frame : Bytes) : (recvLength frame).toInt = min frame.length 2147483647 := by
  rw [recvLength, Int32.toInt_ofNat_of_lt (by omega)]

theorem recvLength_nonneg (frame : Bytes) : 0 ≤ (recvLength frame).toInt := by
  rw [recvLength_toInt]; omega

/-- Under a limit that fits an `int`, the reported length decides whether the
frame fit. -/
theorem recvLength_le_iff {frame : Bytes} {n : Nat} (fits : n < 2147483647) :
    (recvLength frame).toInt ≤ n ↔ frame.length ≤ n := by
  rw [recvLength_toInt]; omega

end MsaBroker
