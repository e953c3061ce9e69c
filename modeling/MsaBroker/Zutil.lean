import MsaBroker.TrMgnt

/-! `sample_client/zutil.c`: the client. It announces itself on its PUB socket,
sends messages on its PUSH socket, and receives the broker's replies on its
DEALER socket and its service's traffic on its PULL socket. What it sends shows
as the frames its calls hand to `zmq_send`. -/
namespace MsaBroker
open CMemory

/-- `zutil_ctx_t`, with the sockets it receives from. -/
structure ZutilCtx where
  ivHome : Bytes
  regiHead : Envelop
  regiBody : ApplsCtx
  sub : InSock
  dealer : InSock
  pull : InSock

/-! ## `zutil_init` -/

/-- `zutil_init_create_regi_info`, on what the system's uuid file holds; `undef`
is what `snprintf` does with a format that C leaves undefined. -/
def zutilInitCreateRegiInfo (undef : Bytes → Bytes) (sysuuid svcname appname : Bytes) : ApplsCtx :=
  let regi := ApplsCtx.zero
  -- `fgets`, then the line feed replaced by a terminator
  let regi := { regi with uuid := regi.uuid.store ((sysuuid.take (zmsgCommStrlen - 1)).takeWhile (· ≠ 10)) }
  let regi := { regi with svcname := regi.svcname.snprintf (formatText undef svcname) }
  let regi := { regi with appname := regi.appname.snprintf (formatText undef appname) }
  { regi with timestamp := 0 }

/-- The endpoints `zutil_init_create_zconnects` connects to, and the routing id
of the DEALER socket. -/
structure Zconnects where
  pub : Bytes
  sub : Bytes
  push : Bytes
  dealer : Bytes
  pull : Bytes
  routingId : Bytes

/-- `zutil_init_create_zconnects`. -/
def zutilInitCreateZconnects (ivHome : Bytes) (regi : ApplsCtx) (svcname : Bytes) : Zconnects :=
  let rootPath := ascii "ipc://" ++ ivHome ++ ascii "/data/ipc_path"
  let fullPath (name : Bytes) := rootPath ++ ascii "/" ++ name ++ ascii ".ipc"
  { pub := fullPath (ascii "SUB"), sub := fullPath (ascii "PUB"), push := fullPath (ascii "PULL"),
    dealer := fullPath (ascii "ROUTER"), pull := fullPath svcname, routingId := regi.uuidStr }

/-- `zutil_init`, where all its library calls succeed. -/
def zutilInit (undef : Bytes → Bytes) (ivHome sysuuid svcname appname : Bytes) : ZutilCtx × Zconnects :=
  let regi := zutilInitCreateRegiInfo undef sysuuid svcname appname
  ({ ivHome, regiHead := .zero, regiBody := regi, sub := ⟨[], []⟩, dealer := ⟨[], []⟩, pull := ⟨[], []⟩ },
    zutilInitCreateZconnects ivHome regi svcname)

/-! ## Sending -/

/-- The results of the two `zmq_send` calls of `zutil_regi` and `zutil_send`. -/
structure ZutilRes where
  headRes : Int
  bodyRes : Int

/-- `zutil_regi`, at clock reading `now`, which `ctime_r` shows as `ctime`. -/
def zutilRegi (now : Int64) (ctime : Bytes) (res : ZutilRes) (z : ZutilCtx) : ZutilCtx × List Bytes :=
  if now.toInt - z.regiBody.timestamp.toInt < 1 then (z, [])
  else
    let body := { z.regiBody with timestamp := now }
    let head := { Envelop.zero with type := zmsgRegi }
    let head := { head with stamp := head.stamp.store (ctime.take 19 ++ [0]) }
    let head := { head with nBytes := Int32.ofNat sizeofApplsCtx }
    let frames := if res.headRes > 0 then [head.bytes, body.bytes] else [head.bytes]
    ({ z with
        regiHead := head
        regiBody := { body with sndCnt := 0, sndBytes := 0, rcvCnt := 0, rcvBytes := 0 } }, frames)

/-- The header `zutil_send` makes. -/
def zutilHead (route : UInt32) (dest : Bytes) (size : Nat) (stamp : Option Bytes) (z : ZutilCtx) : Envelop :=
  let head := { Envelop.zero with type := zmsgTraffic, route := route }
  let head := { head with stamp := head.stamp.snprintf (stamp.getD []) }
  let head := { head with from_ := head.from_.snprintf z.regiBody.uuidStr }
  let head := { head with dest := head.dest.snprintf dest }
  { head with nBytes := Int32.ofNat size, respCode := 0 }

/-- `zutil_send`: the return value and the frames handed to `zmq_send`. A refused
call hands over none. -/
def zutilSend (route : UInt32) (dest buff : Bytes) (size : Nat) (stamp : Option Bytes) (res : ZutilRes)
    (z : ZutilCtx) : Int × ZutilCtx × List Bytes :=
  if route ≠ zmsgRouteSvc ∧ route ≠ zmsgRouteInst then (-1, z, [])
  else if size = 0 ∨ size ≥ maxZmqmsgSize then (-1, z, [])
  else
    let head := zutilHead route dest size stamp z
    let frames := if res.headRes > 0 then [head.bytes, buff.take size] else [head.bytes]
    let sndBytes := if res.headRes > 0 then res.bodyRes else -1
    let z := if sndBytes ≥ 0 then
        { z with regiBody := { z.regiBody with
            sndCnt := z.regiBody.sndCnt + 1
            sndBytes := z.regiBody.sndBytes + UInt64.ofNat sndBytes.toNat } }
      else z
    (sndBytes, z, frames)

/-! ## Receiving -/

/-- `POLLIN`: there is a frame to receive. -/
def InSock.pollin (s : InSock) : Bool := !s.more.isEmpty || !s.queue.isEmpty

/-- `zmq_recv(zsock, buff, size, ZMQ_DONTWAIT)` into memory that may go on behind
the `size` bytes the caller names. -/
def zmqRecvMem (s : InSock) (buff : Bytes) (size : Nat) : Int32 × Bytes × InSock :=
  match s.recv with
  | none => (-1, buff, s)
  | some (frame, s) => (recvLength frame, frame.take size ++ buff.drop (min frame.length size), s)

/-- The two receives of `zutil_recv`, from the socket it has chosen: `rcv_bytes`,
the caller's header and the memory at `buff`. -/
def zutilRecvFrom (s : InSock) (head : Envelop) (buff : Bytes) (size : Nat) :
    Int32 × Envelop × Bytes × InSock :=
  let (rc, mem, s) := zmqRecv s head.mem
  let head := Envelop.ofMem mem
  if rc.toInt > 0 ∧ s.rcvmore then
    let (rcvBytes, buff, s) := zmqRecvMem s buff size
    if rcvBytes.toInt ≥ 0 then (rcvBytes, head, buff.set rcvBytes.toInt.toNat 0, s)
    else (rcvBytes, head, buff, s)
  else (-1, head, buff, s)

/-- `rcv_cnt` and `rcv_bytes` after a receive. -/
def ApplsCtx.received (regi : ApplsCtx) (rcvBytes : Int32) : ApplsCtx :=
  if rcvBytes.toInt ≥ 0 then
    { regi with rcvCnt := regi.rcvCnt + 1, rcvBytes := regi.rcvBytes + UInt64.ofNat rcvBytes.toInt.toNat }
  else regi

/-- `zutil_recv`: the first of the SUB, DEALER and PULL sockets that is ready. -/
def zutilRecv (head : Envelop) (buff : Bytes) (size : Nat) (z : ZutilCtx) :
    Int32 × Envelop × Bytes × ZutilCtx :=
  if z.sub.pollin then
    let (rc, head, buff, s) := zutilRecvFrom z.sub head buff size
    (rc, head, buff, { z with sub := s, regiBody := z.regiBody.received rc })
  else if z.dealer.pollin then
    let (rc, head, buff, s) := zutilRecvFrom z.dealer head buff size
    (rc, head, buff, { z with dealer := s, regiBody := z.regiBody.received rc })
  else if z.pull.pollin then
    let (rc, head, buff, s) := zutilRecvFrom z.pull head buff size
    (rc, head, buff, { z with pull := s, regiBody := z.regiBody.received rc })
  else (-1, head, buff, z)

/-- A whole message at the front of a socket, of two frames: the header is the
one sent, and `buff` holds as much of the body as fits. -/
theorem zutilRecvFrom_sent (h : Envelop) (body : Bytes) (queue : List Message) (head : Envelop)
    (buff : Bytes) (size : Nat) (short : body.length < 2147483648) :
    zutilRecvFrom ⟨[], ⟨h.bytes, [body]⟩ :: queue⟩ head buff size =
      (Int32.ofNat body.length, h,
        (body.take size ++ buff.drop (min body.length size)).set body.length 0, ⟨[], queue⟩) := by
  have reported : recvLength body = Int32.ofNat body.length := by
    rw [recvLength, Nat.min_eq_left (by omega)]
  have received : (Int32.ofNat body.length).toInt = body.length := by
    rw [← reported, recvLength_toInt]
    omega
  have positive : 0 < (recvLength h.bytes).toInt := by
    rw [recvLength_toInt]
    simp [sizeofEnvelop]
  have header : Envelop.ofMem (head.mem.store h.bytes) = h := Envelop.store_sent head h
  simp [zutilRecvFrom, zmqRecv, zmqRecvMem, InSock.recv, InSock.rcvmore, positive, header, reported, received]

end MsaBroker
