import MsaBroker.TrRecv

/-! `tr_mgnt.c`: the registry of applications, and one iteration of the SUB
reader that feeds it. A sweep is modelled one
`check_svc_alive` call at a time, as a cursor in the registry: `swept` is what
the sweep has passed, `todo` what it has yet to visit, and the list itself is
both, one after the other. Between sweeps nothing is left to visit. -/
namespace MsaBroker
open CMemory

/-- What MGNT posts to SEND: the callback with its copy of the record. -/
inductive Notification where
  | create (appls : ApplsCtx)
  | remove (appls : ApplsCtx)
  deriving DecidableEq

def Notification.appls : Notification → ApplsCtx
  | .create a | .remove a => a

def Notification.callback : Notification → Callback
  | .create a => .pushCreate a
  | .remove a => .pushRemove a

/-- `appls_llist`, with the position of the sweep in progress. -/
structure Registry where
  swept : List (Element ApplsCtx)
  todo : List (Element ApplsCtx)

/-- `appls_llist` after its root node. -/
def Registry.list (reg : Registry) : List (Element ApplsCtx) := reg.swept ++ reg.todo

/-- `list_element(appls_llist, find_svc_exist, &arg)`: how many records carry
this svcname. -/
def findSvcExist (svcname : Bytes) (l : List (Element ApplsCtx)) : Nat :=
  l.countP fun e => strcmp e.data.svcnameStr svcname = 0

/-- The count `arg.find` ends with: the records are not counted for an empty
name. -/
def countSvc (svcname : Bytes) (l : List (Element ApplsCtx)) : Nat :=
  if svcname.length > 0 then findSvcExist svcname l else 0

/-- `check_svc_alive` on the next element of the sweep, at clock reading `now`.
The last record of its service posts a remove notification, and an expired
record is unlinked. -/
def checkSvcAlive (now : Int64) (reg : Registry) : Registry × List Notification :=
  match reg.todo with
  | [] => (reg, [])
  | elem :: todo =>
    if now.toInt - elem.data.timestamp.toInt > 10 then
      (⟨reg.swept, todo⟩,
        if countSvc elem.data.svcnameStr reg.list = 1 then [.remove elem.data] else [])
    else (⟨reg.swept ++ [elem], todo⟩, [])

/-- `manage_appls` begins: the traversal stands at the root, whose visit does
nothing. -/
def sweepStart (reg : Registry) : Registry := ⟨[], reg.list⟩

/-- `handle_regi`, at clock reading `now`; it runs between sweeps. A known uuid
has its record overwritten and nothing is posted. -/
def handleRegi (now : Int64) (nBytes : Int32) (appls : ApplsCtx) (reg : Registry) :
    Registry × List Notification :=
  if nBytes.toInt ≠ sizeofApplsCtx then (reg, [])
  else
    let appls := appls.setTimestamp now
    match getElement appls.uuidStr reg.list with
    | some _ => (⟨setElement appls.uuidStr appls reg.list, []⟩, [])
    | none =>
      let list := (addElement ⟨appls.uuidStr, appls⟩ reg.list).getD reg.list
      (⟨list, []⟩, if countSvc appls.svcnameStr list = 1 then [.create appls] else [])

/-! ## One iteration of `evsock_sub_read` -/

/-- `zmessage_t`; the reader's `msg_buffer` is never cleared. -/
structure Zmessage where
  head : Envelop
  body : Buf maxZmqmsgSize

/-- `EVSOCK_SUB_READ_TRY`, at clock reading `now`; `none` where nothing was left
to receive. Every branch of the source but that one goes back for the next
message. -/
def subRead (now : Int64) (zmsg : Zmessage) (sub : InSock) (reg : Registry) :
    Option (Zmessage × InSock × Registry × List Notification) :=
  let (rc, mem, sub) := zmqRecv (zsockDrainRemainPart sub) zmsg.head.mem
  if rc.toInt < 0 then none
  else
    let head := Envelop.ofMem mem
    if sub.rcvmore = false then some (⟨{ head with nBytes := 0 }, zmsg.body⟩, sub, reg, [])
    else
      let (rcvBytes, part, sub) := zmqRecv sub (Buf.load maxMsgsizeByte zmsg.body.bytes)
      let body := zmsg.body.store part.bytes
      if rcvBytes ≠ head.nBytes then some (⟨head, body⟩, sub, reg, [])
      else if head.type = zmsgRegi then
        let appls := ApplsCtx.ofMem (Buf.load _ body.bytes)
        let (reg, posted) := handleRegi now head.nBytes appls reg
        -- the clock reading is written into the message where it lies
        let body := if head.nBytes.toInt ≠ sizeofApplsCtx then body
          else body.store (appls.setTimestamp now).bytes
        some (⟨head, body⟩, sub, reg, posted)
      else some (⟨head, body⟩, sub, reg, [])

/-- A record received lies at the start of the reader's body, whatever was there
before. -/
theorem ofMem_received (old : Buf maxZmqmsgSize) {frame : Bytes} (size : frame.length = sizeofApplsCtx) :
    ApplsCtx.ofMem (Buf.load _ (old.store ((Buf.load maxMsgsizeByte old.bytes).store frame).bytes).bytes) =
      ApplsCtx.ofMem (Buf.load _ frame) := by
  have received : ((Buf.load maxMsgsizeByte old.bytes).store frame).bytes.take sizeofApplsCtx = frame := by
    rw [Buf.store_take _ _ (Nat.le_of_eq size.symm) (show 424 ≤ 1024 by decide), List.take_of_length_le (Nat.le_of_eq size)]
  have stored : (old.store ((Buf.load maxMsgsizeByte old.bytes).store frame).bytes).bytes.take sizeofApplsCtx =
      frame := by
    rw [Buf.store_take _ _ (by rw [Buf.size_eq]; decide) (show 424 ≤ 65535 by decide), received]
  have whole := List.take_append_drop sizeofApplsCtx
    (old.store ((Buf.load maxMsgsizeByte old.bytes).store frame).bytes).bytes
  rw [stored] at whole
  have field := Buf.load_append (⟨frame, size⟩ : Buf sizeofApplsCtx)
  simp only at field
  rw [← whole, field]
  congr 1
  ext1
  rw [Buf.load_bytes_of_length size]

end MsaBroker
