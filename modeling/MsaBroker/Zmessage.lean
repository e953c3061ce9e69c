import MsaBroker.Lib.CMemory

/-! `zmessage.h`: what the clients and the broker send each other. A header is
528 bytes on the wire and in memory, and the two views are kept equivalent
here, so that a copy of raw bytes and an assignment to a field can be reasoned
about together. -/
namespace MsaBroker
open CMemory

/-! ## `zmsg_type_t`, `zmsg_route_t`, `zmsg_resp_t` -/

def zmsgRegi : UInt32 := 0
def zmsgTraffic : UInt32 := 1

def zmsgRouteSvc : UInt32 := 0
def zmsgRouteInst : UInt32 := 1

theorem zmsgRouteInst_ne_zmsgRouteSvc : zmsgRouteInst ≠ zmsgRouteSvc := by decide

inductive ZmsgResp where
  | ok
  | failInvalidType
  | failNullRecv
  | failDiffRecv
  | invldRouteType
  | failToRoute
  deriving DecidableEq, Repr

/-- The enumerator's value, as it travels in `resp_code`. -/
def ZmsgResp.code : ZmsgResp → UInt32
  | .ok => 0
  | .failInvalidType => 1
  | .failNullRecv => 2
  | .failDiffRecv => 3
  | .invldRouteType => 4
  | .failToRoute => 5

/-- Every value below `ZMSG_RESP_MAX`, the indices of the `reason` counters. -/
def ZmsgResp.all : List ZmsgResp :=
  [.ok, .failInvalidType, .failNullRecv, .failDiffRecv, .invldRouteType, .failToRoute]

/-! ## `envelop_t` -/

abbrev zmsgCommStrlen : Nat := 128

theorem zmsgCommStrlen_pos : 0 < zmsgCommStrlen := Nat.succ_pos 127

/-- `sizeof(envelop_t)`. -/
abbrev sizeofEnvelop : Nat := 528

structure Envelop where
  type : UInt32
  route : UInt32
  stamp : Buf zmsgCommStrlen
  from_ : Buf zmsgCommStrlen
  dest : Buf zmsgCommStrlen
  nBytes : Int32
  respCode : UInt32
  reasonString : Buf zmsgCommStrlen
  deriving DecidableEq

namespace Envelop

/-- Memory from the `dest` field to the end of the header. -/
def fromDest (h : Envelop) : Bytes :=
  h.dest.bytes ++ (i32Bytes h.nBytes ++ (u32Bytes h.respCode ++ h.reasonString.bytes))

/-- Memory from the `from` field to the end of the header. -/
def fromFrom (h : Envelop) : Bytes := h.from_.bytes ++ h.fromDest

/-- The header in memory and on the wire. -/
def bytes (h : Envelop) : Bytes :=
  u32Bytes h.type ++ (u32Bytes h.route ++ (h.stamp.bytes ++ h.fromFrom))

@[simp] theorem fromDest_length (h : Envelop) : h.fromDest.length = 264 := by
  simp [fromDest, zmsgCommStrlen]

@[simp] theorem fromFrom_length (h : Envelop) : h.fromFrom.length = 392 := by
  simp [fromFrom, zmsgCommStrlen]

@[simp] theorem bytes_length (h : Envelop) : h.bytes.length = sizeofEnvelop := by
  simp [bytes, zmsgCommStrlen, sizeofEnvelop]

/-- The header as a block of memory. -/
def mem (h : Envelop) : Buf sizeofEnvelop := ⟨h.bytes, h.bytes_length⟩

/-- A block of memory viewed with the layout of `envelop_t`. -/
def ofMem (m : Buf sizeofEnvelop) : Envelop where
  type := loadU32 m.bytes
  route := loadU32 (m.bytes.drop 4)
  stamp := Buf.load _ (m.bytes.drop 8)
  from_ := Buf.load _ (m.bytes.drop 136)
  dest := Buf.load _ (m.bytes.drop 264)
  nBytes := loadI32 (m.bytes.drop 392)
  respCode := loadU32 (m.bytes.drop 396)
  reasonString := Buf.load _ (m.bytes.drop 400)

/-- Fields written are the fields read. -/
@[simp] theorem ofMem_mem (h : Envelop) : ofMem h.mem = h := by
  simp [ofMem, mem, bytes, fromFrom, fromDest, List.drop_append, zmsgCommStrlen]

/-- Memory viewed as a header and written back is that memory: a received
frame is relayed byte for byte. -/
@[simp] theorem mem_ofMem (m : Buf sizeofEnvelop) : (ofMem m).mem = m := by
  obtain ⟨l, size⟩ := m
  have size : l.length = 528 := size
  have field (k w : Nat) : (l.drop k).take w ++ l.drop (k + w) = l.drop k := by
    rw [← List.drop_drop, List.take_append_drop]
  have buf (k : Nat) (within : k + 128 ≤ 528) : (Buf.load zmsgCommStrlen (l.drop k)).bytes = (l.drop k).take 128 := by
    have short : 128 - (528 - k) = 0 := by omega
    simp [Buf.load, zmsgCommStrlen, size, short]
  ext1
  simp only [mem, bytes, fromFrom, fromDest, ofMem]
  rw [u32Bytes_loadU32 (by omega), u32Bytes_loadU32 (by simp; omega), u32Bytes_loadU32 (by simp; omega),
    i32Bytes_loadI32 (by simp; omega), buf 8 (by omega), buf 136 (by omega), buf 264 (by omega),
    buf 400 (by omega)]
  have last : (l.drop 400).take 128 = l.drop 400 := List.take_of_length_le (by simp [size])
  rw [last, field 396 4, field 392 4, field 264 128, field 136 128, field 8 128, field 4 4,
    List.take_append_drop]

/-- `memset(head, 0x00, sizeof(envelop_t))`. -/
def zero : Envelop := ofMem (Buf.zero _)

/-- `zmq_recv(..., head, sizeof(envelop_t), ...)`: the frame cut to the header's
size and laid over what the header held. -/
def store (h : Envelop) (frame : Bytes) : Envelop := ofMem (h.mem.store frame)

/-- Received over a cleared header, a frame is cut or padded with zeros. -/
theorem zero_store_bytes (frame : Bytes) :
    (zero.store frame).bytes = (Buf.load sizeofEnvelop frame).bytes := by
  have whole : (zero.store frame).mem = (Buf.zero sizeofEnvelop).store frame := by
    simp [store, zero]
  have same := congrArg Buf.bytes whole
  simpa [mem, Buf.store_bytes, Buf.load] using same

/-- A frame of exactly a header's size is the header that was sent, whatever was
there before. -/
theorem store_sent (old h : Envelop) : old.store h.bytes = h := by
  have whole : old.mem.store h.bytes = h.mem := by
    ext1
    rw [Buf.store_bytes, Buf.bytes_drop _ (by simp), List.append_nil,
      List.take_of_length_le (by simp)]
    rfl
  rw [store, whole, ofMem_mem]

/-- A frame of no bytes leaves the header as it was. -/
theorem store_nil (h : Envelop) : h.store [] = h := by
  have whole : h.mem.store [] = h.mem := by
    ext1
    simp [Buf.store_bytes]
  rw [store, whole, ofMem_mem]

/-! ### The strings a header carries

`dest` and `from` are handed to `strlen`, `strcmp` and `%s` as bare pointers,
so a field without a terminator runs on into the fields after it and then into
`after`, the memory behind the header. -/

/-- The string at `head->dest`. -/
def destStr (h : Envelop) (after : Bytes) : Bytes := cstr (h.fromDest ++ after)

/-- The string at `head->from`. -/
def fromStr (h : Envelop) (after : Bytes) : Bytes := cstr (h.fromFrom ++ after)

/-- A zero byte anywhere from `dest` on keeps the string inside the header. -/
theorem destStr_inside {h : Envelop} (zero : 0 ∈ h.fromDest) (after : Bytes) :
    h.destStr after = cstr h.fromDest := cstr_append_of_mem after zero

theorem fromStr_inside {h : Envelop} (zero : 0 ∈ h.fromDest) (after : Bytes) :
    h.fromStr after = cstr h.fromFrom :=
  cstr_append_of_mem after (List.mem_append_right _ zero)

/-- A plausible length is a terminator for whatever precedes it. -/
theorem zero_mem_fromDest_of_nBytes {h : Envelop} (nonneg : 0 ≤ h.nBytes.toInt)
    (small : h.nBytes.toInt < 2 ^ 24) : 0 ∈ h.fromDest := by
  simp only [fromDest, List.mem_append]
  exact .inr (.inl (zero_mem_i32Bytes nonneg small))

/-- So is every response code the broker writes. -/
theorem zero_mem_fromDest_of_respCode {h : Envelop} (small : h.respCode.toNat < 2 ^ 24) :
    0 ∈ h.fromDest := by
  simp only [fromDest, List.mem_append]
  exact .inr (.inr (.inl (zero_mem_u32Bytes small)))

theorem destStr_of_terminated {h : Envelop} (terminated : h.dest.Terminated) (after : Bytes) :
    h.destStr after = cstr h.dest.bytes := by
  rw [destStr, fromDest, List.append_assoc]
  exact cstr_append_of_mem _ terminated

theorem fromStr_of_terminated {h : Envelop} (terminated : h.from_.Terminated) (after : Bytes) :
    h.fromStr after = cstr h.from_.bytes := by
  rw [fromStr, fromFrom, List.append_assoc]
  exact cstr_append_of_mem _ terminated

end Envelop

theorem ZmsgResp.code_small (resp : ZmsgResp) : resp.code.toNat < 2 ^ 24 := by
  cases resp <;> decide

/-- The room for a body in `zmessage_t`. -/
abbrev maxZmqmsgSize : Nat := 65535

/-! ## `appls_ctx_t` -/

/-- `sizeof(appls_ctx_t)`. -/
abbrev sizeofApplsCtx : Nat := 424

structure ApplsCtx where
  uuid : Buf zmsgCommStrlen
  svcname : Buf zmsgCommStrlen
  appname : Buf zmsgCommStrlen
  sndCnt : UInt64
  rcvCnt : UInt64
  sndBytes : UInt64
  rcvBytes : UInt64
  timestamp : Int64
  deriving DecidableEq

namespace ApplsCtx

/-- Memory from the `svcname` field to the end of the record. -/
def fromSvcname (a : ApplsCtx) : Bytes :=
  a.svcname.bytes ++ (a.appname.bytes ++ (u64Bytes a.sndCnt ++ (u64Bytes a.rcvCnt ++
    (u64Bytes a.sndBytes ++ (u64Bytes a.rcvBytes ++ i64Bytes a.timestamp)))))

/-- The record in memory and on the wire. -/
def bytes (a : ApplsCtx) : Bytes := a.uuid.bytes ++ a.fromSvcname

@[simp] theorem bytes_length (a : ApplsCtx) : a.bytes.length = sizeofApplsCtx := by
  simp [bytes, fromSvcname, zmsgCommStrlen, sizeofApplsCtx]

/-- A block of memory viewed with the layout of `appls_ctx_t`. -/
def ofMem (m : Buf sizeofApplsCtx) : ApplsCtx where
  uuid := Buf.load _ m.bytes
  svcname := Buf.load _ (m.bytes.drop 128)
  appname := Buf.load _ (m.bytes.drop 256)
  sndCnt := loadU64 (m.bytes.drop 384)
  rcvCnt := loadU64 (m.bytes.drop 392)
  sndBytes := loadU64 (m.bytes.drop 400)
  rcvBytes := loadU64 (m.bytes.drop 408)
  timestamp := loadI64 (m.bytes.drop 416)

/-- A record sent is the record received. -/
@[simp] theorem ofMem_load_bytes (a : ApplsCtx) : ofMem (Buf.load _ a.bytes) = a := by
  rw [ofMem, Buf.load_bytes_of_length a.bytes_length]
  simp [bytes, fromSvcname, List.drop_append, zmsgCommStrlen]

/-- The string at `appls_ctx->svcname`. -/
def svcnameStr (a : ApplsCtx) : Bytes := cstr a.fromSvcname

/-- The string at `appls_ctx->uuid`. -/
def uuidStr (a : ApplsCtx) : Bytes := cstr (a.uuid.bytes ++ a.fromSvcname)

theorem svcnameStr_of_terminated {a : ApplsCtx} (terminated : a.svcname.Terminated) :
    a.svcnameStr = cstr a.svcname.bytes := cstr_append_of_mem _ terminated

theorem uuidStr_of_terminated {a : ApplsCtx} (terminated : a.uuid.Terminated) :
    a.uuidStr = cstr a.uuid.bytes := cstr_append_of_mem _ terminated

/-- `appls_ctx->timestamp = now`. -/
def setTimestamp (a : ApplsCtx) (now : Int64) : ApplsCtx := { a with timestamp := now }

/-- The clock reading stored in a record is not part of a terminated name. -/
theorem setTimestamp_svcnameStr {a : ApplsCtx} (now : Int64) (terminated : a.svcname.Terminated) :
    (a.setTimestamp now).svcnameStr = a.svcnameStr := by
  rw [svcnameStr_of_terminated terminated]
  exact svcnameStr_of_terminated (a := a.setTimestamp now) terminated

theorem setTimestamp_uuidStr {a : ApplsCtx} (now : Int64) (terminated : a.uuid.Terminated) :
    (a.setTimestamp now).uuidStr = a.uuidStr := by
  rw [uuidStr_of_terminated terminated]
  exact uuidStr_of_terminated (a := a.setTimestamp now) terminated

/-- `memset(regi, 0x00, sizeof(appls_ctx_t))`. -/
def zero : ApplsCtx := ⟨Buf.zero _, Buf.zero _, Buf.zero _, 0, 0, 0, 0, 0⟩

end ApplsCtx

end MsaBroker
