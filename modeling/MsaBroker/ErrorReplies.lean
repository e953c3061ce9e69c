import Mathlib
import MsaBroker.PipelineSteps

/-! What an error reply says about the message it answers. The header is the
record of what was received and the reply being built; the length check
overwrites the declared length before it prints it, and every other path prints
what was received. -/
namespace MsaBroker
open CMemory

/-! ## Printed numbers -/

/-- A text of ASCII characters, none of them the terminator. -/
def PlainText (s : String) : Prop := ∀ c ∈ s.toList, 0 < c.toNat ∧ c.toNat < 128

theorem zero_notMem_ascii {s : String} (plain : PlainText s) : 0 ∉ ascii s := by
  intro member
  obtain ⟨c, there, zero⟩ := List.mem_map.mp member
  obtain ⟨positive, small⟩ := plain c there
  have value := congrArg UInt8.toNat zero
  rw [UInt8.toNat_ofNat', UInt8.toNat_zero] at value
  omega

/-- Texts with the same bytes are the same. -/
theorem ascii_inj {s t : String} (plain₁ : PlainText s) (plain₂ : PlainText t) (same : ascii s = ascii t) : s = t := by
  have decode {u : String} (plain : PlainText u) : (ascii u).map (fun b => Char.ofNat b.toNat) = u.toList := by
    rw [ascii, List.map_map]
    refine (List.map_congr_left fun c there => ?_).trans (List.map_id _)
    have small : c.toNat % 256 = c.toNat := Nat.mod_eq_of_lt (by have := (plain c there).2; omega)
    simp [small]
  apply String.toList_inj.mp
  rw [← decode plain₁, ← decode plain₂, same]

/-- Digits, and a sign in front of them. -/
theorem plainText_int (z : Int) : PlainText (toString z) := by
  have digits (n : Nat) : PlainText n.repr := by
    intro c there
    rw [Nat.toList_repr] at there
    have digit := Char.isDigit_iff_toNat.mp (Nat.isDigit_of_mem_toDigits (by decide) (by decide) there)
    have low : 48 ≤ c.toNat := digit.1
    have high : c.toNat ≤ 57 := digit.2
    omega
  cases z with
  | ofNat n => exact digits n
  | negSucc n =>
    intro c there
    have text : (toString (Int.negSucc n)).toList = '-' :: (n + 1).repr.toList := String.toList_append
    rw [text] at there
    rcases List.mem_cons.mp there with rfl | digit
    · decide
    · exact digits (n + 1) c digit

/-- No `int` prints as more than a sign and ten digits. -/
theorem showInt_length_le (n : Int32) : (showInt n.toInt).length ≤ 11 := by
  have low := n.le_toInt
  have high := n.toInt_lt
  have digits {k : Nat} (small : k < 10 ^ 10) : k.repr.length ≤ 10 := (Nat.length_repr_le_iff (by decide)).mpr small
  rw [showInt, ascii, List.length_map, String.length_toList]
  cases value : n.toInt with
  | ofNat k =>
    have printed : (toString (Int.ofNat k)).length = k.repr.length := rfl
    rw [Int.ofNat_eq_natCast] at value
    have short := digits (k := k) (by omega)
    omega
  | negSucc k =>
    have printed : (toString (Int.negSucc k)).length = 1 + (k + 1).repr.length := String.length_append ..
    have short := digits (k := k + 1) (by omega)
    omega

theorem showInt_inj {a b : Int} : showInt a = showInt b ↔ a = b := by
  constructor
  · intro same
    exact Int.repr_injective (ascii_inj (plainText_int a) (plainText_int b) same)
  · exact congrArg showInt

/-! ## What a reply should say -/

/-- The text of the path the message was rejected on, filled with the message as
it was received. -/
def reasonText (m : Message) : ZmsgResp → Bytes
  | .ok => []
  | .failInvalidType => invalidTypeText m.header.type
  | .failNullRecv => nullRecvText
  | .failDiffRecv => diffRecvText m.header.nBytes (recvLength m.body)
  | .invldRouteType => unknownRouteText m.header.route
  | .failToRoute => failToRouteText m.header.route (cstr m.header.dest.bytes)

/-- The identity and the header `router_relay` is given report message `m` and
why it was rejected. -/
structure Reports (m : Message) (code : ZmsgResp) (uuid : Bytes) (head : Envelop) : Prop where
  addressed : uuid = cstr m.header.from_.bytes
  type : head.type = m.header.type
  route : head.route = m.header.route
  stamp : head.stamp = m.header.stamp
  from_ : head.from_ = m.header.from_
  dest : head.dest = m.header.dest
  terminated : head.reasonString.Terminated
  reason : cstr head.reasonString.bytes = (reasonText m code).take (zmsgCommStrlen - 1)

theorem zero_notMem_showInt (z : Int) : 0 ∉ showInt z := zero_notMem_ascii (plainText_int z)

theorem zero_notMem_diffRecvText (send recv : Int32) : 0 ∉ diffRecvText send recv := by
  simp only [diffRecvText, List.mem_append, zero_notMem_showInt, or_false]
  decide

/-- No text ends before its end. -/
theorem zero_notMem_reasonText (m : Message) (code : ZmsgResp) : 0 ∉ reasonText m code := by
  cases code with
  | ok => exact List.not_mem_nil
  | failInvalidType =>
    simp only [reasonText, invalidTypeText, List.mem_append, zero_notMem_showInt, or_false]
    decide
  | failNullRecv =>
    rw [reasonText]
    decide
  | failDiffRecv => exact zero_notMem_diffRecvText _ _
  | invldRouteType =>
    simp only [reasonText, unknownRouteText, List.mem_append, zero_notMem_showInt, or_false]
    decide
  | failToRoute =>
    simp only [reasonText, failToRouteText, List.mem_append, zero_notMem_showInt, cstr_no_zero, or_false]
    decide

/-! ## What a reply says -/

variable {m : Message} {code : ZmsgResp}

theorem firstCheck_diff_iff : firstCheck m = some .failDiffRecv ↔
    m.header.type = zmsgTraffic ∧ m.rest ≠ [] ∧ recvLength m.body ≠ m.header.nBytes := by
  unfold firstCheck
  split
  · rename_i other
    simp [other]
  · rename_i typed
    rw [not_not] at typed
    split
    · rename_i alone
      simp [alone]
    · rename_i body rest frames
      simp [typed, frames, Message.body]

/-- Every path but one prints what was received. -/
theorem replyHead_reasonString (refuses : m.Refuses code) (other : code ≠ .failDiffRecv)
    (terminated : m.header.dest.Terminated) :
    (replyHead m code).reasonString = m.header.reasonString.snprintf (reasonText m code) := by
  cases code with
  | ok =>
    rcases refuses with failed | ⟨-, same | same⟩
    · exact absurd failed (firstCheck_ne_ok m)
    · cases same
    · cases same
  | failDiffRecv => exact absurd rfl other
  | failToRoute =>
    have name := Envelop.destStr_of_terminated (h := { m.header with respCode := ZmsgResp.failToRoute.code })
      terminated []
    rw [replyHead, Envelop.reply, name]
    rfl
  | _ => rfl

theorem reports_of_other (refuses : m.Refuses code) (other : code ≠ .failDiffRecv)
    (sender : m.header.from_.Terminated) (dest : m.header.dest.Terminated) (after : Bytes) :
    Reports m code ((replyHead m code).fromStr after) (replyHead m code) := by
  have from_ := (replyHead_addressed refuses).2
  have reason := replyHead_reasonString refuses other dest
  constructor
  · rw [Envelop.fromStr_of_terminated (from_ ▸ sender), from_]
  · cases code <;> rfl
  · cases code <;> rfl
  · cases code <;> rfl
  · exact from_
  · cases code <;> rfl
  · rw [reason]
    exact Buf.snprintf_terminated _ _ zmsgCommStrlen_pos
  · rw [reason]
    have text := Buf.cstr_snprintf m.header.reasonString [] zmsgCommStrlen_pos (zero_notMem_reasonText m code)
    rwa [List.append_nil] at text

theorem diffRecvText_whole (send recv : Int32) :
    (diffRecvText send recv).take (zmsgCommStrlen - 1) = diffRecvText send recv := by
  have sent := showInt_length_le send
  have received := showInt_length_le recv
  apply List.take_of_length_le
  simp only [diffRecvText, List.length_append]
  have texts : (ascii "send=(").length + (ascii ")/recv=(").length + (ascii ") bytes mismatch").length = 30 := by
    decide
  simp only [zmsgCommStrlen]
  omega

theorem diffRecvText_inj {send send' recv : Int32} (same : diffRecvText send recv = diffRecvText send' recv) :
    send = send' := by
  simp only [diffRecvText, List.append_left_inj, List.append_right_inj, showInt_inj] at same
  exact Int32.toInt_inj.mp same

/-- The length check prints the received length twice. -/
theorem replyHead_diff (m : Message) :
    cstr (replyHead m .failDiffRecv).reasonString.bytes =
      diffRecvText (recvLength m.body) (recvLength m.body) := by
  have printed := Buf.cstr_snprintf m.header.reasonString [] zmsgCommStrlen_pos
    (zero_notMem_diffRecvText (recvLength m.body) (recvLength m.body))
  rw [List.append_nil] at printed
  exact printed.trans (diffRecvText_whole _ _)

theorem not_reports_diff (failed : firstCheck m = some .failDiffRecv) (uuid : Bytes) :
    ¬ Reports m .failDiffRecv uuid (replyHead m .failDiffRecv) := by
  intro reports
  obtain ⟨-, -, differ⟩ := firstCheck_diff_iff.mp failed
  have printed := (replyHead_diff m).symm.trans reports.reason
  exact differ (diffRecvText_inj (printed.trans (diffRecvText_whole _ _)))

/-- The message fails RECV's length check: a TRAFFIC message with a body whose
length is not the one its header declares. -/
def Message.LengthDiffers (m : Message) : Prop :=
  m.header.type = zmsgTraffic ∧ m.rest ≠ [] ∧ recvLength m.body ≠ m.header.nBytes

theorem reports_iff (refuses : m.Refuses code) (sender : m.header.from_.Terminated)
    (dest : m.header.dest.Terminated) (after : Bytes) :
    Reports m code ((replyHead m code).fromStr after) (replyHead m code) ↔ ¬ m.LengthDiffers := by
  by_cases diff : code = .failDiffRecv
  · subst diff
    have failed : firstCheck m = some .failDiffRecv := by
      rcases refuses with failed | ⟨-, same | same⟩
      · exact failed
      · cases same
      · cases same
    exact iff_of_false (not_reports_diff failed _) fun agrees => agrees (firstCheck_diff_iff.mp failed)
  · refine iff_of_true (reports_of_other refuses diff sender dest after) fun differs => ?_
    have failed := firstCheck_diff_iff.mpr differs
    rcases refuses with other | ⟨passed, -⟩
    · rw [failed] at other
      cases other
      exact diff rfl
    · rw [failed] at passed
      cases passed

namespace Pipeline

variable {host : Host} {p : Pipeline} {acts : List Act} {trace : List Obs} {r : CtxRef} {i : Nat}

/-- The identity `evsock_router_err_reply` hands to `router_relay`. -/
def replyTo (host : Host) (p : Pipeline) (r : CtxRef) : Bytes := (p.pool.read r).head.fromStr (host.afterHead r)

/-- **Error replies report what was received, and the one that does not.** In
every run, when SEND comes to the reply for a message, it hands `router_relay`
the context of a message that was rejected, and identity and header report that
message as it was received if and only if it was not rejected for its length. -/
theorem reply_reports_iff (run : (machine host).Runs acts p trace) (running : p.send = some (.routerErrReply r i)) :
    ∃ m code router, p.seen[i]? = some m ∧ m.Refuses code ∧ .errMsgReply r i code ∈ trace ∧
      (∀ res, (evsockRouterErrReply host r i res p).2 =
        (routerRelay host (.routerErrReply r i) r (p.pool.read r) router (replyTo host p r) res).2 ++
          [.freeMsgCtx r]) ∧
      (m.header.from_.Terminated → m.header.dest.Terminated →
        (Reports m code (replyTo host p r) (p.pool.read r).head ↔ ¬ m.LengthDiffers)) := by
  obtain ⟨elem, router, -⟩ := (runs_inv run).router
  obtain ⟨m, code, received, refuses, counted, head⟩ := runs_reply run running
  refine ⟨m, code, elem.data, received, refuses, counted, fun res => ?_, fun sender dest => ?_⟩
  · rw [evsockRouterErrReply, router]
    rfl
  · rw [replyTo, head]
    exact reports_iff refuses sender dest _

/-- The header of a message of this type from `c` to `d` that declares five
bytes. -/
def declaresFive (type : UInt32) : Envelop :=
  { Envelop.zero with
    type, from_ := (Buf.zero _).snprintf (ascii "c"), dest := (Buf.zero _).snprintf (ascii "d"), nBytes := 5 }

/-- It comes with one. -/
def sendsOne (type : UInt32) : Message := ⟨(declaresFive type).bytes, [[7]]⟩

theorem sendsOne_header (type : UInt32) : (sendsOne type).header = declaresFive type := Envelop.store_sent _ _

theorem sendsOne_terminated (type : UInt32) :
    (sendsOne type).header.from_.Terminated ∧ (sendsOne type).header.dest.Terminated := by
  rw [sendsOne_header]
  exact ⟨Buf.snprintf_terminated _ _ zmsgCommStrlen_pos, Buf.snprintf_terminated _ _ zmsgCommStrlen_pos⟩

set_option maxRecDepth 20000 in
/-- RECV takes the message, rejects it, and SEND comes to its reply. -/
theorem sendsOne_answered (type : UInt32) (known : type = zmsgRegi ∨ type = zmsgTraffic) : ∃ p trace,
    (machine .bare).Runs [.arrive (sendsOne type), .recvPrepare, .recvProcess, .sendTake] p trace ∧
      p.send = some (.routerErrReply (.slot 0) 0) ∧ p.seen[0]? = some (sendsOne type) := by
  rcases known with rfl | rfl
  · exact ⟨_, _, rfl, rfl, rfl⟩
  · exact ⟨_, _, rfl, rfl, rfl⟩

/-- A registration on the PULL socket is answered with its own type. -/
theorem reply_reports_iff_regi : ∃ p trace,
    (machine .bare).Runs [.arrive (sendsOne zmsgRegi), .recvPrepare, .recvProcess, .sendTake] p trace ∧
      ∃ code, Reports (sendsOne zmsgRegi) code (replyTo .bare p (.slot 0)) (p.pool.read (.slot 0)).head := by
  obtain ⟨p, trace, run, running, seen⟩ := sendsOne_answered zmsgRegi (.inl rfl)
  obtain ⟨m, code, router, received, -, -, -, exact⟩ := reply_reports_iff run running
  obtain rfl : sendsOne zmsgRegi = m := Option.some.inj (seen.symm.trans received)
  refine ⟨p, trace, run, code, (exact (sendsOne_terminated _).1 (sendsOne_terminated _).2).mpr ?_⟩
  rintro ⟨typed, -⟩
  rw [sendsOne_header] at typed
  cases typed

/-- One byte where five were declared: the reply says that one was sent. -/
theorem reply_misreports : ∃ p trace,
    (machine .bare).Runs [.arrive (sendsOne zmsgTraffic), .recvPrepare, .recvProcess, .sendTake] p trace ∧
      p.send = some (.routerErrReply (.slot 0) 0) ∧ .errMsgReply (.slot 0) 0 .failDiffRecv ∈ trace ∧
      cstr (p.pool.read (.slot 0)).head.reasonString.bytes = ascii "send=(1)/recv=(1) bytes mismatch" ∧
      ¬ Reports (sendsOne zmsgTraffic) .failDiffRecv (replyTo .bare p (.slot 0)) (p.pool.read (.slot 0)).head := by
  obtain ⟨p, trace, run, running, seen⟩ := sendsOne_answered zmsgTraffic (.inr rfl)
  have differs : (sendsOne zmsgTraffic).LengthDiffers := by
    refine ⟨congrArg Envelop.type (sendsOne_header _), List.cons_ne_nil _ _, ?_⟩
    rw [sendsOne_header]
    decide
  have failed := firstCheck_diff_iff.mpr differs
  obtain ⟨m, code, received, refuses, counted, head⟩ := runs_reply run running
  obtain rfl : sendsOne zmsgTraffic = m := Option.some.inj (seen.symm.trans received)
  obtain rfl : code = .failDiffRecv := by
    rcases refuses with other | ⟨passed, -⟩
    · exact Option.some.inj (other.symm.trans failed)
    · cases passed.symm.trans failed
  refine ⟨p, trace, run, running, counted, ?_, ?_⟩
  · rw [head, replyHead_diff]
    decide
  · rw [head]
    exact not_reports_diff failed _

end Pipeline

end MsaBroker
