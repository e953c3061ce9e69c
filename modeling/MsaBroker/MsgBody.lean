import MsaBroker.PipelineSteps

/-! What `msg_relay` sends of a body: how many bytes it asks for, and which
bytes those are. The length passed is the one reported for the frame, so it is
within the buffer exactly when the frame is. -/
namespace MsaBroker
open CMemory

variable {m : Message} {code : ZmsgResp}

/-- The body that belongs to a message under an outcome. -/
def outcomeBody (m : Message) (code : ZmsgResp) : Bytes := if code.beforeBody then [] else m.body

theorem firstCheck_none :
    firstCheck m = none ↔
      m.header.type = zmsgTraffic ∧ m.rest ≠ [] ∧ recvLength m.body = m.header.nBytes := by
  unfold firstCheck
  cases frames : m.rest <;> simp [Message.body, frames] <;> grind

theorem firstCheck_some (failed : firstCheck m = some code) :
    (code = .failInvalidType ∧ m.header.type ≠ zmsgTraffic) ∨
      (code = .failNullRecv ∧ m.header.type = zmsgTraffic ∧ m.rest = []) ∨
      (code = .failDiffRecv ∧ m.header.type = zmsgTraffic ∧ m.rest ≠ []) := by
  unfold firstCheck at failed
  cases frames : m.rest <;> grind

/-- The body was not read exactly when an earlier check failed. -/
theorem Message.Outcome.beforeBody_iff (outcome : m.Outcome code) :
    code.beforeBody = true ↔ m.header.type ≠ zmsgTraffic ∨ m.rest = [] := by
  rcases outcome with ⟨rfl, passed⟩ | failed | ⟨passed, rfl | rfl⟩
  · simp [ZmsgResp.beforeBody, (firstCheck_none.mp passed).1, (firstCheck_none.mp passed).2.1]
  · rcases firstCheck_some failed with ⟨rfl, type⟩ | ⟨rfl, type, rest⟩ | ⟨rfl, type, rest⟩ <;>
      simp_all [ZmsgResp.beforeBody]
  · simp [ZmsgResp.beforeBody, (firstCheck_none.mp passed).1, (firstCheck_none.mp passed).2.1]
  · simp [ZmsgResp.beforeBody, (firstCheck_none.mp passed).1, (firstCheck_none.mp passed).2.1]

/-- Whatever becomes of a message, `n_bytes` is the length its body frame was
received with, or zero where no body was read. -/
theorem Message.Outcome.nBytes (outcome : m.Outcome code) :
    (replyHead m code).nBytes = if code.beforeBody then 0 else recvLength m.body := by
  rcases outcome with ⟨rfl, passed⟩ | failed | ⟨passed, rfl | rfl⟩
  · exact (firstCheck_none.mp passed).2.2.symm
  · rcases firstCheck_some failed with ⟨rfl, -⟩ | ⟨rfl, -⟩ | ⟨rfl, -⟩ <;> rfl
  · exact (firstCheck_none.mp passed).2.2.symm
  · exact (firstCheck_none.mp passed).2.2.symm

theorem sizeArg_recvLength (frame : Bytes) : sizeArg (recvLength frame) = min frame.length 2147483647 := by
  rw [sizeArg, recvLength_toInt]
  omega

variable {host : Host} {r : CtxRef} {ctx : MsgCtx} {old : Buf maxMsgsizeByte}

/-- A body that fits the buffer is sent byte for byte. -/
theorem bodySent_outcome (outcome : m.Outcome code) (head : ctx.head = replyHead m code)
    (buffer : ctx.buffer = bufferAfter m code old) (fits : m.body.length ≤ maxMsgsizeByte) :
    bodySent host r ctx = outcomeBody m code := by
  rw [bodySent, head, outcome.nBytes, buffer]
  cases before : code.beforeBody with
  | true => simp [outcomeBody, before, sizeArg]
  | false =>
    have whole : sizeArg (recvLength m.body) = m.body.length := by
      have bound : m.body.length ≤ 1024 := fits
      rw [sizeArg_recvLength]
      omega
    have room : m.body.length ≤ (old.store m.body).bytes.length := by simpa using fits
    simp only [outcomeBody, bufferAfter, before, Bool.false_eq_true, ↓reduceIte, whole]
    rw [List.take_append_of_le_length room, Buf.store_take _ _ (Nat.le_refl _) fits, List.take_length]

end MsaBroker
