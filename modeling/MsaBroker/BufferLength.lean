import MsaBroker.MsgBody

/-! The length passed for a body against the size of the buffer it is sent
from. No path tests it: it stays within the buffer exactly for the messages
whose body frame does. -/
namespace MsaBroker
open CMemory

/-- The receive number of the message a callback was posted for. -/
def Callback.msg? : Callback → Option Nat
  | .pushRelay _ i | .routerErrReply _ i => some i
  | .pushCreate _ | .pushRemove _ => none

/-- A send of `nBytes` bytes, `data`, that stays inside the context's buffer and
inside what was received for this message. -/
def WithinOwnBody (m : Message) (nBytes : Int32) (data : Bytes) : Prop :=
  0 ≤ nBytes.toInt ∧ nBytes.toInt ≤ maxMsgsizeByte ∧ data.length = nBytes.toInt ∧ data <+: m.body

namespace Pipeline

variable {host : Host} {p : Pipeline} {acts : List Act} {trace : List Obs} {cb : Callback}
  {zsockCtx : ZsockCtx} {n : Int32} {data : Bytes} {rc : Int} {m : Message} {code : ZmsgResp}
  {ctx : MsgCtx} {old : Buf maxMsgsizeByte} {r : CtxRef}

/-- Under any outcome, on the context as that outcome left it. -/
theorem withinOwnBody_iff (outcome : m.Outcome code) (head : ctx.head = replyHead m code)
    (buffer : ctx.buffer = bufferAfter m code old) :
    WithinOwnBody m ctx.head.nBytes (bodySent host r ctx) ↔
      m.header.type ≠ zmsgTraffic ∨ m.body.length ≤ maxMsgsizeByte := by
  by_cases fits : m.body.length ≤ maxMsgsizeByte
  · simp only [fits, or_true, iff_true]
    rw [bodySent_outcome outcome head buffer fits, head, outcome.nBytes]
    cases before : code.beforeBody with
    | true => simp [WithinOwnBody, outcomeBody, before]
    | false =>
      have bound : m.body.length ≤ 1024 := fits
      have length : (recvLength m.body).toInt = m.body.length := by
        rw [recvLength_toInt]
        omega
      simp [WithinOwnBody, outcomeBody, before, length]
      omega
  · simp only [fits, or_false]
    cases before : code.beforeBody with
    | true =>
      have type : m.header.type ≠ zmsgTraffic := by
        refine (outcome.beforeBody_iff.mp before).resolve_right fun none => fits ?_
        simp [Message.body, none]
      have zero : ctx.head.nBytes = 0 := by rw [head, outcome.nBytes, before]; rfl
      simp [WithinOwnBody, type, zero, bodySent, sizeArg]
    | false =>
      have type : m.header.type = zmsgTraffic := by
        by_contra other
        simp [outcome.beforeBody_iff.mpr (.inl other)] at before
      have long : ¬ (recvLength m.body).toInt ≤ maxMsgsizeByte := by
        rwa [recvLength_le_iff (by decide)]
      have length : ctx.head.nBytes = recvLength m.body := by rw [head, outcome.nBytes, before]; rfl
      simp only [WithinOwnBody, length, type, ne_eq, not_true_eq_false, iff_false]
      exact fun within => long within.2.1

/-- **When a body is sent from inside its own buffer.** In every run, every send
of a body, whether relay or error reply, stays within the buffer and within the
message's own body frame if and only if the message was refused for its type or
its body frame fits the buffer. -/
theorem body_send_within_iff (run : (machine host).Runs acts p trace)
    (sent : .zmqSend cb zsockCtx (.body n data) rc ∈ trace) :
    ∃ i m, cb.msg? = some i ∧ p.seen[i]? = some m ∧
      (WithinOwnBody m n data ↔ m.header.type ≠ zmsgTraffic ∨ m.body.length ≤ maxMsgsizeByte) := by
  cases runs_attempted run _ sent rfl with
  | @relay r i m ctx old llist res received passed head buffer member =>
    obtain ⟨rfl, rfl, rfl⟩ := relayAttempt_body host member
    exact ⟨i, m, rfl, received, withinOwnBody_iff (.inl ⟨rfl, passed⟩) head buffer⟩
  | @reply r i m code ctx old zsockCtx' res received refuses counted head buffer member =>
    obtain ⟨rfl, rfl, rfl⟩ := relayAttempt_body host member
    exact ⟨i, m, rfl, received, withinOwnBody_iff (.inr refuses) head buffer⟩

/-- A relay attempt whose sends all succeed sends the body. -/
theorem relayTo_body (cb : Callback) (ctx : MsgCtx) (t : Target) :
    .zmqSend cb t.zsockCtx (.body ctx.head.nBytes (bodySent host r ctx)) 0 ∈
      (relayTo host cb r ctx t ⟨0, 0, 0⟩).2 := by
  obtain ⟨zsockCtx, uuid⟩ := t
  cases uuid <;> simp [relayTo, serviceRelay, routerRelay, msgRelay]

/-- A message for an instance that passes RECV's checks, alone in the broker, is
relayed with the length it declares. -/
theorem inst_relay_run (host : Host) (passed : firstCheck m = none) (inst : m.header.route = zmsgRouteInst) :
    ∃ p trace r zsockCtx data,
      (machine host).Runs [.arrive m, .recvPrepare, .recvProcess, .sendTake, .sendRun ⟨0, 0, 0⟩] p trace ∧
      p.seen = [m] ∧
      .zmqSend (.pushRelay r 0) zsockCtx (.body m.header.nBytes data) 0 ∈ trace := by
  obtain ⟨p₁, tr₁, run₁, held, queued, idle, empty, fresh⟩ : ∃ p₁ tr₁,
      (machine host).Runs [.arrive m, .recvPrepare] p₁ tr₁ ∧ p₁.recv = some (.slot 0) ∧
      p₁.pull.queue = [m] ∧ p₁.send = none ∧ p₁.evbase = [] ∧ p₁.seen = [] :=
    ⟨_, _, rfl, rfl, rfl, rfl, rfl, rfl⟩
  have inv₁ := runs_inv run₁
  -- RECV accepts it
  obtain ⟨p₂, obs₂, step₂⟩ : ∃ p₂ obs₂, (machine host).step p₁ .recvProcess = some (p₂, obs₂) := by
    simp [machine, step, held]
  have run₂ := run₁.snoc step₂
  obtain ⟨send₂, evbase₂, seen₂⟩ : p₂.send = none ∧ p₂.evbase = [.pushRelay (.slot 0) 0] ∧ p₂.seen = [m] := by
    have moves : Moves host tr₁ p₁ .recvProcess p₂ obs₂ := inv₁.step_moves step₂
    cases moves with
    | empty _ nothing => simp [queued] at nothing
    | refuse more held' next failed =>
      obtain ⟨rfl, -⟩ : m = _ ∧ [] = _ := by simpa [queued] using next
      simp [passed] at failed
    | accept more held' next passed' =>
      obtain ⟨rfl, -⟩ : m = _ ∧ [] = _ := by simpa [queued] using next
      obtain rfl : CtxRef.slot 0 = _ := by simpa [held] using held'
      simp [eventBaseOnce, taken, idle, empty, fresh]
  -- SEND takes the event and relays it
  have step₃ : (machine host).step p₂ .sendTake =
      some ({ p₂ with send := some (.pushRelay (.slot 0) 0), evbase := [] }, []) := by
    simp only [machine, step, send₂, evbase₂]
  have run₃ := run₂.snoc step₃
  obtain ⟨p₄, obs₄, step₄⟩ : ∃ p₄ obs₄, (machine host).step
      { p₂ with send := some (.pushRelay (.slot 0) 0), evbase := [] } (.sendRun ⟨0, 0, 0⟩) = some (p₄, obs₄) := by
    simp [machine, step]
  have run₄ := run₃.snoc step₄
  obtain ⟨elem, router, -⟩ := (runs_inv run₃).router
  have target (dest : Bytes) : relayTarget m.header dest p₂.zsockLlist = some ⟨elem.data, some dest⟩ := by
    simp only [relayTarget, inst, zmsgRouteInst_ne_zmsgRouteSvc, ↓reduceIte, router]
    rfl
  have same {i : Nat} {m' : Message} (received : p₂.seen[i]? = some m') (zero : i = 0) : m' = m := by
    subst zero
    simpa [seen₂] using received.symm
  have moves : Moves host _ _ (.sendRun ⟨0, 0, 0⟩) p₄ obs₄ := (runs_inv run₃).step_moves step₄
  have sends {ctx : MsgCtx} (dest : Bytes) (head : ctx.head = m.header) :
      .zmqSend (.pushRelay (.slot 0) 0) elem.data
        (.body m.header.nBytes (bodySent host (.slot 0) ctx)) 0 ∈
      relayAttempt host (.pushRelay (.slot 0) 0) (.slot 0) ctx
        (relayTarget m.header dest p₂.zsockLlist) ⟨0, 0, 0⟩ := by
    rw [target, ← head]
    exact relayTo_body _ ctx ⟨elem.data, some dest⟩
  cases moves with
  | relay running received passed' head buffer verdict =>
    cases running
    obtain rfl := same received rfl
    exact ⟨_, _, .slot 0, elem.data, _, run₄, seen₂, List.mem_append_right _
      (List.mem_cons_of_mem _ (List.mem_append_left _ (sends _ head)))⟩
  | relayFail running received passed' head buffer verdict failed =>
    cases running
    obtain rfl := same received rfl
    exact ⟨_, _, .slot 0, elem.data, _, run₄, seen₂, List.mem_append_right _
      (List.mem_cons_of_mem _ (List.mem_append_left _ (sends _ head)))⟩
  | reply running => cases running
  | create running => cases running
  | remove running => cases running

/-- What a client sends for a body of 4096 bytes. -/
def longMessage : Message where
  head := { Envelop.zero with type := zmsgTraffic, route := zmsgRouteInst, nBytes := 4096 }.bytes
  rest := [List.replicate 4096 97]

theorem longMessage_header : longMessage.header =
    { Envelop.zero with type := zmsgTraffic, route := zmsgRouteInst, nBytes := 4096 } :=
  Envelop.store_sent _ _

theorem longMessage_passed : firstCheck longMessage = none := by
  have length : recvLength longMessage.body = 4096 := by
    simp only [Message.body, longMessage, List.headD_cons, recvLength, List.length_replicate]
    rfl
  rw [firstCheck_none, longMessage_header]
  exact ⟨rfl, List.cons_ne_nil _ _, length⟩

/-- Such a body is relayed with a length of four times the buffer. -/
theorem body_send_beyond_buffer :
    ¬ ∀ (host : Host) (acts : List Act) (p : Pipeline) (trace : List Obs),
      (machine host).Runs acts p trace → ∀ cb zsockCtx n data rc,
        .zmqSend cb zsockCtx (.body n data) rc ∈ trace →
          ∃ i m, cb.msg? = some i ∧ p.seen[i]? = some m ∧ WithinOwnBody m n data := by
  intro within
  obtain ⟨p, trace, r, zsockCtx, data, run, -, sent⟩ :=
    inst_relay_run .bare longMessage_passed (by rw [longMessage_header])
  obtain ⟨i, m, -, -, -, bound, -⟩ := within _ _ _ _ run _ _ _ _ _ sent
  rw [longMessage_header] at bound
  exact absurd bound (by decide)

theorem body_send_within_iff_long : ∃ p trace cb zsockCtx n data rc,
    (machine .bare).Runs [.arrive longMessage, .recvPrepare, .recvProcess, .sendTake, .sendRun ⟨0, 0, 0⟩]
      p trace ∧
    .zmqSend cb zsockCtx (.body n data) rc ∈ trace ∧
    ∃ i m, cb.msg? = some i ∧ p.seen[i]? = some m ∧
      (WithinOwnBody m n data ↔ m.header.type ≠ zmsgTraffic ∨ m.body.length ≤ maxMsgsizeByte) := by
  obtain ⟨p, trace, r, zsockCtx, data, run, -, sent⟩ :=
    inst_relay_run .bare longMessage_passed (by rw [longMessage_header])
  exact ⟨p, trace, _, _, _, _, _, run, sent, body_send_within_iff run sent⟩

end Pipeline

end MsaBroker
