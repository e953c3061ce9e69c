import MsaBroker.Ledger

/-! The statistics: every message received ends as exactly one success or one
counted refusal, the counters add up at every moment, and the reason counted is
the first check the message failed. -/
namespace MsaBroker
open CMemory

/-- Refused for the first check it fails: one of RECV's, or, past these, the
route type, the destination or a send, as SEND found them. -/
def FirstFailure (host : Host) (trace : List Obs) (r : CtxRef) (i : Nat) (m : Message) (code : ZmsgResp) :
    Prop :=
  firstCheck m = some code ∨
    firstCheck m = none ∧ code ≠ .ok ∧ ∃ llist res, .callback (.pushRelay r i) llist res ∈ trace ∧
      relayVerdict m.header (Pipeline.destOf host r m) llist res = code

/-- Passed every check, and every send of its relay succeeded. -/
def Delivered (host : Host) (trace : List Obs) (r : CtxRef) (i : Nat) (m : Message) : Prop :=
  firstCheck m = none ∧ ∃ llist res, .callback (.pushRelay r i) llist res ∈ trace ∧
    relayVerdict m.header (Pipeline.destOf host r m) llist res = .ok

namespace Pipeline

variable {host : Host} {p p' : Pipeline} {a : Act} {obs trace : List Obs} {r : CtxRef} {i : Nat}
  {m : Message} {code : ZmsgResp} {acts : List Act}

/-- What the outcome an observation reports rests on. -/
def Justified (host : Host) (trace : List Obs) (seen : List Message) : Obs → Prop
  | .relayed r i => ∃ m, seen[i]? = some m ∧ Delivered host trace r i m
  | .errMsgReply r i code => ∃ m, seen[i]? = some m ∧ FirstFailure host trace r i m code
  | _ => True

private theorem justified_of_attempt {seen : List Message} {o : Obs} (attempt : o.isAttempt = true) :
    Justified host trace seen o := by
  cases o <;> trivial

theorem runs_justified (run : (machine host).Runs acts p trace) :
    ∀ o ∈ trace, Justified host trace p.seen o := by
  refine runs_obs (Justified host) ?_ ?_ run
  · intro tr obs seen later o justified
    cases o with
    | relayed r i =>
      obtain ⟨m, received, passed, llist, res, called, verdict⟩ := justified
      exact ⟨m, getElem?_later received, passed, llist, res, List.mem_append_left _ called, verdict⟩
    | errMsgReply r i code =>
      obtain ⟨m, received, failed | ⟨passed, failed, llist, res, called, verdict⟩⟩ := justified
      · exact ⟨m, getElem?_later received, .inl failed⟩
      · exact ⟨m, getElem?_later received,
          .inr ⟨passed, failed, llist, res, List.mem_append_left _ called, verdict⟩⟩
    | _ => trivial
  · intro tr p a p' obs inv moves o member
    cases moves with
    | @refuse r m code queue more held next failed =>
      rcases List.mem_pair.mp member with rfl | rfl
      · trivial
      · exact ⟨m, by simp [Pipeline.refused, taken], .inl failed⟩
    | @relay r i m old res running received passed head buffer verdict =>
      rcases mem_callback.mp member with rfl | sent | last
      · trivial
      · exact justified_of_attempt (relayAttempt_isAttempt host sent)
      · rcases List.mem_pair.mp last with rfl | rfl
        · exact ⟨m, received, passed, _, res, List.mem_append_right _ (List.mem_cons_self ..), verdict⟩
        · trivial
    | @relayFail r i m old res code running received passed head buffer verdict failed =>
      rcases mem_callback.mp member with rfl | sent | last
      · trivial
      · exact justified_of_attempt (relayAttempt_isAttempt host sent)
      · obtain rfl := List.mem_singleton.mp last
        exact ⟨m, received,
          .inr ⟨passed, failed, _, res, List.mem_append_right _ (List.mem_cons_self ..), verdict⟩⟩
    | reply =>
      rcases mem_callback.mp member with rfl | sent | last
      · trivial
      · exact justified_of_attempt (relayAttempt_isAttempt host sent)
      · obtain rfl := List.mem_singleton.mp last
        trivial
    | accept => rcases List.mem_pair.mp member with rfl | rfl <;> trivial
    | prepare => obtain rfl := List.mem_singleton.mp member; trivial
    | empty => obtain rfl := List.mem_singleton.mp member; trivial
    | create => obtain rfl := List.mem_singleton.mp member; trivial
    | remove => obtain rfl := List.mem_singleton.mp member; trivial
    | _ => cases member

/-- One outcome for every message, and what the counters say of them. Events are
counted by receive number. -/
structure OneOutcome (host : Host) (p : Pipeline) (trace : List Obs) : Prop where
  conserved : p.stat .att = p.stat .succ + p.stat .fail + (p.ledger trace).relays.length
  succ : p.stat .succ = p.reason .ok
  fail : p.stat .fail = ((ZmsgResp.all.filter (· ≠ .ok)).map p.reason).sum
  /-- Not awaiting its relay any more, a message was either relayed or refused,
  and that once. -/
  outcome : ∀ i, i < p.seen.length → i ∉ (p.ledger trace).relays →
    ((p.ledger trace).relayed.count i = 1 ∧ ((p.ledger trace).refused.map Prod.fst).count i = 0) ∨
      ((p.ledger trace).relayed.count i = 0 ∧ ((p.ledger trace).refused.map Prod.fst).count i = 1)
  relayed_counted : p.stat .succ = (p.ledger trace).relayed.length
  refused_counted : p.stat .fail = (p.ledger trace).refused.length
  reason_counted : ∀ code, code ≠ .ok →
    p.reason code = ((p.ledger trace).refused.map Prod.snd).count code
  /-- Each refusal has one reply, which is queued or was run. -/
  answered : ∀ i, (p.ledger trace).replies.count i + (p.ledger trace).replied.count i =
    ((p.ledger trace).refused.map Prod.fst).count i
  delivered : ∀ r i, .relayed r i ∈ trace → ∃ m, p.seen[i]? = some m ∧ Delivered host trace r i m
  reason : ∀ r i code, .errMsgReply r i code ∈ trace →
    ∃ m, p.seen[i]? = some m ∧ FirstFailure host trace r i m code
  /-- A reply still queued carries the reason counted, and the sender received. -/
  queued : ∀ r i, .routerErrReply r i ∈ p.pending → ∃ m code, p.seen[i]? = some m ∧
    .errMsgReply r i code ∈ trace ∧ (p.pool.read r).head.respCode = code.code ∧
      (p.pool.read r).head.from_ = m.header.from_
  /-- A reply is routed by the sender it carries. -/
  addressed : ∀ r i zsockCtx uuid rc,
    .zmqSend (.routerErrReply r i) zsockCtx (.identity uuid) rc ∈ trace →
      ∃ m code, p.seen[i]? = some m ∧ .errMsgReply r i code ∈ trace ∧
        uuid = (replyHead m code).fromStr (host.afterHead r) ∧ (replyHead m code).from_ = m.header.from_
  /-- A reply handed over carries the reason counted. -/
  replied : ∀ r i t head body, .handed (.routerErrReply r i) t head body ∈ trace →
    ∃ m code, p.seen[i]? = some m ∧ .errMsgReply r i code ∈ trace ∧ head.respCode = code.code ∧
      head.from_ = m.header.from_
  /-- However a reply ends, nothing is counted and nothing queued. -/
  replyFinal : ∀ r i res p' obs, p.send = some (.routerErrReply r i) →
    step host p (.sendRun res) = some (p', obs) →
      p'.stat = p.stat ∧ p'.reason = p.reason ∧ p'.evbase = p.evbase

/-- **Every message has one outcome, and the counters are conserved**, in every
state a run reaches. -/
theorem one_outcome (run : (machine host).Runs acts p trace) : OneOutcome host p trace := by
  have books := runs_balanced run
  have inv := runs_inv run
  have justified := runs_justified run
  refine ⟨books.total, ?_, books.reasons, fun i received finished => ?_, books.succ, books.fail, books.reason,
    books.answered, fun r i member => justified _ member, fun r i code member => justified _ member,
    fun r i queued => ?_, fun r i zsockCtx uuid rc sent => ?_, fun r i t head body handed => ?_,
    fun r i res p' obs running step => ?_⟩
  · exact books.succ.trans books.ok.symm
  · have once := books.once i
    have waiting := List.count_eq_zero_of_not_mem finished
    have within : i < (p.ledger trace).received.length := received
    rw [if_pos within] at once
    omega
  · cases inv.carries _ queued with
    | @reply _ _ m code old received refuses counted head buffer =>
      rw [head]
      exact ⟨m, code, received, counted, replyHead_addressed refuses⟩
  · cases runs_attempted run _ sent rfl with
    | relay old llist res received passed head buffer member => cases (relayAttempt_identity host member).1
    | @reply r' i' m code ctx old zsockCtx' res received refuses counted head buffer member =>
      obtain ⟨same, target⟩ := relayAttempt_identity host member
      cases same
      cases target
      exact ⟨m, code, received, counted, rfl, (replyHead_addressed refuses).2⟩
  · cases runs_attempted run _ handed rfl with
    | relay old llist res received passed head buffer member => cases (relayAttempt_handed host member).1
    | @reply r' i' m code ctx old zsockCtx' res received refuses counted head buffer member =>
      obtain ⟨same, -, rfl, -⟩ := relayAttempt_handed host member
      cases same
      rw [head]
      exact ⟨m, code, received, counted, replyHead_addressed refuses⟩
  · cases inv.step_moves step with
    | relay other => simp [running] at other
    | relayFail other => simp [running] at other
    | reply _ _ _ => exact ⟨rfl, rfl, rfl⟩
    | create other => simp [running] at other
    | remove other => simp [running] at other

/-- A message without a body is counted under its reason, and its reply, which
finds no route, leaves the counters alone. -/
theorem one_outcome_refused : ∃ p trace,
    (machine .bare).Runs
      [.arrive ⟨[1, 0, 0, 0], []⟩, .recvPrepare, .recvProcess, .sendTake, .sendRun ⟨-1, 0, 0⟩] p trace ∧
    OneOutcome .bare p trace ∧ p.stat .att = 1 ∧ p.reason .failNullRecv = 1 :=
  have run : (machine .bare).Runs
      [.arrive ⟨[1, 0, 0, 0], []⟩, .recvPrepare, .recvProcess, .sendTake, .sendRun ⟨-1, 0, 0⟩] _ _ := rfl
  ⟨_, _, run, one_outcome run, rfl, rfl⟩

end Pipeline

end MsaBroker
