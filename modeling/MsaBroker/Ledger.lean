import Mathlib.Tactic.SplitIfs
import MsaBroker.PipelineSteps

/-! The bookkeeping of messages, without contexts, sockets or bytes: which
messages were received, which await a relay or a reply, what each ended as, and
what the counters say. A run of the pipeline is a run of this ledger, and the
ledger's books balance. -/
namespace MsaBroker

/-- Messages go by their receive numbers, in the order of the events. -/
structure Ledger where
  received : List Message
  /-- Awaiting `evsock_push_relay`. -/
  relays : List Nat
  /-- Awaiting `evsock_router_err_reply`. -/
  replies : List Nat
  /-- `evsock_push_relay` ran. -/
  handled : List Nat
  /-- Relayed and counted as a success. -/
  relayed : List Nat
  /-- Refused, with the reason. -/
  refused : List (Nat × ZmsgResp)
  /-- `evsock_router_err_reply` ran. -/
  replied : List Nat
  stat : StatEnum → Nat
  reason : ZmsgResp → Nat

namespace Ledger

/-- `STAT_INC`. -/
def bump {κ : Type} [DecidableEq κ] (counter : κ → Nat) (k : κ) : κ → Nat :=
  Function.update counter k (counter k + 1)

/-- One entry, or none. -/
inductive Entry (l : Ledger) : Ledger → Prop
  | idle : Entry l l
  | refuse {m : Message} {code : ZmsgResp} (failed : firstCheck m = some code) :
      Entry l { l with
        received := l.received ++ [m], replies := l.replies ++ [l.received.length],
        refused := l.refused ++ [(l.received.length, code)],
        stat := bump (bump l.stat .att) .fail, reason := bump l.reason code }
  | accept {m : Message} (passed : firstCheck m = none) :
      Entry l { l with
        received := l.received ++ [m], relays := l.relays ++ [l.received.length],
        stat := bump l.stat .att }
  | relay {i : Nat} {relays : List Nat} (next : l.relays = i :: relays) :
      Entry l { l with
        relays := relays, handled := l.handled ++ [i], relayed := l.relayed ++ [i],
        stat := bump l.stat .succ, reason := bump l.reason .ok }
  | relayFail {i : Nat} {relays : List Nat} {code : ZmsgResp} (next : l.relays = i :: relays)
      (failed : code ≠ .ok) :
      Entry l { l with
        relays := relays, handled := l.handled ++ [i], replies := l.replies ++ [i],
        refused := l.refused ++ [(i, code)],
        stat := bump l.stat .fail, reason := bump l.reason code }
  | reply {i : Nat} {replies : List Nat} (next : l.replies = i :: replies) :
      Entry l { l with replies := replies, replied := l.replied ++ [i] }

/-- The receive numbers of the messages that pass RECV's checks. -/
def passing (received : List Message) : List Nat :=
  (received.zipIdx.filter fun m => firstCheck m.1 = none).map Prod.snd

/-- The books balance. -/
structure Balanced (l : Ledger) : Prop where
  /-- Every message received has one outcome, or awaits its relay. -/
  once : ∀ i, l.relays.count i + l.relayed.count i + (l.refused.map Prod.fst).count i =
    if i < l.received.length then 1 else 0
  /-- Every refusal has one reply, run or to be run. -/
  answered : ∀ i, l.replies.count i + l.replied.count i = (l.refused.map Prod.fst).count i
  /-- Messages are handled in the order they passed the checks. -/
  inOrder : l.handled ++ l.relays = passing l.received
  att : l.stat .att = l.received.length
  total : l.stat .att = l.stat .succ + l.stat .fail + l.relays.length
  succ : l.stat .succ = l.relayed.length
  ok : l.reason .ok = l.relayed.length
  fail : l.stat .fail = l.refused.length
  reason : ∀ k, k ≠ .ok → l.reason k = (l.refused.map Prod.snd).count k
  reasons : l.stat .fail = ((ZmsgResp.all.filter (· ≠ .ok)).map l.reason).sum

variable {l l' : Ledger}

@[simp] theorem bump_apply {κ : Type} [DecidableEq κ] (counter : κ → Nat) (k k' : κ) :
    bump counter k k' = counter k' + if k' = k then 1 else 0 := by
  by_cases same : k' = k
  · subst same
    simp [bump]
  · simp [bump, same]

@[simp] theorem passing_append (received : List Message) (m : Message) :
    passing (received ++ [m]) = passing received ++ if firstCheck m = none then [received.length] else [] := by
  by_cases passed : firstCheck m = none <;> simp [passing, List.zipIdx_append, passed]

/-- The reasons other than success. -/
private theorem sum_reasons (reason : ZmsgResp → Nat) :
    ((ZmsgResp.all.filter (· ≠ .ok)).map reason).sum =
      reason .failInvalidType + reason .failNullRecv + reason .failDiffRecv + reason .invldRouteType +
        reason .failToRoute := by
  have others : ZmsgResp.all.filter (· ≠ .ok) =
      [.failInvalidType, .failNullRecv, .failDiffRecv, .invldRouteType, .failToRoute] := by decide
  simp only [others, List.map_cons, List.map_nil, List.sum_cons, List.sum_nil]
  omega

/-- Counting one refusal raises the sum by one. -/
private theorem sum_bump (reason : ZmsgResp → Nat) {code : ZmsgResp} (failed : code ≠ .ok) :
    ((ZmsgResp.all.filter (· ≠ .ok)).map (bump reason code)).sum =
      ((ZmsgResp.all.filter (· ≠ .ok)).map reason).sum + 1 := by
  rw [sum_reasons, sum_reasons]
  cases code <;> simp at failed ⊢ <;> omega

private theorem sum_bump_ok (reason : ZmsgResp → Nat) :
    ((ZmsgResp.all.filter (· ≠ .ok)).map (bump reason .ok)).sum =
      ((ZmsgResp.all.filter (· ≠ .ok)).map reason).sum := by
  rw [sum_reasons, sum_reasons]
  simp

private theorem count_snoc {α : Type} [DecidableEq α] (xs : List α) (a b : α) :
    (xs ++ [a]).count b = xs.count b + if a = b then 1 else 0 := by
  simp [List.count_append, List.count_cons]

private theorem count_next {α : Type} [DecidableEq α] {xs rest : List α} {a : α} (next : xs = a :: rest) (b : α) :
    xs.count b = rest.count b + if a = b then 1 else 0 := by
  simp [next, List.count_cons]

theorem Entry.balanced (entry : Entry l l') (books : l.Balanced) : l'.Balanced := by
  obtain ⟨once, answered, inOrder, att, total, succ, ok, fail, reason, reasons⟩ := books
  cases entry with
  | idle => exact ⟨once, answered, inOrder, att, total, succ, ok, fail, reason, reasons⟩
  | @refuse m code failed =>
    have notOk : code ≠ .ok := fun same => firstCheck_ne_ok m (same ▸ failed)
    refine ⟨fun i => ?_, fun i => ?_, by simp [inOrder, failed], by simp [att], ?_, by simp [succ],
      by simp [ok, Ne.symm notOk], by simp [fail], fun k other => ?_, ?_⟩
    · have before := once i
      simp only [List.map_append, List.map_cons, List.map_nil, count_snoc, List.length_append,
        List.length_singleton]
      split_ifs at before ⊢ <;> omega
    · simp only [List.map_append, List.map_cons, List.map_nil, count_snoc, ← answered i]
      omega
    · simp
      omega
    · simp only [List.map_append, List.map_cons, List.map_nil, count_snoc, bump_apply, reason k other,
        eq_comm]
    · rw [sum_bump _ notOk]
      simp [reasons]
  | @accept m passed =>
    refine ⟨fun i => ?_, answered, by simp [← inOrder, passed], by simp [att], ?_, by simp [succ], ok,
      by simp [fail], reason, by simp [reasons]⟩
    · have before := once i
      simp only [count_snoc, List.length_append, List.length_singleton]
      split_ifs at before ⊢ <;> omega
    · simp
      omega
  | @relay i relays next =>
    refine ⟨fun j => ?_, answered, by simp [← inOrder, next], by simp [att], ?_, by simp [succ],
      by simp [ok], by simp [fail], fun k other => by simp [reason k other, other], ?_⟩
    · have before := once j
      rw [count_next next] at before
      simp only [count_snoc]
      omega
    · simp [next] at total ⊢
      omega
    · rw [sum_bump_ok]
      simp [reasons]
  | @relayFail i relays code next notOk =>
    refine ⟨fun j => ?_, fun j => ?_, by simp [← inOrder, next], by simp [att], ?_, by simp [succ],
      by simp [ok, Ne.symm notOk], by simp [fail], fun k other => ?_, ?_⟩
    · have before := once j
      rw [count_next next] at before
      simp only [List.map_append, List.map_cons, List.map_nil, count_snoc]
      omega
    · simp only [List.map_append, List.map_cons, List.map_nil, count_snoc, ← answered j]
      omega
    · simp [next] at total ⊢
      omega
    · simp only [List.map_append, List.map_cons, List.map_nil, count_snoc, bump_apply, reason k other,
        eq_comm]
    · rw [sum_bump _ notOk]
      simp [reasons]
  | @reply i replies next =>
    refine ⟨once, fun j => ?_, inOrder, att, total, succ, ok, fail, reason, reasons⟩
    have before := answered j
    rw [count_next next] at before
    simp only [count_snoc]
    omega

/-- A message is refused for one reason. -/
theorem Balanced.reason_unique (books : l.Balanced) {i : Nat} {code other : ZmsgResp}
    (one : (i, code) ∈ l.refused) (two : (i, other) ∈ l.refused) : other = code := by
  have distinct : (l.refused.map Prod.fst).Nodup := by
    refine List.nodup_iff_count_le_one.mpr fun j => ?_
    have once := books.once j
    split_ifs at once <;> omega
  have same := List.inj_on_of_nodup_map distinct two one rfl
  exact congrArg Prod.snd same

end Ledger

/-! ## The pipeline keeps such a ledger -/

@[simp] def Callback.relay? : Callback → Option Nat
  | .pushRelay _ i => some i
  | _ => none

@[simp] def Callback.reply? : Callback → Option Nat
  | .routerErrReply _ i => some i
  | _ => none

@[simp] def Obs.handled? : Obs → Option Nat
  | .callback (.pushRelay _ i) _ _ => some i
  | _ => none

@[simp] def Obs.relayed? : Obs → Option Nat
  | .relayed _ i => some i
  | _ => none

@[simp] def Obs.refused? : Obs → Option (Nat × ZmsgResp)
  | .errMsgReply _ i code => some (i, code)
  | _ => none

@[simp] def Obs.replied? : Obs → Option Nat
  | .callback (.routerErrReply _ i) _ _ => some i
  | _ => none

namespace Pipeline

variable {host : Host} {p p' : Pipeline} {a : Act} {obs trace : List Obs} {r : CtxRef} {cb : Callback}

/-- The books as a run leaves them. -/
def ledger (p : Pipeline) (trace : List Obs) : Ledger where
  received := p.seen
  relays := p.pending.filterMap Callback.relay?
  replies := p.pending.filterMap Callback.reply?
  handled := trace.filterMap Obs.handled?
  relayed := trace.filterMap Obs.relayed?
  refused := trace.filterMap Obs.refused?
  replied := trace.filterMap Obs.replied?
  stat := p.stat
  reason := p.reason

@[simp] theorem handled_attempt (cb : Callback) (r : CtxRef) (ctx : MsgCtx) (target : Option Target)
    (res : SendRes) : (relayAttempt host cb r ctx target res).filterMap Obs.handled? = [] :=
  filterMap_attempt host _ (fun o attempt => by cases o <;> first | rfl | cases attempt) ..

@[simp] theorem relayed_attempt (cb : Callback) (r : CtxRef) (ctx : MsgCtx) (target : Option Target)
    (res : SendRes) : (relayAttempt host cb r ctx target res).filterMap Obs.relayed? = [] :=
  filterMap_attempt host _ (fun o attempt => by cases o <;> first | rfl | cases attempt) ..

@[simp] theorem refused_attempt (cb : Callback) (r : CtxRef) (ctx : MsgCtx) (target : Option Target)
    (res : SendRes) : (relayAttempt host cb r ctx target res).filterMap Obs.refused? = [] :=
  filterMap_attempt host _ (fun o attempt => by cases o <;> first | rfl | cases attempt) ..

@[simp] theorem replied_attempt (cb : Callback) (r : CtxRef) (ctx : MsgCtx) (target : Option Target)
    (res : SendRes) : (relayAttempt host cb r ctx target res).filterMap Obs.replied? = [] :=
  filterMap_attempt host _ (fun o attempt => by cases o <;> first | rfl | cases attempt) ..

/-- Every move is one entry in the ledger. -/
theorem Moves.entry (moves : Moves host trace p a p' obs) :
    (p.ledger trace).Entry (p'.ledger (trace ++ obs)) := by
  have nothing := Ledger.Entry.idle (l := p.ledger trace)
  cases moves with
  | arrive m => simpa [ledger, pending] using nothing
  | prepare idle => simpa [ledger, pending, List.filterMap_cons] using nothing
  | empty held drained => simpa [ledger, pending, List.filterMap_cons] using nothing
  | refuse more held next failed =>
    have entry := Ledger.Entry.refuse (l := p.ledger trace) failed
    simpa [ledger, pending, Pipeline.refused, taken, Ledger.bump, List.filterMap_cons] using entry
  | accept more held next passed =>
    have entry := Ledger.Entry.accept (l := p.ledger trace) passed
    simpa [ledger, pending, eventBaseOnce, taken, Ledger.bump, List.filterMap_cons] using entry
  | post n =>
    cases n <;> simpa [ledger, pending, eventBaseOnce, Notification.callback, List.filterMap_cons] using nothing
  | take idle next => simpa [ledger, pending, idle, next] using nothing
  | @relay r i m old res running =>
    have next : (p.ledger trace).relays = i :: p.evbase.filterMap Callback.relay? := by
      simp [ledger, pending, running, List.filterMap_cons]
    have entry := Ledger.Entry.relay next
    simpa [ledger, pending, running, statInc, reasonInc, Ledger.bump, List.filterMap_cons] using entry
  | @relayFail r i m old res code running _ _ _ _ _ failed =>
    have next : (p.ledger trace).relays = i :: p.evbase.filterMap Callback.relay? := by
      simp [ledger, pending, running, List.filterMap_cons]
    have entry := Ledger.Entry.relayFail next failed
    simpa [ledger, pending, running, Pipeline.refused, Ledger.bump, List.filterMap_cons] using entry
  | @reply r i elem res running =>
    have next : (p.ledger trace).replies = i :: p.evbase.filterMap Callback.reply? := by
      simp [ledger, pending, running, List.filterMap_cons]
    have entry := Ledger.Entry.reply next
    simpa [ledger, pending, running, List.filterMap_cons] using entry
  | create running => simpa [ledger, pending, running, evsockPushCreate, List.filterMap_cons] using nothing
  | remove running => simpa [ledger, pending, running, evsockPushRemove, List.filterMap_cons] using nothing

/-- After any run, the books balance. -/
theorem runs_balanced {acts : List Act} (run : (machine host).Runs acts p trace) :
    (p.ledger trace).Balanced := by
  apply runs_invariant (fun tr p => (p.ledger tr).Balanced) run
  · refine ⟨fun i => ?_, fun i => ?_, rfl, rfl, rfl, rfl, rfl, rfl, fun k other => rfl, rfl⟩ <;>
      simp [ledger, pending, init, initializeThread]
  · intro tr p a p' obs _ books moves
    exact moves.entry.balanced books

end Pipeline

end MsaBroker
