import Mathlib.Data.List.Forall2
import MsaBroker.Ledger
import MsaBroker.MsgBody

/-! The pipeline against a reference broker without contexts: there a message
is carried by value through the same queue, and nothing can be overwritten,
shared or released too early. For messages whose body fits the buffer the two
hand over the same targets, headers and bodies in the same order. -/
namespace MsaBroker
open CMemory

/-! ## The reference broker -/

/-- A queued event with everything it is about. -/
inductive Job where
  | relay (i : Nat) (head : Envelop) (body : Bytes)
  | reply (i : Nat) (head : Envelop) (body : Bytes)
  | create (appls : ApplsCtx)
  | remove (appls : ApplsCtx)

def Notification.job : Notification → Job
  | .create appls => .create appls
  | .remove appls => .remove appls

/-- What the reference broker is observed to do: it handles message `i`, or
hands a header and a body to a target. -/
inductive FifoObs where
  | relay (i : Nat)
  | handed (target : Target) (head : Envelop) (body : Bytes)

structure FifoBroker where
  incoming : List Message
  /-- How many messages were received. -/
  received : Nat
  /-- RECV is about to receive. -/
  reading : Bool
  queue : List Job
  running : Option Job
  zsockLlist : List (Element ZsockCtx)
  net : Net

/-- A header and a body given to a target that accepts its identity frame. -/
def handOver (target : Option Target) (res : SendRes) (head : Envelop) (body : Bytes) : List FifoObs :=
  match target with
  | none => []
  | some t => if t.routed res then [.handed t head body] else []

namespace FifoBroker

variable (host : Host)

def init : FifoBroker where
  incoming := []
  received := 0
  reading := false
  queue := []
  running := none
  zsockLlist := (Pipeline.init host).zsockLlist
  net := (Pipeline.init host).net

/-- A received message becomes a relay, or the reply to its refusal. -/
def jobOf (i : Nat) (m : Message) : Job :=
  match firstCheck m with
  | none => .relay i m.header m.body
  | some code => .reply i (replyHead m code) (outcomeBody m code)

/-- One event, with the results of its sends. -/
def perform (res : SendRes) (s : FifoBroker) : Job → FifoBroker × List FifoObs
  | .relay i head body =>
    let dest := head.destStr []
    let out := .relay i :: handOver (relayTarget head dest s.zsockLlist) res head body
    match relayVerdict head dest s.zsockLlist res with
    | .ok => (s, out)
    | code => ({ s with queue := s.queue ++ [.reply i (relayReply head code) body] }, out)
  | .reply _ head body =>
    let target := (getElement (ascii "ROUTER") s.zsockLlist).map fun e => ⟨e.data, some (head.fromStr [])⟩
    (s, handOver target res head body)
  | .create appls =>
    let (net, llist) := addZsockToList host appls.svcnameStr .push s.net s.zsockLlist
    ({ s with net := net, zsockLlist := llist }, [])
  | .remove appls =>
    let (net, llist) := delZsockFromList appls.svcnameStr .push s.net s.zsockLlist
    ({ s with net := net, zsockLlist := llist }, [])

/-- One step, under the pipeline's labels. -/
def step (s : FifoBroker) : Pipeline.Act → Option (FifoBroker × List FifoObs)
  | .arrive m => some ({ s with incoming := s.incoming ++ [m] }, [])
  | .recvPrepare => if s.reading then none else some ({ s with reading := true }, [])
  | .recvProcess =>
    if s.reading then
      match s.incoming with
      | [] => some ({ s with reading := false }, [])
      | m :: incoming =>
        some ({ s with reading := false, incoming := incoming, received := s.received + 1,
                       queue := s.queue ++ [jobOf s.received m] }, [])
    else none
  | .post n => some ({ s with queue := s.queue ++ [n.job] }, [])
  | .sendTake =>
    match s.running, s.queue with
    | none, job :: queue => some ({ s with running := some job, queue := queue }, [])
    | _, _ => none
  | .sendRun res =>
    match s.running with
    | none => none
    | some job => some (perform host res { s with running := none } job)

def machine : Machine FifoBroker Pipeline.Act FifoObs := ⟨init host, step host⟩

end FifoBroker

/-- What is visible of the pipeline. -/
def Obs.fifo? : Obs → Option FifoObs
  | .callback (.pushRelay _ i) _ _ => some (.relay i)
  | .handed _ target head body => some (.handed target head body)
  | _ => none

/-! ## The simulation -/

/-- A pending callback and the job of the reference broker. -/
inductive Matches (trace : List Obs) (seen : List Message) : Callback → Job → Prop
  | relay {r : CtxRef} {i : Nat} {m : Message} (received : seen[i]? = some m) :
      Matches trace seen (.pushRelay r i) (.relay i m.header m.body)
  | reply {r : CtxRef} {i : Nat} {m : Message} {code : ZmsgResp} (received : seen[i]? = some m)
      (counted : .errMsgReply r i code ∈ trace) :
      Matches trace seen (.routerErrReply r i) (.reply i (replyHead m code) (outcomeBody m code))
  | create (appls : ApplsCtx) : Matches trace seen (.pushCreate appls) (.create appls)
  | remove (appls : ApplsCtx) : Matches trace seen (.pushRemove appls) (.remove appls)

theorem Matches.grow {trace : List Obs} {seen : List Message} {cb : Callback} {job : Job}
    (later : List Message) (obs : List Obs) (matched : Matches trace seen cb job) :
    Matches (trace ++ obs) (seen ++ later) cb job := by
  cases matched with
  | relay received => exact .relay (getElem?_later received)
  | reply received counted => exact .reply (getElem?_later received) (List.mem_append_left _ counted)
  | create appls => exact .create appls
  | remove appls => exact .remove appls

/-- The body frame fits a context's buffer. -/
def Message.Fits (m : Message) : Prop := m.body.length ≤ maxMsgsizeByte

namespace Pipeline

variable {host : Host} {p p' : Pipeline} {a : Act} {obs trace : List Obs} {r : CtxRef} {i : Nat}
  {m : Message} {code : ZmsgResp} {acts : List Act} {s : FifoBroker} {res : SendRes}

/-- The two brokers, job for job. -/
structure Simulates (trace : List Obs) (p : Pipeline) (s : FifoBroker) : Prop where
  inv : p.Inv trace
  books : (p.ledger trace).Balanced
  incoming : s.incoming = p.pull.queue
  received : s.received = p.seen.length
  reading : s.reading = p.recv.isSome
  running : List.Forall₂ (Matches trace p.seen) p.send.toList s.running.toList
  queue : List.Forall₂ (Matches trace p.seen) p.evbase s.queue
  zsockLlist : s.zsockLlist = p.zsockLlist
  net : s.net = p.net
  fits : ∀ m ∈ p.seen ++ p.pull.queue, m.Fits

/-- A relay attempt is seen as its hand-over. -/
private theorem fifo_attempt (cb : Callback) (ctx : MsgCtx) (target : Option Target) :
    (relayAttempt host cb r ctx target res).filterMap Obs.fifo? =
      handOver target res ctx.head (bodySent host r ctx) := by
  cases target with
  | none => rfl
  | some t =>
    obtain ⟨zsockCtx, uuid⟩ := t
    obtain ⟨routeRes, headRes, bodyRes⟩ := res
    cases uuid <;> by_cases route : routeRes < 0 <;> by_cases head : headRes < 0 <;>
      by_cases body : bodyRes < 0 <;>
      simp [relayAttempt, relayTo, serviceRelay, routerRelay, msgRelay, handing, handOver, Target.routed,
        Obs.fifo?, route, head, body, List.filterMap_cons]

/-- With a body that fits, the length ends the string at the latest. -/
private theorem destOf_fits (passed : firstCheck m = none) (fits : m.Fits) :
    destOf host r m = m.header.destStr [] := by
  have length := (firstCheck_none.mp passed).2.2
  have bound : m.body.length ≤ 1024 := fits
  have inside : 0 ∈ m.header.fromDest := by
    apply Envelop.zero_mem_fromDest_of_nBytes <;> rw [← length, recvLength_toInt] <;> omega
  rw [destOf, Envelop.destStr_inside inside, Envelop.destStr_inside inside]

/-- So does the response code of a reply. -/
private theorem replyFrom (refuses : m.Refuses code) :
    (replyHead m code).fromStr (host.afterHead r) = (replyHead m code).fromStr [] := by
  have inside : 0 ∈ (replyHead m code).fromDest := by
    apply Envelop.zero_mem_fromDest_of_respCode
    rw [(replyHead_addressed refuses).1]
    exact code.code_small
  rw [Envelop.fromStr_inside inside, Envelop.fromStr_inside inside]

/-- The reason a reply carries is the one counted for its message. -/
private theorem Simulates.reason_unique (sim : Simulates trace p s) {other : ZmsgResp}
    (one : .errMsgReply r i code ∈ trace) (two : .errMsgReply r i other ∈ trace) : other = code :=
  sim.books.reason_unique (List.mem_filterMap.mpr ⟨_, one, rfl⟩) (List.mem_filterMap.mpr ⟨_, two, rfl⟩)

private theorem Simulates.queue_grow (sim : Simulates trace p s) (obs : List Obs) (later : List Message) :
    List.Forall₂ (Matches (trace ++ obs) (p.seen ++ later)) p.evbase s.queue :=
  sim.queue.imp fun _ _ matched => matched.grow later obs

private theorem Simulates.running_grow (sim : Simulates trace p s) (obs : List Obs) (later : List Message) :
    List.Forall₂ (Matches (trace ++ obs) (p.seen ++ later)) p.send.toList s.running.toList :=
  sim.running.imp fun _ _ matched => matched.grow later obs

/-- A callback is running here exactly when its job is running there. -/
private theorem Simulates.running_job {cb : Callback} (sim : Simulates trace p s) (busy : p.send = some cb) :
    ∃ job, s.running = some job ∧ Matches trace p.seen cb job := by
  have running := sim.running
  rw [busy] at running
  cases there : s.running with
  | none => simp [there] at running
  | some job => exact ⟨job, rfl, by simpa [there] using running⟩

private theorem Simulates.fits_received (sim : Simulates trace p s) (received : p.seen[i]? = some m) : m.Fits :=
  sim.fits m (List.mem_append_left _ (List.mem_of_getElem? received))

/-- What is visible of a callback's attempt on a context that carries `m`. -/
private theorem Simulates.attempt_seen (sim : Simulates trace p s) {ctx : MsgCtx} {old : Buf maxMsgsizeByte}
    (host : Host) (cb : Callback) (r : CtxRef) (target : Option Target) (res : SendRes)
    (received : p.seen[i]? = some m) (outcome : m.Outcome code)
    (head : ctx.head = replyHead m code) (buffer : ctx.buffer = bufferAfter m code old) :
    (relayAttempt host cb r ctx target res).filterMap Obs.fifo? =
      handOver target res (replyHead m code) (outcomeBody m code) := by
  rw [fifo_attempt, bodySent_outcome outcome head buffer (sim.fits_received received), head]

/-- **One step of the pipeline is one step of the reference broker**, with the
same hand-overs. -/
theorem Simulates.lockstep (sim : Simulates trace p s) (small : ∀ m, a = .arrive m → m.Fits)
    (moves : Moves host trace p a p' obs) :
    ∃ s', FifoBroker.step host s a = some (s', obs.filterMap Obs.fifo?) ∧
      Simulates (trace ++ obs) p' s' := by
  have inv := moves.inv sim.inv
  have books := moves.entry.balanced sim.books
  cases moves with
  | arrive m =>
    refine ⟨_, rfl, inv, books, ?_, sim.received, sim.reading, ?_, ?_, sim.zsockLlist, sim.net, fun m' member => ?_⟩
    · simp [sim.incoming, InSock.arrive]
    · simpa using sim.running
    · simpa using sim.queue
    · have parts : m' ∈ p.seen ++ p.pull.queue ∨ m' = m := by
        simpa [InSock.arrive, or_assoc] using member
      rcases parts with old | rfl
      · exact sim.fits m' old
      · exact small m' rfl
  | prepare idle =>
    have ready : s.reading = false := by simp [sim.reading, idle]
    refine ⟨{ s with reading := true }, by simp [FifoBroker.step, ready, Obs.fifo?, List.filterMap_cons], inv, books,
      sim.incoming, sim.received, rfl, ?_, ?_, sim.zsockLlist, sim.net, sim.fits⟩
    · simpa using sim.running_grow [_] []
    · simpa using sim.queue_grow [_] []
  | @empty r held drained =>
    have busy : s.reading = true := by simp [sim.reading, held]
    have none : s.incoming = [] := sim.incoming.trans drained
    refine ⟨{ s with reading := false },
      by simp [FifoBroker.step, busy, none, Obs.fifo?, List.filterMap_cons], inv, books,
      sim.incoming, sim.received, rfl, ?_, ?_, sim.zsockLlist, sim.net, sim.fits⟩
    · simpa using sim.running_grow [_] []
    · simpa using sim.queue_grow [_] []
  | @refuse r m code queue more held next failed =>
    have busy : s.reading = true := by simp [sim.reading, held]
    have first : s.incoming = m :: queue := sim.incoming.trans next
    refine ⟨{ s with reading := false, incoming := queue, received := s.received + 1,
                     queue := s.queue ++ [.reply s.received (replyHead m code) (outcomeBody m code)] },
      by simp [FifoBroker.step, busy, first, FifoBroker.jobOf, failed, Obs.fifo?, List.filterMap_cons], inv, books,
      rfl, by simp [Pipeline.refused, taken, sim.received], rfl, ?_, ?_, sim.zsockLlist, sim.net, ?_⟩
    · exact sim.running_grow _ [m]
    · rw [sim.received]
      exact List.rel_append (sim.queue_grow _ [m])
        (.cons (.reply (List.getElem?_concat_length ..) (by simp)) .nil)
    · simpa [Pipeline.refused, taken, next] using sim.fits
  | @accept r m queue more held next passed =>
    have busy : s.reading = true := by simp [sim.reading, held]
    have first : s.incoming = m :: queue := sim.incoming.trans next
    refine ⟨{ s with reading := false, incoming := queue, received := s.received + 1,
                     queue := s.queue ++ [.relay s.received m.header m.body] },
      by simp [FifoBroker.step, busy, first, FifoBroker.jobOf, passed, Obs.fifo?, List.filterMap_cons], inv, books,
      rfl, by simp [eventBaseOnce, taken, sim.received], rfl, ?_, ?_, sim.zsockLlist, sim.net, ?_⟩
    · exact sim.running_grow _ [m]
    · rw [sim.received]
      exact List.rel_append (sim.queue_grow _ [m]) (.cons (.relay (List.getElem?_concat_length ..)) .nil)
    · simpa [eventBaseOnce, taken, next] using sim.fits
  | post n =>
    refine ⟨{ s with queue := s.queue ++ [n.job] }, rfl, inv, books, sim.incoming, sim.received, sim.reading, ?_, ?_,
      sim.zsockLlist, sim.net, sim.fits⟩
    · simpa [eventBaseOnce] using sim.running
    · have posted : Matches (trace ++ []) p.seen n.callback n.job := by
        cases n with
        | create appls => exact .create appls
        | remove appls => exact .remove appls
      exact List.rel_append (by simpa [eventBaseOnce] using sim.queue_grow [] []) (.cons posted .nil)
  | @take cb evbase idle next =>
    have free : s.running = none := by
      have running := sim.running
      rw [idle] at running
      cases there : s.running with
      | none => rfl
      | some job => simp [there] at running
    have queued := sim.queue
    rw [next] at queued
    cases there : s.queue with
    | nil => simp [there] at queued
    | cons job queue =>
      rw [there, List.forall₂_cons] at queued
      refine ⟨{ s with running := some job, queue := queue }, by simp [FifoBroker.step, free, there], inv, books,
        sim.incoming, sim.received, sim.reading, ?_, ?_, sim.zsockLlist, sim.net, sim.fits⟩
      · simpa using queued.1
      · simpa using queued.2
  | @relay r i m old res running received passed head buffer verdict =>
    obtain ⟨job, there, matched⟩ := sim.running_job running
    cases matched with
    | relay received' =>
      obtain rfl := Option.some.inj (received.symm.trans received')
      have seen := sim.attempt_seen host (.pushRelay r i) r
        (relayTarget m.header (destOf host r m) p.zsockLlist) res received (.inl ⟨rfl, passed⟩) head buffer
      rw [destOf_fits passed (sim.fits_received received), ← sim.zsockLlist] at verdict seen
      refine ⟨{ s with running := none }, ?_, inv, books, sim.incoming, sim.received, sim.reading, .nil, ?_,
        sim.zsockLlist, sim.net, sim.fits⟩
      · rw [destOf_fits passed (sim.fits_received received), ← sim.zsockLlist]
        simp [FifoBroker.step, there, FifoBroker.perform, verdict, seen, Obs.fifo?, List.filterMap_cons]
        rfl
      · simpa [Pipeline.statInc, reasonInc] using sim.queue_grow _ []
  | @relayFail r i m old res code running received passed head buffer verdict failed =>
    obtain ⟨job, there, matched⟩ := sim.running_job running
    cases matched with
    | relay received' =>
      obtain rfl := Option.some.inj (received.symm.trans received')
      have seen := sim.attempt_seen host (.pushRelay r i) r
        (relayTarget m.header (destOf host r m) p.zsockLlist) res received (.inl ⟨rfl, passed⟩) head buffer
      have refused : code = .invldRouteType ∨ code = .failToRoute :=
        verdict ▸ (relayVerdict_mem ..).resolve_left (verdict ▸ failed)
      have body : outcomeBody m code = m.body := by rcases refused with rfl | rfl <;> rfl
      rw [destOf_fits passed (sim.fits_received received), ← sim.zsockLlist] at verdict seen
      refine ⟨{ s with running := none, queue := s.queue ++ [.reply i (replyHead m code) (outcomeBody m code)] },
        ?_, inv, books, sim.incoming, sim.received, sim.reading, .nil, ?_, sim.zsockLlist, sim.net, sim.fits⟩
      · rw [destOf_fits passed (sim.fits_received received), ← sim.zsockLlist]
        rw [← relayReply_header refused, body]
        rcases refused with rfl | rfl <;>
          simp [FifoBroker.step, there, FifoBroker.perform, verdict, seen, Obs.fifo?, List.filterMap_cons] <;> rfl
      · exact List.rel_append (by simpa [Pipeline.refused] using sim.queue_grow _ [])
          (.cons (.reply received (by simp)) .nil)
  | @reply r i elem res running carried router =>
    obtain ⟨job, there, matched⟩ := sim.running_job running
    cases matched with
    | @reply _ _ m code received counted =>
      cases carried with
      | reply old received' refuses counted' head buffer =>
        obtain rfl := Option.some.inj (received.symm.trans received')
        obtain rfl := sim.reason_unique counted' counted
        have seen := sim.attempt_seen host (.routerErrReply r i) r
          (some ⟨elem.data, some ((replyHead m code).fromStr [])⟩) res received (.inr refuses) head buffer
        refine ⟨{ s with running := none }, ?_, inv, books, sim.incoming, sim.received, sim.reading, .nil, ?_,
          sim.zsockLlist, sim.net, sim.fits⟩
        · rw [head, replyFrom refuses]
          simp [FifoBroker.step, there, FifoBroker.perform, sim.zsockLlist, router, seen, Obs.fifo?,
            List.filterMap_cons]
        · simpa using sim.queue_grow _ []
  | @create appls res running =>
    obtain ⟨job, there, matched⟩ := sim.running_job running
    cases matched
    refine ⟨{ s with
        running := none
        net := (addZsockToList host appls.svcnameStr .push s.net s.zsockLlist).1
        zsockLlist := (addZsockToList host appls.svcnameStr .push s.net s.zsockLlist).2 },
      ?_, inv, books, sim.incoming, sim.received, sim.reading, .nil, ?_, ?_, ?_, sim.fits⟩
    · simp [FifoBroker.step, there, FifoBroker.perform, Obs.fifo?, List.filterMap_cons]
    · simpa [evsockPushCreate] using sim.queue_grow _ []
    · simp [evsockPushCreate, sim.net, sim.zsockLlist]
    · simp [evsockPushCreate, sim.net, sim.zsockLlist]
  | @remove appls res running =>
    obtain ⟨job, there, matched⟩ := sim.running_job running
    cases matched
    refine ⟨{ s with
        running := none
        net := (delZsockFromList appls.svcnameStr .push s.net s.zsockLlist).1
        zsockLlist := (delZsockFromList appls.svcnameStr .push s.net s.zsockLlist).2 },
      ?_, inv, books, sim.incoming, sim.received, sim.reading, .nil, ?_, ?_, ?_, sim.fits⟩
    · simp [FifoBroker.step, there, FifoBroker.perform, Obs.fifo?, List.filterMap_cons]
    · simpa [evsockPushRemove] using sim.queue_grow _ []
    · simp [evsockPushRemove, sim.net, sim.zsockLlist]
    · simp [evsockPushRemove, sim.net, sim.zsockLlist]

/-- A run of the pipeline on messages that fit is a run of the reference broker
under the same labels. -/
theorem runs_fifo (run : (machine host).Runs acts p trace) (small : ∀ m, .arrive m ∈ acts → m.Fits) :
    ∃ s, (FifoBroker.machine host).Runs acts s (trace.filterMap Obs.fifo?) ∧ Simulates trace p s := by
  refine run.simulated Simulates (fun a => ∀ m, a = .arrive m → m.Fits) ?_ ?_ ?_
  · rintro a member m rfl
    exact small m member
  · refine ⟨init_inv host, runs_balanced (Machine.runs_nil_iff.mpr ⟨rfl, rfl⟩), rfl, rfl, rfl, .nil, .nil, rfl, rfl,
      fun m member => ?_⟩
    simp [machine, init, initializeThread] at member
  · intro tr p s a p' obs sim fits step
    exact sim.lockstep fits (sim.inv.step_moves step)

/-- **The pooled pipeline refines a FIFO of message values.** What it hands over
is what the reference broker does; the messages that pass RECV's checks are
handled once each, in the order received; a relayed header is the received
frame cut or padded to the size of a header, a relayed body is the body frame
received with it, and the body of an error reply is that frame or empty. -/
theorem pool_refines_fifo (run : (machine host).Runs acts p trace)
    (small : ∀ m, .arrive m ∈ acts → m.body.length ≤ maxMsgsizeByte) :
    (∃ s, (FifoBroker.machine host).Runs acts s (trace.filterMap Obs.fifo?)) ∧
    trace.filterMap Obs.handled? ++ p.pending.filterMap Callback.relay? = Ledger.passing p.seen ∧
    (∀ r i t head body, .handed (.pushRelay r i) t head body ∈ trace →
      ∃ m more, p.seen[i]? = some m ∧ firstCheck m = none ∧ m.rest = body :: more ∧
        head.bytes = m.head.take sizeofEnvelop ++ List.replicate (sizeofEnvelop - m.head.length) 0) ∧
    (∀ r i t head body, .handed (.routerErrReply r i) t head body ∈ trace →
      ∃ m, p.seen[i]? = some m ∧ (body = [] ∨ ∃ more, m.rest = body :: more)) := by
  obtain ⟨s, fifo, sim⟩ := runs_fifo run small
  refine ⟨⟨s, fifo⟩, (runs_balanced run).inOrder, fun r i t head body handed => ?_,
    fun r i t head body handed => ?_⟩
  · cases runs_attempted run _ handed rfl with
    | @relay r' i' m ctx old llist res received passed carried buffer member =>
      obtain ⟨same, -, rfl, rfl⟩ := relayAttempt_handed host member
      cases same
      have fits := sim.fits_received received
      have outcome : m.Outcome .ok := .inl ⟨rfl, passed⟩
      rw [bodySent_outcome outcome carried buffer fits, carried]
      cases frames : m.rest with
      | nil => exact absurd frames (firstCheck_none.mp passed).2.1
      | cons body more =>
        refine ⟨m, more, received, passed, ?_, Envelop.zero_store_bytes m.head⟩
        simp [outcomeBody, ZmsgResp.beforeBody, Message.body, frames]
    | reply old zsockCtx res received refuses counted carried buffer member =>
      cases (relayAttempt_handed host member).1
  · cases runs_attempted run _ handed rfl with
    | relay old llist res received passed carried buffer member => cases (relayAttempt_handed host member).1
    | @reply r' i' m code ctx old zsockCtx res received refuses counted carried buffer member =>
      obtain ⟨same, -, -, rfl⟩ := relayAttempt_handed host member
      cases same
      have outcome : m.Outcome code := .inr refuses
      rw [bodySent_outcome outcome carried buffer (sim.fits_received received)]
      refine ⟨m, received, ?_⟩
      cases before : code.beforeBody with
      | true => exact .inl (by simp [outcomeBody, before])
      | false =>
        cases frames : m.rest with
        | nil => simp [outcome.beforeBody_iff.mpr (.inr frames)] at before
        | cons body more => exact .inr ⟨more, by simp [outcomeBody, before, Message.body, frames]⟩

/-- A message for an instance, with two bytes of body. -/
def shortMessage : Message where
  head := { Envelop.zero with type := zmsgTraffic, route := zmsgRouteInst, nBytes := 2 }.bytes
  rest := [[7, 7]]

set_option maxRecDepth 20000 in
/-- One message relayed and, from another context, one answered. -/
theorem pool_refines_fifo_two : ∃ p trace,
    (machine .bare).Runs
      [.arrive shortMessage, .arrive ⟨[1, 0, 0, 0], []⟩, .recvPrepare, .recvProcess, .sendTake,
        .sendRun ⟨0, 0, 0⟩, .recvPrepare, .recvProcess, .sendTake, .sendRun ⟨0, 0, 0⟩] p trace ∧
    p.stat .succ = 1 ∧ p.stat .fail = 1 ∧
    ∃ s, (FifoBroker.machine .bare).Runs
      [.arrive shortMessage, .arrive ⟨[1, 0, 0, 0], []⟩, .recvPrepare, .recvProcess, .sendTake,
        .sendRun ⟨0, 0, 0⟩, .recvPrepare, .recvProcess, .sendTake, .sendRun ⟨0, 0, 0⟩] s
      (trace.filterMap Obs.fifo?) :=
  have run : (machine .bare).Runs
      [.arrive shortMessage, .arrive ⟨[1, 0, 0, 0], []⟩, .recvPrepare, .recvProcess, .sendTake,
        .sendRun ⟨0, 0, 0⟩, .recvPrepare, .recvProcess, .sendTake, .sendRun ⟨0, 0, 0⟩] _ _ := rfl
  ⟨_, _, run, rfl, rfl, (pool_refines_fifo run (by simp [Message.body, shortMessage, maxMsgsizeByte])).1⟩

end Pipeline

end MsaBroker
