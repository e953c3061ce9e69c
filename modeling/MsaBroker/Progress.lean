import MsaBroker.Ledger

/-! Everything gets done. A message costs the two threads at most six steps, a
notification two, and while anything is left to do one of the threads can do it;
so however the steps are scheduled, a broker that is left alone comes to rest,
with every message received, answered for, and off its context. -/
namespace MsaBroker

/-- The steps a queued callback may yet take: to be taken and run, and as much
again for the reply of a relay that fails. -/
def Callback.work : Callback → Nat
  | .pushRelay .. => 4
  | .routerErrReply .. | .pushCreate _ | .pushRemove _ => 2

namespace Pipeline

variable {host : Host} {p p' : Pipeline} {a : Act} {acts rest : List Act} {obs trace out : List Obs}

/-! ## Work -/

/-- The step does some of what there is to do; a thread may also look at its
empty socket, which is no work. -/
def works (p : Pipeline) : Act → Bool
  | .arrive _ | .post _ => false
  | .recvPrepare | .recvProcess => !p.pull.queue.isEmpty
  | .sendTake | .sendRun _ => true

def work (p : Pipeline) (a : Act) : Nat := (p.works a).toNat

/-- How much there may be left to do. The iteration in progress is through with
its preparation. -/
def workLeft (p : Pipeline) : Nat :=
  (6 * p.pull.queue.length - p.recv.isSome.toNat) + (p.evbase.map Callback.work).sum +
    (p.send.toList.map fun cb => cb.work - 1).sum

/-- What a message or a notification adds to it. -/
def brings : Act → Nat
  | .arrive _ => 6
  | .post _ => 2
  | .recvPrepare | .recvProcess | .sendTake | .sendRun _ => 0

/-- Every step of work leaves less of it. -/
theorem Moves.pays (moves : Moves host trace p a p' obs) : p.work a + p'.workLeft ≤ p.workLeft + brings a := by
  cases moves with
  | arrive m =>
    simp [work, works, workLeft, brings, InSock.arrive]
    omega
  | prepare idle =>
    cases queued : p.pull.queue with
    | nil => simp [work, works, workLeft, brings, queued, idle]
    | cons m queue =>
      simp [work, works, workLeft, brings, queued, idle]
      omega
  | empty held nothing => simp [work, works, workLeft, brings, held, nothing]
  | refuse more held next failed =>
    simp [work, works, workLeft, brings, held, next, Pipeline.refused, taken, Callback.work]
    omega
  | accept more held next passed =>
    simp [work, works, workLeft, brings, held, next, eventBaseOnce, taken, Callback.work]
    omega
  | post n =>
    cases n <;> simp [work, works, workLeft, brings, eventBaseOnce, Notification.callback, Callback.work] <;> omega
  | @take cb evbase idle next =>
    cases cb <;> simp [work, works, workLeft, brings, idle, next, Callback.work] <;> omega
  | relay running =>
    simp [work, works, workLeft, brings, running, statInc, reasonInc, Callback.work]
    omega
  | relayFail running =>
    simp [work, works, workLeft, brings, running, Pipeline.refused, Callback.work]
    omega
  | reply running =>
    simp [work, works, workLeft, brings, running, Callback.work]
    omega
  | create running =>
    simp [work, works, workLeft, brings, running, evsockPushCreate, Callback.work]
    omega
  | remove running =>
    simp [work, works, workLeft, brings, running, evsockPushRemove, Callback.work]
    omega

/-- Nothing waits: no message on the socket, and no callback. -/
def Drained (p : Pipeline) : Prop := p.pull.queue = [] ∧ p.pending = []

/-- While something is left to do, one of the threads can do some of it. -/
theorem exists_work (host : Host) (left : ¬ p.Drained) :
    ∃ a p' obs, p.works a = true ∧ step host p a = some (p', obs) := by
  cases running : p.send with
  | some cb => exact ⟨.sendRun ⟨0, 0, 0⟩, _, _, rfl, by simp only [step, running]; rfl⟩
  | none =>
    cases queued : p.evbase with
    | cons cb evbase => exact ⟨.sendTake, _, _, rfl, by simp only [step, running, queued]; rfl⟩
    | nil =>
      have waiting : p.pull.queue ≠ [] := fun none => left ⟨none, by simp [pending, running, queued]⟩
      cases held : p.recv with
      | none => exact ⟨.recvPrepare, _, _, by simp [works, waiting], by simp only [step, held]; rfl⟩
      | some r => exact ⟨.recvProcess, _, _, by simp [works, waiting], by simp only [step, held]; rfl⟩

/-! ## At rest -/

/-- The messages that reached the PULL socket, in order. -/
def arrivals (acts : List Act) : List Message :=
  acts.filterMap fun
    | .arrive m => some m
    | _ => none

theorem arrivals_append (acts₁ acts₂ : List Act) : arrivals (acts₁ ++ acts₂) = arrivals acts₁ ++ arrivals acts₂ :=
  List.filterMap_append

/-- The PULL socket loses nothing and keeps its order. -/
theorem runs_arrivals (run : (machine host).Runs acts p trace) : arrivals acts = p.seen ++ p.pull.queue := by
  refine run.history (fun acts _ p => arrivals acts = p.seen ++ p.pull.queue) rfl ?_
  intro acts tr p a p' obs run same step
  rw [arrivals_append, same]
  have moves : Moves host tr p a p' obs := (runs_inv run).step_moves step
  cases moves with
  | refuse more held next failed => simp [arrivals, next, Pipeline.refused, taken]
  | accept more held next passed => simp [arrivals, next, eventBaseOnce, taken]
  | arrive m => simp [arrivals, InSock.arrive]
  | _ => simp [arrivals, eventBaseOnce, statInc, reasonInc, Pipeline.refused, evsockPushCreate, evsockPushRemove]

/-- What a broker at rest has made of everything that arrived. -/
structure Settled (acts : List Act) (trace : List Obs) (p : Pipeline) : Prop where
  received : p.seen = arrivals acts
  /-- Every message was relayed once, or refused once and its reply run. -/
  outcome : ∀ i < p.seen.length,
    (trace.filterMap Obs.relayed?).count i = 1 ∧ ((trace.filterMap Obs.refused?).map Prod.fst).count i = 0 ∧
        (trace.filterMap Obs.replied?).count i = 0 ∨
      (trace.filterMap Obs.relayed?).count i = 0 ∧ ((trace.filterMap Obs.refused?).map Prod.fst).count i = 1 ∧
        (trace.filterMap Obs.replied?).count i = 1
  /-- And before that, handled in the order it arrived in. -/
  inOrder : trace.filterMap Obs.handled? = Ledger.passing (arrivals acts)
  att : p.stat .att = (arrivals acts).length
  total : p.stat .att = p.stat .succ + p.stat .fail
  /-- No context is in use but the one RECV holds. -/
  contexts : ∀ x, p.pool.live x = true → p.recv = some x

theorem Drained.settled (drained : p.Drained) (run : (machine host).Runs acts p trace) : Settled acts trace p := by
  obtain ⟨queue, pending⟩ := drained
  have received : arrivals acts = p.seen := by rw [runs_arrivals run, queue, List.append_nil]
  obtain ⟨once, answered, inOrder, att, total, -, -, -, -, -⟩ := runs_balanced run
  simp only [ledger, pending, List.filterMap_nil, List.count_nil, Nat.zero_add, List.append_nil,
    List.length_nil, Nat.add_zero] at once answered inOrder att total
  refine ⟨received.symm, fun i inside => ?_, received ▸ inOrder, received ▸ att, total, fun x live => ?_⟩
  · have one := once i
    have reply := answered i
    rw [if_pos inside] at one
    omega
  · have member := (runs_inv run).live_iff.mp live
    simpa [refs, pending] using member

/-- **The broker comes to rest.** After any run, and under any schedule from
there, the steps of work come to at most what was left to do, six for each message
that arrives and two for each notification posted on the way; while anything is
left some thread can work; and where nothing is left, every message that ever
arrived is settled. -/
theorem comes_to_rest (run : (machine host).Runs acts p trace)
    (further : (machine host).runFrom p rest = some (p', out)) :
    (machine host).costFrom work p rest ≤ p.workLeft + (rest.map brings).sum ∧
      (p'.Drained ∨ ∃ a q obs, p'.works a = true ∧ step host p' a = some (q, obs)) ∧
      (p'.Drained → Settled (acts ++ rest) (trace ++ out) p') := by
  refine ⟨?_, ?_, fun drained => ?_⟩
  · have paid := run.costFrom_le work workLeft brings further fun acts tr p a p' obs run step =>
      ((runs_inv run).step_moves step).pays
    omega
  · by_cases left : p'.Drained
    · exact .inl left
    · exact .inr (exists_work host left)
  · exact drained.settled (Machine.runFrom_append.mpr ⟨p, trace, out, run, further, rfl⟩)

/-- A message without a body, refused and answered. -/
theorem comes_to_rest_refused : ∃ p p' trace out,
    (machine .bare).Runs [.arrive ⟨[1, 0, 0, 0], []⟩] p trace ∧
    (machine .bare).runFrom p [.recvPrepare, .recvProcess, .sendTake, .sendRun ⟨0, 0, 0⟩] = some (p', out) ∧
    (machine .bare).costFrom work p [.recvPrepare, .recvProcess, .sendTake, .sendRun ⟨0, 0, 0⟩] ≤ p.workLeft ∧
    p'.Drained ∧
    Settled ([.arrive ⟨[1, 0, 0, 0], []⟩] ++ [.recvPrepare, .recvProcess, .sendTake, .sendRun ⟨0, 0, 0⟩])
      (trace ++ out) p' := by
  obtain ⟨p, p', trace, out, run, further, drained⟩ : ∃ p p' trace out,
      (machine .bare).Runs [.arrive ⟨[1, 0, 0, 0], []⟩] p trace ∧
      (machine .bare).runFrom p [.recvPrepare, .recvProcess, .sendTake, .sendRun ⟨0, 0, 0⟩] =
        some (p', out) ∧ p'.Drained := ⟨_, _, _, _, rfl, rfl, rfl, rfl⟩
  obtain ⟨bounded, -, settled⟩ := comes_to_rest run further
  exact ⟨p, p', trace, out, run, further, bounded, drained, settled drained⟩

end Pipeline

end MsaBroker
