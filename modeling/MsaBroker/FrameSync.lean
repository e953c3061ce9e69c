import MsaBroker.Pipeline
import MsaBroker.Verdict
import MsaBroker.Zutil

/-! Whole calls of the two readers, and which frame of which message each of
their receives takes. Every way round the loop leaves other frames of the
message unread, and all of them count on the drain at its top; the log of an
iteration says what was drained and what was taken for the header and for the
body. -/
namespace MsaBroker
open CMemory

/-- What one iteration received. -/
structure Iteration where
  /-- Dropped by `zsock_drain_remain_part`. -/
  drained : List Bytes
  /-- Taken for the header; `none` where nothing was left to receive. -/
  head : Option Bytes
  /-- Taken for the body, where the iteration gets that far. -/
  body : Option Bytes

/-- The receives of one iteration, for a reader that goes back on some headers
alone; and the socket after them. -/
def InSock.iteration (goesBack : Bytes → Bool) (s : InSock) : Iteration × InSock :=
  match (zsockDrainRemainPart s).recv with
  | none => (⟨s.more, none, none⟩, zsockDrainRemainPart s)
  | some (head, s') =>
    if goesBack head then (⟨s.more, some head, none⟩, s')
    else
      match s'.more with
      | [] => (⟨s.more, some head, none⟩, s')
      | body :: more => (⟨s.more, some head, some body⟩, ⟨more, s'.queue⟩)

/-! ## `evsock_pull_read` -/

/-- The PULL reader goes back on a header of another type; it was received over
a cleared one. -/
def pullGoesBack (head : Bytes) : Bool := (Envelop.zero.store head).type ≠ zmsgTraffic

/-- From `EVSOCK_PULL_READ_TRY` on, for as many iterations as there is `fuel`. -/
def pullReadTry : Nat → Pipeline → Option (Pipeline × List Obs × List Iteration)
  | 0, _ => none
  | fuel + 1, p =>
    let (log, _) := p.pull.iteration pullGoesBack
    let (r, p) := pullReadPrepare p
    let (p', obs) := pullReadProcess r p
    match p.pull.recv with
    | none => some (p', .getMsgCtx r :: obs, [log])
    | some _ => (pullReadTry fuel p').map fun (p, more, logs) => (p, .getMsgCtx r :: obs ++ more, log :: logs)

/-- `evsock_pull_read`. -/
def evsockPullRead (fuel : Nat) (p : Pipeline) : Option (Pipeline × List Obs × List Iteration) :=
  if p.pull.pollin then pullReadTry fuel p else some (p, [], [])

/-! ## `evsock_sub_read` -/

/-- What the SUB reader works on: its `msg_buffer`, its socket, the registry and
what it posted. -/
structure SubReader where
  zmsg : Zmessage
  sub : InSock
  reg : Registry
  posted : List Notification

/-- From `EVSOCK_SUB_READ_TRY` on; the `i`-th iteration reads the clock at
`now i`. -/
def subReadTry (now : Nat → Int64) : Nat → Nat → SubReader → Option (SubReader × List Iteration)
  | 0, _, _ => none
  | fuel + 1, i, s =>
    let (log, _) := s.sub.iteration fun _ => false
    match subRead (now i) s.zmsg s.sub s.reg with
    | none => some ({ s with sub := zsockDrainRemainPart s.sub }, [log])
    | some (zmsg, sub, reg, posted) =>
      (subReadTry now fuel (i + 1) ⟨zmsg, sub, reg, s.posted ++ posted⟩).map fun (s, logs) => (s, log :: logs)

/-- `evsock_sub_read`, its `msg_buffer` holding whatever the stack held. -/
def evsockSubRead (now : Nat → Int64) (fuel : Nat) (s : SubReader) : Option (SubReader × List Iteration) :=
  if s.sub.pollin then subReadTry now fuel 0 s else some (s, [])

/-! ## One iteration -/

/-- The iterations over a queue of messages, where `left` are the frames the one
before left unread: each drains those, takes the first frame of the next message
for the header and, if it takes a body, the second frame of the same message;
the last one drains and finds nothing. -/
inductive InStep : List Bytes → List Message → List Iteration → Prop
  | last (left : List Bytes) : InStep left [] [⟨left, none, none⟩]
  | header {left : List Bytes} {m : Message} {queue : List Message} {logs : List Iteration}
      (next : InStep m.rest queue logs) : InStep left (m :: queue) (⟨left, some m.head, none⟩ :: logs)
  | both {left rest : List Bytes} {m : Message} {body : Bytes} {queue : List Message} {logs : List Iteration}
      (second : m.rest = body :: rest) (next : InStep rest queue logs) :
      InStep left (m :: queue) (⟨left, some m.head, some body⟩ :: logs)

variable {p : Pipeline} {r : CtxRef} {m : Message} {queue : List Message} {left : List Bytes}
  {goesBack : Bytes → Bool} {logs : List Iteration}

/-- What an iteration does to the socket with a message left to receive. -/
theorem InSock.iteration_message : InSock.iteration goesBack ⟨left, m :: queue⟩ =
    if goesBack m.head then (⟨left, some m.head, none⟩, ⟨m.rest, queue⟩)
    else (⟨left, some m.head, m.rest.head?⟩, ⟨m.rest.tail, queue⟩) := by
  simp only [InSock.iteration, zsockDrainRemainPart_eq, InSock.recv]
  split
  · rfl
  · cases m.rest <;> rfl

theorem InSock.iteration_empty : InSock.iteration goesBack ⟨left, []⟩ = (⟨left, none, none⟩, ⟨[], []⟩) := by
  simp [InSock.iteration, zsockDrainRemainPart_eq, InSock.recv]

/-- In step from the next message on, in step from this one on. -/
theorem InStep.iteration (next : InStep (InSock.iteration goesBack ⟨left, m :: queue⟩).2.more queue logs) :
    InStep left (m :: queue) ((InSock.iteration goesBack ⟨left, m :: queue⟩).1 :: logs) := by
  rw [InSock.iteration_message] at next ⊢
  split at next
  · rename_i back
    simpa [back] using InStep.header next
  · rename_i on
    cases frames : m.rest with
    | nil =>
      rw [frames] at next
      simpa [on] using InStep.header (frames ▸ next)
    | cons body rest =>
      rw [frames] at next
      simpa [on] using InStep.both frames next

/-- A context just taken has a cleared header, whatever the pool. -/
theorem getMsgCtx_cleared (pool : Pool) : ((getMsgCtx pool).2.read (getMsgCtx pool).1).head = .zero := by
  unfold getMsgCtx
  split <;> simp [Pool.read, Pool.write]

/-- The top of the loop leaves a drained socket and a cleared context. -/
theorem pullReadPrepare_spec (p : Pipeline) : (pullReadPrepare p).2.pull = ⟨[], p.pull.queue⟩ ∧
    ((pullReadPrepare p).2.pool.read (pullReadPrepare p).1).head = .zero := by
  refine ⟨?_, getMsgCtx_cleared p.pool⟩
  simp [pullReadPrepare, zsockDrainRemainPart_eq]

/-- The rest of the iteration leaves the socket as its log has it. -/
theorem pullReadProcess_pull (left : List Bytes) (waiting : p.pull = ⟨[], m :: queue⟩)
    (clear : (p.pool.read r).head = .zero) :
    (pullReadProcess r p).1.pull = (InSock.iteration pullGoesBack ⟨left, m :: queue⟩).2 := by
  have header : p.pull.recv = some (m.head, ⟨m.rest, queue⟩) := by simp [InSock.recv, waiting]
  have counted : ¬ (recvLength m.head).toInt < 0 := Int.not_lt.mpr (recvLength_nonneg _)
  have frame : Envelop.ofMem (Envelop.zero.mem.store m.head) = Envelop.zero.store m.head := rfl
  rw [InSock.iteration_message]
  simp only [pullReadProcess, zmqRecv, header, counted, ↓reduceIte, clear, frame]
  by_cases typed : (Envelop.zero.store m.head).type = zmsgTraffic
  · have on : pullGoesBack m.head = false := by simp [pullGoesBack, typed]
    cases frames : m.rest with
    | nil => simp [Pipeline.setHead, Pipeline.statInc, typed, on, InSock.rcvmore, errMsgReply_eq]
    | cons body rest =>
      by_cases length : recvLength body = (Envelop.zero.store m.head).nBytes
      · simp [Pipeline.setHead, Pipeline.setBuffer, Pipeline.statInc, typed, on, length, InSock.rcvmore,
          InSock.recv, Pipeline.eventBaseOnce]
      · simp [Pipeline.setHead, Pipeline.setBuffer, Pipeline.statInc, typed, on, length, InSock.rcvmore,
          InSock.recv, errMsgReply_eq]
  · have back : pullGoesBack m.head = true := by simp [pullGoesBack, typed]
    simp [Pipeline.setHead, Pipeline.statInc, typed, back, errMsgReply_eq]

/-- The last iteration gives its context back. -/
theorem pullReadTry_empty (fuel : Nat) (waiting : p.pull = ⟨left, []⟩) :
    ∃ p' obs, pullReadTry (fuel + 1) p = some (p', obs, [⟨left, none, none⟩]) ∧ p'.pull = ⟨[], []⟩ := by
  obtain ⟨drained, -⟩ := pullReadPrepare_spec p
  rw [waiting] at drained
  have nothing : (pullReadPrepare p).2.pull.recv = none := by simp [drained, InSock.recv]
  have ended := pullReadProcess_empty (pullReadPrepare p).1 nothing
  refine ⟨(pullReadProcess (pullReadPrepare p).1 (pullReadPrepare p).2).1,
    .getMsgCtx (pullReadPrepare p).1 :: (pullReadProcess (pullReadPrepare p).1 (pullReadPrepare p).2).2, ?_, ?_⟩
  · simp only [pullReadTry, nothing, waiting, InSock.iteration_empty]
  · rw [ended]
    exact drained

/-- An iteration that takes a message goes back for the next. -/
theorem pullReadTry_message (fuel : Nat) (waiting : p.pull = ⟨left, m :: queue⟩) :
    ∃ p' obs, p'.pull = ⟨(InSock.iteration pullGoesBack ⟨left, m :: queue⟩).2.more, queue⟩ ∧
      pullReadTry (fuel + 1) p = (pullReadTry fuel p').map fun (p, more, logs) =>
        (p, obs ++ more, (InSock.iteration pullGoesBack ⟨left, m :: queue⟩).1 :: logs) := by
  obtain ⟨drained, clear⟩ := pullReadPrepare_spec p
  rw [waiting] at drained
  have header : (pullReadPrepare p).2.pull.recv = some (m.head, ⟨m.rest, queue⟩) := by
    simp [drained, InSock.recv]
  have after := pullReadProcess_pull left drained clear
  have rest : (InSock.iteration pullGoesBack ⟨left, m :: queue⟩).2 =
      ⟨(InSock.iteration pullGoesBack ⟨left, m :: queue⟩).2.more, queue⟩ := by
    rw [InSock.iteration_message]
    split <;> rfl
  rw [rest] at after
  refine ⟨(pullReadProcess (pullReadPrepare p).1 (pullReadPrepare p).2).1,
    .getMsgCtx (pullReadPrepare p).1 :: (pullReadProcess (pullReadPrepare p).1 (pullReadPrepare p).2).2, after, ?_⟩
  simp only [pullReadTry, header, waiting]

/-- The loop of the PULL reader keeps in step with the queue, from whatever the
previous iteration left. -/
theorem pullReadTry_inStep {fuel : Nat} (waiting : p.pull = ⟨left, queue⟩) (enough : queue.length < fuel) :
    ∃ p' obs logs, pullReadTry fuel p = some (p', obs, logs) ∧ p'.pull = ⟨[], []⟩ ∧ InStep left queue logs := by
  induction fuel generalizing p left queue with
  | zero => simp at enough
  | succ fuel ih =>
    cases queue with
    | nil =>
      obtain ⟨p', obs, ran, ended⟩ := pullReadTry_empty fuel waiting
      exact ⟨p', obs, _, ran, ended, .last left⟩
    | cons m queue =>
      obtain ⟨mid, obs, further, ran⟩ := pullReadTry_message fuel waiting
      obtain ⟨p', more, logs, last, ended, inStep⟩ := ih further (by simpa using enough)
      exact ⟨p', obs ++ more, _, by rw [ran, last]; rfl, ended, inStep.iteration⟩

/-- The message an iteration makes of the frames it took. -/
def Iteration.message? (log : Iteration) : Option Message := log.head.map fun head => ⟨head, log.body.toList⟩

private theorem firstCheck_goesBack (back : pullGoesBack m.head = true) :
    firstCheck m = some .failInvalidType := by
  have mistyped : m.header.type ≠ zmsgTraffic := by simpa [pullGoesBack, Message.header] using back
  rw [firstCheck, if_pos mistyped]

/-- What the iteration does with a context is what it does on a message of the
frames it took and no others. -/
theorem pullReadProcess_taken {taken : Message} (waiting : p.pull = ⟨[], m :: queue⟩)
    (clear : (p.pool.read r).head = .zero)
    (isTaken : (InSock.iteration pullGoesBack ⟨left, m :: queue⟩).1.message? = some taken) :
    ∃ pull seen, pullReadProcess r { p with pull := ⟨[], [taken]⟩ } =
      ({ (pullReadProcess r p).1 with pull := pull, seen := seen }, (pullReadProcess r p).2) := by
  obtain ⟨more, ran⟩ := pullReadProcess_message (congrArg InSock.more waiting) (congrArg InSock.queue waiting) clear
  obtain ⟨more', alone⟩ := pullReadProcess_message (r := r) (p := { p with pull := ⟨[], [taken]⟩ }) rfl rfl clear
  rw [ran, alone]
  rw [InSock.iteration_message] at isTaken
  by_cases back : pullGoesBack m.head = true
  · obtain rfl : ⟨m.head, []⟩ = taken := by simpa [back, Iteration.message?] using isTaken
    rw [firstCheck_goesBack back, firstCheck_goesBack (m := ⟨m.head, []⟩) back]
    exact ⟨_, _, rfl⟩
  · obtain rfl : ⟨m.head, m.rest.head?.toList⟩ = taken := by simpa [back, Iteration.message?] using isTaken
    obtain ⟨head, rest⟩ := m
    -- the frames after the second one appear in no branch
    have sameCheck : firstCheck ⟨head, rest.head?.toList⟩ = firstCheck ⟨head, rest⟩ := by cases rest <;> rfl
    have sameReply (code : ZmsgResp) : replyHead ⟨head, rest.head?.toList⟩ code = replyHead ⟨head, rest⟩ code := by
      cases rest <;> cases code <;> rfl
    have sameBuffer (code : ZmsgResp) :
        bufferAfter ⟨head, rest.head?.toList⟩ code = bufferAfter ⟨head, rest⟩ code := by
      cases rest <;> rfl
    rw [sameCheck]
    cases firstCheck ⟨head, rest⟩ with
    | none =>
      simp only [sameBuffer]
      exact ⟨_, _, rfl⟩
    | some code =>
      simp only [sameReply, sameBuffer]
      exact ⟨_, _, rfl⟩

/-! ## The SUB reader -/

variable {s : SubReader} {now : Nat → Int64}

theorem subRead_empty (now : Int64) (zmsg : Zmessage) (reg : Registry) :
    subRead now zmsg ⟨left, []⟩ reg = none := by
  simp [subRead, zmqRecv, zsockDrainRemainPart_eq, InSock.recv]

/-- What an iteration with a message to receive does to the socket. -/
theorem subRead_message (left : List Bytes) (m : Message) (queue : List Message) (now : Int64) (zmsg : Zmessage)
    (reg : Registry) :
    ∃ zmsg' reg' posted, subRead now zmsg ⟨left, m :: queue⟩ reg =
      some (zmsg', (InSock.iteration (fun _ => false) ⟨left, m :: queue⟩).2, reg', posted) := by
  have counted : ¬ (recvLength m.head).toInt < 0 := Int.not_lt.mpr (recvLength_nonneg _)
  rw [InSock.iteration_message]
  simp only [subRead, zmqRecv, zsockDrainRemainPart_eq, InSock.recv, counted, ↓reduceIte, InSock.rcvmore]
  cases m.rest with
  | nil => exact ⟨_, _, _, rfl⟩
  | cons body rest =>
    simp only [List.isEmpty_cons, Bool.not_false, Bool.true_eq_false, ↓reduceIte]
    split
    · exact ⟨_, _, _, rfl⟩
    · split
      · exact ⟨_, _, _, rfl⟩
      · exact ⟨_, _, _, rfl⟩

/-- The loop of the SUB reader keeps in step with the queue. -/
theorem subReadTry_inStep {fuel i : Nat} (waiting : s.sub = ⟨left, queue⟩) (enough : queue.length < fuel) :
    ∃ s' logs, subReadTry now fuel i s = some (s', logs) ∧ s'.sub = ⟨[], []⟩ ∧ InStep left queue logs := by
  induction fuel generalizing s left queue i with
  | zero => simp at enough
  | succ fuel ih =>
    cases queue with
    | nil =>
      refine ⟨{ s with sub := zsockDrainRemainPart s.sub }, [⟨left, none, none⟩], ?_, ?_, .last left⟩
      · simp only [subReadTry, waiting, subRead_empty, InSock.iteration_empty]
      · simp [waiting, zsockDrainRemainPart_eq]
    | cons m queue =>
      obtain ⟨zmsg, reg, posted, ran⟩ := subRead_message left m queue (now i) s.zmsg s.reg
      have rest : (InSock.iteration (fun _ => false) ⟨left, m :: queue⟩).2 = ⟨m.rest.tail, queue⟩ := by
        simp [InSock.iteration_message]
      obtain ⟨s', logs, last, ended, inStep⟩ :=
        ih (s := ⟨zmsg, _, reg, s.posted ++ posted⟩) (i := i + 1) rest (by simpa using enough)
      refine ⟨s', _, ?_, ended, InStep.iteration (by rw [rest]; exact inStep)⟩
      simp only [subReadTry, waiting, ran, last, Option.map_some]

/-- What the iteration does with its message, its buffer and the registry is
what it does on a message of the frames it took and no others. -/
theorem subRead_taken {taken : Message} (now : Int64) (zmsg : Zmessage) (reg : Registry)
    (isTaken : (InSock.iteration (fun _ => false) ⟨left, m :: queue⟩).1.message? = some taken) :
    (subRead now zmsg ⟨left, m :: queue⟩ reg).map (fun (zmsg, _, reg, posted) => (zmsg, reg, posted)) =
      (subRead now zmsg ⟨[], [taken]⟩ reg).map fun (zmsg, _, reg, posted) => (zmsg, reg, posted) := by
  obtain rfl : ⟨m.head, m.rest.head?.toList⟩ = taken := by
    simpa [InSock.iteration_message, Iteration.message?] using isTaken
  have counted : ¬ (recvLength m.head).toInt < 0 := Int.not_lt.mpr (recvLength_nonneg _)
  cases frames : m.rest with
  | nil => simp [subRead, zmqRecv, zsockDrainRemainPart_eq, InSock.recv, counted, frames, InSock.rcvmore]
  | cons body rest =>
    simp only [subRead, zmqRecv, zsockDrainRemainPart_eq, InSock.recv, counted, frames, InSock.rcvmore,
      List.head?_cons, Option.toList_some, List.isEmpty_cons, Bool.not_false, Bool.true_eq_false, ↓reduceIte]
    split <;> [rfl; split <;> rfl]

/-! ## Whole calls -/

/-- No message has been received in part. -/
def AtBoundary (s : InSock) : Prop := s.more = []

theorem InSock.pollin_iff {s : InSock} (boundary : AtBoundary s) : s.pollin = true ↔ s.queue ≠ [] := by
  simp [InSock.pollin, show s.more = [] from boundary]

private theorem evsockPullRead_inStep {fuel : Nat} (boundary : AtBoundary p.pull)
    (enough : p.pull.queue.length < fuel) :
    ∃ p' obs logs, evsockPullRead fuel p = some (p', obs, logs) ∧ p'.pull = ⟨[], []⟩ ∧
      if p.pull.queue = [] then p' = p ∧ logs = [] else InStep [] p.pull.queue logs := by
  have waiting : p.pull = ⟨[], p.pull.queue⟩ := by
    rw [← show p.pull.more = [] from boundary]
  unfold evsockPullRead
  by_cases empty : p.pull.queue = []
  · rw [if_neg (by simp [InSock.pollin_iff boundary, empty])]
    simp only [empty, ↓reduceIte]
    exact ⟨p, [], [], rfl, by rw [waiting, empty], rfl, rfl⟩
  · rw [if_pos ((InSock.pollin_iff boundary).mpr empty)]
    simp only [empty, ↓reduceIte]
    exact pullReadTry_inStep waiting enough

private theorem evsockSubRead_inStep {fuel : Nat} (boundary : AtBoundary s.sub)
    (enough : s.sub.queue.length < fuel) :
    ∃ s' logs, evsockSubRead now fuel s = some (s', logs) ∧ s'.sub = ⟨[], []⟩ ∧
      if s.sub.queue = [] then s' = s ∧ logs = [] else InStep [] s.sub.queue logs := by
  have waiting : s.sub = ⟨[], s.sub.queue⟩ := by
    rw [← show s.sub.more = [] from boundary]
  unfold evsockSubRead
  by_cases empty : s.sub.queue = []
  · rw [if_neg (by simp [InSock.pollin_iff boundary, empty])]
    simp only [empty, ↓reduceIte]
    exact ⟨s, [], rfl, by rw [waiting, empty], rfl, rfl⟩
  · rw [if_pos ((InSock.pollin_iff boundary).mpr empty)]
    simp only [empty, ↓reduceIte]
    exact subReadTry_inStep waiting enough

/-- **Frame synchronisation.** From a message boundary, one call of either reader
ends at a boundary with nothing queued. A call that finds the queue empty
returns at once; any other keeps in step with the queue, one iteration for each
message and one that finds nothing. And whatever an iteration does but receive,
it does with the two frames it took. -/
theorem readers_in_step :
    (∀ p fuel, AtBoundary p.pull → p.pull.queue.length < fuel →
      ∃ p' obs logs, evsockPullRead fuel p = some (p', obs, logs) ∧ p'.pull = ⟨[], []⟩ ∧
        if p.pull.queue = [] then p' = p ∧ logs = [] else InStep [] p.pull.queue logs) ∧
    (∀ now s fuel, AtBoundary s.sub → s.sub.queue.length < fuel →
      ∃ s' logs, evsockSubRead now fuel s = some (s', logs) ∧ s'.sub = ⟨[], []⟩ ∧
        if s.sub.queue = [] then s' = s ∧ logs = [] else InStep [] s.sub.queue logs) ∧
    (∀ p left m queue taken, p.pull = ⟨left, m :: queue⟩ →
      (p.pull.iteration pullGoesBack).1.message? = some taken →
      let (r, prepared) := pullReadPrepare p
      ∃ pull seen, pullReadProcess r { prepared with pull := ⟨[], [taken]⟩ } =
        ({ (pullReadProcess r prepared).1 with pull := pull, seen := seen }, (pullReadProcess r prepared).2)) ∧
    (∀ now zmsg reg left m queue taken, (InSock.iteration (fun _ => false) ⟨left, m :: queue⟩).1.message? = some taken →
      (subRead now zmsg ⟨left, m :: queue⟩ reg).map (fun (zmsg, _, reg, posted) => (zmsg, reg, posted)) =
        (subRead now zmsg ⟨[], [taken]⟩ reg).map fun (zmsg, _, reg, posted) => (zmsg, reg, posted)) := by
  refine ⟨fun p fuel boundary enough => evsockPullRead_inStep boundary enough,
    fun now s fuel boundary enough => evsockSubRead_inStep boundary enough, ?_,
    fun now zmsg reg left m queue taken isTaken => subRead_taken now zmsg reg isTaken⟩
  intro p left m queue taken waiting isTaken
  obtain ⟨drained, clear⟩ := pullReadPrepare_spec p
  rw [waiting] at drained isTaken
  exact pullReadProcess_taken drained clear isTaken

/-- A message of an empty header frame, a body and one frame too many. -/
def threeFrames : Message := ⟨[], [[1], [2]]⟩

/-- The pipeline before it, with a frame of another message left. -/
def threePulled : Pipeline := { Pipeline.init .bare with pull := ⟨[[3]], [threeFrames]⟩ }

/-- Both readers on such a message and one after it. -/
theorem readers_in_step_three :
    (∃ p' obs logs, evsockPullRead 3 { Pipeline.init .bare with pull := ⟨[], [threeFrames, ⟨[0], []⟩]⟩ } =
        some (p', obs, logs) ∧ p'.pull = ⟨[], []⟩ ∧ InStep [] [threeFrames, ⟨[0], []⟩] logs) ∧
      (∃ s' logs, evsockSubRead (fun _ => 0) 3
          ⟨⟨.zero, .zero _⟩, ⟨[], [threeFrames, ⟨[0], []⟩]⟩, ⟨[], []⟩, []⟩ = some (s', logs) ∧
        s'.sub = ⟨[], []⟩ ∧ InStep [] [threeFrames, ⟨[0], []⟩] logs) ∧
      (let (r, prepared) := pullReadPrepare threePulled
        ∃ pull seen, pullReadProcess r { prepared with pull := ⟨[], [⟨[], []⟩]⟩ } =
          ({ (pullReadProcess r prepared).1 with pull := pull, seen := seen }, (pullReadProcess r prepared).2)) ∧
      (subRead 0 ⟨.zero, .zero _⟩ ⟨[[3]], [threeFrames]⟩ ⟨[], []⟩).map
          (fun (zmsg, _, reg, posted) => (zmsg, reg, posted)) =
        (subRead 0 ⟨.zero, .zero _⟩ ⟨[], [⟨[], [[1]]⟩]⟩ ⟨[], []⟩).map
          fun (zmsg, _, reg, posted) => (zmsg, reg, posted) := by
  refine ⟨?_, ?_, ?_, ?_⟩
  · exact readers_in_step.1 { Pipeline.init .bare with pull := ⟨[], [threeFrames, ⟨[0], []⟩]⟩ } 3 rfl (by decide)
  · exact readers_in_step.2.1 (fun _ => 0) ⟨⟨.zero, .zero _⟩, ⟨[], [threeFrames, ⟨[0], []⟩]⟩, ⟨[], []⟩, []⟩ 3 rfl
      (by decide)
  · exact readers_in_step.2.2.1 threePulled _ _ _ _ rfl rfl
  · exact readers_in_step.2.2.2 0 ⟨.zero, .zero _⟩ ⟨[], []⟩ [[3]] threeFrames [] ⟨[], [[1]]⟩ rfl

/-- On an empty queue there is no last iteration: the call returns before the
loop. -/
theorem no_iteration_on_empty_queue :
    ¬ ∀ p fuel, AtBoundary p.pull → p.pull.queue.length < fuel →
      ∃ p' obs logs, evsockPullRead fuel p = some (p', obs, logs) ∧ p'.pull = ⟨[], []⟩ ∧
        InStep [] p.pull.queue logs := by
  intro always
  obtain ⟨p', obs, logs, ran, -, inStep⟩ := always (Pipeline.init .bare) 1 rfl Nat.one_pos
  have returned : evsockPullRead 1 (Pipeline.init .bare) = some (Pipeline.init .bare, [], []) := rfl
  cases returned.symm.trans ran
  cases inStep

end MsaBroker
