import MsaBroker.FrameSync
import MsaBroker.MgntRuns

/-! Whether the SUB reader treats a message by what the message says. Its
`msg_buffer` is never cleared, so a short header frame is completed with bytes
that an earlier message left there, or the stack. A run of the reader is compared,
message by message, with a function of the message, the registry and the clock
alone. -/
namespace MsaBroker
open CMemory

/-- The message's own frames say `ZMSG_REGI`, `n_bytes = sizeof(appls_ctx_t)` and a
body of that length. The last field checked ends at byte 396. -/
def Message.IsRegi (m : Message) : Prop :=
  396 ≤ m.head.length ∧ loadU32 m.head = zmsgRegi ∧ loadI32 (m.head.drop 392) = Int32.ofNat sizeofApplsCtx ∧
    m.body.length = sizeofApplsCtx

instance (m : Message) : Decidable m.IsRegi := inferInstanceAs (Decidable (_ ∧ _))

/-- The record a body of that length is. -/
def Message.appls (m : Message) : ApplsCtx := ApplsCtx.ofMem (Buf.load _ m.body)

/-- What a message does to the registry, and what it posts, taken by its value. -/
def byValue (m : Message) (now : Int64) (reg : Registry) : Registry × List Notification :=
  if m.IsRegi then handleRegi now (Int32.ofNat sizeofApplsCtx) m.appls reg else (reg, [])

namespace SubRun

/-- MGNT's SUB socket, its registry, and `msg_buffer` while a call is in
progress. -/
structure State where
  sub : InSock
  reg : Registry
  call : Option Zmessage

inductive Act where
  /-- A message reaches the SUB socket. -/
  | arrive (m : Message)
  /-- `evsock_sub_read` is called; its `msg_buffer` holds what the stack held. -/
  | call (stack : Zmessage)
  /-- One iteration of the call, the last of which returns. -/
  | iterate (now : Int64)
  /-- `manage_appls` between calls. -/
  | sweepStart
  | visit (now : Int64)

/-- What became of a message: the registry before and after it, and what was
posted. -/
structure Treated where
  message : Message
  now : Int64
  before : Registry
  after : Registry
  posted : List Notification

def step (s : State) : Act → Option (State × List Treated)
  | .arrive m => some ({ s with sub := s.sub.arrive m }, [])
  | .call stack =>
    match s.call, s.reg.todo with
    | none, [] => some ({ s with call := if s.sub.pollin then some stack else none }, [])
    | _, _ => none
  | .iterate now =>
    match s.call with
    | none => none
    | some zmsg =>
      match subRead now zmsg s.sub s.reg with
      | none => some ({ s with sub := zsockDrainRemainPart s.sub, call := none }, [])
      | some (zmsg, sub, reg, posted) =>
        some (⟨sub, reg, some zmsg⟩, s.sub.queue.head?.toList.map fun m => ⟨m, now, s.reg, reg, posted⟩)
  | .sweepStart =>
    match s.call with
    | some _ => none
    | none => (Mgnt.step s.reg .sweepStart).map fun (reg, _) => ({ s with reg := reg }, [])
  | .visit now =>
    match s.call with
    | some _ => none
    | none => (Mgnt.step s.reg (.visit now)).map fun (reg, _) => ({ s with reg := reg }, [])

def machine : Machine State Act Treated := ⟨⟨⟨[], []⟩, ⟨[], []⟩, none⟩, step⟩

/-- The message was treated by its value. -/
def Treated.ByValue (t : Treated) : Prop := (t.after, t.posted) = byValue t.message t.now t.before

/-- Every message so far was treated by its value. -/
def AllByValue (trace : List Treated) (_ : State) : Prop := ∀ t ∈ trace, t.ByValue

/-! ## What an iteration does -/

variable {zmsg : Zmessage} {m : Message} {now : Int64} {reg : Registry} {left : List Bytes} {queue : List Message}

theorem recvLength_eq_iff (frame : Bytes) {n : Nat} (fits : n < 2147483647) :
    recvLength frame = Int32.ofNat n ↔ frame.length = n := by
  rw [← Int32.toInt_inj, recvLength_toInt, Int32.toInt_ofNat_of_lt (by omega)]
  omega

/-- The header memory once the frame was laid over it says `ZMSG_REGI` and
`n_bytes = sizeof(appls_ctx_t)`. -/
def LooksRegi (zmsg : Zmessage) (m : Message) : Prop :=
  (zmsg.head.store m.head).type = zmsgRegi ∧ (zmsg.head.store m.head).nBytes = Int32.ofNat sizeofApplsCtx

instance : Decidable (LooksRegi zmsg m) := inferInstanceAs (Decidable (_ ∧ _))

/-- A message is handled by what the header memory says and by its own body. -/
theorem subRead_outcome (now : Int64) (left : List Bytes) (m : Message) (queue : List Message) (zmsg : Zmessage)
    (reg : Registry) :
    (subRead now zmsg ⟨left, m :: queue⟩ reg).map (fun (_, _, reg, posted) => (reg, posted)) =
      some (if LooksRegi zmsg m ∧ m.body.length = sizeofApplsCtx then
        handleRegi now (Int32.ofNat sizeofApplsCtx) m.appls reg else (reg, [])) := by
  have counted : ¬ (recvLength m.head).toInt < 0 := Int.not_lt.mpr (recvLength_nonneg _)
  have header : Envelop.ofMem (zmsg.head.mem.store m.head) = zmsg.head.store m.head := rfl
  simp only [subRead, zmqRecv, zsockDrainRemainPart_eq, InSock.recv, counted, ↓reduceIte, InSock.rcvmore, header]
  cases frames : m.rest with
  | nil => simp [Message.body, frames]
  | cons body rest =>
    have isBody : m.body = body := by simp [Message.body, frames]
    have length := recvLength_eq_iff body (n := sizeofApplsCtx) (by decide)
    simp only [List.isEmpty_cons, Bool.not_false, Bool.true_eq_false, ↓reduceIte, isBody]
    by_cases sized : recvLength body = (zmsg.head.store m.head).nBytes
    · rw [if_neg (not_not.mpr sized)]
      by_cases typed : (zmsg.head.store m.head).type = zmsgRegi
      · rw [if_pos typed]
        by_cases regi : (zmsg.head.store m.head).nBytes = Int32.ofNat sizeofApplsCtx
        · have fits : body.length = sizeofApplsCtx := length.mp (sized.trans regi)
          have looks : LooksRegi zmsg m ∧ body.length = sizeofApplsCtx := ⟨⟨typed, regi⟩, fits⟩
          simp only [looks, and_self, ↓reduceIte, regi, ofMem_received _ fits, Message.appls, isBody]
          rfl
        · have other : (zmsg.head.store m.head).nBytes.toInt ≠ sizeofApplsCtx := fun same =>
            regi (Int32.toInt_inj.mp same)
          have looks : ¬ (LooksRegi zmsg m ∧ body.length = sizeofApplsCtx) := fun looks => regi looks.1.2
          simp only [looks, ↓reduceIte, handleRegi, other, ne_eq, not_false_eq_true]
          rfl
      · have looks : ¬ (LooksRegi zmsg m ∧ body.length = sizeofApplsCtx) := fun looks => typed looks.1.1
        simp only [typed, looks, ↓reduceIte]
        rfl
    · have looks : ¬ (LooksRegi zmsg m ∧ body.length = sizeofApplsCtx) := fun looks =>
        sized ((length.mpr looks.2).trans looks.1.2.symm)
      simp only [sized, looks, ne_eq, not_false_eq_true, ↓reduceIte]
      rfl

theorem subRead_ran {reg' : Registry} {posted : List Notification} {zmsg' : Zmessage} {sub : InSock}
    (ran : subRead now zmsg ⟨left, m :: queue⟩ reg = some (zmsg', sub, reg', posted)) :
    (reg', posted) = if LooksRegi zmsg m ∧ m.body.length = sizeofApplsCtx then
      handleRegi now (Int32.ofNat sizeofApplsCtx) m.appls reg else (reg, []) := by
  have outcome := subRead_outcome now left m queue zmsg reg
  rwa [ran, Option.map_some, Option.some.injEq] at outcome

/-- A header stays in `msg_buffer` as it was received over the one before. -/
theorem subRead_head {reg' : Registry} {posted : List Notification} {zmsg' : Zmessage} {sub : InSock}
    (ran : subRead now zmsg ⟨left, m :: queue⟩ reg = some (zmsg', sub, reg', posted)) (frames : m.rest ≠ []) :
    zmsg'.head = zmsg.head.store m.head := by
  obtain ⟨body, rest, frames⟩ := List.exists_cons_of_ne_nil frames
  have counted : ¬ (recvLength m.head).toInt < 0 := Int.not_lt.mpr (recvLength_nonneg _)
  simp only [subRead, zmqRecv, zsockDrainRemainPart_eq, InSock.recv, counted, ↓reduceIte, InSock.rcvmore, frames,
    List.isEmpty_cons, Bool.not_false, Bool.true_eq_false] at ran
  split at ran
  · cases ran
    rfl
  · split at ran
    · cases ran
      rfl
    · cases ran
      rfl

/-- Bytes up to the last field checked come from the frame, if it has them. -/
theorem looksRegi_of_long (long : 396 ≤ m.head.length) : LooksRegi zmsg m ↔
    loadU32 m.head = zmsgRegi ∧ loadI32 (m.head.drop 392) = Int32.ofNat sizeofApplsCtx := by
  have prefix_ : (zmsg.head.mem.store m.head).bytes.take 396 = m.head.take 396 :=
    Buf.store_take _ _ long (by decide)
  have type : (zmsg.head.store m.head).type = loadU32 m.head := by
    have first := congrArg (List.take 4) prefix_
    rw [List.take_take, List.take_take] at first
    simp only [Envelop.store, Envelop.ofMem, loadU32]
    exact congrArg (fun l => UInt32.ofNat (leNat l)) first
  have nBytes : (zmsg.head.store m.head).nBytes = loadI32 (m.head.drop 392) := by
    have field := congrArg (List.drop 392) prefix_
    rw [List.drop_take, List.drop_take] at field
    simp only [Envelop.store, Envelop.ofMem, loadI32, loadU32]
    exact congrArg (fun l => Int32.ofUInt32 (UInt32.ofNat (leNat l))) field
  rw [LooksRegi, type, nBytes]

/-- The registry holds this very record, at this clock reading. -/
def Stored (m : Message) (now : Int64) (reg : Registry) : Prop :=
  ∃ old, getElement (m.appls.setTimestamp now).uuidStr reg.list = some old ∧ old.data = m.appls.setTimestamp now

theorem setElement_eq_self {key : Bytes} {data : ApplsCtx} {l : List (Element ApplsCtx)} {old : Element ApplsCtx}
    (found : getElement key l = some old) : setElement key data l = l ↔ old.data = data := by
  induction l with
  | nil => cases found
  | cons e l ih =>
    obtain ⟨key', was⟩ := e
    simp only [getElement, setElement] at found ⊢
    split at found
    · rename_i here
      cases found
      simp [here, eq_comm]
    · rename_i other
      simp [other, ih found]

theorem addElement_length (item : Element ApplsCtx) {l : List (Element ApplsCtx)}
    (absent : getElement item.key l = none) : ((addElement item l).getD l).length = l.length + 1 := by
  induction l with
  | nil => rfl
  | cons e l ih =>
    simp only [getElement, strcmp_eq_zero_iff] at absent
    split at absent
    · cases absent
    · rename_i other
      have apart : ¬ strcmp item.key e.key = 0 := by
        rw [strcmp_eq_zero_iff]
        exact Ne.symm other
      simp only [addElement, apart, ↓reduceIte]
      split
      · have longer := ih absent
        cases added : addElement item l with
        | none => simp [added] at longer
        | some l' => simpa [added] using longer
      · simp

/-- Handling a REGI changes nothing exactly when its record is there already. -/
theorem handleRegi_unchanged_iff (idle : reg.todo = []) :
    handleRegi now (Int32.ofNat sizeofApplsCtx) m.appls reg = (reg, []) ↔ Stored m now reg := by
  obtain ⟨list, todo⟩ := reg
  obtain rfl : todo = [] := idle
  have size : ¬ (Int32.ofNat sizeofApplsCtx).toInt ≠ sizeofApplsCtx := by decide
  simp only [handleRegi, size, ↓reduceIte, Stored, Registry.list, List.append_nil]
  cases known : getElement (m.appls.setTimestamp now).uuidStr list with
  | some old => simpa using setElement_eq_self known
  | none =>
    have longer := addElement_length ⟨_, m.appls.setTimestamp now⟩ known
    constructor
    · intro same
      have unchanged := congrArg (fun r : Registry × List Notification => r.1.swept.length) same
      have grew := longer.symm.trans unchanged
      simp at grew
    · rintro ⟨old, impossible, -⟩
      cases impossible

/-- Nothing of an earlier message, nor of the stack, decides about this one: its
header reaches to the last field checked; or what completes it does not make it a
REGI; or its body is none; or the registry holds its record already. -/
def Untainted (zmsg : Zmessage) (m : Message) (now : Int64) (reg : Registry) : Prop :=
  396 ≤ m.head.length ∨ ¬ LooksRegi zmsg m ∨ m.body.length ≠ sizeofApplsCtx ∨ Stored m now reg

/-- The condition, of the state before a step. -/
def Clean (s : State) : Act → Prop
  | .iterate now => ∀ zmsg m queue, s.call = some zmsg → s.sub.queue = m :: queue → Untainted zmsg m now s.reg
  | .arrive _ | .call _ | .sweepStart | .visit _ => True

variable {s s' : State} {a : Act} {out trace : List Treated} {acts : List Act}

/-- One message is treated by its value exactly when nothing taints it. -/
theorem byValue_iff (idle : reg.todo = []) {reg' : Registry} {posted : List Notification} {zmsg' : Zmessage}
    {sub : InSock} (ran : subRead now zmsg ⟨left, m :: queue⟩ reg = some (zmsg', sub, reg', posted)) :
    (⟨m, now, reg, reg', posted⟩ : Treated).ByValue ↔ Untainted zmsg m now reg := by
  simp only [Treated.ByValue, subRead_ran ran, byValue, Untainted]
  by_cases long : 396 ≤ m.head.length
  · have same : m.IsRegi ↔ LooksRegi zmsg m ∧ m.body.length = sizeofApplsCtx := by
      rw [looksRegi_of_long long, Message.IsRegi, and_assoc]
      exact and_iff_right long
    simp only [same, long, true_or]
  · have short : ¬ m.IsRegi := fun regi => long regi.1
    simp only [short, long, ↓reduceIte, false_or]
    by_cases looks : LooksRegi zmsg m ∧ m.body.length = sizeofApplsCtx
    · simp only [looks, and_self, ↓reduceIte, handleRegi_unchanged_iff idle, not_true_eq_false, ne_eq, false_or]
    · simp only [looks, ↓reduceIte, true_iff]
      tauto

/-! ## Steps -/

/-- The outcomes of a step. -/
inductive Moves (s : State) : Act → State → List Treated → Prop
  | arrive (m : Message) : Moves s (.arrive m) { s with sub := s.sub.arrive m } []
  | call (stack : Zmessage) (entered : Option Zmessage) (resting : s.reg.todo = []) :
      Moves s (.call stack) { s with call := entered } []
  | treat {now : Int64} {zmsg zmsg' : Zmessage} {m : Message} {queue : List Message} {sub : InSock}
      {reg' : Registry} {posted : List Notification} (busy : s.call = some zmsg) (next : s.sub.queue = m :: queue)
      (read : subRead now zmsg ⟨s.sub.more, m :: queue⟩ s.reg = some (zmsg', sub, reg', posted)) :
      Moves s (.iterate now) ⟨sub, reg', some zmsg'⟩ [⟨m, now, s.reg, reg', posted⟩]
  | leave (now : Int64) (sub : InSock) (empty : s.sub.queue = []) :
      Moves s (.iterate now) { s with sub := sub, call := none } []
  | sweepStart (reg : Registry) (free : s.call = none) : Moves s .sweepStart { s with reg := reg } []
  | visit (now : Int64) (reg : Registry) (free : s.call = none) : Moves s (.visit now) { s with reg := reg } []

theorem step_moves (ran : step s a = some (s', out)) : Moves s a s' out := by
  cases a with
  | arrive m =>
    cases ran
    exact .arrive m
  | call stack =>
    simp only [step] at ran
    split at ran
    · rename_i free resting
      cases ran
      exact .call stack _ resting
    · cases ran
  | iterate now =>
    simp only [step] at ran
    split at ran
    · cases ran
    · rename_i zmsg busy
      obtain ⟨⟨more, queue⟩, reg, call⟩ := s
      cases queue with
      | nil =>
        rw [subRead_empty] at ran
        cases ran
        exact .leave now _ rfl
      | cons m queue =>
        obtain ⟨zmsg', reg', posted, read⟩ := subRead_message more m queue now zmsg reg
        rw [read] at ran
        cases ran
        exact .treat busy rfl read
  | sweepStart =>
    simp only [step] at ran
    split at ran
    · cases ran
    · rename_i free
      obtain ⟨next, -, same⟩ := Option.map_eq_some_iff.mp ran
      cases same
      exact .sweepStart _ free
  | visit now =>
    simp only [step] at ran
    split at ran
    · cases ran
    · rename_i free
      obtain ⟨next, -, same⟩ := Option.map_eq_some_iff.mp ran
      cases same
      exact .visit now _ free

/-- A call runs between sweeps. -/
def Idle (s : State) : Prop := s.call ≠ none → s.reg.todo = []

theorem Moves.idle (moves : Moves s a s' out) (idle : Idle s) : Idle s' := by
  cases moves with
  | arrive m => exact idle
  | call stack entered resting => exact fun _ => resting
  | treat busy next read =>
    intro _
    have resting := idle (by simp [busy])
    have outcome := congrArg Prod.fst (subRead_ran read)
    simp only at outcome
    rw [outcome]
    split
    · exact handleRegi_todo resting
    · exact resting
  | leave now sub empty => exact fun busy => absurd rfl busy
  | sweepStart reg free => exact fun busy => absurd free busy
  | visit now reg free => exact fun busy => absurd free busy

theorem runs_idle (run : machine.Runs acts s trace) : Idle s :=
  run.invariant (fun _ s => Idle s) (fun _ => True) (fun _ _ => trivial) (fun busy => absurd rfl busy)
    fun _ _ _ _ _ idle _ ran => (step_moves ran).idle idle

theorem Moves.byValue_iff (moves : Moves s a s' out) (idle : Idle s) (sofar : AllByValue trace s) :
    AllByValue (trace ++ out) s' ↔ Clean s a := by
  have newOnly : AllByValue (trace ++ out) s' ↔ ∀ t ∈ out, t.ByValue := by
    simp only [AllByValue, List.mem_append, or_imp, forall_and]
    exact and_iff_right sofar
  rw [newOnly]
  cases moves with
  | arrive m => simp [Clean]
  | call stack entered resting => simp [Clean]
  | treat busy next read =>
    have treated := SubRun.byValue_iff (idle (by simp [busy])) read
    simp only [List.mem_singleton, forall_eq, treated, Clean, busy, next, Option.some.injEq, List.cons.injEq]
    constructor
    · rintro untainted _ _ _ rfl ⟨rfl, rfl⟩
      exact untainted
    · exact fun clean => clean _ _ _ rfl ⟨rfl, rfl⟩
  | leave now sub empty => simp [Clean, empty]
  | sweepStart reg free => simp [Clean]
  | visit now reg free => simp [Clean]

/-- **By value, and when.** In every run of the SUB reader, whatever arrives and
whatever its buffer holds, every message is treated by its own value if and only
if none is tainted by what was left in the buffer. -/
theorem messages_by_value_iff (acts : List Act) : machine.Always AllByValue acts ↔ machine.EveryStep Clean acts := by
  apply Machine.always_iff_everyStep (fun _ s => Idle s) AllByValue Clean (fun _ => True) (fun _ _ => trivial)
  · exact fun busy => absurd rfl busy
  · simp [AllByValue]
  · exact fun tr s a s' out idle _ ran => (step_moves ran).idle idle
  · exact fun tr s a s' out idle sofar _ ran => (step_moves ran).byValue_iff idle sofar

/-- The header of a REGI message. -/
def regiHead : Envelop := { Envelop.zero with type := zmsgRegi, nBytes := Int32.ofNat sizeofApplsCtx }

/-- The message a client with this uuid and svcname registers with. -/
def regiMessage (uuid svcname : String) : Message := ⟨regiHead.bytes, [(Mgnt.record uuid svcname).bytes]⟩

/-- Its body under a header frame of no bytes. -/
def headless (uuid svcname : String) : Message := ⟨[], [(Mgnt.record uuid svcname).bytes]⟩

/-- The run of one call over two messages, up to what the second meets. -/
private theorem second_untainted (stack : Zmessage) {first : Message} (second : Message) (frames : first.rest ≠ [])
    (always : machine.Always AllByValue [.arrive first, .arrive second, .call stack, .iterate 0, .iterate 0]) :
    ∃ zmsg reg posted, zmsg.head = stack.head.store first.head ∧
      (reg, posted) = (if LooksRegi stack first ∧ first.body.length = sizeofApplsCtx then
        handleRegi 0 (Int32.ofNat sizeofApplsCtx) first.appls ⟨[], []⟩ else (⟨[], []⟩, [])) ∧
      Untainted zmsg second 0 reg := by
  have arrived : machine.Runs [.arrive first, .arrive second, .call stack]
      ⟨⟨[], [first, second]⟩, ⟨[], []⟩, some stack⟩ [] := rfl
  obtain ⟨zmsg, reg, posted, read⟩ :=
    subRead_message [] first [second] 0 stack ⟨[], []⟩
  have run := arrived.snoc (a := .iterate 0) (show step _ _ = _ by simp only [step, read]; rfl)
  have left : (InSock.iteration (fun _ => false) ⟨[], [first, second]⟩).2 = ⟨first.rest.tail, [second]⟩ := by
    simp [InSock.iteration_message]
  rw [left] at read run
  obtain ⟨zmsg', reg', posted', read'⟩ :=
    subRead_message first.rest.tail second [] 0 zmsg reg
  have run' := run.snoc (a := .iterate 0) (show step _ _ = _ by simp only [step, read']; rfl)
  have treated := always _ [] (List.append_nil _).symm _ _ run'
  have idle : reg.todo = [] := runs_idle run (by simp)
  refine ⟨zmsg, reg, posted, subRead_head read frames, subRead_ran read, (byValue_iff idle read').mp (treated _ ?_)⟩
  simp

private theorem regiMessage_looks (stack : Zmessage) (uuid svcname : String) :
    LooksRegi stack (regiMessage uuid svcname) ∧ (regiMessage uuid svcname).body.length = sizeofApplsCtx := by
  refine ⟨?_, ApplsCtx.bytes_length _⟩
  rw [LooksRegi, show stack.head.store (regiMessage uuid svcname).head = regiHead from Envelop.store_sent _ _]
  exact ⟨rfl, rfl⟩

private theorem appls_record (head : Bytes) (uuid svcname : String) :
    Message.appls ⟨head, [(Mgnt.record uuid svcname).bytes]⟩ = Mgnt.record uuid svcname :=
  ApplsCtx.ofMem_load_bytes _

set_option maxRecDepth 20000 in
/-- A REGI without a header of its own, right behind one that has one: it is
registered under the header left behind. -/
theorem messages_not_by_value : ¬ ∀ acts, machine.Always AllByValue acts := by
  intro always
  have frames : (regiMessage "a" "x").rest ≠ [] := by simp [regiMessage]
  obtain ⟨zmsg, reg, posted, head, outcome, untainted⟩ :=
    second_untainted ⟨.zero, .zero _⟩ (headless "b" "y") frames (always _)
  rw [if_pos (regiMessage_looks _ "a" "x"), regiMessage, appls_record] at outcome
  have left : zmsg.head = regiHead := head.trans (Envelop.store_sent _ _)
  rcases untainted with long | plain | sized | stored
  · exact absurd long (by decide)
  · apply plain
    rw [LooksRegi, show zmsg.head.store (headless "b" "y").head = zmsg.head from Envelop.store_nil _, left]
    exact ⟨rfl, rfl⟩
  · exact sized (ApplsCtx.bytes_length _)
  · obtain ⟨old, found, -⟩ := stored
    rw [headless, appls_record, show reg = _ from congrArg Prod.fst outcome] at found
    have absent : getElement ((Mgnt.record "b" "y").setTimestamp 0).uuidStr
        (handleRegi 0 (Int32.ofNat sizeofApplsCtx) (Mgnt.record "a" "x") ⟨[], []⟩).1.list = none := by decide
    cases absent.symm.trans found

end SubRun

end MsaBroker
