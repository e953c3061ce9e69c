import MsaBroker.PipelineSteps

/-! Which context `get_msg_ctx` hands out. The assignment to `CURR_POS` is no
remainder: it is one more than the id, so one past the array after its last
cell, and 0 after a temporary context. The search reduces it, and so starts
behind the context issued last and comes to every cell once. -/
namespace MsaBroker.CtxCursor
open CMemory

/-! ## The calls -/

structure State where
  pool : Pool
  /-- The contexts issued and not given back. -/
  held : List CtxRef

inductive Act
  | getMsgCtx
  /-- The holder of a context writes its header and its buffer. -/
  | fill (r : CtxRef) (head : Envelop) (buffer : Buf maxMsgsizeByte)
  | freeMsgCtx (r : CtxRef)

/-- One call, or one use of a context in between; only contexts issued and not
given back are used or given back. The observation is the context issued. -/
def step (s : State) : Act → Option (State × List CtxRef)
  | .getMsgCtx => some (⟨(getMsgCtx s.pool).2, (getMsgCtx s.pool).1 :: s.held⟩, [(getMsgCtx s.pool).1])
  | .fill r head buffer =>
    if r ∈ s.held then
      some (⟨s.pool.write r { s.pool.read r with head := head, buffer := buffer }, s.held⟩, [])
    else none
  | .freeMsgCtx r => if r ∈ s.held then some (⟨freeMsgCtx r s.pool, s.held.erase r⟩, []) else none

/-- From the pool as `initialize_main` prepares it. -/
def machine : Machine State Act CtxRef := ⟨⟨.init, []⟩, step⟩

/-- The indices the search loop of `get_msg_ctx` reads. -/
def examined (p : Pool) (i : Nat) : Nat → List Int
  | 0 => []
  | left + 1 =>
    let pos := (p.currPos + i).tmod maxMsgctxNum
    pos :: if (p.slot pos).occupied = false then [] else examined p (i + 1) left

/-! ## What is to be issued -/

/-- Behind the context issued last; at the first cell after a temporary context
and before any. -/
def searchStart : Option CtxRef → Int
  | some (.slot id) => (id + 1) % maxMsgctxNum
  | some (.temp _) | none => 0

/-- The first empty cell in cyclic order from `start`. -/
def FirstEmpty (p : Pool) (start pos : Int) : Prop :=
  ∃ k < maxMsgctxNum, pos = (start + k) % maxMsgctxNum ∧ (p.slot pos).occupied = false ∧
    ∀ j < k, (p.slot ((start + j) % maxMsgctxNum)).occupied = true

/-- What a call of `get_msg_ctx` must do where the search is to start there. -/
structure Issues (start : Int) (before : Pool) (r : CtxRef) (after : Pool) : Prop where
  /-- The search stays in the array. -/
  inside : ∀ pos ∈ examined before 0 maxMsgctxNum, 0 ≤ pos ∧ pos < maxMsgctxNum
  slot : ∀ pos, r = .slot pos ↔ FirstEmpty before start pos
  temp : (∃ block, r = .temp block) ↔
    ∀ pos : Int, 0 ≤ pos → pos < maxMsgctxNum → (before.slot pos).occupied = true
  occupied : (after.read r).occupied = true
  cleared : (after.read r).head = .zero
  /-- Every other context is as it was. -/
  others : ∀ x, x ≠ r → after.read x = before.read x

/-! ## The search -/

variable {p : Pool} {r : CtxRef} {pos start : Int} {i left : Nat}

theorem examined_inside (cursor : 0 ≤ p.currPos) (member : pos ∈ examined p i left) :
    0 ≤ pos ∧ pos < maxMsgctxNum := by
  induction left generalizing i with
  | zero => simp [examined] at member
  | succ left ih =>
    simp only [examined, List.mem_cons] at member
    rcases member with rfl | later
    · have start : 0 ≤ p.currPos + i := by omega
      exact ⟨Int.tmod_nonneg _ start, Int.tmod_lt_of_pos _ (by decide)⟩
    · split at later
      · simp at later
      · exact ih later

/-- The search finds the first of the cells examined that is empty. -/
theorem emptySlot_eq_find : emptySlot p i left = (examined p i left).find? fun pos => !(p.slot pos).occupied := by
  induction left generalizing i with
  | zero => rfl
  | succ left ih =>
    simp only [emptySlot, examined]
    split
    · rename_i empty
      simp [empty]
    · rename_i full
      simp [full, ih]

/-- Cyclic order from the cursor is cyclic order from where it is in the array. -/
private theorem cyclic (atStart : p.currPos % maxMsgctxNum = start) (k : Nat) :
    (p.currPos + (0 + k : Nat)) % maxMsgctxNum = (start + k) % maxMsgctxNum := by
  rw [← atStart, Int.emod_add_emod, Nat.zero_add]

theorem FirstEmpty.unique {pos' : Int} (one : FirstEmpty p start pos) (two : FirstEmpty p start pos') :
    pos = pos' := by
  obtain ⟨k, -, rfl, empty, before⟩ := one
  obtain ⟨k', -, rfl, empty', before'⟩ := two
  rcases Nat.lt_trichotomy k k' with less | rfl | more
  · rw [before' k less] at empty
    cases empty
  · rfl
  · rw [before k' more] at empty'
    cases empty'

/-- Cyclic order comes to every cell. -/
private theorem reaches (start : Int) (low : 0 ≤ pos) (high : pos < maxMsgctxNum) :
    ∃ k < maxMsgctxNum, (start + (k : Nat)) % maxMsgctxNum = pos := by
  have size : (0 : Int) < maxMsgctxNum := by decide
  have low' := Int.emod_nonneg (pos - start) (Int.ne_of_gt size)
  have high' := Int.emod_lt_of_pos (pos - start) size
  refine ⟨((pos - start) % maxMsgctxNum).toNat, by omega, ?_⟩
  have whole : start + (pos - start) = pos := by omega
  rw [Int.toNat_of_nonneg low', Int.add_emod_emod, whole, Int.emod_eq_of_lt low high]

/-- With an empty cell anywhere, there is a first one. -/
theorem emptySlot_eq_some (cursor : 0 ≤ p.currPos) (atStart : p.currPos % maxMsgctxNum = start) :
    emptySlot p 0 maxMsgctxNum = some pos ↔ FirstEmpty p start pos := by
  have finds : ∀ pos, emptySlot p 0 maxMsgctxNum = some pos → FirstEmpty p start pos := by
    intro pos found
    rcases @emptySlot_cases p 0 maxMsgctxNum cursor with ⟨nothing, -⟩ | ⟨k, inside, found', empty, before⟩
    · rw [nothing] at found
      cases found
    · rw [found'] at found
      cases found
      refine ⟨k, inside, cyclic atStart k, empty, fun j less => ?_⟩
      rw [← cyclic atStart]
      exact before j less
  refine ⟨finds pos, fun first => ?_⟩
  cases found : emptySlot p 0 maxMsgctxNum with
  | some other => rw [(finds other found).unique first]
  | none =>
    rcases @emptySlot_cases p 0 maxMsgctxNum cursor with ⟨-, full⟩ | ⟨k, -, found', -⟩
    · obtain ⟨k, inside, rfl, empty, -⟩ := first
      rw [← cyclic atStart, full k inside] at empty
      cases empty
    · rw [found'] at found
      cases found

/-- The search fails exactly on a full array. -/
theorem emptySlot_eq_none (cursor : 0 ≤ p.currPos) :
    emptySlot p 0 maxMsgctxNum = none ↔
      ∀ pos : Int, 0 ≤ pos → pos < maxMsgctxNum → (p.slot pos).occupied = true := by
  rcases @emptySlot_cases p 0 maxMsgctxNum cursor with ⟨nothing, full⟩ | ⟨k, inside, found, empty, -⟩
  · refine iff_of_true nothing fun pos low high => ?_
    obtain ⟨k, inside, rfl⟩ := reaches p.currPos low high
    simpa using full k inside
  · refine iff_of_false (by simp [found]) fun full => ?_
    have size : (0 : Int) < maxMsgctxNum := by decide
    rw [full _ (Int.emod_nonneg _ (Int.ne_of_gt size)) (Int.emod_lt_of_pos _ size)] at empty
    cases empty

/-- `get_msg_ctx` with its cursor there. -/
theorem getMsgCtx_issues (ok : p.Ok) (atStart : p.currPos % maxMsgctxNum = start) :
    Issues start p (getMsgCtx p).1 (getMsgCtx p).2 := by
  obtain ⟨-, -, -, cleared, others⟩ := getMsgCtx_spec ok
  have issued : ∀ pos, (getMsgCtx p).1 = .slot pos ↔ emptySlot p 0 maxMsgctxNum = some pos := by
    intro pos
    unfold getMsgCtx
    split
    · rename_i found
      simp [found]
    · rename_i nothing
      simp [nothing]
  have temporary : (∃ block, (getMsgCtx p).1 = .temp block) ↔ emptySlot p 0 maxMsgctxNum = none := by
    unfold getMsgCtx
    split
    · rename_i found
      simp [found]
    · rename_i nothing
      simp [nothing]
  have occupied : ((getMsgCtx p).2.read (getMsgCtx p).1).occupied = true := by
    unfold getMsgCtx
    split <;> simp [Pool.read, Pool.write]
  exact {
    inside := fun pos => examined_inside ok.cursor
    slot := fun pos => (issued pos).trans (emptySlot_eq_some ok.cursor atStart)
    temp := temporary.trans (emptySlot_eq_none ok.cursor)
    occupied := occupied
    cleared := cleared
    others := fun x other => (others x other).2 }

/-! ## The cursor over a run -/

theorem getMsgCtx_currPos (ok : p.Ok) : (getMsgCtx p).2.currPos % maxMsgctxNum = searchStart (some (getMsgCtx p).1) ∧
    (getMsgCtx p).2.currPos ≤ maxMsgctxNum := by
  have one : Int.tmod 1 maxMsgctxNum = 1 := by decide
  unfold getMsgCtx
  split
  · rename_i pos found
    obtain ⟨⟨-, high⟩, -⟩ := emptySlot_some ok.cursor found
    simp only [ok.cells, one]
    exact ⟨rfl, high⟩
  · have first : -1 + Int.tmod 1 maxMsgctxNum = 0 := by decide
    simp only [first]
    exact ⟨rfl, by decide⟩

@[simp] theorem freeMsgCtx_currPos : (freeMsgCtx r p).currPos = p.currPos := by
  unfold freeMsgCtx
  split <;> cases r <;> rfl

@[simp] theorem write_currPos {c : MsgCtx} : (p.write r c).currPos = p.currPos := by
  cases r <;> rfl

variable {s t : State} {a : Act} {acts : List Act} {trace out : List CtxRef}

/-- What every state of a run satisfies, after these were issued. -/
structure Inv (trace : List CtxRef) (s : State) : Prop where
  ok : s.pool.Ok
  nodup : s.held.Nodup
  live : ∀ r ∈ s.held, s.pool.live r = true
  atStart : s.pool.currPos % maxMsgctxNum = searchStart trace.getLast?
  bound : s.pool.currPos ≤ maxMsgctxNum

theorem Inv.step (inv : Inv trace s) (step : CtxCursor.step s a = some (t, out)) : Inv (trace ++ out) t := by
  obtain ⟨ok, nodup, live, atStart, bound⟩ := inv
  cases a with
  | getMsgCtx =>
    cases step
    obtain ⟨ok', free, taken, -, others⟩ := getMsgCtx_spec ok
    obtain ⟨atStart', bound'⟩ := getMsgCtx_currPos ok
    have fresh : (getMsgCtx s.pool).1 ∉ s.held := by
      intro held
      rw [live _ held] at free
      cases free
    refine ⟨ok', List.nodup_cons.mpr ⟨fresh, nodup⟩, fun r member => ?_, by simpa using atStart', bound'⟩
    rcases List.mem_cons.mp member with rfl | held
    · exact taken
    · have other : r ≠ (getMsgCtx s.pool).1 := fun same => fresh (same ▸ held)
      rw [(others r other).1]
      exact live r held
  | fill r head buffer =>
    obtain ⟨held, same⟩ : r ∈ s.held ∧ _ := Option.ite_none_right_eq_some.mp step
    cases same
    have alive := live r held
    refine ⟨ok.write alive rfl, nodup, fun x member => ?_, by simpa using atStart, by simpa using bound⟩
    rw [Pool.write_contents_live head buffer alive]
    exact live x member
  | freeMsgCtx r =>
    obtain ⟨held, same⟩ : r ∈ s.held ∧ _ := Option.ite_none_right_eq_some.mp step
    cases same
    obtain ⟨ok', -, others⟩ := freeMsgCtx_spec ok (live r held)
    refine ⟨ok', nodup.erase r, fun x member => ?_, by simpa using atStart, by simpa using bound⟩
    obtain ⟨other, stillHeld⟩ := nodup.mem_erase_iff.mp member
    rw [(others x other).1]
    exact live x stillHeld

theorem runs_inv (run : machine.Runs acts s trace) : Inv trace s := by
  refine run.invariant Inv (fun _ => True) (fun _ _ => trivial) ?_ fun _ _ _ _ _ inv _ step => inv.step step
  exact ⟨Pool.init_ok, .nil, by simp [machine], rfl, by decide⟩

/-- **`get_msg_ctx` takes turns.** Whatever was issued, used and given back, the
next call searches the array and nothing else, and issues the first empty cell
behind the one issued last, or a temporary context when there is no empty cell. -/
theorem get_msg_ctx_cyclic (run : machine.Runs acts s trace) :
    ∃ r t, step s .getMsgCtx = some (t, [r]) ∧ Issues (searchStart trace.getLast?) s.pool r t.pool := by
  have inv := runs_inv run
  exact ⟨_, _, rfl, getMsgCtx_issues inv.ok inv.atStart⟩

/-- The first cell was issued and given back; the search goes on behind it. -/
theorem get_msg_ctx_cyclic_second : ∃ s r t, machine.Runs [.getMsgCtx, .freeMsgCtx (.slot 0)] s [.slot 0] ∧
    step s .getMsgCtx = some (t, [r]) ∧ Issues 1 s.pool r t.pool := by
  have run : machine.Runs [.getMsgCtx, .freeMsgCtx (.slot 0)]
    ⟨freeMsgCtx (.slot 0) (getMsgCtx .init).2, []⟩ [.slot 0] := rfl
  obtain ⟨r, t, issued, issues⟩ := get_msg_ctx_cyclic run
  exact ⟨_, r, t, run, issued, issues⟩

/-! ## In the broker -/

section Broker
variable {host : Host} {p p' : Pipeline} {a : Pipeline.Act} {acts : List Pipeline.Act} {trace obs : List Obs}

/-- The context an observation says RECV was issued. -/
def issued? : Obs → Option CtxRef
  | .getMsgCtx r => some r
  | _ => none

@[simp] private theorem issued_attempt (cb : Callback) (r : CtxRef) (ctx : MsgCtx) (target : Option Target)
    (res : SendRes) : (relayAttempt host cb r ctx target res).filterMap issued? = [] :=
  filterMap_attempt host _ (fun o attempt => by cases o <;> first | rfl | cases attempt) ..

/-- Only `get_msg_ctx` moves the cursor. -/
theorem moves_currPos (moves : Pipeline.Moves host trace p a p' obs) :
    (obs.filterMap issued? = [] ∧ p'.pool.currPos = p.pool.currPos) ∨
      (obs.filterMap issued? = [(getMsgCtx p.pool).1] ∧ p'.pool = (getMsgCtx p.pool).2) := by
  cases moves with
  | prepare idle => exact .inr ⟨rfl, rfl⟩
  | refuse => exact .inl ⟨rfl, by simp [Pipeline.refused, Pipeline.taken]⟩
  | accept => exact .inl ⟨rfl, by simp [Pipeline.eventBaseOnce, Pipeline.taken]⟩
  | relay => exact .inl ⟨by simp [issued?, List.filterMap_cons], by simp⟩
  | relayFail => exact .inl ⟨by simp [issued?, List.filterMap_cons], by simp [Pipeline.refused]⟩
  | reply => exact .inl ⟨by simp [issued?, List.filterMap_cons], by simp⟩
  | _ => exact .inl ⟨rfl, by simp [Pipeline.eventBaseOnce, evsockPushCreate, evsockPushRemove]⟩

/-- RECV is issued contexts in turn, whatever SEND does meanwhile. -/
theorem pipeline_cyclic (run : (Pipeline.machine host).Runs acts p trace) :
    Issues (searchStart (trace.filterMap issued?).getLast?) p.pool (getMsgCtx p.pool).1 (getMsgCtx p.pool).2 := by
  have atStart : p.pool.currPos % maxMsgctxNum = searchStart (trace.filterMap issued?).getLast? := by
    apply Pipeline.runs_invariant
      (fun tr p => p.pool.currPos % maxMsgctxNum = searchStart (tr.filterMap issued?).getLast?) run rfl
    intro tr p a p' obs inv atStart moves
    rw [List.filterMap_append]
    rcases moves_currPos moves with ⟨nothing, same⟩ | ⟨one, taken⟩
    · rw [nothing, List.append_nil, same]
      exact atStart
    · rw [one, taken, List.getLast?_concat]
      exact (getMsgCtx_currPos inv.pool).1
  exact getMsgCtx_issues (Pipeline.runs_inv run).pool atStart

end Broker

end MsaBroker.CtxCursor
