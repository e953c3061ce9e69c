import MsaBroker.Lib.Lease
import MsaBroker.PipelineSteps

/-! Ownership of message contexts over whole runs: the contexts in use are the
ones held, each context lives by the rules of a lease, and a heap block is
handed out once. -/
namespace MsaBroker
open CMemory Lease

/-- What an observation does to a context. -/
def Obs.use (r : CtxRef) (o : Obs) : Option Use :=
  match o with
  | .getMsgCtx x => if x = r then some .acquire else none
  | .freeMsgCtx x => if x = r then some .release else none
  | o => if o.ctx? = some r then some .touch else none

/-- What a trace does to a context. -/
def usesOf (r : CtxRef) (trace : List Obs) : List Use := trace.filterMap (Obs.use r)

namespace Pipeline

variable {host : Host} {p p' : Pipeline} {a : Act} {obs trace : List Obs} {r x : CtxRef} {cb : Callback}

theorem usesOf_append (trace later : List Obs) : usesOf x (trace ++ later) = usesOf x trace ++ usesOf x later :=
  List.filterMap_append

/-- To any context, a relay attempt is a touch or nothing. -/
private theorem relayAttempt_touches (host : Host) (cb : Callback) (r x : CtxRef) (ctx : MsgCtx)
    (target : Option Target) (res : SendRes) :
    ∀ u ∈ usesOf x (relayAttempt host cb r ctx target res), u = .touch ∧ cb.ctx? = some x := by
  intro u member
  obtain ⟨o, seen, used⟩ := List.mem_filterMap.mp member
  obtain ⟨t, -, rfl | ⟨uuid, rc, -, rfl⟩ | ⟨rc, rfl⟩ | ⟨rc, rfl⟩⟩ := relayAttempt_obs host seen <;>
    simpa [Obs.use, Obs.ctx?, eq_comm, and_comm] using used

/-- A callback on `r` that only touches it until its last observation. -/
private theorem track_callback {llist : List (Element ZsockCtx)} {ctx : MsgCtx} {target : Option Target}
    {res : SendRes} (uses : cb.ctx? = some r) (last : List Obs) (x : CtxRef) (live : Bool)
    (held : x = r → live = true) :
    track live (usesOf x (.callback cb llist res :: (relayAttempt host cb r ctx target res ++ last))) =
      track live (usesOf x last) := by
  have touches := relayAttempt_touches host cb r x ctx target res
  by_cases same : x = r
  · subst same
    obtain rfl := held rfl
    have started : usesOf x (.callback cb llist res :: (relayAttempt host cb x ctx target res ++ last)) =
        .touch :: usesOf x (relayAttempt host cb x ctx target res) ++ usesOf x last := by
      simp [usesOf, Obs.use, Obs.ctx?, uses]
    rw [started, List.cons_append]
    simp only [track, ↓reduceIte]
    rw [track_append, track_touches fun u member => (touches u member).1]
    rfl
  · have none : usesOf x (relayAttempt host cb r ctx target res) = [] := by
      refine List.eq_nil_iff_forall_not_mem.mpr fun u member => same ?_
      have ctx := (touches u member).2
      rw [uses] at ctx
      exact (Option.some.inj ctx).symm
    have started : usesOf x (.callback cb llist res :: (relayAttempt host cb r ctx target res ++ last)) =
        usesOf x (relayAttempt host cb r ctx target res) ++ usesOf x last := by
      simp [usesOf, Obs.use, Obs.ctx?, uses, Ne.symm same]
    rw [started, none]
    rfl

private theorem track_free {pool : Pool} (ok : pool.Ok) (live : pool.live r = true) (x : CtxRef) :
    track (pool.live x) (usesOf x [.freeMsgCtx r]) = some ((freeMsgCtx r pool).live x) := by
  obtain ⟨-, dead, others⟩ := freeMsgCtx_spec ok live
  by_cases same : x = r
  · subst same
    simp [usesOf, Obs.use, track, live, dead]
  · simp [usesOf, Obs.use, track, Ne.symm same, (others x same).1]

/-- Every move uses every context in order, and leaves live what it left in use. -/
theorem Moves.tracked (moves : Moves host trace p a p' obs) (inv : p.Inv trace) (x : CtxRef) :
    track (p.pool.live x) (usesOf x obs) = some (p'.pool.live x) := by
  cases moves with
  | arrive m => rfl
  | prepare idle =>
    obtain ⟨-, before, after, -, others⟩ := getMsgCtx_spec inv.pool
    by_cases same : x = (getMsgCtx p.pool).1
    · subst same
      simp [usesOf, Obs.use, track, before, after]
    · simp [usesOf, Obs.use, track, Ne.symm same, (others x same).1]
  | empty held nothing => exact track_free inv.pool (inv.recv_alone held).1 x
  | @refuse r m code queue more held next failed =>
    have live := (inv.recv_alone held).1
    simp only [Pipeline.refused, Pipeline.taken]
    rw [Pool.write_contents_live _ _ live]
    by_cases same : r = x
    · subst same
      simp [usesOf, Obs.use, Obs.ctx?, track, live]
    · simp [usesOf, Obs.use, Obs.ctx?, track, same]
  | @accept r m queue more held next passed =>
    have live := (inv.recv_alone held).1
    simp only [Pipeline.eventBaseOnce, Pipeline.taken]
    rw [Pool.write_contents_live _ _ live]
    by_cases same : r = x
    · subst same
      simp [usesOf, Obs.use, Obs.ctx?, track, live]
    · simp [usesOf, Obs.use, Obs.ctx?, track, same]
  | post n => rfl
  | take idle next => rfl
  | @relay r i m old res running received passed head buffer verdict =>
    have live := (inv.send_alone running rfl).1
    rw [track_callback rfl _ _ _ fun same => same ▸ live]
    have freed := track_free inv.pool live x
    by_cases same : r = x
    · subst same
      simpa [usesOf, Obs.use, Obs.ctx?, track, live] using freed
    · simpa [usesOf, Obs.use, Obs.ctx?, track, same] using freed
  | @relayFail r i m old res code running received passed head buffer verdict failed =>
    have live := (inv.send_alone running rfl).1
    rw [track_callback rfl _ _ _ fun same => same ▸ live]
    simp only [Pipeline.refused]
    rw [Pool.write_contents_live _ _ live]
    by_cases same : r = x
    · subst same
      simp [usesOf, Obs.use, Obs.ctx?, track, live]
    · simp [usesOf, Obs.use, Obs.ctx?, track, same]
  | reply running carried router =>
    have live := (inv.send_alone running rfl).1
    rw [track_callback rfl _ _ _ fun same => same ▸ live]
    exact track_free inv.pool live x
  | create running => simp [usesOf, Obs.use, Obs.ctx?, Callback.ctx?, track, evsockPushCreate]
  | remove running => simp [usesOf, Obs.use, Obs.ctx?, Callback.ctx?, track, evsockPushRemove]

theorem runs_tracked {acts : List Act} (run : (machine host).Runs acts p trace) (x : CtxRef) :
    track false (usesOf x trace) = some (p.pool.live x) := by
  apply runs_invariant (fun tr p => track false (usesOf x tr) = some (p.pool.live x)) run
  · exact congrArg some (Pool.init_live x).symm
  · intro tr p a p' obs inv tracked moves
    rw [usesOf_append, track_append, tracked]
    exact moves.tracked inv x

private theorem callback_acquires {llist : List (Element ZsockCtx)} {ctx : MsgCtx} {target : Option Target}
    {res : SendRes} {last : List Obs} (rest : .acquire ∉ usesOf x last) :
    .acquire ∉ usesOf x (.callback cb llist res :: (relayAttempt host cb r ctx target res ++ last)) := by
  rw [← List.singleton_append, usesOf_append, usesOf_append]
  simp only [List.mem_append, not_or]
  refine ⟨?_, fun member => ?_, rest⟩
  · simp [usesOf, Obs.use]
  · have touched := (relayAttempt_touches host cb r x ctx target res _ member).1
    cases touched

/-- Only the start of a RECV iteration obtains a context. -/
theorem Moves.acquires (moves : Moves host trace p a p' obs) (member : .acquire ∈ usesOf x obs) :
    obs = [.getMsgCtx (getMsgCtx p.pool).1] ∧ p'.pool = (getMsgCtx p.pool).2 := by
  cases moves with
  | prepare idle => exact ⟨rfl, rfl⟩
  | relay => exact absurd member (callback_acquires (by simp [usesOf, Obs.use]))
  | relayFail => exact absurd member (callback_acquires (by simp [usesOf, Obs.use]))
  | reply => exact absurd member (callback_acquires (by simp [usesOf, Obs.use]))
  | _ => simp [usesOf, Obs.use] at member

theorem Moves.nextBlock (moves : Moves host trace p a p' obs) : p.pool.nextBlock ≤ p'.pool.nextBlock := by
  cases moves with
  | prepare idle => exact getMsgCtx_nextBlock.1
  | @refuse r => cases r <;> exact Nat.le_refl _
  | @accept r => cases r <;> exact Nat.le_refl _
  | @relayFail r => cases r <;> exact Nat.le_refl _
  | empty => simp
  | relay => simp
  | reply => simp
  | _ => exact Nat.le_refl _

/-- A heap block is obtained at most once. -/
theorem runs_blocks {acts : List Act} (run : (machine host).Runs acts p trace) (block : Nat) :
    (usesOf (.temp block) trace).count .acquire ≤ if block < p.pool.nextBlock then 1 else 0 := by
  apply runs_invariant
    (fun tr p => (usesOf (.temp block) tr).count .acquire ≤ if block < p.pool.nextBlock then 1 else 0) run
    (by simp [usesOf])
  intro tr p a p' obs inv once moves
  rw [usesOf_append, List.count_append]
  have grows := moves.nextBlock
  by_cases obtained : .acquire ∈ usesOf (.temp block) obs
  · obtain ⟨rfl, pool⟩ := moves.acquires obtained
    have first : (getMsgCtx p.pool).1 = .temp block := by
      by_contra other
      simp [usesOf, Obs.use, other] at obtained
    obtain ⟨rfl, next⟩ := getMsgCtx_nextBlock.2 block first
    have one : (usesOf (.temp p.pool.nextBlock) [.getMsgCtx (getMsgCtx p.pool).1]).count .acquire = 1 := by
      simp [usesOf, Obs.use, first]
    rw [one, pool, if_pos next]
    simpa using once
  · rw [List.count_eq_zero_of_not_mem obtained, Nat.add_zero]
    refine Nat.le_trans once ?_
    split <;> split <;> omega

/-- **Contexts are owned one to one, for whole runs.** What is in use is what is
held, by one holder each; every context obtained is released once and left alone
until it is obtained again; once nothing is pending everything is back; and the
ROUTER entry, which an error reply needs to release its context, is always
there. -/
theorem ctx_ownership {acts : List Act} (run : (machine host).Runs acts p trace) :
    (∀ pos : Int, 0 ≤ pos → pos < maxMsgctxNum →
      ((p.pool.slot pos).occupied = true ↔ .slot pos ∈ p.refs)) ∧
    (∀ pos : Int, .slot pos ∈ p.refs → 0 ≤ pos ∧ pos < maxMsgctxNum) ∧
    (∀ block, (p.pool.temp block).isSome = true ↔ .temp block ∈ p.refs) ∧
    p.refs.Nodup ∧
    (∀ r, track false (usesOf r trace) = some (decide (r ∈ p.refs)) ∧
      (usesOf r trace).count .acquire =
        (usesOf r trace).count .release + (if r ∈ p.refs then 1 else 0) ∧
      ∀ before u after, usesOf r trace = before ++ .release :: u :: after → u = .acquire) ∧
    (∀ block, (usesOf (.temp block) trace).count .acquire ≤ 1) ∧
    (p.recv = none → p.pending = [] →
      (∀ pos : Int, 0 ≤ pos → pos < maxMsgctxNum → (p.pool.slot pos).occupied = false) ∧
        ∀ block, p.pool.temp block = none) ∧
    (∃ elem, getElement (ascii "ROUTER") p.zsockLlist = some elem ∧ elem.data.type = .router) ∧
    (∀ r i res p' obs, p.send = some (.routerErrReply r i) →
      step host p (.sendRun res) = some (p', obs) → .freeMsgCtx r ∈ obs) := by
  have inv := runs_inv run
  have held (r : CtxRef) : p.pool.live r = true ↔ r ∈ p.refs := by
    rw [← List.count_pos_iff, inv.owned r]
    cases p.pool.live r <;> simp
  have slots (pos : Int) (low : 0 ≤ pos) (high : pos < maxMsgctxNum) :
      (p.pool.slot pos).occupied = true ↔ .slot pos ∈ p.refs := by
    rw [← held]
    simp [Pool.live, low, high]
  have tracked (r : CtxRef) : track false (usesOf r trace) = some (decide (r ∈ p.refs)) := by
    rw [runs_tracked run r, Option.some.injEq, Bool.eq_iff_iff, held, decide_eq_true_eq]
  refine ⟨slots, fun pos member => ?_, fun block => held (.temp block), ?_,
    fun r => ⟨tracked r, ?_, fun before u after split => ?_⟩, fun block => ?_, fun idle done => ?_, inv.router, fun r i res p' obs running step => ?_⟩
  · have live := (held _).mpr member
    simp only [Pool.live, Bool.and_eq_true, decide_eq_true_eq] at live
    exact live.1
  · refine List.nodup_iff_count_le_one.mpr fun r => ?_
    rw [inv.owned r]
    exact Bool.toNat_le _
  · have balanced := track_count (tracked r)
    by_cases member : r ∈ p.refs <;> simpa [member] using balanced
  · exact track_after_release (split ▸ tracked r)
  · refine Nat.le_trans (runs_blocks run block) ?_
    split <;> omega
  · have nothing : p.refs = [] := by simp [refs, idle, done]
    refine ⟨fun pos low high => ?_, fun block => ?_⟩
    · have free := slots pos low high
      simpa [nothing] using free
    · have free := held (.temp block)
      simpa [nothing, Pool.live] using free
  · cases inv.step_moves step with
    | relay other => simp [running] at other
    | relayFail other => simp [running] at other
    | reply same =>
      obtain ⟨rfl, rfl⟩ : r = _ ∧ i = _ := by simpa [running] using same
      simp
    | create other => simp [running] at other
    | remove other => simp [running] at other

/-- A message without a body, refused, answered and given back. -/
theorem ctx_ownership_refused : ∃ p trace,
    (machine .bare).Runs
      [.arrive ⟨[1, 0, 0, 0], []⟩, .recvPrepare, .recvProcess, .sendTake, .sendRun ⟨0, 0, 0⟩] p trace ∧
    usesOf (.slot 0) trace = [.acquire, .touch, .touch, .touch, .touch, .touch, .touch, .touch, .release] ∧
    p.refs.Nodup ∧ ∀ pos : Int, 0 ≤ pos → pos < maxMsgctxNum → (p.pool.slot pos).occupied = false :=
  have run : (machine .bare).Runs
      [.arrive ⟨[1, 0, 0, 0], []⟩, .recvPrepare, .recvProcess, .sendTake, .sendRun ⟨0, 0, 0⟩] _ _ := rfl
  ⟨_, _, run, rfl, (ctx_ownership run).2.2.2.1, ((ctx_ownership run).2.2.2.2.2.2.1 rfl rfl).1⟩

end Pipeline

end MsaBroker
