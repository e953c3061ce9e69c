import MsaBroker.Pipeline
import MsaBroker.Verdict
import MsaBroker.ZsockList

/-! Everything a step of the pipeline can do, said once. `Moves` lists the
outcomes with the states they lead to; under the invariant every enabled step
is one of them, and the invariant survives each. The invariant ties each
pending event to the context it owns and to the message that context carries. -/
namespace MsaBroker
open CMemory

/-- What a pending callback may assume about its context: it carries one of the
messages received, under the header and with the body RECV or an earlier
callback left there. A reply's reason was counted. -/
inductive Carries (pool : Pool) (seen : List Message) (trace : List Obs) : Callback → Prop
  | relay {r : CtxRef} {i : Nat} {m : Message} (old : Buf maxMsgsizeByte)
      (received : seen[i]? = some m) (passed : firstCheck m = none)
      (head : (pool.read r).head = m.header) (buffer : (pool.read r).buffer = bufferAfter m .ok old) :
      Carries pool seen trace (.pushRelay r i)
  | reply {r : CtxRef} {i : Nat} {m : Message} {code : ZmsgResp} (old : Buf maxMsgsizeByte)
      (received : seen[i]? = some m) (refuses : m.Refuses code) (counted : .errMsgReply r i code ∈ trace)
      (head : (pool.read r).head = replyHead m code)
      (buffer : (pool.read r).buffer = bufferAfter m code old) : Carries pool seen trace (.routerErrReply r i)
  | create (appls : ApplsCtx) : Carries pool seen trace (.pushCreate appls)
  | remove (appls : ApplsCtx) : Carries pool seen trace (.pushRemove appls)

/-- A message received keeps its number. -/
theorem getElem?_later {seen later : List Message} {m : Message} {i : Nat} (received : seen[i]? = some m) :
    (seen ++ later)[i]? = some m := by
  obtain ⟨within, -⟩ := List.getElem?_eq_some_iff.mp received
  rw [List.getElem?_append_left within, received]

/-- A callback is not concerned with other contexts, nor with messages received
later. -/
theorem Carries.frame {pool pool' : Pool} {seen : List Message} {trace : List Obs} {cb : Callback}
    (later : List Message) (obs : List Obs) (carried : Carries pool seen trace cb)
    (same : ∀ r, cb.ctx? = some r → pool'.read r = pool.read r) :
    Carries pool' (seen ++ later) (trace ++ obs) cb := by
  cases carried with
  | relay old received passed head buffer =>
    rw [← same _ rfl] at head buffer
    exact .relay old (getElem?_later received) passed head buffer
  | reply old received refuses counted head buffer =>
    rw [← same _ rfl] at head buffer
    exact .reply old (getElem?_later received) refuses (List.mem_append_left _ counted) head buffer
  | create appls => exact .create appls
  | remove appls => exact .remove appls

namespace Pipeline

variable {host : Host} {p p' : Pipeline} {a : Act} {obs trace : List Obs} {r x : CtxRef} {i : Nat}
  {cb : Callback}

/-- The callbacks not finished: the one SEND is running, then its queue. -/
def pending (p : Pipeline) : List Callback := p.send.toList ++ p.evbase

/-- The contexts held by the RECV iteration in progress and by the callbacks not
finished. -/
def refs (p : Pipeline) : List CtxRef := p.recv.toList ++ p.pending.filterMap Callback.ctx?

/-- The string `evsock_push_relay` looks up for message `m`. -/
def destOf (host : Host) (r : CtxRef) (m : Message) : Bytes := m.header.destStr (host.afterHead r)

/-- The steps the pipeline takes under its invariant, after this trace. -/
inductive Moves (host : Host) (trace : List Obs) (p : Pipeline) : Act → Pipeline → List Obs → Prop
  | arrive (m : Message) : Moves host trace p (.arrive m) { p with pull := p.pull.arrive m } []
  | prepare (idle : p.recv = none) :
      Moves host trace p .recvPrepare
        { p with
          pull := ⟨[], p.pull.queue⟩, pool := (getMsgCtx p.pool).2, recv := some (getMsgCtx p.pool).1 }
        [.getMsgCtx (getMsgCtx p.pool).1]
  | empty {r : CtxRef} (held : p.recv = some r) (nothing : p.pull.queue = []) :
      Moves host trace p .recvProcess { p with pool := freeMsgCtx r p.pool, recv := none } [.freeMsgCtx r]
  | refuse {r : CtxRef} {m : Message} {code : ZmsgResp} {queue : List Message} (more : List Bytes)
      (held : p.recv = some r) (next : p.pull.queue = m :: queue) (failed : firstCheck m = some code) :
      Moves host trace p .recvProcess
        { (p.taken r m ⟨more, queue⟩ (replyHead m code)
            (bufferAfter m code (p.pool.read r).buffer)).refused r p.seen.length code with recv := none }
        [.received r p.seen.length, .errMsgReply r p.seen.length code]
  | accept {r : CtxRef} {m : Message} {queue : List Message} (more : List Bytes)
      (held : p.recv = some r) (next : p.pull.queue = m :: queue) (passed : firstCheck m = none) :
      Moves host trace p .recvProcess
        { (p.taken r m ⟨more, queue⟩ m.header
            (bufferAfter m .ok (p.pool.read r).buffer)).eventBaseOnce (.pushRelay r p.seen.length) with
          recv := none }
        [.received r p.seen.length, .accepted r p.seen.length]
  | post (n : Notification) : Moves host trace p (.post n) (p.eventBaseOnce n.callback) []
  | take {cb : Callback} {evbase : List Callback} (idle : p.send = none)
      (next : p.evbase = cb :: evbase) :
      Moves host trace p .sendTake { p with send := some cb, evbase := evbase } []
  | relay {r : CtxRef} {i : Nat} {m : Message} {old : Buf maxMsgsizeByte} {res : SendRes}
      (running : p.send = some (.pushRelay r i))
      (received : p.seen[i]? = some m) (passed : firstCheck m = none)
      (head : (p.pool.read r).head = m.header) (buffer : (p.pool.read r).buffer = bufferAfter m .ok old)
      (verdict : relayVerdict m.header (destOf host r m) p.zsockLlist res = .ok) :
      Moves host trace p (.sendRun res)
        { (p.statInc .succ).reasonInc .ok with pool := freeMsgCtx r p.pool, send := none }
        (.callback (.pushRelay r i) p.zsockLlist res ::
          (relayAttempt host (.pushRelay r i) r (p.pool.read r)
            (relayTarget m.header (destOf host r m) p.zsockLlist) res ++
            [.relayed r i, .freeMsgCtx r]))
  | relayFail {r : CtxRef} {i : Nat} {m : Message} {old : Buf maxMsgsizeByte} {res : SendRes}
      {code : ZmsgResp} (running : p.send = some (.pushRelay r i))
      (received : p.seen[i]? = some m) (passed : firstCheck m = none)
      (head : (p.pool.read r).head = m.header) (buffer : (p.pool.read r).buffer = bufferAfter m .ok old)
      (verdict : relayVerdict m.header (destOf host r m) p.zsockLlist res = code)
      (failed : code ≠ .ok) :
      Moves host trace p (.sendRun res)
        { ({ p with pool := p.pool.write r { p.pool.read r with head := replyHead m code } }).refused r i
            code with send := none }
        (.callback (.pushRelay r i) p.zsockLlist res ::
          (relayAttempt host (.pushRelay r i) r (p.pool.read r)
            (relayTarget m.header (destOf host r m) p.zsockLlist) res ++ [.errMsgReply r i code]))
  | reply {r : CtxRef} {i : Nat} {elem : Element ZsockCtx} {res : SendRes}
      (running : p.send = some (.routerErrReply r i))
      (carried : Carries p.pool p.seen trace (.routerErrReply r i))
      (router : getElement (ascii "ROUTER") p.zsockLlist = some elem) :
      Moves host trace p (.sendRun res) { p with pool := freeMsgCtx r p.pool, send := none }
        (.callback (.routerErrReply r i) p.zsockLlist res ::
          (relayAttempt host (.routerErrReply r i) r (p.pool.read r)
            (some ⟨elem.data, some ((p.pool.read r).head.fromStr (host.afterHead r))⟩) res ++
            [.freeMsgCtx r]))
  | create {appls : ApplsCtx} {res : SendRes} (running : p.send = some (.pushCreate appls)) :
      Moves host trace p (.sendRun res) { evsockPushCreate host appls p with send := none }
        [.callback (.pushCreate appls) p.zsockLlist res]
  | remove {appls : ApplsCtx} {res : SendRes} (running : p.send = some (.pushRemove appls)) :
      Moves host trace p (.sendRun res) { evsockPushRemove appls p with send := none }
        [.callback (.pushRemove appls) p.zsockLlist res]

/-- The pipeline's invariant. Contexts are owned one to one: those in use are
those held, each by one holder. -/
structure Inv (p : Pipeline) (trace : List Obs) : Prop where
  pool : p.pool.Ok
  owned : ∀ x, p.refs.count x = (p.pool.live x).toNat
  clear : ∀ r, p.recv = some r → (p.pool.read r).head = .zero
  boundary : ∀ r, p.recv = some r → p.pull.more = []
  sorted : ElemSorted p.zsockLlist
  router : ∃ elem, getElement (ascii "ROUTER") p.zsockLlist = some elem ∧ elem.data.type = .router
  carries : ∀ cb ∈ p.pending, Carries p.pool p.seen trace cb

/-- Every enabled step is one of the moves. -/
theorem Inv.step_moves (inv : p.Inv trace) (step : Pipeline.step host p a = some (p', obs)) :
    Moves host trace p a p' obs := by
  cases a with
  | arrive m =>
    cases step
    exact .arrive m
  | recvPrepare =>
    simp only [Pipeline.step] at step
    split at step
    · cases step
    · rename_i idle
      cases step
      simp only [pullReadPrepare, zsockDrainRemainPart_eq]
      exact .prepare idle
  | recvProcess =>
    simp only [Pipeline.step] at step
    split at step
    · cases step
    · rename_i r held
      cases step
      cases queued : p.pull.queue with
      | nil =>
        have nothing : p.pull.recv = none := by simp [InSock.recv, inv.boundary r held, queued]
        rw [pullReadProcess_empty r nothing]
        exact .empty held queued
      | cons m queue =>
        obtain ⟨more, processed⟩ := pullReadProcess_message (inv.boundary r held) queued (inv.clear r held)
        rw [processed]
        cases check : firstCheck m with
        | some code => exact .refuse more held queued check
        | none => exact .accept more held queued check
  | post n =>
    cases step
    exact .post n
  | sendTake =>
    simp only [Pipeline.step] at step
    split at step
    · rename_i cb evbase idle next
      cases step
      exact .take idle next
    · cases step
  | sendRun res =>
    simp only [Pipeline.step] at step
    split at step
    · cases step
    · rename_i cb running
      cases step
      have carried := inv.carries cb (by simp [pending, running])
      cases cb with
      | pushRelay r i =>
        obtain ⟨old, received, passed, head, buffer⟩ := carried
        rename_i m
        have dest : relayDest host p r = destOf host r m := by rw [relayDest, head, destOf]
        have decided : relayVerdict (p.pool.read r).head (relayDest host p r) p.zsockLlist res =
            relayVerdict m.header (destOf host r m) p.zsockLlist res := by rw [head, dest]
        by_cases ok : relayVerdict m.header (destOf host r m) p.zsockLlist res = .ok
        · simp only [runCallback, evsockPushRelay_ok host (decided.trans ok), head, dest]
          exact .relay running received passed head buffer ok
        · have reply : relayReply m.header (relayVerdict m.header (destOf host r m) p.zsockLlist res) =
              replyHead m (relayVerdict m.header (destOf host r m) p.zsockLlist res) :=
            relayReply_header ((relayVerdict_mem ..).resolve_left ok)
          simp only [runCallback, evsockPushRelay_refused host (decided ▸ ok), head, dest, reply]
          exact .relayFail running received passed head buffer rfl ok
      | routerErrReply r i =>
        obtain ⟨elem, router, -⟩ := inv.router
        simp only [runCallback, evsockRouterErrReply, router]
        exact .reply running carried router
      | pushCreate appls => exact .create running
      | pushRemove appls => exact .remove running

/-! ## The invariant survives every move -/

/-- RECV queues a relay for a message its checks pass. -/
theorem Inv.accepts {m : Message} {queue : List Message} (inv : p.Inv trace) (host : Host) (held : p.recv = some r)
    (next : p.pull.queue = m :: queue) (passed : firstCheck m = none) :
    ∃ p', Pipeline.step host p .recvProcess =
        some (p', [.received r p.seen.length, .accepted r p.seen.length]) ∧
      p'.send = p.send ∧ p'.evbase = p.evbase ++ [.pushRelay r p.seen.length] ∧ p'.seen = p.seen ++ [m] := by
  obtain ⟨p', obs, step⟩ : ∃ p' obs, Pipeline.step host p .recvProcess = some (p', obs) := by
    simp [Pipeline.step, held]
  have moves : p.Moves host trace .recvProcess p' obs := inv.step_moves step
  cases moves with
  | empty _ nothing => simp [next] at nothing
  | refuse more _ next' failed =>
    obtain rfl : m = _ := by simpa [next] using congrArg List.head? next'
    cases passed.symm.trans failed
  | accept more held' next' _ =>
    obtain rfl : m = _ := by simpa [next] using congrArg List.head? next'
    obtain rfl : r = _ := by simpa [held] using held'
    exact ⟨_, step, rfl, rfl, rfl⟩

theorem init_inv (host : Host) : (Pipeline.init host).Inv [] where
  pool := Pool.init_ok
  owned x := by simp [refs, pending, init, initializeThread]
  clear r held := by simp [init, initializeThread] at held
  boundary r held := by simp [init, initializeThread] at held
  sorted := addZsockToList_sorted .nil
  router := by
    refine ⟨⟨ascii "ROUTER", newZsock host (ascii "ROUTER") .router ⟨0, []⟩⟩, ?_, rfl⟩
    have plain : formatText host.printfUndef (ascii "ROUTER") = ascii "ROUTER" :=
      formatText_of_plain _ (by decide)
    simp [init, initializeThread, addZsockToList, getElement, addElement, newZsock, plain,
      strcmp_eq_zero_iff]
  carries cb pending := by simp [Pipeline.pending, init, initializeThread] at pending

/-- What is held is in use. -/
theorem Inv.live_of_mem (inv : p.Inv trace) (held : x ∈ p.refs) : p.pool.live x = true := by
  have counted := inv.owned x
  have once := List.count_pos_iff.mpr held
  cases live : p.pool.live x
  · simp [live] at counted
    omega
  · rfl

theorem Inv.live_iff (inv : p.Inv trace) : p.pool.live r = true ↔ r ∈ p.refs := by
  rw [← List.count_pos_iff, inv.owned r]
  cases p.pool.live r <;> simp

theorem Inv.recv_alone (inv : p.Inv trace) (held : p.recv = some r) :
    p.pool.live r = true ∧ ∀ cb ∈ p.pending, cb.ctx? ≠ some r := by
  have counted := inv.owned r
  have live := inv.live_of_mem (x := r) (by simp [refs, held])
  simp only [refs, held, Option.toList_some, List.count_append, live, Bool.toNat_true] at counted
  refine ⟨live, fun cb pending uses => ?_⟩
  have twice : 0 < (p.pending.filterMap Callback.ctx?).count r :=
    List.count_pos_iff.mpr (List.mem_filterMap.mpr ⟨cb, pending, uses⟩)
  simp at counted
  omega

theorem Inv.send_alone (inv : p.Inv trace) (running : p.send = some cb) (ctx : cb.ctx? = some r) :
    p.pool.live r = true ∧ p.recv ≠ some r ∧ ∀ cb ∈ p.evbase, cb.ctx? ≠ some r := by
  have counted := inv.owned r
  have live := inv.live_of_mem (x := r) (by simp [refs, pending, running, ctx])
  simp [refs, pending, running, ctx, List.count_append, live] at counted
  refine ⟨live, fun held => ?_, fun other queued uses => ?_⟩
  · simp [held] at counted
  · have twice : 0 < (p.evbase.filterMap Callback.ctx?).count r :=
      List.count_pos_iff.mpr (List.mem_filterMap.mpr ⟨other, queued, uses⟩)
    omega

/-- What a callback may assume stays so while its context is left alone. -/
private theorem Inv.carries_later (inv : p.Inv trace) (queued : cb ∈ p.pending) (obs : List Obs) :
    Carries p.pool p.seen (trace ++ obs) cb := by
  simpa using (inv.carries cb queued).frame [] obs fun _ _ => rfl

/-- A holder of a context rewriting it and passing it on with a callback. -/
private theorem Inv.of_posted (inv : p.Inv trace) {c : MsgCtx} (cb : Callback) (later : List Message)
    (live : p.pool.live r = true) (pool : p'.pool = p.pool.write r c)
    (id : c.msgCtxId = (p.pool.read r).msgCtxId) (occupied : c.occupied = (p.pool.read r).occupied)
    (refs : p.refs.Perm p'.refs)
    (recv : ∀ x, p'.recv = some x → p.recv = some x ∧ x ≠ r ∧ p'.pull.more = p.pull.more)
    (pending : ∀ other ∈ p'.pending, other = cb ∨ other ∈ p.pending ∧ other.ctx? ≠ some r)
    (llist : p'.zsockLlist = p.zsockLlist) (seen : p'.seen = p.seen ++ later)
    (carried : Carries p'.pool p'.seen (trace ++ obs) cb) : p'.Inv (trace ++ obs) := by
  refine ⟨pool ▸ inv.pool.write live id, fun x => ?_, fun x held => ?_, fun x held => ?_,
    llist ▸ inv.sorted, llist ▸ inv.router, fun other queued => ?_⟩
  · rw [pool, Pool.write_live occupied live, ← inv.owned x, refs.count_eq]
  · obtain ⟨before, apart, -⟩ := recv x held
    rw [pool, Pool.read_write_ne apart]
    exact inv.clear x before
  · obtain ⟨before, -, more⟩ := recv x held
    rw [more]
    exact inv.boundary x before
  · rcases pending other queued with rfl | ⟨earlier, apart⟩
    · exact carried
    · rw [pool, seen]
      refine (inv.carries other earlier).frame later obs fun x ctx => Pool.read_write_ne ?_
      rintro rfl
      exact apart ctx

/-- A holder giving its context back. -/
private theorem Inv.of_free (inv : p.Inv trace) (live : p.pool.live r = true)
    (pool : p'.pool = freeMsgCtx r p.pool) (refs : p.refs.Perm (r :: p'.refs))
    (recv : p'.recv = none ∨ p'.recv = p.recv) (pull : p'.pull = p.pull)
    (pending : ∀ cb ∈ p'.pending, cb ∈ p.pending)
    (llist : p'.zsockLlist = p.zsockLlist) (seen : p'.seen = p.seen) : p'.Inv (trace ++ obs) := by
  obtain ⟨ok, -, others⟩ := freeMsgCtx_spec inv.pool live
  have owned (x : CtxRef) : p'.refs.count x = (p'.pool.live x).toNat := by
    have before := inv.owned x
    rw [refs.count_eq, freeMsgCtx_live inv.pool live, List.count_cons] at before
    rw [pool]
    simp only [beq_iff_eq] at before
    omega
  have apart {x : CtxRef} (held : x ∈ p'.refs) : x ≠ r := by
    rintro rfl
    have before := inv.owned x
    have more := List.count_pos_iff.mpr held
    rw [refs.count_eq, List.count_cons_self, live] at before
    simp only [Bool.toNat_true] at before
    omega
  refine ⟨pool ▸ ok, owned, fun x held => ?_, fun x held => ?_, llist ▸ inv.sorted, llist ▸ inv.router,
    fun cb queued => ?_⟩
  · rw [pool, (others x (apart (by simp [Pipeline.refs, held]))).2]
    rcases recv with none | same
    · simp [none] at held
    · exact inv.clear x (same ▸ held)
  · rw [pull]
    rcases recv with none | same
    · simp [none] at held
    · exact inv.boundary x (same ▸ held)
  · have same (x : CtxRef) (ctx : cb.ctx? = some x) : p'.pool.read x = p.pool.read x := by
      rw [pool, (others x (apart ?_)).2]
      exact List.mem_append_right _ (List.mem_filterMap.mpr ⟨cb, queued, ctx⟩)
    simpa [seen] using (inv.carries cb (pending cb queued)).frame [] obs same

private theorem posted_pending {cb other : Callback} {send : Option Callback} {evbase : List Callback} :
    other ∈ send.toList ++ (evbase ++ [cb]) ↔ other ∈ (send.toList ++ evbase) ++ [cb] := by
  rw [List.append_assoc]

theorem Moves.inv (moves : Moves host trace p a p' obs) (inv : p.Inv trace) : p'.Inv (trace ++ obs) := by
  cases moves with
  | arrive m => exact ⟨inv.pool, inv.owned, inv.clear, inv.boundary, inv.sorted, inv.router,
      fun cb queued => inv.carries_later queued _⟩
  | prepare idle =>
    obtain ⟨ok, before, -, clear, others⟩ := getMsgCtx_spec inv.pool
    refine ⟨ok, fun x => ?_, fun x held => ?_, fun x held => rfl, inv.sorted, inv.router, fun cb queued => ?_⟩
    · rw [getMsgCtx_live inv.pool, ← inv.owned x]
      simp [refs, pending, idle, List.count_cons]
    · cases held
      exact clear
    · have same (x : CtxRef) (ctx : cb.ctx? = some x) : (getMsgCtx p.pool).2.read x = p.pool.read x := by
        refine (others x ?_).2
        rintro rfl
        have live := inv.live_of_mem (List.mem_append_right _ (List.mem_filterMap.mpr ⟨cb, queued, ctx⟩))
        simp [before] at live
      simpa using (inv.carries cb queued).frame [] [_] same
  | empty held nothing =>
    refine inv.of_free (inv.recv_alone held).1 rfl ?_ (.inl rfl) rfl (fun cb queued => queued) rfl rfl
    simp [refs, pending, held]
  | @refuse r m code queue more held next failed =>
    obtain ⟨live, alone⟩ := inv.recv_alone held
    refine inv.of_posted (.routerErrReply r p.seen.length) [m] live rfl rfl rfl
      (List.perm_iff_count.mpr fun x => ?_) (fun x none => by cases none) (fun other queued => ?_) rfl rfl ?_
    · simp [refs, pending, held, Pipeline.refused, Pipeline.taken, Callback.ctx?, List.count_cons]
      omega
    · rcases List.mem_append.mp (posted_pending.mp queued) with earlier | last
      · exact .inr ⟨earlier, alone other earlier⟩
      · exact .inl (List.mem_singleton.mp last)
    · refine .reply (p.pool.read r).buffer (m := m) ?_ (.inl failed) (by simp) ?_ ?_
      · simp [Pipeline.refused, Pipeline.taken]
      · simp [Pipeline.refused, Pipeline.taken]
      · simp [Pipeline.refused, Pipeline.taken]
  | @accept r m queue more held next passed =>
    obtain ⟨live, alone⟩ := inv.recv_alone held
    refine inv.of_posted (.pushRelay r p.seen.length) [m] live rfl rfl rfl
      (List.perm_iff_count.mpr fun x => ?_) (fun x none => by cases none) (fun other queued => ?_) rfl rfl ?_
    · simp [refs, pending, held, Pipeline.eventBaseOnce, Pipeline.taken, Callback.ctx?, List.count_cons]
      omega
    · rcases List.mem_append.mp (posted_pending.mp queued) with earlier | last
      · exact .inr ⟨earlier, alone other earlier⟩
      · exact .inl (List.mem_singleton.mp last)
    · refine .relay (p.pool.read r).buffer (m := m) ?_ passed ?_ ?_
      · simp [Pipeline.eventBaseOnce, Pipeline.taken]
      · simp [Pipeline.eventBaseOnce, Pipeline.taken]
      · simp [Pipeline.eventBaseOnce, Pipeline.taken]
  | post n =>
    refine ⟨inv.pool, fun x => ?_, inv.clear, inv.boundary, inv.sorted, inv.router, fun cb queued => ?_⟩
    · have owned : p.refs.count x = ((p.eventBaseOnce n.callback).pool.live x).toNat := inv.owned x
      rw [← owned]
      cases n <;> simp [refs, pending, Pipeline.eventBaseOnce, Notification.callback, Callback.ctx?,
        List.filterMap_cons]
    · rcases List.mem_append.mp (posted_pending.mp queued) with earlier | last
      · exact inv.carries_later earlier _
      · obtain rfl := List.mem_singleton.mp last
        cases n with
        | create appls => exact .create appls
        | remove appls => exact .remove appls
  | @take cb evbase idle next =>
    have same : pending { p with send := some cb, evbase := evbase } = p.pending := by
      simp [pending, idle, next]
    refine ⟨inv.pool, fun x => ?_, inv.clear, inv.boundary, inv.sorted, inv.router, fun cb queued => ?_⟩
    · have owned : p.refs.count x = (p.pool.live x).toNat := inv.owned x
      simpa only [refs, same] using owned
    · exact inv.carries_later (same ▸ queued) _
  | relay running received passed head buffer verdict =>
    refine inv.of_free (inv.send_alone running rfl).1 rfl (List.perm_iff_count.mpr fun x => ?_) (.inr rfl)
      rfl (fun cb queued => List.mem_append_right _ queued) rfl rfl
    simp [refs, pending, running, Callback.ctx?, List.count_cons, Pipeline.statInc, Pipeline.reasonInc]
    omega
  | @relayFail r i m old res code running received passed head buffer verdict failed =>
    obtain ⟨live, unheld, alone⟩ := inv.send_alone running rfl
    refine inv.of_posted (.routerErrReply r i) [] live rfl rfl rfl
      (List.perm_iff_count.mpr fun x => ?_) (fun x held => ?_) (fun other queued => ?_) rfl
      (by simp [Pipeline.refused]) ?_
    · simp [refs, pending, running, Pipeline.refused, Callback.ctx?, List.count_cons, List.count_nil]
    · refine ⟨held, ?_, rfl⟩
      rintro rfl
      exact unheld held
    · rcases List.mem_append.mp queued with none | posted
      · cases none
      · rcases List.mem_append.mp posted with earlier | last
        · exact .inr ⟨List.mem_append_right _ earlier, alone other earlier⟩
        · exact .inl (List.mem_singleton.mp last)
    · have refuses : code = .invldRouteType ∨ code = .failToRoute :=
        verdict ▸ (relayVerdict_mem ..).resolve_left (verdict ▸ failed)
      have same : bufferAfter m code old = bufferAfter m .ok old := by rcases refuses with rfl | rfl <;> rfl
      refine .reply old received (.inr ⟨passed, refuses⟩) (by simp) ?_ ?_
      · simp [Pipeline.refused]
      · simp only [Pipeline.refused, Pool.read_write_self]
        exact buffer.trans same.symm
  | reply running carried router =>
    refine inv.of_free (inv.send_alone running rfl).1 rfl (List.perm_iff_count.mpr fun x => ?_) (.inr rfl)
      rfl (fun cb queued => List.mem_append_right _ queued) rfl rfl
    simp [refs, pending, running, Callback.ctx?, List.count_cons]
    omega
  | @create appls res running =>
    refine ⟨inv.pool, fun x => ?_, inv.clear, inv.boundary, addZsockToList_sorted inv.sorted, ?_,
      fun cb queued => inv.carries_later (List.mem_append_right _ queued) _⟩
    · have owned : p.refs.count x = ((evsockPushCreate host appls p).pool.live x).toNat := inv.owned x
      rw [← owned]
      simp [refs, pending, running, Callback.ctx?, evsockPushCreate, List.filterMap_cons]
    · obtain ⟨elem, found, type⟩ := inv.router
      exact ⟨elem, addZsockToList_keeps inv.sorted found, type⟩
  | @remove appls res running =>
    refine ⟨inv.pool, fun x => ?_, inv.clear, inv.boundary, delZsockFromList_sorted inv.sorted, ?_,
      fun cb queued => inv.carries_later (List.mem_append_right _ queued) _⟩
    · have owned : p.refs.count x = ((evsockPushRemove appls p).pool.live x).toNat := inv.owned x
      rw [← owned]
      simp [refs, pending, running, Callback.ctx?, evsockPushRemove, List.filterMap_cons]
    · obtain ⟨elem, found, type⟩ := inv.router
      exact ⟨elem, delZsockFromList_keeps inv.sorted found (by simp [type]), type⟩

/-- The invariant holds in every state a run reaches. -/
theorem runs_inv {acts : List Act} (run : (machine host).Runs acts p trace) : p.Inv trace :=
  run.invariant (fun tr p => p.Inv tr) (fun _ => True) (fun _ _ => trivial) (init_inv host)
    fun _ _ _ _ _ inv _ step => (inv.step_moves step).inv inv

/-- The invariant rule over the outcomes of steps. -/
theorem runs_invariant {acts : List Act} (P : List Obs → Pipeline → Prop)
    (run : (machine host).Runs acts p trace) (start : P [] (Pipeline.init host))
    (keeps : ∀ tr p a p' obs, p.Inv tr → P tr p → Moves host tr p a p' obs → P (tr ++ obs) p') :
    P trace p := by
  refine (run.invariant (fun tr p => p.Inv tr ∧ P tr p) (fun _ => True) (fun _ _ => trivial)
    ⟨init_inv host, start⟩ ?_).2
  rintro tr p a p' obs ⟨inv, holds⟩ - step
  have moves := inv.step_moves step
  exact ⟨moves.inv inv, keeps tr p a p' obs inv holds moves⟩

/-- When SEND comes to a relay, the context holds a message RECV let through. -/
theorem runs_relay {acts : List Act} (run : (machine host).Runs acts p trace)
    (running : p.send = some (.pushRelay r i)) :
    ∃ m, p.seen[i]? = some m ∧ firstCheck m = none ∧ (p.pool.read r).head = m.header := by
  have queued : .pushRelay r i ∈ p.pending := by simp [pending, running]
  cases (runs_inv run).carries _ queued with
  | @relay _ _ m old received passed head buffer => exact ⟨m, received, passed, head⟩

/-- When SEND comes to a reply, the context holds the reply header of a message
that was rejected. -/
theorem runs_reply {acts : List Act} (run : (machine host).Runs acts p trace)
    (running : p.send = some (.routerErrReply r i)) :
    ∃ m code, p.seen[i]? = some m ∧ m.Refuses code ∧ .errMsgReply r i code ∈ trace ∧
      (p.pool.read r).head = replyHead m code := by
  have queued : .routerErrReply r i ∈ p.pending := by simp [pending, running]
  cases (runs_inv run).carries _ queued with
  | @reply _ _ m code old received refuses counted head buffer =>
    exact ⟨m, code, received, refuses, counted, head⟩

/-! ## What the observations of a run speak about -/

/-- Messages are only ever added to those received. -/
theorem Moves.seen_grows (moves : Moves host trace p a p' obs) : ∃ later, p'.seen = p.seen ++ later := by
  cases moves with
  | refuse => exact ⟨[_], rfl⟩
  | accept => exact ⟨[_], rfl⟩
  | _ => exact ⟨[], (List.append_nil _).symm⟩

/-- What every move establishes of its own observations, and what comes later
does not affect, holds of every observation of a run. -/
theorem runs_obs {acts : List Act} (Good : List Obs → List Message → Obs → Prop)
    (grow : ∀ tr obs seen later o, Good tr seen o → Good (tr ++ obs) (seen ++ later) o)
    (emits : ∀ tr p a p' obs, p.Inv tr → Moves host tr p a p' obs → ∀ o ∈ obs, Good (tr ++ obs) p'.seen o)
    (run : (machine host).Runs acts p trace) : ∀ o ∈ trace, Good trace p.seen o := by
  apply runs_invariant (fun tr p => ∀ o ∈ tr, Good tr p.seen o) run (by simp)
  intro tr p a p' obs inv good moves o member
  rcases List.mem_append.mp member with earlier | emitted
  · obtain ⟨later, seen⟩ := moves.seen_grows
    rw [seen]
    exact grow _ _ _ _ _ (good o earlier)
  · exact emits tr p a p' obs inv moves o emitted

/-- An observation of a relay attempt, with the message and the context it was
made for. -/
inductive Attempted (host : Host) (trace : List Obs) (seen : List Message) (o : Obs) : Prop
  | relay {r : CtxRef} {i : Nat} {m : Message} {ctx : MsgCtx} (old : Buf maxMsgsizeByte)
      (llist : List (Element ZsockCtx)) (res : SendRes)
      (received : seen[i]? = some m) (passed : firstCheck m = none)
      (head : ctx.head = m.header) (buffer : ctx.buffer = bufferAfter m .ok old)
      (member : o ∈ relayAttempt host (.pushRelay r i) r ctx
        (relayTarget m.header (destOf host r m) llist) res)
  | reply {r : CtxRef} {i : Nat} {m : Message} {code : ZmsgResp} {ctx : MsgCtx}
      (old : Buf maxMsgsizeByte) (zsockCtx : ZsockCtx) (res : SendRes)
      (received : seen[i]? = some m) (refuses : m.Refuses code) (counted : .errMsgReply r i code ∈ trace)
      (head : ctx.head = replyHead m code) (buffer : ctx.buffer = bufferAfter m code old)
      (member : o ∈ relayAttempt host (.routerErrReply r i) r ctx
        (some ⟨zsockCtx, some ((replyHead m code).fromStr (host.afterHead r))⟩) res)

/-- Whatever a run hands over or sends is such an observation. -/
theorem runs_attempted {acts : List Act} (run : (machine host).Runs acts p trace) :
    ∀ o ∈ trace, o.isAttempt = true → Attempted host trace p.seen o := by
  refine runs_obs (fun tr seen o => o.isAttempt = true → Attempted host tr seen o) ?_ ?_ run
  · intro tr obs seen later o attempted attempt
    cases attempted attempt with
    | relay old llist res received passed head buffer member =>
      exact .relay old llist res (getElem?_later received) passed head buffer member
    | reply old zsockCtx res received refuses counted head buffer member =>
      exact .reply old zsockCtx res (getElem?_later received) refuses (List.mem_append_left _ counted)
        head buffer member
  · intro tr p a p' obs inv moves o member attempt
    cases moves with
    | @relay r i m old res running received passed head buffer verdict =>
      rcases mem_callback.mp member with rfl | sent | last
      · cases attempt
      · exact .relay old _ res received passed head buffer sent
      · rcases List.mem_pair.mp last with rfl | rfl <;> cases attempt
    | @relayFail r i m old res code running received passed head buffer verdict failed =>
      rcases mem_callback.mp member with rfl | sent | last
      · cases attempt
      · exact .relay old _ res received passed head buffer sent
      · obtain rfl := List.mem_singleton.mp last
        cases attempt
    | @reply r i elem res running carried router =>
      rcases mem_callback.mp member with rfl | sent | last
      · cases attempt
      · cases carried with
        | reply old received refuses counted head buffer =>
          rw [head] at sent
          exact .reply old elem.data res received refuses (List.mem_append_left _ counted) head buffer sent
      · obtain rfl := List.mem_singleton.mp last
        cases attempt
    | refuse => rcases List.mem_pair.mp member with rfl | rfl <;> cases attempt
    | accept => rcases List.mem_pair.mp member with rfl | rfl <;> cases attempt
    | prepare => cases List.mem_singleton.mp member; cases attempt
    | empty => cases List.mem_singleton.mp member; cases attempt
    | create => cases List.mem_singleton.mp member; cases attempt
    | remove => cases List.mem_singleton.mp member; cases attempt
    | _ => cases member

end Pipeline

end MsaBroker
