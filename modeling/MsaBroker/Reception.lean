import MsaBroker.MsgBody
import MsaBroker.ServiceAgreement

/-! Where a message goes is decided when it is received. SEND looks the service
up long after RECV accepted the message, in a table that has moved on since. But
notifications and messages wait in one queue, so what SEND has acted on by then
is what MGNT had posted at the reception, and the lookup answers as MGNT's
registry would have at that moment. -/
namespace MsaBroker
open CMemory Lease

/-! ## SEND's queue -/

namespace Pipeline

variable {host : Host} {p p' : Pipeline} {a : Act} {obs trace : List Obs}

/-- The callbacks a step brings to an end. -/
def finished (p : Pipeline) : Act → List Callback
  | .sendRun _ => p.send.toList
  | _ => []

/-- What a step puts at the end of SEND's queue: a message RECV has let through,
or something else. -/
inductive Queues (p p' : Pipeline) : Act → List Callback → Prop
  | accepted {r : CtxRef} {m : Message} {queue : List Message} (next : p.pull.queue = m :: queue)
      (seen : p'.seen = p.seen ++ [m]) : Queues p p' .recvProcess [.pushRelay r p.seen.length]
  | other {a : Act} {later : List Callback} (noRelay : ∀ r i, .pushRelay r i ∉ later)
      (seen : ∃ received, p'.seen = p.seen ++ received) : Queues p p' a later

/-- SEND's queue is a queue: a step ends the callback at its front, or none, and
what it adds it adds at the end. -/
theorem Moves.queues (moves : Moves host trace p a p' obs) :
    ∃ later, p.pending ++ later = p.finished a ++ p'.pending ∧ Queues p p' a later := by
  cases moves with
  | arrive m => exact ⟨[], by simp [pending, finished], .other (by simp) ⟨[], by simp⟩⟩
  | prepare idle => exact ⟨[], by simp [pending, finished], .other (by simp) ⟨[], by simp⟩⟩
  | empty held nothing => exact ⟨[], by simp [pending, finished], .other (by simp) ⟨[], by simp⟩⟩
  | @refuse r m code queue more held next failed =>
    exact ⟨[.routerErrReply r p.seen.length], by simp [pending, finished, Pipeline.refused, taken],
      .other (by simp) ⟨[m], rfl⟩⟩
  | @accept r m queue more held next passed =>
    exact ⟨[.pushRelay r p.seen.length], by simp [pending, finished, eventBaseOnce, taken], .accepted next rfl⟩
  | post n =>
    refine ⟨[n.callback], by simp [pending, finished, eventBaseOnce], .other ?_ ⟨[], by simp [eventBaseOnce]⟩⟩
    cases n <;> simp [Notification.callback]
  | take idle next => exact ⟨[], by simp [pending, finished, idle, next], .other (by simp) ⟨[], by simp⟩⟩
  | relay running =>
    exact ⟨[], by simp [pending, finished, running, statInc, reasonInc],
      .other (by simp) ⟨[], by simp [statInc, reasonInc]⟩⟩
  | @relayFail r i m old res code running =>
    exact ⟨[.routerErrReply r i], by simp [pending, finished, running, Pipeline.refused],
      .other (by simp) ⟨[], by simp [Pipeline.refused]⟩⟩
  | reply running => exact ⟨[], by simp [pending, finished, running], .other (by simp) ⟨[], by simp⟩⟩
  | create running =>
    exact ⟨[], by simp [pending, finished, running, evsockPushCreate],
      .other (by simp) ⟨[], by simp [evsockPushCreate]⟩⟩
  | remove running =>
    exact ⟨[], by simp [pending, finished, running, evsockPushRemove],
      .other (by simp) ⟨[], by simp [evsockPushRemove]⟩⟩

theorem acted_eq_finished (p : Pipeline) (a : Act) :
    (p.acted a).toList = (p.finished a).filterMap Callback.notification? := by
  cases a with
  | sendRun res =>
    cases running : p.send with
    | none => simp [acted, finished, running]
    | some cb => cases noted : cb.notification? <;> simp [acted, finished, running, noted]
  | _ => rfl

end Pipeline

namespace Pipeline

variable {host : Host} {p p' : Pipeline} {obs trace : List Obs} {r : CtxRef} {i : Nat} {m : Message} {res : SendRes}

/-- What a relay step concludes: success, or the one reply to the refusal. -/
theorem Inv.relay_concludes (inv : p.Inv trace) (running : p.send = some (.pushRelay r i))
    (received : p.seen[i]? = some m) (step : Pipeline.step host p (.sendRun res) = some (p', obs)) :
    (.relayed r i ∈ obs ↔ relayVerdict m.header (destOf host r m) p.zsockLlist res = .ok) ∧
      ∀ code, .errMsgReply r i code ∈ obs ↔
        code ≠ .ok ∧ relayVerdict m.header (destOf host r m) p.zsockLlist res = code := by
  have moves : Moves host trace p (.sendRun res) p' obs := inv.step_moves step
  have silent {o : Obs} {target : Option Target} (quiet : o.isAttempt = false) :
      o ∉ relayAttempt host (.pushRelay r i) r (p.pool.read r) target res := by
    intro attempt
    rw [relayAttempt_isAttempt host attempt] at quiet
    cases quiet
  cases moves with
  | relay other received' passed head buffer verdict =>
    cases running.symm.trans other
    cases received.symm.trans received'
    constructor
    · simp [verdict]
    · intro code
      rw [mem_callback, verdict]
      simp [silent (show Obs.isAttempt (.errMsgReply r i code) = false from rfl), eq_comm]
  | relayFail other received' passed head buffer verdict failed =>
    cases running.symm.trans other
    cases received.symm.trans received'
    constructor
    · rw [mem_callback, verdict]
      simp [silent (show Obs.isAttempt (.relayed r i) = false from rfl), failed]
    · intro code
      rw [mem_callback, verdict]
      simp only [silent (show Obs.isAttempt (.errMsgReply r i code) = false from rfl), reduceCtorEq, false_or,
        List.mem_singleton, Obs.errMsgReply.injEq, true_and]
      constructor
      · rintro rfl
        exact ⟨failed, rfl⟩
      · rintro ⟨-, rfl⟩
        rfl
  | reply other => cases running.symm.trans other
  | create other => cases running.symm.trans other
  | remove other => cases running.symm.trans other

/-- A relay to a service succeeds where the service has a socket and the sends
succeed. -/
theorem relayVerdict_svc {h : Envelop} {dest : Bytes} {llist : List (Element ZsockCtx)} (svc : h.route = zmsgRouteSvc) :
    (relayVerdict h dest llist res = .ok ↔ getElement dest llist ≠ none ∧ 0 ≤ res.headRes ∧ 0 ≤ res.bodyRes) ∧
      (relayVerdict h dest llist res ≠ .ok → relayVerdict h dest llist res = .failToRoute) := by
  unfold relayVerdict relayTarget
  cases found : getElement dest llist with
  | none => simp [svc]
  | some e =>
    simp only [svc, ↓reduceIte, Target.delivered, Target.routed]
    by_cases head : res.headRes < 0 <;> by_cases body : res.bodyRes < 0 <;> simp [head, body]
    omega

end Pipeline

/-! ## Receptions -/

namespace MainCtx

variable {host : Host} {s t s₀ : MainCtx} {a : Act} {acts : List Act} {trace out tr₀ : List Obs} {i : Nat}
  {m : Message} {svcOf : Bytes → Bytes}

/-- The run takes message `i` off the PULL socket in a step from this state. -/
inductive ReceivedIn (host : Host) (acts : List Act) (i : Nat) (m : Message) (s₀ : MainCtx) (tr₀ : List Obs) : Prop
  | intro {before after : List Act} (split : acts = before ++ .pipe .recvProcess :: after)
      (run : (machine host).Runs before s₀ tr₀) (number : s₀.pipe.seen.length = i)
      (next : s₀.pipe.pull.queue.head? = some m)

theorem ReceivedIn.later (received : ReceivedIn host acts i m s₀ tr₀) (a : Act) :
    ReceivedIn host (acts ++ [a]) i m s₀ tr₀ := by
  obtain ⟨split, run, number, next⟩ := received
  exact .intro (by rw [split, List.append_assoc, List.cons_append]) run number next

/-- A step of the broker as SEND's queue sees it: what it ends at the front and
what it adds at the end. Only RECV adds a relay, and then nothing else. -/
structure Advances (s : MainCtx) (a : Act) (t : MainCtx) (out : List Obs) (finished later : List Callback) :
    Prop where
  queue : s.pipe.pending ++ later = finished ++ t.pipe.pending
  ends : done out = finished.filterMap Callback.notification?
  seen : ∃ received, t.pipe.seen = s.pipe.seen ++ received
  relay : ∀ r i, .pushRelay r i ∈ later →
    a = .pipe .recvProcess ∧ later = [.pushRelay r i] ∧ finished = [] ∧ i = s.pipe.seen.length ∧
      ∃ m, s.pipe.pull.queue.head? = some m ∧ t.pipe.seen = s.pipe.seen ++ [m]

theorem postAll_pending (pipe : Pipeline) (posts : List Post) :
    (postAll pipe posts).pending = pipe.pending ++ posts.map (·.notification.callback) ∧
      (postAll pipe posts).seen = pipe.seen := by
  induction posts generalizing pipe with
  | nil => simp [postAll]
  | cons post posts ih =>
    obtain ⟨pending, seen⟩ := ih (pipe.eventBaseOnce post.notification.callback)
    refine ⟨?_, seen⟩
    rw [postAll, List.foldl_cons, ← postAll, pending]
    simp [Pipeline.pending, Pipeline.eventBaseOnce]

theorem Ok.step_advances (ok : s.Ok) (step : MainCtx.step host s a = some (t, out)) :
    ∃ finished later, Advances s a t out finished later := by
  obtain ⟨tr, inv⟩ := ok.pipe
  cases a with
  | mgnt a =>
    simp only [MainCtx.step, Option.map_eq_some_iff, Prod.exists] at step
    obtain ⟨reg, posts, -, same⟩ := step
    cases same
    obtain ⟨pending, seen⟩ := postAll_pending s.pipe posts
    refine ⟨[], posts.map (·.notification.callback), ?_, ?_, ⟨[], ?_⟩, fun r i member => ?_⟩
    · simpa using pending.symm
    · simp [MainCtx.done, List.filterMap_map]
    · simpa using seen
    · obtain ⟨⟨n, list⟩, -, same⟩ := List.mem_map.mp member
      cases n <;> cases same
  | pipe a =>
    have known : (Pipeline.step host s.pipe a).map (fun ran =>
        ({ s with pipe := ran.1 }, (s.pipe.acted a).toList.map fun n => .acted n s.pipe.zsockLlist)) =
          some (t, out) := by
      cases a with
      | post n => cases step
      | _ => exact step
    simp only [Option.map_eq_some_iff, Prod.exists] at known
    obtain ⟨pipe, obs, stepped, same⟩ := known
    cases same
    obtain ⟨later, queue, queues⟩ := (inv.step_moves stepped).queues
    refine ⟨s.pipe.finished a, later, queue, ?_, ?_, fun r i member => ?_⟩
    · rw [← Pipeline.acted_eq_finished]
      cases s.pipe.acted a <;> rfl
    · cases queues with
      | accepted next seen => exact ⟨_, seen⟩
      | other noRelay seen => exact seen
    · cases queues with
      | @accepted r m queue next seen =>
        cases List.mem_singleton.mp member
        exact ⟨rfl, rfl, rfl, rfl, m, by simp [next], seen⟩
      | other noRelay seen => exact absurd member (noRelay r i)

/-- Whatever relay waits, what SEND has acted on and what it will act on before
that relay is what was posted when its message was received. -/
def Waits (host : Host) (acts : List Act) (trace : List Obs) (s : MainCtx) : Prop :=
  ∀ front r i back, s.pipe.pending = front ++ .pushRelay r i :: back →
    ∃ m s₀ tr₀, ReceivedIn host acts i m s₀ tr₀ ∧ s.pipe.seen[i]? = some m ∧
      done trace ++ front.filterMap Callback.notification? = (posts tr₀).map Post.notification

theorem Advances.waits {finished later : List Callback} (advances : Advances s a t out finished later)
    (run : (machine host).Runs acts s trace)
    (fifo : (posts trace).map Post.notification = done trace ++ s.pipe.notifications)
    (waits : Waits host acts trace s) : Waits host (acts ++ [a]) (trace ++ out) t := by
  obtain ⟨queue, ends, ⟨received, seen⟩, relay⟩ := advances
  intro front r i back pending
  rw [pending, ← List.append_assoc] at queue
  -- a relay RECV has just added
  have fresh (ahead : finished ++ front = s.pipe.pending) (member : .pushRelay r i ∈ later) :
      ∃ m s₀ tr₀, ReceivedIn host (acts ++ [a]) i m s₀ tr₀ ∧ t.pipe.seen[i]? = some m ∧
        done (trace ++ out) ++ front.filterMap Callback.notification? = (posts tr₀).map Post.notification := by
    obtain ⟨rfl, -, rfl, rfl, m, next, seen'⟩ := relay r i member
    refine ⟨m, s, trace, .intro rfl run rfl next, by simp [seen'], ?_⟩
    rw [List.nil_append] at ahead
    rw [ahead, done_append, ends, List.filterMap_nil, List.append_nil, fifo, Pipeline.notifications]
  rcases List.append_eq_append_iff.mp queue with ⟨new, before, behind⟩ | ⟨rest, before, behind⟩
  · have member : .pushRelay r i ∈ later := behind ▸ List.mem_append_right _ List.mem_cons_self
    obtain ⟨-, alone, -⟩ := relay r i member
    have nothing : new = [] := by
      rw [alone] at behind
      cases new with
      | nil => rfl
      | cons cb new => simp at behind
    exact fresh (by rw [before, nothing, List.append_nil]) member
  · cases rest with
    | nil =>
      have member : .pushRelay r i ∈ later := (show _ = later from behind) ▸ List.mem_cons_self
      exact fresh (by rw [before, List.append_nil]) member
    | cons cb rest =>
      obtain ⟨rfl, -⟩ := List.cons.inj behind
      obtain ⟨m, s₀, tr₀, from_, known, ahead⟩ := waits _ r i rest before
      refine ⟨m, s₀, tr₀, from_.later a, by rw [seen]; exact getElem?_later known, ?_⟩
      rw [← ahead, done_append, ends, List.filterMap_append, List.append_assoc]

theorem runs_waits (run : (machine host).Runs acts s trace) (promised : ∀ a ∈ acts, a.Promised svcOf) :
    Waits host acts trace s := by
  refine run.history (fun acts tr s => (∀ a ∈ acts, a.Promised svcOf) → Waits host acts tr s) ?_ ?_ promised
  · intro _ front r i back pending
    have nothing : (machine host).init.pipe.pending = [] := rfl
    simp [nothing] at pending
  · intro acts tr s a t out before waits step promised
    have earlier : ∀ b ∈ acts, b.Promised svcOf := fun b member => promised b (by simp [member])
    obtain ⟨finished, later, advances⟩ := (runs_ok before).step_advances step
    exact advances.waits before (runs_agrees before earlier).fifo (waits earlier)

/-- Messages are only ever added to those received. -/
theorem runs_seen_grows {rest : List Act} (before : (machine host).Runs acts s tr₀)
    (run : (machine host).Runs (acts ++ rest) t trace) : ∃ received, t.pipe.seen = s.pipe.seen ++ received := by
  refine before.between (fun s t => ∃ received, t.pipe.seen = s.pipe.seen ++ received) ?_ ?_ run ?_
  · exact fun s => ⟨[], (List.append_nil _).symm⟩
  · rintro s t u ⟨first, seen⟩ ⟨second, seen'⟩
    exact ⟨first ++ second, by rw [seen', seen, List.append_assoc]⟩
  · intro acts tr s a t out run step
    obtain ⟨finished, later, advances⟩ := (runs_ok run).step_advances step
    exact advances.seen

/-- The step that receives a message numbers it. -/
theorem Ok.receives (ok : s.Ok) (next : s.pipe.pull.queue.head? = some m)
    (step : MainCtx.step host s (.pipe .recvProcess) = some (t, out)) : t.pipe.seen = s.pipe.seen ++ [m] := by
  obtain ⟨tr, inv⟩ := ok.pipe
  obtain ⟨⟨pipe, obs⟩, stepped, same⟩ := Option.map_eq_some_iff.mp step
  cases same
  have moves : s.pipe.Moves host tr .recvProcess pipe obs := inv.step_moves stepped
  cases moves with
  | empty held nothing => simp [nothing] at next
  | refuse more held queued failed =>
    obtain rfl : _ = m := by simpa [queued] using next
    rfl
  | accept more held queued passed =>
    obtain rfl : _ = m := by simpa [queued] using next
    rfl

private theorem ReceivedIn.number_lt {before rest : List Act} {s₁ : MainCtx} {tr₁ : List Obs}
    (run : (machine host).Runs before s₀ tr₀) (next : s₀.pipe.pull.queue.head? = some m)
    (later : (machine host).Runs (before ++ .pipe .recvProcess :: rest) s₁ tr₁) :
    s₀.pipe.seen.length < s₁.pipe.seen.length := by
  rw [← List.singleton_append, ← List.append_assoc] at later
  obtain ⟨u, tr, -, received, -⟩ := Machine.runFrom_append.mp later
  obtain ⟨s, tr', out, front, step, -⟩ := Machine.runs_snoc_iff.mp received
  obtain ⟨rfl, -⟩ := Prod.mk.inj (Option.some.inj (run.symm.trans front))
  obtain ⟨more, grown⟩ := runs_seen_grows received later
  rw [grown, (runs_ok run).receives next step]
  simp

/-- Two receptions of one number leave no steps between them. -/
private theorem ReceivedIn.nothing_between {before mid after after' : List Act} {s₁ : MainCtx} {tr₁ : List Obs}
    (run : (machine host).Runs before s₀ tr₀) (next : s₀.pipe.pull.queue.head? = some m)
    (later : (machine host).Runs (before ++ mid) s₁ tr₁) (numbers : s₀.pipe.seen.length = s₁.pipe.seen.length)
    (back : .pipe .recvProcess :: after = mid ++ after') : mid = [] := by
  cases mid with
  | nil => rfl
  | cons a mid =>
    obtain ⟨rfl, -⟩ := List.cons.inj back
    have less := ReceivedIn.number_lt run next later
    omega

/-- A message is received once. -/
theorem ReceivedIn.unique {m' : Message} {s₁ : MainCtx} {tr₁ : List Obs} (one : ReceivedIn host acts i m s₀ tr₀)
    (two : ReceivedIn host acts i m' s₁ tr₁) : s₀ = s₁ ∧ tr₀ = tr₁ ∧ m = m' := by
  obtain @⟨before, after, split, run, number, next⟩ := one
  obtain @⟨before', after', split', run', number', next'⟩ := two
  have front : before = before' := by
    rcases List.append_eq_append_iff.mp (split.symm.trans split') with ⟨mid, rfl, back⟩ | ⟨mid, rfl, back⟩
    · rw [ReceivedIn.nothing_between run next run' (number.trans number'.symm) back, List.append_nil]
    · rw [ReceivedIn.nothing_between run' next' run (number'.trans number.symm) back, List.append_nil]
  subst front
  obtain ⟨rfl, rfl⟩ := Prod.mk.inj (Option.some.inj (run.symm.trans run'))
  exact ⟨rfl, rfl, Option.some.inj (next.symm.trans next')⟩

/-- What SEND's table says of a service, where it has acted on what was posted by
then. -/
theorem Agrees.lookup {tr : List Obs} {svc : Bytes} (now : Agrees svcOf trace s) (then_ : Agrees svcOf tr s₀)
    (same : done trace = (posts tr).map Post.notification) (notRouter : svc ≠ ascii "ROUTER") :
    getElement svc s.pipe.zsockLlist ≠ none ↔ svc ≠ [] ∧ Mgnt.Offers s₀.reg svc := by
  have entry := now.follows.entry svc
  rw [same, entryType, if_neg notRouter] at entry
  by_cases named : svc = []
  · subst named
    have unused : lifeOf [] ((posts tr).map Post.notification) = [] := by
      refine lifeOf_eq_nil fun n member => ?_
      obtain ⟨post, posted, rfl⟩ := List.mem_map.mp member
      exact (then_.announced.named post posted).1
    simpa [unused, track] using entry
  · rw [then_.announced.live svc named] at entry
    by_cases offered : Mgnt.Offers s₀.reg svc
    · simp only [offered, named, ne_eq, not_false_eq_true, and_self, iff_true]
      intro none
      simp [none, offered] at entry
    · simpa [offered, named] using entry

/-- The relay of a message for a service, by what was on offer as it was received. -/
theorem ReceivedIn.routed (received : ReceivedIn host acts i m s₀ tr₀) (run : (machine host).Runs acts s trace)
    (promised : ∀ a ∈ acts, a.Promised svcOf) {r : CtxRef} (running : s.pipe.send = some (.pushRelay r i))
    (svc : m.header.route = zmsgRouteSvc) (notRouter : Pipeline.destOf host r m ≠ ascii "ROUTER")
    {res : SendRes} {p' : Pipeline} {obs : List MsaBroker.Obs}
    (step : Pipeline.step host s.pipe (.sendRun res) = some (p', obs)) :
    (.relayed r i ∈ obs ↔ (Pipeline.destOf host r m ≠ [] ∧ Mgnt.Offers s₀.reg (Pipeline.destOf host r m)) ∧
      0 ≤ res.headRes ∧ 0 ≤ res.bodyRes) ∧ (.relayed r i ∉ obs → .errMsgReply r i .failToRoute ∈ obs) := by
  have pending : s.pipe.pending = [] ++ .pushRelay r i :: s.pipe.evbase := by simp [Pipeline.pending, running]
  obtain ⟨m', s₁, tr₁, received', known, ahead⟩ := runs_waits run promised [] r i _ pending
  obtain ⟨rfl, rfl, rfl⟩ := received.unique received'
  obtain ⟨split, front, -, -⟩ := received
  have then_ : Agrees svcOf tr₀ s₀ := runs_agrees front fun b member => promised b (by simp [split, member])
  have same : done trace = (posts tr₀).map Post.notification := by simpa using ahead
  obtain ⟨tr, inv⟩ := (runs_ok run).pipe
  obtain ⟨succeeds, refused⟩ := inv.relay_concludes running known step
  obtain ⟨ok, failed⟩ := @Pipeline.relayVerdict_svc res m.header (Pipeline.destOf host r m) s.pipe.zsockLlist svc
  refine ⟨?_, fun notRelayed => ?_⟩
  · rw [succeeds, ok, (runs_agrees run promised).lookup then_ same notRouter]
  · have notOk := mt succeeds.mpr notRelayed
    exact (refused .failToRoute).mpr ⟨by decide, failed notOk⟩

end MainCtx

end MsaBroker
