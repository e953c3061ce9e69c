import MsaBroker.MgntRuns
import MsaBroker.PipelineSteps

/-! The whole broker: MGNT beside RECV and SEND, with what MGNT posts going to
SEND's event base. What is observed here is the life of a notification, from
MGNT posting it to SEND acting on it. -/
namespace MsaBroker
open CMemory

def Callback.notification? : Callback → Option Notification
  | .pushCreate appls => some (.create appls)
  | .pushRemove appls => some (.remove appls)
  | .pushRelay .. | .routerErrReply .. => none

/-- What SEND does on a notification, to the sockets and to its table. -/
def Notification.run (host : Host) (n : Notification) (net : Net) (llist : List (Element ZsockCtx)) :
    Net × List (Element ZsockCtx) :=
  match n with
  | .create appls => addZsockToList host appls.svcnameStr .push net llist
  | .remove appls => delZsockFromList appls.svcnameStr .push net llist

namespace Pipeline

variable {host : Host} {p p' : Pipeline} {a : Act} {obs trace : List Obs}

/-- The notifications SEND has not acted on, in order. -/
def notifications (p : Pipeline) : List Notification := p.pending.filterMap Callback.notification?

/-- The notification this step acts on. -/
def acted (p : Pipeline) : Act → Option Notification
  | .sendRun _ => p.send.bind Callback.notification?
  | _ => none

@[simp] theorem notifications_eventBaseOnce (n : Notification) :
    (p.eventBaseOnce n.callback).notifications = p.notifications ++ [n] := by
  cases n <;>
    simp [notifications, pending, eventBaseOnce, Notification.callback, Callback.notification?]

/-- A step acts on the first notification, or leaves notifications, table and
sockets alone. -/
theorem Moves.notified (moves : Moves host trace p a p' obs) (notPost : ∀ n, a ≠ .post n) :
    match p.acted a with
    | none => p'.notifications = p.notifications ∧ p'.zsockLlist = p.zsockLlist ∧ p'.net = p.net
    | some n => p.notifications = n :: p'.notifications ∧
        (p'.net, p'.zsockLlist) = n.run host p.net p.zsockLlist := by
  cases moves with
  | post n => exact absurd rfl (notPost n)
  | create running =>
    simp [acted, running, notifications, pending, Callback.notification?, Notification.run,
      evsockPushCreate]
  | remove running =>
    simp [acted, running, notifications, pending, Callback.notification?, Notification.run,
      evsockPushRemove]
  | take idle next => simp [acted, idle, next, notifications, pending]
  | relay running =>
    simp [acted, running, notifications, pending, Callback.notification?, statInc, reasonInc,
      List.filterMap_cons]
  | relayFail running =>
    simp [acted, running, notifications, pending, Callback.notification?, Pipeline.refused,
      List.filterMap_cons]
  | reply running =>
    simp [acted, running, notifications, pending, Callback.notification?, List.filterMap_cons]
  | refuse =>
    simp [acted, notifications, pending, Callback.notification?, Pipeline.refused, taken,
      List.filterMap_cons]
  | accept =>
    simp [acted, notifications, pending, Callback.notification?, eventBaseOnce, taken,
      List.filterMap_cons]
  | _ => simp [acted, notifications, pending]

end Pipeline

/-! ## The broker as a machine -/

/-- `MAIN_CTX`, with the tables of the other two threads. -/
structure MainCtx where
  pipe : Pipeline
  reg : Registry
  recvLlist : List (Element ZsockCtx)
  mgntLlist : List (Element ZsockCtx)

namespace MainCtx

/-- The threads started, in the order of `initialize_main`. -/
def init (host : Host) : MainCtx :=
  let (net, _) := initializeThread host .trSend ⟨0, []⟩
  let (net, recv) := initializeThread host .trRecv net
  let (_, mgnt) := initializeThread host .trMgnt net
  { pipe := .init host, reg := ⟨[], []⟩, recvLlist := recv, mgntLlist := mgnt }

inductive Act where
  /-- A step of MGNT. -/
  | mgnt (a : Mgnt.Act)
  /-- A step of RECV or SEND. -/
  | pipe (a : Pipeline.Act)

inductive Obs where
  /-- MGNT posted a notification. -/
  | posted (post : Post)
  /-- SEND acted on a notification, on this table. -/
  | acted (n : Notification) (zsockLlist : List (Element ZsockCtx))

/-- `event_base_once` for every notification of a step. -/
def postAll (pipe : Pipeline) (posts : List Post) : Pipeline :=
  posts.foldl (fun pipe post => pipe.eventBaseOnce post.notification.callback) pipe

/-- One step; only MGNT posts notifications. -/
def step (host : Host) (s : MainCtx) : Act → Option (MainCtx × List Obs)
  | .mgnt a =>
    (Mgnt.step s.reg a).map fun (reg, posts) =>
      ({ s with reg := reg, pipe := postAll s.pipe posts }, posts.map .posted)
  | .pipe (.post _) => none
  | .pipe a =>
    (Pipeline.step host s.pipe a).map fun (pipe, _) =>
      ({ s with pipe := pipe }, (s.pipe.acted a).toList.map fun n => .acted n s.pipe.zsockLlist)

def machine (host : Host) : Machine MainCtx Act Obs := ⟨init host, step host⟩

/-- The notifications posted, in order. -/
def posts (trace : List Obs) : List Post :=
  trace.filterMap fun
    | .posted post => some post
    | .acted .. => none

/-- The notifications acted on, in order. -/
def done (trace : List Obs) : List Notification :=
  trace.filterMap fun
    | .posted _ => none
    | .acted n _ => some n

variable {host : Host} {s t : MainCtx} {a : Act} {out trace : List Obs} {acts : List Act}
  {pipe : Pipeline} {tr : List MsaBroker.Obs}

theorem postAll_inv (inv : pipe.Inv tr) (posts : List Post) : (postAll pipe posts).Inv tr := by
  induction posts generalizing pipe with
  | nil => exact inv
  | cons post posts ih =>
    apply ih
    have moves : pipe.Moves .bare tr (.post post.notification) _ [] := .post post.notification
    simpa using moves.inv inv

theorem postAll_same (pipe : Pipeline) (posts : List Post) :
    (postAll pipe posts).notifications = pipe.notifications ++ posts.map Post.notification ∧
      (postAll pipe posts).zsockLlist = pipe.zsockLlist ∧ (postAll pipe posts).net = pipe.net := by
  induction posts generalizing pipe with
  | nil => simp [postAll]
  | cons post posts ih =>
    obtain ⟨notifications, llist, net⟩ := ih (pipe.eventBaseOnce post.notification.callback)
    refine ⟨?_, llist, net⟩
    rw [postAll, List.foldl_cons, ← postAll, notifications]
    simp

/-- What every state of a run satisfies, whatever the messages. -/
structure Ok (s : MainCtx) : Prop where
  pipe : ∃ tr, s.pipe.Inv tr
  reg : ElemSorted s.reg.list

/-- The outcomes of a step. -/
inductive Moves (host : Host) (s : MainCtx) : Act → MainCtx → List Obs → Prop
  | mgnt {a : Mgnt.Act} {reg : Registry} {posts : List Post} (moves : Mgnt.Moves s.reg a reg posts) :
      Moves host s (.mgnt a) { s with reg := reg, pipe := postAll s.pipe posts } (posts.map .posted)
  | quiet {a : Pipeline.Act} {pipe : Pipeline} (idle : s.pipe.acted a = none)
      (notifications : pipe.notifications = s.pipe.notifications)
      (llist : pipe.zsockLlist = s.pipe.zsockLlist) (net : pipe.net = s.pipe.net) :
      Moves host s (.pipe a) { s with pipe := pipe } []
  | acted {a : Pipeline.Act} {pipe : Pipeline} {n : Notification} (running : s.pipe.acted a = some n)
      (next : s.pipe.notifications = n :: pipe.notifications)
      (run : (pipe.net, pipe.zsockLlist) = n.run host s.pipe.net s.pipe.zsockLlist) :
      Moves host s (.pipe a) { s with pipe := pipe } [.acted n s.pipe.zsockLlist]

theorem Ok.step_moves (ok : s.Ok) (step : MainCtx.step host s a = some (t, out)) :
    Moves host s a t out ∧ t.Ok := by
  obtain ⟨tr, inv⟩ := ok.pipe
  cases a with
  | mgnt a =>
    simp only [MainCtx.step, Option.map_eq_some_iff, Prod.exists] at step
    obtain ⟨reg, posts, mgnt, same⟩ := step
    cases same
    have moves := Mgnt.step_moves ok.reg mgnt
    exact ⟨.mgnt moves, ⟨tr, postAll_inv inv posts⟩, moves.sorted ok.reg⟩
  | pipe a =>
    have notPost (n : Notification) : a ≠ .post n := by
      rintro rfl
      cases step
    have known : (Pipeline.step host s.pipe a).map (fun (pipe, _) =>
        ({ s with pipe := pipe }, (s.pipe.acted a).toList.map fun n => .acted n s.pipe.zsockLlist)) =
          some (t, out) := by
      cases a with
      | post n => exact absurd rfl (notPost n)
      | _ => exact step
    simp only [Option.map_eq_some_iff, Prod.exists] at known
    obtain ⟨pipe, obs, stepped, same⟩ := known
    cases same
    have moves := inv.step_moves stepped
    refine ⟨?_, ⟨_, moves.inv inv⟩, ok.reg⟩
    have notified := moves.notified notPost
    cases acted : s.pipe.acted a with
    | none =>
      rw [acted] at notified
      obtain ⟨notifications, llist, net⟩ := notified
      exact .quiet acted notifications llist net
    | some n =>
      rw [acted] at notified
      exact .acted acted notified.1 notified.2

theorem init_ok (host : Host) : (MainCtx.init host).Ok := ⟨⟨[], Pipeline.init_inv host⟩, .nil⟩

theorem runs_ok (run : (machine host).Runs acts s trace) : s.Ok := by
  refine run.invariant (fun _ s => s.Ok) (fun _ => True) (fun _ _ => trivial) ?_ ?_
  · exact init_ok host
  · intro tr s a t out ok _ step
    exact (ok.step_moves step).2

theorem step_pipe {a : Pipeline.Act} {obs : List MsaBroker.Obs} (notPost : ∀ n, a ≠ .post n)
    (step : Pipeline.step host s.pipe a = some (pipe, obs)) : MainCtx.step host s (.pipe a) =
      some ({ s with pipe := pipe }, (s.pipe.acted a).toList.map fun n => .acted n s.pipe.zsockLlist) := by
  cases a with
  | post n => exact absurd rfl (notPost n)
  | _ => simp [MainCtx.step, step]

/-- The invariant rule over the outcomes of steps. -/
theorem runs_invariant (Inv : List Obs → MainCtx → Prop) (Admitted : Act → Prop)
    (run : (machine host).Runs acts s trace) (admitted : ∀ a ∈ acts, Admitted a)
    (start : Inv [] (MainCtx.init host))
    (keeps : ∀ tr s a t out, s.Ok → Inv tr s → Admitted a → Moves host s a t out → Inv (tr ++ out) t) :
    Inv trace s := by
  refine (run.invariant (fun tr s => s.Ok ∧ Inv tr s) Admitted admitted ⟨init_ok host, start⟩ ?_).2
  rintro tr s a t out ⟨ok, inv⟩ allowed step
  obtain ⟨moves, ok'⟩ := ok.step_moves step
  exact ⟨ok', keeps tr s a t out ok inv allowed moves⟩

end MainCtx

end MsaBroker
