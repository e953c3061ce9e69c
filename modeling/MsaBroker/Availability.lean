import MsaBroker.KeepAlive
import MsaBroker.Reception
import MsaBroker.RoutingIsolation

/-! The clients, the clock and all three threads of the broker at once: what a
REGI message does to the registry goes to SEND as notifications, and what comes
in to be relayed is routed by the table they build. A service whose client keeps
up its registration is there for every message received. -/
namespace MsaBroker.Availability
open CMemory

structure State where
  /-- The clients, and MGNT with its registry. -/
  keep : KeepAlive.State
  /-- RECV and SEND. -/
  pipe : Pipeline

inductive Act where
  | keep (a : KeepAlive.Act)
  | pipe (a : Pipeline.Act)

/-- The notifications of a step. -/
def posted (out : List KeepAlive.Obs) : List Notification :=
  out.filterMap fun
    | .posted n => some n
    | .heard _ => none

/-- One step; only MGNT posts notifications. -/
def step (host : Host) (s : State) : Act → Option (State × List KeepAlive.Obs)
  | .keep a => (KeepAlive.step s.keep a).map fun ran =>
      (⟨ran.1, (posted ran.2).foldl (fun pipe n => pipe.eventBaseOnce n.callback) s.pipe⟩, ran.2)
  | .pipe (.post _) => none
  | .pipe a => (Pipeline.step host s.pipe a).map fun ran => (⟨s.keep, ran.1⟩, [])

variable (S : Site)

def machine : Machine State Act KeepAlive.Obs := ⟨⟨(KeepAlive.machine S).init, .init S.host⟩, step S.host⟩

/-- Client `c` is punctual; nothing is asked of RECV and SEND. -/
def Punctual (c period delay : Nat) (s : State) : Act → Prop
  | .keep a => KeepAlive.Punctual c period delay s.keep a
  | .pipe _ => True

/-- The service client `d` offers. -/
def service (d : Nat) : Bytes := (S.start d).1.regiBody.svcnameStr

variable {S : Site} {c period delay : Nat} {s t : State} {x : MainCtx} {a : Act} {acts : List Act}
  {trace out : List KeepAlive.Obs} {svcOf : Bytes → Bytes} {m : Message}

/-! ## The broker among its clients -/

/-- The broker that the three threads are. -/
structure Shows (S : Site) (s : State) (x : MainCtx) : Prop where
  sound : KeepAlive.Sound S s.keep
  reg : x.reg = s.keep.reg
  pipe : x.pipe = s.pipe

@[simp] theorem posted_posts (posts : List Post) :
    posted (posts.map fun post => .posted post.notification) = posts.map Post.notification := by
  simp [posted, List.filterMap_map]

@[simp] theorem posted_heard (d : Nat) (out : List KeepAlive.Obs) : posted (.heard d :: out) = posted out := rfl

/-- A step of MGNT. -/
theorem Shows.mgnt {b : Mgnt.Act} {reg : Registry} {posts : List Post} (shows : Shows S s x)
    (promised : b.Promised svcOf) (ran : Mgnt.step s.keep.reg b = some (reg, posts)) :
    ∃ labels y tr, (∀ b ∈ labels, MainCtx.Act.Promised svcOf b) ∧
      (MainCtx.machine S.host).runFrom x labels = some (y, tr) ∧ y.reg = reg ∧
        y.pipe = (posts.map Post.notification).foldl (fun pipe n => pipe.eventBaseOnce n.callback) s.pipe := by
  have step : MainCtx.step S.host x (.mgnt b) =
      some ({ x with reg := reg, pipe := MainCtx.postAll x.pipe posts }, posts.map .posted) := by
    simp [MainCtx.step, shows.reg, ran]
  refine ⟨[.mgnt b], _, _, List.forall_mem_singleton.mpr promised,
    Machine.runFrom_cons.mpr ⟨_, _, [], step, rfl, rfl⟩, rfl, ?_⟩
  rw [List.foldl_map, MainCtx.postAll, shows.pipe]

/-- RECV and SEND run as they do without clients. -/
theorem step_pipe {a : Pipeline.Act} (ran : step S.host s (.pipe a) = some (t, out)) : (∀ n, a ≠ .post n) ∧
    ∃ pipe obs, Pipeline.step S.host s.pipe a = some (pipe, obs) ∧ t = ⟨s.keep, pipe⟩ ∧ out = [] := by
  cases a with
  | post n => cases ran
  | _ =>
    refine ⟨by simp, ?_⟩
    simp only [step, Option.map_eq_some_iff] at ran
    obtain ⟨⟨pipe, obs⟩, piped, same⟩ := ran
    cases same
    exact ⟨pipe, obs, piped, rfl, rfl⟩

/-- Every step is one of the broker, or does not concern it. -/
theorem Shows.matched (shows : Shows S s x) (names : ∀ d, PlainName (service S d) ∧ service S d = svcOf (S.uuid d))
    (ran : step S.host s a = some (t, out)) : ∃ labels y tr, (∀ b ∈ labels, MainCtx.Act.Promised svcOf b) ∧
      (MainCtx.machine S.host).runFrom x labels = some (y, tr) ∧ Shows S t y := by
  cases a with
  | keep a =>
    obtain ⟨⟨keep, obs⟩, kept, same⟩ := Option.map_eq_some_iff.mp ran
    cases same
    have moves := shows.sound.moves kept
    have sound := moves.sound shows.sound
    cases moves with
    | tick | regi | call | lose => exact ⟨[], x, [], by simp, rfl, sound, shows.reg, shows.pipe⟩
    | @hear d w m wire zmsg appls reg posts next announces regi =>
      obtain ⟨uuid, svcname⟩ := announces.terminated
      obtain ⟨uuidStr, svcnameStr⟩ := announces.names
      have promised : Mgnt.Act.Promised svcOf (.regi s.keep.now (Int32.ofNat sizeofApplsCtx) appls) := by
        intro size
        rw [uuidStr, svcnameStr]
        exact ⟨uuid, svcname, (names d).1, (names d).2⟩
      obtain ⟨labels, y, tr, kept, run, reg, pipe⟩ := shows.mgnt promised regi
      exact ⟨labels, y, tr, kept, run, sound, reg, by rw [pipe, posted_heard, posted_posts]⟩
    | sweepStart start =>
      have promised : Mgnt.Act.Promised svcOf .sweepStart := trivial
      obtain ⟨labels, y, tr, kept, run, reg, pipe⟩ := shows.mgnt promised start
      exact ⟨labels, y, tr, kept, run, sound, reg, pipe⟩
    | visit visit =>
      have promised : Mgnt.Act.Promised svcOf (.visit s.keep.now) := trivial
      obtain ⟨labels, y, tr, kept, run, reg, pipe⟩ := shows.mgnt promised visit
      exact ⟨labels, y, tr, kept, run, sound, reg, by rw [pipe, posted_posts]⟩
  | pipe a =>
    obtain ⟨notPost, pipe, obs, piped, rfl, -⟩ := step_pipe ran
    have step := MainCtx.step_pipe notPost (shows.pipe ▸ piped)
    exact ⟨[.pipe a], _, _, List.forall_mem_singleton.mpr trivial,
      Machine.runFrom_cons.mpr ⟨_, _, [], step, rfl, rfl⟩, shows.sound, shows.reg, rfl⟩

theorem runs_timely (run : (machine S).Runs acts s trace) (keeps : (machine S).Keeps (Punctual c period delay) acts)
    (distinct : ∀ d, d ≠ c → S.uuid d ≠ S.uuid c) (short : period + delay ≤ 10) :
    KeepAlive.Timely S c period delay trace s.keep := by
  refine (run.kept (fun tr s => KeepAlive.Sound S s.keep ∧ KeepAlive.Timely S c period delay tr s.keep) keeps
    ⟨KeepAlive.init_sound S, KeepAlive.init_timely S c period delay⟩ ?_).2
  rintro tr s a t out ⟨sound, timely⟩ punctual ran
  cases a with
  | keep a =>
    obtain ⟨⟨keep, obs⟩, kept, same⟩ := Option.map_eq_some_iff.mp ran
    cases same
    have moves := sound.moves kept
    exact ⟨moves.sound sound, moves.timely sound timely distinct short punctual⟩
  | pipe a =>
    obtain ⟨-, pipe, obs, -, rfl, rfl⟩ := step_pipe ran
    exact ⟨sound, by simpa using timely⟩

/-! ## Receptions -/

end MsaBroker.Availability
