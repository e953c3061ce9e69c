import MsaBroker.Endpoints
import MsaBroker.Progress
import MsaBroker.ServiceAgreement
import MsaBroker.Sweep

/-! What is left of the clients once they have fallen silent. A sweep that finds
every record late empties the registry, SEND then takes down what it put up for
the services, and the broker has the tables, the sockets and the contexts it was
started with: nothing a client ever did leaves a trace in them. -/
namespace MsaBroker
open CMemory Lease

/-! ## Silence -/

namespace Mgnt

variable {reg reg' : Registry} {a : Act} {posts : List Post} {records : List (Element ApplsCtx)}

/-- A step in which no client is heard, and none of these records is in time. -/
def Act.Silent (records : List (Element ApplsCtx)) : Act → Prop
  | .regi .. => False
  | .sweepStart => True
  | .visit now => ∀ e ∈ records, Sweep.Late now e

/-- A sweep has left none of these records behind, and there are no others. -/
def Unswept (records : List (Element ApplsCtx)) (reg : Registry) : Prop :=
  reg.swept = [] ∧ ∀ e ∈ reg.list, e ∈ records

/-- In silence a sweep leaves no record behind. -/
theorem step_silent (ran : step reg a = some (reg', posts)) (silent : a.Silent records)
    (unswept : Unswept records reg) : Unswept records reg' := by
  obtain ⟨none, known⟩ := unswept
  cases a with
  | regi now nBytes appls => exact silent.elim
  | sweepStart =>
    obtain ⟨started, same, -⟩ := step_sweepStart ran
    exact ⟨started, same ▸ known⟩
  | visit now =>
    simp only [step] at ran
    split at ran
    · cases ran
    · rename_i e todo next
      have late : now.toInt - e.data.timestamp.toInt > 10 := silent e (known e (by simp [Registry.list, next]))
      cases ran
      simp only [checkSvcAlive, next, late, ↓reduceIte]
      refine ⟨none, fun e' member => known e' ?_⟩
      simp only [Registry.list, none, next, List.nil_append] at member ⊢
      exact List.mem_cons_of_mem e member

/-- A sweep that has started can go on to its end. -/
theorem step_visit (now : Int64) (unfinished : reg.todo ≠ []) :
    ∃ reg' posts, step reg (.visit now) = some (reg', posts) ∧ reg'.todo.length < reg.todo.length := by
  cases next : reg.todo with
  | nil => exact absurd next unfinished
  | cons e todo =>
    refine ⟨_, _, by simp only [step, next]; rfl, ?_⟩
    by_cases late : now.toInt - e.data.timestamp.toInt > 10 <;> simp [checkSvcAlive, next, late]

end Mgnt

namespace MainCtx

variable {host : Host} {s t : MainCtx} {a : Act} {acts rest : List Act} {trace out : List Obs}
  {svcOf : Bytes → Bytes} {records : List (Element ApplsCtx)}

/-- No client is heard and no record is in time; messages may come in to be
relayed. -/
def Act.Silent (records : List (Element ApplsCtx)) : Act → Prop
  | .mgnt a => a.Silent records
  | .pipe _ => True

/-- What the broker has in common with the one that was started: all but its
counters, its cursors and the messages it has seen. -/
structure AsStarted (host : Host) (s : MainCtx) : Prop where
  registry : s.reg.list = []
  sendTable : s.pipe.zsockLlist = (MainCtx.init host).pipe.zsockLlist
  recvTable : s.recvLlist = (MainCtx.init host).recvLlist
  mgntTable : s.mgntLlist = (MainCtx.init host).mgntLlist
  sockets : s.pipe.net.opened.Perm (MainCtx.init host).pipe.net.opened
  /-- No context is in use but the one RECV holds. -/
  contexts : ∀ x, s.pipe.pool.live x = true → s.pipe.recv = some x

/-! ## What stays -/

/-- The broker's own entries, and the sockets of all. -/
structure Standing (host : Host) (s : MainCtx) : Prop where
  opened : Opened host s.pipe.net ((s.recvLlist ++ s.mgntLlist) ++ s.pipe.zsockLlist)
  recvTable : s.recvLlist = (MainCtx.init host).recvLlist
  mgntTable : s.mgntLlist = (MainCtx.init host).mgntLlist
  router : ∀ e ∈ (MainCtx.init host).pipe.zsockLlist, getElement e.key s.pipe.zsockLlist = some e

theorem init_standing (host : Host) : Standing host (MainCtx.init host) where
  opened := (init_listens host).opened
  recvTable := rfl
  mgntTable := rfl
  router _ member := getElement_of_mem (init_listens host).sorted member

theorem init_table (host : Host) : ∃ e, (MainCtx.init host).pipe.zsockLlist = [e] ∧ e.key = ascii "ROUTER" ∧
    e.data.type = .router :=
  ⟨⟨ascii "ROUTER", ascii "ROUTER", .router, zsockIpcPath host (ascii "ROUTER"), 0⟩, rfl, rfl, rfl⟩

theorem Moves.standing (moves : Moves host s a t out) (sorted : ElemSorted s.pipe.zsockLlist)
    (plain : ∀ n ∈ s.pipe.notifications, 37 ∉ n.svc) (standing : Standing host s) : Standing host t := by
  cases moves with
  | @mgnt a reg posts moves =>
    obtain ⟨-, llist, net⟩ := postAll_same s.pipe posts
    refine ⟨?_, standing.recvTable, standing.mgntTable, ?_⟩
    · simpa only [llist, net] using standing.opened
    · simpa only [llist] using standing.router
  | quiet idle notifications llist net =>
    refine ⟨?_, standing.recvTable, standing.mgntTable, ?_⟩
    · simpa only [llist, net] using standing.opened
    · simpa only [llist] using standing.router
  | @acted a pipe n running next run =>
    obtain ⟨net, llist⟩ := Prod.mk.inj run
    have unformatted : 37 ∉ n.svc := plain n (next ▸ List.mem_cons_self)
    have notPush : ∀ e ∈ (MainCtx.init host).pipe.zsockLlist, e.data.type ≠ .push := by
      obtain ⟨router, table, -, type⟩ := init_table host
      simp [table, type]
    cases n with
    | create appls =>
      refine ⟨?_, standing.recvTable, standing.mgntTable, fun e member => ?_⟩
      · rw [net, llist]
        exact (standing.opened.add sorted unformatted .push).1
      · rw [llist]
        exact addZsockToList_keeps sorted (standing.router e member)
    | remove appls =>
      refine ⟨?_, standing.recvTable, standing.mgntTable, fun e member => ?_⟩
      · rw [net, llist]
        exact (standing.opened.del .push).1
      · rw [llist]
        exact delZsockFromList_keeps sorted (standing.router e member) (notPush e member)

theorem Agrees.plain (agrees : Agrees svcOf trace s) : ∀ n ∈ s.pipe.notifications, 37 ∉ n.svc := by
  intro n waiting
  have posted : n ∈ (posts trace).map Post.notification := agrees.fifo ▸ List.mem_append_right _ waiting
  obtain ⟨post, member, rfl⟩ := List.mem_map.mp posted
  exact (agrees.announced.named post member).2.1

theorem runs_standing (run : (machine host).Runs acts s trace) (promised : ∀ a ∈ acts, a.Promised svcOf) :
    Standing host s := by
  refine (runs_invariant (fun tr s => Agrees svcOf tr s ∧ Standing host s) (Act.Promised svcOf) run promised
    ⟨init_agrees host, init_standing host⟩ ?_).2
  rintro tr s a t out - ⟨agrees, standing⟩ promised moves
  exact ⟨moves.agrees promised agrees, moves.standing agrees.follows.sorted agrees.plain standing⟩

/-! ## What goes -/

/-- SEND's table without services is the one it began with. -/
theorem Standing.sendTable (standing : Standing host s) (agrees : Agrees svcOf trace s) (empty : s.reg.list = [])
    (done : s.pipe.notifications = []) : s.pipe.zsockLlist = (MainCtx.init host).pipe.zsockLlist := by
  have sorted := agrees.follows.sorted
  have acted : MainCtx.done trace = (posts trace).map Post.notification := by
    rw [agrees.fifo, done, List.append_nil]
  -- An entry beside the router's would be a service on offer.
  have router : ∀ e ∈ s.pipe.zsockLlist, e.key = ascii "ROUTER" := by
    intro e member
    by_contra other
    have type := agrees.follows.entry e.key
    rw [getElement_of_mem sorted member, entryType, if_neg other, acted] at type
    by_cases named : e.key = []
    · have unused : lifeOf e.key ((posts trace).map Post.notification) = [] := by
        refine lifeOf_eq_nil fun n waiting => ?_
        obtain ⟨post, posted, rfl⟩ := List.mem_map.mp waiting
        rw [named]
        exact (agrees.announced.named post posted).1
      simp [unused, track] at type
    · have dead := agrees.announced.live e.key named
      simp [dead, Mgnt.Offers, empty] at type
  obtain ⟨e, table, key, -⟩ := init_table host
  have found : getElement e.key s.pipe.zsockLlist = some e := standing.router e (by simp [table])
  have nodup : s.pipe.zsockLlist.Nodup := List.Nodup.of_map Element.key sorted.keys_nodup
  rw [table]
  refine List.perm_singleton.mp ((List.perm_ext_iff_of_nodup nodup (List.nodup_singleton e)).mpr fun e' => ?_)
  rw [List.mem_singleton]
  constructor
  · intro member
    have same : getElement e'.key s.pipe.zsockLlist = some e' := getElement_of_mem sorted member
    rw [router e' member, ← key, found] at same
    exact (Option.some.inj same).symm
  · rintro rfl
    exact (getElement_some found).1

/-- Where the registry is empty and SEND has nothing to do, nothing is left of
the clients. -/
theorem Standing.asStarted (standing : Standing host s) (agrees : Agrees svcOf trace s) (ok : s.Ok)
    (empty : s.reg.list = []) (idle : s.pipe.pending = []) : AsStarted host s := by
  have sendTable := standing.sendTable agrees empty (by simp [Pipeline.notifications, idle])
  have sockets := standing.opened.perm
  rw [standing.recvTable, standing.mgntTable, sendTable] at sockets
  obtain ⟨tr, inv⟩ := ok.pipe
  exact {
    registry := empty
    sendTable := sendTable
    recvTable := standing.recvTable
    mgntTable := standing.mgntTable
    sockets := sockets.trans (init_listens host).opened.perm.symm
    contexts := fun x live => by simpa [Pipeline.refs, idle] using inv.live_iff.mp live }

/-! ## Sweeping and draining -/

theorem Act.Silent.promised (silent : a.Silent records) : a.Promised svcOf := by
  cases a with
  | pipe a => trivial
  | mgnt a => cases a with
    | regi now nBytes appls => exact silent.elim
    | sweepStart => trivial
    | visit now => trivial

/-- The registry is MGNT's alone. -/
theorem step_reg (step : MainCtx.step host s a = some (t, out)) : (∃ b, a = .pipe b ∧ t.reg = s.reg) ∨
    ∃ b posts, a = .mgnt b ∧ Mgnt.step s.reg b = some (t.reg, posts) := by
  cases a with
  | mgnt b =>
    obtain ⟨⟨reg, posts⟩, ran, same⟩ := Option.map_eq_some_iff.mp step
    cases same
    exact .inr ⟨b, posts, rfl, ran⟩
  | pipe b =>
    refine .inl ⟨b, rfl, ?_⟩
    cases b with
    | post n => cases step
    | _ =>
      simp only [MainCtx.step, Option.map_eq_some_iff, Prod.exists] at step
      obtain ⟨pipe, obs, -, same⟩ := step
      cases same
      rfl

theorem step_silent (step : MainCtx.step host s a = some (t, out)) (silent : a.Silent records)
    (unswept : Mgnt.Unswept records s.reg) : Mgnt.Unswept records t.reg := by
  rcases step_reg step with ⟨b, rfl, same⟩ | ⟨b, posts, rfl, ran⟩
  · exact same ▸ unswept
  · exact Mgnt.step_silent ran silent unswept

/-- MGNT can finish its sweep while the clock stands. -/
theorem exists_swept (now : Int64) (ok : s.Ok) : ∃ rest t out, (∀ a ∈ rest, a = .mgnt (.visit now)) ∧
    (machine host).runFrom s rest = some (t, out) ∧ t.Ok ∧ t.reg.todo = [] := by
  refine Machine.exists_done (M := machine host) Ok (fun s => s.reg.todo = []) (fun a => a = .mgnt (.visit now))
    (fun s => s.reg.todo.length) ok fun s ok unfinished => ?_
  obtain ⟨reg, posts, visited, less⟩ := Mgnt.step_visit now unfinished
  have step : MainCtx.step host s (.mgnt (.visit now)) =
      some ({ s with reg := reg, pipe := postAll s.pipe posts }, posts.map .posted) := by
    simp [MainCtx.step, visited]
  exact ⟨_, _, _, rfl, step, (ok.step_moves step).2, less⟩

/-- RECV and SEND can finish what there is to do. -/
theorem exists_drained (ok : s.Ok) : ∃ rest t out, (∀ a ∈ rest, ∃ b, a = .pipe b) ∧
    (machine host).runFrom s rest = some (t, out) ∧ (t.Ok ∧ t.reg = s.reg) ∧ t.pipe.Drained := by
  refine Machine.exists_done (M := machine host) (fun t => t.Ok ∧ t.reg = s.reg) (fun t => t.pipe.Drained)
    (fun a => ∃ b, a = .pipe b) (fun t => t.pipe.workLeft) ⟨ok, rfl⟩ ?_
  rintro u ⟨ok, same⟩ left
  obtain ⟨a, pipe, obs, works, worked⟩ := Pipeline.exists_work host left
  have notPost : ∀ n, a ≠ .post n := by
    rintro n rfl
    cases works
  have step := step_pipe notPost worked
  refine ⟨_, _, _, ⟨a, rfl⟩, step, ⟨(ok.step_moves step).2, same⟩, ?_⟩
  obtain ⟨tr, inv⟩ := ok.pipe
  have paid := (inv.step_moves worked).pays
  have nothing : Pipeline.brings a = 0 := by
    cases a <;> first | rfl | cases works
  rw [Pipeline.work, works, nothing] at paid
  exact Nat.lt_of_lt_of_le (by simp) paid

/-- **Silence takes the broker back to its start.** From any state of a run that
is between two sweeps: whatever else the threads do, once a sweep has found no
record in time and SEND has nothing left to do, the tables, the sockets and the
contexts are those the broker was started with; and it comes to this as soon as
the clock is past the ten seconds of every record. -/
theorem silence_clears (run : (machine host).Runs acts s trace) (promised : ∀ a ∈ acts, a.Promised svcOf) :
    (∀ rest t out, (∀ a ∈ rest, a.Silent s.reg.list) →
      (machine host).runFrom s (.mgnt .sweepStart :: rest) = some (t, out) → t.reg.todo = [] →
        t.pipe.pending = [] → AsStarted host t) ∧
    ∀ now, s.reg.todo = [] → (∀ e ∈ s.reg.list, Sweep.Late now e) →
      ∃ rest t out, (∀ a ∈ rest, a.Silent s.reg.list) ∧
        (machine host).runFrom s (.mgnt .sweepStart :: rest) = some (t, out) ∧ t.reg.todo = [] ∧
          t.pipe.pending = [] := by
  have ok := runs_ok run
  constructor
  · intro rest t out silent further swept idle
    have whole : (machine host).Runs (acts ++ .mgnt .sweepStart :: rest) t (trace ++ out) :=
      Machine.runFrom_append.mpr ⟨s, trace, out, run, further, rfl⟩
    have kept : ∀ a ∈ acts ++ .mgnt .sweepStart :: rest, a.Promised svcOf := by
      intro a member
      rcases List.mem_append.mp member with earlier | later
      · exact promised a earlier
      · rcases List.mem_cons.mp later with rfl | quiet
        · trivial
        · exact (silent a quiet).promised
    have empty : t.reg.list = [] := by
      obtain ⟨u, out, last, step, onward, -⟩ := Machine.runFrom_cons.mp further
      have started : Mgnt.Unswept s.reg.list u.reg := by
        have begun : MainCtx.step host s (.mgnt .sweepStart) = some (u, out) := step
        rcases step_reg begun with ⟨b, other, -⟩ | ⟨b, posts, same, ran⟩
        · cases other
        · cases same
          obtain ⟨started, list, -⟩ := Mgnt.step_sweepStart ran
          exact ⟨started, fun e member => list ▸ member⟩
      have unswept := Machine.runFrom_invariant (fun u => Mgnt.Unswept s.reg.list u.reg)
        (Act.Silent s.reg.list) onward silent started fun _ _ _ _ unswept silent step =>
          step_silent step silent unswept
      rw [Registry.list, unswept.1, swept, List.nil_append]
    exact (runs_standing whole kept).asStarted (runs_agrees whole kept) (runs_ok whole) empty idle
  · intro now between late
    have start : MainCtx.step host s (.mgnt .sweepStart) = some ({ s with reg := sweepStart s.reg }, []) := by
      simp [MainCtx.step, Mgnt.step, between, postAll]
    obtain ⟨visits, u, out, visiting, run₁, ok₁, swept⟩ := exists_swept now (ok.step_moves start).2
    obtain ⟨works, t, out', working, run₂, ⟨-, same⟩, drained⟩ := @exists_drained host u ok₁
    refine ⟨visits ++ works, t, [] ++ (out ++ out'), fun a member => ?_, ?_, same ▸ swept, drained.2⟩
    · rcases List.mem_append.mp member with visit | work
      · obtain rfl := visiting a visit
        exact late
      · obtain ⟨b, rfl⟩ := working a work
        trivial
    · exact Machine.runFrom_cons.mpr ⟨_, [], _, start,
        Machine.runFrom_append.mpr ⟨u, out, out', run₁, run₂, rfl⟩, rfl⟩

/-- A service is put up for its one client. -/
def served : List Act :=
  [.mgnt (.regi 0 424 (Mgnt.record "a" "x")), .pipe .sendTake, .pipe (.sendRun ⟨0, 0, 0⟩)]

/-- The client is found late, and SEND takes its service down. -/
def servedThenSilent : List Act :=
  [.mgnt (.visit 11), .pipe .sendTake, .pipe (.sendRun ⟨0, 0, 0⟩)]

set_option maxRecDepth 20000 in
theorem silence_clears_served : ∃ s trace t out, (machine .bare).Runs served s trace ∧
    s.pipe.zsockLlist.length = 2 ∧
    (machine .bare).runFrom s (.mgnt .sweepStart :: servedThenSilent) = some (t, out) ∧ AsStarted .bare t := by
  have promised : ∀ a ∈ served, a.Promised fun _ => ascii "x" := by
    intro a member
    fin_cases member
    · exact fun _ => ⟨by decide, by decide, by decide, by decide⟩
    · trivial
    · trivial
  obtain ⟨s, trace, t, out, run, table, records, further, swept, idle⟩ : ∃ s trace t out,
      (machine .bare).Runs served s trace ∧ s.pipe.zsockLlist.length = 2 ∧
      (∃ e, s.reg.list = [e] ∧ e.data.timestamp = 0) ∧
      (machine .bare).runFrom s (.mgnt .sweepStart :: servedThenSilent) = some (t, out) ∧
      t.reg.todo = [] ∧ t.pipe.pending = [] := ⟨_, _, _, _, rfl, rfl, ⟨_, rfl, by decide⟩, rfl, rfl, rfl⟩
  have silent : ∀ a ∈ servedThenSilent, a.Silent s.reg.list := by
    obtain ⟨e, only, heard⟩ := records
    intro a member
    fin_cases member
    · simp [Act.Silent, Mgnt.Act.Silent, Sweep.Late, only, heard]
    · trivial
    · trivial
  exact ⟨s, trace, t, out, run, table, further, (silence_clears run promised).1 _ t out silent further swept idle⟩

end MainCtx

end MsaBroker
