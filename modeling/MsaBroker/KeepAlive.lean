import MsaBroker.Accounting
import MsaBroker.LastHeard
import MsaBroker.Lib.Renewal
import MsaBroker.Network
import MsaBroker.ServiceEndpoint

/-! How a client keeps its place in the registry. Its `zutil_regi` publishes a
REGI message at most once a second, the broker's SUB socket receives it some time
later, and `manage_appls` drops a record that was last heard of more than ten
seconds ago. All of them read the clock of one machine, in seconds. -/
namespace MsaBroker.KeepAlive
open CMemory Renewal

structure State where
  clock : Nat
  client : Nat → ZutilCtx
  /-- When each client last called `zutil_regi`; nothing reads it. -/
  called : Nat → Option Nat
  /-- What each client's PUB socket has taken and the broker has not received,
  with the time. -/
  wire : Nat → List (Nat × Message)
  /-- `msg_buffer` of the SUB reader. -/
  zmsg : Zmessage
  reg : Registry

/-- What `time(NULL)` returns. -/
def State.now (s : State) : Int64 := Int64.ofNat s.clock

inductive Act where
  /-- A second passes. -/
  | tick
  /-- Client `d` calls `zutil_regi`. -/
  | regi (d : Nat) (ctime : Bytes) (res : ZutilRes)
  /-- Client `d` does something else. -/
  | call (d : Nat) (a : Accounting.Act)
  /-- The broker receives the next REGI message of client `d`. -/
  | hear (d : Nat)
  /-- That message is lost. -/
  | lose (d : Nat)
  /-- `manage_appls` begins, or visits the next record. -/
  | sweepStart
  | visit

inductive Obs where
  | heard (d : Nat)
  | posted (n : Notification)

/-- What a SUB socket receives of the frames a PUB socket took. -/
def published : List Bytes → Option Message
  | [head, body] => some ⟨head, [body]⟩
  | _ => none

variable (S : Site)

/-- `zutil_regi`. ZeroMQ decides at the first frame of a message whether there is
room, so a body frame is not refused behind its header. -/
def stepRegi (d : Nat) (ctime : Bytes) (res : ZutilRes) (s : State) : Option (State × List Obs) :=
  if res.headRes > 0 ∧ res.bodyRes < 0 then none
  else
    let (z, frames) := zutilRegi s.now ctime res (s.client d)
    some ({ s with
      client := Function.update s.client d z
      called := Function.update s.called d (some s.clock)
      wire := Function.update s.wire d (s.wire d ++ (published frames).toList.map fun m => (s.clock, m)) }, [])

/-- One iteration of `evsock_sub_read`; it runs between sweeps. -/
def stepHear (d : Nat) (s : State) : Option (State × List Obs) :=
  match s.reg.todo, s.wire d with
  | [], (_, m) :: wire =>
    (subRead s.now s.zmsg ⟨[], [m]⟩ s.reg).map fun ran =>
      ({ s with wire := Function.update s.wire d wire, zmsg := ran.1, reg := ran.2.2.1 },
        .heard d :: ran.2.2.2.map .posted)
  | _, _ => none

def step (s : State) : Act → Option (State × List Obs)
  | .tick => if s.clock + 1 < 2 ^ 63 then some ({ s with clock := s.clock + 1 }, []) else none
  | .regi d ctime res => stepRegi d ctime res s
  | .call _ (.regi ..) => none
  | .call d a => (Accounting.step (s.client d) a).map fun ran =>
      ({ s with client := Function.update s.client d ran.1 }, [])
  | .hear d => stepHear d s
  | .lose d => some ({ s with wire := Function.update s.wire d (s.wire d).tail }, [])
  | .sweepStart => (Mgnt.step s.reg .sweepStart).map fun ran => ({ s with reg := ran.1 }, [])
  | .visit => (Mgnt.step s.reg (.visit s.now)).map fun ran =>
      ({ s with reg := ran.1 }, ran.2.map fun post => .posted post.notification)

def machine : Machine State Act Obs :=
  ⟨⟨0, fun d => (S.start d).1, fun _ => none, fun _ => [], ⟨.zero, .zero _⟩, ⟨[], []⟩⟩, step⟩

/-- Client `c` calls `zutil_regi` again before `period` seconds have passed, its
messages are taken and not lost, and each is received before `delay` seconds have
passed. -/
def Punctual (c period delay : Nat) (s : State) : Act → Prop
  | .tick => (∀ r, s.called c = some r → s.clock < r + period) ∧ ∀ m ∈ s.wire c, s.clock < m.1 + delay
  | .regi d _ res => d = c → 0 < res.headRes ∧ 0 ≤ res.bodyRes
  | .lose d => d ≠ c
  | .call .. | .hear _ | .sweepStart | .visit => True

/-- The registry has the client, under the service it offers. -/
def Listed (c : Nat) (s : State) : Prop :=
  ∃ e ∈ s.reg.list, e.key = S.uuid c ∧ e.svc = (S.start c).1.regiBody.svcnameStr

variable {S : Site} {c d period delay : Nat} {s t : State} {a : Act} {out trace : List Obs} {acts : List Act}
  {appls : ApplsCtx} {z : ZutilCtx} {now : Int64} {ctime : Bytes} {res : ZutilRes} {m : Message}

/-! ## What a client announces -/

/-- The record is under the names client `d` was started with. -/
structure Announces (S : Site) (d : Nat) (appls : ApplsCtx) : Prop where
  uuid : appls.uuid = (S.start d).1.regiBody.uuid
  svcname : appls.svcname = (S.start d).1.regiBody.svcname

theorem Announces.terminated (announces : Announces S d appls) : appls.uuid.Terminated ∧ appls.svcname.Terminated := by
  rw [announces.uuid, announces.svcname]
  exact ⟨zutilInit_registered .., Buf.snprintf_terminated _ _ zmsgCommStrlen_pos⟩

theorem Announces.names (announces : Announces S d appls) :
    appls.uuidStr = S.uuid d ∧ appls.svcnameStr = (S.start d).1.regiBody.svcnameStr := by
  obtain ⟨uuid, svcname⟩ := announces.terminated
  obtain ⟨uuid', svcname'⟩ := Announces.terminated (S := S) (d := d) ⟨rfl, rfl⟩
  rw [ApplsCtx.uuidStr_of_terminated uuid, ApplsCtx.svcnameStr_of_terminated svcname, Site.uuid,
    ApplsCtx.uuidStr_of_terminated uuid', ApplsCtx.svcnameStr_of_terminated svcname', announces.uuid,
    announces.svcname]
  exact ⟨rfl, rfl⟩

/-- The message is one that `zutil_regi` of client `d` publishes. -/
def IsRegi (S : Site) (d : Nat) (m : Message) : Prop :=
  ∃ (h : Envelop) (appls : ApplsCtx), m = ⟨h.bytes, [appls.bytes]⟩ ∧ h.type = zmsgRegi ∧
    h.nBytes = Int32.ofNat sizeofApplsCtx ∧ Announces S d appls

/-- A call of `zutil_regi` either comes too early, or announces the client as of
now. -/
inductive Calls (S : Site) (d : Nat) (now : Int64) (res : ZutilRes) (z : ZutilCtx) : ZutilCtx → Option Message → Prop
  | early (same : now.toInt - z.regiBody.timestamp.toInt < 1) : Calls S d now res z z none
  | due {z' : ZutilCtx} {m : Option Message} (later : 1 ≤ now.toInt - z.regiBody.timestamp.toInt)
      (announces : Announces S d z'.regiBody) (timestamp : z'.regiBody.timestamp = now)
      (regi : ∀ m' ∈ m, IsRegi S d m') (sent : 0 < res.headRes → m ≠ none) : Calls S d now res z z' m

theorem zutilRegi_calls (announces : Announces S d z.regiBody) (now : Int64) (ctime : Bytes) (res : ZutilRes) :
    Calls S d now res z (zutilRegi now ctime res z).1 (published (zutilRegi now ctime res z).2) := by
  by_cases early : now.toInt - z.regiBody.timestamp.toInt < 1
  · rw [zutilRegi, if_pos early]
    exact .early early
  · refine .due (by omega) ?_ ?_ ?_ ?_
    · refine ⟨?_, ?_⟩ <;> rw [zutilRegi, if_neg early]
      · exact announces.uuid
      · exact announces.svcname
    · rw [zutilRegi, if_neg early]
    · intro m taken
      rw [zutilRegi, if_neg early] at taken
      by_cases head : res.headRes > 0
      · simp only [head, ↓reduceIte, published, Option.mem_def, Option.some.injEq] at taken
        exact ⟨_, _, taken.symm, rfl, rfl, announces.uuid, announces.svcname⟩
      · simp [head, published] at taken
    · intro head
      simp [zutilRegi, early, head, published]

/-- Nothing else a client does concerns its names or its clock. -/
theorem call_keeps {a : Accounting.Act} {z' : ZutilCtx} {out : List Accounting.Obs}
    (other : ∀ now ctime res, a ≠ .regi now ctime res) (ran : Accounting.step z a = some (z', out)) :
    z'.regiBody.uuid = z.regiBody.uuid ∧ z'.regiBody.svcname = z.regiBody.svcname ∧
      z'.regiBody.timestamp = z.regiBody.timestamp := by
  cases a with
  | arrive from_ m =>
    cases ran
    cases from_ <;> exact ⟨rfl, rfl, rfl⟩
  | send route dest buff size stamp res =>
    obtain rfl : (zutilSend route dest buff size stamp res z).2.1 = z' := congrArg Prod.fst (Option.some.inj ran)
    simp only [zutilSend]
    split_ifs <;> exact ⟨rfl, rfl, rfl⟩
  | recv head buff size =>
    obtain rfl : (zutilRecv head buff size z).2.2.2 = z' := congrArg Prod.fst (Option.some.inj ran)
    rw [Accounting.zutilRecv_regiBody]
    unfold ApplsCtx.received
    split <;> exact ⟨rfl, rfl, rfl⟩
  | regi now ctime res => exact absurd rfl (other now ctime res)

/-! ## The steps -/

/-- What holds of every state reached, in time or not. -/
structure Sound (S : Site) (s : State) : Prop where
  clock : s.clock < 2 ^ 63
  client : ∀ d, Announces S d (s.client d).regiBody
  wire : ∀ d, ∀ m ∈ s.wire d, IsRegi S d m.2
  sorted : ElemSorted s.reg.list

theorem Sound.now_toInt (sound : Sound S s) : s.now.toInt = s.clock := Int64.toInt_ofNat_of_lt sound.clock

/-- What a step does. -/
inductive Moves (S : Site) (s : State) : Act → State → List Obs → Prop
  | tick (room : s.clock + 1 < 2 ^ 63) : Moves S s .tick { s with clock := s.clock + 1 } []
  | regi {d : Nat} {z : ZutilCtx} {m : Option Message} (ctime : Bytes) {res : ZutilRes}
      (calls : Calls S d s.now res (s.client d) z m) :
      Moves S s (.regi d ctime res) { s with
        client := Function.update s.client d z
        called := Function.update s.called d (some s.clock)
        wire := Function.update s.wire d (s.wire d ++ m.toList.map fun m => (s.clock, m)) } []
  | call {d : Nat} {a : Accounting.Act} {z : ZutilCtx} (names : Announces S d z.regiBody)
      (timestamp : z.regiBody.timestamp = (s.client d).regiBody.timestamp) :
      Moves S s (.call d a) { s with client := Function.update s.client d z } []
  | hear {d w : Nat} {m : Message} {wire : List (Nat × Message)} {zmsg : Zmessage} {appls : ApplsCtx}
      {reg : Registry} {posts : List Post} (next : s.wire d = (w, m) :: wire) (announces : Announces S d appls)
      (regi : Mgnt.step s.reg (.regi s.now (Int32.ofNat sizeofApplsCtx) appls) = some (reg, posts)) :
      Moves S s (.hear d) { s with wire := Function.update s.wire d wire, zmsg := zmsg, reg := reg }
        (.heard d :: posts.map fun post => .posted post.notification)
  | lose {d : Nat} : Moves S s (.lose d) { s with wire := Function.update s.wire d (s.wire d).tail } []
  | sweepStart {reg : Registry} (start : Mgnt.step s.reg .sweepStart = some (reg, [])) :
      Moves S s .sweepStart { s with reg := reg } []
  | visit {reg : Registry} {posts : List Post} (visit : Mgnt.step s.reg (.visit s.now) = some (reg, posts)) :
      Moves S s .visit { s with reg := reg } (posts.map fun post => .posted post.notification)

theorem Sound.moves (sound : Sound S s) (ran : step s a = some (t, out)) : Moves S s a t out := by
  cases a with
  | tick =>
    simp only [step] at ran
    split at ran
    · rename_i room
      cases ran
      exact .tick room
    · cases ran
  | regi d ctime res =>
    simp only [step, stepRegi] at ran
    split at ran
    · cases ran
    · cases ran
      exact .regi ctime (zutilRegi_calls (sound.client d) _ _ _)
  | call d a =>
    have other : ∀ now ctime res, a ≠ .regi now ctime res := by
      rintro now ctime res rfl
      cases ran
    have known : (Accounting.step (s.client d) a).map (fun ran =>
        ({ s with client := Function.update s.client d ran.1 }, ([] : List Obs))) = some (t, out) := by
      cases a with
      | regi now ctime res => exact absurd rfl (other now ctime res)
      | _ => exact ran
    obtain ⟨⟨z, obs⟩, called, same⟩ := Option.map_eq_some_iff.mp known
    cases same
    obtain ⟨uuid, svcname, timestamp⟩ := call_keeps other called
    obtain ⟨before, before'⟩ := sound.client d
    exact .call ⟨uuid.trans before, svcname.trans before'⟩ timestamp
  | hear d =>
    simp only [step, stepHear] at ran
    split at ran
    · rename_i w m wire idle next
      obtain ⟨h, appls, rfl, regi, size, announces⟩ := sound.wire d (w, m) (by simp [next])
      obtain ⟨⟨zmsg, sub, reg, posted⟩, read, same⟩ := Option.map_eq_some_iff.mp ran
      cases same
      have handled := subRead_regi s.now s.zmsg s.reg [] appls regi size
      rw [read, Option.map_some, Option.some.injEq, Prod.mk.injEq] at handled
      have step : Mgnt.step s.reg (.regi s.now (Int32.ofNat sizeofApplsCtx) appls) =
          some (reg, posted.map fun n => ⟨n, reg.list⟩) := by
        simp [Mgnt.step, idle, ← handled.2]
      have moves : Moves S s (.hear d) { s with wire := Function.update s.wire d wire, zmsg := zmsg, reg := reg } _ :=
        .hear next announces step
      simpa [Function.comp_def] using moves
    · cases ran
  | lose d =>
    cases ran
    exact .lose
  | sweepStart =>
    obtain ⟨⟨reg, posts⟩, started, same⟩ := Option.map_eq_some_iff.mp ran
    cases same
    obtain ⟨-, -, rfl⟩ := Mgnt.step_sweepStart started
    exact .sweepStart started
  | visit =>
    obtain ⟨⟨reg, posts⟩, visited, same⟩ := Option.map_eq_some_iff.mp ran
    cases same
    exact .visit visited

private theorem names_update (client : ∀ d, Announces S d (s.client d).regiBody) (names : Announces S d z.regiBody) :
    ∀ d', Announces S d' (Function.update s.client d z d').regiBody :=
  (Function.forall_update_iff s.client fun d' z => Announces S d' z.regiBody).mpr
    ⟨names, fun d' _ => client d'⟩

private theorem wire_update {left : List (Nat × Message)} (wire : ∀ d, ∀ m ∈ s.wire d, IsRegi S d m.2)
    (made : ∀ m ∈ left, IsRegi S d m.2) : ∀ d', ∀ m ∈ Function.update s.wire d left d', IsRegi S d' m.2 :=
  (Function.forall_update_iff s.wire fun d' left => ∀ m ∈ left, IsRegi S d' m.2).mpr
    ⟨made, fun d' _ => wire d'⟩

theorem Moves.sound (moves : Moves S s a t out) (sound : Sound S s) : Sound S t := by
  obtain ⟨clock, client, wire, sorted⟩ := sound
  cases moves with
  | tick room => exact ⟨room, client, wire, sorted⟩
  | @regi d z m ctime res calls =>
    have names : Announces S d z.regiBody := by
      cases calls with
      | early same => exact client d
      | due later announces => exact announces
    have made : ∀ m' ∈ m, IsRegi S d m' := by
      cases calls with
      | early same => simp
      | due later announces timestamp regi => exact regi
    refine ⟨clock, names_update client names, wire_update wire fun m' member => ?_, sorted⟩
    rcases List.mem_append.mp member with earlier | now
    · exact wire d m' earlier
    · obtain ⟨m, taken, rfl⟩ := List.mem_map.mp now
      exact made m (by simpa using taken)
  | call names timestamp => exact ⟨clock, names_update client names, wire, sorted⟩
  | @hear d w m left zmsg appls reg posts next announces regi =>
    refine ⟨clock, client, wire_update wire fun m' member => ?_, (Mgnt.step_moves sorted regi).sorted sorted⟩
    exact wire d m' (next ▸ List.mem_cons_of_mem _ member)
  | @lose d => exact ⟨clock, client, wire_update wire fun m' member => wire d m' (List.mem_of_mem_tail member), sorted⟩
  | sweepStart start => exact ⟨clock, client, wire, (Mgnt.step_moves sorted start).sorted sorted⟩
  | visit visit => exact ⟨clock, client, wire, (Mgnt.step_moves sorted visit).sorted sorted⟩

/-! ## A punctual client -/

/-- The renewals of client `c` and its record, by their times. -/
def times (S : Site) (c : Nat) (s : State) : Times where
  clock := s.clock
  renewed := s.called c
  waiting := (s.wire c).map Prod.fst
  granted := (getElement (S.uuid c) s.reg.list).map fun e => e.data.timestamp.toInt.toNat

structure Timely (S : Site) (c period delay : Nat) (trace : List Obs) (s : State) : Prop where
  inTime : InTime period delay (times S c s)
  timestamp : (s.client c).regiBody.timestamp.toInt = ((s.called c).getD 0 : Nat)
  record : ∀ e, getElement (S.uuid c) s.reg.list = some e →
    e.svc = (S.start c).1.regiBody.svcnameStr ∧ 0 ≤ e.data.timestamp.toInt
  heard : .heard c ∈ trace → getElement (S.uuid c) s.reg.list ≠ none

/-- What does not concern the client and its record leaves it in time. -/
theorem Timely.frame (timely : Timely S c period delay trace s) (clock : t.clock = s.clock)
    (called : t.called c = s.called c) (wire : t.wire c = s.wire c)
    (timestamp : (t.client c).regiBody.timestamp = (s.client c).regiBody.timestamp)
    (record : getElement (S.uuid c) t.reg.list = getElement (S.uuid c) s.reg.list) (silent : .heard c ∉ out) :
    Timely S c period delay (trace ++ out) t := by
  have same : times S c t = times S c s := by simp only [times, clock, called, wire, record]
  refine ⟨same ▸ timely.inTime, ?_, ?_, ?_⟩
  · rw [timestamp, called]
    exact timely.timestamp
  · rw [record]
    exact timely.record
  · rw [record]
    intro member
    exact timely.heard ((List.mem_append.mp member).resolve_right silent)

/-- A call of `zutil_regi`: a renewal, or too early to be one. -/
theorem Timely.regi {m : Option Message} (sound : Sound S s) (timely : Timely S c period delay trace s)
    (calls : Calls S c s.now res (s.client c) z m) (sent : 0 < res.headRes) :
    Timely S c period delay trace { s with
      client := Function.update s.client c z
      called := Function.update s.called c (some s.clock)
      wire := Function.update s.wire c (s.wire c ++ m.toList.map fun m => (s.clock, m)) } := by
  obtain ⟨inTime, timestamp, record, heard⟩ := timely
  cases calls with
  | early same =>
    rw [sound.now_toInt, timestamp] at same
    refine ⟨?_, ?_, record, heard⟩
    · simp only [times, Function.update_self, Option.toList_none, List.map_nil, List.append_nil]
      cases last : s.called c with
      | none => exact inTime.first last
      | some r =>
        have made := (inTime.renewed r last).1
        have now : s.clock = r := by
          simp only [last, Option.getD_some] at same
          simp only [times] at made
          omega
        rw [now, ← last, ← now]
        exact inTime
    · simp only [Function.update_self, Option.getD_some, timestamp]
      cases last : s.called c with
      | none =>
        simp only [last, Option.getD_none] at same ⊢
        omega
      | some r =>
        have made := (inTime.renewed r last).1
        simp only [last, Option.getD_some, times] at same made ⊢
        omega
  | due later announces timestamp' regi taken =>
    obtain ⟨m, rfl⟩ := Option.ne_none_iff_exists'.mp (taken sent)
    refine ⟨?_, ?_, record, heard⟩
    · have renewed := inTime.renew
      simpa [times] using renewed
    · simp [timestamp', sound.now_toInt]

/-- The record that a REGI message leaves is as of now. -/
theorem Timely.hear {w : Nat} {left : List (Nat × Message)} {zmsg : Zmessage} {reg : Registry} {posts : List Post}
    (sound : Sound S s) (timely : Timely S c period delay trace s) (next : s.wire c = (w, m) :: left)
    (announces : Announces S c appls)
    (regi : Mgnt.step s.reg (.regi s.now (Int32.ofNat sizeofApplsCtx) appls) = some (reg, posts)) :
    Timely S c period delay (trace ++ out)
      { s with wire := Function.update s.wire c left, zmsg := zmsg, reg := reg } := by
  obtain ⟨inTime, timestamp, record, heard⟩ := timely
  have found : getElement (S.uuid c) reg.list = some ⟨S.uuid c, appls.setTimestamp s.now⟩ := by
    rw [Mgnt.getElement_regi sound.sorted announces.terminated.1 (by decide) regi, if_pos announces.names.1.symm]
  have stamp : (appls.setTimestamp s.now).timestamp.toInt = s.clock := sound.now_toInt
  refine ⟨?_, timestamp, ?_, ?_⟩
  · have granted := inTime.grant (show (times S c s).waiting = w :: left.map Prod.fst by simp [times, next])
    simp only [times, Function.update_self, found, Option.map_some, stamp, Int.toNat_natCast]
    exact granted
  · intro e here
    obtain rfl : (⟨S.uuid c, appls.setTimestamp s.now⟩ : Element ApplsCtx) = e := Option.some.inj (found.symm.trans here)
    refine ⟨?_, by simp [stamp]⟩
    rw [Element.svc, ApplsCtx.setTimestamp_svcnameStr _ announces.terminated.2, announces.names.2]
  · simp [found]

/-- A sweep that comes by finds the record in time. -/
theorem Timely.visit {reg : Registry} {posts : List Post} (sound : Sound S s)
    (timely : Timely S c period delay trace s) (short : period + delay ≤ 10)
    (visit : Mgnt.step s.reg (.visit s.now) = some (reg, posts)) (silent : .heard c ∉ out) :
    Timely S c period delay (trace ++ out) { s with reg := reg } := by
  refine timely.frame rfl rfl rfl rfl (Mgnt.getElement_visit sound.sorted visit fun e found => ?_) silent
  have granted : (times S c s).granted = some e.data.timestamp.toInt.toNat := by simp only [times, found, Option.map_some]
  have age := timely.inTime.age granted
  have stamped := (timely.record e found).2
  rw [sound.now_toInt]
  simp only [times] at age
  omega

theorem Moves.timely (moves : Moves S s a t out) (sound : Sound S s) (timely : Timely S c period delay trace s)
    (distinct : ∀ d, d ≠ c → S.uuid d ≠ S.uuid c) (short : period + delay ≤ 10)
    (punctual : Punctual c period delay s a) : Timely S c period delay (trace ++ out) t := by
  cases moves with
  | tick room =>
    obtain ⟨called, wire⟩ := punctual
    obtain ⟨inTime, timestamp, record, heard⟩ := timely
    refine ⟨inTime.tick called ?_, timestamp, record, by simpa using heard⟩
    intro w member
    obtain ⟨m, waits, rfl⟩ := List.mem_map.mp member
    exact wire m waits
  | @regi d z m ctime res calls =>
    by_cases same : d = c
    · subst same
      rw [List.append_nil]
      exact timely.regi sound calls (punctual rfl).1
    · have other : c ≠ d := Ne.symm same
      exact timely.frame rfl (by simp [other]) (by simp [other]) (by simp [other]) rfl (by simp)
  | @call d a z names timestamp =>
    refine timely.frame rfl rfl rfl ?_ rfl (by simp)
    by_cases same : c = d
    · subst same
      simpa using timestamp
    · simp [same]
  | @hear d w m left zmsg appls reg posts next announces regi =>
    by_cases same : d = c
    · subst same
      exact timely.hear sound next announces regi
    · have others := Mgnt.getElement_regi sound.sorted announces.terminated.1 (by decide) regi (S.uuid c)
      rw [announces.names.1, if_neg (Ne.symm (distinct d same))] at others
      exact timely.frame rfl rfl (by simp [Ne.symm same]) rfl others (by simp [Ne.symm same])
  | @lose d =>
    have other : c ≠ d := Ne.symm punctual
    exact timely.frame rfl rfl (by simp [other]) rfl rfl (by simp)
  | sweepStart start => exact timely.frame rfl rfl rfl rfl (by rw [(Mgnt.step_sweepStart start).2.1]) (by simp)
  | visit visit => exact timely.visit sound short visit (by simp)

theorem init_sound (S : Site) : Sound S (machine S).init :=
  ⟨Nat.two_pow_pos 63, fun _ => ⟨rfl, rfl⟩, fun _ _ member => (nomatch member), .nil⟩

theorem runs_sound (run : (machine S).Runs acts s trace) : Sound S s := by
  refine run.invariant (fun _ s => Sound S s) (fun _ => True) (fun _ _ => trivial) (init_sound S) ?_
  intro tr s a t out sound _ ran
  exact (sound.moves ran).sound sound

theorem init_timely (S : Site) (c period delay : Nat) : Timely S c period delay [] (machine S).init :=
  ⟨inTime_start 0, rfl, fun _ found => (nomatch found), fun member => (nomatch member)⟩

theorem runs_timely (run : (machine S).Runs acts s trace)
    (keeps : (machine S).Keeps (Punctual c period delay) acts)
    (distinct : ∀ d, d ≠ c → S.uuid d ≠ S.uuid c) (short : period + delay ≤ 10) :
    Timely S c period delay trace s := by
  refine (run.kept (fun tr s => Sound S s ∧ Timely S c period delay tr s) keeps
    ⟨init_sound S, init_timely S c period delay⟩ ?_).2
  rintro tr s a t out ⟨sound, timely⟩ punctual ran
  have moves := sound.moves ran
  exact ⟨moves.sound sound, moves.timely sound timely distinct short punctual⟩

/-! ## A punctual client that is dropped -/

/-- A run of a punctual client. -/
def Reaches (S : Site) (c period delay : Nat) (acts : List Act) (s : State) (trace : List Obs) : Prop :=
  (machine S).Runs acts s trace ∧ (machine S).Keeps (Punctual c period delay) acts

theorem Reaches.snoc (reaches : Reaches S c period delay acts s trace) (ran : step s a = some (t, out))
    (punctual : Punctual c period delay s a) : Reaches S c period delay (acts ++ [a]) t (trace ++ out) := by
  obtain ⟨run, keeps⟩ := reaches
  exact ⟨run.snoc ran, keeps.snoc run punctual⟩

/-- The broker heard of the client at second 1, and has not since; the client has
called it for as long as it may, and then every second, and all its messages are
still on their way. -/
structure Unheard (S : Site) (c period k : Nat) (s : State) : Prop where
  clock : s.clock = k
  reg : ∃ appls : ApplsCtx, s.reg = ⟨[⟨S.uuid c, appls⟩], []⟩ ∧ appls.timestamp = 1
  resting : k ≤ period → s.called c = some 1 ∧ s.wire c = []
  wire : ∀ m ∈ s.wire c, period + 1 ≤ m.1

theorem tick_passes (room : s.clock + 1 < 2 ^ 63) : ∃ t, step s .tick = some (t, []) ∧ t.clock = s.clock + 1 ∧
    t.called = s.called ∧ t.wire = s.wire ∧ t.reg = s.reg ∧ t.client = s.client :=
  ⟨_, if_pos room, rfl, rfl, rfl, rfl, rfl⟩

/-- A call of `zutil_regi` whose sends go through. -/
theorem regi_sent (sound : Sound S s) (c : Nat) : ∃ t z m, step s (.regi c [] ⟨1, 1⟩) = some (t, []) ∧
    Calls S c s.now ⟨1, 1⟩ (s.client c) z m ∧ t.clock = s.clock ∧ t.called c = some s.clock ∧
    t.wire c = s.wire c ++ (m.toList.map fun m => (s.clock, m)) ∧ t.reg = s.reg :=
  ⟨_, _, _, rfl, zutilRegi_calls (sound.client c) s.now [] ⟨1, 1⟩, rfl, Function.update_self .., Function.update_self ..,
    rfl⟩

/-- A REGI message that waits is heard, in an empty registry. -/
theorem hear_first {w : Nat} {left : List (Nat × Message)} (sound : Sound S s) (empty : s.reg = ⟨[], []⟩)
    (next : s.wire c = (w, m) :: left) : ∃ t out, step s (.hear c) = some (t, .heard c :: out) ∧
      t.clock = s.clock ∧ t.called = s.called ∧ t.wire c = left ∧
      ∃ appls : ApplsCtx, t.reg = ⟨[⟨S.uuid c, appls⟩], []⟩ ∧ appls.timestamp = s.now := by
  obtain ⟨h, appls, rfl, regi, size, announces⟩ := sound.wire c (w, m) (by simp [next])
  obtain ⟨⟨zmsg, sub, reg, posted⟩, read, same⟩ :=
    Option.map_eq_some_iff.mp (subRead_regi s.now s.zmsg s.reg [] appls regi size)
  have handled : (handleRegi s.now (Int32.ofNat sizeofApplsCtx) appls ⟨[], []⟩).1 = reg := by
    rw [← empty, ← (Prod.mk.inj same).2]
  have name : (appls.setTimestamp s.now).uuidStr = S.uuid c := by
    rw [ApplsCtx.setTimestamp_uuidStr _ announces.terminated.1, announces.names.1]
  refine ⟨{ s with wire := Function.update s.wire c left, zmsg := zmsg, reg := reg }, posted.map .posted, ?_, rfl, rfl,
    by simp, appls.setTimestamp s.now, ?_, rfl⟩
  · have idle : s.reg.todo = [] := by rw [empty]
    simp only [step, stepHear, idle, next]
    rw [read]
    rfl
  · rw [← handled, ← name]
    rfl

/-- The broker hears of the client for the first time. -/
theorem unheard_start (S : Site) (c period delay : Nat) :
    ∃ acts s trace, Reaches S c period delay acts s trace ∧ .heard c ∈ trace ∧ Unheard S c period 1 s := by
  have begins : Reaches S c period delay [] (machine S).init [] := ⟨rfl, Machine.keeps_nil⟩
  obtain ⟨s₁, ticked, clock₁, called₁, wire₁, reg₁, client₁⟩ := tick_passes (s := (machine S).init)
    (show 0 + 1 < 2 ^ 63 by decide)
  have second := begins.snoc ticked ⟨fun r called => (nomatch called), fun m member => (nomatch member)⟩
  obtain ⟨s₂, z, m, called, calls, clock₂, called₂, wire₂, reg₂⟩ := regi_sent (runs_sound second.1) c
  have third := second.snoc called fun _ => ⟨by decide, by decide⟩
  have now₁ : s₁.now = 1 := by
    rw [State.now, clock₁]
    rfl
  cases calls with
  | early same =>
    have new : ((machine S).init.client c).regiBody.timestamp = 0 := rfl
    rw [now₁, client₁, new] at same
    exact absurd same (by decide)
  | due later announces timestamp regi sent =>
    obtain ⟨m, rfl⟩ := Option.ne_none_iff_exists'.mp (sent (by decide))
    have waits : s₂.wire c = (s₁.clock, m) :: [] := by
      rw [wire₂, wire₁]
      rfl
    obtain ⟨t, out, heard, clock, renewed, wire, appls, reg, stamped⟩ :=
      hear_first (runs_sound third.1) (reg₂.trans reg₁) waits
    have now₂ : s₂.now = 1 := by rw [State.now, clock₂, ← State.now, now₁]
    refine ⟨_, t, _, third.snoc heard trivial, by simp, ⟨?_, ⟨appls, reg, stamped.trans now₂⟩, fun _ => ⟨?_, wire⟩, ?_⟩⟩
    · rw [clock, clock₂, clock₁]
      rfl
    · rw [renewed, called₂, clock₁]
      rfl
    · simp [wire]

/-- One more second. -/
theorem unheard_next {k : Nat} (long : 10 < period + delay) (positive : 0 < period)
    (reaches : Reaches S c period delay acts s trace) (unheard : Unheard S c period k s) (before : k < 12) :
    ∃ acts t tr, Reaches S c period delay acts t tr ∧ trace <+: tr ∧ Unheard S c period (k + 1) t := by
  obtain ⟨rfl, reg, resting, wire⟩ := unheard
  by_cases rests : s.clock ≤ period
  · obtain ⟨called, empty⟩ := resting rests
    obtain ⟨t, ticked, clock', called', wire', reg', -⟩ := tick_passes (s := s) (by omega)
    have further := reaches.snoc ticked ⟨by simp [called]; omega, by simp [empty]⟩
    exact ⟨_, t, _, further, List.prefix_append .., clock', reg' ▸ reg, fun _ => ⟨called' ▸ called, wire' ▸ empty⟩,
      wire' ▸ wire⟩
  · obtain ⟨s', z, m, called, -, clock', called', wire', reg'⟩ := regi_sent (runs_sound reaches.1) c
    have further := reaches.snoc called fun _ => ⟨by decide, by decide⟩
    have late : ∀ m' ∈ s'.wire c, period + 1 ≤ m'.1 := by
      intro m' member
      rcases List.mem_append.mp (wire' ▸ member) with earlier | now
      · exact wire m' earlier
      · obtain ⟨m, -, rfl⟩ := List.mem_map.mp now
        exact Nat.lt_of_not_le rests
    obtain ⟨t, ticked, clock'', called'', wire'', reg'', -⟩ := tick_passes (s := s') (by omega)
    have last := further.snoc ticked ⟨by simp [called', clock']; omega, fun m' member => by
      have made := late m' member
      omega⟩
    refine ⟨_, t, _, last, ?_, ?_, reg''.trans reg' ▸ reg, fun early => ?_, wire'' ▸ late⟩
    · simp
    · rw [clock'', clock']
    · omega

/-- At second 12 the broker has still not heard of the client again. -/
theorem unheard_twelve (S : Site) (c : Nat) (long : 10 < period + delay) (positive : 0 < period) :
    ∃ acts s trace, Reaches S c period delay acts s trace ∧ .heard c ∈ trace ∧ Unheard S c period 12 s := by
  have seconds : ∀ n ≤ 11, ∃ acts s trace, Reaches S c period delay acts s trace ∧ .heard c ∈ trace ∧
      Unheard S c period (n + 1) s := by
    intro n
    induction n with
    | zero => exact fun _ => unheard_start S c period delay
    | succ n ih =>
      intro within
      obtain ⟨acts, s, trace, reaches, heard, unheard⟩ := ih (by omega)
      obtain ⟨acts', t, tr, reaches', later, unheard'⟩ := unheard_next long positive reaches unheard (by omega)
      exact ⟨acts', t, tr, reaches', later.mem heard, unheard'⟩
  exact seconds 11 (Nat.le_refl _)

/-- And a sweep drops it. -/
theorem unheard_dropped (S : Site) (c : Nat) (long : 10 < period + delay) (positive : 0 < period) :
    ∃ acts s trace, Reaches S c period delay acts s trace ∧ .heard c ∈ trace ∧ ¬ Listed S c s := by
  obtain ⟨acts, s, trace, reaches, heard, clock, ⟨appls, reg, stamped⟩, -, -⟩ := unheard_twelve S c long positive
  have started : step s .sweepStart = some ({ s with reg := ⟨[], [⟨S.uuid c, appls⟩]⟩ }, []) := by
    simp [step, Mgnt.step, reg, sweepStart, Registry.list]
  have sweeping := reaches.snoc started trivial
  have late : s.now.toInt - appls.timestamp.toInt > 10 := by
    rw [State.now, clock, stamped]
    decide
  obtain ⟨out, visited⟩ : ∃ out, step { s with reg := ⟨[], [⟨S.uuid c, appls⟩]⟩ } .visit =
      some ({ s with reg := ⟨[], []⟩ }, out) := by
    have now : ({ s with reg := ⟨[], [⟨S.uuid c, appls⟩]⟩ } : State).now = s.now := rfl
    simp [step, Mgnt.step, checkSvcAlive, now, late]
  refine ⟨_, _, _, sweeping.snoc visited trivial, by simp [heard], ?_⟩
  rintro ⟨e, member, -⟩
  cases member

/-- **How punctual a client must be.** A client that calls `zutil_regi` at least
every `period` seconds, whose messages take the broker at most `delay` seconds to
receive, is never dropped once it was heard of, whatever else happens, exactly
when the two come to at most ten seconds. -/
theorem kept_alive_iff (distinct : ∀ d, d ≠ c → S.uuid d ≠ S.uuid c) (positive : 0 < period) :
    (∀ acts s trace, (machine S).Runs acts s trace → (machine S).Keeps (Punctual c period delay) acts →
      .heard c ∈ trace → Listed S c s) ↔ period + delay ≤ 10 := by
  constructor
  · intro listed
    by_contra long
    obtain ⟨acts, s, trace, ⟨run, keeps⟩, heard, dropped⟩ := unheard_dropped S c (Nat.lt_of_not_le long) positive
    exact dropped (listed acts s trace run keeps heard)
  · intro short acts s trace run keeps heard
    have timely := runs_timely run keeps distinct short
    obtain ⟨e, found⟩ := Option.ne_none_iff_exists'.mp (timely.heard heard)
    obtain ⟨member, key⟩ := getElement_some found
    exact ⟨e, member, key, (timely.record e found).1⟩

theorem twoClients_distinct : ∀ d, d ≠ 0 → Network.twoClients.uuid d ≠ Network.twoClients.uuid 0 := by
  intro d other
  have second : Network.twoClients.uuid d = Network.twoClients.uuid 1 := by
    simp [Network.twoClients, Site.uuid, Site.start, other]
  rw [second]
  decide

theorem kept_alive_iff_two : (∀ acts s trace, (machine Network.twoClients).Runs acts s trace →
    (machine Network.twoClients).Keeps (Punctual 0 3 5) acts → .heard 0 ∈ trace → Listed Network.twoClients 0 s) ↔
      3 + 5 ≤ 10 :=
  kept_alive_iff twoClients_distinct (by decide)

end MsaBroker.KeepAlive
