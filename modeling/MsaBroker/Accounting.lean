import MsaBroker.Lib.Machine
import MsaBroker.RecvBounds

/-! The client's traffic counters. They live in the record `zutil_regi` sends and
are set back to zero after it, so what was counted should either have been
announced or still be there. `zutil_regi` sets them back whatever became of the
sends. -/
namespace MsaBroker
open CMemory

/-- The counters of a client. -/
inductive Traffic where
  | sndCnt
  | sndBytes
  | rcvCnt
  | rcvBytes
  deriving DecidableEq

def ApplsCtx.traffic (a : ApplsCtx) : Traffic → UInt64
  | .sndCnt => a.sndCnt
  | .sndBytes => a.sndBytes
  | .rcvCnt => a.rcvCnt
  | .rcvBytes => a.rcvBytes

namespace Accounting

/-! ## The client as a machine -/

/-- The sockets a client receives from. -/
inductive Source where
  | sub
  | dealer
  | pull

/-- A message arrives for the client. -/
def arrive (from_ : Source) (m : Message) (z : ZutilCtx) : ZutilCtx :=
  match from_ with
  | .sub => { z with sub := z.sub.arrive m }
  | .dealer => { z with dealer := z.dealer.arrive m }
  | .pull => { z with pull := z.pull.arrive m }

inductive Act where
  | arrive (from_ : Source) (m : Message)
  | send (route : UInt32) (dest buff : Bytes) (size : Nat) (stamp : Option Bytes) (res : ZutilRes)
  | recv (head : Envelop) (buff : Bytes) (size : Nat)
  | regi (now : Int64) (ctime : Bytes) (res : ZutilRes)

inductive Obs where
  /-- `zutil_send` returned this many bytes. -/
  | sent (bytes : Nat)
  /-- `zutil_recv` returned this many bytes. -/
  | received (bytes : Nat)
  /-- `zmq_send` took both frames of a REGI message, this record the second. -/
  | announced (regi : ApplsCtx)
  /-- A `zutil_regi` announced nothing, and had this record before and after. -/
  | withheld (before after : ApplsCtx)

/-- The record of a REGI message, where both its frames were taken. -/
def announcement (res : ZutilRes) : List Bytes → Option ApplsCtx
  | [_, body] => if res.bodyRes ≥ 0 then some (.ofMem (Buf.load _ body)) else none
  | _ => none

/-- One call of the client, or one message to it. -/
def step (z : ZutilCtx) : Act → Option (ZutilCtx × List Obs)
  | .arrive from_ m => some (arrive from_ m z, [])
  | .send route dest buff size stamp res =>
    let (rc, z, _) := zutilSend route dest buff size stamp res z
    some (z, if rc ≥ 0 then [.sent rc.toNat] else [])
  | .recv head buff size =>
    let (rc, _, _, z) := zutilRecv head buff size z
    some (z, if rc.toInt ≥ 0 then [.received rc.toInt.toNat] else [])
  | .regi now ctime res =>
    let (z', frames) := zutilRegi now ctime res z
    some (z', match announcement res frames with
      | some regi => [.announced regi]
      | none => [.withheld z.regiBody z'.regiBody])

/-- A client that has been initialised, and then makes these calls. -/
def machine (undef : Bytes → Bytes) (ivHome sysuuid svcname appname : Bytes) : Machine ZutilCtx Act Obs :=
  ⟨(zutilInit undef ivHome sysuuid svcname appname).1, step⟩

/-! ## What is conserved -/

/-- What a successful call adds to a counter. -/
def Obs.produced (t : Traffic) : Obs → Nat
  | .sent bytes => match t with
    | .sndCnt => 1
    | .sndBytes => bytes
    | .rcvCnt | .rcvBytes => 0
  | .received bytes => match t with
    | .rcvCnt => 1
    | .rcvBytes => bytes
    | .sndCnt | .sndBytes => 0
  | .announced _ | .withheld .. => 0

/-- What a REGI message reports of a counter. -/
def Obs.reported (t : Traffic) : Obs → Nat
  | .announced regi => (regi.traffic t).toNat
  | .sent _ | .received _ | .withheld .. => 0

def produced (t : Traffic) (trace : List Obs) : Nat := (trace.map (Obs.produced t)).sum

def reported (t : Traffic) (trace : List Obs) : Nat := (trace.map (Obs.reported t)).sum

/-- Nothing counted is lost, and a call that announces nothing resets nothing. -/
structure Conserved (trace : List Obs) (z : ZutilCtx) : Prop where
  balance : ∀ t, reported t trace + (z.regiBody.traffic t).toNat = produced t trace
  kept : ∀ before after, .withheld before after ∈ trace → ∀ t, after.traffic t = before.traffic t

/-- A counter can take this many more. -/
def Room (z : ZutilCtx) (t : Traffic) (n : Nat) : Prop := (z.regiBody.traffic t).toNat + n < 2 ^ 64

/-- `zutil_send` has a message to send and both its frames are taken. -/
def Sends (route : UInt32) (size : Nat) (res : ZutilRes) : Prop :=
  (route = zmsgRouteSvc ∨ route = zmsgRouteInst) ∧ 0 < size ∧ size < maxZmqmsgSize ∧
    0 < res.headRes ∧ 0 ≤ res.bodyRes

/-- The counters have room for what the call moves, and a `zutil_regi` that is
due has its frames taken or has nothing to report. -/
def Keeps (z : ZutilCtx) : Act → Prop
  | .arrive .. => True
  | .send route _ _ size _ res => Sends route size res → Room z .sndCnt 1 ∧ Room z .sndBytes res.bodyRes.toNat
  | .recv .. => ∀ body, z.body = some body → Room z .rcvCnt 1 ∧ Room z .rcvBytes (min body.length 2147483647)
  | .regi now _ res => 1 ≤ now.toInt - z.regiBody.timestamp.toInt →
      (0 < res.headRes ∧ 0 ≤ res.bodyRes) ∨ ∀ t, z.regiBody.traffic t = 0

/-! ## The outcomes of a step -/

variable {z z' : ZutilCtx} {a : Act} {out trace : List Obs}

/-- What a step does to the record, and what it reports. -/
inductive Moves (z : ZutilCtx) : Act → ApplsCtx → List Obs → Prop
  | arrive (from_ : Source) (m : Message) : Moves z (.arrive from_ m) z.regiBody []
  | sent {route : UInt32} {size : Nat} {res : ZutilRes} (dest buff : Bytes) (stamp : Option Bytes)
      (sends : Sends route size res) :
      Moves z (.send route dest buff size stamp res)
        { z.regiBody with
          sndCnt := z.regiBody.sndCnt + 1, sndBytes := z.regiBody.sndBytes + UInt64.ofNat res.bodyRes.toNat }
        [.sent res.bodyRes.toNat]
  | refused {route : UInt32} {size : Nat} {res : ZutilRes} (dest buff : Bytes) (stamp : Option Bytes)
      (fails : ¬ Sends route size res) : Moves z (.send route dest buff size stamp res) z.regiBody []
  | received {body : Bytes} (head : Envelop) (buff : Bytes) (size : Nat) (found : z.body = some body) :
      Moves z (.recv head buff size)
        { z.regiBody with
          rcvCnt := z.regiBody.rcvCnt + 1
          rcvBytes := z.regiBody.rcvBytes + UInt64.ofNat (min body.length 2147483647) }
        [.received (min body.length 2147483647)]
  | nothing (head : Envelop) (buff : Bytes) (size : Nat) (nothing : z.body = none) :
      Moves z (.recv head buff size) z.regiBody []
  | early {now : Int64} (ctime : Bytes) (res : ZutilRes) (early : now.toInt - z.regiBody.timestamp.toInt < 1) :
      Moves z (.regi now ctime res) z.regiBody [.withheld z.regiBody z.regiBody]
  | announced {now : Int64} {res : ZutilRes} {regi after : ApplsCtx} (ctime : Bytes)
      (due : 1 ≤ now.toInt - z.regiBody.timestamp.toInt) (taken : 0 < res.headRes ∧ 0 ≤ res.bodyRes)
      (regiTraffic : ∀ t, regi.traffic t = z.regiBody.traffic t) (reset : ∀ t, after.traffic t = 0) :
      Moves z (.regi now ctime res) after [.announced regi]
  | lost {now : Int64} {res : ZutilRes} {after : ApplsCtx} (ctime : Bytes)
      (due : 1 ≤ now.toInt - z.regiBody.timestamp.toInt) (refused : ¬ (0 < res.headRes ∧ 0 ≤ res.bodyRes))
      (reset : ∀ t, after.traffic t = 0) : Moves z (.regi now ctime res) after [.withheld z.regiBody after]

section Send
variable {route : UInt32} {dest buff : Bytes} {size : Nat} {stamp : Option Bytes} {res : ZutilRes}

theorem zutilSend_sends (dest buff : Bytes) (stamp : Option Bytes) (z : ZutilCtx) (sends : Sends route size res) :
    (zutilSend route dest buff size stamp res z).1 = res.bodyRes ∧
      (zutilSend route dest buff size stamp res z).2.1.regiBody =
        { z.regiBody with
          sndCnt := z.regiBody.sndCnt + 1, sndBytes := z.regiBody.sndBytes + UInt64.ofNat res.bodyRes.toNat } := by
  obtain ⟨valid, positive, fits, head, body⟩ := sends
  have known : ¬ (route ≠ zmsgRouteSvc ∧ route ≠ zmsgRouteInst) := by
    rintro ⟨notSvc, notInst⟩
    exact valid.elim notSvc notInst
  have sized : ¬ (size = 0 ∨ size ≥ maxZmqmsgSize) := by omega
  simp [zutilSend, known, sized, head, body]

theorem zutilSend_fails (dest buff : Bytes) (stamp : Option Bytes) (z : ZutilCtx) (fails : ¬ Sends route size res) :
    (zutilSend route dest buff size stamp res z).1 < 0 ∧ (zutilSend route dest buff size stamp res z).2.1 = z := by
  by_cases unknown : route ≠ zmsgRouteSvc ∧ route ≠ zmsgRouteInst
  · simp [zutilSend, unknown]
  · by_cases unsized : size = 0 ∨ size ≥ maxZmqmsgSize
    · simp [zutilSend, unknown, unsized]
    · have untaken : ¬ (0 < res.headRes ∧ 0 ≤ res.bodyRes) := by
        intro taken
        refine fails ⟨?_, by omega, by omega, taken⟩
        by_contra neither
        exact unknown (not_or.mp neither)
      by_cases head : 0 < res.headRes
      · have body : res.bodyRes < 0 := by omega
        have refused : ¬ 0 ≤ res.bodyRes := by omega
        simp [zutilSend, unknown, unsized, head, body, refused]
      · simp [zutilSend, unknown, unsized, head]

theorem step_send (ran : step z (.send route dest buff size stamp res) = some (z', out)) :
    Moves z (.send route dest buff size stamp res) z'.regiBody out := by
  simp only [step, Option.some.injEq, Prod.mk.injEq] at ran
  obtain ⟨rfl, rfl⟩ := ran
  by_cases sends : Sends route size res
  · obtain ⟨rc, record⟩ := zutilSend_sends dest buff stamp z sends
    rw [record, rc, if_pos sends.2.2.2.2]
    exact .sent dest buff stamp sends
  · obtain ⟨rc, same⟩ := zutilSend_fails dest buff stamp z sends
    rw [same, if_neg (by omega)]
    exact .refused dest buff stamp sends

end Send

theorem zutilRecv_regiBody (head : Envelop) (buff : Bytes) (size : Nat) (z : ZutilCtx) :
    (zutilRecv head buff size z).2.2.2.regiBody = z.regiBody.received (zutilRecv head buff size z).1 := by
  unfold zutilRecv
  split
  · rfl
  · split
    · rfl
    · split
      · rfl
      · rfl

theorem step_recv {head : Envelop} {buff : Bytes} {size : Nat} (ran : step z (.recv head buff size) = some (z', out)) :
    Moves z (.recv head buff size) z'.regiBody out := by
  simp only [step, Option.some.injEq, Prod.mk.injEq] at ran
  obtain ⟨rfl, rfl⟩ := ran
  rw [zutilRecv_regiBody]
  cases found : z.body with
  | none =>
    rw [(zutilRecv_nothing head buff size found).1]
    exact .nothing head buff size found
  | some body =>
    have reported : (recvLength body).toInt.toNat = min body.length 2147483647 := by
      rw [recvLength_toInt]
      omega
    rw [(zutilRecv_body head buff size found).1, ApplsCtx.received, if_pos (recvLength_nonneg body),
      if_pos (recvLength_nonneg body), reported]
    exact .received head buff size found

theorem step_regi {now : Int64} {ctime : Bytes} {res : ZutilRes}
    (ran : step z (.regi now ctime res) = some (z', out)) :
    Moves z (.regi now ctime res) z'.regiBody out := by
  simp only [step, Option.some.injEq, Prod.mk.injEq] at ran
  obtain ⟨rfl, rfl⟩ := ran
  by_cases early : now.toInt - z.regiBody.timestamp.toInt < 1
  · have same : zutilRegi now ctime res z = (z, []) := by rw [zutilRegi, if_pos early]
    rw [same]
    exact .early ctime res early
  · have due : 1 ≤ now.toInt - z.regiBody.timestamp.toInt := by omega
    have reset (t : Traffic) : (zutilRegi now ctime res z).1.regiBody.traffic t = 0 := by
      rw [zutilRegi, if_neg early]
      cases t <;> rfl
    by_cases taken : 0 < res.headRes ∧ 0 ≤ res.bodyRes
    · have regi : announcement res (zutilRegi now ctime res z).2 = some { z.regiBody with timestamp := now } := by
        simp [zutilRegi, early, taken, announcement]
      rw [regi]
      exact .announced ctime due taken (fun t => by cases t <;> rfl) reset
    · have none : announcement res (zutilRegi now ctime res z).2 = none := by
        by_cases head : 0 < res.headRes
        · have body : ¬ 0 ≤ res.bodyRes := fun body => taken ⟨head, body⟩
          simp [zutilRegi, early, head, announcement, body]
        · simp [zutilRegi, early, head, announcement]
      rw [none]
      exact .lost ctime due taken reset

theorem step_moves (ran : step z a = some (z', out)) : Moves z a z'.regiBody out := by
  cases a with
  | arrive from_ m =>
    simp only [step, Option.some.injEq, Prod.mk.injEq] at ran
    obtain ⟨rfl, rfl⟩ := ran
    have same : (arrive from_ m z).regiBody = z.regiBody := by cases from_ <;> rfl
    rw [same]
    exact .arrive from_ m
  | send route dest buff size stamp res => exact step_send ran
  | recv head buff size => exact step_recv ran
  | regi now ctime res => exact step_regi ran

/-! ## What a step conserves -/

theorem reported_append (t : Traffic) (before after : List Obs) :
    reported t (before ++ after) = reported t before + reported t after := by
  simp [reported]

theorem produced_append (t : Traffic) (before after : List Obs) :
    produced t (before ++ after) = produced t before + produced t after := by
  simp [produced]

/-- A counter holds a sum exactly where the sum fits it. -/
theorem toNat_add_iff (counter : UInt64) (n : Nat) :
    (counter + UInt64.ofNat n).toNat = counter.toNat + n ↔ counter.toNat + n < 2 ^ 64 := by
  have bound := counter.toNat_lt
  rw [UInt64.toNat_add, UInt64.toNat_ofNat']
  omega

/-- A step's part of the conservation law. -/
structure Balanced (before after : ApplsCtx) (out : List Obs) : Prop where
  balance : ∀ t, reported t out + (after.traffic t).toNat = (before.traffic t).toNat + produced t out
  kept : ∀ b a, .withheld b a ∈ out → ∀ t, a.traffic t = b.traffic t

/-- After a conserved past, the law is a matter of the last step. -/
theorem conserved_append_iff (sofar : Conserved trace z) :
    Conserved (trace ++ out) z' ↔ Balanced z.regiBody z'.regiBody out := by
  constructor
  · intro conserved
    refine ⟨fun t => ?_, fun b a last => conserved.kept b a (List.mem_append_right _ last)⟩
    have now := conserved.balance t
    have earlier := sofar.balance t
    rw [reported_append, produced_append] at now
    omega
  · intro balanced
    refine ⟨fun t => ?_, fun b a member => ?_⟩
    · have last := balanced.balance t
      have earlier := sofar.balance t
      rw [reported_append, produced_append]
      omega
    · rcases List.mem_append.mp member with earlier | last
      · exact sofar.kept b a earlier
      · exact balanced.kept b a last

theorem Balanced.nothing (regi : ApplsCtx) : Balanced regi regi [] :=
  ⟨fun t => by simp [reported, produced], fun b a member => by cases member⟩

/-- A step that only counts is balanced where its counters hold the sums. -/
theorem balanced_counted {before after : ApplsCtx} {o : Obs} (silent : ∀ t, o.reported t = 0)
    (loud : ∀ b a, o ≠ .withheld b a) :
    Balanced before after [o] ↔ ∀ t, (after.traffic t).toNat = (before.traffic t).toNat + o.produced t := by
  have counted (t : Traffic) : reported t [o] = 0 ∧ produced t [o] = o.produced t := by
    simp [reported, produced, silent t]
  constructor
  · intro balanced t
    have balance := balanced.balance t
    rw [(counted t).1, (counted t).2] at balance
    omega
  · intro counts
    refine ⟨fun t => ?_, fun b a member => absurd (List.mem_singleton.mp member).symm (loud b a)⟩
    rw [(counted t).1, (counted t).2, Nat.zero_add]
    exact counts t

theorem Moves.balanced_iff {after : ApplsCtx} (moves : Moves z a after out) :
    Balanced z.regiBody after out ↔ Keeps z a := by
  cases moves with
  | arrive from_ m => exact iff_of_true (.nothing _) trivial
  | refused dest buff stamp fails => exact iff_of_true (.nothing _) fun sends => absurd sends fails
  | nothing head buff size nothing =>
    refine iff_of_true (.nothing _) fun body found => ?_
    rw [nothing] at found
    cases found
  | @sent route size res dest buff stamp sends =>
    have cnt := toNat_add_iff z.regiBody.sndCnt 1
    have bytes := toNat_add_iff z.regiBody.sndBytes res.bodyRes.toNat
    rw [balanced_counted (fun _ => rfl) fun _ _ => Obs.noConfusion]
    constructor
    · intro counts _
      exact ⟨cnt.mp (counts .sndCnt), bytes.mp (counts .sndBytes)⟩
    · intro room t
      obtain ⟨one, more⟩ := room sends
      cases t with
      | sndCnt => exact cnt.mpr one
      | sndBytes => exact bytes.mpr more
      | rcvCnt => rfl
      | rcvBytes => rfl
  | @received body head buff size found =>
    have cnt := toNat_add_iff z.regiBody.rcvCnt 1
    have bytes := toNat_add_iff z.regiBody.rcvBytes (min body.length 2147483647)
    rw [balanced_counted (fun _ => rfl) fun _ _ => Obs.noConfusion]
    constructor
    · intro counts other same
      obtain rfl : body = other := Option.some.inj (found.symm.trans same)
      exact ⟨cnt.mp (counts .rcvCnt), bytes.mp (counts .rcvBytes)⟩
    · intro room t
      obtain ⟨one, more⟩ := room body found
      cases t with
      | sndCnt => rfl
      | sndBytes => rfl
      | rcvCnt => exact cnt.mpr one
      | rcvBytes => exact bytes.mpr more
  | @early now ctime res early =>
    refine iff_of_true ⟨fun t => ?_, fun b a member t => ?_⟩ fun due => ?_
    · simp [reported, produced, Obs.reported, Obs.produced]
    · cases List.mem_singleton.mp member
      rfl
    · omega
  | announced ctime due taken regiTraffic reset =>
    refine iff_of_true ⟨fun t => ?_, fun b a member => by simp at member⟩ fun _ => .inl taken
    simp [reported, produced, Obs.reported, Obs.produced, regiTraffic t, reset t]
  | lost ctime due refused reset =>
    constructor
    · rintro ⟨-, kept⟩ -
      exact .inr fun t => (kept _ _ List.mem_cons_self t).symm.trans (reset t)
    · intro keeps
      have zero := (keeps due).resolve_left refused
      refine ⟨fun t => ?_, fun b a member t => ?_⟩
      · simp [reported, produced, Obs.reported, Obs.produced, zero t, reset t]
      · cases List.mem_singleton.mp member
        exact (reset t).trans (zero t).symm

/-- **When the client's accounting loses nothing.** Over every run of its three
calls, whatever they are given and whatever the sockets answer: what was
announced and what the counters hold make up what was sent and received, and a
call that announces nothing resets nothing, in every state, if and only if every
`zutil_regi` that is due has both frames taken or nothing to report, and no
counter passes its largest value. -/
theorem client_conserves_iff (undef : Bytes → Bytes) (ivHome sysuuid svcname appname : Bytes) (acts : List Act) :
    (machine undef ivHome sysuuid svcname appname).Always Conserved acts ↔
      (machine undef ivHome sysuuid svcname appname).EveryStep Keeps acts := by
  apply Machine.always_iff_everyStep (fun _ _ => True) Conserved Keeps (fun _ => True) (fun _ _ => trivial) trivial
  · refine ⟨fun t => ?_, fun b a member => by cases member⟩
    cases t <;> rfl
  · intros
    trivial
  · intro tr z a z' out _ sofar _ ran
    exact (conserved_append_iff sofar).trans (step_moves ran).balanced_iff

/-- One message sent, and the REGI message after it refused. -/
theorem refused_regi_resets :
    ¬ ∀ acts, (machine id [] [] (ascii "svc") (ascii "app")).Always Conserved acts := by
  intro always
  have run : (machine id [] [] (ascii "svc") (ascii "app")).Runs
      [.send zmsgRouteSvc (ascii "svc") [104] 1 none ⟨528, 1⟩, .regi 10 [] ⟨-1, -1⟩] _ _ := rfl
  have conserved := always _ _ [] (List.append_nil _).symm _ _ run
  exact absurd (conserved.balance .sndCnt) (by decide)

end Accounting

end MsaBroker
