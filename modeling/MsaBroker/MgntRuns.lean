import Mathlib.Tactic.FinCases
import Mathlib.Tactic.SplitIfs
import MsaBroker.Lib.Machine
import MsaBroker.Registry

/-! MGNT as a machine of its own, and the balance of its notifications. Between
the creates and the removes posted for a service there is one to spare exactly
while a record offers it, as long as no re-registration under a known uuid
changes which services are offered: that path posts nothing. -/
namespace MsaBroker
open CMemory

/-- A notification as it was posted, with the registry right after the record
that caused it was added or removed. -/
structure Post where
  notification : Notification
  list : List (Element ApplsCtx)

namespace Mgnt

/-- The steps of MGNT: a REGI message, and a sweep one record at a time. -/
inductive Act where
  | regi (now : Int64) (nBytes : Int32) (appls : ApplsCtx)
  | sweepStart
  | visit (now : Int64)

/-- One step. A callback runs to its end, so a sweep is finished before the next
message or sweep begins. -/
def step (reg : Registry) : Act → Option (Registry × List Post)
  | .regi now nBytes appls =>
    match reg.todo with
    | [] =>
      let (reg', posted) := handleRegi now nBytes appls reg
      some (reg', posted.map fun n => ⟨n, reg'.list⟩)
    | _ :: _ => none
  | .sweepStart =>
    match reg.todo with
    | [] => some (MsaBroker.sweepStart reg, [])
    | _ :: _ => none
  | .visit now =>
    match reg.todo with
    | [] => none
    | _ :: _ =>
      let (reg', posted) := checkSvcAlive now reg
      some (reg', posted.map fun n => ⟨n, reg'.list⟩)

def machine : Machine Registry Act Post := ⟨⟨[], []⟩, step⟩

/-- A REGI message of this step has its uuid and its svcname terminated within
their fields. -/
def Act.Terminated : Act → Prop
  | .regi _ _ appls => appls.uuid.Terminated ∧ appls.svcname.Terminated
  | .sweepStart | .visit _ => True

/-- The outcomes of a step. -/
inductive Moves (reg : Registry) : Act → Registry → List Post → Prop
  | regi {now : Int64} {nBytes : Int32} {appls : ApplsCtx} {reg' : Registry} {posted : List Notification}
      (outcome : RegiOutcome now nBytes appls reg reg' posted) :
      Moves reg (.regi now nBytes appls) reg' (posted.map fun n => ⟨n, reg'.list⟩)
  | sweepStart : Moves reg .sweepStart (MsaBroker.sweepStart reg) []
  | visit {now : Int64} {reg' : Registry} {posted : List Notification}
      (outcome : VisitOutcome now reg reg' posted) :
      Moves reg (.visit now) reg' (posted.map fun n => ⟨n, reg'.list⟩)

variable {reg reg' : Registry} {a : Act} {acts : List Act} {posts trace : List Post} {s : Bytes}

theorem step_moves (sorted : ElemSorted reg.list) (ran : step reg a = some (reg', posts)) :
    Moves reg a reg' posts := by
  cases a with
  | regi now nBytes appls =>
    simp only [step] at ran
    split at ran
    · cases ran
      exact .regi (handleRegi_outcome sorted rfl)
    · cases ran
  | sweepStart =>
    simp only [step] at ran
    split at ran
    · cases ran
      exact .sweepStart
    · cases ran
  | visit now =>
    simp only [step] at ran
    split at ran
    · cases ran
    · rename_i e todo next
      cases ran
      exact .visit (checkSvcAlive_outcome (by simp [next]) rfl)

/-- A sweep begins with the registry as it is. -/
theorem step_sweepStart (ran : step reg .sweepStart = some (reg', posts)) :
    reg'.swept = [] ∧ reg'.list = reg.list ∧ posts = [] := by
  simp only [step] at ran
  split at ran
  · cases ran
    simp [MsaBroker.sweepStart, Registry.list]
  · cases ran

theorem Moves.sorted (moves : Moves reg a reg' posts) (sorted : ElemSorted reg.list) :
    ElemSorted reg'.list := by
  cases moves with
  | regi outcome => exact outcome.sorted sorted
  | sweepStart => simpa [MsaBroker.sweepStart, Registry.list] using sorted
  | visit outcome => exact outcome.sorted sorted

/-- The record the message of a step would be stored as satisfies this. -/
def Act.Stores (Good : Element ApplsCtx → Prop) : Act → Prop
  | .regi now nBytes appls => nBytes.toInt = sizeofApplsCtx →
      Good ⟨(appls.setTimestamp now).uuidStr, appls.setTimestamp now⟩
  | .sweepStart | .visit _ => True

section Records
variable {Good : Element ApplsCtx → Prop}

/-- What holds of every record stored holds of every record of the registry. -/
theorem Moves.records (moves : Moves reg a reg' posts) (stores : a.Stores Good)
    (records : ∀ e ∈ reg.list, Good e) : ∀ e ∈ reg'.list, Good e := by
  cases moves with
  | sweepStart => simpa [MsaBroker.sweepStart, Registry.list] using records
  | regi outcome =>
    cases outcome with
    | wrongSize size => exact records
    | update size known before after keys =>
      intro e member
      simp only [Registry.list, List.append_nil] at member
      rcases List.mem_cons.mp (after.mem_iff.mp member) with rfl | other
      · rw [(getElement_some known).2]
        exact stores size
      · exact records e (before.mem_iff.mpr (List.mem_cons_of_mem _ other))
    | register size unknown added =>
      intro e member
      simp only [Registry.list, List.append_nil] at member
      rcases List.mem_cons.mp ((addElement_perm added).mem_iff.mp member) with rfl | other
      · exact stores size
      · exact records e other
  | visit outcome =>
    cases outcome with
    | keep next => simpa [Registry.list, next] using records
    | expire next late =>
      intro e member
      exact records e ((Registry.list_expire next).mem_iff.mpr (List.mem_cons_of_mem _ member))

/-- Whatever is posted is a copy of a record. -/
theorem Moves.posted_record (moves : Moves reg a reg' posts) (stores : a.Stores Good)
    (records : ∀ e ∈ reg.list, Good e) :
    ∀ post ∈ posts, ∃ e, Good e ∧ e.data = post.notification.appls := by
  cases moves with
  | sweepStart => simp
  | regi outcome =>
    cases outcome with
    | wrongSize size => simp
    | update => simp
    | register size unknown added =>
      intro post member
      refine ⟨_, stores size, ?_⟩
      split at member
      · obtain rfl := List.mem_singleton.mp member
        rfl
      · cases member
  | visit outcome =>
    cases outcome with
    | keep next => simp
    | @expire e todo next late =>
      intro post member
      refine ⟨e, records e (by simp [Registry.list, next]), ?_⟩
      split at member
      · obtain rfl := List.mem_singleton.mp member
        rfl
      · cases member

end Records

/-! ## The balance -/

/-- Creates posted for this service. -/
def creates (s : Bytes) (trace : List Post) : Nat :=
  trace.countP fun post => match post.notification with
    | .create appls => appls.svcnameStr = s
    | .remove _ => false

/-- Removes posted for this service. -/
def removes (s : Bytes) (trace : List Post) : Nat :=
  trace.countP fun post => match post.notification with
    | .create _ => false
    | .remove appls => appls.svcnameStr = s

/-- Some record of the registry has this svcname. -/
def Offers (reg : Registry) (s : Bytes) : Prop := ∃ e ∈ reg.list, e.svc = s

instance (reg : Registry) (s : Bytes) : Decidable (Offers reg s) :=
  inferInstanceAs (Decidable (∃ e ∈ reg.list, e.svc = s))

/-- One create to spare for every service offered, none for any other. -/
def Balanced (trace : List Post) (reg : Registry) : Prop :=
  ∀ s, s ≠ [] → (creates s trace : Int) - removes s trace = if Offers reg s then 1 else 0

/-- The step is no re-registration under which a known uuid leaves a service
without records or gives a service its first one. -/
def KeepsServices (reg : Registry) : Act → Prop
  | .regi now nBytes appls =>
    ∀ old, nBytes.toInt = sizeofApplsCtx →
      getElement (appls.setTimestamp now).uuidStr reg.list = some old →
        let svc := (appls.setTimestamp now).svcnameStr
        old.svc ≠ svc →
          (old.svc ≠ [] → 2 ≤ findSvcExist old.svc reg.list) ∧ (svc ≠ [] → 1 ≤ findSvcExist svc reg.list)
  | .sweepStart | .visit _ => True

theorem creates_append (tr₁ tr₂ : List Post) : creates s (tr₁ ++ tr₂) = creates s tr₁ + creates s tr₂ :=
  List.countP_append

theorem removes_append (tr₁ tr₂ : List Post) : removes s (tr₁ ++ tr₂) = removes s tr₁ + removes s tr₂ :=
  List.countP_append

theorem offers_iff : Offers reg s ↔ 0 < findSvcExist s reg.list := findSvcExist_pos.symm

/-- Exchanging one name for another, in a collection of names, leaves the same
names present just when the one given up was there twice and the other was there
already. -/
private theorem exchange_iff {old new : Bytes} (count count' rest : Bytes → Nat)
    (before : ∀ s, count s = rest s + if old = s then 1 else 0)
    (after : ∀ s, count' s = rest s + if new = s then 1 else 0) :
    (∀ s, s ≠ [] → (0 < count s ↔ 0 < count' s)) ↔
      (old ≠ new → (old ≠ [] → 2 ≤ count old) ∧ (new ≠ [] → 1 ≤ count new)) := by
  constructor
  · intro same changed
    constructor
    · intro named
      have present := same old named
      have was := before old
      have is := after old
      simp only [↓reduceIte, Ne.symm changed] at was is
      omega
    · intro named
      have present := same new named
      have is := after new
      simp only [↓reduceIte] at is
      omega
  · intro keeps s named
    have was := before s
    have is := after s
    by_cases changed : old = new
    · subst changed
      omega
    · obtain ⟨kept, there⟩ := keeps changed
      by_cases left : old = s
      · subst left
        have twice := kept named
        simp only [↓reduceIte, Ne.symm changed] at was is
        omega
      · by_cases joined : new = s
        · subst joined
          have already := there named
          simp only [↓reduceIte, left] at was is
          omega
        · simp only [left, joined, ↓reduceIte] at was is
          omega

/-- How a step that keeps the services shifts them: a notification is posted for
a service exactly when it comes or goes. -/
inductive Shift (reg reg' : Registry) : List Post → Prop
  | same (offered : ∀ s, s ≠ [] → (Offers reg' s ↔ Offers reg s)) : Shift reg reg' []
  | gained (appls : ApplsCtx) (named : appls.svcnameStr ≠ []) (absent : ¬ Offers reg appls.svcnameStr)
      (offered : ∀ s, s ≠ [] → (Offers reg' s ↔ Offers reg s ∨ appls.svcnameStr = s)) :
      Shift reg reg' [⟨.create appls, reg'.list⟩]
  | lost (appls : ApplsCtx) (named : appls.svcnameStr ≠ []) (present : Offers reg appls.svcnameStr)
      (offered : ∀ s, s ≠ [] → (Offers reg' s ↔ Offers reg s ∧ appls.svcnameStr ≠ s)) :
      Shift reg reg' [⟨.remove appls, reg'.list⟩]

private theorem shift_register {now : Int64} {appls : ApplsCtx} {list : List (Element ApplsCtx)}
    (added : addElement ⟨(appls.setTimestamp now).uuidStr, appls.setTimestamp now⟩ reg.list = some list) :
    Shift reg ⟨list, []⟩
      ((if (appls.setTimestamp now).svcnameStr ≠ [] ∧
          findSvcExist (appls.setTimestamp now).svcnameStr list = 1
        then [Notification.create (appls.setTimestamp now)] else []).map fun n =>
          ⟨n, (Registry.mk list []).list⟩) := by
  have whole : (Registry.mk list []).list = list := List.append_nil list
  have counted (s : Bytes) : findSvcExist s list = findSvcExist s reg.list +
      if (appls.setTimestamp now).svcnameStr = s then 1 else 0 :=
    (findSvcExist_perm (addElement_perm added)).trans findSvcExist_cons
  have own := counted (appls.setTimestamp now).svcnameStr
  simp only [↓reduceIte] at own
  by_cases posted : (appls.setTimestamp now).svcnameStr ≠ [] ∧
      findSvcExist (appls.setTimestamp now).svcnameStr list = 1
  · rw [if_pos posted]
    refine .gained _ posted.1 ?_ fun s named => ?_
    · rw [offers_iff]
      omega
    · have count := counted s
      rw [offers_iff, offers_iff, whole]
      split_ifs at count <;> simp_all
  · rw [if_neg posted]
    refine .same fun s named => ?_
    have count := counted s
    rw [offers_iff, offers_iff, whole]
    by_cases mine : (appls.setTimestamp now).svcnameStr = s
    · subst mine
      have another : findSvcExist (appls.setTimestamp now).svcnameStr list ≠ 1 := fun one => posted ⟨named, one⟩
      omega
    · simp only [mine, ↓reduceIte] at count
      omega

private theorem shift_expire {e : Element ApplsCtx} {todo : List (Element ApplsCtx)} (next : reg.todo = e :: todo) :
    Shift reg ⟨reg.swept, todo⟩
      ((if e.svc ≠ [] ∧ findSvcExist e.svc reg.list = 1 then [Notification.remove e.data] else []).map fun n =>
        ⟨n, (Registry.mk reg.swept todo).list⟩) := by
  have counted (s : Bytes) : findSvcExist s reg.list =
      findSvcExist s (Registry.mk reg.swept todo).list + if e.svc = s then 1 else 0 :=
    (findSvcExist_perm (Registry.list_expire next)).trans findSvcExist_cons
  have own := counted e.svc
  simp only [↓reduceIte] at own
  by_cases posted : e.svc ≠ [] ∧ findSvcExist e.svc reg.list = 1
  · rw [if_pos posted]
    have mine : e.data.svcnameStr = e.svc := rfl
    refine .lost _ posted.1 ?_ fun s named => ?_
    · rw [offers_iff, mine]
      omega
    · have count := counted s
      rw [offers_iff, offers_iff, mine]
      by_cases same : e.svc = s
      · subst same
        simp
        omega
      · simp only [same, ↓reduceIte] at count
        simp [same, count]
  · rw [if_neg posted]
    refine .same fun s named => ?_
    have count := counted s
    rw [offers_iff, offers_iff]
    by_cases mine : e.svc = s
    · subst mine
      have another : findSvcExist e.svc reg.list ≠ 1 := fun one => posted ⟨named, one⟩
      simp only [↓reduceIte] at count
      omega
    · simp only [mine, ↓reduceIte] at count
      omega

/-- An update shifts nothing exactly when it keeps the services. -/
private theorem keeps_update {now : Int64} {nBytes : Int32} {appls : ApplsCtx} {old : Element ApplsCtx}
    {rest list : List (Element ApplsCtx)} (size : nBytes.toInt = sizeofApplsCtx)
    (known : getElement (appls.setTimestamp now).uuidStr reg.list = some old)
    (before : reg.list.Perm (old :: rest)) (after : list.Perm (⟨old.key, appls.setTimestamp now⟩ :: rest)) :
    KeepsServices reg (.regi now nBytes appls) ↔
      ∀ s, s ≠ [] → (Offers ⟨list, []⟩ s ↔ Offers reg s) := by
  have whole : (Registry.mk list []).list = list := List.append_nil list
  have exchange := exchange_iff (findSvcExist · reg.list) (findSvcExist · list) (findSvcExist · rest)
    (fun s => (findSvcExist_perm before).trans findSvcExist_cons)
    (fun s => (findSvcExist_perm after).trans findSvcExist_cons)
  simp only [offers_iff, whole, iff_comm (a := 0 < findSvcExist _ list)]
  rw [exchange]
  constructor
  · intro keeps
    exact keeps old size known
  · intro keeps other _ found
    cases known.symm.trans found
    exact keeps

/-- Every step that keeps the services announces every shift of them. -/
theorem Moves.shift (moves : Moves reg a reg' posts) (keeps : KeepsServices reg a) : Shift reg reg' posts := by
  cases moves with
  | sweepStart => exact .same fun s named => .rfl
  | regi outcome =>
    cases outcome with
    | wrongSize size => exact .same fun s named => .rfl
    | update size known before after keys => exact .same ((keeps_update size known before after).mp keeps)
    | register size unknown added => exact shift_register added
  | visit outcome =>
    cases outcome with
    | @keep e todo next =>
      refine .same fun s named => ?_
      simp [Offers, Registry.list, next]
    | expire next late => exact shift_expire next

private theorem Shift.balanced (shift : Shift reg reg' posts) (balanced : Balanced trace reg) :
    Balanced (trace ++ posts) reg' := by
  intro s named
  have before := balanced s named
  rw [creates_append, removes_append]
  cases shift with
  | same offered =>
    simp only [offered s named]
    simpa [creates, removes] using before
  | gained appls _ absent offered =>
    simp only [offered s named]
    by_cases mine : appls.svcnameStr = s
    · subst mine
      simp only [absent, ↓reduceIte] at before
      simp [creates, removes] at before ⊢
      omega
    · simpa [creates, removes, mine] using before
  | lost appls _ present offered =>
    simp only [offered s named]
    by_cases mine : appls.svcnameStr = s
    · subst mine
      simp only [present, ↓reduceIte] at before
      simp [creates, removes] at before ⊢
      omega
    · simpa [creates, removes, mine] using before

/-- Every step but one kind keeps the balance; that one keeps it exactly when it
keeps the services. -/
theorem Moves.balanced_iff (moves : Moves reg a reg' posts) (balanced : Balanced trace reg) :
    Balanced (trace ++ posts) reg' ↔ KeepsServices reg a := by
  constructor
  · intro after
    cases moves with
    | sweepStart => trivial
    | visit outcome => trivial
    | regi outcome =>
      cases outcome with
      | wrongSize size => exact fun _ fits => absurd fits size
      | register size unknown added =>
        intro old _ known
        rw [unknown] at known
        cases known
      | update size known was is keys =>
        refine (keeps_update size known was is).mpr fun s named => ?_
        have one := balanced s named
        have two := after s named
        simp only [List.map_nil, List.append_nil] at two
        rw [one] at two
        split_ifs at two <;> simp_all
  · intro keeps
    exact (moves.shift keeps).balanced balanced

theorem runs_sorted (run : machine.Runs acts reg trace) : ElemSorted reg.list := by
  refine run.invariant (fun _ reg => ElemSorted reg.list) (fun _ => True) (fun _ _ => trivial) ?_ ?_
  · exact .nil
  · intro tr reg a reg' posts sorted _ step
    exact (step_moves sorted step).sorted sorted

private theorem idle_of_regi {now : Int64} {nBytes : Int32} {appls : ApplsCtx}
    (ran : step reg (.regi now nBytes appls) = some (reg', posts)) : reg'.todo = [] := by
  simp only [step] at ran
  split at ran
  · rename_i idle
    cases ran
    exact handleRegi_todo idle
  · cases ran

/-- Within a sweep nothing unbalances the books, so it is enough to look at them
between callbacks. -/
theorem always_between_callbacks :
    machine.Always (fun tr reg => reg.todo = [] → Balanced tr reg) acts ↔ machine.Always Balanced acts := by
  apply Machine.always_closed_iff (fun reg => reg.todo = []) Balanced Balanced
  · rfl
  · intros
    rfl
  · intro acts tr reg a reg' posts run balanced step busy
    have moves := step_moves (runs_sorted run) step
    cases a with
    | regi now nBytes appls => exact absurd (idle_of_regi step) busy
    | sweepStart => exact (moves.balanced_iff balanced).mpr trivial
    | visit now => exact (moves.balanced_iff balanced).mpr trivial

/-- **When creates and removes balance.** In every run of MGNT, at every point
between callbacks, each non-empty svcname has one create to spare if some record
carries it and none otherwise, if and only if no re-registration of the run
takes a service its last record or gives one its first. -/
theorem notifications_balanced_iff (acts : List Act) :
    machine.Always (fun tr reg => reg.todo = [] → Balanced tr reg) acts ↔
      machine.EveryStep KeepsServices acts := by
  rw [always_between_callbacks]
  apply Machine.always_iff_everyStep (fun _ reg => ElemSorted reg.list) Balanced KeepsServices (fun _ => True)
    (fun _ _ => trivial)
  · exact .nil
  · intro s named
    simp [creates, removes, offers_iff, findSvcExist, machine, Registry.list]
  · intro tr reg a reg' posts sorted _ step
    exact (step_moves sorted step).sorted sorted
  · intro tr reg a reg' posts sorted balanced _ step
    exact (step_moves sorted step).balanced_iff balanced

/-- The record of a client with this uuid and svcname. -/
def record (uuid svcname : String) : ApplsCtx :=
  { ApplsCtx.zero with
    uuid := (Buf.zero _).snprintf (ascii uuid), svcname := (Buf.zero _).snprintf (ascii svcname) }

set_option maxRecDepth 20000 in
/-- A client that comes back under its uuid with another svcname: the service it
left stays announced. -/
theorem notifications_unbalanced :
    ¬ ∀ acts, (∀ a ∈ acts, Act.Terminated a) →
      machine.Always (fun tr reg => reg.todo = [] → Balanced tr reg) acts := by
  intro always
  have terminated : ∀ a ∈ [Act.regi 0 424 (record "a" "x"), .regi 1 424 (record "a" "y")], a.Terminated := by
    intro a member
    fin_cases member <;> exact ⟨by decide, by decide⟩
  have run : machine.Runs [.regi 0 424 (record "a" "x"), .regi 1 424 (record "a" "y")] _ _ := rfl
  have balance := always _ terminated _ [] (List.append_nil _).symm _ _ run rfl (ascii "x") (by decide)
  exact absurd balance (by decide)

end Mgnt

end MsaBroker
