import MsaBroker.ElemHeap
import MsaBroker.MgntRuns

/-! `manage_appls` on the list as it lies in memory. One call is one traversal of
`appls_llist` by `check_svc_alive`, which unlinks and frees the record it stands
at and, before that, traverses the half swept list again to count what is left
of its service. The call is a run of the registry machine, one visit for each
record, and its notifications follow from the run. -/
namespace MsaBroker.Sweep
open CMemory ElemHeap
open LinkedList (Heap)

/-- MGNT during one call. -/
structure State where
  heap : Heap (Cell ApplsCtx)
  /-- How often the clock was read. -/
  taken : Nat
  /-- The nodes given to the callback; nothing reads them. -/
  visited : List Nat
  posted : List Notification

section Code
variable (reading : Nat → Int64) (applsLlist fuel : Nat)

/-- `find_svc_exist`, on `arg.find`. -/
def findSvcExist (heap : Heap (Cell ApplsCtx)) (svcname : Bytes) (elem find : Nat) : Option Nat :=
  (heap elem).bind fun node =>
    match node.val.key, node.val.data with
    | some _, some applsCtx => some (if strcmp applsCtx.svcnameStr svcname = 0 then find + 1 else find)
    | _, _ => some find

/-- What `arg.find` is when `check_svc_alive` tests it. -/
def countSvc (heap : Heap (Cell ApplsCtx)) (svcname : Bytes) : Option Nat :=
  if svcname.length > 0 then listElement (fun _ => heap) (findSvcExist heap svcname) fuel applsLlist 0
  else some 0

/-- `check_svc_alive`. The clock is read at the root too. -/
def checkSvcAlive (elem : Nat) (s : State) : Option State :=
  (s.heap elem).bind fun node =>
    let now := reading s.taken
    let s := { s with taken := s.taken + 1, visited := s.visited ++ [elem] }
    match node.val.key, node.val.data with
    | some _, some applsCtx =>
      if now.toInt - applsCtx.timestamp.toInt > 10 then
        (countSvc applsLlist fuel s.heap applsCtx.svcnameStr).bind fun find =>
          let posted := if find = 1 then s.posted ++ [.remove applsCtx] else s.posted
          (ElemHeap.remElement s.heap elem).map fun heap => { s with heap := heap, posted := posted }
      else some s
    | _, _ => some s

/-- `manage_appls`; `reading i` is what the clock reads the `i`-th time. -/
def manageAppls (heap : Heap (Cell ApplsCtx)) : Option State :=
  listElement State.heap (checkSvcAlive reading applsLlist fuel) fuel applsLlist ⟨heap, 0, [], []⟩

end Code

/-- The record is past its ten seconds at this reading. -/
def Late (now : Int64) (e : Element ApplsCtx) : Prop := now.toInt - e.data.timestamp.toInt > 10

instance (now : Int64) (e : Element ApplsCtx) : Decidable (Late now e) :=
  inferInstanceAs (Decidable (_ > _))

/-- The records in time, where the first of them is judged by reading `i` and
every other by the reading after that of its predecessor. -/
def survivors (reading : Nat → Int64) : Nat → List (Nat × Element ApplsCtx) → List (Nat × Element ApplsCtx)
  | _, [] => []
  | i, record :: records =>
    if Late (reading i) record.2 then survivors reading (i + 1) records
    else record :: survivors reading (i + 1) records

variable {reading : Nat → Int64} {root fuel a i : Nat} {e : Element ApplsCtx} {s : State}
  {heap : Heap (Cell ApplsCtx)} {l records swept todo done : List (Nat × Element ApplsCtx)}

theorem survivors_append : survivors reading i (done ++ [(a, e)]) =
    survivors reading i done ++ if Late (reading (i + done.length)) e then [] else [(a, e)] := by
  induction done generalizing i with
  | nil => simp [survivors]
  | cons record done ih =>
    have next : i + 1 + done.length = i + (record :: done).length := by simp; omega
    simp only [List.cons_append, survivors, ih, next]
    split <;> simp

theorem survivors_sublist : (survivors reading i l).Sublist l := by
  induction l generalizing i with
  | nil => simp [survivors]
  | cons record l ih =>
    simp only [survivors]
    split
    · exact ih.cons record
    · exact ih.cons_cons record

/-! ## One visit -/

/-- The nested traversal counts the records of this service that are still in
the list. -/
theorem countSvc_eq (svcname : Bytes) (holds : Holds heap root l) (enough : l.length < fuel) :
    countSvc root fuel heap svcname = some (MsaBroker.countSvc svcname (l.map Prod.snd)) := by
  -- what was counted is what the elements passed amount to
  let Counted : List (Nat × Element ApplsCtx) → Nat → Prop := fun rest find =>
    ∃ done, l = done ++ rest ∧ find = MsaBroker.findSvcExist svcname (done.map Prod.snd)
  have atRoot : findSvcExist heap svcname root 0 = some 0 := by
    simp [findSvcExist, holds.readRoot, Cell.root]
  have placed : ∀ a e rest find, Counted ((a, e) :: rest) find →
      ∃ prev, heap a = some ⟨(rest.map Prod.fst).head?, prev, .ofElement e⟩ := by
    rintro a e rest find ⟨done, split, -⟩
    exact (split ▸ holds).read
  have visits : ∀ a e rest find, Counted ((a, e) :: rest) find →
      ∃ find', findSvcExist heap svcname a find = some find' ∧ Counted rest find' := by
    rintro a e rest find ⟨done, split, rfl⟩
    obtain ⟨prev, here⟩ := placed a e rest _ ⟨done, split, rfl⟩
    have ran : findSvcExist heap svcname a (MsaBroker.findSvcExist svcname (done.map Prod.snd)) = some
        (if strcmp e.data.svcnameStr svcname = 0 then MsaBroker.findSvcExist svcname (done.map Prod.snd) + 1
          else MsaBroker.findSvcExist svcname (done.map Prod.snd)) := by
      simp [findSvcExist, here, Cell.ofElement]
    refine ⟨_, ran, done ++ [(a, e)], by simp [split], ?_⟩
    simp only [MsaBroker.findSvcExist, List.map_append, List.countP_append, List.map_cons, List.map_nil,
      List.countP_singleton, decide_eq_true_eq]
    split <;> rfl
  unfold countSvc MsaBroker.countSvc
  split
  · obtain ⟨find, ran, done, split, rfl⟩ := listElement_rule Counted holds atRoot ⟨[], rfl, rfl⟩ placed visits enough
    rw [List.append_nil] at split
    rw [ran, split]
  · rfl

/-- One visit of `check_svc_alive`: the step of the registry that stands for it,
and what happens to the record. -/
theorem checkSvcAlive_visit (reading : Nat → Int64) (holds : Holds s.heap root (swept ++ (a, e) :: todo))
    (enough : (swept ++ (a, e) :: todo).length < fuel) :
    ∃ s' kept new, checkSvcAlive reading root fuel a s = some s' ∧
      kept = swept ++ (if Late (reading s.taken) e then [] else [(a, e)]) ∧
      MsaBroker.checkSvcAlive (reading s.taken) ⟨swept.map Prod.snd, e :: todo.map Prod.snd⟩ =
        (⟨kept.map Prod.snd, todo.map Prod.snd⟩, new) ∧
      s'.taken = s.taken + 1 ∧ s'.visited = s.visited ++ [a] ∧ s'.posted = s.posted ++ new ∧
      Holds s'.heap root (kept ++ todo) ∧ (Late (reading s.taken) e → s'.heap a = none) ∧
      ∀ x, x ≠ root → x ∉ (swept ++ (a, e) :: todo).map Prod.fst → s'.heap x = s.heap x := by
  obtain ⟨prev, here⟩ := holds.read
  have atElem : checkSvcAlive reading root fuel a s = (if Late (reading s.taken) e then
      (countSvc root fuel s.heap e.data.svcnameStr).bind fun find =>
        (ElemHeap.remElement s.heap a).map fun heap =>
          ⟨heap, s.taken + 1, s.visited ++ [a], if find = 1 then s.posted ++ [.remove e.data] else s.posted⟩
    else some { s with taken := s.taken + 1, visited := s.visited ++ [a] }) := by
    simp only [checkSvcAlive, here, Option.bind_some, Cell.ofElement]
    rfl
  by_cases late : Late (reading s.taken) e
  · obtain ⟨heap', removed, holds', freed, frame⟩ := holds.remElement
    have counted := countSvc_eq e.data.svcnameStr holds enough
    have whole : (swept ++ (a, e) :: todo).map Prod.snd = swept.map Prod.snd ++ e :: todo.map Prod.snd := by simp
    let reg : Registry := ⟨swept.map Prod.snd, e :: todo.map Prod.snd⟩
    let new : List Notification := if MsaBroker.countSvc e.data.svcnameStr reg.list = 1 then [.remove e.data] else []
    have posts : (if MsaBroker.countSvc e.data.svcnameStr reg.list = 1 then s.posted ++ [.remove e.data]
        else s.posted) = s.posted ++ new := by
      simp only [new]
      split <;> simp
    rw [atElem, if_pos late, counted, removed, whole]
    exact ⟨_, swept, new, rfl, by simp [late], if_pos late, rfl, rfl, posts, holds', fun _ => freed, frame⟩
  · rw [atElem, if_neg late]
    refine ⟨_, swept ++ [(a, e)], [], rfl, by simp [late], ?_, rfl, rfl, by simp, by simpa using holds,
      fun expired => absurd expired late, fun _ _ _ => rfl⟩
    rw [List.map_append]
    exact if_neg late

/-! ## What a sweep announces -/

section Announced
open Mgnt

variable {reg reg' : Registry} {acts : List Act} {posts : List Post} {svc : Bytes}

/-- Every step is a visit, at some reading. -/
def Visits (acts : List Act) : Prop := ∀ act ∈ acts, ∃ now, act = .visit now

private theorem visit_announces {now : Int64} (ran : Mgnt.step reg (.visit now) = some (reg', posts)) :
    (∀ post ∈ posts, ∃ appls, post.notification = .remove appls ∧ appls.svcnameStr ≠ []) ∧
      ∀ svc, svc ≠ [] → removes svc posts + (if Offers reg' svc then 1 else 0) = if Offers reg svc then 1 else 0 := by
  have outcome : Moves reg (.visit now) reg' posts := by
    simp only [Mgnt.step] at ran
    split at ran
    · cases ran
    · rename_i next
      cases ran
      exact .visit (checkSvcAlive_outcome (by simp [next]) rfl)
  have shift := outcome.shift trivial
  have onlyRemoves : ∀ post ∈ posts, ∃ appls, post.notification = .remove appls ∧ appls.svcnameStr ≠ [] := by
    cases outcome with
    | visit outcome =>
      cases outcome with
      | keep next => simp
      | @expire e todo next late =>
        intro post member
        split at member
        · rename_i last
          obtain rfl := List.mem_singleton.mp member
          exact ⟨e.data, rfl, last.1⟩
        · cases member
  refine ⟨onlyRemoves, fun svc named => ?_⟩
  cases shift with
  | same offered => simp [removes, offered svc named]
  | gained appls isNamed absent offered =>
    obtain ⟨other, impossible, -⟩ := onlyRemoves _ List.mem_cons_self
    cases impossible
  | lost appls isNamed present offered =>
    by_cases mine : appls.svcnameStr = svc
    · subst mine
      simp [removes, offered _ isNamed, present]
    · simp [removes, offered svc named, mine]

/-- A sweep posts removes only, and for a service exactly one if it takes its
last record away. -/
theorem visits_announce (visits : Visits acts) (ran : Mgnt.machine.runFrom reg acts = some (reg', posts)) :
    (∀ post ∈ posts, ∃ appls, post.notification = .remove appls ∧ appls.svcnameStr ≠ []) ∧
      ∀ svc, svc ≠ [] → removes svc posts + (if Offers reg' svc then 1 else 0) = if Offers reg svc then 1 else 0 := by
  induction acts generalizing reg posts with
  | nil =>
    simp only [Machine.runFrom, Option.some.injEq, Prod.mk.injEq] at ran
    obtain ⟨rfl, rfl⟩ := ran
    simp [removes]
  | cons act acts ih =>
    obtain ⟨now, rfl⟩ := visits act List.mem_cons_self
    obtain ⟨mid, here, rest, step, last, rfl⟩ := Machine.runFrom_cons.mp ran
    obtain ⟨removesHere, countHere⟩ := visit_announces step
    obtain ⟨removesRest, countRest⟩ := ih (fun b member => visits b (List.mem_cons_of_mem _ member)) last
    refine ⟨fun post member => (List.mem_append.mp member).elim (removesHere post) (removesRest post), ?_⟩
    intro svc named
    rw [removes_append]
    have one := countHere svc named
    have two := countRest svc named
    omega

end Announced

/-! ## The whole call -/

/-- The visits of the first records. -/
def visitActs (reading : Nat → Int64) (count : Nat) : List Mgnt.Act :=
  (List.range' 1 count).map fun i => .visit (reading i)

theorem visitActs_visits (reading : Nat → Int64) (count : Nat) : Visits (visitActs reading count) := by
  intro act member
  obtain ⟨i, -, rfl⟩ := List.mem_map.mp member
  exact ⟨_, rfl⟩

theorem visitActs_succ (reading : Nat → Int64) (count : Nat) :
    visitActs reading (count + 1) = visitActs reading count ++ [.visit (reading (count + 1))] := by
  simp [visitActs, List.range'_1_concat, Nat.add_comm]

/-- How far a sweep is: what it has passed, and what became of it. -/
structure Progress (reading : Nat → Int64) (root : Nat) (before : Heap (Cell ApplsCtx))
    (records done todo : List (Nat × Element ApplsCtx)) (s : State) : Prop where
  split : records = done ++ todo
  nodup : (root :: records.map Prod.fst).Nodup
  taken : s.taken = done.length + 1
  visited : s.visited = root :: done.map Prod.fst
  holds : Holds s.heap root (survivors reading 1 done ++ todo)
  freed : ∀ r ∈ done, r ∉ survivors reading 1 done → s.heap r.1 = none
  frame : ∀ x, x ≠ root → x ∉ records.map Prod.fst → s.heap x = before x
  run : ∃ posts, Mgnt.machine.runFrom ⟨[], records.map Prod.snd⟩ (visitActs reading done.length) =
    some (⟨(survivors reading 1 done).map Prod.snd, todo.map Prod.snd⟩, posts) ∧
      posts.map Post.notification = s.posted

/-- A node the sweep has freed is none of the nodes still in the list. -/
private theorem Progress.apart {before : Heap (Cell ApplsCtx)}
    (progress : Progress reading root before records done todo s) {r : Nat × Element ApplsCtx} (passed : r ∈ done)
    (expired : r ∉ survivors reading 1 done) :
    r.1 ≠ root ∧ r.1 ∉ (survivors reading 1 done ++ todo).map Prod.fst := by
  obtain ⟨rootApart, nodup⟩ := List.nodup_cons.mp progress.nodup
  have member : r ∈ records := progress.split ▸ List.mem_append_left _ passed
  refine ⟨fun same => rootApart (same ▸ List.mem_map_of_mem member), fun inside => ?_⟩
  obtain ⟨other, present, same⟩ := List.mem_map.mp inside
  rcases List.mem_append.mp present with kept | later
  · have otherMember : other ∈ records := progress.split ▸ List.mem_append_left _ (survivors_sublist.mem kept)
    obtain rfl := List.inj_on_of_nodup_map nodup otherMember member same
    exact expired kept
  · rw [progress.split, List.map_append, List.nodup_append] at nodup
    exact nodup.2.2 r.1 (List.mem_map_of_mem passed) other.1 (List.mem_map_of_mem later) same.symm

/-- A visit takes the sweep one record further. -/
theorem Progress.visit {before : Heap (Cell ApplsCtx)}
    (progress : Progress reading root before records done ((a, e) :: todo) s) (enough : records.length < fuel) :
    ∃ s', checkSvcAlive reading root fuel a s = some s' ∧
      Progress reading root before records (done ++ [(a, e)]) todo s' := by
  have inFuel : (survivors reading 1 done ++ (a, e) :: todo).length < fuel := by
    have fewer : (survivors reading 1 done).length ≤ done.length := survivors_sublist.length_le
    have size := congrArg List.length progress.split
    simp only [List.length_append, List.length_cons] at fewer size ⊢
    omega
  obtain ⟨s', kept, new, ran, isKept, step, taken, visited, posted, holds, freed, frame⟩ :=
    checkSvcAlive_visit reading progress.holds inFuel
  have reads : reading s.taken = reading (1 + done.length) := by rw [progress.taken, Nat.add_comm]
  have survived : survivors reading 1 (done ++ [(a, e)]) = kept := by
    rw [survivors_append, isKept, reads]
  refine ⟨s', ran, ⟨by simp [progress.split], progress.nodup, by simp [taken, progress.taken],
    by simp [visited, progress.visited], survived ▸ holds, ?_, ?_, ?_⟩⟩
  · intro r passed expired
    rcases List.mem_append.mp passed with earlier | now
    · have gone : r ∉ survivors reading 1 done := fun present => expired (by
        rw [survived, isKept]
        exact List.mem_append_left _ present)
      obtain ⟨notRoot, outside⟩ := progress.apart earlier gone
      rw [frame r.1 notRoot outside]
      exact progress.freed r earlier gone
    · obtain rfl := List.mem_singleton.mp now
      apply freed
      by_contra inTime
      exact expired (by simp [survived, isKept, inTime])
  · intro x notRoot outside
    rw [frame x notRoot fun inside => outside ?_]
    · exact progress.frame x notRoot outside
    · rw [progress.split]
      simp only [List.map_append, List.mem_append] at inside ⊢
      exact inside.imp_left fun kept => (survivors_sublist.map _).mem kept
  · obtain ⟨posts, run, sofar⟩ := progress.run
    have length : (done ++ [(a, e)]).length = done.length + 1 := by simp
    have stepped : Mgnt.machine.step ⟨(survivors reading 1 done).map Prod.snd, ((a, e) :: todo).map Prod.snd⟩
        (.visit (reading (done.length + 1))) = some (⟨kept.map Prod.snd, todo.map Prod.snd⟩,
          new.map fun n => ⟨n, (Registry.mk (kept.map Prod.snd) (todo.map Prod.snd)).list⟩) := by
      rw [progress.taken] at step
      simp only [Mgnt.machine, Mgnt.step, List.map_cons, step]
    have further := Machine.runFrom_snoc run stepped
    rw [← visitActs_succ, ← length, ← survived] at further
    exact ⟨_, further, by simp [sofar, posted, Function.comp_def]⟩

/-- What one call of `manage_appls` did to the list of these records. -/
structure Outcome (reading : Nat → Int64) (root : Nat) (before : Heap (Cell ApplsCtx))
    (records : List (Nat × Element ApplsCtx)) (after : State) : Prop where
  /-- The root and then every record, once each and in order, at a reading each. -/
  visited : after.visited = root :: records.map Prod.fst
  taken : after.taken = records.length + 1
  /-- What is left, behind the same root: the records in time, as they were. -/
  holds : Holds after.heap root (survivors reading 1 records)
  /-- The others are freed. -/
  freed : ∀ r ∈ records, r ∉ survivors reading 1 records → after.heap r.1 = none
  /-- The rest of the heap is untouched. -/
  frame : ∀ x, x ≠ root → x ∉ records.map Prod.fst → after.heap x = before x
  /-- Nothing but removes of named services is posted, -/
  removes : ∀ n ∈ after.posted, ∃ appls, n = .remove appls ∧ appls.svcnameStr ≠ []
  /-- and for a service one if it had records and has none any more. -/
  announced : ∀ svc, svc ≠ [] → after.posted.countP (fun n => n.svc = svc) =
    if (∃ r ∈ records, r.2.svc = svc) ∧ ¬ ∃ r ∈ survivors reading 1 records, r.2.svc = svc then 1 else 0

/-- A sweep is a run of the registry machine: its start, and one visit for each
record. -/
theorem manageAppls_progress (reading : Nat → Int64) (holds : Holds heap root records)
    (enough : records.length < fuel) :
    ∃ after, manageAppls reading root fuel heap = some after ∧
      Progress reading root heap records records [] after := by
  have atRoot : checkSvcAlive reading root fuel root ⟨heap, 0, [], []⟩ = some ⟨heap, 1, [root], []⟩ := by
    simp [checkSvcAlive, holds.readRoot, Cell.root]
  have start : Progress reading root heap records [] records ⟨heap, 1, [root], []⟩ :=
    ⟨rfl, by simpa using holds.nodup, rfl, rfl, holds, by simp, fun _ _ _ => rfl, [], rfl, rfl⟩
  have placed : ∀ a e todo s, (∃ done, Progress reading root heap records done ((a, e) :: todo) s) →
      ∃ prev, s.heap a = some ⟨(todo.map Prod.fst).head?, prev, .ofElement e⟩ := by
    rintro a e todo s ⟨done, progress⟩
    exact progress.holds.read
  have visits : ∀ a e todo s, (∃ done, Progress reading root heap records done ((a, e) :: todo) s) →
      ∃ s', checkSvcAlive reading root fuel a s = some s' ∧
        ∃ done, Progress reading root heap records done todo s' := by
    rintro a e todo s ⟨done, progress⟩
    obtain ⟨s', ran, progress'⟩ := progress.visit enough
    exact ⟨s', ran, _, progress'⟩
  obtain ⟨after, ran, done, progress⟩ := listElement_rule
    (fun todo s => ∃ done, Progress reading root heap records done todo s) holds atRoot ⟨[], start⟩ placed visits enough
  obtain rfl : records = done := by simpa using progress.split
  exact ⟨after, ran, progress⟩

/-- **One sweep.** Whatever records the list holds and whatever the clock reads,
`manage_appls` ends, having visited the root and every record there was once and
in order; it removes exactly the records whose reading is more than ten seconds
past their timestamp, and tells SEND once of every service that lost its last
record. -/
theorem manage_appls_sweeps (holds : Holds heap root records) (enough : records.length < fuel) :
    ∃ after, manageAppls reading root fuel heap = some after ∧ Outcome reading root heap records after := by
  obtain ⟨after, ran, progress⟩ := manageAppls_progress reading holds enough
  obtain ⟨posts, run, posted⟩ := progress.run
  obtain ⟨removes, counts⟩ := visits_announce (visitActs_visits reading records.length) run
  refine ⟨after, ran, progress.visited, progress.taken, by simpa using progress.holds, progress.freed,
    progress.frame, ?_, ?_⟩
  · intro n member
    rw [← posted] at member
    obtain ⟨post, isPost, rfl⟩ := List.mem_map.mp member
    exact removes post isPost
  · intro svc named
    have count := counts svc named
    rw [List.map_nil] at count
    have same : after.posted.countP (fun n => n.svc = svc) = Mgnt.removes svc posts := by
      rw [← posted, List.countP_map, Mgnt.removes]
      apply List.countP_congr
      intro post isPost
      obtain ⟨appls, isRemove, -⟩ := removes post isPost
      simp [isRemove, Notification.svc, Notification.appls]
    have offered (l : List (Nat × Element ApplsCtx)) (swept todo : List (Element ApplsCtx))
        (whole : swept ++ todo = l.map Prod.snd) :
        Mgnt.Offers ⟨swept, todo⟩ svc ↔ ∃ r ∈ l, r.2.svc = svc := by
      rw [Mgnt.Offers, Registry.list, whole]
      constructor
      · rintro ⟨e, member, mine⟩
        obtain ⟨r, present, rfl⟩ := List.mem_map.mp member
        exact ⟨r, present, mine⟩
      · rintro ⟨r, present, mine⟩
        exact ⟨r.2, List.mem_map_of_mem present, mine⟩
    have before := offered records [] (records.map Prod.snd) rfl
    have afterwards := offered (survivors reading 1 records) _ [] (List.append_nil _)
    rw [same]
    by_cases has : ∃ r ∈ survivors reading 1 records, r.2.svc = svc
    · obtain ⟨r, member, mine⟩ := has
      rw [if_pos (afterwards.mpr ⟨r, member, mine⟩),
        if_pos (before.mpr ⟨r, survivors_sublist.mem member, mine⟩)] at count
      rw [if_neg fun lost => lost.2 ⟨r, member, mine⟩]
      omega
    · rw [if_neg fun offers => has (afterwards.mp offers)] at count
      by_cases had : ∃ r ∈ records, r.2.svc = svc
      · rw [if_pos (before.mpr had)] at count
        rw [if_pos ⟨had, has⟩]
        omega
      · rw [if_neg fun offers => had (before.mp offers)] at count
        rw [if_neg fun lost => had lost.1]
        omega

/-- A registry of two instances of one service, last heard of at time 0. -/
def twoInstances : Heap (Cell ApplsCtx)
  | 0 => some ⟨some 1, none, .root⟩
  | 1 => some ⟨some 2, some 0, .ofElement ⟨ascii "a", Mgnt.record "a" "x"⟩⟩
  | 2 => some ⟨none, some 1, .ofElement ⟨ascii "b", Mgnt.record "b" "x"⟩⟩
  | _ => none

theorem manage_appls_sweeps_instances : ∃ after, manageAppls (fun _ => 11) 0 3 twoInstances = some after ∧
    Outcome (fun _ => 11) 0 twoInstances
      [(1, ⟨ascii "a", Mgnt.record "a" "x"⟩), (2, ⟨ascii "b", Mgnt.record "b" "x"⟩)] after :=
  manage_appls_sweeps ⟨⟨rfl, rfl, rfl, trivial⟩, by decide⟩ (by decide)

end MsaBroker.Sweep
