import MsaBroker.Sweep

/-! MGNT on its list as it lies in memory, from `new_element(NULL, NULL, 0)` on:
any number of REGI messages and sweeps. Such a run is a run of the registry
machine; the list it keeps in memory is the registry, and the list is all that
MGNT keeps. -/
namespace MsaBroker.RegistryHeap
open CMemory ElemHeap
open LinkedList (Heap)

structure State where
  heap : Heap (Cell ApplsCtx)
  /-- The callbacks run so far. There are never more records, so a loop over
  them, the root and a new one is given two iterations more. -/
  calls : Nat

/-- `handle_regi`, at clock reading `now`; `calloc` is the block `new_element`
gets. What `add_element` returns is not looked at. -/
def handleRegi (applsLlist fuel : Nat) (now : Int64) (nBytes : Int32) (appls : ApplsCtx) (calloc : Nat)
    (heap : Heap (Cell ApplsCtx)) : Option (Heap (Cell ApplsCtx) × List Notification) :=
  if nBytes.toInt ≠ sizeofApplsCtx then some (heap, [])
  else
    let appls := appls.setTimestamp now
    (ElemHeap.getElement heap appls.uuidStr fuel applsLlist).bind fun
      | some elem => (setData heap elem appls).map fun heap => (heap, [])
      | none =>
        let heap := ElemHeap.newElement heap calloc (some appls.uuidStr) (some appls)
        (ElemHeap.addElement heap fuel applsLlist calloc).bind fun added =>
          (Sweep.countSvc applsLlist fuel added.2 appls.svcnameStr).map fun find =>
            (added.2, if find = 1 then [.create appls] else [])

inductive Act where
  | regi (now : Int64) (nBytes : Int32) (appls : ApplsCtx) (calloc : Nat)
  /-- `reading i` is what the clock reads the `i`-th time. -/
  | manageAppls (reading : Nat → Int64)

/-- One callback; no result where the code would follow a stray pointer or not
come to an end. -/
def step (applsLlist : Nat) (s : State) : Act → Option (State × List Notification)
  | .regi now nBytes appls calloc =>
    (handleRegi applsLlist (s.calls + 2) now nBytes appls calloc s.heap).map fun ran => (⟨ran.1, s.calls + 1⟩, ran.2)
  | .manageAppls reading =>
    (Sweep.manageAppls reading applsLlist (s.calls + 2) s.heap).map fun after => (⟨after.heap, s.calls + 1⟩, after.posted)

/-- The callbacks that follow `appls_llist = new_element(NULL, NULL, 0)`, in
memory where `before` is already in use. -/
def machine (before : Heap (Cell ApplsCtx)) (applsLlist : Nat) : Machine State Act Notification :=
  ⟨⟨ElemHeap.newElement before applsLlist none none, 0⟩, step applsLlist⟩

/-- `calloc` returns a block that is not in use. -/
def Fresh (s : State) : Act → Prop
  | .regi _ _ _ calloc => s.heap calloc = none
  | .manageAppls _ => True

/-- The steps of the registry that the callbacks come to: a sweep is its start
and a visit of each record. -/
inductive Unfolds : List Act → List Mgnt.Act → Prop
  | nil : Unfolds [] []
  | regi {acts : List Act} {steps : List Mgnt.Act} {now : Int64} {nBytes : Int32} {appls : ApplsCtx} {calloc : Nat}
      (earlier : Unfolds acts steps) :
      Unfolds (acts ++ [.regi now nBytes appls calloc]) (steps ++ [.regi now nBytes appls])
  | manageAppls {acts : List Act} {steps : List Mgnt.Act} {reading : Nat → Int64} (earlier : Unfolds acts steps)
      (records : Nat) : Unfolds (acts ++ [.manageAppls reading])
        (steps ++ .sweepStart :: Sweep.visitActs reading records)

/-- Memory is what was there before, and the registry. -/
structure Stores (before : Heap (Cell ApplsCtx)) (applsLlist : Nat) (records : List (Nat × Element ApplsCtx))
    (s : State) (reg : Registry) : Prop where
  idle : reg.todo = []
  list : reg.list = records.map Prod.snd
  holds : Holds s.heap applsLlist records
  /-- Every other block is as it was: nothing is leaked. -/
  others : ∀ x, x ∉ applsLlist :: records.map Prod.fst → s.heap x = before x
  /-- The nodes of the list were free. -/
  apart : ∀ x ∈ applsLlist :: records.map Prod.fst, before x = none
  enough : records.length ≤ s.calls

variable {before : Heap (Cell ApplsCtx)} {applsLlist : Nat} {s t : State} {reg reg' : Registry}
  {records : List (Nat × Element ApplsCtx)} {now : Int64} {nBytes : Int32} {appls : ApplsCtx} {calloc : Nat}
  {reading : Nat → Int64} {acts : List Act}

/-- No node of the list is a block that `calloc` may return. -/
theorem Stores.fresh (stores : Stores before applsLlist records s reg) (free : s.heap calloc = none) :
    calloc ∉ applsLlist :: records.map Prod.fst := by
  intro member
  rw [← addrs_cells (l := records)] at member
  obtain ⟨⟨a, v⟩, inList, rfl⟩ := List.mem_map.mp member
  obtain ⟨front, back, split⟩ := List.append_of_mem inList
  have laid := stores.holds
  rw [Holds, split] at laid
  rw [laid.read] at free
  cases free

/-! ## Each callback -/

/-- A record overwritten where it lies. -/
private theorem Stores.update (stores : Stores before applsLlist records s reg) {front back : List (Nat × Element ApplsCtx)}
    {a : Nat} {e : Element ApplsCtx} (split : records = front ++ (a, e) :: back)
    (here : strcmp e.key (appls.setTimestamp now).uuidStr = 0)
    (passed : ∀ n ∈ front, strcmp n.2.key (appls.setTimestamp now).uuidStr ≠ 0)
    (found : getElement (appls.setTimestamp now).uuidStr reg.list = some e)
    (ran : ElemHeap.getElement s.heap (appls.setTimestamp now).uuidStr (s.calls + 2) applsLlist = some (some a))
    (size : nBytes.toInt = sizeofApplsCtx) :
    ∃ t records' posted, step applsLlist s (.regi now nBytes appls calloc) = some (t, posted) ∧
      MsaBroker.handleRegi now nBytes appls reg = (⟨records'.map Prod.snd, []⟩, posted) ∧
      Stores before applsLlist records' t ⟨records'.map Prod.snd, []⟩ := by
  obtain ⟨idle, list, holds, others, apart, enough⟩ := stores
  subst split
  obtain ⟨heap, written, holds', frame⟩ := holds.setData (appls.setTimestamp now)
  have keeps : (front ++ (a, { e with data := appls.setTimestamp now }) :: back).map Prod.fst =
      (front ++ (a, e) :: back).map Prod.fst := by simp
  refine ⟨⟨heap, s.calls + 1⟩, front ++ (a, { e with data := appls.setTimestamp now }) :: back, [], ?_, ?_,
    rfl, by simp [Registry.list], holds', ?_, ?_, ?_⟩
  · simp [step, handleRegi, size, ran, written]
  · have overwritten : setElement (appls.setTimestamp now).uuidStr (appls.setTimestamp now)
        (front.map Prod.snd ++ e :: back.map Prod.snd) = front.map Prod.snd ++
          { e with data := appls.setTimestamp now } :: back.map Prod.snd :=
      setElement_split _ (by simpa using fun e n member => passed (n, e) member) here
    rw [MsaBroker.handleRegi, if_neg (not_not.mpr size)]
    simp only [found]
    rw [list, List.map_append, List.map_cons, overwritten, List.map_append, List.map_cons]
  · intro x outside
    rw [keeps] at outside
    have other : x ≠ a := fun same => outside (by simp [same])
    exact (frame x other).trans (others x outside)
  · rw [keeps]
    exact apart
  · simpa using Nat.le_succ_of_le enough

/-- A new record. -/
private theorem Stores.register (stores : Stores before applsLlist records s reg) (sorted : ElemSorted reg.list)
    (free : s.heap calloc = none) (unknown : getElement (appls.setTimestamp now).uuidStr reg.list = none)
    (ran : ElemHeap.getElement s.heap (appls.setTimestamp now).uuidStr (s.calls + 2) applsLlist = some none)
    (size : nBytes.toInt = sizeofApplsCtx) :
    ∃ t records' posted, step applsLlist s (.regi now nBytes appls calloc) = some (t, posted) ∧
      MsaBroker.handleRegi now nBytes appls reg = (⟨records'.map Prod.snd, []⟩, posted) ∧
      Stores before applsLlist records' t ⟨records'.map Prod.snd, []⟩ := by
  have alone := stores.fresh free
  have unused : before calloc = none := (stores.others calloc alone).symm.trans free
  obtain ⟨idle, list, holds, others, apart, enough⟩ := stores
  rw [list] at sorted unknown
  let e : Element ApplsCtx := ⟨(appls.setTimestamp now).uuidStr, appls.setTimestamp now⟩
  let made := ElemHeap.newElement s.heap calloc (some e.key) (some e.data)
  have here : made calloc = some ⟨none, none, .ofElement e⟩ := by simp [made, ElemHeap.newElement, Cell.ofElement]
  rcases (holds.newElement alone _ _).addElement sorted alone here rfl (show _ < s.calls + 2 by omega) with
    ⟨present, -⟩ | ⟨front, back, heap, split, inserted, added, holds', frame⟩
  · exact absurd ((addElement_eq_none sorted).mp present) (getElement_eq_none.mp unknown)
  · subst split
    have nodes : ((front ++ (calloc, e) :: back).map Prod.fst).Perm (calloc :: (front ++ back).map Prod.fst) :=
      List.perm_middle.map Prod.fst
    have room : (front ++ (calloc, e) :: back).length < s.calls + 2 := by
      simp at enough ⊢
      omega
    have counted := Sweep.countSvc_eq e.data.svcnameStr holds' room
    refine ⟨⟨heap, s.calls + 1⟩, front ++ (calloc, e) :: back,
      if MsaBroker.countSvc e.data.svcnameStr ((front ++ (calloc, e) :: back).map Prod.snd) = 1 then [.create e.data]
        else [], ?_, ?_, rfl, by simp [Registry.list], holds', ?_, ?_, ?_⟩
    · simp only [step, handleRegi, ne_eq, size, not_true_eq_false, ↓reduceIte, ran, Option.bind_some]
      rw [show ElemHeap.addElement _ _ _ _ = _ from added]
      simp only [Option.bind_some]
      rw [show Sweep.countSvc _ _ _ _ = _ from counted]
      rfl
    · rw [MsaBroker.handleRegi, if_neg (not_not.mpr size)]
      simp only [list, unknown]
      rw [show addElement ⟨_, _⟩ _ = _ from inserted]
      rfl
    · intro x outside
      rw [List.mem_cons, nodes.mem_iff, List.mem_cons, not_or, not_or] at outside
      obtain ⟨notRoot, notItem, notListed⟩ := outside
      have still : made x = s.heap x := Function.update_of_ne notItem _ _
      have earlier : x ∉ applsLlist :: (front ++ back).map Prod.fst := by
        rw [List.mem_cons, not_or]
        exact ⟨notRoot, notListed⟩
      exact (frame x notItem notRoot notListed).trans (still.trans (others x earlier))
    · intro x member
      rcases List.mem_cons.mp member with isRoot | listed
      · exact apart x (by simp [isRoot])
      · rcases List.mem_cons.mp (nodes.mem_iff.mp listed) with rfl | earlier
        · exact unused
        · exact apart x (List.mem_cons_of_mem _ earlier)
    · have size : (front ++ (calloc, e) :: back).length = (front ++ back).length + 1 := by
        rw [List.length_append, List.length_append, List.length_cons, Nat.add_assoc]
      exact size ▸ Nat.succ_le_succ enough

/-- A REGI message. -/
theorem Stores.handleRegi (stores : Stores before applsLlist records s reg) (sorted : ElemSorted reg.list)
    (now : Int64) (nBytes : Int32) (appls : ApplsCtx) (free : s.heap calloc = none) : ∃ t records' reg' posted,
      step applsLlist s (.regi now nBytes appls calloc) = some (t, posted) ∧
      MsaBroker.handleRegi now nBytes appls reg = (reg', posted) ∧ Stores before applsLlist records' t reg' := by
  by_cases size : nBytes.toInt = sizeofApplsCtx
  · rcases stores.holds.getElement (show _ < s.calls + 2 from Nat.lt_add_right 1 (Nat.lt_succ_of_le stores.enough))
      (appls.setTimestamp now).uuidStr with ⟨unknown, ran⟩ | ⟨front, a, e, back, split, here, passed, found, ran⟩
    · obtain ⟨t, records', posted, stepped, handled, stores'⟩ :=
        stores.register sorted free (stores.list ▸ unknown) ran size
      exact ⟨t, records', _, posted, stepped, handled, stores'⟩
    · obtain ⟨t, records', posted, stepped, handled, stores'⟩ :=
        stores.update split here passed (stores.list ▸ found) ran size
      exact ⟨t, records', _, posted, stepped, handled, stores'⟩
  · obtain ⟨idle, list, holds, others, apart, enough⟩ := stores
    refine ⟨⟨s.heap, s.calls + 1⟩, records, reg, [], ?_, ?_, idle, list, holds, others, apart,
      Nat.le_succ_of_le enough⟩
    · rw [step, RegistryHeap.handleRegi, if_pos size]
      rfl
    · rw [MsaBroker.handleRegi, if_pos size]

/-- A sweep is a run of the registry machine, one visit for each record. -/
theorem Stores.manageAppls (stores : Stores before applsLlist records s reg) (reading : Nat → Int64) :
    ∃ t records' posts, step applsLlist s (.manageAppls reading) = some (t, posts.map Post.notification) ∧
      Mgnt.machine.runFrom reg (.sweepStart :: Sweep.visitActs reading records.length) =
        some (⟨records'.map Prod.snd, []⟩, posts) ∧
      Stores before applsLlist records' t ⟨records'.map Prod.snd, []⟩ := by
  obtain ⟨idle, list, holds, others, apart, enough⟩ := stores
  obtain ⟨after, swept, progress⟩ := Sweep.manageAppls_progress reading holds (show _ < s.calls + 2 by omega)
  obtain ⟨posts, run, posted⟩ := progress.run
  have left : (Sweep.survivors reading 1 records).Sublist records := Sweep.survivors_sublist
  have nodes := left.map Prod.fst
  refine ⟨⟨after.heap, s.calls + 1⟩, Sweep.survivors reading 1 records, posts, ?_, ?_, rfl, by simp [Registry.list],
    by simpa using progress.holds, ?_, ?_, ?_⟩
  · simp [step, swept, posted]
  · have started : Mgnt.machine.step reg .sweepStart = some (⟨[], records.map Prod.snd⟩, []) := by
      simp [Mgnt.machine, Mgnt.step, idle, sweepStart, list]
    exact Machine.runFrom_cons.mpr ⟨_, [], posts, started, run, rfl⟩
  · intro x outside
    rw [List.mem_cons, not_or] at outside
    obtain ⟨notRoot, notKept⟩ := outside
    by_cases listed : x ∈ records.map Prod.fst
    · obtain ⟨r, member, rfl⟩ := List.mem_map.mp listed
      have gone : r ∉ Sweep.survivors reading 1 records := fun kept => notKept (List.mem_map_of_mem kept)
      exact (progress.freed r member gone).trans (apart r.1 (List.mem_cons_of_mem _ listed)).symm
    · have other : x ∉ applsLlist :: records.map Prod.fst := by
        rw [List.mem_cons, not_or]
        exact ⟨notRoot, listed⟩
      exact (progress.frame x notRoot listed).trans (others x other)
  · intro x member
    exact apart x (List.mem_cons.mpr ((List.mem_cons.mp member).imp_right fun kept => nodes.mem kept))
  · exact Nat.le_succ_of_le (left.length_le.trans enough)

/-! ## Whole runs -/

/-- The registry of a run, and what was posted on the way. -/
def Refined (before : Heap (Cell ApplsCtx)) (applsLlist : Nat) (acts : List Act) (posted : List Notification)
    (s : State) : Prop :=
  ∃ records steps reg posts, Unfolds acts steps ∧ Mgnt.machine.Runs steps reg posts ∧
    posts.map Post.notification = posted ∧ Stores before applsLlist records s reg

theorem Refined.step {a : Act} {posted : List Notification} (refined : Refined before applsLlist acts posted s)
    (fresh : Fresh s a) : ∃ t out, RegistryHeap.step applsLlist s a = some (t, out) ∧
      Refined before applsLlist (acts ++ [a]) (posted ++ out) t := by
  obtain ⟨records, steps, reg, posts, unfolds, run, rfl, stores⟩ := refined
  cases a with
  | regi now nBytes appls calloc =>
    obtain ⟨t, records', reg', out, stepped, handled, stores'⟩ := stores.handleRegi (Mgnt.runs_sorted run) now nBytes appls fresh
    have regi : Mgnt.machine.step reg (.regi now nBytes appls) = some (reg', out.map fun n => ⟨n, reg'.list⟩) := by
      simp [Mgnt.machine, Mgnt.step, stores.idle, handled]
    refine ⟨t, out, stepped, records', _, reg', _, .regi unfolds, run.snoc regi, ?_, stores'⟩
    simp [Function.comp_def]
  | manageAppls reading =>
    obtain ⟨t, records', out, stepped, swept, stores'⟩ := stores.manageAppls reading
    have further := Machine.runFrom_append.mpr ⟨reg, posts, out, run, swept, rfl⟩
    exact ⟨t, _, stepped, records', _, _, _, .manageAppls unfolds _, further, by simp, stores'⟩

end MsaBroker.RegistryHeap
