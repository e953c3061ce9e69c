import MsaBroker.Lib.Presence
import MsaBroker.MgntRuns

/-! The registry as the map of who was last heard of. A run tells a history: a
correctly sized REGI is hearing of its uuid, and a sweep checks the uuid of each
record it visits at a reading of the clock. The list holds what such a history
leaves in force, under the broker's own readings. -/
namespace MsaBroker.Mgnt
open CMemory

/-- What is heard of a uuid: the clock reading at that moment, and the body. -/
abbrev Heard := Int64 × ApplsCtx

/-- The record stored for it. -/
def Heard.record (heard : Heard) : ApplsCtx := heard.2.setTimestamp heard.1

/-- More than ten seconds have gone by since. -/
def Overdue (now : Int64) (heard : Heard) : Prop := now.toInt - heard.1.toInt > 10

instance (now : Int64) (heard : Heard) : Decidable (Overdue now heard) := inferInstanceAs (Decidable (_ > _))

abbrev Event := Presence.Event Bytes Heard Int64

/-- What a step adds to the history. -/
def event (reg : Registry) : Act → List Event
  | .regi now nBytes appls => if nBytes.toInt = sizeofApplsCtx then [.heard appls.uuidStr (now, appls)] else []
  | .sweepStart => []
  | .visit now => reg.todo.head?.toList.map fun e => .checked e.key now

/-- What the steps tell from here on. -/
def historyFrom (reg : Registry) : List Act → List Event
  | [] => []
  | a :: acts => event reg a ++ match step reg a with
    | none => []
    | some (reg', _) => historyFrom reg' acts

/-- The history of a run. -/
def history (acts : List Act) : List Event := historyFrom machine.init acts

/-- A REGI message of this step has its uuid terminated within its field. -/
def Act.UuidTerminated : Act → Prop
  | .regi _ _ appls => appls.uuid.Terminated
  | .sweepStart | .visit _ => True

variable {reg reg' : Registry} {acts : List Act} {a : Act} {posts trace : List Post}
  {held : Bytes → Option Heard} {key : Bytes} {e : Element ApplsCtx} {l₁ l₂ : List (Element ApplsCtx)}

theorem historyFrom_append {rest : List Act} (run : machine.runFrom reg acts = some (reg', trace)) :
    historyFrom reg (acts ++ rest) = historyFrom reg acts ++ historyFrom reg' rest := by
  induction acts generalizing reg trace with
  | nil =>
    cases run
    rfl
  | cons a acts ih =>
    obtain ⟨mid, out, last, step, run, -⟩ := Machine.runFrom_cons.mp run
    have step : Mgnt.step reg a = some (mid, out) := step
    simp only [List.cons_append, historyFrom, step, ih run, List.append_assoc]

theorem history_snoc (run : machine.Runs acts reg trace) (enabled : step reg a = some (reg', posts)) :
    history (acts ++ [a]) = history acts ++ event reg a := by
  rw [history, historyFrom_append run]
  simp [history, historyFrom, enabled]

/-! ## The list holds the map -/

/-- Under each uuid the list has the record of what is held. -/
def Remembers (reg : Registry) (held : Bytes → Option Heard) : Prop :=
  ∀ uuid, getElement uuid reg.list = (held uuid).map fun heard => ⟨uuid, heard.record⟩

theorem getElement_setElement (appls : ApplsCtx) (l : List (Element ApplsCtx)) (uuid : Bytes) :
    getElement uuid (setElement key appls l) =
      if key = uuid then (getElement uuid l).map fun _ => ⟨uuid, appls⟩ else getElement uuid l := by
  induction l with
  | nil => simp [setElement, getElement]
  | cons e l ih =>
    simp only [setElement, getElement, strcmp_eq_zero_iff]
    by_cases here : e.key = key
    · subst here
      by_cases asked : e.key = uuid
      · simp [getElement, strcmp_eq_zero_iff, asked]
      · simp [getElement, strcmp_eq_zero_iff, asked]
    · by_cases asked : e.key = uuid
      · subst asked
        simp [getElement, strcmp_eq_zero_iff, here, Ne.symm here]
      · simp [getElement, strcmp_eq_zero_iff, here, asked, ih]

/-- A record taken out of its place is no longer found, and the others are. -/
theorem getElement_unlink (sorted : ElemSorted (l₁ ++ e :: l₂)) (uuid : Bytes) :
    getElement uuid (l₁ ++ l₂) = if e.key = uuid then none else getElement uuid (l₁ ++ e :: l₂) := by
  have nodup := sorted.keys_nodup
  have unlinked : remElement e.key (l₁ ++ e :: l₂) = l₁ ++ l₂ := by
    clear sorted
    induction l₁ with
    | nil => simp [remElement, strcmp_eq_zero_iff]
    | cons f l₁ ih =>
      simp only [List.cons_append, List.map_cons, List.nodup_cons] at nodup
      have other : f.key ≠ e.key := fun same => nodup.1 (by simp [same])
      simp [remElement, strcmp_eq_zero_iff, other, ih nodup.2]
  rw [← unlinked, getElement_remElement sorted]

private theorem Remembers.heard {now : Int64} {nBytes : Int32} {appls : ApplsCtx} (sorted : ElemSorted reg.list)
    (remembers : Remembers reg held) (terminated : appls.uuid.Terminated) (size : nBytes.toInt = sizeofApplsCtx) :
    Remembers (handleRegi now nBytes appls reg).1
      (Function.update held appls.uuidStr (some (now, appls))) := by
  have sameUuid : (appls.setTimestamp now).uuidStr = appls.uuidStr :=
    ApplsCtx.setTimestamp_uuidStr now terminated
  intro uuid
  have before := remembers uuid
  rw [handleRegi, if_neg (not_not.mpr size)]
  simp only [sameUuid]
  split
  · rename_i old known
    rw [Registry.list, List.append_nil, getElement_setElement]
    by_cases mine : appls.uuidStr = uuid
    · subst mine
      simp [known, Heard.record]
    · rw [if_neg mine, before, Function.update_of_ne (Ne.symm mine)]
  · rename_i unknown
    cases added : addElement ⟨appls.uuidStr, appls.setTimestamp now⟩ reg.list with
    | none => exact absurd ((addElement_eq_none sorted).mp added) (getElement_eq_none.mp unknown)
    | some list =>
      rw [Option.getD_some, Registry.list, List.append_nil, getElement_addElement sorted added]
      by_cases mine : appls.uuidStr = uuid
      · subst mine
        simp [Heard.record]
      · rw [if_neg mine, before, Function.update_of_ne (Ne.symm mine)]

private theorem Remembers.checked {now : Int64} {todo : List (Element ApplsCtx)} (sorted : ElemSorted reg.list)
    (remembers : Remembers reg held) (next : reg.todo = e :: todo) :
    Remembers (checkSvcAlive now reg).1 (Presence.Event.apply Overdue held (.checked e.key now)) := by
  have whole : reg.list = reg.swept ++ e :: todo := by rw [Registry.list, next]
  have found : getElement e.key reg.list = some e := getElement_of_mem sorted (by simp [whole])
  have record := remembers e.key
  rw [found] at record
  obtain ⟨heard, isHeard, isRecord⟩ := Option.map_eq_some_iff.mp record.symm
  have stamp : e.data.timestamp = heard.1 := by rw [← isRecord]; rfl
  intro uuid
  have before := remembers uuid
  simp only [checkSvcAlive, next]
  by_cases late : now.toInt - e.data.timestamp.toInt > 10
  · have overdue : Overdue now heard := by rwa [Overdue, ← stamp]
    rw [if_pos late, Registry.list, getElement_unlink (whole ▸ sorted), ← whole, before]
    by_cases mine : e.key = uuid
    · subst mine
      simp [Presence.Event.apply, isHeard, Option.filter, overdue]
    · simp [Presence.Event.apply, mine, Ne.symm mine]
  · have inTime : ¬ Overdue now heard := by rwa [Overdue, ← stamp]
    rw [if_neg late, Registry.list, List.append_assoc, List.singleton_append, ← whole, before]
    by_cases mine : e.key = uuid
    · subst mine
      simp [Presence.Event.apply, isHeard, Option.filter, inTime]
    · simp [Presence.Event.apply, Ne.symm mine]

/-- One step of the registry is one event of the history. -/
theorem Remembers.step (sorted : ElemSorted reg.list) (remembers : Remembers reg held)
    (terminated : a.UuidTerminated) (ran : Mgnt.step reg a = some (reg', posts)) :
    Remembers reg' ((event reg a).foldl (Presence.Event.apply Overdue) held) := by
  cases a with
  | regi now nBytes appls =>
    simp only [Mgnt.step] at ran
    split at ran
    · cases ran
      by_cases size : nBytes.toInt = sizeofApplsCtx
      · rw [event, if_pos size]
        exact remembers.heard sorted terminated size
      · rw [event, if_neg size, handleRegi, if_pos size]
        exact remembers
    · cases ran
  | sweepStart =>
    simp only [Mgnt.step] at ran
    split at ran
    · cases ran
      simpa [event, Remembers, MsaBroker.sweepStart, Registry.list] using remembers
    · cases ran
  | visit now =>
    simp only [Mgnt.step] at ran
    split at ran
    · cases ran
    · rename_i e todo next
      cases ran
      simp only [event, next, List.head?_cons, Option.toList_some, List.map_cons, List.map_nil, List.foldl_cons,
        List.foldl_nil]
      exact remembers.checked sorted next

/-- What a registry holds by itself. -/
def recorded (reg : Registry) (uuid : Bytes) : Option Heard :=
  (getElement uuid reg.list).map fun e => (e.data.timestamp, e.data)

theorem remembers_recorded (reg : Registry) : Remembers reg (recorded reg) := by
  intro uuid
  cases found : getElement uuid reg.list with
  | none => simp [recorded, found]
  | some e =>
    obtain ⟨-, rfl⟩ := getElement_some found
    simp [recorded, found, Heard.record, ApplsCtx.setTimestamp]

/-- The records after a REGI message. -/
theorem getElement_regi {now : Int64} {nBytes : Int32} {appls : ApplsCtx} (sorted : ElemSorted reg.list)
    (terminated : appls.uuid.Terminated) (size : nBytes.toInt = sizeofApplsCtx)
    (ran : Mgnt.step reg (.regi now nBytes appls) = some (reg', posts)) (uuid : Bytes) :
    getElement uuid reg'.list =
      if uuid = appls.uuidStr then some ⟨uuid, appls.setTimestamp now⟩ else getElement uuid reg.list := by
  have before := remembers_recorded reg uuid
  have after := (remembers_recorded reg).step sorted (a := .regi now nBytes appls) terminated ran uuid
  simp only [event, size, ↓reduceIte, List.foldl_cons, List.foldl_nil, Presence.Event.apply] at after
  rw [after]
  by_cases mine : uuid = appls.uuidStr
  · subst mine
    simp [Heard.record]
  · simp [mine, before]

/-- A sweep that comes by leaves a record in time. -/
theorem getElement_visit {now : Int64} {uuid : Bytes} (sorted : ElemSorted reg.list)
    (ran : Mgnt.step reg (.visit now) = some (reg', posts))
    (inTime : ∀ e, getElement uuid reg.list = some e → now.toInt - e.data.timestamp.toInt ≤ 10) :
    getElement uuid reg'.list = getElement uuid reg.list := by
  have before := remembers_recorded reg uuid
  have after := (remembers_recorded reg).step sorted (a := .visit now) trivial ran uuid
  have kept : (recorded reg uuid).filter (fun heard => ¬ Overdue now heard) = recorded reg uuid := by
    cases found : getElement uuid reg.list with
    | none => simp [recorded, found]
    | some e =>
      have still : ¬ Overdue now (e.data.timestamp, e.data) := Int.not_lt.mpr (inTime e found)
      simp [recorded, found, still]
  rw [after, before]
  cases next : reg.todo with
  | nil => simp [event, next]
  | cons here todo =>
    simp only [event, next, List.head?_cons, Option.toList_some, List.map_cons, List.map_nil, List.foldl_cons,
      List.foldl_nil, Presence.Event.apply]
    by_cases mine : uuid = here.key
    · subst mine
      rw [Function.update_self, kept]
    · rw [Function.update_of_ne mine]

/-- The list of a run holds what its history leaves in force. -/
theorem runs_remembers (run : machine.Runs acts reg trace) (terminated : ∀ a ∈ acts, a.UuidTerminated) :
    Remembers reg (Presence.held Overdue (history acts)) := by
  induction acts using List.reverseRecOn generalizing reg trace with
  | nil =>
    obtain ⟨rfl, -⟩ := Machine.runs_nil_iff.mp run
    intro uuid
    rfl
  | append_singleton acts a ih =>
    obtain ⟨before, tr, out, front, step, -⟩ := Machine.runs_snoc_iff.mp run
    have remembers := ih front fun b member => terminated b (by simp [member])
    rw [history_snoc front step, Presence.held, List.foldl_append]
    exact remembers.step (runs_sorted front) (terminated a (by simp)) step

/-- What the registry is, after a history. -/
structure IsLastHeard (history : List Event) (reg : Registry) : Prop where
  /-- The records are in strictly increasing order of their uuids, so there is
  one of each. -/
  sorted : (reg.list.map fun e => e.data.uuidStr).Pairwise fun uuid uuid' => strcmp uuid uuid' < 0
  keyed : ∀ e ∈ reg.list, e.key = e.data.uuidStr
  /-- The record of a uuid is the body of the last REGI heard of it, under the
  broker's clock reading at that moment, which no reading at the record since
  was more than ten seconds past. -/
  record : ∀ uuid appls, ⟨uuid, appls⟩ ∈ reg.list ↔
    ∃ heard : Heard, Presence.InForce Overdue history uuid heard ∧ appls = heard.2.setTimestamp heard.1
  /-- A uuid is listed exactly when it has such a REGI. -/
  listed : ∀ uuid, (∃ e ∈ reg.list, e.data.uuidStr = uuid) ↔
    ∃ heard, Presence.InForce Overdue history uuid heard

/-- In a sorted list a lookup under its own key finds an element. -/
theorem mem_iff_getElement {l : List (Element ApplsCtx)} (sorted : ElemSorted l) :
    e ∈ l ↔ getElement e.key l = some e :=
  ⟨getElement_of_mem sorted, fun found => (getElement_some found).1⟩

theorem Remembers.mem_iff (sorted : ElemSorted reg.list) (remembers : Remembers reg held) {uuid : Bytes}
    {appls : ApplsCtx} : ⟨uuid, appls⟩ ∈ reg.list ↔ ∃ heard, held uuid = some heard ∧ appls = heard.record := by
  rw [mem_iff_getElement sorted, remembers uuid, Option.map_eq_some_iff]
  simp [eq_comm]

theorem runs_keyed (run : machine.Runs acts reg trace) : ∀ e ∈ reg.list, e.key = e.data.uuidStr := by
  have stores (a : Act) : a.Stores fun e => e.key = e.data.uuidStr := by
    cases a with
    | regi now nBytes appls => exact fun _ => rfl
    | sweepStart => trivial
    | visit now => trivial
  have empty : machine.init.list = [] := rfl
  have both := run.invariant (fun _ reg => ElemSorted reg.list ∧ ∀ e ∈ reg.list, e.key = e.data.uuidStr)
    (fun _ => True) (fun _ _ => trivial) (by simp [empty, ElemSorted, KeyedList.Sorted])
    (fun tr reg a reg' posts keeps _ step =>
      have moves := step_moves keeps.1 step
      ⟨moves.sorted keeps.1, moves.records (stores a) keeps.2⟩)
  exact both.2

/-- **The last-heard map.** At every point of every run of MGNT the registry is
what its history makes it, and a REGI leaves the records of other uuids as they
are. -/
theorem registry_is_last_heard (run : machine.Runs acts reg trace) (terminated : ∀ a ∈ acts, a.UuidTerminated) :
    IsLastHeard (history acts) reg ∧
      ∀ now nBytes appls reg' posts, appls.uuid.Terminated →
        step reg (.regi now nBytes appls) = some (reg', posts) →
          ∀ e : Element ApplsCtx, e.key ≠ appls.uuidStr → (e ∈ reg'.list ↔ e ∈ reg.list) := by
  have sorted := runs_sorted run
  have keyed := runs_keyed run
  have remembers := runs_remembers run terminated
  have record (uuid : Bytes) (appls : ApplsCtx) : ⟨uuid, appls⟩ ∈ reg.list ↔
      ∃ heard : Heard, Presence.InForce Overdue (history acts) uuid heard ∧ appls = heard.2.setTimestamp heard.1 := by
    simp only [remembers.mem_iff sorted, Presence.held_eq_some_iff, Heard.record]
  refine ⟨⟨?_, keyed, record, ?_⟩, ?_⟩
  · have keys : reg.list.map (fun e => e.data.uuidStr) = reg.list.map Element.key :=
      List.map_congr_left fun e member => (keyed e member).symm
    rw [keys]
    exact List.pairwise_map.mpr sorted
  · intro uuid
    constructor
    · rintro ⟨e, member, rfl⟩
      obtain ⟨heard, inForce, -⟩ := (record e.key e.data).mp member
      exact ⟨heard, keyed e member ▸ inForce⟩
    · rintro ⟨heard, inForce⟩
      have member := (record uuid _).mpr ⟨heard, inForce, rfl⟩
      exact ⟨_, member, (keyed _ member).symm⟩
  · intro now nBytes appls reg' posts ended ran e other
    have stepped := remembers.step sorted (a := .regi now nBytes appls) ended ran
    rw [mem_iff_getElement sorted, mem_iff_getElement ((step_moves sorted ran).sorted sorted), remembers e.key,
      stepped e.key]
    simp only [event]
    split
    · simp [Presence.Event.apply, other]
    · rfl

set_option maxRecDepth 20000 in
theorem registry_is_last_heard_clients :
    ∃ reg trace, machine.Runs [.regi 5 424 (record "" "x"), .regi 6 424 (record "a" "y"), .sweepStart, .visit 15]
        reg trace ∧
      IsLastHeard (history [.regi 5 424 (record "" "x"), .regi 6 424 (record "a" "y"), .sweepStart, .visit 15])
        reg := by
  have run : machine.Runs
      [.regi 5 424 (record "" "x"), .regi 6 424 (record "a" "y"), .sweepStart, .visit 15] _ _ := rfl
  refine ⟨_, _, run, (registry_is_last_heard run ?_).1⟩
  intro a member
  fin_cases member
  · exact (by decide : (record "" "x").uuid.Terminated)
  · exact (by decide : (record "a" "y").uuid.Terminated)
  · trivial
  · trivial

end MsaBroker.Mgnt
