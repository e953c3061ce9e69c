import MsaBroker.TrMgnt

/-! What `handle_regi` and `check_svc_alive` do to the services a registry
offers, in terms of the multiset of its service names. The list itself only
matters up to order here. -/
namespace MsaBroker
open CMemory

variable {l l' : List (Element ApplsCtx)} {e old : Element ApplsCtx} {reg reg' : Registry}
  {posted : List Notification} {now : Int64}
  {nBytes : Int32} {appls : ApplsCtx} {s key : Bytes}

/-- The service name of a record. -/
def Element.svc (e : Element ApplsCtx) : Bytes := e.data.svcnameStr

/-- The service a notification is about. -/
def Notification.svc (n : Notification) : Bytes := n.appls.svcnameStr

theorem findSvcExist_cons :
    findSvcExist s (e :: l) = findSvcExist s l + if e.svc = s then 1 else 0 := by
  unfold findSvcExist Element.svc
  rw [List.countP_cons]
  by_cases same : e.data.svcnameStr = s <;> simp [strcmp_eq_zero_iff, same]

theorem findSvcExist_perm (perm : l.Perm l') : findSvcExist s l = findSvcExist s l' :=
  perm.countP_eq _

theorem findSvcExist_pos : 0 < findSvcExist s l ↔ ∃ e ∈ l, e.svc = s := by
  simp [findSvcExist, List.countP_pos_iff, strcmp_eq_zero_iff, Element.svc]

/-- Overwriting the data of an element that is there. -/
theorem setElement_perm (appls : ApplsCtx) (found : getElement key l = some old) :
    ∃ rest, l.Perm (old :: rest) ∧ (setElement key appls l).Perm (⟨old.key, appls⟩ :: rest) := by
  induction l with
  | nil => cases found
  | cons e l ih =>
    simp only [getElement, setElement, strcmp_eq_zero_iff] at found ⊢
    by_cases here : e.key = key
    · simp only [here, ↓reduceIte, Option.some.injEq] at found ⊢
      subst found
      exact ⟨l, .refl _, by rw [here]⟩
    · simp only [here, ↓reduceIte] at found ⊢
      obtain ⟨rest, perm, perm'⟩ := ih found
      exact ⟨e :: rest, (perm.cons e).trans (.swap ..), (perm'.cons e).trans (.swap ..)⟩

theorem setElement_keys (key : Bytes) (appls : ApplsCtx) (l : List (Element ApplsCtx)) :
    (setElement key appls l).map Element.key = l.map Element.key := by
  induction l with
  | nil => rfl
  | cons e l ih =>
    simp only [setElement]
    split <;> simp [ih]

/-- The outcomes of `handle_regi`. -/
inductive RegiOutcome (now : Int64) (nBytes : Int32) (appls : ApplsCtx) (reg : Registry) :
    Registry → List Notification → Prop
  | wrongSize (size : nBytes.toInt ≠ sizeofApplsCtx) : RegiOutcome now nBytes appls reg reg []
  | update {old : Element ApplsCtx} {rest list : List (Element ApplsCtx)}
      (size : nBytes.toInt = sizeofApplsCtx)
      (known : getElement (appls.setTimestamp now).uuidStr reg.list = some old)
      (before : reg.list.Perm (old :: rest)) (after : list.Perm (⟨old.key, appls.setTimestamp now⟩ :: rest))
      (keys : list.map Element.key = reg.list.map Element.key) :
      RegiOutcome now nBytes appls reg ⟨list, []⟩ []
  | register {list : List (Element ApplsCtx)} (size : nBytes.toInt = sizeofApplsCtx)
      (unknown : getElement (appls.setTimestamp now).uuidStr reg.list = none)
      (added : addElement ⟨(appls.setTimestamp now).uuidStr, appls.setTimestamp now⟩ reg.list = some list) :
      RegiOutcome now nBytes appls reg ⟨list, []⟩
        (if (appls.setTimestamp now).svcnameStr ≠ [] ∧
            findSvcExist (appls.setTimestamp now).svcnameStr list = 1
          then [.create (appls.setTimestamp now)] else [])

/-- A count of one is a non-empty name with one record. -/
theorem countSvc_eq_one : countSvc s l = 1 ↔ s ≠ [] ∧ findSvcExist s l = 1 := by
  cases s <;> simp [countSvc]

theorem handleRegi_outcome (sorted : ElemSorted reg.list)
    (ran : handleRegi now nBytes appls reg = (reg', posted)) :
    RegiOutcome now nBytes appls reg reg' posted := by
  unfold handleRegi at ran
  split at ran
  · rename_i size
    cases ran
    exact .wrongSize size
  · rename_i size
    have size : nBytes.toInt = sizeofApplsCtx := not_not.mp size
    simp only at ran
    split at ran
    · rename_i old known
      obtain ⟨rest, before, after⟩ := setElement_perm (appls.setTimestamp now) known
      cases ran
      exact .update size known before after (setElement_keys ..)
    · rename_i unknown
      cases added : addElement ⟨(appls.setTimestamp now).uuidStr, appls.setTimestamp now⟩ reg.list with
      | none =>
        have taken := (addElement_eq_none sorted).mp added
        exact absurd taken (getElement_eq_none.mp unknown)
      | some list =>
        simp only [added, Option.getD_some, countSvc_eq_one] at ran
        cases ran
        exact .register size unknown added

/-- A REGI message is not left half handled. -/
theorem handleRegi_todo (idle : reg.todo = []) : (handleRegi now nBytes appls reg).1.todo = [] := by
  unfold handleRegi
  split
  · exact idle
  · simp only
    split <;> rfl

/-- The outcomes of `check_svc_alive` on the next record. -/
inductive VisitOutcome (now : Int64) (reg : Registry) : Registry → List Notification → Prop
  | keep {e : Element ApplsCtx} {todo : List (Element ApplsCtx)} (next : reg.todo = e :: todo) :
      VisitOutcome now reg ⟨reg.swept ++ [e], todo⟩ []
  | expire {e : Element ApplsCtx} {todo : List (Element ApplsCtx)} (next : reg.todo = e :: todo)
      (late : now.toInt - e.data.timestamp.toInt > 10) :
      VisitOutcome now reg ⟨reg.swept, todo⟩
        (if e.svc ≠ [] ∧ findSvcExist e.svc reg.list = 1 then [.remove e.data] else [])

theorem checkSvcAlive_outcome (unfinished : reg.todo ≠ [])
    (ran : checkSvcAlive now reg = (reg', posted)) : VisitOutcome now reg reg' posted := by
  unfold checkSvcAlive at ran
  split at ran
  · rename_i finished
    exact absurd finished unfinished
  · rename_i e todo next
    split at ran
    · rename_i late
      simp only [countSvc_eq_one] at ran
      cases ran
      exact .expire next late
    · cases ran
      exact .keep next

/-- Unlinking the record a sweep stands at. -/
theorem Registry.list_expire {todo : List (Element ApplsCtx)} (next : reg.todo = e :: todo) :
    reg.list.Perm (e :: (reg.swept ++ todo)) := by
  rw [Registry.list, next]
  exact List.perm_middle

/-! ## The registry stays in order -/

theorem RegiOutcome.sorted (outcome : RegiOutcome now nBytes appls reg reg' posted)
    (sorted : ElemSorted reg.list) : ElemSorted reg'.list := by
  cases outcome with
  | wrongSize size => exact sorted
  | update size known before after keys =>
    simp only [Registry.list, List.append_nil]
    exact sorted.of_keys keys
  | register size unknown added =>
    simp only [Registry.list, List.append_nil]
    exact addElement_sorted sorted added

theorem VisitOutcome.sorted (outcome : VisitOutcome now reg reg' posted) (sorted : ElemSorted reg.list) :
    ElemSorted reg'.list := by
  cases outcome with
  | keep next => simpa [Registry.list, next] using sorted
  | expire next late =>
    refine List.Pairwise.sublist ?_ sorted
    simp [Registry.list, next]

end MsaBroker
