import MsaBroker.TrRecv

/-! What the context pool guarantees to its callers, one statement for each
operation: taking a context makes exactly it live, giving it back makes exactly
it dead, and writing it changes no other. -/
namespace MsaBroker
open CMemory

namespace Pool

variable {p : Pool} {r x : CtxRef} {c d : MsgCtx}

/-- In use: an array cell marked occupied, or a block not freed yet. -/
def live (p : Pool) : CtxRef → Bool
  | .slot pos => decide (0 ≤ pos ∧ pos < maxMsgctxNum) && (p.slot pos).occupied
  | .temp block => (p.temp block).isSome

/-- Cells carry their own index and temporary contexts `-1`, blocks not handed
out yet are not live, and the cursor is no negative number. -/
structure Ok (p : Pool) : Prop where
  cells : ∀ pos, (p.slot pos).msgCtxId = pos
  temps : ∀ block c, p.temp block = some c → c.msgCtxId = -1
  fresh : ∀ block, p.nextBlock ≤ block → p.temp block = none
  cursor : 0 ≤ p.currPos

@[simp] theorem read_write_self : (p.write r c).read r = c := by
  cases r <;> simp [read, write]

theorem read_write_ne (other : x ≠ r) : (p.write r c).read x = p.read x := by
  cases r with
  | slot pos =>
    cases x with
    | slot pos' =>
      have apart : pos' ≠ pos := fun same => other (same ▸ rfl)
      simp [read, write, Function.update_of_ne apart]
    | temp block => rfl
  | temp block =>
    cases x with
    | slot pos => rfl
    | temp block' =>
      have apart : block' ≠ block := fun same => other (same ▸ rfl)
      simp [read, write, Function.update_of_ne apart]

@[simp] theorem write_write : (p.write r c).write r d = p.write r d := by
  cases r <;> simp [write]

theorem init_ok : Pool.init.Ok :=
  ⟨fun _ => rfl, fun _ _ none => by simp [init] at none, fun _ _ => rfl, Int.le_refl 0⟩

@[simp] theorem init_live (x : CtxRef) : Pool.init.live x = false := by
  cases x <;> simp [live, init]

private theorem live_temp {block : Nat} (live : p.live (.temp block) = true) :
    ∃ c, p.temp block = some c := Option.isSome_iff_exists.mp live

/-- Writing a live context that keeps its id and its mark leaves every context
as live as it was. -/
theorem write_live (occupied : c.occupied = (p.read r).occupied) (live : p.live r = true) (x : CtxRef) :
    (p.write r c).live x = p.live x := by
  by_cases same : x = r
  · subst same
    cases x with
    | slot pos =>
      have mark : c.occupied = (p.slot pos).occupied := occupied
      simp [Pool.live, write, mark]
    | temp block =>
      obtain ⟨held, alive⟩ := live_temp live
      simp [Pool.live, write, alive]
  · cases r with
    | slot pos =>
      cases x with
      | slot pos' =>
        have apart : pos' ≠ pos := fun eq => same (eq ▸ rfl)
        simp [Pool.live, write, Function.update_of_ne apart]
      | temp block => rfl
    | temp block =>
      cases x with
      | slot pos => rfl
      | temp block' =>
        have apart : block' ≠ block := fun eq => same (eq ▸ rfl)
        simp [Pool.live, write, Function.update_of_ne apart]

/-- Writing what a context carries is such a write. -/
theorem write_contents_live (head : Envelop) (buffer : Buf maxMsgsizeByte) (live : p.live r = true)
    (x : CtxRef) : (p.write r { p.read r with head := head, buffer := buffer }).live x = p.live x :=
  write_live (c := { p.read r with head := head, buffer := buffer }) rfl live x

theorem Ok.write (ok : p.Ok) (live : p.live r = true) (id : c.msgCtxId = (p.read r).msgCtxId) :
    (p.write r c).Ok := by
  cases r with
  | slot pos =>
    refine ⟨fun pos' => ?_, ok.temps, ok.fresh, ok.cursor⟩
    by_cases same : pos' = pos
    · subst same
      simpa [Pool.write, read, ok.cells] using id
    · simpa [Pool.write, Function.update_of_ne same] using ok.cells pos'
  | temp block =>
    obtain ⟨held, alive⟩ := live_temp live
    refine ⟨ok.cells, fun block' d stored => ?_, fun block' past => ?_, ok.cursor⟩
    · by_cases same : block' = block
      · subst same
        simp only [Pool.write, Function.update_self, Option.some.injEq] at stored
        rw [← stored, id]
        simpa [read, alive] using ok.temps _ _ alive
      · exact ok.temps block' d (by simpa [Pool.write, Function.update_of_ne same] using stored)
    · have apart : block' ≠ block := by
        rintro rfl
        simp [ok.fresh _ past] at alive
      simpa [Pool.write, Function.update_of_ne apart] using ok.fresh block' past

end Pool

/-! ## `get_msg_ctx` -/

variable {p : Pool} {r x : CtxRef} {i left : Nat} {pos : Int}

/-- The search goes through the cells in cyclic order from the cursor. -/
theorem emptySlot_cases (cursor : 0 ≤ p.currPos) :
    (emptySlot p i left = none ∧ ∀ j < left, (p.slot ((p.currPos + (i + j : Nat)) % maxMsgctxNum)).occupied = true) ∨
      ∃ k < left, emptySlot p i left = some ((p.currPos + (i + k : Nat)) % maxMsgctxNum) ∧
        (p.slot ((p.currPos + (i + k : Nat)) % maxMsgctxNum)).occupied = false ∧
        ∀ j < k, (p.slot ((p.currPos + (i + j : Nat)) % maxMsgctxNum)).occupied = true := by
  induction left generalizing i with
  | zero => exact .inl ⟨rfl, by simp⟩
  | succ left ih =>
    have here : (p.currPos + i).tmod maxMsgctxNum = (p.currPos + (i + 0 : Nat)) % maxMsgctxNum :=
      Int.tmod_eq_emod_of_nonneg (by omega)
    have next (j : Nat) : i + (j + 1) = i + 1 + j := by omega
    simp only [emptySlot, here]
    by_cases empty : (p.slot ((p.currPos + (i + 0 : Nat)) % maxMsgctxNum)).occupied = false
    · rw [if_pos empty]
      exact .inr ⟨0, by omega, rfl, empty, by simp⟩
    · rw [if_neg empty]
      have full := (Bool.not_eq_false _).mp empty
      rcases @ih (i + 1) with ⟨nothing, all⟩ | ⟨k, inside, found, isEmpty, before⟩
      · refine .inl ⟨nothing, fun j less => ?_⟩
        cases j with
        | zero => exact full
        | succ j => exact next j ▸ all j (by omega)
      · refine .inr ⟨k + 1, by omega, next k ▸ found, next k ▸ isEmpty, fun j less => ?_⟩
        cases j with
        | zero => exact full
        | succ j => exact next j ▸ before j (by omega)

/-- The search stops at an empty cell inside the array. -/
theorem emptySlot_some (cursor : 0 ≤ p.currPos) (found : emptySlot p i left = some pos) :
    (0 ≤ pos ∧ pos < maxMsgctxNum) ∧ (p.slot pos).occupied = false := by
  rcases @emptySlot_cases p i left cursor with ⟨nothing, -⟩ | ⟨k, -, found', empty, -⟩
  · simp [nothing] at found
  · obtain rfl := Option.some.inj (found'.symm.trans found)
    exact ⟨⟨Int.emod_nonneg _ (by decide), Int.emod_lt_of_pos _ (by decide)⟩, empty⟩

/-- Taking a context: it was not in use, it is now, its header is cleared, and
every other context is untouched. -/
theorem getMsgCtx_spec (ok : p.Ok) :
    (getMsgCtx p).2.Ok ∧ p.live (getMsgCtx p).1 = false ∧ (getMsgCtx p).2.live (getMsgCtx p).1 = true ∧
      ((getMsgCtx p).2.read (getMsgCtx p).1).head = .zero ∧
      ∀ x, x ≠ (getMsgCtx p).1 →
        (getMsgCtx p).2.live x = p.live x ∧ (getMsgCtx p).2.read x = p.read x := by
  unfold getMsgCtx
  split
  · rename_i pos found
    obtain ⟨inside, empty⟩ := emptySlot_some ok.cursor found
    refine ⟨⟨fun pos' => ?_, ok.temps, ok.fresh, ?_⟩, ?_, ?_, ?_, fun x other => ?_⟩
    · by_cases same : pos' = pos
      · subst same
        simpa [Pool.write] using ok.cells pos'
      · simpa [Pool.write, Function.update_of_ne same] using ok.cells pos'
    · have cell := ok.cells pos
      have one : Int.tmod 1 maxMsgctxNum = 1 := by decide
      simp only [cell, one]
      omega
    · simp [Pool.live, empty]
    · simp [Pool.live, Pool.write, inside]
    · simp [Pool.read, Pool.write]
    · cases x with
      | slot pos' =>
        have apart : pos' ≠ pos := fun same => other (same ▸ rfl)
        simp [Pool.live, Pool.read, Pool.write, Function.update_of_ne apart]
      | temp block => exact ⟨rfl, rfl⟩
  · have cursor : (0 : Int) ≤ -1 + Int.tmod 1 maxMsgctxNum := by decide
    refine ⟨⟨ok.cells, fun block c stored => ?_, fun block past => ?_, cursor⟩, ?_, ?_, ?_,
      fun x other => ?_⟩
    · by_cases same : block = p.nextBlock
      · subst same
        simp only [Pool.write, Function.update_self, Option.some.injEq] at stored
        rw [← stored]
      · exact ok.temps block c (by simpa [Pool.write, Function.update_of_ne same] using stored)
    · have past : p.nextBlock + 1 ≤ block := past
      have apart : block ≠ p.nextBlock := by omega
      simpa [Pool.write, Function.update_of_ne apart] using ok.fresh block (by omega)
    · simp [Pool.live, ok.fresh _ (Nat.le_refl _)]
    · simp [Pool.live, Pool.write]
    · simp [Pool.read, Pool.write]
    · cases x with
      | slot pos => exact ⟨rfl, rfl⟩
      | temp block =>
        have apart : block ≠ p.nextBlock := fun same => other (same ▸ rfl)
        simp [Pool.live, Pool.read, Pool.write, Function.update_of_ne apart]

/-! ## `free_msg_ctx` -/

/-- Giving back a context in use: it is not any more, an array cell stays in the
pool and a temporary one does not, and every other context is untouched. -/
theorem freeMsgCtx_spec (ok : p.Ok) (live : p.live r = true) :
    (freeMsgCtx r p).Ok ∧ (freeMsgCtx r p).live r = false ∧
      ∀ x, x ≠ r → (freeMsgCtx r p).live x = p.live x ∧ (freeMsgCtx r p).read x = p.read x := by
  cases r with
  | slot pos =>
    have inside : 0 ≤ pos ∧ pos < maxMsgctxNum := by
      simp only [Pool.live, Bool.and_eq_true, decide_eq_true_eq] at live
      exact live.1
    have given : (p.read (.slot pos)).msgCtxId ≥ 0 := by
      simpa [Pool.read, ok.cells] using inside.1
    simp only [freeMsgCtx, given, ↓reduceIte]
    refine ⟨ok.write live rfl, by simp [Pool.live, Pool.write], fun x other => ?_⟩
    refine ⟨?_, Pool.read_write_ne other⟩
    cases x with
    | slot pos' =>
      have apart : pos' ≠ pos := fun same => other (same ▸ rfl)
      simp [Pool.live, Pool.write, Function.update_of_ne apart]
    | temp block => rfl
  | temp block =>
    obtain ⟨held, alive⟩ := Option.isSome_iff_exists.mp live
    have temporary : ¬ (p.read (.temp block)).msgCtxId ≥ 0 := by
      simp [Pool.read, alive, ok.temps _ _ alive]
    simp only [freeMsgCtx, temporary, ↓reduceIte]
    refine ⟨⟨ok.cells, fun block' c stored => ?_, fun block' past => ?_, ok.cursor⟩, ?_, fun x other => ?_⟩
    · by_cases same : block' = block
      · subst same
        simp [Pool.release] at stored
      · exact ok.temps block' c (by simpa [Pool.release, Function.update_of_ne same] using stored)
    · by_cases same : block' = block
      · subst same
        simp [Pool.release]
      · simpa [Pool.release, Function.update_of_ne same] using ok.fresh block' past
    · simp [Pool.live, Pool.release]
    · cases x with
      | slot pos => exact ⟨rfl, rfl⟩
      | temp block' =>
        have apart : block' ≠ block := fun same => other (same ▸ rfl)
        simp [Pool.live, Pool.read, Pool.release, Function.update_of_ne apart]

/-- Blocks are numbered in the order they are handed out. -/
theorem getMsgCtx_nextBlock :
    p.nextBlock ≤ (getMsgCtx p).2.nextBlock ∧
      ∀ block, (getMsgCtx p).1 = .temp block → p.nextBlock = block ∧ block < (getMsgCtx p).2.nextBlock := by
  unfold getMsgCtx
  split
  · exact ⟨Nat.le_refl _, fun block temp => by cases temp⟩
  · refine ⟨Nat.le_succ _, fun block temp => ?_⟩
    cases temp
    exact ⟨rfl, Nat.lt_succ_self _⟩

@[simp] theorem freeMsgCtx_nextBlock : (freeMsgCtx r p).nextBlock = p.nextBlock := by
  unfold freeMsgCtx
  split <;> cases r <;> rfl

/-! ## How many are in use -/

theorem getMsgCtx_live (ok : p.Ok) (x : CtxRef) :
    ((getMsgCtx p).2.live x).toNat = (p.live x).toNat + if (getMsgCtx p).1 = x then 1 else 0 := by
  obtain ⟨-, before, after, -, others⟩ := getMsgCtx_spec ok
  by_cases same : (getMsgCtx p).1 = x
  · subst same
    simp [before, after]
  · simp [same, (others x (Ne.symm same)).1]

theorem freeMsgCtx_live (ok : p.Ok) (live : p.live r = true) (x : CtxRef) :
    (p.live x).toNat = ((freeMsgCtx r p).live x).toNat + if r = x then 1 else 0 := by
  obtain ⟨-, after, others⟩ := freeMsgCtx_spec ok live
  by_cases same : r = x
  · subst same
    simp [live, after]
  · simp [same, (others x (Ne.symm same)).1]

end MsaBroker
