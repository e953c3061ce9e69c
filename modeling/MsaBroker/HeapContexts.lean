import Mathlib.Data.List.Perm.Subperm
import MsaBroker.CtxCursor
import MsaBroker.CtxOwnership

/-! When `get_msg_ctx` goes to the heap. The array is used up first, but a heap
context is not exchanged for a cell that falls free while it is held, so the
number of heap contexts follows the load of the broker only up to its peaks:
over a run, their largest number is what the largest number of contexts in use
exceeds the array by. -/
namespace MsaBroker
open CMemory Lease

namespace Pool

variable {p : Pool} {r : CtxRef}

/-- The cells of the array in use. -/
def arrayContexts (p : Pool) : List CtxRef :=
  ((List.range maxMsgctxNum).map fun pos : Nat => CtxRef.slot pos).filter p.live

/-- The contexts allocated on the heap and not freed. -/
def heapContexts (p : Pool) : List CtxRef := ((List.range p.nextBlock).map CtxRef.temp).filter p.live

/-! ## The contexts in use -/

theorem mem_arrayContexts : r ∈ p.arrayContexts ↔ ∃ pos, r = .slot pos ∧ p.live r = true := by
  simp only [arrayContexts, List.mem_filter, List.mem_map, List.mem_range]
  constructor
  · rintro ⟨⟨pos, -, rfl⟩, live⟩
    exact ⟨pos, rfl, live⟩
  · rintro ⟨pos, rfl, live⟩
    obtain ⟨low, high⟩ : 0 ≤ pos ∧ pos < maxMsgctxNum := by
      simp only [Pool.live, Bool.and_eq_true, decide_eq_true_eq] at live
      exact live.1
    exact ⟨⟨pos.toNat, by omega, congrArg CtxRef.slot (Int.toNat_of_nonneg low)⟩, live⟩

theorem mem_heapContexts (ok : p.Ok) : r ∈ p.heapContexts ↔ ∃ block, r = .temp block ∧ p.live r = true := by
  simp only [heapContexts, List.mem_filter, List.mem_map, List.mem_range]
  constructor
  · rintro ⟨⟨block, -, rfl⟩, live⟩
    exact ⟨block, rfl, live⟩
  · rintro ⟨block, rfl, live⟩
    refine ⟨⟨block, ?_, rfl⟩, live⟩
    by_contra past
    simp [Pool.live, ok.fresh block (by omega)] at live

theorem arrayContexts_nodup : p.arrayContexts.Nodup := by
  refine (List.nodup_range.map fun pos pos' same => ?_).filter _
  cases same
  rfl

theorem heapContexts_nodup : p.heapContexts.Nodup := by
  refine (List.nodup_range.map fun block block' same => ?_).filter _
  cases same
  rfl

/-- A full array is in use as a whole. -/
theorem arrayContexts_length (full : ∀ pos : Int, 0 ≤ pos → pos < maxMsgctxNum → (p.slot pos).occupied = true) :
    p.arrayContexts.length = maxMsgctxNum := by
  have all : p.arrayContexts = (List.range maxMsgctxNum).map fun pos : Nat => CtxRef.slot pos := by
    refine List.filter_eq_self.mpr fun r member => ?_
    obtain ⟨pos, inside, rfl⟩ := List.mem_map.mp member
    have within : pos < maxMsgctxNum := List.mem_range.mp inside
    simp [Pool.live, full pos (by omega) (by omega), within]
  rw [all, List.length_map, List.length_range]

/-- Where nothing on the heap came into use, no more of it is in use. -/
theorem heapContexts_length_le {p' : Pool} (ok : p.Ok) (ok' : p'.Ok)
    (before : ∀ block, p'.live (.temp block) = true → p.live (.temp block) = true) :
    p'.heapContexts.length ≤ p.heapContexts.length := by
  refine (List.Nodup.subperm heapContexts_nodup fun r member => ?_).length_le
  obtain ⟨block, rfl, live⟩ := (mem_heapContexts ok').mp member
  exact (mem_heapContexts ok).mpr ⟨block, rfl, before block live⟩

end Pool

namespace Pipeline

variable {host : Host} {p p' : Pipeline} {a : Act} {acts : List Act} {obs trace : List Obs} {r : CtxRef}

theorem Inv.refs_nodup (inv : p.Inv trace) : p.refs.Nodup := by
  refine List.nodup_iff_count_le_one.mpr fun r => ?_
  rw [inv.owned r]
  exact Bool.toNat_le _

/-- What is held is what is in use of the array and of the heap. -/
theorem Inv.refs_perm (inv : p.Inv trace) : p.refs.Perm (p.pool.arrayContexts ++ p.pool.heapContexts) := by
  have apart : p.pool.arrayContexts.Disjoint p.pool.heapContexts := by
    intro r array heap
    obtain ⟨pos, rfl, -⟩ := Pool.mem_arrayContexts.mp array
    obtain ⟨block, same, -⟩ := (Pool.mem_heapContexts inv.pool).mp heap
    cases same
  have nodup := Pool.arrayContexts_nodup.append Pool.heapContexts_nodup apart
  refine (List.perm_ext_iff_of_nodup inv.refs_nodup nodup).mpr fun r => ?_
  rw [← inv.live_iff, List.mem_append, Pool.mem_arrayContexts, Pool.mem_heapContexts inv.pool]
  cases r <;> simp

theorem Inv.refs_length (inv : p.Inv trace) :
    p.refs.length = p.pool.arrayContexts.length + p.pool.heapContexts.length := by
  rw [inv.refs_perm.length_eq, List.length_append]

/-! ## How their number grows -/

/-- More of the heap comes into use only in a step that finds the array full,
and leaves it so. -/
theorem Moves.heapContexts (moves : Moves host trace p a p' obs) (inv : p.Inv trace) :
    p'.pool.heapContexts.length ≤ p.pool.heapContexts.length ∨
      maxMsgctxNum + p'.pool.heapContexts.length ≤ p'.refs.length := by
  have inv' := moves.inv inv
  by_cases obtained : ∃ x, .acquire ∈ usesOf x obs
  · obtain ⟨x, member⟩ := obtained
    obtain ⟨-, pool⟩ := moves.acquires member
    obtain ⟨-, -, -, -, others⟩ := getMsgCtx_spec inv.pool
    have issues := CtxCursor.getMsgCtx_issues inv.pool rfl
    cases issued : (getMsgCtx p.pool).1 with
    | slot pos =>
      refine .inl (Pool.heapContexts_length_le inv.pool inv'.pool fun block live => ?_)
      have other : .temp block ≠ (getMsgCtx p.pool).1 := by simp [issued]
      rwa [pool, (others _ other).1] at live
    | temp block =>
      refine .inr ?_
      have full := issues.temp.mp ⟨block, issued⟩
      have still : p'.pool.arrayContexts.length = maxMsgctxNum := by
        refine Pool.arrayContexts_length fun pos low high => ?_
        have other : .slot pos ≠ (getMsgCtx p.pool).1 := by simp [issued]
        have same : p'.pool.slot pos = p.pool.slot pos := pool ▸ (others _ other).2
        rw [same]
        exact full pos low high
      rw [inv'.refs_length, still]
  · refine .inl (Pool.heapContexts_length_le inv.pool inv'.pool fun block live => ?_)
    by_contra dead
    have tracked := moves.tracked inv (.temp block)
    rw [live] at tracked
    rw [(Bool.not_eq_true _).mp dead] at tracked
    exact obtained ⟨_, track_acquires tracked⟩

end Pipeline

end MsaBroker
