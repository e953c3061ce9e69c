import Mathlib.Data.List.Basic
import Mathlib.Tactic.Common

/-! The life of a resource that is handed out and given back. `track` follows
its uses and stops at the first that comes at the wrong time: acquiring what is
live, or touching or releasing what is not. -/
namespace MsaBroker.Lease

inductive Use where
  | acquire
  | touch
  | release
  deriving DecidableEq

/-- Whether the resource is live after these uses; `none` once one is out of
order. -/
def track (live : Bool) : List Use → Option Bool
  | [] => some live
  | .acquire :: uses => if live then none else track true uses
  | .touch :: uses => if live then track true uses else none
  | .release :: uses => if live then track false uses else none

variable {live live' : Bool} {uses before after : List Use}

theorem track_append : track live (before ++ after) = (track live before).bind (track · after) := by
  fun_induction track live before with
  | case1 live => rfl
  | case2 uses => simp [track]
  | case3 live uses free ih => simpa [track, free] using ih
  | case4 uses ih => simpa [track] using ih
  | case5 live uses free => simp [track, free]
  | case6 uses ih => simpa [track] using ih
  | case7 live uses free => simp [track, free]

/-- Touching a live resource any number of times. -/
theorem track_touches (touches : ∀ u ∈ uses, u = .touch) : track true uses = some true := by
  induction uses with
  | nil => rfl
  | cons u uses ih =>
    obtain rfl := touches u (by simp)
    exact ih fun other member => touches other (by simp [member])

/-- What comes live was acquired. -/
theorem track_acquires (tracked : track false uses = some true) : .acquire ∈ uses := by
  cases uses with
  | nil => cases tracked
  | cons u uses => cases u with
    | acquire => exact List.mem_cons_self
    | touch => cases tracked
    | release => cases tracked

/-- Acquisitions and releases balance, up to what is live at the ends. -/
theorem track_count (tracked : track live uses = some live') :
    uses.count .acquire + live.toNat = uses.count .release + live'.toNat := by
  fun_induction track live uses with
  | case1 live => simp_all
  | case2 uses => cases tracked
  | case3 live uses free ih =>
    have balanced := ih tracked
    simp_all
  | case4 uses ih => simpa using ih tracked
  | case5 live uses free => cases tracked
  | case6 uses ih =>
    have balanced := ih tracked
    simp_all
    omega
  | case7 live uses free => cases tracked

/-- Without touches in between, acquisitions and releases take turns. -/
theorem track_alternates {i : Nat} {u : Use} (tracked : track live uses = some live')
    (untouched : .touch ∉ uses) (used : uses[i]? = some u) :
    u = .acquire ↔ (i % 2 = 0 ↔ live = false) := by
  fun_induction track live uses generalizing i with
  | case1 live => simp at used
  | case2 uses => cases tracked
  | case3 live uses free ih =>
    cases i with
    | zero =>
      obtain rfl : Use.acquire = u := by simpa using used
      simp [free]
    | succ i =>
      have turn := ih tracked (fun touch => untouched (by simp [touch])) (by simpa using used)
      simp only [Bool.not_eq_true] at free
      rw [turn, free]
      simp
      omega
  | case4 uses ih => simp at untouched
  | case5 live uses free => cases tracked
  | case6 uses ih =>
    cases i with
    | zero =>
      obtain rfl : Use.release = u := by simpa using used
      simp
    | succ i =>
      have turn := ih tracked (fun touch => untouched (by simp [touch])) (by simpa using used)
      rw [turn]
      simp
      omega
  | case7 live uses free => cases tracked

/-- After a release nothing happens to the resource until it is acquired anew. -/
theorem track_after_release {u : Use} (tracked : track live (before ++ .release :: u :: after) = some live') :
    u = .acquire := by
  rw [track_append] at tracked
  obtain ⟨held, -, rest⟩ := Option.bind_eq_some_iff.mp tracked
  cases held <;> cases u <;> simp [track] at rest ⊢

end MsaBroker.Lease
