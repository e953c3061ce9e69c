import Mathlib.Data.List.Chain
import Mathlib.Tactic.Common

/-! A lease that is renewed over a queue. Its holder renews it from time to time;
a renewal waits in the queue, and when it is taken the lease is granted as of
then. Where the holder lets no more than `period` pass between renewals, and no
renewal waits longer than `delay`, no grant grows older than both together. -/
namespace MsaBroker.Renewal

structure Times where
  clock : Nat
  /-- The last renewal. -/
  renewed : Option Nat
  /-- The renewals in the queue, by the time they were made. -/
  waiting : List Nat
  /-- The last grant. -/
  granted : Option Nat

/-- Nothing is overdue, and the renewals that wait follow one another, and the
last grant, within a period. -/
structure InTime (period delay : Nat) (t : Times) : Prop where
  renewed : ∀ r, t.renewed = some r → r ≤ t.clock ∧ t.clock ≤ r + period
  waiting : ∀ w ∈ t.waiting, w ≤ t.clock ∧ t.clock ≤ w + delay
  steady : t.waiting.IsChain fun w w' => w' ≤ w + period
  newest : ∀ w, t.waiting.getLast? = some w → t.renewed = some w
  granted : ∀ g, t.granted = some g → g ≤ t.clock
  follows : ∀ g, t.granted = some g → ∀ w, t.waiting.head? = some w → w ≤ g + period
  settled : ∀ g, t.granted = some g → t.waiting = [] → ∃ r, t.renewed = some r ∧ r ≤ g

variable {period delay : Nat} {t : Times}

theorem inTime_start (clock : Nat) : InTime period delay ⟨clock, none, [], none⟩ := by
  constructor <;> simp

/-- No grant is older than a period and a delay. -/
theorem InTime.age (inTime : InTime period delay t) {g : Nat} (granted : t.granted = some g) :
    t.clock ≤ g + period + delay := by
  cases next : t.waiting with
  | nil =>
    obtain ⟨r, renewed, earlier⟩ := inTime.settled g granted next
    have due := (inTime.renewed r renewed).2
    omega
  | cons w waiting =>
    have due := (inTime.waiting w (by simp [next])).2
    have close := inTime.follows g granted w (by simp [next])
    omega

/-- Time passes while nothing is due. -/
theorem InTime.tick (inTime : InTime period delay t) (renewed : ∀ r, t.renewed = some r → t.clock < r + period)
    (waiting : ∀ w ∈ t.waiting, t.clock < w + delay) : InTime period delay { t with clock := t.clock + 1 } where
  renewed r last := ⟨Nat.le_succ_of_le (inTime.renewed r last).1, renewed r last⟩
  waiting w member := ⟨Nat.le_succ_of_le (inTime.waiting w member).1, waiting w member⟩
  steady := inTime.steady
  newest := inTime.newest
  granted g last := Nat.le_succ_of_le (inTime.granted g last)
  follows := inTime.follows
  settled := inTime.settled

/-- The holder renews the lease. -/
theorem InTime.renew (inTime : InTime period delay t) :
    InTime period delay { t with renewed := some t.clock, waiting := t.waiting ++ [t.clock] } where
  renewed r now := by
    obtain rfl : t.clock = r := by simpa using now
    exact ⟨Nat.le_refl _, Nat.le_add_right _ _⟩
  waiting w member := by
    rcases List.mem_append.mp member with earlier | now
    · exact inTime.waiting w earlier
    · rw [List.mem_singleton.mp now]
      exact ⟨Nat.le_refl _, Nat.le_add_right _ _⟩
  steady := by
    refine List.isChain_append.mpr ⟨inTime.steady, List.isChain_singleton _, fun w last w' now => ?_⟩
    obtain rfl : t.clock = w' := by simpa using now
    exact (inTime.renewed w (inTime.newest w last)).2
  newest w last := by simpa using last
  granted := inTime.granted
  follows g granted w first := by
    cases next : t.waiting with
    | nil =>
      obtain ⟨r, renewed, earlier⟩ := inTime.settled g granted next
      obtain rfl : t.clock = w := by simpa [next] using first
      have due := (inTime.renewed r renewed).2
      omega
    | cons w' waiting =>
      refine inTime.follows g granted w ?_
      simpa [next] using first
  settled g granted empty := by simp at empty

/-- A first renewal that is not put in the queue. -/
theorem InTime.first (inTime : InTime period delay t) (none : t.renewed = none) :
    InTime period delay { t with renewed := some t.clock } := by
  have empty : t.waiting = [] := by
    cases last : t.waiting.getLast? with
    | none => exact List.getLast?_eq_none_iff.mp last
    | some w => cases none.symm.trans (inTime.newest w last)
  have never (g : Nat) : t.granted ≠ some g := by
    intro granted
    obtain ⟨r, renewed, -⟩ := inTime.settled g granted empty
    cases none.symm.trans renewed
  constructor
  · intro r now
    obtain rfl : t.clock = r := by simpa using now
    exact ⟨Nat.le_refl _, Nat.le_add_right _ _⟩
  · exact inTime.waiting
  · exact inTime.steady
  · intro w last
    simp [empty] at last
  · exact inTime.granted
  · exact inTime.follows
  · exact fun g granted => absurd granted (never g)

/-- The next renewal is taken. -/
theorem InTime.grant {w : Nat} {waiting : List Nat} (inTime : InTime period delay t)
    (next : t.waiting = w :: waiting) :
    InTime period delay { t with waiting := waiting, granted := some t.clock } where
  renewed := inTime.renewed
  waiting w' member := inTime.waiting w' (by simp [next, member])
  steady := (List.isChain_cons.mp (next ▸ inTime.steady)).2
  newest w' last := inTime.newest w' (by simp [next, List.getLast?_cons, last])
  granted g now := by
    obtain rfl : t.clock = g := by simpa using now
    exact Nat.le_refl _
  follows g now w' first := by
    obtain rfl : t.clock = g := by simpa using now
    have made := (inTime.waiting w (by simp [next])).1
    have close := (List.isChain_cons.mp (next ▸ inTime.steady)).1 w' first
    omega
  settled g now empty := by
    obtain rfl : t.clock = g := by simpa using now
    obtain rfl : waiting = [] := empty
    exact ⟨w, inTime.newest w (by simp [next]), (inTime.waiting w (by simp [next])).1⟩

end MsaBroker.Renewal
