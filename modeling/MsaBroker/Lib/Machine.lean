import Mathlib.Algebra.GroupWithZero.Nat
import Mathlib.Data.List.Induction
import Mathlib.Tactic.Common

/-! Machines that take labelled steps and emit observations. A run is the list
of labels it was given, so two machines can be driven by the same one. The
rules below are the only inductions over runs: an invariant needs one step,
a simulation needs one step, and so does an exact condition on the steps. -/
namespace MsaBroker

/-- A state machine whose step may be disabled, and emits what an observer of
that step sees. -/
structure Machine (σ α ω : Type*) where
  /-- The state before any step. -/
  init : σ
  /-- One step under a label: the next state and the observations, in order. -/
  step : σ → α → Option (σ × List ω)

namespace Machine

variable {σ α ω : Type*} (M : Machine σ α ω)

/-- The labels taken one after the other, with all their observations. -/
def runFrom (s : σ) : List α → Option (σ × List ω)
  | [] => some (s, [])
  | a :: acts => (M.step s a).bind fun next =>
      (runFrom next.1 acts).map fun last => (last.1, next.2 ++ last.2)

/-- These labels lead from the initial state to `s` and emit `trace`. -/
def Runs (acts : List α) (s : σ) (trace : List ω) : Prop := M.runFrom M.init acts = some (s, trace)

variable {M} {s t u : σ} {acts acts₁ acts₂ : List α} {a : α} {trace tr₁ tr₂ out : List ω}

theorem runFrom_cons : M.runFrom s (a :: acts) = some (u, trace) ↔
    ∃ t out rest, M.step s a = some (t, out) ∧ M.runFrom t acts = some (u, rest) ∧
      trace = out ++ rest := by
  simp only [runFrom, Option.bind_eq_some_iff, Option.map_eq_some_iff, Prod.exists, Prod.mk.injEq]
  constructor
  · rintro ⟨t, out, step, u', rest, run, rfl, rfl⟩
    exact ⟨t, out, rest, step, run, rfl⟩
  · rintro ⟨t, out, rest, step, run, rfl⟩
    exact ⟨t, out, step, u, rest, run, rfl, rfl⟩

theorem runFrom_nil : M.runFrom s [] = some (s, []) :=
  rfl

theorem runFrom_append : M.runFrom s (acts₁ ++ acts₂) = some (u, trace) ↔
    ∃ t tr₁ tr₂, M.runFrom s acts₁ = some (t, tr₁) ∧ M.runFrom t acts₂ = some (u, tr₂) ∧
      trace = tr₁ ++ tr₂ := by
  induction acts₁ generalizing s trace with
  | nil => simp [runFrom_nil]
  | cons a acts₁ ih =>
    simp only [List.cons_append, runFrom_cons, ih]
    constructor
    · rintro ⟨t, out, rest, step, ⟨t', tr₁, tr₂, run₁, run₂, rfl⟩, rfl⟩
      exact ⟨t', out ++ tr₁, tr₂, ⟨t, out, tr₁, step, run₁, rfl⟩, run₂, by simp⟩
    · rintro ⟨t', _, tr₂, ⟨t, out, rest, step, run₁, rfl⟩, run₂, rfl⟩
      exact ⟨t, out, rest ++ tr₂, step, ⟨t', rest, tr₂, run₁, run₂, rfl⟩, by simp⟩

/-- A run grows at its end by one enabled step. -/
theorem runFrom_snoc (run : M.runFrom s acts = some (t, trace)) (step : M.step t a = some (u, out)) :
    M.runFrom s (acts ++ [a]) = some (u, trace ++ out) := by
  rw [runFrom_append]
  refine ⟨t, trace, out, run, ?_, rfl⟩
  simp [runFrom_cons, runFrom_nil, step]

theorem Runs.snoc (run : M.Runs acts s trace) (step : M.step s a = some (t, out)) :
    M.Runs (acts ++ [a]) t (trace ++ out) :=
  runFrom_snoc run step

/-- The last step of a run, and the run before it. -/
theorem Runs.unsnoc (run : M.Runs (acts ++ [a]) t trace) :
    ∃ s tr₁ out, M.Runs acts s tr₁ ∧ M.step s a = some (t, out) ∧ trace = tr₁ ++ out := by
  unfold Runs at run
  simp only [runFrom_append, runFrom_cons, runFrom_nil, Option.some.injEq, Prod.mk.injEq] at run
  obtain ⟨s, tr₁, _, run, ⟨_, out, _, step, ⟨rfl, rfl⟩, rfl⟩, rfl⟩ := run
  exact ⟨s, tr₁, out, run, step, by simp⟩

theorem runs_snoc_iff : M.Runs (acts ++ [a]) t trace ↔
    ∃ s tr₁ out, M.Runs acts s tr₁ ∧ M.step s a = some (t, out) ∧ trace = tr₁ ++ out := by
  constructor
  · exact Runs.unsnoc
  · rintro ⟨s, tr₁, out, run, step, rfl⟩
    exact run.snoc step

theorem Runs.nil : M.Runs [] M.init [] :=
  rfl

theorem runs_nil_iff : M.Runs [] s trace ↔ s = M.init ∧ trace = [] := by
  simp [Runs, runFrom_nil, eq_comm]

/-- The invariant rule: what holds before any step, and is kept by every step
whose label is admitted, holds at the end of every run of admitted labels. The
invariant may speak about everything observed so far. -/
theorem Runs.invariant (Inv : List ω → σ → Prop) (Admitted : α → Prop)
    (run : M.Runs acts s trace) (admitted : ∀ a ∈ acts, Admitted a) (start : Inv [] M.init)
    (keeps : ∀ tr s a t out, Inv tr s → Admitted a → M.step s a = some (t, out) → Inv (tr ++ out) t) :
    Inv trace s := by
  induction acts using List.reverseRecOn generalizing s trace with
  | nil =>
    cases run
    exact start
  | append_singleton acts a ih =>
    obtain ⟨t, tr₁, out, front, step, rfl⟩ := run.unsnoc
    exact keeps _ _ _ _ _ (ih front fun b member => admitted b (by simp [member]))
      (admitted a (by simp)) step

/-- The invariant rule for what also speaks about the labels taken. -/
theorem Runs.history (Inv : List α → List ω → σ → Prop) (run : M.Runs acts s trace) (start : Inv [] [] M.init)
    (keeps : ∀ acts tr s a t out, M.Runs acts s tr → Inv acts tr s → M.step s a = some (t, out) →
      Inv (acts ++ [a]) (tr ++ out) t) : Inv acts trace s := by
  induction acts using List.reverseRecOn generalizing s trace with
  | nil =>
    cases run
    exact start
  | append_singleton acts a ih =>
    obtain ⟨t, tr₁, out, front, step, rfl⟩ := run.unsnoc
    exact keeps _ _ _ _ _ _ front (ih front) step

/-- The invariant rule for the steps from any state on. -/
theorem runFrom_invariant (Inv : σ → Prop) (Admitted : α → Prop) (run : M.runFrom s acts = some (t, trace))
    (admitted : ∀ a ∈ acts, Admitted a) (start : Inv s)
    (keeps : ∀ s a t out, Inv s → Admitted a → M.step s a = some (t, out) → Inv t) : Inv t := by
  induction acts generalizing s trace with
  | nil =>
    cases run
    exact start
  | cons a acts ih =>
    rw [runFrom_cons] at run
    obtain ⟨u, out, rest, step, further, -⟩ := run
    have kept := keeps s a u out start (admitted a List.mem_cons_self) step
    exact ih further (fun b member => admitted b (List.mem_cons_of_mem a member)) kept

/-- The progress rule: where every state that is not done has a step of work
that leaves less to do, some steps of work get it done. -/
theorem exists_done (Inv Done : σ → Prop) (Works : α → Prop) (left : σ → Nat) (start : Inv s)
    (progress : ∀ s, Inv s → ¬ Done s →
      ∃ a t out, Works a ∧ M.step s a = some (t, out) ∧ Inv t ∧ left t < left s) :
    ∃ acts t trace, (∀ a ∈ acts, Works a) ∧ M.runFrom s acts = some (t, trace) ∧ Inv t ∧ Done t := by
  induction bound : left s using Nat.strongRecOn generalizing s with
  | ind n ih =>
    by_cases done : Done s
    · exact ⟨[], s, [], by simp, rfl, start, done⟩
    · obtain ⟨a, u, out, works, step, inv, less⟩ := progress s start done
      obtain ⟨acts, t, trace, working, run, last⟩ := ih (left u) (bound ▸ less) inv rfl
      refine ⟨a :: acts, t, out ++ trace, List.forall_mem_cons.mpr ⟨works, working⟩, ?_, last⟩
      rw [runFrom_cons]
      exact ⟨u, out, trace, step, run, rfl⟩

/-- The two-state rule: what every step does to the state, a run does between
any two of its states. -/
theorem Runs.between {rest : List α} (R : σ → σ → Prop) (refl : ∀ s, R s s)
    (trans : ∀ s t u, R s t → R t u → R s u) (run : M.Runs acts s trace) (whole : M.Runs (acts ++ rest) t tr₁)
    (steps : ∀ acts tr s a t out, M.Runs acts s tr → M.step s a = some (t, out) → R s t) : R s t := by
  induction rest using List.reverseRecOn generalizing t tr₁ with
  | nil =>
    rw [List.append_nil] at whole
    obtain ⟨rfl, -⟩ := Prod.mk.inj (Option.some.inj (run.symm.trans whole))
    exact refl s
  | append_singleton rest a ih =>
    rw [← List.append_assoc] at whole
    obtain ⟨u, tr₂, out, front, step, -⟩ := whole.unsnoc
    exact trans s u t (ih front) (steps _ _ _ _ _ _ front step)

/-! ## Simulation under the same labels -/

section Simulation
variable {τ ρ : Type*} {N : Machine τ α ρ} {see : ω → Option ρ} (R : List ω → σ → τ → Prop)
  (Admitted : α → Prop)

/-- The simulation rule: if every admitted step of `M` is matched by the step
of `N` under the same label, with the same visible observations, then so is
every run. The relation may speak about what `M` emitted so far. -/
theorem Runs.simulated (run : M.Runs acts s trace) (admitted : ∀ a ∈ acts, Admitted a)
    (start : R [] M.init N.init)
    (lockstep : ∀ tr s x a s' out, R tr s x → Admitted a → M.step s a = some (s', out) →
      ∃ x', N.step x a = some (x', out.filterMap see) ∧ R (tr ++ out) s' x') :
    ∃ x, N.Runs acts x (trace.filterMap see) ∧ R trace s x := by
  induction acts using List.reverseRecOn generalizing s trace with
  | nil =>
    cases run
    exact ⟨_, Runs.nil, start⟩
  | append_singleton acts a ih =>
    obtain ⟨t, tr₁, out, front, step, rfl⟩ := run.unsnoc
    obtain ⟨x, run', related⟩ := ih front fun b member => admitted b (by simp [member])
    obtain ⟨x', step', related'⟩ := lockstep _ _ _ _ _ _ related (admitted a (by simp)) step
    exact ⟨x', by simpa [List.filterMap_append] using run'.snoc step', related'⟩

end Simulation

/-- `P` holds in every state the run passes through, its end included. -/
def Always (M : Machine σ α ω) (P : List ω → σ → Prop) (acts : List α) : Prop :=
  ∀ before after, acts = before ++ after → ∀ s tr, M.Runs before s tr → P tr s

/-- `ok` holds of the state and label of every step the run takes. -/
def EveryStep (M : Machine σ α ω) (ok : σ → α → Prop) (acts : List α) : Prop :=
  ∀ before a after, acts = before ++ a :: after → ∀ s tr t out, M.Runs before s tr →
    M.step s a = some (t, out) → ok s a

/-- Every step is within the contract `ok` in the state it is taken in. -/
def Keeps (M : Machine σ α ω) (ok : σ → α → Prop) (acts : List α) : Prop :=
  ∀ before a after, acts = before ++ a :: after → ∀ s tr, M.Runs before s tr → ok s a

theorem always_nil {P : List ω → σ → Prop} : M.Always P [] ↔ P [] M.init := by
  constructor
  · intro always
    exact always [] [] rfl M.init [] Runs.nil
  · intro start before after split s tr run
    obtain ⟨rfl, -⟩ : before = [] ∧ after = [] := by simpa using split.symm
    cases run
    exact start

theorem always_snoc {P : List ω → σ → Prop} : M.Always P (acts ++ [a]) ↔
    M.Always P acts ∧ ∀ s tr, M.Runs (acts ++ [a]) s tr → P tr s := by
  constructor
  · intro always
    exact ⟨fun before after split => always before (after ++ [a]) (by simp [split]),
      always (acts ++ [a]) [] (by simp)⟩
  · rintro ⟨earlier, last⟩ before after split
    rcases List.eq_nil_or_concat after with rfl | ⟨front, b, rfl⟩
    · obtain rfl : acts ++ [a] = before := by simpa using split
      exact last
    · have whole : acts ++ [a] = (before ++ front) ++ [b] := by simpa using split
      exact earlier before front (List.append_inj' whole rfl).1

theorem keeps_nil {ok : σ → α → Prop} : M.Keeps ok [] := by
  intro before a after split
  simp at split

theorem keeps_snoc {ok : σ → α → Prop} : M.Keeps ok (acts ++ [a]) ↔
    M.Keeps ok acts ∧ ∀ s tr, M.Runs acts s tr → ok s a := by
  constructor
  · intro keeps
    exact ⟨fun before b after split => keeps before b (after ++ [a]) (by simp [split]), keeps acts a [] rfl⟩
  · rintro ⟨earlier, last⟩ before b after split
    rcases List.eq_nil_or_concat after with rfl | ⟨front, c, rfl⟩
    · obtain ⟨rfl, tail⟩ := List.append_inj' split rfl
      cases tail
      exact last
    · have whole : acts ++ [a] = (before ++ b :: front) ++ [c] := by simpa using split
      exact earlier before b front (List.append_inj' whole rfl).1

/-- A property of every step is a contract that only binds enabled steps. -/
theorem everyStep_iff_keeps {ok : σ → α → Prop} :
    M.EveryStep ok acts ↔ M.Keeps (fun s a => ∀ t out, M.step s a = some (t, out) → ok s a) acts := by
  constructor
  · intro every before a after split s tr run t out step
    exact every before a after split s tr t out run step
  · intro keeps before a after split s tr t out run step
    exact keeps before a after split s tr run t out step

theorem everyStep_snoc {ok : σ → α → Prop} : M.EveryStep ok (acts ++ [a]) ↔
    M.EveryStep ok acts ∧ ∀ s tr t out, M.Runs acts s tr → M.step s a = some (t, out) → ok s a := by
  rw [everyStep_iff_keeps, everyStep_iff_keeps, keeps_snoc]
  refine and_congr_right fun _ => ?_
  constructor
  · intro last s tr t out run step
    exact last s tr run t out step
  · intro last s tr run t out step
    exact last s tr t out run step

/-- The exact-condition rule: where a step keeps `P` precisely when it
satisfies `ok`, a run keeps `P` throughout precisely when all its steps do. -/
theorem always_iff_everyStep (Inv P : List ω → σ → Prop) (ok : σ → α → Prop) (Admitted : α → Prop)
    (admitted : ∀ a ∈ acts, Admitted a) (start : Inv [] M.init) (good : P [] M.init)
    (keeps : ∀ tr s a t out, Inv tr s → Admitted a → M.step s a = some (t, out) → Inv (tr ++ out) t)
    (exact : ∀ tr s a t out, Inv tr s → P tr s → Admitted a → M.step s a = some (t, out) →
      (P (tr ++ out) t ↔ ok s a)) :
    M.Always P acts ↔ M.EveryStep ok acts := by
  induction acts using List.reverseRecOn with
  | nil =>
    constructor
    · intro _ before a after split
      simp at split
    · intro _
      rw [always_nil]
      exact good
  | append_singleton acts a ih =>
    have earlier : ∀ b ∈ acts, Admitted b := fun b member => admitted b (by simp [member])
    rw [always_snoc, everyStep_snoc, ← ih earlier]
    refine and_congr_right fun always => ?_
    constructor
    · intro last s tr t out run step
      exact (exact tr s a t out (run.invariant Inv Admitted earlier start keeps)
        (always acts [] (by simp) s tr run) (admitted a (by simp)) step).mp
        (last t _ (run.snoc step))
    · intro steps t trace run
      obtain ⟨s, tr, out, front, step, rfl⟩ := run.unsnoc
      exact (exact tr s a t out (front.invariant Inv Admitted earlier start keeps)
        (always acts [] (by simp) s tr front) (admitted a (by simp)) step).mpr
        (steps s tr t out front step)

/-- The window rule: where `Q` says what `P` says in closed states, and steps to
a state that is not closed keep `Q`, a run keeps `Q` throughout when it has `P`
in its closed states. -/
theorem always_closed_iff (Closed : σ → Prop) (P Q : List ω → σ → Prop) (start : Closed M.init)
    (same : ∀ tr s, Closed s → (P tr s ↔ Q tr s))
    (carries : ∀ acts tr s a t out, M.Runs acts s tr → Q tr s → M.step s a = some (t, out) → ¬ Closed t →
      Q (tr ++ out) t) :
    M.Always (fun tr s => Closed s → P tr s) acts ↔ M.Always Q acts := by
  constructor
  · intro inside
    induction acts using List.reverseRecOn with
    | nil =>
      rw [always_nil] at inside ⊢
      exact (same [] M.init start).mp (inside start)
    | append_singleton acts a ih =>
      rw [always_snoc] at inside ⊢
      obtain ⟨earlier, last⟩ := inside
      have always := ih earlier
      refine ⟨always, fun t trace run => ?_⟩
      by_cases closed : Closed t
      · exact (same trace t closed).mp (last t trace run closed)
      · obtain ⟨s, tr, out, front, step, rfl⟩ := run.unsnoc
        apply carries acts tr s a t out front _ step closed
        exact always acts [] (by simp) s tr front
  · intro always before after split s tr run closed
    exact (same tr s closed).mpr (always before after split s tr run)

section Cost
variable (cost : σ → α → Nat)

/-- The cost of these steps from here on. -/
def costFrom (M : Machine σ α ω) (s : σ) : List α → Nat
  | [] => 0
  | a :: acts => cost s a + ((M.step s a).map fun next => costFrom M next.1 acts).getD 0

/-- The potential rule: where every step pays its cost out of a potential, up to
what its label brings in, a run costs no more than the potential it starts from
and what its labels bring in. -/
theorem Runs.costFrom_le (Φ : σ → Nat) (brings : α → Nat) {rest : List α} (run : M.Runs acts s trace)
    (further : M.runFrom s rest = some (t, tr₁))
    (pays : ∀ acts tr s a t out, M.Runs acts s tr → M.step s a = some (t, out) →
      cost s a + Φ t ≤ Φ s + brings a) :
    costFrom cost M s rest + Φ t ≤ Φ s + (rest.map brings).sum := by
  induction rest generalizing acts s trace tr₁ with
  | nil =>
    cases further
    simp [costFrom]
  | cons a rest ih =>
    rw [runFrom_cons] at further
    obtain ⟨u, out, last, step, onward, -⟩ := further
    have paid := pays acts trace s a u out run step
    have later := ih (run.snoc step) onward
    simp only [costFrom, step, Option.map_some, Option.getD_some, List.map_cons, List.sum_cons]
    omega

end Cost

/-! ## Runs within a contract -/

/-- The contract rule: where a step within the contract is enabled and keeps the
invariant, so is every run within it. -/
theorem Keeps.runs {ok : σ → α → Prop} (Inv : List α → List ω → σ → Prop) (keeps : M.Keeps ok acts)
    (start : Inv [] [] M.init)
    (steps : ∀ acts tr s a, Inv acts tr s → ok s a →
      ∃ t out, M.step s a = some (t, out) ∧ Inv (acts ++ [a]) (tr ++ out) t) :
    ∃ s tr, M.Runs acts s tr ∧ Inv acts tr s := by
  induction acts using List.reverseRecOn with
  | nil => exact ⟨M.init, [], Runs.nil, start⟩
  | append_singleton acts a ih =>
    rw [keeps_snoc] at keeps
    obtain ⟨earlier, last⟩ := keeps
    obtain ⟨s, tr, run, inv⟩ := ih earlier
    obtain ⟨t, out, step, inv'⟩ := steps acts tr s a inv (last s tr run)
    exact ⟨t, tr ++ out, run.snoc step, inv'⟩

theorem Keeps.snoc {ok : σ → α → Prop} (keeps : M.Keeps ok acts) (run : M.Runs acts s trace) (within : ok s a) :
    M.Keeps ok (acts ++ [a]) := by
  rw [keeps_snoc]
  refine ⟨keeps, fun s' tr run' => ?_⟩
  obtain ⟨rfl, -⟩ := Prod.mk.inj (Option.some.inj (run.symm.trans run'))
  exact within

/-- The invariant rule for runs within a contract. -/
theorem Runs.kept {ok : σ → α → Prop} (Inv : List ω → σ → Prop) (run : M.Runs acts s trace)
    (keeps : M.Keeps ok acts) (start : Inv [] M.init)
    (steps : ∀ tr s a t out, Inv tr s → ok s a → M.step s a = some (t, out) → Inv (tr ++ out) t) :
    Inv trace s := by
  induction acts using List.reverseRecOn generalizing s trace with
  | nil =>
    cases run
    exact start
  | append_singleton acts a ih =>
    rw [keeps_snoc] at keeps
    obtain ⟨earlier, last⟩ := keeps
    obtain ⟨s, tr, out, front, step, rfl⟩ := run.unsnoc
    exact steps tr s a _ out (ih front earlier) (last s tr front) step

end Machine

end MsaBroker
