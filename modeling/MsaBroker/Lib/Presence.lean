import Mathlib.Data.List.Induction
import Mathlib.Logic.Function.Basic
import Mathlib.Tactic.Common

/-! Who is present, by a history of being heard and being checked. Hearing of a
key stores its value over whatever was there; checking a key drops it if the
value stored is late by then. What is held after a history is read off the
history: the value last heard, if no check since found it late. -/
namespace MsaBroker.Presence

variable {κ β τ : Type*}

inductive Event (κ β τ : Type*) where
  | heard (k : κ) (v : β)
  | checked (k : κ) (t : τ)

/-- The value is what was last heard of this key, and was not late at any check
since. -/
def InForce (late : τ → β → Prop) (history : List (Event κ β τ)) (k : κ) (v : β) : Prop :=
  ∃ earlier since, history = earlier ++ .heard k v :: since ∧ (∀ v', .heard k v' ∉ since) ∧
    ∀ t, .checked k t ∈ since → ¬ late t v

variable {late : τ → β → Prop} {history : List (Event κ β τ)} {event : Event κ β τ} {k : κ} {v : β} {t : τ}

theorem not_inForce_nil : ¬ InForce late [] k v := by
  rintro ⟨earlier, since, split, -⟩
  simp at split

/-- What is in force after one more event. -/
theorem inForce_snoc : InForce late (history ++ [event]) k v ↔
    event = .heard k v ∨
      InForce late history k v ∧ (∀ v', event ≠ .heard k v') ∧ ∀ t, event = .checked k t → ¬ late t v := by
  constructor
  · rintro ⟨earlier, since, split, silent, inTime⟩
    rcases List.eq_nil_or_concat since with rfl | ⟨front, last, rfl⟩
    · obtain ⟨-, same⟩ := List.append_inj' split rfl
      exact .inl (List.cons.inj same).1
    · rw [List.concat_eq_append, ← List.cons_append, ← List.append_assoc] at split
      obtain ⟨rfl, same⟩ := List.append_inj' split rfl
      obtain rfl : event = last := (List.cons.inj same).1
      rw [List.concat_eq_append] at silent inTime
      refine .inr ⟨⟨earlier, front, rfl, fun v' heard => silent v' (List.mem_append_left _ heard),
        fun t checked => inTime t (List.mem_append_left _ checked)⟩, ?_, ?_⟩
      · exact fun v' heard => silent v' (List.mem_append_right _ (List.mem_singleton.mpr heard.symm))
      · exact fun t checked => inTime t (List.mem_append_right _ (List.mem_singleton.mpr checked.symm))
  · rintro (rfl | ⟨⟨earlier, since, rfl, silent, inTime⟩, other, still⟩)
    · exact ⟨history, [], rfl, by simp, by simp⟩
    · refine ⟨earlier, since ++ [event], by simp, fun v' heard => ?_, fun t checked => ?_⟩
      · exact (List.mem_append.mp heard).elim (silent v') fun last => other v' (List.mem_singleton.mp last).symm
      · exact (List.mem_append.mp checked).elim (inTime t) fun last => still t (List.mem_singleton.mp last).symm

/-! ## What is held -/

section Held
variable [DecidableEq κ] (late) [∀ t v, Decidable (late t v)]

/-- What one event does to the values held. -/
def Event.apply (held : κ → Option β) : Event κ β τ → κ → Option β
  | .heard k v => Function.update held k (some v)
  | .checked k t => Function.update held k ((held k).filter fun v => ¬ late t v)

/-- What is held after a history. -/
def held (history : List (Event κ β τ)) : κ → Option β :=
  history.foldl (Event.apply late) fun _ => none

variable {late}

theorem held_snoc : held late (history ++ [event]) = event.apply late (held late history) := by
  simp [held]

/-- What is held is what is in force. -/
theorem held_eq_some_iff : held late history k = some v ↔ InForce late history k v := by
  induction history using List.reverseRecOn generalizing v with
  | nil => simp [held, not_inForce_nil]
  | append_singleton history event ih =>
    rw [held_snoc, inForce_snoc]
    cases event with
    | heard j w =>
      by_cases same : k = j
      · subst same
        simp [Event.apply]
      · simp [Event.apply, same, Ne.symm same, ih]
    | checked j t =>
      by_cases same : k = j
      · subst same
        simp [Event.apply, Option.filter_eq_some_iff, ih]
      · simp [Event.apply, same, Ne.symm same, ih]

end Held

end MsaBroker.Presence
