import Mathlib.Data.List.Basic
import Mathlib.Tactic.Common

/-! A queue that may lose things and never does anything else to them: what it
holds and what was taken out of it, in that order, is what was put in, but for
what was lost. -/
namespace MsaBroker

/-- What was taken from a queue and what is still in it, against what was put
in. Unless something was lost, nothing is missing. -/
structure Fifo {α : Type*} (lost : Prop) (got queue given : List α) : Prop where
  inOrder : (got ++ queue).Sublist given
  complete : ¬ lost → got ++ queue = given

namespace Fifo

variable {α : Type*} {lost lost' : Prop} {x : α} {got got' queue queue' rest given : List α}

theorem nil : Fifo lost ([] : List α) [] [] := ⟨.slnil, fun _ => rfl⟩

theorem push (fifo : Fifo lost got queue given) (x : α) : Fifo lost got (queue ++ [x]) (given ++ [x]) where
  inOrder := by
    rw [← List.append_assoc]
    exact fifo.inOrder.append (.refl _)
  complete whole := by rw [← List.append_assoc, fifo.complete whole]

theorem pop (fifo : Fifo lost got (x :: rest) given) : Fifo lost (got ++ [x]) rest given := by
  have same : got ++ [x] ++ rest = got ++ x :: rest := by simp
  exact ⟨same ▸ fifo.inOrder, fun whole => same ▸ fifo.complete whole⟩

theorem lose (fifo : Fifo lost got queue given) (some : queue'.Sublist queue) (gone : lost') :
    Fifo lost' got queue' given where
  inOrder := ((List.Sublist.refl got).append some).trans fifo.inOrder
  complete whole := absurd gone whole

/-- Losing something elsewhere changes nothing here. -/
theorem weaken (fifo : Fifo lost got queue given) (weaker : lost → lost') : Fifo lost' got queue given :=
  ⟨fifo.inOrder, fun whole => fifo.complete (whole ∘ weaker)⟩

theorem got_sublist (fifo : Fifo lost got queue given) : got.Sublist given :=
  (List.sublist_append_left got queue).trans fifo.inOrder

/-- What went in in some order comes out in it. -/
theorem pairwise_got {R : α → α → Prop} (fifo : Fifo lost got queue given) (ordered : given.Pairwise R) :
    got.Pairwise R :=
  ordered.sublist fifo.got_sublist

theorem mem_got (fifo : Fifo lost got queue given) (member : x ∈ got) : x ∈ given :=
  fifo.inOrder.subset (List.mem_append_left queue member)

theorem mem_queue (fifo : Fifo lost got queue given) (member : x ∈ queue) : x ∈ given :=
  fifo.inOrder.subset (List.mem_append_right got member)

end Fifo

end MsaBroker
