import Mathlib.Algebra.BigOperators.Group.Finset.Piecewise
import Mathlib.Data.Fintype.Card

/-!
# How many of finitely many parties satisfy a property

`tally p f` counts the parties whose state satisfies `p`.  When one party changes its state,
the count changes by that party alone.
-/

namespace Tally

open Function

variable {ι α : Type*} [Fintype ι] {p q : α → Prop} [DecidablePred p] [DecidablePred q]
  {f g : ι → α}

/-- The number of parties whose state satisfies `p`. -/
def tally (p : α → Prop) [DecidablePred p] (f : ι → α) : Nat :=
  (Finset.univ.filter fun i => p (f i)).card

theorem tally_le_card : tally p f ≤ Fintype.card ι := Finset.card_le_univ _

theorem tally_eq_card_iff : tally p f = Fintype.card ι ↔ ∀ i, p (f i) := by
  unfold tally
  rw [Finset.card_eq_iff_eq_univ, Finset.eq_univ_iff_forall]
  simp

theorem tally_eq_zero_iff : tally p f = 0 ↔ ∀ i, ¬p (f i) := by
  unfold tally
  rw [Finset.card_eq_zero, Finset.filter_eq_empty_iff]
  simp

theorem exists_of_tally_pos (h : 0 < tally p f) : ∃ i, p (f i) := by
  by_contra hnone
  have hzero : tally p f = 0 := tally_eq_zero_iff.2 fun i hi => hnone ⟨i, hi⟩
  omega

variable [DecidableEq ι]

/-- A sum over the parties changes by the summand of the one party that changes. -/
theorem sum_change {M : Type*} [AddCommMonoid M] (s s' : ι → M) (i : ι)
    (h : ∀ j, j ≠ i → s' j = s j) : (∑ j, s' j) + s i = (∑ j, s j) + s' i := by
  have hrest : ∑ j ∈ Finset.univ.erase i, s' j = ∑ j ∈ Finset.univ.erase i, s j :=
    Finset.sum_congr rfl fun j hj => h j (Finset.ne_of_mem_erase hj)
  rw [← Finset.add_sum_erase _ s' (Finset.mem_univ i),
    ← Finset.add_sum_erase _ s (Finset.mem_univ i), hrest, add_right_comm, add_comm (s' i),
    add_right_comm, add_comm (s i + _)]

/-- When party `i` goes to state `a`, it is counted for `a` and not for the state it was in. -/
theorem tally_update (i : ι) (a : α) :
    tally p (update f i a) + (if p (f i) then 1 else 0) =
      tally p f + if p a then 1 else 0 := by
  have hchange := sum_change (fun j => if p (f j) then 1 else 0)
    (fun j => if p (update f i a j) then 1 else 0) i fun j hj => by
      rw [update_of_ne hj]
  rw [update_self] at hchange
  unfold tally
  rw [Finset.card_filter, Finset.card_filter]
  exact hchange

end Tally
