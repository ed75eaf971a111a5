import Mathlib.Order.Basic
import Mathlib.Data.Nat.Init

/-!
# Binary search for a partition point

`lowerBound p len` looks for the first of the positions `0, …, len - 1` at which the
predicate `p` fails, halving the range as `std::lower_bound` does.  Where the range is
partitioned by `p` it returns the partition point.
-/

namespace LowerBound

/-- Halve the range of `len` positions from `first` on. -/
def search (p : Nat → Bool) : Nat → Nat → Nat → Nat
  | 0, first, _ => first
  | fuel + 1, first, len =>
    if len = 0 then first
    else
      let half := len / 2
      if p (first + half) then search p fuel (first + half + 1) (len - half - 1)
      else search p fuel first half

def lowerBound (p : Nat → Bool) (len : Nat) : Nat := search p len 0 len

/-- `k` is the partition point of the positions from `first` to `last` (excluded). -/
structure IsPartitionPoint (p : Nat → Bool) (first last k : Nat) : Prop where
  first_le : first ≤ k
  le_last : k ≤ last
  holds : ∀ i, first ≤ i → i < k → p i = true
  fails : ∀ i, k ≤ i → i < last → p i = false

theorem search_eq {p : Nat → Bool} {fuel first len k : Nat} (hfuel : len ≤ fuel)
    (h : IsPartitionPoint p first (first + len) k) : search p fuel first len = k := by
  induction fuel generalizing first len with
  | zero =>
    have := h.first_le
    have := h.le_last
    show first = k
    omega
  | succ fuel ih =>
    unfold search
    split
    · have := h.first_le
      have := h.le_last
      omega
    · rename_i hlen
      have hhalf : len / 2 < len := by omega
      simp only
      split
      · -- the middle satisfies `p`, so the partition point lies above it
        rename_i hmid
        have hk : first + len / 2 < k := by
          by_contra hle
          have := h.fails (first + len / 2) (by omega) (by omega)
          simp [hmid] at this
        refine ih (by omega) ⟨by omega, ?_, fun i hi => h.holds i (by omega), fun i hi hl => ?_⟩
        · have := h.le_last
          omega
        · exact h.fails i hi (by omega)
      · rename_i hmid
        have hk : k ≤ first + len / 2 := by
          by_contra hlt
          exact hmid (h.holds _ (by omega) (by omega))
        exact ih (by omega) ⟨h.first_le, hk, h.holds, fun i hi hl => h.fails i hi (by omega)⟩

theorem lowerBound_eq {p : Nat → Bool} {len k : Nat} (h : IsPartitionPoint p 0 len k) :
    lowerBound p len = k :=
  search_eq (Nat.le_refl len) (by simpa using h)

end LowerBound
