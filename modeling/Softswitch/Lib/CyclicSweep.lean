import Mathlib.Data.Nat.ModEq
import Mathlib.Data.Fintype.Basic

/-!
# Sweeping a ring of positions

A search goes round the positions `0, …, n - 1`, and `offset` is the next position to look
at.  `Window offset k P` says that the last `k` positions looked at satisfy `P`, counting
every lap; a window of `n` positions covers the ring.
-/

namespace CyclicSweep

variable {n : Nat}

/-- The last `k` positions before `offset` satisfy `P`. -/
def Window (offset k : Nat) (P : Fin n → Prop) : Prop :=
  ∀ j < k, ∀ e : Fin n, (e.val + j + 1) % n = offset → P e

/-- The next `l` positions from `offset` on satisfy `P`. -/
def Ahead (offset l : Nat) (P : Fin n → Prop) : Prop :=
  ∀ j < l, ∀ e : Fin n, e.val = (offset + j) % n → P e

variable {offset k l : Nat} {P Q : Fin n → Prop}

theorem Window.zero : Window offset 0 P := fun j hj => absurd hj (Nat.not_lt_zero j)

theorem Window.imp (h : Window offset k P) (hPQ : ∀ e, P e → Q e) : Window offset k Q :=
  fun j hj e he => hPQ e (h j hj e he)

/-- Looking at `l` more positions. -/
theorem Window.advance (h : Window offset k P) (hoffset : offset < n)
    (ha : Ahead offset l P) : Window ((offset + l) % n) (k + l) P := by
  intro j hj e he
  by_cases hjl : j < l
  · refine ha (l - 1 - j) (by omega) e ?_
    have hmod : e.val + (j + 1) ≡ (offset + (l - 1 - j)) + (j + 1) [MOD n] := by
      have hsum : offset + (l - 1 - j) + (j + 1) = offset + l := by omega
      rw [hsum]
      exact he
    have := Nat.ModEq.add_right_cancel' (j + 1) hmod
    rw [← Nat.mod_eq_of_lt e.isLt]
    exact this
  · refine h (j - l) (by omega) e ?_
    have hmod : e.val + (j - l) + 1 + l ≡ offset + l [MOD n] := by
      have hsum : e.val + (j - l) + 1 + l = e.val + j + 1 := by omega
      rw [hsum]
      exact he
    have := Nat.ModEq.add_right_cancel' l hmod
    rw [← Nat.mod_eq_of_lt hoffset]
    exact this

/-- A window of `n` positions covers the ring. -/
theorem Window.all (h : Window offset k P) (hoffset : offset < n) (hk : n ≤ k) (e : Fin n) :
    P e := by
  have he := e.isLt
  by_cases hle : e.val < offset
  · refine h (offset - e.val - 1) (by omega) e ?_
    rw [show e.val + (offset - e.val - 1) + 1 = offset by omega]
    exact Nat.mod_eq_of_lt hoffset
  · refine h (offset + n - e.val - 1) (by omega) e ?_
    rw [show e.val + (offset + n - e.val - 1) + 1 = offset + n by omega, Nat.add_mod_right]
    exact Nat.mod_eq_of_lt hoffset

/-- `e` is the position that a look finds after `j` others, from `offset` on. -/
def PlacesAhead (offset j : Nat) (e : Fin n) : Prop := j < n ∧ e.val = (offset + j) % n

namespace PlacesAhead

variable {e : Fin n} {i j : Nat}

theorem of_lt (hoffset : offset < n) (e : Fin n) : ∃ j, PlacesAhead offset j e := by
  have he := e.isLt
  by_cases hle : offset ≤ e.val
  · refine ⟨e.val - offset, by omega, ?_⟩
    rw [Nat.add_sub_cancel' hle, Nat.mod_eq_of_lt he]
  · refine ⟨e.val + n - offset, by omega, ?_⟩
    rw [show offset + (e.val + n - offset) = e.val + n by omega, Nat.add_mod_right,
      Nat.mod_eq_of_lt he]

theorem unique (h : PlacesAhead offset i e) (h' : PlacesAhead offset j e) : i = j := by
  have hmod : offset + i ≡ offset + j [MOD n] := h.2.symm.trans h'.2
  have hij := Nat.ModEq.add_left_cancel' offset hmod
  rw [← Nat.mod_eq_of_lt h.1, ← Nat.mod_eq_of_lt h'.1]
  exact hij

/-- The search has come nearer by `l` positions. -/
theorem advance (h : PlacesAhead offset j e) (hl : l ≤ j) :
    PlacesAhead ((offset + l) % n) (j - l) e := by
  refine ⟨by have := h.1; omega, ?_⟩
  rw [Nat.mod_add_mod, Nat.add_assoc, Nat.add_sub_cancel' hl]
  exact h.2

/-- The position just looked at comes last. -/
theorem last (h : e.val = offset) : PlacesAhead ((offset + 1) % n) (n - 1) e := by
  have he := e.isLt
  refine ⟨by omega, ?_⟩
  rw [Nat.mod_add_mod, ← h, show e.val + 1 + (n - 1) = e.val + n by omega, Nat.add_mod_right,
    Nat.mod_eq_of_lt he]

end PlacesAhead

theorem Ahead.succ (h : Ahead offset l P) (hlast : ∀ e : Fin n, e.val = (offset + l) % n → P e) :
    Ahead offset (l + 1) P := by
  intro j hj e he
  rcases Nat.lt_succ_iff_lt_or_eq.1 hj with hj | rfl
  · exact h j hj e he
  · exact hlast e he

theorem Ahead.imp (h : Ahead offset l P) (hPQ : ∀ e, P e → Q e) : Ahead offset l Q :=
  fun j hj e he => hPQ e (h j hj e he)

end CyclicSweep
