import Mathlib.Data.List.GetD
import Softswitch.Lib.ByteMemory

/-!
# Strings in a memory

A string is in a memory from an address on: its bytes, none of which is zero, and a zero byte behind
them.
-/

namespace ByteMemory

variable {w : Nat} {m m' : Memory w} {p : BitVec w} {s t : List (BitVec 8)} {i n : Nat}

theorem offset_succ : offset p (i + 1) = offset (offset p 1) i := by
  rw [offset_offset, Nat.add_comm]

/-- The string `s` is in the memory from `p` on. -/
def IsString (m : Memory w) : BitVec w → List (BitVec 8) → Prop
  | p, [] => m p = 0#8
  | p, x :: s => m p = x ∧ x ≠ 0#8 ∧ IsString m (offset p 1) s

namespace IsString

/-- The bytes of a string, with zeros behind them; the first of the zeros is in the memory too. -/
theorem byte_eq (h : IsString m p s) (hi : i ≤ s.length) : m (offset p i) = s.getD i 0#8 := by
  induction s generalizing p i with
  | nil =>
    obtain rfl := Nat.le_zero.1 hi
    rw [offset_zero]
    exact h
  | cons x s ih =>
    cases i with
    | zero =>
      rw [offset_zero]
      exact h.1
    | succ i =>
      rw [offset_succ]
      exact ih h.2.2 (Nat.le_of_succ_le_succ hi)

theorem ne_zero (h : IsString m p s) : ∀ x ∈ s, x ≠ 0#8 := by
  induction s generalizing p with
  | nil => exact fun x hx => absurd hx List.not_mem_nil
  | cons x s ih =>
    intro y hy
    rcases List.mem_cons.1 hy with rfl | hy
    · exact h.2.1
    · exact ih h.2.2 y hy

/-- What is at the addresses of a string makes the string. -/
theorem of_bytes (hbytes : ∀ i ≤ s.length, m (offset p i) = s.getD i 0#8)
    (hne : ∀ x ∈ s, x ≠ 0#8) : IsString m p s := by
  induction s generalizing p with
  | nil =>
    have hzero := hbytes 0 le_rfl
    rw [offset_zero] at hzero
    exact hzero
  | cons x s ih =>
    refine ⟨?_, hne x List.mem_cons_self, ih (fun i hi => ?_) fun y hy =>
      hne y (List.mem_cons_of_mem x hy)⟩
    · have hfirst := hbytes 0 (Nat.zero_le _)
      rw [offset_zero] at hfirst
      exact hfirst
    · rw [← offset_succ]
      exact hbytes (i + 1) (Nat.succ_le_succ hi)

/-- A string stays where nothing is written to it. -/
theorem keep (h : IsString m p s) (heq : ∀ i ≤ s.length, m' (offset p i) = m (offset p i)) :
    IsString m' p s :=
  of_bytes (fun i hi => (heq i hi).trans (h.byte_eq hi)) h.ne_zero

end IsString

end ByteMemory
