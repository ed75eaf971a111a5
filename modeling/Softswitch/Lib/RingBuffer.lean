import Mathlib.Logic.Function.Basic
import Mathlib.Data.List.Basic

/-!
# Ring buffers with a head and a tail index

A ring of `cap` cells keeps the index of its first element and the index behind its last
one.  `Rep cap r q` says that the ring `r` represents the queue `q`, which may fill all
`cap` cells; but a full ring and an empty ring have the same indices, so `size`, which is
computed from the indices alone, is right for queues of fewer than `cap` elements only.
-/

namespace RingBuffer

open Function

variable {α : Type*} {cap : Nat} {q : List α} {a : α}

structure Buffer (α : Type*) where
  cells : Nat → α
  head : Nat
  tail : Nat

variable {r : Buffer α}

/-- The index behind `i`. -/
def next (cap i : Nat) : Nat := if i + 1 = cap then 0 else i + 1

/-- The index `k` cells behind `i`. -/
def index (cap i k : Nat) : Nat := if i + k < cap then i + k else i + k - cap

theorem next_index {i k : Nat} (_ : i < cap) (_ : k < cap) :
    next cap (index cap i k) = index cap i (k + 1) := by
  unfold next index
  split <;> split <;> split <;> omega

theorem index_next {i k : Nat} (_ : k < cap) :
    index cap (next cap i) k = index cap i (k + 1) := by
  unfold next index
  split <;> split <;> split <;> omega

theorem index_inj {i j k : Nat} (hj : j < cap) (hk : k < cap)
    (h : index cap i j = index cap i k) : j = k := by
  unfold index at h
  split at h <;> split at h <;> omega

/-- The ring holds the queue `q`. -/
structure Rep (cap : Nat) (r : Buffer α) (q : List α) : Prop where
  head_lt : r.head < cap
  length_le : q.length ≤ cap
  tail_eq : r.tail = index cap r.head q.length
  cell_eq : ∀ k (h : k < q.length), r.cells (index cap r.head k) = q[k]

namespace Rep

theorem empty {cells : Nat → α} {i : Nat} (hi : i < cap) : Rep cap ⟨cells, i, i⟩ ([] : List α) where
  head_lt := hi
  length_le := Nat.zero_le cap
  tail_eq := by simp [index, hi]
  cell_eq k h := absurd h (Nat.not_lt_zero k)

/-- Write behind the last element, where there is a free cell. -/
theorem push (h : Rep cap r q) (hfree : q.length < cap) :
    Rep cap ⟨update r.cells r.tail a, r.head, next cap r.tail⟩ (q ++ [a]) where
  head_lt := h.head_lt
  length_le := by
    rw [List.length_append, List.length_singleton]
    exact hfree
  tail_eq := by
    rw [List.length_append, List.length_singleton, h.tail_eq]
    exact next_index h.head_lt hfree
  cell_eq k hk := by
    rw [List.length_append, List.length_singleton] at hk
    rw [h.tail_eq]
    by_cases hlast : k = q.length
    · subst hlast
      simp
    · have hlt : k < q.length := by omega
      have hne : index cap r.head k ≠ index cap r.head q.length := fun heq =>
        hlast (index_inj (by omega) hfree heq)
      show update r.cells (index cap r.head q.length) a (index cap r.head k) = _
      rw [update_of_ne hne, List.getElem_append_left hlt]
      exact h.cell_eq k hlt

/-- Read the first element. -/
theorem front (h : Rep cap r (a :: q)) : r.cells r.head = a := by
  have hcell := h.cell_eq 0 (by simp)
  simpa [index, h.head_lt] using hcell

/-- Step over the first element. -/
theorem pop (h : Rep cap r (a :: q)) : Rep cap ⟨r.cells, next cap r.head, r.tail⟩ q where
  head_lt := by
    have := h.head_lt
    show next cap r.head < cap
    unfold next
    split <;> omega
  length_le := Nat.le_of_succ_le h.length_le
  tail_eq := by
    have hlen : q.length < cap := h.length_le
    rw [index_next hlen]
    exact h.tail_eq
  cell_eq k hk := by
    have hlen : q.length < cap := h.length_le
    rw [index_next (by omega)]
    exact h.cell_eq (k + 1) (Nat.succ_lt_succ hk)

end Rep

/-- The number of elements, computed from the indices. -/
def size (cap : Nat) (r : Buffer α) : Nat :=
  if r.tail < r.head then (r.tail + cap) - r.head else r.tail - r.head

/-- The indices tell the number of elements of a ring that is not full. -/
theorem Rep.size_eq (h : Rep cap r q) (hfree : q.length < cap) : size cap r = q.length := by
  have := h.head_lt
  unfold size
  rw [h.tail_eq]
  unfold index
  split <;> split <;> omega

/-- A full ring looks like an empty one. -/
theorem Rep.size_full (h : Rep cap r q) (hfull : q.length = cap) : size cap r = 0 := by
  have := h.head_lt
  unfold size
  rw [h.tail_eq, hfull]
  unfold index
  split <;> split <;> omega

/-! ## What goes in and what comes out -/

/-- Of what went into the ring, `outs` came out first, and the rest is in it. -/
def Queued (cap : Nat) (r : Buffer α) (ins outs : List α) : Prop :=
  ∃ q, Rep cap r q ∧ ins = outs ++ q

namespace Queued

variable {ins outs : List α}

theorem empty {cells : Nat → α} {i : Nat} (hi : i < cap) :
    Queued cap ⟨cells, i, i⟩ ([] : List α) [] :=
  ⟨[], Rep.empty hi, rfl⟩

theorem push (h : Queued cap r ins outs) (hfree : ins.length < outs.length + cap) :
    Queued cap ⟨update r.cells r.tail a, r.head, next cap r.tail⟩ (ins ++ [a]) outs := by
  obtain ⟨q, hq, rfl⟩ := h
  rw [List.length_append] at hfree
  exact ⟨q ++ [a], hq.push (by omega), List.append_assoc _ _ _⟩

theorem pop (h : Queued cap r ins outs) (hne : outs.length < ins.length) :
    Queued cap ⟨r.cells, next cap r.head, r.tail⟩ ins (outs ++ [r.cells r.head]) := by
  obtain ⟨q, hq, rfl⟩ := h
  cases q with
  | nil =>
    rw [List.append_nil] at hne
    exact absurd hne (Nat.lt_irrefl _)
  | cons a q =>
    refine ⟨q, hq.pop, ?_⟩
    rw [hq.front, List.append_assoc]
    rfl

/-- The element that a pop reads is one that went in. -/
theorem front_mem (h : Queued cap r ins outs) (hne : outs.length < ins.length) :
    r.cells r.head ∈ ins := by
  obtain ⟨q, -, hq⟩ := h.pop hne
  rw [hq]
  simp

theorem size_eq (h : Queued cap r ins outs) (hfree : ins.length < outs.length + cap) :
    size cap r + outs.length = ins.length := by
  obtain ⟨q, hq, rfl⟩ := h
  rw [List.length_append] at hfree
  rw [hq.size_eq (by omega), List.length_append, Nat.add_comm]

end Queued

end RingBuffer
