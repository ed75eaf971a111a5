import Mathlib.Algebra.Order.Group.Nat
import Mathlib.Logic.Function.Basic

/-!
# Memories of bytes

A memory has a byte at every address.  Addresses have `w` bits, and wrap around.
`Wrote m m' p n f` says what a routine has written: `m'` has the bytes `f` at the `n` addresses
from `p` on, and is `m` elsewhere.  What is written grows at its end, by a byte or by a word.
-/

namespace ByteMemory

open Function

abbrev Memory (w : Nat) := BitVec w → BitVec 8

variable {w : Nat} {m m' : Memory w} {p q : BitVec w} {i j n : Nat} {f : Nat → BitVec 8}

/-! ## Addresses -/

/-- The address `i` behind `p`. -/
def offset (p : BitVec w) (i : Nat) : BitVec w := p + BitVec.ofNat w i

@[simp] theorem offset_zero : offset p 0 = p := BitVec.add_zero p

theorem offset_offset : offset (offset p i) j = offset p (i + j) := by
  unfold offset
  rw [BitVec.add_assoc, ← BitVec.ofNat_add]

theorem offset_inj (hi : i < 2 ^ w) (hj : j < 2 ^ w) (h : offset p i = offset p j) : i = j := by
  have hofNat := (BitVec.add_right_inj p).1 h
  have htoNat := congrArg BitVec.toNat hofNat
  rwa [BitVec.toNat_ofNat, BitVec.toNat_ofNat, Nat.mod_eq_of_lt hi, Nat.mod_eq_of_lt hj] at htoNat

/-- The `n` addresses from `p` on and the `n` addresses from `q` on have none in common. -/
def NoOverlap (p q : BitVec w) (n : Nat) : Prop :=
  ∀ i j, i < n → j < n → offset p i ≠ offset q j

/-- Ranges that do not overlap fit into the memory. -/
theorem NoOverlap.size_le (h : NoOverlap p q n) : n ≤ 2 ^ w := by
  by_contra hle
  have hlt : 2 ^ w < n := Nat.lt_of_not_le hle
  refine h (q - p).toNat 0 ((q - p).isLt.trans hlt) (Nat.zero_lt_of_lt hlt) ?_
  show p + BitVec.ofNat w (q - p).toNat = offset q 0
  rw [BitVec.ofNat_toNat, BitVec.setWidth_eq, BitVec.add_comm, BitVec.sub_add_cancel, offset_zero]

/-! ## Bytes and words -/

def store (m : Memory w) (p : BitVec w) (b : BitVec 8) : Memory w := update m p b

/-- The word at `p`, the byte at `p` being the lowest. -/
def loadWord (m : Memory w) (p : BitVec w) : BitVec 32 :=
  m (offset p 3) ++ m (offset p 2) ++ m (offset p 1) ++ m (offset p 0)

def storeWord (m : Memory w) (p : BitVec w) (v : BitVec 32) : Memory w :=
  store (store (store (store m
    (offset p 0) (v.extractLsb' 0 8))
    (offset p 1) (v.extractLsb' 8 8))
    (offset p 2) (v.extractLsb' 16 8))
    (offset p 3) (v.extractLsb' 24 8)

theorem extract_append (a b c d : BitVec 8) :
    (a ++ b ++ c ++ d : BitVec 32).extractLsb' 0 8 = d ∧
    (a ++ b ++ c ++ d : BitVec 32).extractLsb' 8 8 = c ∧
    (a ++ b ++ c ++ d : BitVec 32).extractLsb' 16 8 = b ∧
    (a ++ b ++ c ++ d : BitVec 32).extractLsb' 24 8 = a := by
  have hlow : ∀ {v : Nat} (x : BitVec v) (y : BitVec 8), (x ++ y).extractLsb' 0 8 = y :=
    fun _ _ => BitVec.extractLsb'_append_eq_right
  have hhigh : ∀ {v : Nat} (x : BitVec v) (y : BitVec 8) (k : Nat),
      (x ++ y).extractLsb' (8 + k) 8 = x.extractLsb' k 8 := by
    intro v x y k
    rw [BitVec.extractLsb'_append_eq_of_le (Nat.le_add_right 8 k), Nat.add_sub_cancel_left]
  refine ⟨hlow _ d, (hhigh _ d 0).trans (hlow _ c), ?_, ?_⟩
  · exact (hhigh _ d 8).trans ((hhigh _ c 0).trans (hlow _ b))
  · refine (hhigh _ d 16).trans ((hhigh _ c 8).trans ((hhigh a b 0).trans ?_))
    exact BitVec.extractLsb'_eq_self

/-! ## What has been written -/

structure Wrote (m m' : Memory w) (p : BitVec w) (n : Nat) (f : Nat → BitVec 8) : Prop where
  bytes : ∀ i, i < n → m' (offset p i) = f i
  frame : ∀ a, (∀ i, i < n → a ≠ offset p i) → m' a = m a

/-- `n` bytes from `p` on are `b`. -/
def Filled (m m' : Memory w) (p : BitVec w) (n : Nat) (b : BitVec 8) : Prop :=
  Wrote m m' p n fun _ => b

/-- `n` bytes from `p` on are those from `q` on. -/
def Copied (m m' : Memory w) (p q : BitVec w) (n : Nat) : Prop :=
  Wrote m m' p n fun i => m (offset q i)

namespace Wrote

theorem nothing : Wrote m m p 0 f where
  bytes _ hi := absurd hi (Nat.not_lt_zero _)
  frame _ _ := rfl

theorem snoc (h : Wrote m m' p n f) (hn : n < 2 ^ w) :
    Wrote m (store m' (offset p n) (f n)) p (n + 1) f where
  bytes i hi := by
    rcases Nat.lt_succ_iff_lt_or_eq.1 hi with hi | rfl
    · have hne : offset p i ≠ offset p n := fun heq =>
        hi.ne (offset_inj (hi.trans hn) hn heq)
      exact (update_of_ne hne _ _).trans (h.bytes i hi)
    · exact update_self _ _ _
  frame a ha := by
    have hne : a ≠ offset p n := ha n (Nat.lt_succ_self n)
    exact (update_of_ne hne _ _).trans (h.frame a fun i hi => ha i (Nat.lt_succ_of_lt hi))

theorem snoc_word {v : BitVec 32} (h : Wrote m m' p n f) (hn : n + 3 < 2 ^ w)
    (h₀ : v.extractLsb' 0 8 = f n) (h₁ : v.extractLsb' 8 8 = f (n + 1))
    (h₂ : v.extractLsb' 16 8 = f (n + 2)) (h₃ : v.extractLsb' 24 8 = f (n + 3)) :
    Wrote m (storeWord m' (offset p n) v) p (n + 4) f := by
  unfold storeWord
  rw [h₀, h₁, h₂, h₃, offset_offset, offset_offset, offset_offset, offset_offset]
  exact (((h.snoc (by omega)).snoc (by omega)).snoc (by omega)).snoc hn

end Wrote

namespace Copied

/-- Where the source is apart, it is as it was. -/
theorem source_eq (h : Copied m m' p q i) (hno : NoOverlap p q n) (hi : i ≤ n) (hj : j < n) :
    m' (offset q j) = m (offset q j) :=
  h.frame _ fun k hk heq => hno k j (hk.trans_le hi) hj heq.symm

/-- Copy one more byte. -/
theorem byte (h : Copied m m' p q i) (hno : NoOverlap p q n) (hi : i < n) :
    Copied m (store m' (offset p i) (m' (offset q i))) p q (i + 1) := by
  rw [h.source_eq hno hi.le hi]
  exact h.snoc (hi.trans_le hno.size_le)

/-- Copy one more word. -/
theorem word (h : Copied m m' p q i) (hno : NoOverlap p q n) (hi : i + 4 ≤ n) :
    Copied m (storeWord m' (offset p i) (loadWord m' (offset q i))) p q (i + 4) := by
  have hsource : ∀ k, k < 4 → m' (offset (offset q i) k) = m (offset q (i + k)) := fun k hk => by
    rw [offset_offset, h.source_eq hno (by omega) (by omega)]
  obtain ⟨h₀, h₁, h₂, h₃⟩ := extract_append (m' (offset (offset q i) 3))
    (m' (offset (offset q i) 2)) (m' (offset (offset q i) 1)) (m' (offset (offset q i) 0))
  have hsize := hno.size_le
  exact h.snoc_word (by omega) (h₀.trans (hsource 0 (by omega))) (h₁.trans (hsource 1 (by omega)))
    (h₂.trans (hsource 2 (by omega))) (h₃.trans (hsource 3 (by omega)))

end Copied

/-! ## Loops -/

/-- The rule for a loop over the indices below `n`. -/
theorem foldl_range {σ : Type*} {I : Nat → σ → Prop} {g : σ → Nat → σ} {s : σ} (hs : I 0 s)
    (hg : ∀ i, i < n → ∀ s, I i s → I (i + 1) (g s i)) : I n ((List.range n).foldl g s) := by
  induction n with
  | zero => exact hs
  | succ n ih =>
    rw [List.range_succ, List.foldl_append]
    exact hg n (Nat.lt_succ_self n) _ (ih fun i hi => hg i (Nat.lt_succ_of_lt hi))

end ByteMemory
