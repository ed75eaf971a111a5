import Softswitch.TrueTinsel

/-!
# What the memory routines write

The copies write the source to the destination and nothing else.  `memset` writes its first
byte only.
-/

namespace Softswitch

open ByteMemory Function

variable {m : TinselMemory} {destination source num dest ch count sizeofT dst src : BitVec 32}

/-! ## The copies -/

theorem memcpy_copied (hno : NoOverlap destination source num.toNat) :
    Copied m (memcpy destination source num m).2 destination source num.toNat :=
  foldl_range (I := fun i m' => Copied m m' destination source i) Wrote.nothing
    fun _ hi _ h => h.byte hno hi

theorem copyWords_copied {n : Nat} (hno : NoOverlap destination source (4 * n)) :
    Copied m ((List.range n).foldl (copyWord destination source) m) destination source (4 * n) :=
  foldl_range (I := fun i m' => Copied m m' destination source (4 * i)) Wrote.nothing
    fun _ hi _ h => h.word hno (by omega)

theorem tinselMemcpy32_copied {numWords : BitVec 32}
    (hno : NoOverlap destination source (4 * numWords.toNat)) :
    Copied m (tinselMemcpy32 destination source numWords m) destination source
      (4 * numWords.toNat) := copyWords_copied hno

/-- Both branches copy the words of the value. -/
theorem memcpyTInline_eq_memcpyTCall :
    memcpyTInline sizeofT dst src m = memcpyTCall sizeofT dst src m := rfl

theorem tinselMemcpyT_eq : tinselMemcpyT sizeofT dst src m = memcpyTCall sizeofT dst src m := by
  unfold tinselMemcpyT
  split
  · exact memcpyTInline_eq_memcpyTCall
  · rfl

theorem memcpyTCall_copied (hsize : sizeofT.toNat % 4 = 0)
    (hno : NoOverlap dst src sizeofT.toNat) :
    Copied m (memcpyTCall sizeofT dst src m) dst src sizeofT.toNat := by
  have hwords : 4 * (sizeofT / 4#32).toNat = sizeofT.toNat := by
    rw [BitVec.toNat_udiv]
    exact Nat.mul_div_cancel' (Nat.dvd_of_mod_eq_zero hsize)
  have hcopied : Copied m (memcpyTCall sizeofT dst src m) dst src (4 * (sizeofT / 4#32).toNat) :=
    tinselMemcpy32_copied (hwords.symm ▸ hno)
  rwa [hwords] at hcopied

/-! ## The fill -/

/-- However large the count, one byte is written. -/
theorem memset_eq : (memset dest ch count m).2 =
    if count = 0#32 then m else store m dest (ch.setWidth 8) := by
  have hloop : ∀ k, (List.range (k + 1)).foldl (fun m _ => store m dest (ch.setWidth 8)) m =
      store m dest (ch.setWidth 8) := by
    intro k
    induction k with
    | zero => rfl
    | succ k ih =>
      rw [List.range_succ, List.foldl_append, ih]
      exact update_idem _ _ _
  unfold memset
  split
  · rename_i hzero
    rw [hzero]
    rfl
  · rename_i hne
    have hpos : count.toNat ≠ 0 := fun h => hne (BitVec.eq_of_toNat_eq h)
    obtain ⟨k, hk⟩ := Nat.exists_eq_succ_of_ne_zero hpos
    rw [hk]
    exact hloop k

/-- The bytes behind the first one are right if they were before. -/
theorem memset_filled_iff :
    Filled m (memset dest ch count m).2 dest count.toNat (ch.setWidth 8) ↔
      ∀ i, 0 < i → i < count.toNat → m (offset dest i) = ch.setWidth 8 := by
  have hne : ∀ i, 0 < i → i < count.toNat → offset dest i ≠ dest := by
    intro i hpos hi heq
    have hinj := offset_inj (hi.trans count.isLt) (Nat.two_pow_pos 32)
      (heq.trans offset_zero.symm)
    exact hpos.ne' hinj
  rw [memset_eq]
  constructor
  · intro h i hpos hi
    rw [← h.bytes i hi]
    split
    · rfl
    · exact (update_of_ne (hne i hpos hi) _ _).symm
  · intro h
    split
    · rename_i hzero
      rw [hzero]
      exact .nothing
    · refine ⟨fun i hi => ?_, fun a ha => ?_⟩
      · rcases Nat.eq_zero_or_pos i with rfl | hpos
        · rw [offset_zero]
          exact update_self _ _ _
        · exact (update_of_ne (hne i hpos hi) _ _).trans (h i hpos hi)
      · rename_i hcount
        have hpos : 0 < count.toNat := Nat.pos_of_ne_zero fun h => hcount (BitVec.eq_of_toNat_eq h)
        have hdest : a ≠ dest := fun heq => ha 0 hpos (heq.trans offset_zero.symm)
        exact update_of_ne hdest _ _

/-! ## All of them -/

/-- What the routines are for: `memset` for one call, the copies for all. -/
structure RoutinesCorrect (m : TinselMemory) (dest ch count : BitVec 32) : Prop where
  memset : Filled m (memset dest ch count m).2 dest count.toNat (ch.setWidth 8)
  memcpy : ∀ destination source num, NoOverlap destination source num.toNat →
    Copied m (memcpy destination source num m).2 destination source num.toNat
  memcpy32 : ∀ destination source numWords, NoOverlap destination source (4 * numWords.toNat) →
    Copied m (tinselMemcpy32 destination source numWords m) destination source
      (4 * numWords.toNat)
  memcpyT : ∀ sizeofT dst src, sizeofT.toNat % 4 = 0 →
    memcpyTInline sizeofT dst src m = memcpyTCall sizeofT dst src m ∧
      (NoOverlap dst src sizeofT.toNat →
        Copied m (tinselMemcpyT sizeofT dst src m) dst src sizeofT.toNat)

/-- The routines do what they are for exactly where the fill has nothing to do behind the first
byte. -/
theorem routinesCorrect_iff : RoutinesCorrect m dest ch count ↔
    ∀ i, 0 < i → i < count.toNat → m (offset dest i) = ch.setWidth 8 := by
  constructor
  · exact fun h => memset_filled_iff.1 h.memset
  · intro h
    refine ⟨memset_filled_iff.2 h, fun _ _ _ => memcpy_copied,
      fun _ _ _ => tinselMemcpy32_copied, fun sizeofT dst src hsize => ?_⟩
    refine ⟨memcpyTInline_eq_memcpyTCall, fun hno => ?_⟩
    rw [tinselMemcpyT_eq]
    exact memcpyTCall_copied hsize hno

/-- Two bytes of a memory of zeros are to be set to one. -/
theorem memset_secondByte : ¬RoutinesCorrect (fun _ => 0#8) 0#32 1#32 2#32 := by
  intro h
  have hsecond := h.memset.bytes 1 (by decide)
  exact absurd hsecond (by decide)

end Softswitch
