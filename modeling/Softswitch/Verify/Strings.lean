import Softswitch.Lib.ByteString
import Softswitch.TrueTinsel

/-!
# What the string routines do

`strlen` and `strcmp` end where there are strings, with their length and their order; `strncpy`
copies a string and fills up with zeros.  Where there is space for the terminator, a copy is as long
as the string, and compares like it with every string (`strncpy_agrees`).
-/

namespace Softswitch

open ByteMemory

variable {m m' : TinselMemory} {str destination source num len a b p : BitVec 32}
  {s t : List (BitVec 8)} {fuel i n : Nat} {r : Int}

/-! ## Length -/

theorem strlenLoop_eq (h : IsString m str s) (hfuel : s.length < fuel) :
    strlenLoop fuel str len m = some (len + BitVec.ofNat 32 s.length) := by
  induction s generalizing str len fuel with
  | nil =>
    obtain ⟨fuel, rfl⟩ := Nat.exists_eq_succ_of_ne_zero (Nat.ne_zero_of_lt hfuel)
    have hzero : m str = 0#8 := h
    unfold strlenLoop
    rw [if_neg (not_not.2 hzero), List.length_nil, BitVec.add_zero]
  | cons x s ih =>
    obtain ⟨fuel, rfl⟩ := Nat.exists_eq_succ_of_ne_zero (Nat.ne_zero_of_lt hfuel)
    obtain ⟨hx, hne, hs⟩ := h
    unfold strlenLoop
    rw [if_pos (hx.symm ▸ hne), ih hs (Nat.lt_of_succ_lt_succ hfuel), BitVec.add_assoc,
      ← BitVec.ofNat_add, List.length_cons, Nat.add_comm]

theorem strlen_eq (h : IsString m str s) (hfuel : s.length < fuel) :
    strlen fuel str m = some (BitVec.ofNat 32 s.length) := by
  unfold strlen
  rw [strlenLoop_eq h hfuel, BitVec.zero_add]

/-! ## Order -/

/-- The result of a comparison of two strings, by their first different bytes. -/
def Orders (r : Int) (s t : List (BitVec 8)) : Prop :=
  r = -1 ∧ s < t ∨ r = 0 ∧ s = t ∨ r = 1 ∧ t < s

theorem Orders.cons {x : BitVec 8} (h : Orders r s t) : Orders r (x :: s) (x :: t) := by
  rcases h with ⟨hr, hlt⟩ | ⟨hr, rfl⟩ | ⟨hr, hlt⟩
  · exact .inl ⟨hr, List.cons_lt_cons_iff.2 (.inr ⟨rfl, hlt⟩)⟩
  · exact .inr (.inl ⟨hr, rfl⟩)
  · exact .inr (.inr ⟨hr, List.cons_lt_cons_iff.2 (.inr ⟨rfl, hlt⟩)⟩)

/-- The order of two strings is told by one result only. -/
theorem Orders.unique {r' : Int} (h : Orders r s t) (h' : Orders r' s t) : r = r' := by
  rcases h with ⟨rfl, hlt⟩ | ⟨rfl, heq⟩ | ⟨rfl, hlt⟩ <;>
    rcases h' with ⟨rfl, hlt'⟩ | ⟨rfl, heq'⟩ | ⟨rfl, hlt'⟩
  · rfl
  · exact absurd (heq' ▸ hlt) (List.lt_irrefl _)
  · exact absurd hlt (List.lt_asymm hlt')
  · exact absurd (heq ▸ hlt') (List.lt_irrefl _)
  · rfl
  · exact absurd (heq ▸ hlt') (List.lt_irrefl _)
  · exact absurd hlt (List.lt_asymm hlt')
  · exact absurd (heq' ▸ hlt) (List.lt_irrefl _)
  · rfl

theorem zero_lt_byte {x : BitVec 8} (h : x ≠ 0#8) : 0#8 < x :=
  (BitVec.pos_iff_ne_zero x).2 h

theorem strcmp_orders (ha : IsString m a s) (hb : IsString m b t) (hfuel : s.length < fuel) :
    ∃ r, strcmp fuel a b m = some r ∧ Orders r s t := by
  induction s generalizing t a b fuel with
  | nil =>
    obtain ⟨fuel, rfl⟩ := Nat.exists_eq_succ_of_ne_zero (Nat.ne_zero_of_lt hfuel)
    have hzero : m a = 0#8 := ha
    unfold strcmp
    rw [hzero]
    cases t with
    | nil =>
      have hzero' : m b = 0#8 := hb
      rw [hzero']
      exact ⟨0, rfl, .inr (.inl ⟨rfl, rfl⟩)⟩
    | cons y t =>
      rw [hb.1]
      exact ⟨-1, if_pos (zero_lt_byte hb.2.1), .inl ⟨rfl, List.nil_lt_cons y t⟩⟩
  | cons x s ih =>
    obtain ⟨fuel, rfl⟩ := Nat.exists_eq_succ_of_ne_zero (Nat.ne_zero_of_lt hfuel)
    obtain ⟨hx, hne, hs⟩ := ha
    unfold strcmp
    rw [hx]
    cases t with
    | nil =>
      have hzero : m b = 0#8 := hb
      have hpos := zero_lt_byte hne
      rw [hzero, if_neg (BitVec.not_lt.2 (BitVec.le_of_lt hpos)), if_pos hpos]
      exact ⟨1, rfl, .inr (.inr ⟨rfl, List.nil_lt_cons x s⟩)⟩
    | cons y t =>
      rw [hb.1]
      dsimp only
      split
      · rename_i hlt
        exact ⟨-1, rfl, .inl ⟨rfl, List.cons_lt_cons_iff.2 (.inl hlt)⟩⟩
      · split
        · rename_i hlt
          exact ⟨1, rfl, .inr (.inr ⟨rfl, List.cons_lt_cons_iff.2 (.inl hlt)⟩)⟩
        · rename_i hge hle
          obtain rfl : x = y := BitVec.le_antisymm (BitVec.not_lt.1 hle) (BitVec.not_lt.1 hge)
          obtain ⟨r, hr, horders⟩ := ih hs hb.2.2 (Nat.lt_of_succ_lt_succ hfuel)
          exact ⟨r, hr, horders.cons⟩

/-! ## Copies -/

/-- A byte of the string, or one of the zeros behind it. -/
abbrev padded (s : List (BitVec 8)) (i : Nat) : BitVec 8 := s.getD i 0#8

/-- The rest of the loop, with `i` bytes written. -/
theorem strncpyLoop_wrote (hs : IsString m source s) (hfits : destination.toNat + n < 2 ^ 32)
    (hno : ∀ i j, i < n → j ≤ s.length → offset destination i ≠ offset source j)
    (h : Wrote m m' destination i (padded s)) (hi : i ≤ n) (hfuel : n - i < fuel) :
    ∃ m₁, strncpyLoop (offset destination n) fuel (offset destination i)
        (offset source (min i s.length)) m' = some m₁ ∧ Wrote m m₁ destination n (padded s) := by
  have htoNat : ∀ j, j ≤ n → (offset destination j).toNat = destination.toNat + j := by
    intro j hj
    unfold offset
    rw [BitVec.toNat_add, BitVec.toNat_ofNat, Nat.add_mod_mod]
    exact Nat.mod_eq_of_lt (by omega)
  induction fuel generalizing i m' with
  | zero => exact absurd hfuel (Nat.not_lt_zero _)
  | succ fuel ih =>
    unfold strncpyLoop
    rcases hi.eq_or_lt with rfl | hlt
    · rw [if_neg (by rw [BitVec.lt_def]; exact Nat.lt_irrefl _)]
      exact ⟨m', rfl, h⟩
    · have hupper : offset destination i < offset destination n := by
        rw [BitVec.lt_def, htoNat i hi, htoNat n le_rfl]
        omega
      -- the source is as it was
      have hread : m' (offset source (min i s.length)) = padded s i := by
        have hkept : m' (offset source (min i s.length)) = m (offset source (min i s.length)) :=
          h.frame _ fun j hj heq => hno j _ (hj.trans hlt) (Nat.min_le_right _ _) heq.symm
        rw [hkept, hs.byte_eq (Nat.min_le_right _ _)]
        rcases Nat.lt_or_ge i s.length with hlen | hlen
        · rw [Nat.min_eq_left hlen.le]
        · rw [Nat.min_eq_right hlen]
          unfold padded
          rw [List.getD_eq_default _ _ hlen, List.getD_eq_default _ _ le_rfl]
      have hnext : (if padded s i ≠ 0#8 then offset (offset source (min i s.length)) 1
          else offset source (min i s.length)) = offset source (min (i + 1) s.length) := by
        rcases Nat.lt_or_ge i s.length with hlen | hlen
        · have hne : padded s i ≠ 0#8 := by
            unfold padded
            rw [List.getD_eq_getElem _ _ hlen]
            exact hs.ne_zero _ (List.getElem_mem hlen)
          rw [if_pos hne, offset_offset, Nat.min_eq_left hlen.le, Nat.min_eq_left hlen]
        · have hzero : padded s i = 0#8 := List.getD_eq_default _ _ hlen
          rw [if_neg (not_not.2 hzero), Nat.min_eq_right hlen,
            Nat.min_eq_right (Nat.le_succ_of_le hlen)]
      rw [if_pos hupper]
      dsimp only
      rw [hread, hnext, offset_offset]
      exact ih (h.snoc (by omega)) hlt (by omega)

/-- The string is copied, and zeros are written behind it, up to the end of the range. -/
theorem strncpy_wrote (hs : IsString m source s)
    (hfits : destination.toNat + num.toNat < 2 ^ 32)
    (hno : ∀ i j, i < num.toNat → j ≤ s.length → offset destination i ≠ offset source j)
    (hfuel : num.toNat < fuel) : ∃ m', strncpy fuel destination source num m =
      some (destination, m') ∧ Wrote m m' destination num.toNat (padded s) := by
  have hupper : destination + num = offset destination num.toNat := by
    unfold offset
    rw [BitVec.ofNat_toNat, BitVec.setWidth_eq]
  have hloop := @strncpyLoop_wrote m m destination source s fuel 0 num.toNat hs hfits hno
    .nothing (Nat.zero_le _) (by omega)
  rw [Nat.zero_min, offset_zero, offset_zero, ← hupper] at hloop
  obtain ⟨m', heq, hwrote⟩ := hloop
  refine ⟨m', ?_, hwrote⟩
  unfold strncpy
  rw [heq]
  rfl

/-- Where the range wraps around, nothing is written. -/
theorem strncpy_wraps (hwraps : 2 ^ 32 ≤ destination.toNat + num.toNat) (hfuel : 0 < fuel) :
    strncpy fuel destination source num m = some (destination, m) := by
  obtain ⟨fuel, rfl⟩ := Nat.exists_eq_succ_of_ne_zero hfuel.ne'
  have hnot : ¬destination < destination + num := by
    rw [BitVec.lt_def, BitVec.toNat_add]
    have := destination.isLt
    have := num.isLt
    omega
  unfold strncpy strncpyLoop
  rw [if_neg hnot]
  rfl

/-- A copy into a range that wraps around writes nothing.  Into another one, which is apart from the
string, the string is copied and filled up with zeros.  Where the range is too short for the
terminator there is none; otherwise the copy has the length of the string, and compares like it with
every string. -/
theorem strncpy_agrees (hs : IsString m source s)
    (hno : ∀ i j, i < num.toNat → j ≤ s.length → offset destination i ≠ offset source j) :
    (2 ^ 32 ≤ destination.toNat + num.toNat →
      strncpy (num.toNat + 1) destination source num m = some (destination, m)) ∧
    (destination.toNat + num.toNat < 2 ^ 32 →
      ∃ m', strncpy (num.toNat + 1) destination source num m = some (destination, m') ∧
        Wrote m m' destination num.toNat (padded s) ∧ IsString m' source s ∧
        (num.toNat ≤ s.length → ∀ i < num.toNat, m' (offset destination i) ≠ 0#8) ∧
        (s.length < num.toNat → IsString m' destination s ∧
          strlen num.toNat destination m' = strlen num.toNat source m' ∧
          strlen num.toNat destination m' = some (BitVec.ofNat 32 s.length) ∧
          ∀ t b, IsString m' b t → ∃ r, strcmp num.toNat destination b m' = some r ∧
            strcmp num.toNat source b m' = some r ∧ Orders r s t)) := by
  refine ⟨fun hwraps => strncpy_wraps hwraps (Nat.succ_pos _), fun hfits => ?_⟩
  obtain ⟨m', heq, hwrote⟩ := strncpy_wrote hs hfits hno (Nat.lt_succ_self _)
  have hsource : IsString m' source s :=
    hs.keep fun j hj => hwrote.frame _ fun i hi heq => hno i j hi hj heq.symm
  refine ⟨m', heq, hwrote, hsource, fun hshort i hi => ?_, fun hroom => ?_⟩
  · rw [hwrote.bytes i hi]
    unfold padded
    rw [List.getD_eq_getElem _ _ (hi.trans_le hshort)]
    exact hs.ne_zero _ (List.getElem_mem _)
  · have hcopy : IsString m' destination s :=
      .of_bytes (fun i hi => hwrote.bytes i (hi.trans_lt hroom)) hs.ne_zero
    have hlength := strlen_eq hcopy hroom
    refine ⟨hcopy, hlength.trans (strlen_eq hsource hroom).symm, hlength, fun t b ht => ?_⟩
    obtain ⟨r, hr, horders⟩ := strcmp_orders hcopy ht hroom
    obtain ⟨r', hr', horders'⟩ := strcmp_orders hsource ht hroom
    obtain rfl := horders.unique horders'
    exact ⟨r, hr, hr', horders⟩

/-- A memory with a string of one byte at address 16. -/
def oneByteString : TinselMemory := fun p => if p = 16#32 then 65#8 else 0#8

theorem strncpy_agrees_oneByte :
    ∃ m', strncpy 5 0#32 16#32 4#32 oneByteString = some (0#32, m') ∧ IsString m' 0#32 [65#8] := by
  have hs : IsString oneByteString 16#32 [65#8] := ⟨rfl, by decide, rfl⟩
  have hapart : ∀ i < 4, ∀ j < 2, offset 0#32 i ≠ offset 16#32 j := by decide
  have hno : ∀ i j, i < (4#32).toNat → j ≤ [65#8].length → offset 0#32 i ≠ offset 16#32 j :=
    fun i j hi hj => hapart i hi j (Nat.lt_succ_of_le hj)
  obtain ⟨m', heq, -, -, -, hroom⟩ := (strncpy_agrees hs hno).2 (by decide)
  exact ⟨m', heq, (hroom (by decide)).1⟩

end Softswitch
