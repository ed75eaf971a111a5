import Softswitch.Verify.Events

/-!
# The edge of a packet

`softswitch_onReceive` finds the edge of a packet by a binary search for its source
(`edgeOf`).  In a list that is strictly sorted by `cmpAddress` the search returns the one edge
whose source has the thread, device and pin of the packet's, as a scan of the list would.
-/

namespace Softswitch

open Outcome LowerBound

variable {A : AppTypes} {n : Nat} {th : PThread A n} {c : PThreadContext A n} {m : Message A}
  {a b source : Address} {bindings : List (InputPinBinding A)} {edge : InputPinBinding A}

/-! ## The order of the addresses -/

theorem cmpAddress_iff : cmpAddress a b = true ↔
    a.thread < b.thread ∨ a.thread = b.thread ∧
      (a.device < b.device ∨ a.device = b.device ∧ a.pin < b.pin) := by
  unfold cmpAddress
  split
  · rename_i h
    simp [h]
  · rename_i hlt
    split
    · rename_i hgt
      have : a.thread ≠ b.thread := fun h => by simp [h] at hgt
      simp [hlt, this]
    · rename_i hgt
      have hthread : a.thread = b.thread := by bv_omega
      split
      · rename_i h
        simp [hthread, h]
      · rename_i hlt'
        split
        · rename_i hgt'
          have : a.device ≠ b.device := fun h => by simp [h] at hgt'
          simp [hthread, hlt', this]
        · rename_i hgt'
          have hdevice : a.device = b.device := by bv_omega
          simp [hthread, hdevice]

theorem sameAddress_iff : sameAddress a b = true ↔
    a.thread = b.thread ∧ a.device = b.device ∧ a.pin = b.pin := by
  simp [sameAddress, and_assoc]

theorem cmpAddress_asymm (h : cmpAddress a b = true) : cmpAddress b a = false := by
  rw [cmpAddress_iff] at h
  rw [Bool.eq_false_iff]
  intro h'
  rw [cmpAddress_iff] at h'
  bv_omega

/-- Only the thread, the device and the pin are compared. -/
theorem cmpAddress_congr {b' : Address} (h : sameAddress b b' = true) :
    cmpAddress a b = cmpAddress a b' := by
  obtain ⟨hthread, hdevice, hpin⟩ := sameAddress_iff.1 h
  unfold cmpAddress
  rw [hthread, hdevice, hpin]

theorem cmpAddress_of_same (h : sameAddress a b = true) : cmpAddress a b = false := by
  have hself : cmpAddress a a = false := by
    rw [Bool.eq_false_iff]
    intro h'
    rw [cmpAddress_iff] at h'
    bv_omega
  rw [← cmpAddress_congr h]
  exact hself

/-! ## The search -/

/-- Each binding is before the next ones. -/
def StrictlySorted (bindings : List (InputPinBinding A)) : Prop :=
  bindings.Pairwise fun a b => cmpAddress a.source b.source = true

/-- The edge the search comes to, if it has the source. -/
def edgeOf (bindings : List (InputPinBinding A)) (source : Address) :
    Option (InputPinBinding A) :=
  let k := lowerBound (fun i => (bindings[i]?).any fun a => cmpAddress a.source source)
    bindings.length
  (bindings[k]?).filter fun e => sameAddress e.source source

/-- An edge with the source is the partition point of a sorted list. -/
theorem StrictlySorted.isPartitionPoint (h : StrictlySorted bindings) {k : Nat}
    (hk : bindings[k]? = some edge) (hsource : sameAddress edge.source source = true) :
    IsPartitionPoint
      (fun i => (bindings[i]?).any fun a => cmpAddress a.source source) 0 bindings.length k := by
  obtain ⟨hlt, hedge⟩ := List.getElem?_eq_some_iff.1 hk
  have hget := List.pairwise_iff_getElem.1 h
  refine ⟨Nat.zero_le k, hlt.le, ?_, ?_⟩
  · intro i _ hik
    have hi : i < bindings.length := hik.trans hlt
    have hlt := hget i k hi hlt hik
    rw [List.getElem?_eq_getElem hi, Option.any_some, ← cmpAddress_congr hsource, ← hedge]
    exact hlt
  · intro i hki hi
    rw [List.getElem?_eq_getElem hi, Option.any_some, ← cmpAddress_congr hsource]
    rcases Nat.eq_or_lt_of_le hki with rfl | hki
    · rw [hedge]
      exact cmpAddress_of_same (sameAddress_iff.2 ⟨rfl, rfl, rfl⟩)
    · rw [← hedge]
      exact cmpAddress_asymm (hget k i hlt hi hki)

/-- The edge with a source is found. -/
theorem StrictlySorted.edgeOf_eq (h : StrictlySorted bindings) (hmem : edge ∈ bindings)
    (hsource : sameAddress edge.source source = true) : edgeOf bindings source = some edge := by
  obtain ⟨k, hk⟩ := List.mem_iff_getElem?.1 hmem
  unfold edgeOf
  rw [lowerBound_eq (h.isPartitionPoint hk hsource)]
  dsimp only
  rw [hk, Option.filter_some, if_pos hsource]

theorem edgeOf_eq_some (h : edgeOf bindings source = some edge) :
    edge ∈ bindings ∧ sameAddress edge.source source = true := by
  obtain ⟨hget, hsource⟩ := Option.filter_eq_some_iff.1 h
  exact ⟨List.mem_of_getElem? hget, hsource⟩

/-- The search finds what a scan finds. -/
theorem StrictlySorted.edgeOf_eq_find? (h : StrictlySorted bindings) :
    edgeOf bindings source = bindings.find? fun e => sameAddress e.source source := by
  cases hfind : bindings.find? fun e => sameAddress e.source source with
  | some edge =>
    obtain ⟨hsource, -⟩ := List.find?_eq_some_iff_append.1 hfind
    exact h.edgeOf_eq (List.mem_of_find?_eq_some hfind) hsource
  | none =>
    rw [List.find?_eq_none] at hfind
    rw [Option.eq_none_iff_forall_not_mem]
    intro edge hedge
    obtain ⟨hmem, hsource⟩ := edgeOf_eq_some hedge
    exact hfind edge hmem hsource

theorem findEdge_of_edgeOf (h : edgeOf bindings m.source = some edge) :
    findEdge th c m bindings = .ok edge := by
  obtain ⟨hget, hsource⟩ := Option.filter_eq_some_iff.1 h
  unfold findEdge
  dsimp only
  rw [hget, Option.any_some, hsource, if_pos rfl]
  simp [PThreadContext.deref, hsource, check_true]

/-- The edge with the packet's source is found. -/
theorem findEdge_ok (h : StrictlySorted bindings) (hmem : edge ∈ bindings)
    (hsource : sameAddress edge.source m.source = true) :
    findEdge th c m bindings = .ok edge :=
  findEdge_of_edgeOf (h.edgeOf_eq hmem hsource)

end Softswitch
