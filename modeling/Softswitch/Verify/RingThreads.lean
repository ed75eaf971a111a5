import Softswitch.Verify.Deadlock
import Softswitch.Verify.Ring

/-!
# The ring on threads

However the devices of the ring are placed on threads, and in whatever order the threads run and
the network delivers, there is exactly one token (`one_of_reachable`), and the threads are never
all idle with nothing in flight (`not_idle_of_reachable`).
-/

namespace Softswitch.Ring

open Barrier (Platform)
open Function

section Threads

variable {P : Platform} {N : Nat} {increment c₀ : BitVec 32} {ι : Type} {size : ι → Nat}
  [Fintype ι] [DecidableEq ι] {ths : Threads app size} {place : (Σ i, Fin (size i)) ≃ Fin N}
  {cs : (i : ι) → PThreadContext app (size i)} {buf : ι → Message app} {g : Network app size}

/-- There is always exactly one token, unless its count becomes 0. -/
theorem one_of_reachable (h : Deployed ths place cs (graph P N increment))
    (hinit : Initial c₀ (gather place fun i => (cs i).states))
    (hcount : ∀ h, c₀ + BitVec.ofNat 32 h * increment ≠ 0#32)
    (hreach : Network.Reachable ths cs buf g) :
    holding (g.view ths place) + (g.view ths place).pending.card = 1 := by
  obtain ⟨es, hrun⟩ := h.hasRun hreach
  exact (run_inv hinit hrun).one (hcount _)

/-- The token is at a device that is ready, or on its way. -/
theorem Inv.not_quiescent {h : Nat} {s : GraphState app (Fin N)} (hinv : Inv increment c₀ h s)
    (hcount : tokenCount increment c₀ h ≠ 0#32) : ¬s.Quiescent := by
  intro hq
  have hone := hinv.one hcount
  have hpending : s.pending = 0 := by
    unfold GraphState.pending
    rw [hq.owed, hq.flight, add_zero]
  rw [hpending, Multiset.card_zero, add_zero] at hone
  obtain ⟨i, hi⟩ := Tally.exists_of_tally_pos (hone ▸ Nat.one_pos : 0 < holding s)
  have hready := hq.ready i
  rw [hinv.fresh i, devReadyToSendHandler_ne hi] at hready
  cases hready

/-- The compute never stops, unless its count becomes 0. -/
theorem not_idle_of_reachable (h : Deployed ths place cs (graph P N increment))
    (hinit : Initial c₀ (gather place fun i => (cs i).states))
    (hcount : ∀ h, c₀ + BitVec.ofNat 32 h * increment ≠ 0#32)
    (hreach : Network.Reachable ths cs buf g) (hwork : ∀ i, NoWork (g.main i)) :
    g.flight ≠ 0 := by
  intro hflight
  obtain ⟨es, hrun⟩ := h.hasRun hreach
  exact (run_inv hinit hrun).not_quiescent (hcount _) (h.quiescent hreach hwork hflight)

end Threads

section Dev2Threads2

variable {P : Platform} {build : Build}

/-- Device `i` is device 0 of thread `i`. -/
def dev2Place : (Σ _ : Fin 2, Fin 1) ≃ Fin 2 := Equiv.sigmaUnique _ _

theorem ofNat_inj {i j : Fin 2} (h : BitVec.ofNat 32 i.val = BitVec.ofNat 32 j.val) : i = j := by
  revert i j
  decide

theorem devVTable_noData {k : Nat} {pin : InputPinVTable app}
    (hpin : (devVTable P).inputPins[k]? = some pin) : pin.NoData := by
  have hnone : (0#16).setWidth 32 ||| (0#16).setWidth 32 = 0#32 := by decide
  obtain rfl := List.mem_singleton.1 (List.mem_of_getElem? hpin)
  exact hnone

theorem dev2Placed (hbuild : build.enableIntraThreadSend = false) :
    Placed (dev2Threads2 P build) where
  build _ := hbuild
  fits i := by
    refine ⟨fun d => ?_, by decide, fun _ => Nat.le_of_ble_eq_true rfl⟩
    rw [Subsingleton.elim d 0]
    rfl
  threadId _ := rfl
  myId_inj i j h := ofNat_inj h
  host i j := by
    show (4096#32 : BitVec 32) ≠ BitVec.ofNat 32 j.val
    revert j
    decide
  target i d pinIndex pin targets hpin happ htargets addr haddr := by
    obtain rfl := List.mem_singleton.1 (List.mem_of_getElem? htargets)
    obtain rfl := List.mem_singleton.1 haddr
    have hpin : (devVTable P).inputPins[0]? = some _ := rfl
    exact ⟨next i, rfl, 0, _, rfl, rfl, hpin, fun hdata => absurd (devVTable_noData hpin) hdata⟩

/-- `ring_dev2_threads2` is a ring of two devices. -/
theorem dev2Deployed (hbuild : build.enableIntraThreadSend = false) :
    Deployed (dev2Threads2 P build) dev2Place dev2Threads2Context (graph P 2 2#32) where
  realises :=
    { placed := dev2Placed hbuild
      graphProps := fun _ => rfl
      vtable := fun _ _ => rfl
      properties := fun _ _ => rfl
      targets := by
        intro i d pinIndex pin targets hpin _ htargets
        obtain ⟨rfl⟩ : pinIndex = 0 := Nat.lt_one_iff.1 (List.getElem?_eq_some_iff.1 hpin).1
        cases htargets
        have hlocate : locate (dev2Threads2 P build) dev2Place (inputAddress (next i)) =
            some (next i, 0) := Addresses.locate_eq (dev2Placed hbuild) ⟨next i, 0, rfl, rfl, rfl⟩
        rw [List.filterMap_cons_some hlocate]
        rfl
      noData := fun _ _ _ _ _ _ _ => rfl
      edges := fun _ _ _ _ _ hpin hdata => absurd (devVTable_noData hpin) hdata }
  initHandler _ _ _ _ := rfl
  trace _ := rfl
  rtcChecked _ := rfl
  rtcOffset _ := rfl

theorem dev2Initial : Initial 1#32 (gather dev2Place fun i => (dev2Threads2Context i).states) := by
  refine ⟨0, funext fun i => ?_⟩
  revert i
  rw [Fin.forall_fin_two]
  exact ⟨rfl, rfl⟩

/-- The tables of the shipped instance are complete. -/
theorem dev2Complete (i : Fin 2) : Complete (dev2Threads2 P build i) where
  index d := by
    rw [Subsingleton.elim d 0]
    rfl
  asks d σ k hk hbit := by
    have hflags : (devReadyToSendHandler σ).getLsbD k = true := hbit
    unfold devReadyToSendHandler at hflags
    split at hflags
    · have hone : ∀ k < 31, outputFlagDevOut.getLsbD k = true → k < 1 := by decide
      exact hone k hk hflags
    · rw [BitVec.getLsbD_zero] at hflags
      cases hflags
  targets d k pin hpin _ := (List.getElem?_eq_some_iff.1 hpin).1
  logging _ d pin hpin := by
    obtain rfl := List.mem_singleton.1 hpin
    rfl

/-- The shipped instance without assertions; each thread has at least one receive slot. -/
theorem dev2Wired (ha : build.asserts = false) {slots : Fin 2 → Nat} (hslots : ∀ i, 0 < slots i) :
    Wired (dev2Threads2 P build) slots where
  asserts _ := ha
  slots_pos := hslots
  myId_inj i j h := ofNat_inj h
  host i j := by
    show (4096#32 : BitVec 32) ≠ BitVec.ofNat 32 j.val
    revert j
    decide
  target i d targets htargets addr haddr := by
    obtain rfl := List.mem_singleton.1 htargets
    obtain rfl := List.mem_singleton.1 haddr
    exact ⟨next i, rfl, Nat.one_pos⟩

instance (priority := low) : DecidableEq app.Payload := inferInstanceAs (DecidableEq (BitVec 32))

/-- The send buffers before the start. -/
def dev2Buffer (i : Fin 2) : Message app := ⟨inputAddress i, inputAddress i, 0#16, 0#32⟩

end Dev2Threads2

end Softswitch.Ring
