import Softswitch.Verify.Deadlock
import Softswitch.Verify.EdgeProps

/-!
# Gathering the edge properties on threads

However the devices are placed on threads, where all threads are idle with nothing in flight the
inner device has the bits of all outer devices (`complete`).
-/

namespace Softswitch.EdgeProps

open Barrier (Platform)

section Threads

variable {P : Platform} {n : Nat} {S : Sources n} {ι : Type} {size : ι → Nat}
  [Fintype ι] [DecidableEq ι] {ths : Threads app size} {place : (Σ i, Fin (size i)) ≃ Device n}
  {cs : (i : ι) → PThreadContext app (size i)} {buf : ι → Message app} {g : Network app size}

/-- Where no thread has work and nothing is in flight, all ticks have been received. -/
theorem complete (h : Deployed ths place cs (graph P n S.edges))
    (hinit : Initial (gather place fun i => (cs i).states)) (hn : n ≤ 31)
    (hreach : Network.Reachable ths cs buf g) (hwork : ∀ i, NoWork (g.main i))
    (hflight : g.flight = 0) :
    allReceived ⟨BitVec.ofNat 32 n⟩ (inner (g.view ths place)).acc = true := by
  obtain ⟨es, hrun⟩ := h.hasRun hreach
  have hinv := run_inv hinit hrun
  rw [hinv.acc, allReceived_union hn]
  exact hinv.ticked_of_quiescent (h.quiescent hreach hwork hflight)

end Threads

section Dev4Threads1

variable {P : Platform} {build : Build}

/-- The last device of the only thread is the inner one. -/
def dev4Place : (Σ _ : Unit, Fin 4) ≃ Device 3 where
  toFun x := if h : x.2.val < 3 then .outer ⟨x.2, h⟩ else .inner
  invFun
    | .outer i => ⟨(), i.castSucc⟩
    | .inner => ⟨(), Fin.last 3⟩
  left_inv := by
    rintro ⟨⟨⟩, d⟩
    revert d
    decide
  right_inv x := by
    cases x with
    | outer i => simp
    | inner => simp

/-- The only thread. -/
def dev4Threads (P : Platform) (build : Build) : Threads app fun _ : Unit => 4 :=
  fun _ => dev4Threads1 P build

theorem device_outer (i : Fin 3) : (dev4Threads1 P build).device i.castSucc =
    { vtable := outerVTable P
      properties := ⟨3#32⟩
      index := i
      targets := [⟨[⟨0#32, 3#16, 0#8, 0#8⟩]⟩]
      sources := []
      id := 0#32
      isExternal := 0#32 } := by
  have hne : ¬i.val = 3 := by omega
  simp [dev4Threads1, hne]

theorem place_outer (i : Fin 3) : dev4Place ⟨(), i.castSucc⟩ = .outer i :=
  dev4Place.apply_symm_apply (.outer i)

/-- An outer device has one pin, which sends to the inner device. -/
theorem outputPin_outer {i : Fin 3} {pinIndex : Nat} {pin : OutputPinVTable app}
    {targets : OutputPinTargets}
    (hpin : ((dev4Threads1 P build).device i.castSucc).vtable.outputPins[pinIndex]? = some pin)
    (htargets : ((dev4Threads1 P build).device i.castSucc).targets[pinIndex]? = some targets) :
    pinIndex = 0 ∧ targets = ⟨[⟨0#32, 3#16, 0#8, 0#8⟩]⟩ := by
  rw [device_outer] at hpin htargets
  obtain rfl : pinIndex = 0 := Nat.lt_one_iff.1 (List.getElem?_eq_some_iff.1 hpin).1
  exact ⟨rfl, (Option.some.inj htargets).symm⟩

/-- The pin of the inner device has edge data. -/
theorem innerPin_data {k : Nat} {pin : InputPinVTable app}
    (hpin : (innerVTable P).inputPins[k]? = some pin) : k = 0 ∧ ¬pin.NoData := by
  obtain rfl : k = 0 := Nat.lt_one_iff.1 (List.getElem?_eq_some_iff.1 hpin).1
  have hdata : ¬(4#16).setWidth 32 ||| (0#16).setWidth 32 = 0#32 := by decide
  cases hpin
  exact ⟨rfl, hdata⟩

theorem dev4Placed (hbuild : build.enableIntraThreadSend = false) :
    Placed (dev4Threads P build) where
  build _ := hbuild
  fits _ := by
    refine ⟨fun d => ?_, by decide, fun d => ?_⟩
    · rfl
    · refine d.lastCases (Nat.zero_le _) fun i => ?_
      show ((dev4Threads1 P build).device i.castSucc).vtable.outputPins.length ≤ _
      rw [device_outer]
      exact Nat.le_of_ble_eq_true rfl
  threadId _ := rfl
  myId_inj _ _ _ := rfl
  host _ _ := show 4096#32 ≠ 0#32 by decide
  target _ d pinIndex pin targets hpin happ htargets addr haddr := by
    revert d
    refine Fin.lastCases (fun hpin => ?_) fun i hpin htargets => ?_
    · cases hpin
    · obtain ⟨rfl, rfl⟩ := outputPin_outer hpin htargets
      obtain rfl := List.mem_singleton.1 haddr
      refine ⟨(), rfl, Fin.last 3, _, rfl, rfl, rfl, fun _ => ⟨_, rfl, dev3Sources.sorted, ?_⟩⟩
      obtain ⟨edge, hmem, hsame, -⟩ := dev3Sources.bound i
      exact ⟨edge, hmem, hsame⟩

theorem locate_source (hbuild : build.enableIntraThreadSend = false) (i : Fin 3) :
    locate (dev4Threads P build) dev4Place (dev3InBinding i).source = some (.outer i, 0) := by
  have hi : (BitVec.ofNat 16 i.val).toNat = i.val := Nat.mod_eq_of_lt (by omega)
  rw [← place_outer]
  exact Addresses.locate_eq (dev4Placed hbuild) ⟨(), i.castSucc, rfl, rfl, hi.symm⟩

/-- `edge_props_dev4_threads1` gathers three edges. -/
theorem dev4Deployed (hbuild : build.enableIntraThreadSend = false) :
    Deployed (dev4Threads P build) dev4Place (fun _ => dev4Threads1Context)
      (graph P 3 dev3Sources.edges) where
  realises :=
    { placed := dev4Placed hbuild
      graphProps := fun _ => rfl
      vtable := by
        rintro ⟨⟩ d
        refine d.lastCases rfl fun i => ?_
        rw [place_outer]
        show ((dev4Threads1 P build).device i.castSucc).vtable = _
        rw [device_outer]
        rfl
      properties := fun _ _ => rfl
      targets := by
        rintro ⟨⟩ d pinIndex pin targets hpin - htargets
        revert d
        refine Fin.lastCases (fun hpin => ?_) fun i hpin htargets => ?_
        · cases hpin
        · obtain ⟨rfl, rfl⟩ := outputPin_outer hpin htargets
          have hlocate : locate (dev4Threads P build) dev4Place ⟨0#32, 3#16, 0#8, 0#8⟩ =
              some (.inner, 0) :=
            Addresses.locate_eq (dev4Placed hbuild) ⟨(), Fin.last 3, rfl, rfl, rfl⟩
          rw [place_outer, List.filterMap_cons_some hlocate]
          rfl
      noData := by
        rintro ⟨⟩ d k pin source hpin hnone
        revert d
        refine Fin.lastCases (fun hpin => ?_) fun i hpin => ?_
        · exact absurd hnone (innerPin_data hpin).2
        · have hpin : ((dev4Threads1 P build).device i.castSucc).vtable.inputPins[k]? = _ := hpin
          rw [device_outer] at hpin
          cases hpin
      edges := by
        rintro ⟨⟩ d k pin sources hpin - hsources edge hedge source hlocate
        revert d
        refine Fin.lastCases (fun hpin hsources => ?_) fun i hpin => ?_
        · obtain ⟨rfl, -⟩ := innerPin_data hpin
          cases hsources
          obtain ⟨i, rfl⟩ : ∃ i : Fin 3, edge = dev3InBinding i := by
            simpa [dev3InBindings, Fin.exists_fin_succ] using hedge
          rw [locate_source hbuild] at hlocate
          cases hlocate
          exact dev3Sources.edges_eq i
        · have hpin : ((dev4Threads1 P build).device i.castSucc).vtable.inputPins[k]? = _ := hpin
          rw [device_outer] at hpin
          cases hpin }
  initHandler x _ _ _ := by cases x <;> rfl
  trace _ := rfl
  rtcChecked _ := rfl
  rtcOffset _ := rfl

theorem dev4Initial : Initial (gather dev4Place fun _ => dev4Threads1Context.states) := by
  refine ⟨fun i => ?_, rfl⟩
  revert i
  rw [Fin.forall_fin_succ, Fin.forall_fin_two]
  exact ⟨show 1#8 ≠ 0#8 by decide, show 1#8 ≠ 0#8 by decide, show 1#8 ≠ 0#8 by decide⟩

/-- The tables of the shipped instance are complete. -/
theorem dev4Complete (i : Unit) : Complete (dev4Threads P build i) where
  index _ := rfl
  asks d σ k hk hbit := by
    revert d
    refine Fin.lastCases (fun hbit => ?_) fun i hbit => ?_
    · have hflags : innerReadyToSendHandler.getLsbD k = true := hbit
      simp [innerReadyToSendHandler] at hflags
    · unfold readyResult at hbit
      show k < ((dev4Threads1 P build).device i.castSucc).vtable.outputPins.length
      have hdevice : (dev4Threads P build ()).device i.castSucc = _ := device_outer i
      rw [hdevice] at hbit
      rw [device_outer]
      have hflags : (outerReadyToSendHandler σ.toOuterState).getLsbD k = true := hbit
      unfold outerReadyToSendHandler at hflags
      split at hflags
      · have hone : ∀ k < 31, outputFlagOuterOut.getLsbD k = true → k < 1 := by decide
        exact hone k hk hflags
      · rw [BitVec.getLsbD_zero] at hflags
        cases hflags
  targets d k pin hpin _ := by
    revert d
    refine Fin.lastCases (fun hpin => ?_) fun i hpin => ?_
    · cases hpin
    · have hdevice : (dev4Threads P build ()).device i.castSucc = _ := device_outer i
      rw [hdevice] at hpin ⊢
      exact (List.getElem?_eq_some_iff.1 hpin).1
  logging _ d pin hpin := by
    revert d
    refine Fin.lastCases (fun hpin => ?_) fun i hpin => ?_
    · cases hpin
    · have hdevice : (dev4Threads P build ()).device i.castSucc = _ := device_outer i
      rw [hdevice] at hpin
      obtain rfl := List.mem_singleton.1 hpin
      rfl

/-- The shipped instance without assertions; its thread has at least one receive slot. -/
theorem dev4Wired (ha : build.asserts = false) {slots : Unit → Nat} (hslots : 0 < slots ()) :
    Wired (dev4Threads P build) slots where
  asserts _ := ha
  slots_pos _ := hslots
  myId_inj _ _ _ := rfl
  host _ _ := show 4096#32 ≠ 0#32 by decide
  target _ d targets htargets addr haddr := by
    refine ⟨(), ?_⟩
    revert d
    refine Fin.lastCases (fun htargets => ?_) fun i htargets => ?_
    · cases htargets
    · have hdevice : (dev4Threads P build ()).device i.castSucc = _ := device_outer i
      rw [hdevice] at htargets
      obtain rfl := List.mem_singleton.1 htargets
      obtain rfl := List.mem_singleton.1 haddr
      exact ⟨rfl, by decide⟩

end Dev4Threads1

end Softswitch.EdgeProps
