import Softswitch.Verify.BarrierCompletion
import Softswitch.Verify.Refinement

/-!
# The barrier on threads

However the devices of the barrier are placed on threads, and in whatever order the threads
run and the network delivers, no device is ahead of another by more than one (`t_le_succ`);
and where all threads are idle with nothing in flight, all devices are done (`complete`).
-/

namespace Softswitch.Barrier

open Runs

section Threads

variable {P : Platform} {N : Nat} {maxTime : BitVec 32} {ι : Type} {size : ι → Nat}
  {ths : Threads app size} {place : (Σ i, Fin (size i)) ≃ Device N}
  {cs : (i : ι) → PThreadContext app (size i)} {buf : ι → Message app} {g : Network app size}

/-- The threads realise the barrier, and their devices are in its initial states. -/
structure Deploys (ths : Threads app size) (place : (Σ i, Fin (size i)) ≃ Device N)
    (cs : (i : ι) → PThreadContext app (size i)) (P : Platform) (maxTime : BitVec 32) : Prop where
  count : N < 2 ^ 32
  realises : Realises ths place (graph P N maxTime)
  initial : Initial (gather place fun i => (cs i).states)
  trace : ∀ i, (cs i).trace = []
  rtcChecked : ∀ i, (cs i).rtcChecked = 0
  rtcOffset : ∀ i, (cs i).rtcOffset = 0

namespace Deploys

variable [Fintype ι] [DecidableEq ι]

omit [Fintype ι] [DecidableEq ι] in
/-- The init handlers leave the devices as they are. -/
theorem deployed (h : Deploys ths place cs P maxTime) :
    Deployed ths place cs (graph P N maxTime) where
  realises := h.realises
  initHandler x _ _ _ := by cases x <;> rfl
  trace := h.trace
  rtcChecked := h.rtcChecked
  rtcOffset := h.rtcOffset

theorem inv (h : Deploys ths place cs P maxTime) (hreach : Network.Reachable ths cs buf g) :
    Inv N maxTime (g.view ths place) := by
  obtain ⟨es, hrun⟩ := h.deployed.hasRun hreach
  exact run_inv h.count h.initial hrun

omit [DecidableEq ι] in
theorem dev_view {i : ι} {d : Fin (size i)} {a : Fin N} (hplace : place ⟨i, d⟩ = .dev a) :
    dev (g.view ths place) a = ((g.main i).ctxt.states d).toDevState := by
  show (gather place (fun i => (g.main i).ctxt.states) (.dev a)).toDevState = _
  rw [← hplace, gather_place]

/-- No device is ahead of another by more than one. -/
theorem t_le_succ (h : Deploys ths place cs P maxTime) (hreach : Network.Reachable ths cs buf g)
    {i j : ι} {d : Fin (size i)} {e : Fin (size j)} {a b : Fin N}
    (hd : place ⟨i, d⟩ = .dev a) (he : place ⟨j, e⟩ = .dev b) :
    ((g.main i).ctxt.states d).t.toNat ≤ ((g.main j).ctxt.states e).t.toNat + 1 := by
  have hle := (h.inv hreach).t_le_succ b a
  rwa [dev_view hd, dev_view he] at hle

/-- Where no thread has work and nothing is in flight, all devices are halted at `maxTime`, and
the halt device has seen them all. -/
theorem complete (h : Deploys ths place cs P maxTime) (hreach : Network.Reachable ths cs buf g)
    (hwork : ∀ i, NoWork (g.main i)) (hflight : g.flight = 0) {i : ι} {d : Fin (size i)} :
    (∀ a, place ⟨i, d⟩ = .dev a → ((g.main i).ctxt.states d).t = maxTime ∧
      ((g.main i).ctxt.states d).halted = true) ∧
    (place ⟨i, d⟩ = .halt → ((g.main i).ctxt.states d).seen = BitVec.ofNat 32 N) := by
  obtain ⟨hdev, hhalt⟩ := (h.inv hreach).complete h.count
    (h.deployed.quiescent hreach hwork hflight)
  constructor
  · intro a hplace
    rw [← dev_view hplace]
    exact hdev a
  · intro hplace
    rw [← hhalt]
    show _ = (gather place (fun i => (g.main i).ctxt.states) .halt).seen
    rw [← hplace, gather_place]

end Deploys

end Threads

/-! ## One device a thread -/

section OnePerThread

variable {P : Platform} {N : Nat} {maxTime : BitVec 32} {x y : Device N}

/-- The thread of a device: the halt device is on the last one. -/
def threadOf : Device N → Nat
  | .dev i => i
  | .halt => N

theorem threadOf_le : threadOf x ≤ N := by
  cases x with
  | dev i => exact i.isLt.le
  | halt => exact le_rfl

theorem threadOf_inj (h : threadOf x = threadOf y) : x = y := by
  cases x with
  | dev i =>
    cases y with
    | dev j => exact congrArg Device.dev (Fin.ext h)
    | halt => exact absurd h i.isLt.ne
  | halt =>
    cases y with
    | dev j => exact absurd h j.isLt.ne'
    | halt => rfl

/-- The first input pin of a device. -/
def inputAddress (x : Device N) : Address := ⟨BitVec.ofNat 32 (threadOf x), 0#16, 0#8, 0#8⟩

/-- The targets of the output pins of a device. -/
def outputTargets : Device N → List OutputPinTargets
  | .dev _ => [⟨(List.finRange N).map fun j => inputAddress (.dev j)⟩,
      ⟨[inputAddress (.halt : Device N)]⟩]
  | .halt => []

theorem oneThread_fits : 1 * sizeofDeviceContext ≤ 2 ^ 32 := by decide

/-- The host is the thread after the last one. -/
def oneThread (P : Platform) (N : Nat) (maxTime : BitVec 32) (x : Device N) : PThread app 1 where
  build := defaultBuild true
  myId := BitVec.ofNat 32 (threadOf x)
  hostId := BitVec.ofNat 32 (N + 1)
  clock k := k
  sizeofPacketHeader := P.sizeofPacket
  sizeofHostMsg := 64
  hostMsgPayload := 13
  uninitHostMsg := ⟨inputAddress x, 0#16, List.replicate 13 0#32⟩
  uninitPin := 0#32
  threadId := BitVec.ofNat 32 (threadOf x)
  graphProps := ⟨maxTime, BitVec.ofNat 32 N⟩
  device _ :=
    { vtable := (graph P N maxTime).vtable x
      properties := ()
      index := 0
      targets := outputTargets x
      sources := []
      id := 0#32
      isExternal := 0#32 }
  applLogLevel := 0
  pointersAreRelative := false
  devices_fit := oneThread_fits

/-- Every device is device 0 of its thread. -/
def onePlace (N : Nat) : (Σ _ : Device N, Fin 1) ≃ Device N := Equiv.sigmaUnique _ _

theorem ofNat_threadOf_inj (hN : N + 1 < 2 ^ 32)
    (h : BitVec.ofNat 32 (threadOf x) = BitVec.ofNat 32 (threadOf y)) : x = y := by
  have hx : threadOf x < 2 ^ 32 := by have := threadOf_le (x := x); omega
  have hy : threadOf y < 2 ^ 32 := by have := threadOf_le (x := y); omega
  have htoNat := congrArg BitVec.toNat h
  rw [BitVec.toNat_ofNat, BitVec.toNat_ofNat, Nat.mod_eq_of_lt hx, Nat.mod_eq_of_lt hy] at htoNat
  exact threadOf_inj htoNat

/-- The input pins have no edge data. -/
theorem inputPin_noData {k : Nat} {pin : InputPinVTable app}
    (hpin : ((graph P N maxTime).vtable x).inputPins[k]? = some pin) : pin.NoData := by
  have hnone : (0#16).setWidth 32 ||| (0#16).setWidth 32 = 0#32 := by decide
  cases x with
  | dev i =>
    obtain rfl := List.mem_singleton.1 (List.mem_of_getElem? hpin)
    exact hnone
  | halt =>
    obtain rfl := List.mem_singleton.1 (List.mem_of_getElem? hpin)
    exact hnone

theorem admits_inputAddress (source : Address) :
    Admits (oneThread P N maxTime x) source (inputAddress x) := by
  have hpin : ∃ pin, ((graph P N maxTime).vtable x).inputPins[0]? = some pin := by
    cases x with
    | dev i => exact ⟨_, rfl⟩
    | halt => exact ⟨_, rfl⟩
  obtain ⟨pin, hpin⟩ := hpin
  exact ⟨rfl, 0, pin, rfl, rfl, hpin, fun h => (h (inputPin_noData hpin)).elim⟩

theorem mem_outputTargets {targets : OutputPinTargets} {addr : Address}
    (htargets : targets ∈ outputTargets x) (haddr : addr ∈ targets.targets) :
    ∃ y : Device N, addr = inputAddress y := by
  cases x with
  | dev i =>
    unfold outputTargets at htargets
    rcases List.mem_pair.1 htargets with rfl | rfl
    · obtain ⟨j, -, rfl⟩ := List.mem_map.1 haddr
      exact ⟨_, rfl⟩
    · exact ⟨_, List.mem_singleton.1 haddr⟩
  | halt => cases htargets

theorem onePlaced (hN : N + 1 < 2 ^ 32) : Placed (oneThread P N maxTime) where
  build _ := rfl
  fits x := by
    refine ⟨fun d => ?_, by decide, fun _ => ?_⟩
    · rw [Subsingleton.elim d 0]
      rfl
    · cases x with
      | dev _ => exact Nat.le_of_ble_eq_true rfl
      | halt => exact Nat.zero_le _
  threadId _ := rfl
  myId_inj x y h := ofNat_threadOf_inj hN h
  host x y h := by
    have hy : threadOf y < 2 ^ 32 := by have := threadOf_le (x := y); omega
    have htoNat : (BitVec.ofNat 32 (N + 1)).toNat = (BitVec.ofNat 32 (threadOf y)).toNat :=
      congrArg BitVec.toNat h
    rw [BitVec.toNat_ofNat, BitVec.toNat_ofNat, Nat.mod_eq_of_lt hN, Nat.mod_eq_of_lt hy] at htoNat
    have := threadOf_le (x := y)
    omega
  target x d pinIndex pin targets hpin happ htargets addr haddr := by
    obtain ⟨y, rfl⟩ := mem_outputTargets (List.mem_of_getElem? htargets) haddr
    exact ⟨y, admits_inputAddress _⟩

theorem locate_inputAddress (hN : N + 1 < 2 ^ 32) :
    locate (oneThread P N maxTime) (onePlace N) (inputAddress x) = some (x, 0) :=
  Addresses.locate_eq (onePlaced hN) ⟨x, 0, rfl, rfl, rfl⟩

theorem oneTargets (hN : N + 1 < 2 ^ 32) {pinIndex : Nat} {targets : OutputPinTargets}
    (htargets : (outputTargets x)[pinIndex]? = some targets) :
    (graph P N maxTime).targets x pinIndex =
      (targets.targets.filterMap (locate (oneThread P N maxTime) (onePlace N)) :
        Multiset (Device N × Nat)) := by
  have hlocate : ∀ y, locate (oneThread P N maxTime) (onePlace N) (inputAddress y) = some (y, 0) :=
    fun y => locate_inputAddress hN
  cases x with
  | dev i =>
    match pinIndex with
    | 0 =>
      cases htargets
      have hall : ((List.finRange N).map fun j => inputAddress (.dev j)).filterMap
          (locate (oneThread P N maxTime) (onePlace N)) =
          (List.finRange N).map fun j => ((.dev j, 0) : Device N × Nat) := by
        rw [List.filterMap_map, ← List.filterMap_eq_map]
        congr 1
        funext j
        exact hlocate (.dev j)
      rw [hall]
      rfl
    | 1 =>
      cases htargets
      rw [List.filterMap_cons_some (hlocate .halt)]
      rfl
    | _ + 2 => cases htargets
  | halt => cases htargets

theorem oneRealises (hN : N + 1 < 2 ^ 32) :
    Realises (oneThread P N maxTime) (onePlace N) (graph P N maxTime) where
  placed := onePlaced hN
  graphProps _ := rfl
  vtable _ _ := rfl
  properties _ _ := rfl
  targets x d pinIndex pin targets hpin _ htargets := by
    rw [Subsingleton.elim d 0]
    exact oneTargets hN htargets
  noData _ _ _ _ _ _ _ := rfl
  edges x d k pin sources hpin hdata := by
    have hpin : ((graph P N maxTime).vtable x).inputPins[k]? = some pin := hpin
    exact absurd (inputPin_noData hpin) hdata

/-- The thread of a device before its initialisation. -/
def oneContext (N : Nat) (x : Device N) : PThreadContext app 1 where
  toTracking := ⟨0, 0, 0⟩
  toHostBuffer := ⟨fun _ => ⟨inputAddress x, 0#16, []⟩, 0, 0, 0⟩
  toPerf := ⟨0, 0, 0, 0, 0, 0, 0, 0, 0, 0, 0⟩
  devices _ := ⟨initialState N x, 0#32, none, none⟩
  lamport := 0#32
  rtsHead := none
  rtsTail := none
  rtcChecked := 0
  rtcOffset := 0
  currentSize := 0
  edgeState _ := ()
  mboxLen := 0
  trace := []

end OnePerThread

end Softswitch.Barrier
