import Mathlib.Data.Fintype.Basic
import Softswitch.Apps.Barrier

/-!
# The ring application

Each device of a ring waits for the token, adds `increment` to its count, and sends it on.  A
device has the token when its count is not zero.  What the handlers print to the standard error is
left out.
-/

namespace Softswitch.Ring

open Barrier (Platform)

/-! ## Graph type -/

/-- `graph_props` -/
structure GraphProps where
  increment : BitVec 32

/-- `dev_state` -/
structure DevState where
  count : BitVec 32

/-- The payload is a `token_msg`, that is, its count. -/
abbrev app : AppTypes where
  GraphProps := GraphProps
  DevProps := Unit
  DevState := DevState
  EdgeProps := Unit
  EdgeState := Unit
  Payload := BitVec 32

/-- `OUTPUT_FLAG_dev_out` -/
def outputFlagDevOut : BitVec 32 := 1#32 <<< 0

/-! ## The devices -/

def devReadyToSendHandler (dState : DevState) : BitVec 32 :=
  if dState.count ≠ 0#32 then outputFlagDevOut else 0#32

def devInReceiveHandler (msg : BitVec 32) : DevState := { count := msg }

/-- The state is left without the token; the message is the new count. -/
def devOutSendHandler (gProps : GraphProps) (dState : DevState) : DevState × BitVec 32 :=
  ({ count := 0#32 }, dState.count + gProps.increment)

/-- The entry `dev` of `DEVICE_TYPE_VTABLES`.  It has no init handler, no compute handler and
no handler for hardware idle. -/
def devVTable (P : Platform) : DeviceTypeVTable app where
  initHandler _ _ s := ⟨s, []⟩
  readyToSendHandler _ _ s := ⟨⟨s, []⟩, devReadyToSendHandler s⟩
  outputPins := [
    { sendHandler := fun gProps _ s _ =>
        let r := devOutSendHandler gProps s
        ⟨⟨r.1, []⟩, true, r.2⟩
      messageSize := P.sizeofPacket + 4
      name := P.text "out"
      isApp := false
      messageTypeNumid := 0#16 }]
  inputPins := [
    { receiveHandler := fun _ _ _ _ eState msg => ⟨⟨devInReceiveHandler msg, []⟩, eState⟩
      propertiesSize := 0#16
      stateSize := 0#16
      name := P.text "in" }]
  computeHandler _ _ s := ⟨s, []⟩
  onHardwareIdleHandler := none

/-! ## The graph -/

/-- The device that the token goes to. -/
def next {N : Nat} (i : Fin N) : Fin N := ⟨(i + 1) % N, Nat.mod_lt _ i.pos⟩

/-- A ring of `N` devices. -/
def graph (P : Platform) (N : Nat) (increment : BitVec 32) : Graph app (Fin N) where
  graphProps := ⟨increment⟩
  vtable _ := devVTable P
  properties _ := ()
  targets
    | i, 0 => {(next i, 0)}
    | _, _ => 0
  edgeProps _ _ := none

/-- One device starts with the count `c₀`, and the others with zero. -/
def Initial {N : Nat} (c₀ : BitVec 32) (σ : Fin N → DevState) : Prop :=
  ∃ i, σ = Function.update (fun _ => ⟨0#32⟩) i ⟨c₀⟩

/-! ## The instance of two devices on two threads -/

/-- The input pin of device `i`. -/
def inputAddress (i : Fin 2) : Address := ⟨BitVec.ofNat 32 i, 0#16, 0#8, 0#8⟩

theorem dev2Threads2_fits : 1 * sizeofDeviceContext ≤ 2 ^ 32 := by decide

/-- `ring_dev2_threads2`: device `i` is the only one on thread `i`. -/
def dev2Threads2 (P : Platform) (build : Build) (i : Fin 2) : PThread app 1 where
  build := build
  myId := BitVec.ofNat 32 i
  hostId := 4096#32
  clock k := k
  sizeofPacketHeader := P.sizeofPacket
  sizeofHostMsg := 64
  hostMsgPayload := 13
  uninitHostMsg := ⟨⟨0#32, 0#16, 0#8, 0#8⟩, 0#16, List.replicate 13 0#32⟩
  uninitPin := 0#32
  threadId := BitVec.ofNat 32 i
  graphProps := ⟨2#32⟩
  device _ :=
    { vtable := devVTable P
      properties := ()
      index := 0
      targets := [⟨[inputAddress (next i)]⟩]
      sources := [⟨[]⟩]
      id := 0#32
      isExternal := 0#32 }
  applLogLevel := 0
  pointersAreRelative := false
  devices_fit := dev2Threads2_fits

/-- The threads before their initialisation. -/
def dev2Threads2Context (i : Fin 2) : PThreadContext app 1 where
  toTracking := ⟨0, 0, 0⟩
  toHostBuffer := ⟨fun _ => ⟨⟨0#32, 0#16, 0#8, 0#8⟩, 0#16, []⟩, 0, 0, 0⟩
  toPerf := ⟨0, 0, 0, 0, 0, 0, 0, 0, 0, 0, 0⟩
  devices _ := ⟨⟨if i.val = 0 then 1#32 else 0#32⟩, 0#32, none, none⟩
  lamport := 0#32
  rtsHead := none
  rtsTail := none
  rtcChecked := 0
  rtcOffset := 0
  currentSize := 0
  edgeState _ := ()
  mboxLen := 0
  trace := []

end Softswitch.Ring
