import Softswitch.Apps.Barrier

/-!
# The edge property application

`outer` devices send one tick each to an `inner` device.  Each edge has a bit of its own, which
the inner device gathers; when it has all of them, the program ends.  What the handlers print to
the standard error is left out.
-/

namespace Softswitch.EdgeProps

open Barrier (Platform)

/-! ## Graph type -/

/-- `outer_state` -/
structure OuterState where
  ready : BitVec 8

/-- `inner_props` -/
structure InnerProps where
  outerCount : BitVec 32

/-- `inner_state` -/
structure InnerState where
  acc : BitVec 32

/-- `inner_in_props` -/
structure InnerInProps where
  mask : BitVec 32

/-- The state memory of a device, which its handlers read as an `outer_state` or as an
`inner_state`. -/
structure State extends OuterState, InnerState

/-- An outer device has no properties and does not read them.  A `tick_msg` is empty. -/
abbrev app : AppTypes where
  GraphProps := Unit
  DevProps := InnerProps
  DevState := State
  EdgeProps := InnerInProps
  EdgeState := Unit
  Payload := Unit

/-- `OUTPUT_FLAG_outer_out` -/
def outputFlagOuterOut : BitVec 32 := 1#32 <<< 0

variable (P : Platform)

/-! ## The outer devices -/

def outerReadyToSendHandler (dState : OuterState) : BitVec 32 :=
  if dState.ready ≠ 0#8 then outputFlagOuterOut else 0#32

def outerOutSendHandler (dState : OuterState) : OuterState × List HandlerCall :=
  ({ dState with ready := 0#8 }, [.assert (dState.ready != 0#8)])

/-- The entry `outer` of `DEVICE_TYPE_VTABLES`.  It has no init handler, no compute handler and
no handler for hardware idle. -/
def outerVTable : DeviceTypeVTable app where
  initHandler _ _ s := ⟨s, []⟩
  readyToSendHandler _ _ s := ⟨⟨s, []⟩, outerReadyToSendHandler s.toOuterState⟩
  outputPins := [
    { sendHandler := fun _ _ s payload =>
        let r := outerOutSendHandler s.toOuterState
        ⟨⟨{ s with toOuterState := r.1 }, r.2⟩, true, payload⟩
      -- an empty struct has size one
      messageSize := P.sizeofPacket + 1
      name := P.text "out"
      isApp := false
      messageTypeNumid := 0#16 }]
  inputPins := []
  computeHandler _ _ s := ⟨s, []⟩
  onHardwareIdleHandler := none

/-! ## The inner device -/

def innerReadyToSendHandler : BitVec 32 := 0#32

/-- `exit` of the C library.  It ends the process; here the call is seen by the message it leaves,
like `softswitch_handler_exit`, and the thread goes on after it. -/
def exit (code : BitVec 32) : HandlerCall := .handlerExit code

/-- `dState->acc == (1<<dProps->outerCount)-1`.  The difference wraps around when `outerCount`
is 31. -/
def allReceived (dProps : InnerProps) (acc : BitVec 32) : Bool :=
  acc == (1#32 <<< dProps.outerCount) - 1#32

def innerInReceiveHandler (dProps : InnerProps) (dState : InnerState) (eProps : InnerInProps) :
    InnerState × List HandlerCall :=
  let acc := dState.acc ||| eProps.mask
  ({ acc := acc },
    .assert ((dState.acc &&& eProps.mask) == 0#32) ::
      if allReceived dProps acc then [exit 0#32] else [])

/-- The entry `inner` of `DEVICE_TYPE_VTABLES`. -/
def innerVTable : DeviceTypeVTable app where
  initHandler _ _ s := ⟨s, []⟩
  readyToSendHandler _ _ s := ⟨⟨s, []⟩, innerReadyToSendHandler⟩
  outputPins := []
  inputPins := [
    { receiveHandler := fun _ dProps s eProps eState _ =>
        match eProps with
        | some eProps =>
          let r := innerInReceiveHandler dProps s.toInnerState eProps
          ⟨⟨{ s with toInnerState := r.1 }, r.2⟩, eState⟩
        -- the softswitch has asserted that there are edge properties
        | none => ⟨⟨s, [.assert false]⟩, eState⟩
      -- `sizeof(inner_in_props)`
      propertiesSize := 4#16
      stateSize := 0#16
      name := P.text "in" }]
  computeHandler _ _ s := ⟨s, []⟩
  onHardwareIdleHandler := none

/-! ## The graph -/

/-- The devices of an instance. -/
inductive Device (n : Nat) where
  | outer (i : Fin n)
  | inner
deriving DecidableEq

/-- `n` outer devices, each of which ticks the inner device; `edges i` are the properties that the
inner device finds for a tick of outer device `i`. -/
def graph (n : Nat) (edges : Fin n → Option InnerInProps) : Graph app (Device n) where
  graphProps := ()
  vtable
    | .outer _ => outerVTable P
    | .inner => innerVTable P
  properties _ := ⟨BitVec.ofNat 32 n⟩
  targets
    | .outer _, 0 => {(.inner, 0)}
    | _, _ => 0
  edgeProps
    | (.outer i, 0), (.inner, 0) => edges i
    | _, _ => none

/-- The states the instance starts from. -/
structure Initial {n : Nat} (σ : Device n → State) : Prop where
  outer : ∀ i, (σ (.outer i)).ready ≠ 0#8
  inner : (σ .inner).acc = 0#32

/-! ## The instance of four devices on one thread -/

/-- An outer device of the instance is bound to the bit of its index. -/
def dev3InBinding (i : Nat) : InputPinBinding app where
  source := ⟨0#32, BitVec.ofNat 16 i, 0#8, 0#8⟩
  edgeProperties := some ⟨1#32 <<< i⟩
  edgeState := none

/-- `dev3_in_bindings` -/
def dev3InBindings : List (InputPinBinding app) :=
  [dev3InBinding 0, dev3InBinding 1, dev3InBinding 2]

theorem dev4Threads1_fits : 4 * sizeofDeviceContext ≤ 2 ^ 32 := by decide

/-- `edge_props_dev4_threads1`: device 3 is the inner one. -/
def dev4Threads1 (build : Build) : PThread app 4 where
  build := build
  myId := 0#32
  hostId := 4096#32
  clock k := k
  sizeofPacketHeader := 16
  sizeofHostMsg := 64
  hostMsgPayload := 13
  uninitHostMsg := ⟨⟨0#32, 0#16, 0#8, 0#8⟩, 0#16, List.replicate 13 0#32⟩
  uninitPin := 0#32
  threadId := 0#32
  graphProps := ()
  device d :=
    { vtable := if d.val = 3 then innerVTable P else outerVTable P
      properties := ⟨3#32⟩
      index := d
      targets := if d.val = 3 then [] else [⟨[⟨0#32, 3#16, 0#8, 0#8⟩]⟩]
      sources := if d.val = 3 then [⟨dev3InBindings⟩] else []
      id := 0#32
      isExternal := 0#32 }
  applLogLevel := 0
  pointersAreRelative := false
  devices_fit := dev4Threads1_fits

/-- The thread before its initialisation. -/
def dev4Threads1Context : PThreadContext app 4 where
  toTracking := ⟨0, 0, 0⟩
  toHostBuffer := ⟨fun _ => ⟨⟨0#32, 0#16, 0#8, 0#8⟩, 0#16, []⟩, 0, 0, 0⟩
  toPerf := ⟨0, 0, 0, 0, 0, 0, 0, 0, 0, 0, 0⟩
  devices d := ⟨⟨⟨if d.val = 3 then 0#8 else 1#8⟩, ⟨0#32⟩⟩, 0#32, none, none⟩
  lamport := 0#32
  rtsHead := none
  rtsTail := none
  rtcChecked := 0
  rtcOffset := 0
  currentSize := 0
  edgeState _ := ()
  mboxLen := 0
  trace := []

end Softswitch.EdgeProps
