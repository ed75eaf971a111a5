import Mathlib.Data.Fintype.Basic
import Softswitch.Graph

/-!
# The barrier application

`devCount` devices go through time in lock-step: each sends a tick for its new time to all of
them, and goes on when it has seen the ticks of all for its own time.  At `maxTime` a device
reports to the halt device, which counts.
-/

namespace Softswitch.Barrier

/-! ## Graph type -/

/-- `graph_props` -/
structure GraphProps where
  maxTime : BitVec 32
  devCount : BitVec 32

/-- `dev_state` -/
structure DevState where
  t : BitVec 32
  seenNow : BitVec 32
  seenNext : BitVec 32
  halted : Bool

/-- `halt_state` -/
structure HaltState where
  seen : BitVec 32

/-- The state memory of a device, which its handlers read as a `dev_state` or as a
`halt_state`. -/
structure State extends DevState, HaltState

/-- The payload is a `tick_msg`, that is, its time; a `done_msg` is empty. -/
abbrev app : AppTypes where
  GraphProps := GraphProps
  DevProps := Unit
  DevState := State
  EdgeProps := Unit
  EdgeState := Unit
  Payload := BitVec 32

/-- What the compiler and the linker decide. -/
structure Platform where
  /-- `POETS_DISABLE_LOGGING` is not defined, and all levels are logged. -/
  logging : Bool
  sizeofPacket : Nat
  /-- The address of a string. -/
  text : String → BitVec 32
  /-- The program counter at the log statement with that text. -/
  pc : String → BitVec 32

/-- `softswitch_handler_log` -/
def Platform.handlerLog (P : Platform) (level : Int) (msg : String) (params : List (BitVec 32)) :
    List HandlerCall :=
  if P.logging then [.handlerLog level (P.pc msg) (P.text msg) params] else []

/-- `OUTPUT_FLAG_dev_out` -/
def outputFlagDevOut : BitVec 32 := 1#32 <<< 0

/-- `OUTPUT_FLAG_halt_out` -/
def outputFlagHaltOut : BitVec 32 := 1#32 <<< 1

variable (P : Platform)

/-! ## The dev devices -/

def devReadyToSendHandler (gProps : GraphProps) (dState : DevState) : BitVec 32 :=
  let stillGoing := decide (dState.t < gProps.maxTime)
  let currentFull := dState.seenNow == gProps.devCount
  (if stillGoing && currentFull then outputFlagDevOut else 0#32) |||
    (if !stillGoing && !dState.halted then outputFlagHaltOut else 0#32)

/-- `assert(0)` is reached by a tick that is neither for now nor for the next time. -/
def devInReceiveHandler (dState : DevState) (msg : BitVec 32) : DevState × List HandlerCall :=
  let log := P.handlerLog 2 "dev_in: state=\x7b%u,%u,%u\x7d, msg=\x7b%u\x7d\n"
    [dState.t, dState.seenNow, dState.seenNext, msg]
  if msg = dState.t then ({ dState with seenNow := dState.seenNow + 1#32 }, log)
  else if msg = dState.t + 1#32 then ({ dState with seenNext := dState.seenNext + 1#32 }, log)
  else (dState, log ++ [.assert false])

/-- The new time is the tick that is sent. -/
def devOutSendHandler (gProps : GraphProps) (dState : DevState) : DevState × List HandlerCall :=
  ({ dState with t := dState.t + 1#32, seenNow := dState.seenNext, seenNext := 0#32 },
    P.handlerLog 2 "dev_out: state=\x7b%u,%u,%u\x7d\n"
        [dState.t, dState.seenNow, dState.seenNext] ++
      [.assert (dState.t < gProps.maxTime), .assert (dState.seenNow == gProps.devCount)])

def devHaltSendHandler (dState : DevState) : DevState := { dState with halted := true }

/-- The entry `dev` of `DEVICE_TYPE_VTABLES`.  It has no init handler, no compute handler and
no handler for hardware idle. -/
def devVTable : DeviceTypeVTable app where
  initHandler _ _ s := ⟨s, []⟩
  readyToSendHandler gProps _ s := ⟨⟨s, []⟩, devReadyToSendHandler gProps s.toDevState⟩
  outputPins := [
    { sendHandler := fun gProps _ s _ =>
        let r := devOutSendHandler P gProps s.toDevState
        ⟨⟨{ s with toDevState := r.1 }, r.2⟩, true, r.1.t⟩
      messageSize := P.sizeofPacket + 4
      name := P.text "out"
      isApp := false
      messageTypeNumid := 0#16 },
    { sendHandler := fun _ _ s payload =>
        ⟨⟨{ s with toDevState := devHaltSendHandler s.toDevState }, []⟩, true, payload⟩
      -- an empty struct has size one
      messageSize := P.sizeofPacket + 1
      name := P.text "halt"
      isApp := false
      messageTypeNumid := 0#16 }]
  inputPins := [
    { receiveHandler := fun _ _ s _ eState msg =>
        let r := devInReceiveHandler P s.toDevState msg
        ⟨⟨{ s with toDevState := r.1 }, r.2⟩, eState⟩
      propertiesSize := 0#16
      stateSize := 0#16
      name := P.text "dev_in" }]
  computeHandler _ _ s := ⟨s, []⟩
  onHardwareIdleHandler := none

/-! ## The halt device -/

def haltReadyToSendHandler : BitVec 32 := 0#32

def haltInReceiveHandler (gProps : GraphProps) (dState : HaltState) :
    HaltState × List HandlerCall :=
  let seen := dState.seen + 1#32
  ({ seen := seen },
    P.handlerLog 2 "state=\x7b%u\x7d, gProps=\x7b%u\x7d\n" [dState.seen, gProps.devCount] ++
      if seen = gProps.devCount then
        P.handlerLog 1 ("\n#################################\nWoo, all devices have halted.\n" ++
          "#################################\n\n") []
      else [])

/-- The entry `halt` of `DEVICE_TYPE_VTABLES`. -/
def haltVTable : DeviceTypeVTable app where
  initHandler _ _ s := ⟨s, []⟩
  readyToSendHandler _ _ s := ⟨⟨s, []⟩, haltReadyToSendHandler⟩
  outputPins := []
  inputPins := [
    { receiveHandler := fun gProps _ s _ eState _ =>
        let r := haltInReceiveHandler P gProps s.toHaltState
        ⟨⟨{ s with toHaltState := r.1 }, r.2⟩, eState⟩
      propertiesSize := 0#16
      stateSize := 0#16
      name := P.text "halt_in" }]
  computeHandler _ _ s := ⟨s, []⟩
  onHardwareIdleHandler := none

/-! ## The graph -/

/-- The devices of an instance. -/
inductive Device (N : Nat) where
  | dev (i : Fin N)
  | halt
deriving DecidableEq

/-- `N` dev devices, each of which ticks all of them and reports to the halt device. -/
def graph (N : Nat) (maxTime : BitVec 32) : Graph app (Device N) where
  graphProps := ⟨maxTime, BitVec.ofNat 32 N⟩
  vtable
    | .dev _ => devVTable P
    | .halt => haltVTable P
  properties _ := ()
  targets
    | .dev _, 0 => Finset.univ.val.map fun j => (.dev j, 0)
    | .dev _, 1 => {(.halt, 0)}
    | _, _ => 0
  edgeProps _ _ := none

/-- The states the instance starts from. -/
structure Initial {N : Nat} (σ : Device N → State) : Prop where
  dev : ∀ i, (σ (.dev i)).toDevState = ⟨0#32, BitVec.ofNat 32 N, 0#32, false⟩
  halt : (σ .halt).seen = 0#32

end Softswitch.Barrier
