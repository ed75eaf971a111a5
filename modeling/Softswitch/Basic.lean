import Mathlib.Algebra.Group.Nat.Defs
import Mathlib.Logic.Function.Basic
import Softswitch.Lib.Outcome

/-!
# Data model of the softswitch

The read-only parts of a thread (its build, what the hardware tells it, the vtables,
properties, address lists and source lists of its devices) are a `PThread`; the mutable
parts are a `PThreadContext`.  A device pointer of the source is a `Fin n`, `n` being
`numDevices`, and a null pointer is `none`.

The `void *` parameters of the handlers are the types of an `AppTypes`.  A handler is a
function of what it is given; besides its results it returns the services it called
(`HandlerCall`), which run against the context.  What a thread does to the outside, and
every entry of a handler, is recorded in `PThreadContext.trace`.
-/

namespace Softswitch

/-- The types behind the `void *` parameters of the handlers. -/
structure AppTypes where
  GraphProps : Type
  DevProps : Type
  DevState : Type
  EdgeProps : Type
  EdgeState : Type
  Payload : Type

/-- `address_t`.  The last byte was a flag and is now the size of the message. -/
structure Address where
  thread : BitVec 32
  device : BitVec 16
  pin : BitVec 8
  size : BitVec 8
deriving DecidableEq

/-- `hostMsg`; the payload has `HOST_MSG_PAYLOAD` words. -/
structure HostMsg where
  source : Address
  type : BitVec 16
  payload : List (BitVec 32)
deriving DecidableEq

/-- A message buffer, read either as a `packet_header_t` and its payload or as a
`hostMsg`. -/
structure Message (A : AppTypes) where
  dest : Address
  source : Address
  type : BitVec 16
  payload : A.Payload

/-! ## Handlers and vtables -/

/-- The services a handler can call. -/
inductive HandlerCall where
  | handlerLog (level : Int) (pc msg : BitVec 32) (params : List (BitVec 32))
  | hostMsgBufferPush (msg : HostMsg)
  | handlerExit (code : BitVec 32)
  | assert (ok : Bool)
deriving DecidableEq

/-- What a handler leaves behind: the device state, and the services it called. -/
structure HandlerResult (σ : Type) where
  state : σ
  calls : List HandlerCall

structure ReadyResult (σ : Type) extends HandlerResult σ where
  flags : BitVec 32

structure SendResult (σ π : Type) extends HandlerResult σ where
  doSend : Bool
  payload : π

structure ReceiveResult (σ ε : Type) extends HandlerResult σ where
  edgeState : Option ε

structure InputPinVTable (A : AppTypes) where
  receiveHandler : A.GraphProps → A.DevProps → A.DevState → Option A.EdgeProps →
    Option A.EdgeState → A.Payload → ReceiveResult A.DevState A.EdgeState
  propertiesSize : BitVec 16
  stateSize : BitVec 16
  name : BitVec 32

structure OutputPinVTable (A : AppTypes) where
  sendHandler : A.GraphProps → A.DevProps → A.DevState → A.Payload →
    SendResult A.DevState A.Payload
  messageSize : Nat
  name : BitVec 32
  isApp : Bool
  messageTypeNumid : BitVec 16

structure DeviceTypeVTable (A : AppTypes) where
  initHandler : A.GraphProps → A.DevProps → A.DevState → HandlerResult A.DevState
  readyToSendHandler : A.GraphProps → A.DevProps → A.DevState → ReadyResult A.DevState
  outputPins : List (OutputPinVTable A)
  inputPins : List (InputPinVTable A)
  computeHandler : A.GraphProps → A.DevProps → A.DevState → HandlerResult A.DevState
  /-- `none` is the null pointer the source tests for. -/
  onHardwareIdleHandler : Option (A.GraphProps → A.DevProps → A.DevState →
    HandlerResult A.DevState)

/-! ## Devices -/

/-- The array of `numTargets` addresses of an output pin. -/
structure OutputPinTargets where
  targets : List Address

/-- `edgeState` points into the edge state memory of the thread. -/
structure InputPinBinding (A : AppTypes) where
  source : Address
  edgeProperties : Option A.EdgeProps
  edgeState : Option Nat

/-- The array of `numSources` bindings of an input pin. -/
structure InputPinSources (A : AppTypes) where
  sourceBindings : List (InputPinBinding A)

/-- The parts of a `DeviceContext` that are fixed. -/
structure DeviceFixed (A : AppTypes) where
  vtable : DeviceTypeVTable A
  properties : A.DevProps
  index : Nat
  targets : List OutputPinTargets
  sources : List (InputPinSources A)
  id : BitVec 32
  isExternal : BitVec 32

/-- The mutable parts of a `DeviceContext`. -/
structure DeviceContext (A : AppTypes) (n : Nat) where
  state : A.DevState
  rtsFlags : BitVec 32
  prev : Option (Fin n)
  next : Option (Fin n)

/-! ## Threads -/

/-- The preprocessor options. -/
structure Build where
  /-- `NDEBUG` is not defined. -/
  asserts : Bool
  /-- `POETS_DISABLE_LOGGING` is not defined.  A log statement is then compiled in if its level
  is not above the limits that follow. -/
  logging : Bool
  /-- `POETS_MAX_LOGGING_LEVEL` -/
  maxLoggingLevel : Int
  /-- `POETS_MAX_SOFTSWITCH_LOGGING_LEVEL` -/
  maxSoftswitchLoggingLevel : Int
  /-- `SOFTSWITCH_ENABLE_INTRA_THREAD_SEND` -/
  enableIntraThreadSend : Bool
  /-- `SOFTSWITCH_ENABLE_SEND_OVER_RECV` -/
  enableSendOverRecv : Bool
  /-- `SOFTSWITCH_ENABLE_HARDWARE_IDLE` -/
  enableHardwareIdle : Bool
  /-- `SOFTSWITCH_ENABLE_PROFILE`, whose value is the flush rate. -/
  enableProfile : Option Nat
deriving DecidableEq

/-- `sizeof(DeviceContext)` on the 32-bit target: eleven words, sixteen words of padding
and the checksum. -/
def sizeofDeviceContext : Nat := 112

/-- What is read-only in a thread of `n` devices. -/
structure PThread (A : AppTypes) (n : Nat) where
  build : Build
  /-- `tinsel_myId()` -/
  myId : BitVec 32
  /-- `tinselHostId()` -/
  hostId : BitVec 32
  /-- The time at the `k`-th reading of the cycle counter. -/
  clock : Nat → Nat
  sizeofPacketHeader : Nat
  sizeofHostMsg : Nat
  /-- `HOST_MSG_PAYLOAD` -/
  hostMsgPayload : Nat
  /-- What an uninitialised `hostMsg` and an uninitialised pin name hold. -/
  uninitHostMsg : HostMsg
  uninitPin : BitVec 32
  threadId : BitVec 32
  graphProps : A.GraphProps
  device : Fin n → DeviceFixed A
  applLogLevel : Int
  pointersAreRelative : Bool
  /-- The device array is an object of a 32-bit address space. -/
  devices_fit : n * sizeofDeviceContext ≤ 2 ^ 32

/-- A log statement of the softswitch at `level` is compiled in (`softswitch_softswitch_log`), and
its level is not filtered out when it runs (`softswitch_softswitch_log_impl`); otherwise its
arguments are not read. -/
def PThread.logs {A : AppTypes} {n : Nat} (th : PThread A n) (level : Nat) : Bool :=
  th.build.logging && decide (level ≤ th.build.maxLoggingLevel) &&
    decide (level ≤ th.build.maxSoftswitchLoggingLevel) && decide (level ≤ th.applLogLevel)

/-- Which device and handler are running, for the logs. -/
structure Tracking where
  currentDevice : Nat
  currentHandlerType : Nat
  currentPin : Nat
deriving DecidableEq

/-- The ring buffer of pending host messages. -/
structure HostBuffer where
  hostBuffer : Nat → HostMsg
  hbufHead : Nat
  hbufTail : Nat
  /-- How many messages were pushed and not popped.  The source does not keep this number,
  and nothing reads it. -/
  hostPending : Nat

/-- The performance counters, and how often the cycle counter has been read. -/
structure Perf where
  threadCyclesTstart : BitVec 32
  threadCycles : BitVec 32
  sendBlockedCycles : BitVec 32
  recvBlockedCycles : BitVec 32
  idleCycles : BitVec 32
  perfmonCycles : BitVec 32
  sendCycles : BitVec 32
  sendHandlerCycles : BitVec 32
  recvCycles : BitVec 32
  recvHandlerCycles : BitVec 32
  clockReads : Nat

/-- The five kinds of application handlers that run with the tracking fields set. -/
inductive HandlerKind where
  | init
  | receive
  | send
  | compute
  | hardwareIdle
deriving DecidableEq

/-- What is recorded of a thread. -/
inductive Event (A : AppTypes) (n : Nat) where
  /-- An application handler of `dev` is entered. -/
  | enter (kind : HandlerKind) (dev : Fin n) (tracking : Tracking)
  /-- The arguments of a receive handler. -/
  | receiveCall (dev : Fin n) (pin : Nat) (source : Address) (eProps : Option A.EdgeProps)
      (eState : Option A.EdgeState) (payload : A.Payload)
  /-- `softswitch_onSend` is called. -/
  | onSend
  /-- The result of a send handler. -/
  | sendReturn (dev : Fin n) (pin : Nat) (doSend : Bool) (payload : A.Payload)
  | mboxRecv (message : Message A)
  | mboxSend (dest : BitVec 32) (length : Nat) (message : Message A)
  /-- A send from the extra slot. -/
  | mboxSendExtra (dest : BitVec 32) (length : Nat) (message : HostMsg)
  /-- A host message sent over the UART. -/
  | uart (message : HostMsg)
  /-- A log statement of the softswitch itself. -/
  | softswitchLog (level : Nat) (params : List (BitVec 32))
  /-- A store to word `index` of a payload that is shorter than that. -/
  | strayStore (index : Nat)

/-- The mutable parts of a thread. -/
structure PThreadContext (A : AppTypes) (n : Nat) extends Tracking, HostBuffer, Perf where
  devices : Fin n → DeviceContext A n
  lamport : BitVec 32
  rtsHead : Option (Fin n)
  rtsTail : Option (Fin n)
  rtcChecked : Nat
  rtcOffset : Nat
  currentSize : Nat
  /-- The edge state memory. -/
  edgeState : Nat → A.EdgeState
  /-- The length register of the mailbox. -/
  mboxLen : Nat
  trace : List (Event A n)

/-! ## Ways to stop -/

/-- The assertions of the source. -/
inductive Assertion where
  | rtsSanity
  | rtsAppendOnList
  | rtsRemoveOnList
  | rtsRemoveHead
  | rtsPopPrev
  | updateRTSOnList
  | onReceiveOnList
  | onSendOnList
  | onIdleOnList
  | initPointers
  | onReceiveSize
  | onReceiveDevice
  | onReceiveExternal
  | onReceivePin
  | onReceiveNeighbours
  | onReceiveSorted
  | onReceiveNoEdge
  | onReceiveProps
  | onReceiveState
  | onSendFlags
  | rightMostOne
  | onSendSize
  | hardwareIdleFlags
  | hardwareIdleOnList
  | mainIdleFlags
  | mainCanRecv
  | mainCanSend
  | mainWantToSend
  | handlerLogType
  | handlerLogDevice
  | handlerLogSize
  | softswitchLogSize
  | application
deriving DecidableEq

/-- The assertions of the RTS list: those of `softswitch_rts.cpp`, and the list
membership assertions of the event functions. -/
def Assertion.isRts : Assertion → Bool
  | .rtsSanity | .rtsAppendOnList | .rtsRemoveOnList | .rtsRemoveHead | .rtsPopPrev
  | .updateRTSOnList | .onReceiveOnList | .onSendOnList | .onIdleOnList => true
  | _ => false

/-- Why a thread does not go on. -/
inductive Fault where
  | assertion (a : Assertion)
  | nullDeref
  | outOfBounds
  | diverges
deriving DecidableEq

/-- The thread stops, in the context it stops in. -/
structure Stop (A : AppTypes) (n : Nat) where
  fault : Fault
  ctxt : PThreadContext A n

abbrev Outcome (A : AppTypes) (n : Nat) (α : Type) := Except (Stop A n) α

variable {A : AppTypes} {n : Nat} {α : Type}

def PThreadContext.fail (c : PThreadContext A n) (f : Fault) : Outcome A n α :=
  .error ⟨f, c⟩

/-- `assert(ok)` -/
def PThread.check (th : PThread A n) (c : PThreadContext A n) (a : Assertion) (ok : Bool) :
    Outcome A n Unit :=
  if th.build.asserts && !ok then c.fail (.assertion a) else .ok ()

/-- `assert(m)`, where evaluating `m` may itself not come back. -/
def PThread.checkM (th : PThread A n) (c : PThreadContext A n) (a : Assertion)
    (m : Outcome A n Bool) : Outcome A n Unit :=
  if th.build.asserts then m >>= th.check c a else .ok ()

/-- Read an array element or follow a pointer that may not be there. -/
def PThreadContext.deref (c : PThreadContext A n) (f : Fault) : Option α → Outcome A n α
  | none => c.fail f
  | some a => .ok a

/-! ## Updates -/

namespace PThreadContext

def emit (c : PThreadContext A n) (e : Event A n) : PThreadContext A n :=
  { c with trace := c.trace ++ [e] }

/-- Overwrite the device `d`. -/
def setDevice (c : PThreadContext A n) (d : Fin n) (v : DeviceContext A n) :
    PThreadContext A n :=
  { c with devices := Function.update c.devices d v }

def setState (c : PThreadContext A n) (d : Fin n) (s : A.DevState) : PThreadContext A n :=
  c.setDevice d { c.devices d with state := s }

def setRtsFlags (c : PThreadContext A n) (d : Fin n) (flags : BitVec 32) :
    PThreadContext A n :=
  c.setDevice d { c.devices d with rtsFlags := flags }

def setPrev (c : PThreadContext A n) (d : Fin n) (p : Option (Fin n)) :
    PThreadContext A n :=
  c.setDevice d { c.devices d with prev := p }

def setNext (c : PThreadContext A n) (d : Fin n) (p : Option (Fin n)) :
    PThreadContext A n :=
  c.setDevice d { c.devices d with next := p }

/-- Set the fields that tell the logs what is running, except the pin. -/
def track (c : PThreadContext A n) (device handlerType : Nat) : PThreadContext A n :=
  { c with currentDevice := device, currentHandlerType := handlerType }

/-- An application handler of `d` is entered. -/
def enter (c : PThreadContext A n) (kind : HandlerKind) (d : Fin n) : PThreadContext A n :=
  c.emit (.enter kind d c.toTracking)

end PThreadContext

end Softswitch
