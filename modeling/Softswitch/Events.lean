import Softswitch.Lib.LowerBound
import Softswitch.Rts

/-!
# The event functions

`softswitch_init`, `softswitch_onReceive`, `softswitch_onSend`, `softswitch_onIdle` and
`softswitch_on_hardware_idle`, and runs of them.
-/

namespace Softswitch

variable {A : AppTypes} {n : Nat}

/-! ## Initialisation -/

/-- The body of the loop of `softswitch_init`. -/
def initDevice (th : PThread A n) (c : PThreadContext A n) (d : Fin n) :
    Outcome A n (PThreadContext A n) := do
  let c := c.track d 4
  let c := c.enter .init d
  let r := (th.device d).vtable.initHandler th.graphProps (th.device d).properties
    (c.devices d).state
  let c ← runCalls th (c.setState d r.state) r.calls
  let (flags, c) ← callReadyToSend th c d
  let c := c.setRtsFlags d flags
  if wantsSend flags then rtsAppend th c d else return c

def zeroProfileCounters (th : PThread A n) (c : PThreadContext A n) : PThreadContext A n :=
  { c with
    toPerf := if th.build.enableProfile.isSome then
        ⟨0, 0, 0, 0, 0, 0, 0, 0, 0, 0, c.clockReads⟩
      else c.toPerf }

/-- Make the RTS list empty. -/
def clearRts (c : PThreadContext A n) : PThreadContext A n :=
  { c with rtsHead := none, rtsTail := none }

def softswitchInit (th : PThread A n) (c : PThreadContext A n) :
    Outcome A n (PThreadContext A n) := do
  let c := zeroProfileCounters th c
  th.check c .initPointers (!th.pointersAreRelative)
  (List.finRange n).foldlM (initDevice th) (clearRts c)

/-! ## Receiving -/

/-- `cmpAddress` of `softswitch_onReceive`; the size byte is not compared. -/
def cmpAddress (a b : Address) : Bool :=
  if a.thread < b.thread then true
  else if b.thread < a.thread then false
  else if a.device < b.device then true
  else if b.device < a.device then false
  else decide (a.pin < b.pin)

def sameAddress (a b : Address) : Bool :=
  a.thread == b.thread && a.device == b.device && a.pin == b.pin

def softswitchLog (th : PThread A n) (c : PThreadContext A n) (level : Nat)
    (params : List (BitVec 32)) : PThreadContext A n :=
  if th.logs level then c.emit (.softswitchLog level params) else c

/-- The words of an address in a log. -/
def addressParams (a : Address) : List (BitVec 32) :=
  [a.thread, a.device.setWidth 32, a.pin.setWidth 32]

/-- One iteration of the loop over the possible sources.  At the first binding the guard
`begin + 1 != tmp` lets the look back at `tmp - 1` through. -/
def logPossibleSource (th : PThread A n) (bindings : List (InputPinBinding A))
    (c : PThreadContext A n) (i : Nat) : Outcome A n (PThreadContext A n) := do
  let tmp ← c.deref .outOfBounds bindings[i]?
  let c := softswitchLog th c 1 (addressParams tmp.source)
  if i ≠ 1 then
    let before ← c.deref .outOfBounds (if i = 0 then none else bindings[i - 1]?)
    th.check c .onReceiveNeighbours (cmpAddress before.source tmp.source)
  return c

/-- `std::is_sorted` with `cmpAddress`: no element is before its predecessor. -/
def bindingsSorted : List (InputPinBinding A) → Bool
  | a :: b :: bindings => !cmpAddress b.source a.source && bindingsSorted (b :: bindings)
  | _ => true

/-- No edge has the source of the packet. -/
def onReceiveNoEdge (th : PThread A n) (c : PThreadContext A n) (message : Message A)
    (bindings : List (InputPinBinding A)) : Outcome A n Unit :=
  if th.build.asserts then do
    let c := softswitchLog th c 1 (addressParams message.dest ++ addressParams message.source)
    let c ← (List.range bindings.length).foldlM (logPossibleSource th bindings) c
    th.check c .onReceiveSorted (bindingsSorted bindings)
    th.check c .onReceiveNoEdge false
  else .ok ()

/-- Look up the edge of a packet by its source. -/
def findEdge (th : PThread A n) (c : PThreadContext A n) (message : Message A)
    (bindings : List (InputPinBinding A)) : Outcome A n (InputPinBinding A) := do
  let k := LowerBound.lowerBound
    (fun i => (bindings[i]?).any fun a => cmpAddress a.source message.source) bindings.length
  if (bindings[k]?).any fun e => sameAddress e.source message.source then pure () else
    onReceiveNoEdge th c message bindings
  let edge ← c.deref .outOfBounds bindings[k]?
  th.check c .onReceiveNoEdge (sameAddress edge.source message.source)
  return edge

/-- The pin a packet is for, and the edge data its handler is called with. -/
structure ReceiveTarget (A : AppTypes) where
  pin : InputPinVTable A
  eProps : Option A.EdgeProps
  eState : Option Nat

def receiveTarget (th : PThread A n) (c : PThreadContext A n) (d : Fin n)
    (message : Message A) : Outcome A n (ReceiveTarget A) := do
  let pinIndex := message.dest.pin.toNat
  th.check c .onReceivePin (decide (pinIndex < (th.device d).vtable.inputPins.length))
  let pin ← c.deref .outOfBounds (th.device d).vtable.inputPins[pinIndex]?
  if pin.propertiesSize.setWidth 32 ||| pin.stateSize.setWidth 32 = 0#32 then
    return ⟨pin, none, none⟩
  else
    let sources ← c.deref .outOfBounds (th.device d).sources[pinIndex]?
    let edge ← findEdge th c message sources.sourceBindings
    th.check c .onReceiveProps (pin.propertiesSize == 0 || edge.edgeProperties.isSome)
    th.check c .onReceiveState (pin.stateSize == 0 || edge.edgeState.isSome)
    return ⟨pin, edge.edgeProperties, edge.edgeState⟩

/-- A handler writes through the edge state pointer it was given. -/
def storeEdgeState (c : PThreadContext A n) :
    Option Nat → Option A.EdgeState → PThreadContext A n
  | some p, some s => { c with edgeState := Function.update c.edgeState p s }
  | _, _ => c

/-- Call the receive handler. -/
def callReceive (th : PThread A n) (c : PThreadContext A n) (d : Fin n)
    (message : Message A) (target : ReceiveTarget A) : Outcome A n (PThreadContext A n) := do
  let c := { c.track d 1 with currentPin := message.dest.pin.toNat }
  let hstart := tinselCycleCount th c
  let c := c.tick th
  let eState := target.eState.map c.edgeState
  let c := c.enter .receive d
  let c := c.emit (.receiveCall d message.dest.pin.toNat message.source target.eProps eState
    message.payload)
  let r := target.pin.receiveHandler th.graphProps (th.device d).properties
    (c.devices d).state target.eProps eState message.payload
  let c ← runCalls th (storeEdgeState (c.setState d r.state) target.eState r.edgeState) r.calls
  return c.addCycles th hstart fun p t => { p with recvHandlerCycles := p.recvHandlerCycles + t }

/-- `assert(((dev->rtsFlags & 0x7FFFFFFF) != 0) == rts_is_on_list(ctxt, dev))` -/
def checkOnList (th : PThread A n) (c : PThreadContext A n) (a : Assertion) (d : Fin n) :
    Outcome A n Unit :=
  th.checkM c a (rtsIsOnList c d >>= fun b => .ok (wantsSend (c.devices d).rtsFlags == b))

/-- Decode and dispatch a packet for the device `d`, up to the return of its handler. -/
def dispatchReceive (th : PThread A n) (c : PThreadContext A n) (d : Fin n)
    (message : Message A) : Outcome A n (PThreadContext A n) := do
  let target ← receiveTarget th c d message
  callReceive th c d message target

def softswitchOnReceive (th : PThread A n) (c : PThreadContext A n) (message : Message A) :
    Outcome A n (PThreadContext A n) := do
  let tstart := tinselCycleCount th c
  let c := c.tick th
  th.check c .onReceiveSize (decide (th.sizeofPacketHeader ≤ message.source.size.toNat))
  th.check c .onReceiveDevice (decide (message.dest.device.toNat < n))
  if h : message.dest.device.toNat < n then
    let d : Fin n := ⟨message.dest.device.toNat, h⟩
    -- `uint8_t isExternal = dev->isExternal;`
    if (th.device d).isExternal.setWidth 8 ≠ 0#8 then
      th.check c .onReceiveExternal false
      return c.addCycles th tstart fun p t => { p with recvCycles := p.recvCycles + t }
    else
      let c ← dispatchReceive th c d message
      checkOnList th c .onReceiveOnList d
      let c ← softswitchUpdateRTS th c d
      checkOnList th c .onReceiveOnList d
      return c.addCycles th tstart fun p t => { p with recvCycles := p.recvCycles + t }
  else c.fail .outOfBounds

/-! ## Sending -/

/-- A pointer into the array of addresses of an output pin. -/
structure AddressPtr where
  base : List Address
  offset : Nat
deriving DecidableEq

def AddressPtr.get? (p : AddressPtr) : Option Address := p.base[p.offset]?

/-- `p++` -/
def AddressPtr.succ (p : AddressPtr) : AddressPtr := { p with offset := p.offset + 1 }

/-- The loop of `right_most_one`; a zero word has no answer. -/
def rightMostOneFrom : Nat → Nat → BitVec 32 → Option Nat
  | 0, _, _ => none
  | fuel + 1, index, x =>
    if x &&& 1#32 = 0#32 then rightMostOneFrom fuel (index + 1) (x >>> 1) else some index

def rightMostOne (th : PThread A n) (c : PThreadContext A n) (x : BitVec 32) :
    Outcome A n Nat := do
  th.check c .rightMostOne (x != 0)
  c.deref .diverges (rightMostOneFrom 32 0 x)

/-- What `softswitch_onSend` leaves in the buffer and in its reference parameters. -/
structure SendState (A : AppTypes) where
  message : Message A
  numTargets : Nat
  pTargets : Option AddressPtr
  isApp : Bool

/-- Call the send handler of pin `pinIndex` on the payload of the buffer. -/
def callSend (th : PThread A n) (c : PThreadContext A n) (d : Fin n) (pinIndex : Nat)
    (pin : OutputPinVTable A) (payload : A.Payload) :
    Outcome A n (SendResult A.DevState A.Payload × PThreadContext A n) := do
  let hstart := tinselCycleCount th c
  let c := c.tick th
  let c := c.enter .send d
  let r := pin.sendHandler th.graphProps (th.device d).properties (c.devices d).state payload
  let c ← runCalls th (c.setState d r.state) r.calls
  let c := c.emit (.sendReturn d pinIndex r.doSend r.payload)
  return (r, c.addCycles th hstart fun p t =>
    { p with sendHandlerCycles := p.sendHandlerCycles + t })

/-- If there is to be a message, write its header and say where it goes. -/
def writeHeader (th : PThread A n) (c : PThreadContext A n) (d : Fin n) (pinIndex : Nat)
    (pin : OutputPinVTable A) (r : SendResult A.DevState A.Payload) (s : SendState A) :
    Outcome A n (SendState A) :=
  let message := { s.message with payload := r.payload }
  let source : Address :=
    { thread := th.threadId
      device := BitVec.ofNat 16 (th.device d).index
      pin := BitVec.ofNat 8 pinIndex
      size := BitVec.ofNat 8 pin.messageSize }
  if r.doSend then
    if pin.isApp then
      .ok { s with
        message := { message with source := source, type := pin.messageTypeNumid }
        numTargets := 1
        isApp := true }
    else do
      let targets ← c.deref .outOfBounds (th.device d).targets[pinIndex]?
      return {
        message := { message with source := source }
        numTargets := targets.targets.length
        pTargets := some ⟨targets.targets, 0⟩
        isApp := false }
  else .ok { s with message := message }

/-- Count the send, and set the tracking fields. -/
def trackSend (c : PThreadContext A n) (index pinIndex : Nat) : PThreadContext A n :=
  { c.track index 2 with lamport := c.lamport + 1, currentPin := pinIndex }

/-- Returns the size of the message. -/
def softswitchOnSend (th : PThread A n) (c : PThreadContext A n) (message : Message A)
    (isApp : Bool) : Outcome A n (Nat × PThreadContext A n × SendState A) := do
  let tstart := tinselCycleCount th c
  let c := c.tick th
  let c := c.emit .onSend
  let s : SendState A := { message := message, numTargets := 0, pTargets := none, isApp := isApp }
  let (dev, c) ← softswitchPopRTS th c
  match dev with
  | none => return (0, c, s)
  | some d =>
    th.check c .onSendFlags ((c.devices d).rtsFlags != 0)
    let pinIndex ← rightMostOne th c (c.devices d).rtsFlags
    let pin ← c.deref .outOfBounds (th.device d).vtable.outputPins[pinIndex]?
    let c := trackSend c (th.device d).index pinIndex
    let (r, c) ← callSend th c d pinIndex pin message.payload
    th.check c .onSendSize (decide (th.sizeofPacketHeader ≤ pin.messageSize))
    let s ← writeHeader th c d pinIndex pin r s
    let c := c.setRtsFlags d 0#32
    th.checkM c .onSendOnList (rtsIsOnList c d >>= fun b => .ok !b)
    let c ← softswitchUpdateRTS th c d
    return (pin.messageSize,
      c.addCycles th tstart fun p t => { p with sendCycles := p.sendCycles + t }, s)

/-! ## Idling -/

/-- `IDLE_SWEEP_CHUNK_SIZE` -/
def idleSweepChunkSize : Nat := 32

/-- Move the search on by one device. -/
def advanceSearch (c : PThreadContext A n) : PThreadContext A n :=
  let offset := (c.rtcOffset + 1) % 2 ^ 32
  { c with
    rtcChecked := (c.rtcChecked + 1) % 2 ^ 32
    rtcOffset := if n ≤ offset then 0 else offset }

/-- Look at the next device, for as long as none wants to compute. -/
def idleSweep : Nat → PThreadContext A n →
    Outcome A n (Option (Fin n) × PThreadContext A n)
  | 0, c => .ok (none, c)
  | fuel + 1, c =>
    if h : c.rtcOffset < n then
      let d : Fin n := ⟨c.rtcOffset, h⟩
      let c := advanceSearch c
      if wantsCompute (c.devices d).rtsFlags then .ok (some d, c) else idleSweep fuel c
    else c.fail .outOfBounds

/-- Call the compute handler.  Unlike the other events, `softswitch_onIdle` does not set
the tracking fields. -/
def callCompute (th : PThread A n) (c : PThreadContext A n) (d : Fin n) :
    Outcome A n (PThreadContext A n) :=
  let c := c.enter .compute d
  let r := (th.device d).vtable.computeHandler th.graphProps (th.device d).properties
    (c.devices d).state
  runCalls th (c.setState d r.state) r.calls

/-- Returns whether there may be more to do. -/
def softswitchOnIdle (th : PThread A n) (c : PThreadContext A n) :
    Outcome A n (Bool × PThreadContext A n) := do
  if n ≤ c.rtcChecked then return (false, c)
  else
    let (dev, c) ← idleSweep idleSweepChunkSize c
    match dev with
    | none => return (true, c)
    | some d =>
      let c ← callCompute th c d
      checkOnList th c .onIdleOnList d
      let c ← softswitchUpdateRTS th c d
      return (true, c)

/-- The body of the loop of `softswitch_on_hardware_idle`. -/
def hardwareIdleDevice (th : PThread A n) (c : PThreadContext A n) (d : Fin n) :
    Outcome A n (PThreadContext A n) := do
  th.check c .hardwareIdleFlags ((c.devices d).rtsFlags == 0)
  th.checkM c .hardwareIdleOnList (rtsIsOnList c d >>= fun b => .ok !b)
  match (th.device d).vtable.onHardwareIdleHandler with
  | none => return c
  | some handler =>
    let c := c.track d 5
    let c := c.enter .hardwareIdle d
    let r := handler th.graphProps (th.device d).properties (c.devices d).state
    let c ← runCalls th (c.setState d r.state) r.calls
    softswitchUpdateRTS th c d

def softswitchOnHardwareIdle (th : PThread A n) (c : PThreadContext A n) :
    Outcome A n (PThreadContext A n) := do
  let c ← (List.finRange n).foldlM (hardwareIdleDevice th) (clearRts c)
  return { c with currentHandlerType := 0 }

/-! ## Runs of events -/

/-- The calls `softswitch_main` makes on a thread context. -/
inductive ThreadEvent (A : AppTypes) where
  | receive (message : Message A)
  | send (message : Message A) (isApp : Bool)
  | idle
  | hardwareIdle

def threadStep (th : PThread A n) (c : PThreadContext A n) :
    ThreadEvent A → Outcome A n (PThreadContext A n)
  | .receive message => softswitchOnReceive th c message
  | .send message isApp => softswitchOnSend th c message isApp >>= fun r => .ok r.2.1
  | .idle => softswitchOnIdle th c >>= fun r => .ok r.2
  | .hardwareIdle => softswitchOnHardwareIdle th c

/-- `softswitch_init`, then the events in order. -/
def threadRun (th : PThread A n) (c : PThreadContext A n) (events : List (ThreadEvent A)) :
    Outcome A n (PThreadContext A n) := do
  let c ← softswitchInit th c
  Outcome.runList (threadStep th) c events

/-- The context a computation ends or stops in. -/
def lastContext : Outcome A n (PThreadContext A n) → PThreadContext A n
  | .ok c => c
  | .error s => s.ctxt

end Softswitch
