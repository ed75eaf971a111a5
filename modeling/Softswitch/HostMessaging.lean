import Softswitch.Basic

/-!
# Host messages

`softswitch_hostmessaging.cpp` and the handler log of `softswitch_hostmessaging.hpp`:
the ring buffer of host messages, its two ways out (a mailbox send from the extra slot
and the UART), and the services a handler can call.  `deltaCycles` and the flush of the
performance counters are here too.
-/

namespace Softswitch

variable {A : AppTypes} {n : Nat}

/-- `HOSTBUFFER_SIZE` -/
def hostbufferSize : Nat := 40

/-- `MAX_HOST_PER_HANDLER` -/
def maxHostPerHandler : Nat := 2

/-! ## The ring buffer -/

/-- The number of pending host messages, as the source computes it from the indices. -/
def hostMsgBufferSize (c : PThreadContext A n) : Nat :=
  if c.hbufTail < c.hbufHead then (c.hbufTail + hostbufferSize) - c.hbufHead
  else c.hbufTail - c.hbufHead

def hostMsgBufferSpace (c : PThreadContext A n) : Nat :=
  hostbufferSize - hostMsgBufferSize c

/-- Increment an index of the ring buffer. -/
def wrapNext (i : Nat) : Nat :=
  if i + 1 = hostbufferSize then 0 else i + 1

def hostMsgBufferPush (c : PThreadContext A n) (msg : HostMsg) : PThreadContext A n :=
  { c with
    hostBuffer := Function.update c.hostBuffer c.hbufTail msg
    hbufTail := wrapNext c.hbufTail
    hostPending := c.hostPending + 1 }

def tinselMboxSetLen (c : PThreadContext A n) (len : Nat) : PThreadContext A n :=
  { c with mboxLen := len }

/-- Pop a message and send it from the extra slot. -/
def hostMessageBufferPopSend (th : PThread A n) (c : PThreadContext A n) :
    PThreadContext A n :=
  let c := tinselMboxSetLen c th.sizeofHostMsg
  let hmsg := c.hostBuffer c.hbufHead
  let c := { c with hbufHead := wrapNext c.hbufHead, hostPending := c.hostPending - 1 }
  c.emit (.mboxSendExtra th.hostId c.mboxLen hmsg)

/-- Pop a message and pass it up the UART. -/
def hostMessageSlowPopSend (c : PThreadContext A n) : PThreadContext A n :=
  let hmsg := c.hostBuffer c.hbufHead
  let c := c.emit (.uart hmsg)
  { c with hbufHead := wrapNext c.hbufHead, hostPending := c.hostPending - 1 }

/-- Pop a message if there is no space for another one. -/
def makeSpace (c : PThreadContext A n) : PThreadContext A n :=
  if hostMsgBufferSpace c = 0 then hostMessageSlowPopSend c else c

def directHostMessageSlowSend (c : PThreadContext A n) (msg : HostMsg) :
    PThreadContext A n :=
  c.emit (.uart msg)

/-! ## The handler log -/

/-- `msg.payload[i] = v` -/
def storePayload (c : PThreadContext A n) (msg : HostMsg) (i : Nat) (v : BitVec 32) :
    PThreadContext A n × HostMsg :=
  if i < msg.payload.length then (c, { msg with payload := msg.payload.set i v })
  else (c.emit (.strayStore i), msg)

/-- Peel the parameters off the argument list, then send. -/
def logPeelParams (c : PThreadContext A n) (hmsg : HostMsg) (cnt : Nat) :
    List (BitVec 32) → PThreadContext A n × Nat
  | [] => (directHostMessageSlowSend (makeSpace c) hmsg, cnt)
  | p :: params =>
    let r := storePayload c hmsg cnt p
    logPeelParams r.1 r.2 (cnt + 1) params

/-- The name of the pin of a receive or a send handler. -/
def logPinName (th : PThread A n) (c : PThreadContext A n) (dev : DeviceFixed A) :
    Outcome A n (BitVec 32) :=
  if c.currentHandlerType = 1 then
    (c.deref .outOfBounds dev.vtable.inputPins[c.currentPin]?) >>= fun p => .ok p.name
  else if c.currentHandlerType = 2 then
    (c.deref .outOfBounds dev.vtable.outputPins[c.currentPin]?) >>= fun p => .ok p.name
  else .ok th.uninitPin

def softswitchHandlerLogImpl (th : PThread A n) (c : PThreadContext A n) (level : Int)
    (pc msg : BitVec 32) (params : List (BitVec 32)) : Outcome A n (PThreadContext A n) := do
  th.check c .handlerLogType (c.currentHandlerType != 0)
  th.check c .handlerLogDevice (decide (c.currentDevice < n))
  if th.applLogLevel < level then return c
  else if h : c.currentDevice < n then do
    let dev := th.device ⟨c.currentDevice, h⟩
    let pin ← logPinName th c dev
    let hmsg : HostMsg :=
      { source := { th.uninitHostMsg.source with
          thread := th.myId, device := BitVec.ofNat 16 dev.index }
        type := 0xF0
        payload := (((th.uninitHostMsg.payload.set 0 msg).set 1
          ((pc <<< 8) ||| BitVec.ofNat 32 c.currentHandlerType)).set 2 pin).set 3 dev.id }
    let r := logPeelParams c hmsg 4 params
    th.check r.1 .handlerLogSize (decide (r.2 ≤ th.hostMsgPayload))
    return r.1
  else c.fail .outOfBounds

/-! ## The log of the softswitch -/

/-- Peel the parameters off the argument list, then send. -/
def logPeelParamsSs (c : PThreadContext A n) (hmsg : HostMsg) (cnt : Nat) :
    List (BitVec 32) → PThreadContext A n × Nat
  | [] => (directHostMessageSlowSend c hmsg, cnt)
  | p :: params =>
    let r := storePayload c hmsg cnt p
    logPeelParamsSs r.1 r.2 (cnt + 1) params

/-- What a log statement of the softswitch calls.  It is held to the level of the application. -/
def softswitchSoftswitchLogImpl (th : PThread A n) (c : PThreadContext A n) (level : Int)
    (pc msg : BitVec 32) (params : List (BitVec 32)) : Outcome A n (PThreadContext A n) := do
  if th.applLogLevel < level then return c
  else
    let hmsg : HostMsg :=
      { source := { th.uninitHostMsg.source with thread := th.myId, device := 0xFFFF }
        type := 0xF0
        payload := (((th.uninitHostMsg.payload.set 0 msg).set 1 (pc <<< 8)).set 2 0).set 3 0 }
    let r := logPeelParamsSs c hmsg 4 params
    th.check r.1 .softswitchLogSize (decide (r.2 ≤ th.hostMsgPayload))
    return r.1

/-! ## Exit, and the services of a handler -/

/-- `while(hostMsgBufferSize() > 0) hostMessageSlowPopSend();` -/
def drainHostBuffer : Nat → PThreadContext A n → Outcome A n (PThreadContext A n)
  | 0, c => if hostMsgBufferSize c > 0 then c.fail .diverges else .ok c
  | fuel + 1, c =>
    if hostMsgBufferSize c > 0 then drainHostBuffer fuel (hostMessageSlowPopSend c) else .ok c

def softswitchHandlerExit (th : PThread A n) (c : PThreadContext A n) (code : BitVec 32) :
    Outcome A n (PThreadContext A n) := do
  let c ← drainHostBuffer hostbufferSize c
  return directHostMessageSlowSend c
    { source := { th.uninitHostMsg.source with thread := th.myId }
      type := 0xFF
      payload := th.uninitHostMsg.payload.set 0 code }

/-- Run one service. -/
def runCall (th : PThread A n) (c : PThreadContext A n) :
    HandlerCall → Outcome A n (PThreadContext A n)
  | .handlerLog level pc msg params => softswitchHandlerLogImpl th c level pc msg params
  | .hostMsgBufferPush msg => .ok (hostMsgBufferPush c msg)
  | .handlerExit code => softswitchHandlerExit th c code
  | .assert ok => do
    th.check c .application ok
    return c

/-- Run the services a handler called, in order. -/
def runCalls (th : PThread A n) (c : PThreadContext A n) (calls : List HandlerCall) :
    Outcome A n (PThreadContext A n) :=
  Outcome.runList (runCall th) c calls

/-! ## Cycle counting -/

/-- `deltaCycles`; `0x100000000` vanishes in the conversion back to 32 bits. -/
def deltaCycles (tstart tend : BitVec 32) : BitVec 32 :=
  if tstart < tend then tend - tstart
  else BitVec.ofNat 32 ((tend - tstart).toNat + 0x100000000)

/-- `tinsel_CycleCount()`, in a build that profiles. -/
def tinselCycleCount (th : PThread A n) (c : PThreadContext A n) : BitVec 32 :=
  BitVec.ofNat 32 (th.clock c.clockReads)

def PThreadContext.mapPerf (c : PThreadContext A n) (f : Perf → Perf) : PThreadContext A n :=
  { c with toPerf := f c.toPerf }

/-- One reading of the cycle counter, in a build that profiles. -/
def PThreadContext.tick (th : PThread A n) (c : PThreadContext A n) : PThreadContext A n :=
  c.mapPerf fun p =>
    { p with
      clockReads := if th.build.enableProfile.isSome then p.clockReads + 1 else p.clockReads }

/-- In a build that profiles, `counter += deltaCycles(tstart, tinsel_CycleCount())`, where
`add` adds to the counter. -/
def PThreadContext.addCycles (th : PThread A n) (c : PThreadContext A n) (tstart : BitVec 32)
    (add : Perf → BitVec 32 → Perf) : PThreadContext A n :=
  c.mapPerf fun p =>
    if th.build.enableProfile.isSome then
      add (c.tick th).toPerf (deltaCycles tstart (tinselCycleCount th c))
    else p

/-- Store `words` from word `i` of the payload on. -/
def storeWords (c : PThreadContext A n) (msg : HostMsg) (i : Nat) :
    List (BitVec 32) → PThreadContext A n × HostMsg
  | [] => (c, msg)
  | w :: words =>
    let r := storePayload c msg i w
    storeWords r.1 r.2 (i + 1) words

/-- Push a message whose payload starts with `words`. -/
def pushWords (c : PThreadContext A n) (msg : HostMsg) (words : List (BitVec 32)) :
    PThreadContext A n :=
  let r := storeWords c msg 0 words
  hostMsgBufferPush r.1 r.2

/-- Push the performance counters onto the host buffer and reset them. -/
def softswitchFlushPerfmon (th : PThread A n) (c : PThreadContext A n) :
    PThreadContext A n :=
  let msg : HostMsg :=
    { source := { th.uninitHostMsg.source with thread := th.myId }
      type := 0xE0
      payload := th.uninitHostMsg.payload }
  let c := pushWords c msg [c.threadCycles, c.sendBlockedCycles, c.recvBlockedCycles,
    c.idleCycles, c.perfmonCycles, c.sendCycles, c.sendHandlerCycles, c.recvCycles,
    c.recvHandlerCycles]
  c.mapPerf fun p =>
    { p with
      threadCycles := 0
      sendBlockedCycles := 0
      recvBlockedCycles := 0
      idleCycles := 0
      perfmonCycles := 0
      sendCycles := 0
      sendHandlerCycles := 0
      recvCycles := 0
      recvHandlerCycles := 0 }

end Softswitch
