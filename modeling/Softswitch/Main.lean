import Softswitch.Events

/-!
# The main loop

`softswitch_main`, cut where the thread blocks: `loopTop` runs from the loop top to just
before the block that waits (`tinsel_mboxIdle` or `tinsel_mboxWaitUntil`), `wake` runs
from there back to the loop top.  What the mailbox answers when it is polled, what
`tinsel_mboxIdle` returns and which message is received are inputs.
-/

namespace Softswitch

variable {A : AppTypes} {n : Nat}

/-- The snapshots taken at the loop top. -/
structure WaitLocals where
  adequateHostBufferSpace : Bool
  hostBufferEmpty : Bool
  wantToSend : Bool
deriving DecidableEq

/-- Where the thread is. -/
inductive Pc where
  /-- The loop of a thread without devices. -/
  | parked
  | top
  /-- About to wait. -/
  | wait (w : WaitLocals)
deriving DecidableEq

/-- The context and the locals of `softswitch_main`. -/
structure Main (A : AppTypes) (n : Nat) where
  ctxt : PThreadContext A n
  currSendAddressList : Option AddressPtr
  currSendTodo : Nat
  currSize : Nat
  isApp : Bool
  sendBuffer : Message A
  startPerfmon : Bool
  perfmonFlushRateCnt : Nat
  pc : Pc

/-- What comes from outside in one step. -/
structure LoopInput (A : AppTypes) where
  /-- `tinsel_mboxCanRecv()` -/
  canRecv : Bool
  /-- `tinsel_mboxCanSend()` -/
  canSend : Bool
  /-- The result of `tinsel_mboxIdle`. -/
  doHardwareIdle : Bool
  /-- The message `tinsel_mboxRecv` returns. -/
  message : Message A

/-- `softswitch_main` up to the loop, with whatever the send slot holds. -/
def softswitchMain (th : PThread A n) (c : PThreadContext A n) (sendBuffer : Message A) :
    Outcome A n (Main A n) :=
  if n = 0 then
    .ok ⟨c, none, 0, 0, false, sendBuffer, false, 1, .parked⟩
  else do
    let c ← softswitchInit th { c with hbufHead := 0, hbufTail := 0, hostPending := 0 }
    let tstart := tinselCycleCount th c
    let c := (c.tick th).mapPerf fun p =>
      { p with
        threadCyclesTstart := if th.build.enableProfile.isSome then tstart
          else p.threadCyclesTstart }
    return ⟨c, none, 0, 0, false, sendBuffer, false, 1, .top⟩

/-! ## From the loop top to the wait -/

/-- The flush of the performance counters. -/
def perfmonFlush (th : PThread A n) (c : PThreadContext A n) : PThreadContext A n :=
  let threadEnd := tinselCycleCount th c
  let c := (c.tick th).mapPerf fun p =>
    { p with threadCycles := deltaCycles p.threadCyclesTstart threadEnd }
  let threadStart := tinselCycleCount th c
  let c := (c.tick th).mapPerf fun p => { p with threadCyclesTstart := threadStart }
  let c := softswitchFlushPerfmon th (makeSpace c)
  let flushEnd := tinselCycleCount th c
  (c.tick th).mapPerf fun p => { p with perfmonCycles := deltaCycles threadStart flushEnd }

/-- What a build that profiles does when there was no idle work. -/
def perfmonIdle (th : PThread A n) (s : Main A n) (idleStart : BitVec 32) : Main A n :=
  match th.build.enableProfile with
  | none => s
  | some rate =>
    if s.startPerfmon then
      let c := s.ctxt.addCycles th idleStart fun p t => { p with idleCycles := p.idleCycles + t }
      if s.perfmonFlushRateCnt < rate then
        { s with ctxt := c, perfmonFlushRateCnt := s.perfmonFlushRateCnt + 1 }
      else { s with ctxt := perfmonFlush th c, perfmonFlushRateCnt := 1 }
    else { s with startPerfmon := true }

/-- The snapshots. -/
def waitLocals (s : Main A n) : WaitLocals :=
  let hostBufferEmpty := hostMsgBufferSize s.ctxt == 0
  { adequateHostBufferSpace := decide (maxHostPerHandler ≤ hostMsgBufferSpace s.ctxt)
    hostBufferEmpty := hostBufferEmpty
    wantToSend := decide (0 < s.currSendTodo) || softswitchIsRTSReady s.ctxt ||
      !hostBufferEmpty }

def loopTop (th : PThread A n) (s : Main A n) (i : LoopInput A) :
    Outcome A n (Main A n) := do
  let w := waitLocals s
  let idleStart := tinselCycleCount th s.ctxt
  let s := { s with ctxt := s.ctxt.tick th }
  if !i.canRecv && (!w.wantToSend || !i.canSend) then
    let (more, c) ← softswitchOnIdle th s.ctxt
    let s := { s with ctxt := c }
    if more then return { s with pc := .top }
    else return { perfmonIdle th s idleStart with pc := .wait w }
  else return { s with pc := .wait w }

/-! ## Waking up -/

/-- `while(!adequateHostBufferSpace)` -/
def drainToAdequate : Nat → PThreadContext A n → Outcome A n (PThreadContext A n)
  | 0, c => c.fail .diverges
  | fuel + 1, c =>
    let c := hostMessageSlowPopSend c
    if maxHostPerHandler ≤ hostMsgBufferSpace c then .ok c else drainToAdequate fuel c

/-- Make space, if there was too little of it at the loop top. -/
def makeAdequate (c : PThreadContext A n) (w : WaitLocals) :
    Outcome A n (PThreadContext A n) :=
  if w.adequateHostBufferSpace then .ok c else drainToAdequate hostbufferSize c

/-- Receive and dispatch a message. -/
def receiveBranch (th : PThread A n) (s : Main A n) (i : LoopInput A) :
    Outcome A n (Main A n) := do
  th.check s.ctxt .mainCanRecv i.canRecv
  let c ← softswitchOnReceive th (s.ctxt.emit (.mboxRecv i.message)) i.message
  return { s with ctxt := c }

/-- `*p`, for the pointer into the address list. -/
def derefAddress (c : PThreadContext A n) (p : Option AddressPtr) : Outcome A n Address := do
  let p ← c.deref .nullDeref p
  c.deref .outOfBounds p.get?

/-- `tinsel_mboxSend(dest, sendBuffer)` -/
def mboxSendBuffer (s : Main A n) (dest : BitVec 32) : Main A n :=
  { s with ctxt := s.ctxt.emit (.mboxSend dest s.ctxt.mboxLen s.sendBuffer) }

/-- The places where `softswitch_main` dereferences `currSendAddressList`. -/
inductive AddressUse where
  /-- An argument of the log statement. -/
  | log
  /-- The copy of the address into the send buffer. -/
  | destCopy
  /-- The test for a target on this thread. -/
  | intraThreadTest
  /-- An argument of `tinsel_mboxSend`. -/
  | mboxSend
deriving DecidableEq

/-- How the delivery reads `currSendAddressList` and calls a receive function.  The delivery is
written once, over any reader: `Reader.plain` gives what the thread does, and a reader that
also notes what it reads gives the dereferences on the way. -/
structure Reader (A : AppTypes) (n : Nat) (M : Type → Type) where
  read : AddressUse → PThreadContext A n → Option AddressPtr → M Address
  call : Outcome A n (Main A n) → M (Main A n)

def Reader.plain : Reader A n (Outcome A n) where
  read _ := derefAddress
  call := id

/-- Call the receive function of this thread on the send buffer. -/
def directDeliver (th : PThread A n) (s : Main A n) : Outcome A n (Main A n) := do
  let c ← softswitchOnReceive th s.ctxt s.sendBuffer
  return { s with ctxt := c }

/-- A message to the host goes to the host only. -/
def nextTarget (s : Main A n) : Main A n :=
  if s.isApp then s
  else { s with
    currSendTodo := s.currSendTodo - 1
    currSendAddressList := s.currSendAddressList.map AddressPtr.succ }

section

variable {M : Type → Type} [Monad M] (R : Reader A n M)

/-- Deliver the send buffer through the mailbox. -/
def mailboxDeliverBy (th : PThread A n) (s : Main A n) : M (Main A n) := do
  let s := { s with ctxt := tinselMboxSetLen s.ctxt s.currSize }
  if s.isApp then
    let s := { s with ctxt := tinselMboxSetLen s.ctxt 64 }
    return { mboxSendBuffer s th.hostId with currSendTodo := 0 }
  else
    let addr ← R.read .mboxSend s.ctxt s.currSendAddressList
    return mboxSendBuffer s addr.thread

/-- Write the address of the current target into the send buffer. -/
def retargetBy (s : Main A n) : M (Main A n) :=
  if s.isApp then pure s
  else do
    let addr ← R.read .destCopy s.ctxt s.currSendAddressList
    return { s with sendBuffer := { s.sendBuffer with dest := addr } }

/-- The current target is on this thread, and may be called directly. -/
def deliversDirectlyBy (th : PThread A n) (s : Main A n) (adequate : Bool) : M Bool :=
  if th.build.enableIntraThreadSend then do
    let addr ← R.read .intraThreadTest s.ctxt s.currSendAddressList
    return addr.thread == th.myId && adequate
  else pure false

/-- Deliver to the current target and move on to the next one. -/
def deliverBy (th : PThread A n) (s : Main A n) (adequate : Bool) : M (Main A n) := do
  -- "sending to thread %x, device %u, pin %u"
  if th.logs 3 then
    let _ ← R.read .log s.ctxt s.currSendAddressList
  let s ← retargetBy R s
  let direct ← deliversDirectlyBy R th s adequate
  let s ← if direct then R.call (directDeliver th s) else mailboxDeliverBy R th s
  return nextTarget s

end

def mailboxDeliver (th : PThread A n) (s : Main A n) : Outcome A n (Main A n) :=
  mailboxDeliverBy .plain th s

def retarget (s : Main A n) : Outcome A n (Main A n) :=
  retargetBy .plain s

def deliversDirectly (th : PThread A n) (s : Main A n) (adequate : Bool) : Outcome A n Bool :=
  deliversDirectlyBy .plain th s adequate

def deliver (th : PThread A n) (s : Main A n) (adequate : Bool) : Outcome A n (Main A n) :=
  deliverBy .plain th s adequate

theorem mailboxDeliver_eq (th : PThread A n) (s : Main A n) : mailboxDeliver th s =
    let s := { s with ctxt := tinselMboxSetLen s.ctxt s.currSize }
    if s.isApp then
      let s := { s with ctxt := tinselMboxSetLen s.ctxt 64 }
      .ok { mboxSendBuffer s th.hostId with currSendTodo := 0 }
    else do
      let addr ← derefAddress s.ctxt s.currSendAddressList
      return mboxSendBuffer s addr.thread := rfl

theorem retarget_eq (s : Main A n) : retarget s =
    if s.isApp then .ok s
    else do
      let addr ← derefAddress s.ctxt s.currSendAddressList
      return { s with sendBuffer := { s.sendBuffer with dest := addr } } := rfl

theorem deliversDirectly_eq (th : PThread A n) (s : Main A n) (adequate : Bool) :
    deliversDirectly th s adequate =
      if th.build.enableIntraThreadSend then do
        let addr ← derefAddress s.ctxt s.currSendAddressList
        return addr.thread == th.myId && adequate
      else .ok false := rfl

theorem deliver_eq (th : PThread A n) (s : Main A n) (adequate : Bool) :
    deliver th s adequate = do
      if th.logs 3 then
        let _ ← derefAddress s.ctxt s.currSendAddressList
      let s ← retarget s
      let direct ← deliversDirectly th s adequate
      let s ← if direct then directDeliver th s else mailboxDeliver th s
      return nextTarget s := rfl

/-- Prepare a new message, when no message is being sent. -/
def prepare (th : PThread A n) (s : Main A n) : Outcome A n (Main A n) :=
  if s.currSendTodo = 0 then do
    let (size, c, r) ← softswitchOnSend th s.ctxt s.sendBuffer s.isApp
    return { s with
      ctxt := { c with currentSize := size }
      currSize := size
      sendBuffer := r.message
      currSendTodo := r.numTargets
      currSendAddressList := r.pTargets
      isApp := r.isApp }
  else .ok s

def sendBranch (th : PThread A n) (s : Main A n) (w : WaitLocals) (adequate : Bool)
    (i : LoopInput A) : Outcome A n (Main A n) := do
  th.check s.ctxt .mainWantToSend w.wantToSend
  th.check s.ctxt .mainCanSend i.canSend
  if !w.hostBufferEmpty then
    return { s with ctxt := hostMessageBufferPopSend th s.ctxt }
  else
    let s ← prepare th s
    if 0 < s.currSendTodo then deliver th s adequate else return s

/-- Choose between receiving and sending. -/
def act (th : PThread A n) (s : Main A n) (w : WaitLocals) (adequate : Bool)
    (i : LoopInput A) : Outcome A n (Main A n) :=
  if th.build.enableSendOverRecv then
    if i.canSend && w.wantToSend then sendBranch th s w adequate i
    else receiveBranch th s i
  else if i.canRecv && adequate then receiveBranch th s i
  else do
    th.check s.ctxt .mainCanSend (i.canSend && w.wantToSend)
    sendBranch th s w adequate i

/-- Wait, in the way that is right for `wantToSend`. -/
def waitPhase (th : PThread A n) (s : Main A n) (w : WaitLocals) :
    Outcome A n (Main A n) := do
  let blockedStart := tinselCycleCount th s.ctxt
  let c := s.ctxt.tick th
  if th.build.enableHardwareIdle && !w.wantToSend then
    th.check c .mainIdleFlags (decide (∀ d, (c.devices d).rtsFlags = 0))
  return { s with ctxt := c.addCycles th blockedStart fun p t =>
    if w.wantToSend then { p with sendBlockedCycles := p.sendBlockedCycles + t }
    else { p with recvBlockedCycles := p.recvBlockedCycles + t } }

/-- The rest of the iteration. -/
def wake (th : PThread A n) (s : Main A n) (w : WaitLocals) (i : LoopInput A) :
    Outcome A n (Main A n) := do
  let s ← waitPhase th s w
  if th.build.enableHardwareIdle && !w.wantToSend && i.doHardwareIdle then
    let c ← softswitchOnHardwareIdle th s.ctxt
    return { s with ctxt := c, pc := .top }
  else
    let c ← makeAdequate s.ctxt w
    let s ← act th { s with ctxt := c } w true i
    return { s with pc := .top }

/-! ## Runs of the main loop -/

def mainStep (th : PThread A n) (s : Main A n) (i : LoopInput A) : Outcome A n (Main A n) :=
  match s.pc with
  | .parked => .ok s
  | .top => loopTop th s i
  | .wait w => wake th s w i

def mainRun (th : PThread A n) (c : PThreadContext A n) (sendBuffer : Message A)
    (inputs : List (LoopInput A)) : Outcome A n (Main A n) := do
  let s ← softswitchMain th c sendBuffer
  Outcome.runList (mainStep th) s inputs

end Softswitch
