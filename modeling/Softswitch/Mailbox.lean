import Softswitch.Lib.Monitor
import Softswitch.Lib.Tally

/-!
# The mailbox

`TinselMbox` of `tinsel_mbox.hpp`, which software and network threads share.  Its operations
hold a mutex and wait on one condition variable.  The mailbox is only part of builds with
assertions, and so every `assert` is checked.  The log is left out.
-/

namespace Softswitch

open Monitor Function

/-- The template parameters of `TinselMbox`. -/
structure MboxParams where
  logMsgsPerThread : Nat
  logWordsPerFlit : Nat
  logMaxFlitsPerMsg : Nat

namespace MboxParams

def msgsPerThread (P : MboxParams) : Nat := 2 ^ P.logMsgsPerThread

def wordsPerMsg (P : MboxParams) : Nat := 2 ^ (P.logWordsPerFlit + P.logMaxFlitsPerMsg)

/-- `4*WordsPerMsg` -/
def bytesPerMsg (P : MboxParams) : Nat := 4 * P.wordsPerMsg

theorem msgsPerThread_pos (P : MboxParams) : 0 < P.msgsPerThread := Nat.two_pow_pos _

end MboxParams

inductive MsgStatus where
  | softwareOwned
  | hardwareSend
  | hardwareEmpty
  | hardwareFull
deriving DecidableEq

/-- The bytes of `uint32_t buffer[WordsPerMsg]`. -/
abbrev MboxBuffer (P : MboxParams) := Fin P.bytesPerMsg → BitVec 8

structure Slot (P : MboxParams) where
  status : MsgStatus
  buffer : MboxBuffer P

/-- The registers of a send hold nothing until they are first written. -/
structure TinselMbox (P : MboxParams) where
  myThreadId : BitVec 32
  slots : Fin P.msgsPerThread → Slot P
  numSlotsEmpty : Nat
  numSlotsFull : Nat
  sendActive : Bool
  sendAddress : Option (BitVec 32)
  sendSlot : Option (Fin P.msgsPerThread)
  sendLength : Option Nat

/-- The assertions of `tinsel_mbox.hpp`. -/
inductive MboxAssertion where
  | checkSlotsEmpty
  | checkSlotsFull
  | findSlot
  | recvCount
  | recvSlot
  | allocOwned
  | canSendSlot
  | setLenIdle
  | sendIdle
  | sendOwned
  | waitUntilCond
  | pullLength
  | pullSlot
  | pushThread
  | pushLength
  | pushSlot
deriving DecidableEq

inductive MboxFault where
  | assertion (a : MboxAssertion)
  | outOfBounds
  | uninitialised
deriving DecidableEq

variable {P : MboxParams}

/-- What an operation did, with the values it returned.  `recv` and `send` also record what is
in the buffer at that moment. -/
inductive MboxEvent (P : MboxParams) where
  | canRecv (result : Bool)
  | recv (slot : Fin P.msgsPerThread) (buffer : MboxBuffer P)
  | alloc (slot : Fin P.msgsPerThread)
  | canSend (result : Bool)
  | setLen (byteLength : Nat)
  | send (address : BitVec 32) (slot : Fin P.msgsPerThread) (buffer : MboxBuffer P)
  | woken
  | pull (threadId : BitVec 32) (byteLength : Nat) (data : List (BitVec 8))
  | noPull
  | push (data : List (BitVec 8))
  | noPush
  | write (slot : Fin P.msgsPerThread) (buffer : MboxBuffer P)

/-- The mailbox after an operation, whether it has called `notify_all`, and what it did. -/
abbrev MboxResult (P : MboxParams) :=
  Except MboxFault (TinselMbox P × Bool × MboxEvent P)

/-- `assert(ok)` -/
def require (a : MboxAssertion) (ok : Bool) : Except MboxFault Unit :=
  if ok then .ok () else .error (.assertion a)

/-- Read a register. -/
def readRegister {α : Type} : Option α → Except MboxFault α
  | some a => .ok a
  | none => .error .uninitialised

/-- `memcpy(buffer, data, n)`, where `n` is the length of the data. -/
def copyIn (buffer : MboxBuffer P) (data : List (BitVec 8)) : MboxBuffer P :=
  fun k => if h : k.val < data.length then data[k.val] else buffer k

/-- `memcpy(data, buffer, n)` -/
def copyOut (buffer : MboxBuffer P) (n : Nat) : List (BitVec 8) := (List.ofFn buffer).take n

def tinselCanSend : BitVec 32 := 1#32

def tinselCanRecv : BitVec 32 := 2#32

/-- What a thread in a mailbox operation waits for. -/
inductive MboxWait where
  | wakeup (cond : BitVec 32)
  | pull
  | push (data : List (BitVec 8)) (rand : Nat)

namespace TinselMbox

/-- A new mailbox after `init`: all slots start with software, and the registers of a send and
the buffers are not initialised. -/
def init (threadId : BitVec 32) (buffer : Fin P.msgsPerThread → MboxBuffer P) :
    TinselMbox P where
  myThreadId := threadId
  slots i := ⟨.softwareOwned, buffer i⟩
  numSlotsEmpty := 0
  numSlotsFull := 0
  sendActive := false
  sendAddress := none
  sendSlot := none
  sendLength := none

/-- The number of slots with a status. -/
def countSlots (m : TinselMbox P) (status : MsgStatus) : Nat :=
  Tally.tally (fun s : Slot P => s.status = status) m.slots

def checkSlots (m : TinselMbox P) : Except MboxFault Unit := do
  require .checkSlotsEmpty (decide (m.countSlots .hardwareEmpty = m.numSlotsEmpty))
  require .checkSlotsFull (decide (m.countSlots .hardwareFull = m.numSlotsFull))

/-- `p` is the address of the buffer of a slot, or another address. -/
def findSlot (p : Option (Fin P.msgsPerThread)) : Except MboxFault (Fin P.msgsPerThread) :=
  match (List.finRange P.msgsPerThread).find? fun i => some i == p with
  | some i => .ok i
  | none => .error (.assertion .findSlot)

def setStatus (m : TinselMbox P) (i : Fin P.msgsPerThread) (status : MsgStatus) : TinselMbox P :=
  { m with slots := update m.slots i { m.slots i with status := status } }

/-! ## Tinsel side -/

def mboxCanRecv (m : TinselMbox P) : MboxResult P :=
  .ok (m, false, .canRecv (decide (0 < m.numSlotsFull)))

/-- Slot `i` goes to software. -/
def takeFull (m : TinselMbox P) (i : Fin P.msgsPerThread) : TinselMbox P :=
  { m.setStatus i .softwareOwned with numSlotsFull := m.numSlotsFull - 1 }

def mboxRecv (m : TinselMbox P) : MboxResult P := do
  m.checkSlots
  require .recvCount (decide (0 < m.numSlotsFull))
  match (List.finRange P.msgsPerThread).find? fun i => (m.slots i).status = .hardwareFull with
  | none => throw .outOfBounds
  | some i =>
    require .recvSlot (decide ((m.slots i).status = .hardwareFull))
    (m.takeFull i).checkSlots
    return (m.takeFull i, false, .recv i (m.slots i).buffer)

/-- Slot `i` goes to the network. -/
def giveEmpty (m : TinselMbox P) (i : Fin P.msgsPerThread) : TinselMbox P :=
  { m.setStatus i .hardwareEmpty with numSlotsEmpty := m.numSlotsEmpty + 1 }

def mboxAlloc (m : TinselMbox P) (p : Option (Fin P.msgsPerThread)) : MboxResult P := do
  m.checkSlots
  let i ← findSlot p
  require .allocOwned (decide ((m.slots i).status = .softwareOwned))
  (m.giveEmpty i).checkSlots
  return (m.giveEmpty i, (m.giveEmpty i).numSlotsEmpty == 1, .alloc i)

def mboxCanSend (m : TinselMbox P) : MboxResult P := do
  m.checkSlots
  if m.sendActive then
    let i ← readRegister m.sendSlot
    require .canSendSlot (decide ((m.slots i).status = .hardwareSend))
  return (m, false, .canSend !m.sendActive)

def mboxSetLen (m : TinselMbox P) (byteLength : Nat) : MboxResult P := do
  require .setLenIdle !m.sendActive
  return ({ m with sendLength := some byteLength }, false, .setLen byteLength)

/-- Slot `i` is to be sent. -/
def startSend (m : TinselMbox P) (address : BitVec 32) (i : Fin P.msgsPerThread) :
    TinselMbox P :=
  { m.setStatus i .hardwareSend with
    sendActive := true
    sendAddress := some address
    sendSlot := some i }

def mboxSend (m : TinselMbox P) (address : BitVec 32) (p : Option (Fin P.msgsPerThread)) :
    MboxResult P := do
  require .sendIdle !m.sendActive
  m.checkSlots
  let i ← findSlot p
  require .sendOwned (decide ((m.slots i).status = .softwareOwned))
  (m.startSend address i).checkSlots
  return (m.startSend address i, true, .send address i (m.slots i).buffer)

/-- The predicates that are waited for. -/
def ready (m : TinselMbox P) : MboxWait → Bool
  | .wakeup cond =>
    (cond &&& tinselCanSend != 0 && !m.sendActive) ||
      (cond &&& tinselCanRecv != 0 && decide (0 < m.numSlotsFull))
  | .pull => m.sendActive
  | .push _ _ => decide (0 < m.numSlotsEmpty)

def mboxWaitUntil (m : TinselMbox P) (cond : BitVec 32) :
    Except MboxFault (Section (TinselMbox P) MboxWait (MboxEvent P)) := do
  require .waitUntilCond (cond != 0)
  if m.ready (.wakeup cond) then return .done m false .woken else return .wait (.wakeup cond)

/-! ## Network side -/

/-- The message in slot `i` is out. -/
def endSend (m : TinselMbox P) (i : Fin P.msgsPerThread) : TinselMbox P :=
  { m.setStatus i .softwareOwned with sendActive := false }

/-- The part of `netPullMessage` after the wait. -/
def pullActive (m : TinselMbox P) : MboxResult P := do
  m.checkSlots
  let length ← readRegister m.sendLength
  require .pullLength (decide (length ≤ P.bytesPerMsg))
  let i ← readRegister m.sendSlot
  require .pullSlot (decide ((m.slots i).status = .hardwareSend))
  let address ← readRegister m.sendAddress
  (m.endSend i).checkSlots
  return (m.endSend i, true, .pull address length (copyOut (m.slots i).buffer length))

def netPullMessage (m : TinselMbox P) (block : Bool) :
    Except MboxFault (Section (TinselMbox P) MboxWait (MboxEvent P)) := do
  if !m.sendActive then
    if block then return .wait .pull else return .done m false .noPull
  else
    let (m, notify, event) ← m.pullActive
    return .done m notify event

/-- The loop over the slots `(i+start)%MsgsPerThread`: `sel` is the last slot looked at. -/
def selectEmpty (m : TinselMbox P) :
    List (Fin P.msgsPerThread) → Fin P.msgsPerThread → Fin P.msgsPerThread
  | [], sel => sel
  | sel :: is, _ => if (m.slots sel).status = .hardwareEmpty then sel else m.selectEmpty is sel

/-- The slots from `start` on, once round. -/
def slotsFrom (start : Nat) : List (Fin P.msgsPerThread) :=
  (List.range P.msgsPerThread).map fun i =>
    ⟨(i + start) % P.msgsPerThread, Nat.mod_lt _ P.msgsPerThread_pos⟩

/-- Copy a message into slot `sel`. -/
def fill (m : TinselMbox P) (sel : Fin P.msgsPerThread) (data : List (BitVec 8)) : TinselMbox P :=
  { m with
    numSlotsEmpty := m.numSlotsEmpty - 1
    slots := update m.slots sel ⟨.hardwareFull, copyIn (m.slots sel).buffer data⟩
    numSlotsFull := m.numSlotsFull + 1 }

/-- The part of `netPushMessage` after the wait; `rand` is what `rand()` returns there. -/
def pushEmpty (m : TinselMbox P) (data : List (BitVec 8)) (rand : Nat) : MboxResult P := do
  m.checkSlots
  let sel := m.selectEmpty (slotsFrom (rand % P.msgsPerThread)) ⟨0, P.msgsPerThread_pos⟩
  require .pushSlot (decide ((m.slots sel).status = .hardwareEmpty))
  (m.fill sel data).checkSlots
  return (m.fill sel data, true, .push data)

/-- `byteLength` is the length of the data. -/
def netPushMessage (m : TinselMbox P) (dstThreadId : BitVec 32) (data : List (BitVec 8))
    (block : Bool) (rand : Nat) :
    Except MboxFault (Section (TinselMbox P) MboxWait (MboxEvent P)) := do
  require .pushThread (dstThreadId == m.myThreadId)
  require .pushLength (decide (data.length ≤ P.bytesPerMsg))
  m.checkSlots
  if m.numSlotsEmpty = 0 then
    if block then return .wait (.push data rand) else return .done m false .noPush
  else
    let (m, notify, event) ← m.pushEmpty data rand
    return .done m notify event

/-- Software writes to a slot through the pointer it has; this takes no lock. -/
def softwareWrite (m : TinselMbox P) (i : Fin P.msgsPerThread) (buffer : MboxBuffer P) :
    TinselMbox P :=
  { m with slots := update m.slots i { m.slots i with buffer := buffer } }

end TinselMbox

/-! ## The threads at a mailbox -/

/-- A call of an operation. -/
inductive MboxCall (P : MboxParams) where
  | canRecv
  | recv
  | alloc (p : Option (Fin P.msgsPerThread))
  | canSend
  | setLen (byteLength : Nat)
  | send (address : BitVec 32) (p : Option (Fin P.msgsPerThread))
  | waitUntil (cond : BitVec 32)
  | pull (block : Bool)
  | push (dstThreadId : BitVec 32) (data : List (BitVec 8)) (block : Bool) (rand : Nat)
  | write (slot : Fin P.msgsPerThread) (buffer : MboxBuffer P)

/-- An operation that does not wait. -/
def MboxResult.atOnce (x : MboxResult P) :
    Except MboxFault (Section (TinselMbox P) MboxWait (MboxEvent P)) :=
  x >>= fun out => .ok (.done out.1 out.2.1 out.2.2)

namespace TinselMbox

def call (m : TinselMbox P) :
    MboxCall P → Except MboxFault (Section (TinselMbox P) MboxWait (MboxEvent P))
  | .canRecv => m.mboxCanRecv.atOnce
  | .recv => m.mboxRecv.atOnce
  | .alloc p => (m.mboxAlloc p).atOnce
  | .canSend => m.mboxCanSend.atOnce
  | .setLen byteLength => (m.mboxSetLen byteLength).atOnce
  | .send address p => (m.mboxSend address p).atOnce
  | .waitUntil cond => m.mboxWaitUntil cond
  | .pull block => m.netPullMessage block
  | .push dstThreadId data block rand => m.netPushMessage dstThreadId data block rand
  | .write i buffer => .ok (.done (m.softwareWrite i buffer) false (.write i buffer))

/-- What a thread does when its wait is over. -/
def resume (m : TinselMbox P) : MboxWait → MboxResult P
  | .wakeup _ => .ok (m, false, .woken)
  | .pull => m.pullActive
  | .push data rand => m.pushEmpty data rand

end TinselMbox

end Softswitch
