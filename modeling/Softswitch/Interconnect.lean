import Softswitch.Network

/-!
# Threads connected by their mailboxes

A network seen at the mailboxes.  A message that a thread sends is in the send slot of the
thread until the network takes it, and then in a receive slot of the thread it is for until
that thread receives it.  What `tinsel_mboxCanRecv` and `tinsel_mboxCanSend` answer, and when
`tinsel_mboxWaitUntil` and `tinsel_mboxIdle` return, is read off the slots.
-/

namespace Softswitch

variable {A : AppTypes} {n : Nat} {ι : Type} {size : ι → Nat}

/-- What is in a send slot: a message of the send buffer, or one of the host buffer. -/
inductive Parcel (A : AppTypes) where
  | message (dest : BitVec 32) (message : Message A)
  | hostMessage (dest : BitVec 32) (message : HostMsg)

def Parcel.dest : Parcel A → BitVec 32
  | .message dest _ | .hostMessage dest _ => dest

/-- What a thread puts into its send slot. -/
def Event.parcel : Event A n → Option (Parcel A)
  | .mboxSend dest _ message => some (.message dest message)
  | .mboxSendExtra dest _ message => some (.hostMessage dest message)
  | _ => none

/-- What a thread has taken from its receive slots, in order. -/
def taken (trace : List (Event A n)) : List (Message A) := trace.filterMap Event.received

/-- What a thread has put into its send slot, in order. -/
def given (trace : List (Event A n)) : List (Parcel A) := trace.filterMap Event.parcel

/-- The states of the threads and of their mailboxes. -/
structure Interconnect (A : AppTypes) (size : ι → Nat) where
  main : (i : ι) → Main A (size i)
  recvSlots : ι → Multiset (Message A)
  sendSlot : ι → Option (Parcel A)

/-! ## The calls of the mailbox -/

/-- The thread is in `tinsel_mboxIdle`. -/
def Main.InMboxIdle (th : PThread A n) (s : Main A n) : Prop :=
  match s.pc with
  | .parked => True
  | .top => False
  | .wait w => th.build.enableHardwareIdle = true ∧ w.wantToSend = false

/-- The call in which the thread waits, if it is in one, returns with what the mailbox answers
then.  `released` says that `tinsel_mboxIdle` may return for the reason that all is idle. -/
def Main.Wakes (th : PThread A n) (s : Main A n) (released : Prop) (input : LoopInput A) : Prop :=
  match s.pc with
  | .parked => input.canRecv = true ∨ input.doHardwareIdle = true ∧ released
  | .top => True
  | .wait w =>
    if w.wantToSend then input.canRecv = true ∨ input.canSend = true
    else input.canRecv = true ∨
      th.build.enableHardwareIdle = true ∧ input.doHardwareIdle = true ∧ released

/-- `sent` goes into the send slot, which holds one message. -/
inductive Fills {α : Type} : Option α → List α → Option α → Prop
  | nothing {o : Option α} : Fills o [] o
  | one {x : α} : Fills none [x] (some x)

namespace Interconnect

/-- The mailbox of thread `i` answers what its slots say. -/
structure Answers (g : Interconnect A size) (i : ι) (input : LoopInput A) : Prop where
  canRecv : input.canRecv = true ↔ g.recvSlots i ≠ 0
  canSend : input.canSend = true ↔ g.sendSlot i = none
  message : input.canRecv = true → input.message ∈ g.recvSlots i

/-- All threads are in `tinsel_mboxIdle`, and there is no message. -/
def AllIdle (ths : Threads A size) (g : Interconnect A size) : Prop :=
  ∀ i, (g.main i).InMboxIdle (ths i) ∧ g.recvSlots i = 0 ∧ g.sendSlot i = none

/-- The thread is held up in a call of its mailbox. -/
def Blocked (ths : Threads A size) (g : Interconnect A size) (i : ι) : Prop :=
  ∀ input, g.Answers i input → ¬(g.main i).Wakes (ths i) (g.AllIdle ths) input

/-- Something is left to do: a message is on its way or is being sent, or a device wants to
send or to compute. -/
def Active (g : Interconnect A size) : Prop :=
  ∃ i, g.recvSlots i ≠ 0 ∨ g.sendSlot i ≠ none ∨ 0 < (g.main i).currSendTodo ∨
    ∃ d, ((g.main i).ctxt.devices d).rtsFlags ≠ 0

variable [DecidableEq ι]

/-- Thread `i` makes a step of its main loop.  What the hardware takes for idle is left open:
`tinsel_mboxIdle` may return at any time. -/
inductive ThreadStep (ths : Threads A size) (g : Interconnect A size) (i : ι) :
    Interconnect A size → Prop
  | step {input : LoopInput A} {s : Main A (size i)} {received : List (Message A)}
      {sent : List (Parcel A)} {rest : Multiset (Message A)} {slot : Option (Parcel A)}
      (hanswers : g.Answers i input) (hwakes : (g.main i).Wakes (ths i) True input)
      (hstep : mainStep (ths i) (g.main i) input = .ok s)
      (htaken : taken s.ctxt.trace = taken (g.main i).ctxt.trace ++ received)
      (hgiven : given s.ctxt.trace = given (g.main i).ctxt.trace ++ sent)
      (hrecv : g.recvSlots i = received + rest) (hsend : Fills (g.sendSlot i) sent slot) :
      ThreadStep ths g i
        { main := Function.update g.main i s
          recvSlots := Function.update g.recvSlots i rest
          sendSlot := Function.update g.sendSlot i slot }

/-- The network takes what is in a send slot: it hands it to the host, or puts it into a free
receive slot of the thread it is for.  Thread `i` has `slots i` receive slots. -/
inductive NetworkStep (ths : Threads A size) (slots : ι → Nat) (g : Interconnect A size) :
    Interconnect A size → Prop
  | host {i : ι} {x : Parcel A} (hslot : g.sendSlot i = some x)
      (hdest : x.dest = (ths i).hostId) :
      NetworkStep ths slots g { g with sendSlot := Function.update g.sendSlot i none }
  | thread {i j : ι} {m : Message A} (hslot : g.sendSlot i = some (.message (ths j).myId m))
      (hfree : (g.recvSlots j).card < slots j) :
      NetworkStep ths slots g { g with
        recvSlots := Function.update g.recvSlots j (m ::ₘ g.recvSlots j)
        sendSlot := Function.update g.sendSlot i none }

/-- The threads have been started, and they and the network have made steps in any order. -/
inductive Reachable (ths : Threads A size) (slots : ι → Nat)
    (c : (i : ι) → PThreadContext A (size i)) (buf : ι → Message A) :
    Interconnect A size → Prop
  | start {main : (i : ι) → Main A (size i)}
      (h : ∀ i, softswitchMain (ths i) (c i) (buf i) = .ok (main i)) :
      Reachable ths slots c buf ⟨main, fun _ => 0, fun _ => none⟩
  | thread {g g' : Interconnect A size} {i : ι} (h : Reachable ths slots c buf g)
      (hstep : g.ThreadStep ths i g') : Reachable ths slots c buf g'
  | network {g g' : Interconnect A size} (h : Reachable ths slots c buf g)
      (hstep : g.NetworkStep ths slots g') : Reachable ths slots c buf g'

end Interconnect

end Softswitch
