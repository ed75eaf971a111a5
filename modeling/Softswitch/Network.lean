import Softswitch.Lib.Transport
import Softswitch.Main

/-!
# A network of threads

Any number of threads, each of which runs `softswitch_main`, and the messages in flight
between them.  A message in flight goes with the identifier of the thread it was sent to;
the network delivers it to that thread, once, unmodified, and in any order.
-/

namespace Softswitch

open Transport

variable {A : AppTypes} {n : Nat} {ι : Type} {size : ι → Nat}

/-- A message on its way to a thread, or to the host. -/
structure Packet (A : AppTypes) where
  thread : BitVec 32
  message : Message A

/-- What a thread gives to the network. -/
def Event.sent : Event A n → Option (Packet A)
  | .mboxSend thread _ message => some ⟨thread, message⟩
  | _ => none

/-- What a thread takes from the network. -/
def Event.received : Event A n → Option (Message A)
  | .mboxRecv message => some message
  | _ => none

/-- What a thread has given to the network. -/
def sentPackets (es : List (Event A n)) : Multiset (Packet A) :=
  (es.filterMap Event.sent : List (Packet A))

/-- What a thread has taken from the network. -/
def receivedPackets (th : PThread A n) (es : List (Event A n)) : Multiset (Packet A) :=
  (es.filterMap fun e => e.received.map fun m => ⟨th.myId, m⟩ : List (Packet A))

/-- The threads of a network; thread `i` has `size i` devices. -/
abbrev Threads (A : AppTypes) (size : ι → Nat) := (i : ι) → PThread A (size i)

/-- The states of the threads, and what is in flight between them. -/
structure Network (A : AppTypes) (size : ι → Nat) where
  main : (i : ι) → Main A (size i)
  flight : Multiset (Packet A)

def Network.trace (g : Network A size) (i : ι) : List (Event A (size i)) := (g.main i).ctxt.trace

variable [DecidableEq ι]

/-- A thread makes a step of its main loop: what it receives is in flight to it, and what it
sends is in flight afterwards. -/
inductive Network.Step (ths : Threads A size) (g : Network A size) : Network A size → Prop
  | thread {i : ι} {input : LoopInput A} {s : Main A (size i)} {es : List (Event A (size i))}
      {flight : Multiset (Packet A)} (hstep : mainStep (ths i) (g.main i) input = .ok s)
      (htrace : s.ctxt.trace = g.trace i ++ es)
      (hflight : Exchange g.flight (receivedPackets (ths i) es) (sentPackets es) flight) :
      Network.Step ths g ⟨Function.update g.main i s, flight⟩

/-- All threads have been started, and have made steps in any order. -/
inductive Network.Reachable (ths : Threads A size) (c : (i : ι) → PThreadContext A (size i))
    (buf : ι → Message A) : Network A size → Prop
  | start {main : (i : ι) → Main A (size i)}
      (h : ∀ i, softswitchMain (ths i) (c i) (buf i) = .ok (main i)) :
      Network.Reachable ths c buf ⟨main, 0⟩
  | step {g g' : Network A size} (h : Network.Reachable ths c buf g)
      (hstep : Network.Step ths g g') : Network.Reachable ths c buf g'

end Softswitch
