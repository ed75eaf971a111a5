import Softswitch.Interconnect

/-!
# Rounds of connected threads

Connected threads, and what the hardware does about `tinsel_mboxIdle`.  When all threads are in
it and there is no message, the hardware releases them: each of these calls returns true.  At any
other time such a call only returns, with false, when there is a message to receive.  What happens
from one release to the next one is a round.
-/

namespace Softswitch

open Function

variable {A : AppTypes} {ι : Type} {size : ι → Nat}

/-- Connected threads, some of which may have been released. -/
structure Rounds (A : AppTypes) (size : ι → Nat) where
  net : Interconnect A size
  /-- The call of `tinsel_mboxIdle` that the thread is in will return true. -/
  released : ι → Bool
  /-- The states in which the threads were released, the last one first.  Nothing reads them. -/
  releases : List (Interconnect A size)

namespace Rounds

variable [DecidableEq ι]

/-- A thread makes a step of its main loop, the network moves a message, or the hardware releases
the threads. -/
inductive Step (ths : Threads A size) (slots : ι → Nat) (g : Rounds A size) :
    Rounds A size → Prop
  | thread {i : ι} {input : LoopInput A} {net : Interconnect A size}
      (hanswers : g.net.Answers i input) (hidle : input.doHardwareIdle = g.released i)
      (hwakes : (g.net.main i).Wakes (ths i) (g.released i = true) input)
      (hstep : mainStep (ths i) (g.net.main i) input = .ok (net.main i))
      (hnet : g.net.ThreadStep ths i net) :
      Step ths slots g { g with net := net, released := update g.released i false }
  | network {net : Interconnect A size} (hnet : g.net.NetworkStep ths slots net) :
      Step ths slots g { g with net := net }
  | release (hnone : ∀ i, g.released i = false) (hidle : g.net.AllIdle ths) :
      Step ths slots g ⟨g.net, fun _ => true, g.net :: g.releases⟩

/-- The threads have been started, and steps have been made in any order. -/
inductive Reachable (ths : Threads A size) (slots : ι → Nat)
    (c : (i : ι) → PThreadContext A (size i)) (buf : ι → Message A) : Rounds A size → Prop
  | start {main : (i : ι) → Main A (size i)}
      (h : ∀ i, softswitchMain (ths i) (c i) (buf i) = .ok (main i)) :
      Reachable ths slots c buf ⟨⟨main, fun _ => 0, fun _ => none⟩, fun _ => false, []⟩
  | step {g g' : Rounds A size} (h : Reachable ths slots c buf g)
      (hstep : g.Step ths slots g') : Reachable ths slots c buf g'

end Rounds

end Softswitch
