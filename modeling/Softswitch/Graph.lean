import Mathlib.Algebra.Order.Group.Multiset
import Softswitch.Lib.Runs
import Softswitch.Events

/-!
# A graph of devices

What an application sees of the softswitch.  A device sends from its lowest ready output
pin; the message is owed to each of the pin's targets until it is in flight to it, and is
received in any order.  After each handler the device is asked which pins are ready.  Which
thread a device is on, and the order in which a thread serves its devices, are left open.
-/

namespace Softswitch

open Function

variable {A : AppTypes} {D : Type}

/-- Devices, and what their output pins are connected to. -/
structure Graph (A : AppTypes) (D : Type) where
  graphProps : A.GraphProps
  vtable : D → DeviceTypeVTable A
  properties : D → A.DevProps
  /-- The input pins that an output pin of a device sends to. -/
  targets : D → Nat → Multiset (D × Nat)
  /-- The properties of the edge from an output pin to an input pin. -/
  edgeProps : D × Nat → D × Nat → Option A.EdgeProps

/-- A message between two pins. -/
structure GraphMessage (A : AppTypes) (D : Type) where
  source : D × Nat
  dest : D × Nat
  payload : A.Payload

/-- The devices, and the messages that are owed and in flight. -/
@[ext]
structure GraphState (A : AppTypes) (D : Type) where
  state : D → A.DevState
  flags : D → BitVec 32
  owed : Multiset (GraphMessage A D)
  flight : Multiset (GraphMessage A D)

/-- The messages that were sent and not received. -/
def GraphState.pending (s : GraphState A D) : Multiset (GraphMessage A D) := s.owed + s.flight

/-- What happens in a step; the handlers called the services `calls`. -/
inductive GraphEvent (A : AppTypes) (D : Type) where
  | send (d : D) (pinIndex : Nat) (doSend : Bool) (payload : A.Payload) (calls : List HandlerCall)
  | forward (m : GraphMessage A D)
  | receive (m : GraphMessage A D) (calls : List HandlerCall)
  | compute (d : D) (calls : List HandlerCall)
  | hardwareIdle (d : D) (calls : List HandlerCall)

/-- The services that the handlers of a step called. -/
def GraphEvent.calls : GraphEvent A D → List HandlerCall
  | .send _ _ _ _ calls | .receive _ calls | .compute _ calls | .hardwareIdle _ calls => calls
  | .forward _ => []

namespace Graph

variable (G : Graph A D)

/-- Ask a device in state `σ` which pins are ready. -/
def ready (d : D) (σ : A.DevState) : ReadyResult A.DevState :=
  (G.vtable d).readyToSendHandler G.graphProps (G.properties d) σ

def sendResult (s : GraphState A D) (d : D) (pin : OutputPinVTable A) (payload : A.Payload) :
    SendResult A.DevState A.Payload :=
  pin.sendHandler G.graphProps (G.properties d) (s.state d) payload

def receiveResult (s : GraphState A D) (m : GraphMessage A D) (pin : InputPinVTable A)
    (eState : Option A.EdgeState) : ReceiveResult A.DevState A.EdgeState :=
  pin.receiveHandler G.graphProps (G.properties m.dest.1) (s.state m.dest.1)
    (G.edgeProps m.source m.dest) eState m.payload

/-- The messages that a pin sends. -/
def messages (d : D) (pinIndex : Nat) (payload : A.Payload) : Multiset (GraphMessage A D) :=
  (G.targets d pinIndex).map fun dest => ⟨(d, pinIndex), dest, payload⟩

/-- The state after init handlers that leave the devices in the states `σ`. -/
def start (σ : D → A.DevState) : GraphState A D where
  state d := (G.ready d (σ d)).state
  flags d := (G.ready d (σ d)).flags
  owed := 0
  flight := 0

variable [DecidableEq D] (s : GraphState A D)

/-- A handler left the device in state `σ`. -/
def settle (d : D) (σ : A.DevState) : GraphState A D :=
  { s with
    state := update s.state d (G.ready d σ).state
    flags := update s.flags d (G.ready d σ).flags }

section Settle

variable {G s} {d d' : D} {σ : A.DevState}

@[simp] theorem settle_state_self : (G.settle s d σ).state d = (G.ready d σ).state :=
  update_self _ _ _

@[simp] theorem settle_flags_self : (G.settle s d σ).flags d = (G.ready d σ).flags :=
  update_self _ _ _

theorem settle_state_of_ne (h : d' ≠ d) : (G.settle s d σ).state d' = s.state d' :=
  update_of_ne h _ _

theorem settle_flags_of_ne (h : d' ≠ d) : (G.settle s d σ).flags d' = s.flags d' :=
  update_of_ne h _ _

end Settle

/-- The softswitch sends for a device that is ready, forwards a message that is owed, hands a
message over, or runs one of the idle handlers. -/
inductive Step : GraphEvent A D → GraphState A D → Prop
  | send {d : D} {pinIndex : Nat} {pin : OutputPinVTable A} {payload : A.Payload}
      {r : SendResult A.DevState A.Payload} (hready : wantsSend (s.flags d) = true)
      (hindex : rightMostOneFrom 32 0 (s.flags d) = some pinIndex)
      (hpin : (G.vtable d).outputPins[pinIndex]? = some pin)
      (hr : G.sendResult s d pin payload = r) :
      Step (.send d pinIndex r.doSend r.payload (r.calls ++ (G.ready d r.state).calls))
        { G.settle s d r.state with
          owed := s.owed + if r.doSend && !pin.isApp then G.messages d pinIndex r.payload else 0 }
  | forward {m : GraphMessage A D} {owed : Multiset (GraphMessage A D)}
      (howed : s.owed = m ::ₘ owed) :
      Step (.forward m) { s with owed := owed, flight := m ::ₘ s.flight }
  /-- The graph does not follow the states of the edges. -/
  | receive {m : GraphMessage A D} {pin : InputPinVTable A} {eState : Option A.EdgeState}
      {flight : Multiset (GraphMessage A D)} {r : ReceiveResult A.DevState A.EdgeState}
      (hflight : s.flight = m ::ₘ flight)
      (hpin : (G.vtable m.dest.1).inputPins[m.dest.2]? = some pin)
      (hr : G.receiveResult s m pin eState = r) :
      Step (.receive m (r.calls ++ (G.ready m.dest.1 r.state).calls))
        { G.settle s m.dest.1 r.state with flight := flight }
  | compute {d : D} {r : HandlerResult A.DevState} (hready : wantsCompute (s.flags d) = true)
      (hr : (G.vtable d).computeHandler G.graphProps (G.properties d) (s.state d) = r) :
      Step (.compute d (r.calls ++ (G.ready d r.state).calls)) (G.settle s d r.state)
  | hardwareIdle {d : D} {handler : A.GraphProps → A.DevProps → A.DevState →
      HandlerResult A.DevState} {r : HandlerResult A.DevState}
      (hhandler : (G.vtable d).onHardwareIdleHandler = some handler)
      (hr : handler G.graphProps (G.properties d) (s.state d) = r) :
      Step (.hardwareIdle d (r.calls ++ (G.ready d r.state).calls)) (G.settle s d r.state)

/-- The events `es` lead to `s`, from init handlers that left the devices in the states `σ`. -/
abbrev HasRun (σ : D → A.DevState) (es : List (GraphEvent A D)) (s : GraphState A D) : Prop :=
  Runs.Run G.Step (G.start σ) es s

end Graph

/-- No message is owed or in flight, and no device is ready to send. -/
structure GraphState.Quiescent (s : GraphState A D) : Prop where
  owed : s.owed = 0
  flight : s.flight = 0
  ready : ∀ d, wantsSend (s.flags d) = false

end Softswitch
