import Softswitch.Lib.CyclicSweep
import Softswitch.Verify.Readiness

/-!
# What the event functions do

Each event enters a handler of one device, which leaves the RTS list and the cached flags
as they are (`KeepsRts`), and then has the flags of that device recomputed (`Updated`).
The statements give the trace of the event where it returns, and where it stops they say
which handler may have been entered.
-/

namespace Softswitch

open Outcome IntrusiveList Function

variable {A : AppTypes} {n : Nat} {α : Type} {th : PThread A n} {c c' c'' : PThreadContext A n}
  {d : Fin n} {q : List (Fin n)} {m : Message A} {flags : BitVec 32}

/-! ## Frames -/

/-- The list, the flags and the compute search are as before, and the indices of the host
buffer as right as before. -/
structure KeepsRts (c c' : PThreadContext A n) : Prop where
  links : c'.links = c.links
  flags : c'.flags = c.flags
  rtcChecked : c'.rtcChecked = c.rtcChecked
  rtcOffset : c'.rtcOffset = c.rtcOffset
  counted : c.Counted → c'.Counted

namespace KeepsRts

theorem refl (c : PThreadContext A n) : KeepsRts c c := ⟨rfl, rfl, rfl, rfl, id⟩

theorem trans (h₁ : KeepsRts c c') (h₂ : KeepsRts c' c'') : KeepsRts c c'' :=
  ⟨h₂.links.trans h₁.links, h₂.flags.trans h₁.flags, h₂.rtcChecked.trans h₁.rtcChecked,
    h₂.rtcOffset.trans h₁.rtcOffset, fun h => h₂.counted (h₁.counted h)⟩

theorem isQueue (h : KeepsRts c c') (hq : IsQueue c q) : IsQueue c' q :=
  hq.of_links_flags h.links h.flags

end KeepsRts

theorem HostStep.keepsRts (h : HostStep c c') : KeepsRts c c' := by
  have hcounted := h.counted
  obtain ⟨_, _, _, _, rfl⟩ := h
  exact ⟨rfl, rfl, rfl, rfl, hcounted⟩

/-- Where `m` stops, it is not for the RTS list, and all it did is output. -/
def Quiet (c : PThreadContext A n) (m : Outcome A n α) : Prop :=
  Sat m (fun _ => True) (fun s => HostStep c s.ctxt ∧ s.fault.isRts = false)

theorem Quiet.bind {β : Type} {m : Outcome A n α} {f : α → Outcome A n β} (hm : Quiet c m)
    (hf : ∀ a, m = .ok a → Quiet c (f a)) : Quiet c (m >>= f) :=
  Sat.bind hm fun a ha _ => hf a ha

theorem check_quiet {a : Assertion} {ok : Bool} (ha : a.isRts = false) :
    Quiet c (th.check c a ok) := by
  refine check_sat.mono (fun _ _ => trivial) ?_
  rintro s ⟨rfl, -⟩
  exact ⟨HostStep.refl c, ha⟩

theorem deref_quiet {f : Fault} {o : Option α} (hf : f.isRts = false) :
    Quiet c (c.deref f o) := by
  cases o with
  | none => exact ⟨HostStep.refl c, hf⟩
  | some a => trivial

/-! ## Handlers -/

/-- A handler of `d` ran and left the state `s`. -/
structure Ran (c : PThreadContext A n) (d : Fin n) (s : A.DevState) (t : Tracking)
    (es : List (Event A n)) (c' : PThreadContext A n) : Prop where
  keeps : KeepsRts c c'
  states : c'.states = update c.states d s
  tracking : c'.toTracking = t
  sig : c'.sig = c.sig ++ es

/-- Where the services of a handler stop. -/
def RanStop (c : PThreadContext A n) (es : List (Event A n)) (s : Stop A n) : Prop :=
  s.fault.isRts = false ∧ s.ctxt.sig = c.sig ++ es

/-- The services a handler calls after it was entered and left the state `s`. -/
theorem Ran.runCalls {s : A.DevState} {t : Tracking} {es : List (Event A n)}
    {calls : List HandlerCall} (h : Ran c d s t es c') :
    Sat (runCalls th c' calls) (Ran c d s t es) (RanStop c es) := by
  refine runCalls_service.mono (fun c₁ h₁ => ⟨?_, ?_, ?_, ?_⟩) fun s h₁ => ⟨h₁.2, ?_⟩
  · exact h.keeps.trans h₁.keepsRts
  · exact h₁.states_eq.trans h.states
  · exact h₁.frame.tracking.trans h.tracking
  · exact h₁.sig_eq.trans h.sig
  · exact h₁.1.sig_eq.trans h.sig

theorem Ran.addCycles {s : A.DevState} {t : Tracking} {es : List (Event A n)} {tstart : BitVec 32}
    {add : Perf → BitVec 32 → Perf} (h : Ran c d s t es c') :
    Ran c d s t es (c'.addCycles th tstart add) :=
  ⟨h.keeps.trans ⟨rfl, rfl, rfl, rfl, id⟩, h.states, h.tracking, h.sig⟩

/-- A handler of `d` ran and left the state `s`, and then the readiness of `d` was
recomputed. -/
structure Handled (th : PThread A n) (c : PThreadContext A n) (d : Fin n) (s : A.DevState)
    (t : Tracking) (es : List (Event A n)) (c' : PThreadContext A n) : Prop where
  states : c'.states = update c.states d (readyResult th d s).state
  flags : c'.flags = update c.flags d (readyResult th d s).flags
  links : c'.links = relink c.links d (wantsSend (c.flags d)) (wantsSend (readyResult th d s).flags)
  rtcChecked : c'.rtcChecked =
    if wantsCompute (readyResult th d s).flags then 0 else c.rtcChecked
  rtcOffset : c'.rtcOffset = c.rtcOffset
  counted : c.Counted → c'.Counted
  tracking : c'.toTracking = t
  sig : c'.sig = c.sig ++ es

theorem Ran.handled {s : A.DevState} {t : Tracking} {es : List (Event A n)}
    (h : Ran c d s t es c') :
    Sat (softswitchUpdateRTS th c' d) (Handled th c d s t es)
      (fun s => s.ctxt.sig = c.sig ++ es) := by
  have hs : c'.states d = s := by rw [h.states, update_self]
  refine softswitchUpdateRTS_sat.mono (fun c'' hu => ?_) fun s hf => hf.sig.trans h.sig
  obtain ⟨hu, hl⟩ := hu
  rw [hs] at hu hl
  refine ⟨?_, ?_, ?_, ?_, ?_, fun hc => hu.frame.counted (h.keeps.counted hc), ?_, ?_⟩
  · rw [hu.states, h.states, update_idem]
  · rw [hu.flags, h.keeps.flags]
  · rw [hl, h.keeps.links, h.keeps.flags]
  · rw [hu.rtcChecked, h.keeps.rtcChecked]
  · rw [hu.frame.rtcOffset, h.keeps.rtcOffset]
  · rw [hu.frame.tracking, h.tracking]
  · rw [hu.frame.sig, h.sig]

/-- A handler is entered and leaves the state `s`. -/
theorem ran_enter {kind : HandlerKind} {s : A.DevState} :
    Ran c d s c.toTracking [.enter kind d c.toTracking] ((c.enter kind d).setState d s) :=
  ⟨⟨setState_links, setState_flags, rfl, rfl, id⟩, setState_states, rfl, sig_emit rfl⟩

/-! ## Receiving -/

theorem softswitchLog_hostStep {level : Nat} {params : List (BitVec 32)} :
    HostStep c (softswitchLog th c level params) := by
  unfold softswitchLog
  split
  · exact HostStep.emit rfl
  · exact HostStep.refl c

theorem logPossibleSource_service {bindings : List (InputPinBinding A)} {i : Nat} :
    ServiceSat c (logPossibleSource th bindings c i) := by
  unfold logPossibleSource
  refine Sat.bind (R := fun _ => True) (deref_quiet rfl) fun tmp _ _ => ?_
  split
  · refine Sat.bind (R := fun _ => True) (Sat.mono (deref_quiet rfl) (fun _ h => h) ?_)
      fun before _ _ => check_service rfl softswitchLog_hostStep softswitchLog_hostStep
    exact fun s h => ⟨softswitchLog_hostStep.trans h.1, h.2⟩
  · exact softswitchLog_hostStep

theorem onReceiveNoEdge_quiet {bindings : List (InputPinBinding A)} :
    Quiet c (onReceiveNoEdge th c m bindings) := by
  have hcheck : ∀ {c₁ : PThreadContext A n} {a ok}, a.isRts = false → HostStep c c₁ →
      Quiet c (th.check c₁ a ok) := fun ha h =>
    Sat.mono (check_quiet ha) (fun _ h => h) fun s hs => ⟨h.trans hs.1, hs.2⟩
  unfold onReceiveNoEdge
  split
  · refine Sat.bind (R := HostStep c) (Sat.foldlM (fun s i _ hs => ?_) softswitchLog_hostStep) ?_
    · exact Sat.mono logPossibleSource_service (fun _ h => hs.trans h)
        fun _ h => ⟨hs.trans h.1, h.2⟩
    · intro c₁ _ hc₁
      exact Quiet.bind (hcheck rfl hc₁) fun _ _ => hcheck rfl hc₁
  · trivial

theorem findEdge_quiet {bindings : List (InputPinBinding A)} :
    Quiet c (findEdge th c m bindings) := by
  have hrest : Quiet c (do
      let edge ← c.deref .outOfBounds bindings[LowerBound.lowerBound (fun i =>
        (bindings[i]?).any fun a => cmpAddress a.source m.source) bindings.length]?
      th.check c .onReceiveNoEdge (sameAddress edge.source m.source)
      return edge) :=
    (deref_quiet rfl).bind fun _ _ => (check_quiet rfl).bind fun _ _ => trivial
  unfold findEdge
  dsimp only
  split
  · exact hrest
  · exact onReceiveNoEdge_quiet.bind fun _ _ => hrest

theorem receiveTarget_quiet : Quiet c (receiveTarget th c d m) := by
  unfold receiveTarget
  refine (check_quiet rfl).bind fun _ _ => (deref_quiet rfl).bind fun pin _ => ?_
  split
  · trivial
  · exact (deref_quiet rfl).bind fun _ _ => findEdge_quiet.bind fun _ _ =>
      (check_quiet rfl).bind fun _ _ => (check_quiet rfl).bind fun _ _ => trivial

/-- What the receive handler of `d` returns. -/
def receiveResult (th : PThread A n) (c : PThreadContext A n) (d : Fin n) (m : Message A)
    (target : ReceiveTarget A) : ReceiveResult A.DevState A.EdgeState :=
  target.pin.receiveHandler th.graphProps (th.device d).properties (c.devices d).state
    target.eProps (target.eState.map c.edgeState) m.payload

/-- What a receive records. -/
def receiveEvents (c : PThreadContext A n) (d : Fin n) (m : Message A)
    (target : ReceiveTarget A) : List (Event A n) :=
  [.enter .receive d ⟨d, 1, m.dest.pin.toNat⟩,
    .receiveCall d m.dest.pin.toNat m.source target.eProps (target.eState.map c.edgeState)
      m.payload]

theorem storeEdgeState_eq {p : Option Nat} {s : Option A.EdgeState} :
    ∃ e, storeEdgeState c p s = { c with edgeState := e } := by
  unfold storeEdgeState
  split <;> exact ⟨_, rfl⟩

theorem callReceive_sat {target : ReceiveTarget A} :
    Sat (callReceive th c d m target)
      (Ran c d (receiveResult th c d m target).state ⟨d, 1, m.dest.pin.toNat⟩
        (receiveEvents c d m target))
      (RanStop c (receiveEvents c d m target)) := by
  let c₁ : PThreadContext A n := { c.track d 1 with currentPin := m.dest.pin.toNat }
  let c₂ := ((c₁.tick th).enter .receive d).emit (.receiveCall d m.dest.pin.toNat m.source
    target.eProps (target.eState.map c.edgeState) m.payload)
  let r := receiveResult th c d m target
  have hsig : c₂.sig = c.sig ++ receiveEvents c d m target := by
    have h₂ : c₂.sig = ((c₁.tick th).enter .receive d).sig ++ _ := sig_emit rfl
    have h₁ : ((c₁.tick th).enter .receive d).sig = (c₁.tick th).sig ++ _ := sig_emit rfl
    rw [h₂, h₁, List.append_assoc]
    rfl
  obtain ⟨e, he⟩ := storeEdgeState_eq (c := c₂.setState d r.state) (p := target.eState)
    (s := r.edgeState)
  have hran : Ran c d r.state ⟨d, 1, m.dest.pin.toNat⟩ (receiveEvents c d m target)
      (storeEdgeState (c₂.setState d r.state) target.eState r.edgeState) := by
    have hl : (c₂.setState d r.state).links = c.links := setState_links
    have hf : (c₂.setState d r.state).flags = c.flags := setState_flags
    have hs : (c₂.setState d r.state).states = update c.states d r.state := setState_states
    rw [he]
    exact ⟨⟨hl, hf, rfl, rfl, id⟩, hs, rfl, hsig⟩
  unfold callReceive
  exact Sat.bind hran.runCalls fun _ _ h => h.addCycles

theorem dispatchReceive_sat :
    Sat (dispatchReceive th c d m)
      (fun c' => ∃ target, receiveTarget th c d m = .ok target ∧
        Ran c d (receiveResult th c d m target).state ⟨d, 1, m.dest.pin.toNat⟩
          (receiveEvents c d m target) c')
      (fun s => s.fault.isRts = false ∧ (s.ctxt.sig = c.sig ∨
        ∃ target, s.ctxt.sig = c.sig ++ receiveEvents c d m target)) := by
  unfold dispatchReceive
  refine Sat.bind (receiveTarget_quiet.mono (fun _ h => h) ?_) fun target ht _ => ?_
  · exact fun s h => ⟨h.2, .inl h.1.sig_eq⟩
  · exact callReceive_sat.mono (fun c' h => ⟨target, ht, h⟩) fun s h => ⟨h.1, .inr ⟨target, h.2⟩⟩

/-- The device a packet is for takes packets. -/
def Accepts (th : PThread A n) (d : Fin n) (m : Message A) : Prop :=
  d.val = m.dest.device.toNat ∧ (th.device d).isExternal.setWidth 8 = 0#8

/-- What `softswitch_onReceive` does: it handles the packet, or drops one for an external
device. -/
def Received (th : PThread A n) (c : PThreadContext A n) (m : Message A)
    (c' : PThreadContext A n) : Prop :=
  (∃ d target, Accepts th d m ∧ receiveTarget th (c.tick th) d m = .ok target ∧
    Handled th c d (receiveResult th c d m target).state ⟨d, 1, m.dest.pin.toNat⟩
      (receiveEvents c d m target) c') ∨
  (∃ d : Fin n, d.val = m.dest.device.toNat ∧ (th.device d).isExternal.setWidth 8 ≠ 0#8 ∧
    th.build.asserts = false ∧ KeepsRts c c' ∧ c'.states = c.states ∧
    c'.toTracking = c.toTracking ∧ c'.sig = c.sig)

/-- Where `softswitch_onReceive` may stop: before it enters the handler, or after. -/
def ReceiveStop (c : PThreadContext A n) (m : Message A) (c' : PThreadContext A n) : Prop :=
  c'.sig = c.sig ∨ ∃ d target, c'.sig = c.sig ++ receiveEvents c d m target

theorem softswitchOnReceive_sat :
    Sat (softswitchOnReceive th c m) (Received th c m) (fun s => ReceiveStop c m s.ctxt) := by
  have htick : (c.tick th).sig = c.sig := rfl
  unfold softswitchOnReceive
  dsimp only
  refine check_reads.then (.inl htick) fun _ _ => ?_
  refine check_reads.then (.inl htick) fun _ _ => ?_
  split
  · rename_i hd
    split
    · rename_i hext
      refine Sat.bind (check_sat.mono (fun _ h => h) ?_) fun _ _ ha => ?_
      · rintro s ⟨rfl, -⟩
        exact .inl htick
      · refine .inr ⟨⟨_, hd⟩, rfl, hext, ?_, ⟨rfl, rfl, rfl, rfl, id⟩, rfl, rfl, rfl⟩
        simpa using ha
    · rename_i hext
      refine Sat.bind (dispatchReceive_sat.mono (fun _ h => h) ?_) fun c₁ _ h₁ => ?_
      · exact fun s h => h.2.imp_right fun ⟨target, h⟩ => ⟨⟨_, hd⟩, target, h⟩
      obtain ⟨target, ht, hran⟩ := h₁
      refine checkOnList_reads.then (.inr ⟨⟨_, hd⟩, target, hran.sig⟩) fun _ _ => ?_
      refine Sat.bind (hran.handled.mono (fun _ h => h) ?_) fun c₂ _ h₂ => ?_
      · exact fun s h => .inr ⟨⟨_, hd⟩, target, h⟩
      refine checkOnList_reads.then (.inr ⟨⟨_, hd⟩, target, h₂.sig⟩) fun _ _ => ?_
      refine .inl ⟨⟨_, hd⟩, target, ⟨rfl, not_not.1 hext⟩, ht, ?_⟩
      exact ⟨h₂.states, h₂.flags, h₂.links, h₂.rtcChecked, h₂.rtcOffset, h₂.counted, h₂.tracking,
        h₂.sig⟩
  · exact .inl htick

/-! ## Sending -/

/-- What the send handler of `pin` returns. -/
def sendResult (th : PThread A n) (c : PThreadContext A n) (d : Fin n) (pin : OutputPinVTable A)
    (payload : A.Payload) : SendResult A.DevState A.Payload :=
  pin.sendHandler th.graphProps (th.device d).properties (c.devices d).state payload

/-- What a send records. -/
def sendEvents (th : PThread A n) (d : Fin n) (pinIndex : Nat)
    (r : SendResult A.DevState A.Payload) : List (Event A n) :=
  [.onSend, .enter .send d ⟨(th.device d).index, 2, pinIndex⟩,
    .sendReturn d pinIndex r.doSend r.payload]

/-- The source address a send writes. -/
def sendSource (th : PThread A n) (d : Fin n) (pinIndex : Nat) (pin : OutputPinVTable A) :
    Address where
  thread := th.threadId
  device := BitVec.ofNat 16 (th.device d).index
  pin := BitVec.ofNat 8 pinIndex
  size := BitVec.ofNat 8 pin.messageSize

/-- What a send leaves in the buffer and the reference parameters. -/
def Prepared (th : PThread A n) (d : Fin n) (pinIndex : Nat) (pin : OutputPinVTable A)
    (r : SendResult A.DevState A.Payload) (s s' : SendState A) : Prop :=
  let message := { s.message with payload := r.payload }
  let source := sendSource th d pinIndex pin
  if r.doSend then
    if pin.isApp then
      s' = { s with
        message := { message with source := source, type := pin.messageTypeNumid }
        numTargets := 1
        isApp := true }
    else ∃ targets, (th.device d).targets[pinIndex]? = some targets ∧
      s' = {
        message := { message with source := source }
        numTargets := targets.targets.length
        pTargets := some ⟨targets.targets, 0⟩
        isApp := false }
  else s' = { s with message := message }

theorem writeHeader_sat {pinIndex : Nat} {pin : OutputPinVTable A}
    {r : SendResult A.DevState A.Payload} {s : SendState A} :
    Sat (writeHeader th c d pinIndex pin r s) (Prepared th d pinIndex pin r s)
      (fun st => st = ⟨.outOfBounds, c⟩) := by
  unfold writeHeader Prepared
  split
  · split
    · rfl
    · cases (th.device d).targets[pinIndex]? with
      | none => rfl
      | some targets => exact ⟨targets, rfl, rfl⟩
  · rfl

theorem callSend_sat {pinIndex : Nat} {pin : OutputPinVTable A} {payload : A.Payload} :
    Sat (callSend th c d pinIndex pin payload)
      (fun r => r.1 = sendResult th c d pin payload ∧
        Ran c d r.1.state c.toTracking
          [.enter .send d c.toTracking, .sendReturn d pinIndex r.1.doSend r.1.payload] r.2)
      (RanStop c [.enter .send d c.toTracking]) := by
  let r := sendResult th c d pin payload
  have hran : Ran c d r.state c.toTracking [.enter .send d c.toTracking]
      (((c.tick th).enter .send d).setState d r.state) := by
    have h : Ran (c.tick th) d r.state (c.tick th).toTracking
        [.enter .send d (c.tick th).toTracking] (((c.tick th).enter .send d).setState d r.state) :=
      ran_enter
    exact ⟨⟨h.keeps.links, h.keeps.flags, rfl, rfl, id⟩, h.states, rfl, h.sig⟩
  unfold callSend
  refine Sat.bind hran.runCalls fun c₁ _ h₁ => ?_
  have hret : Ran c d r.state c.toTracking
      [.enter .send d c.toTracking, .sendReturn d pinIndex r.doSend r.payload]
      (c₁.emit (.sendReturn d pinIndex r.doSend r.payload)) := by
    refine ⟨h₁.keeps.trans ⟨rfl, rfl, rfl, rfl, id⟩, h₁.states, h₁.tracking, ?_⟩
    rw [sig_emit rfl, h₁.sig, List.append_assoc]
    rfl
  refine ⟨rfl, ?_⟩
  dsimp only
  exact hret.addCycles

/-- A send from pin `pinIndex` of `d`, the first of the list, whose send handler returned
`r`. -/
structure SentFrom (th : PThread A n) (c : PThreadContext A n) (d : Fin n) (pinIndex : Nat)
    (pin : OutputPinVTable A) (r : SendResult A.DevState A.Payload) (s : SendState A)
    (size : Nat) (c' : PThreadContext A n) (s' : SendState A) : Prop where
  head : c.rtsHead = some d
  pinIndex_eq : rightMostOneFrom 32 0 (c.flags d) = some pinIndex
  pin_eq : (th.device d).vtable.outputPins[pinIndex]? = some pin
  result_eq : r = sendResult th c d pin s.message.payload
  size_eq : size = pin.messageSize
  prepared : Prepared th d pinIndex pin r s s'
  states : c'.states = update c.states d (readyResult th d r.state).state
  flags : c'.flags = update c.flags d (readyResult th d r.state).flags
  links : c'.links =
    relink c.links.popFront d false (wantsSend (readyResult th d r.state).flags)
  rtcChecked : c'.rtcChecked =
    if wantsCompute (readyResult th d r.state).flags then 0 else c.rtcChecked
  rtcOffset : c'.rtcOffset = c.rtcOffset
  counted : c.Counted → c'.Counted
  tracking : c'.toTracking = ⟨(th.device d).index, 2, pinIndex⟩
  sig : c'.sig = c.sig ++ sendEvents th d pinIndex r

/-- What the reference parameters of `softswitch_onSend` start from. -/
def noSend (message : Message A) (isApp : Bool) : SendState A where
  message := message
  numTargets := 0
  pTargets := none
  isApp := isApp

/-- What `softswitch_onSend` does: it sends from the first device of the list, or finds the
list empty. -/
def Sent (th : PThread A n) (c : PThreadContext A n) (message : Message A) (isApp : Bool)
    (out : Nat × PThreadContext A n × SendState A) : Prop :=
  (∃ d pinIndex pin r,
    SentFrom th c d pinIndex pin r (noSend message isApp) out.1 out.2.1 out.2.2) ∨
  (c.rtsHead = none ∧ out.1 = 0 ∧ out.2.2 = noSend message isApp ∧ KeepsRts c out.2.1 ∧
    out.2.1.states = c.states ∧ out.2.1.toTracking = c.toTracking ∧
    out.2.1.sig = c.sig ++ [.onSend])

/-- Where `softswitch_onSend` may stop. -/
def SendStop (th : PThread A n) (c c' : PThreadContext A n) : Prop :=
  c'.sig = c.sig ++ [.onSend] ∨
    ∃ d pinIndex r es, es <+: sendEvents th d pinIndex r ∧ c'.sig = c.sig ++ es

@[simp] theorem wantsSend_zero : wantsSend 0#32 = false := by decide

theorem rightMostOne_reads {x : BitVec 32} :
    Sat (rightMostOne th c x) (fun k => rightMostOneFrom 32 0 x = some k)
      (fun s => s.ctxt = c) := by
  unfold rightMostOne
  refine Sat.bind check_reads fun _ _ _ => ?_
  cases rightMostOneFrom 32 0 x with
  | none => rfl
  | some k => rfl

theorem ne_zero_of_rightMostOneFrom {x : BitVec 32} {k : Nat}
    (h : rightMostOneFrom 32 0 x = some k) : (x != 0) = true := by
  refine bne_iff_ne.2 fun hzero => ?_
  rw [hzero] at h
  cases h

theorem rightMostOne_ok {x : BitVec 32} {k : Nat} (h : rightMostOneFrom 32 0 x = some k) :
    rightMostOne th c x = .ok k := by
  unfold rightMostOne
  rw [ne_zero_of_rightMostOneFrom h, check_true, ok_bind, h]
  rfl

/-- `d`, the first device of the list, was popped for a send. -/
structure Popped (c : PThreadContext A n) (d : Fin n) (c₁ : PThreadContext A n) : Prop where
  head : c.rtsHead = some d
  links : c₁.links = c.links.popFront
  flags : c₁.flags = c.flags
  states : c₁.states = c.states
  rtcChecked : c₁.rtcChecked = c.rtcChecked
  rtcOffset : c₁.rtcOffset = c.rtcOffset
  counted : c.Counted → c₁.Counted
  sig : c₁.sig = c.sig ++ [.onSend]

/-- The list was found empty for a send. -/
structure FoundEmpty (c c₁ : PThreadContext A n) : Prop where
  head : c.rtsHead = none
  keeps : KeepsRts c c₁
  states : c₁.states = c.states
  tracking : c₁.toTracking = c.toTracking
  sig : c₁.sig = c.sig ++ [.onSend]

/-- The pop of `softswitch_onSend`. -/
theorem softswitchPopRTS_send : Sat (softswitchPopRTS th ((c.tick th).emit .onSend))
    (fun p => (∃ d, p.1 = some d ∧ Popped c d p.2) ∨ p.1 = none ∧ FoundEmpty c p.2)
    (fun s => s.ctxt.sig = c.sig ++ [.onSend]) := by
  have hsig : ((c.tick th).emit .onSend).sig = c.sig ++ [.onSend] := sig_emit rfl
  refine rtsPop_sat.mono (fun p hp => ?_) fun s h => h.frame.sig.trans hsig
  obtain ⟨dev, c₁⟩ := p
  obtain ⟨hdev, hpop, hlinks⟩ := hp
  have hsig₁ : c₁.sig = c.sig ++ [.onSend] := hpop.frame.sig.trans hsig
  cases dev with
  | none =>
    have hhead : c.rtsHead = none := hdev.symm
    have hsame : c.links.popFront = c.links := by
      unfold Links.popFront
      rw [show c.links.head = none from hhead]
    have hkeeps : KeepsRts c c₁ :=
      ⟨hlinks.trans hsame, hpop.flags_eq, hpop.rtcChecked, hpop.frame.rtcOffset, hpop.frame.counted⟩
    exact .inr ⟨rfl, hhead, hkeeps, hpop.states_eq, hpop.frame.tracking, hsig₁⟩
  | some d =>
    exact .inl ⟨d, rfl, hdev.symm, hlinks, hpop.flags_eq, hpop.states_eq, hpop.rtcChecked,
      hpop.frame.rtcOffset, hpop.frame.counted, hsig₁⟩

namespace Popped

variable {c₁ c₂ c₃ : PThreadContext A n} {pinIndex index size : Nat} {pin : OutputPinVTable A}
  {r : SendResult A.DevState A.Payload} {s s' : SendState A}

/-- The send handler finds the state of `d` as it was. -/
theorem sendResult_eq {payload : A.Payload} (h : Popped c d c₁) :
    sendResult th (trackSend c₁ index pinIndex) d pin payload = sendResult th c d pin payload := by
  have hstate : ((trackSend c₁ index pinIndex).devices d).state = (c.devices d).state :=
    congrFun h.states d
  unfold sendResult
  rw [hstate]

theorem sig_sendEvents (h : Popped c d c₁) :
    c₁.sig ++ [.enter .send d ⟨(th.device d).index, 2, pinIndex⟩,
      .sendReturn d pinIndex r.doSend r.payload] = c.sig ++ sendEvents th d pinIndex r := by
  rw [h.sig, List.append_assoc]
  rfl

/-- The flags of `d` are cleared once its send handler has returned. -/
theorem cleared {st : A.DevState} {t : Tracking} {es : List (Event A n)}
    (hran : Ran (trackSend c₁ index pinIndex) d st t es c₂) :
    Ran (c₁.setRtsFlags d 0#32) d st t es (c₂.setRtsFlags d 0#32) := by
  refine ⟨⟨?_, ?_, hran.keeps.rtcChecked, hran.keeps.rtcOffset, hran.keeps.counted⟩, ?_,
    hran.tracking, hran.sig⟩
  · rw [setRtsFlags_links, setRtsFlags_links]
    exact hran.keeps.links
  · rw [setRtsFlags_flags, setRtsFlags_flags, hran.keeps.flags]
    rfl
  · rw [setRtsFlags_states, setRtsFlags_states]
    exact hran.states

/-- From the pop to the new readiness of `d`. -/
theorem sentFrom (h : Popped c d c₁) (hpin : rightMostOneFrom 32 0 (c.flags d) = some pinIndex)
    (hget : (th.device d).vtable.outputPins[pinIndex]? = some pin)
    (hr : r = sendResult th c d pin s.message.payload) (hs : Prepared th d pinIndex pin r s s')
    (hhandled : Handled th (c₁.setRtsFlags d 0#32) d r.state ⟨(th.device d).index, 2, pinIndex⟩
      [.enter .send d ⟨(th.device d).index, 2, pinIndex⟩,
        .sendReturn d pinIndex r.doSend r.payload] c₃) :
    SentFrom th c d pinIndex pin r s pin.messageSize c₃ s' where
  head := h.head
  pinIndex_eq := hpin
  pin_eq := hget
  result_eq := hr
  size_eq := rfl
  prepared := hs
  states := by rw [hhandled.states, setRtsFlags_states, h.states]
  flags := by rw [hhandled.flags, setRtsFlags_flags, h.flags, update_idem]
  links := by
    rw [hhandled.links, setRtsFlags_links, setRtsFlags_flags, update_self, wantsSend_zero, h.links]
  rtcChecked := by
    have hchecked : (c₁.setRtsFlags d 0#32).rtcChecked = c.rtcChecked := h.rtcChecked
    rw [hhandled.rtcChecked, hchecked]
  rtcOffset := hhandled.rtcOffset.trans h.rtcOffset
  counted hc := hhandled.counted (h.counted hc)
  tracking := hhandled.tracking
  sig := hhandled.sig.trans h.sig_sendEvents

end Popped

theorem softswitchOnSend_sat {isApp : Bool} :
    Sat (softswitchOnSend th c m isApp) (Sent th c m isApp) (fun s => SendStop th c s.ctxt) := by
  unfold softswitchOnSend
  refine Sat.bind (softswitchPopRTS_send.mono (fun _ h => h) fun s h => .inl h) fun p _ hp => ?_
  obtain ⟨dev, c₁⟩ := p
  rcases hp with ⟨d, rfl, hp⟩ | ⟨rfl, hempty⟩
  · have hstop₁ : SendStop th c c₁ := .inl hp.sig
    have hflags : (c₁.devices d).rtsFlags = c.flags d := congrFun hp.flags d
    refine check_reads.then hstop₁ fun _ _ => ?_
    refine Sat.bind (rightMostOne_reads.mono (fun _ h => h) ?_) fun pinIndex _ hpin => ?_
    · rintro s rfl
      exact hstop₁
    refine deref_reads.then hstop₁ fun pin hpin' => ?_
    rw [hflags] at hpin
    refine Sat.bind (callSend_sat.mono (fun _ h => h) ?_) fun q _ hq => ?_
    · -- the handler has been entered and has not returned
      rintro s ⟨-, hsig⟩
      refine .inr ⟨d, pinIndex, sendResult th c d pin m.payload,
        [.onSend, .enter .send d ⟨(th.device d).index, 2, pinIndex⟩], ?_, ?_⟩
      · exact List.prefix_append _ [_]
      · rw [hsig]
        exact (congrArg (· ++ _) hp.sig).trans (List.append_assoc ..)
    obtain ⟨r, c₂⟩ := q
    obtain ⟨hr, hran⟩ := hq
    have hsig₂ : c₂.sig = c.sig ++ sendEvents th d pinIndex r := hran.sig.trans hp.sig_sendEvents
    have hstop₂ : ∀ c' : PThreadContext A n, c'.sig = c₂.sig → SendStop th c c' :=
      fun c' h => .inr ⟨d, pinIndex, r, _, List.prefix_rfl, h.trans hsig₂⟩
    refine check_reads.then (hstop₂ c₂ rfl) fun _ _ => ?_
    refine Sat.bind (writeHeader_sat.mono (fun _ h => h) ?_) fun s' _ hs' => ?_
    · rintro s rfl
      exact hstop₂ c₂ rfl
    have hcleared := Popped.cleared hran
    refine (checkM_reads rtsIsOnList_reads).then (hstop₂ (c₂.setRtsFlags d 0#32) rfl) fun _ _ => ?_
    refine Sat.bind (hcleared.handled.mono (fun _ h => h) ?_) fun c₃ _ h₃ => ?_
    · exact fun s hs => hstop₂ s.ctxt (hs.trans hran.sig.symm)
    have hsent := hp.sentFrom hpin (deref_eq_ok hpin') (hr.trans hp.sendResult_eq) hs' h₃
    exact .inl ⟨d, pinIndex, pin, r, { hsent with }⟩
  · exact .inr ⟨hempty.head, rfl, rfl, hempty.keeps, hempty.states, hempty.tracking, hempty.sig⟩

/-! ## Idling -/

/-- None of the next `k` devices wants to compute. -/
def NoCompute (c : PThreadContext A n) (k : Nat) : Prop :=
  CyclicSweep.Ahead c.rtcOffset k fun e => wantsCompute (c.flags e) = false

/-- The device `k` places on from where the compute search stands wants to compute, and it
is the first one that does; it is within the next chunk of the search. -/
structure FindsCompute (c : PThreadContext A n) (k : Nat) (d : Fin n) : Prop where
  lt_chunk : k < idleSweepChunkSize
  place : d.val = (c.rtcOffset + k) % n
  wants : wantsCompute (c.flags d) = true
  first : NoCompute c k

/-- The context after the search has looked at `k` devices. -/
def swept (c : PThreadContext A n) (k : Nat) : PThreadContext A n :=
  { c with rtcChecked := c.rtcChecked + k, rtcOffset := (c.rtcOffset + k) % n }

/-- There are few enough devices for the counters of the search not to wrap. -/
theorem PThread.n_lt (th : PThread A n) : n + idleSweepChunkSize < 2 ^ 32 := by
  have := th.devices_fit
  simp only [sizeofDeviceContext, idleSweepChunkSize] at *
  omega

theorem swept_swept {k l : Nat} : swept (swept c k) l = swept c (k + l) := by
  simp [swept, Nat.add_assoc]

theorem advanceSearch_eq (ho : c.rtcOffset < n) (hn : n < 2 ^ 32)
    (hc : c.rtcChecked + 1 < 2 ^ 32) : advanceSearch c = swept c 1 := by
  have hoff : (c.rtcOffset + 1) % 2 ^ 32 = c.rtcOffset + 1 := Nat.mod_eq_of_lt (by omega)
  have hchk : (c.rtcChecked + 1) % 2 ^ 32 = c.rtcChecked + 1 := Nat.mod_eq_of_lt hc
  have hwrap : (if n ≤ c.rtcOffset + 1 then 0 else c.rtcOffset + 1) = (c.rtcOffset + 1) % n := by
    split
    · have : c.rtcOffset + 1 = n := by omega
      rw [this, Nat.mod_self]
    · rw [Nat.mod_eq_of_lt (by omega)]
  unfold advanceSearch swept
  dsimp only
  rw [hoff, hchk, hwrap]

/-- One look of the search. -/
theorem idleSweep_succ {fuel : Nat} (ho : c.rtcOffset < n) (hn : n < 2 ^ 32)
    (hc : c.rtcChecked + 1 < 2 ^ 32) :
    idleSweep (fuel + 1) c = if wantsCompute (c.flags ⟨c.rtcOffset, ho⟩) then
      .ok (some ⟨c.rtcOffset, ho⟩, swept c 1) else idleSweep fuel (swept c 1) := by
  rw [idleSweep, dif_pos ho]
  rw [advanceSearch_eq ho hn hc]
  rfl

/-- The search finds the first device that wants to compute, or passes over `fuel`
devices. -/
theorem idleSweep_cases {fuel : Nat} (ho : c.rtcOffset < n) (hn : n < 2 ^ 32)
    (hc : c.rtcChecked + fuel < 2 ^ 32) :
    (∃ k d, k < fuel ∧ d.val = (c.rtcOffset + k) % n ∧ wantsCompute (c.flags d) = true ∧
      NoCompute c k ∧ idleSweep fuel c = .ok (some d, swept c (k + 1))) ∨
    (NoCompute c fuel ∧ idleSweep fuel c = .ok (none, swept c fuel)) := by
  induction fuel generalizing c with
  | zero =>
    refine .inr ⟨fun j hj => by omega, ?_⟩
    simp [idleSweep, swept, Nat.mod_eq_of_lt ho]
  | succ fuel ih =>
    rw [idleSweep_succ ho hn (by omega)]
    cases hw : wantsCompute (c.flags ⟨c.rtcOffset, ho⟩) with
    | true =>
      refine .inl ⟨0, ⟨c.rtcOffset, ho⟩, by omega, ?_, hw, fun j hj => by omega, rfl⟩
      simp [Nat.mod_eq_of_lt ho]
    | false =>
      have hplace : ∀ k, ((swept c 1).rtcOffset + k) % n = (c.rtcOffset + (k + 1)) % n := by
        intro k
        simp only [swept, Nat.mod_add_mod]
        congr 1
        omega
      have hno : ∀ k, NoCompute (swept c 1) k → NoCompute c (k + 1) := by
        intro k h j hj e he
        cases j with
        | zero =>
          have : e = ⟨c.rtcOffset, ho⟩ := Fin.ext (he.trans (Nat.mod_eq_of_lt ho))
          rw [this]
          exact hw
        | succ j => exact h j (by omega) e (by rw [hplace, he])
      have hlt : (swept c 1).rtcOffset < n := Nat.mod_lt _ (by omega)
      rw [if_neg (by simp)]
      rcases ih hlt (by show c.rtcChecked + 1 + fuel < 2 ^ 32; omega) with
        ⟨k, d, hk, hd, hwd, hnok, heq⟩ | ⟨hnok, heq⟩
      · refine .inl ⟨k + 1, d, by omega, by rw [hd, hplace], hwd, hno k hnok, ?_⟩
        rw [heq, swept_swept, Nat.add_comm 1]
      · refine .inr ⟨hno fuel hnok, ?_⟩
        rw [heq, swept_swept, Nat.add_comm 1]

/-- There is one device to find. -/
theorem FindsCompute.unique {k l : Nat} {e : Fin n} (h : FindsCompute c k d)
    (h' : FindsCompute c l e) : k = l ∧ d = e := by
  have hkl : k = l := by
    rcases Nat.lt_trichotomy k l with hlt | heq | hgt
    · have := h'.first k hlt d h.place
      simp [h.wants] at this
    · exact heq
    · have := h.first l hgt e h'.place
      simp [h'.wants] at this
  subst hkl
  exact ⟨rfl, Fin.ext (h.place.trans h'.place.symm)⟩

/-- The search of `softswitch_onIdle`, where it is not over. -/
theorem idleSweep_chunk (th : PThread A n) (hlt : c.rtcChecked < n) (ho : c.rtcOffset < n) :
    (∃ k d, FindsCompute c k d ∧
      idleSweep idleSweepChunkSize c = .ok (some d, swept c (k + 1))) ∨
    (NoCompute c idleSweepChunkSize ∧
      idleSweep idleSweepChunkSize c = .ok (none, swept c idleSweepChunkSize)) := by
  have hn := th.n_lt
  rcases idleSweep_cases ho (by omega)
    (show c.rtcChecked + idleSweepChunkSize < 2 ^ 32 by omega) with
    ⟨k, d, hk, hd, hwd, hno, heq⟩ | h
  · exact .inl ⟨k, d, ⟨hk, hd, hwd, hno⟩, heq⟩
  · exact .inr h

theorem idleSweep_of_finds {k : Nat} (th : PThread A n) (hlt : c.rtcChecked < n)
    (ho : c.rtcOffset < n) (h : FindsCompute c k d) :
    idleSweep idleSweepChunkSize c = .ok (some d, swept c (k + 1)) := by
  rcases idleSweep_chunk th hlt ho with ⟨l, e, h', heq⟩ | ⟨hno, -⟩
  · obtain ⟨rfl, rfl⟩ := h.unique h'
    exact heq
  · have := hno k h.lt_chunk d h.place
    simp [h.wants] at this

theorem idleSweep_outOfBounds (ho : ¬c.rtcOffset < n) :
    idleSweep idleSweepChunkSize c = .error ⟨.outOfBounds, c⟩ := by
  simp [idleSweepChunkSize, idleSweep, ho, PThreadContext.fail]

/-- What the compute handler of `d` returns. -/
def computeResult (th : PThread A n) (c : PThreadContext A n) (d : Fin n) :
    HandlerResult A.DevState :=
  (th.device d).vtable.computeHandler th.graphProps (th.device d).properties (c.devices d).state

theorem callCompute_sat :
    Sat (callCompute th c d)
      (Ran c d (computeResult th c d).state c.toTracking [.enter .compute d c.toTracking])
      (RanStop c [.enter .compute d c.toTracking]) :=
  ran_enter.runCalls

/-- What `softswitch_onIdle` does: nothing when the search is over, else it looks at the
next chunk of devices and handles the first one that wants to compute. -/
def Idled (th : PThread A n) (c : PThreadContext A n) (out : Bool × PThreadContext A n) : Prop :=
  (n ≤ c.rtcChecked ∧ out = (false, c)) ∨
  (c.rtcChecked < n ∧ c.rtcOffset < n ∧ NoCompute c idleSweepChunkSize ∧
    out = (true, swept c idleSweepChunkSize)) ∨
  (c.rtcChecked < n ∧ c.rtcOffset < n ∧ ∃ k d, FindsCompute c k d ∧ out.1 = true ∧
    Handled th (swept c (k + 1)) d (computeResult th c d).state c.toTracking
      [.enter .compute d c.toTracking] out.2)

/-- Where `softswitch_onIdle` may stop. -/
def IdleStop (c c' : PThreadContext A n) : Prop :=
  c'.sig = c.sig ∨ c.rtcChecked < n ∧ c.rtcOffset < n ∧ ∃ k d, FindsCompute c k d ∧
    c'.sig = c.sig ++ [.enter .compute d c.toTracking]

/-- The device that the search finds is handled. -/
theorem softswitchOnIdle_finds (th : PThread A n) {k : Nat} (hlt : c.rtcChecked < n)
    (ho : c.rtcOffset < n) (h : FindsCompute c k d) :
    Sat (softswitchOnIdle th c)
      (fun out => out.1 = true ∧ Handled th (swept c (k + 1)) d (computeResult th c d).state
        c.toTracking [.enter .compute d c.toTracking] out.2)
      (fun s => s.ctxt.sig = c.sig ++ [.enter .compute d c.toTracking]) := by
  unfold softswitchOnIdle
  rw [if_neg (by omega), idleSweep_of_finds th hlt ho h, ok_bind]
  refine Sat.bind (callCompute_sat.mono (fun _ h => h) fun s h => h.2) fun c₁ _ h₁ => ?_
  refine Sat.bind (checkOnList_reads.mono (fun _ h => h) fun s hs => ?_) fun _ _ _ => ?_
  · rw [hs]
    exact h₁.sig
  · refine Sat.bind (h₁.handled.mono (fun _ h => h) fun s h => h) fun c₂ _ h₂ => ?_
    exact ⟨rfl, h₂⟩

/-- The search that finds nothing in its chunk. -/
theorem softswitchOnIdle_noCompute (hlt : c.rtcChecked < n) (ho : c.rtcOffset < n)
    (h : NoCompute c idleSweepChunkSize) :
    softswitchOnIdle th c = .ok (true, swept c idleSweepChunkSize) := by
  unfold softswitchOnIdle
  rw [if_neg (by omega)]
  rcases idleSweep_chunk th hlt ho with ⟨k, d, hfinds, -⟩ | ⟨-, heq⟩
  · have := h k hfinds.lt_chunk d hfinds.place
    simp [hfinds.wants] at this
  · rw [heq]
    rfl

theorem softswitchOnIdle_over (h : n ≤ c.rtcChecked) :
    softswitchOnIdle th c = .ok (false, c) := by
  unfold softswitchOnIdle
  rw [if_pos h]
  rfl

theorem softswitchOnIdle_sat :
    Sat (softswitchOnIdle th c) (Idled th c) (fun s => IdleStop c s.ctxt) := by
  by_cases hdone : n ≤ c.rtcChecked
  · rw [softswitchOnIdle_over hdone]
    exact .inl ⟨hdone, rfl⟩
  have hlt : c.rtcChecked < n := by omega
  by_cases ho : c.rtcOffset < n
  · rcases idleSweep_chunk th hlt ho with ⟨k, d, hfinds, -⟩ | ⟨hno, -⟩
    · exact (softswitchOnIdle_finds th hlt ho hfinds).mono
        (fun out h => .inr (.inr ⟨hlt, ho, k, d, hfinds, h.1, h.2⟩))
        fun s h => .inr ⟨hlt, ho, k, d, hfinds, h⟩
    · rw [softswitchOnIdle_noCompute hlt ho hno]
      exact .inr (.inl ⟨hlt, ho, hno, rfl⟩)
  · unfold softswitchOnIdle
    rw [if_neg hdone, idleSweep_outOfBounds ho]
    exact .inl rfl

/-! ## Hardware idle -/

/-- What a hardware idle handler records. -/
def hardwareIdleEvents (c : PThreadContext A n) (d : Fin n) : List (Event A n) :=
  [.enter .hardwareIdle d ⟨d, 5, c.currentPin⟩]

/-- What the hardware idle of `d` does: nothing without a handler. -/
def HardwareIdled (th : PThread A n) (c : PThreadContext A n) (d : Fin n)
    (c' : PThreadContext A n) : Prop :=
  c' = c ∨ ∃ handler, (th.device d).vtable.onHardwareIdleHandler = some handler ∧
    Handled th c d (handler th.graphProps (th.device d).properties (c.devices d).state).state
      ⟨d, 5, c.currentPin⟩ (hardwareIdleEvents c d) c'

/-- Where the hardware idle of `d` may stop. -/
def HardwareIdleStop (c : PThreadContext A n) (d : Fin n) (c' : PThreadContext A n) : Prop :=
  c'.sig = c.sig ∨ c'.sig = c.sig ++ hardwareIdleEvents c d

/-- The hardware idle handler of `d` is entered and leaves the state `σ`. -/
theorem ran_hardwareIdle {σ : A.DevState} : Ran c d σ ⟨d, 5, c.currentPin⟩
    (hardwareIdleEvents c d) (((c.track d 5).enter .hardwareIdle d).setState d σ) := by
  have h : Ran (c.track d 5) d σ (c.track d 5).toTracking
      [.enter .hardwareIdle d (c.track d 5).toTracking]
      (((c.track d 5).enter .hardwareIdle d).setState d σ) := ran_enter
  exact ⟨⟨h.keeps.links, h.keeps.flags, rfl, rfl, id⟩, h.states, rfl, h.sig⟩

theorem hardwareIdleDevice_sat :
    Sat (hardwareIdleDevice th c d) (HardwareIdled th c d)
      (fun s => HardwareIdleStop c d s.ctxt) := by
  unfold hardwareIdleDevice
  refine check_reads.then (Or.inl rfl) fun _ _ => ?_
  refine (checkM_reads rtsIsOnList_reads).then (Or.inl rfl) fun _ _ => ?_
  cases hhandler : (th.device d).vtable.onHardwareIdleHandler with
  | none => exact .inl rfl
  | some handler =>
    refine Sat.bind (ran_hardwareIdle.runCalls.mono (fun _ h => h) fun s h => .inr h.2)
      fun c₁ _ h₁ => ?_
    exact h₁.handled.mono (fun c₂ h₂ => .inr ⟨handler, hhandler, h₂⟩) fun s h => .inr h

/-- What the hardware idle of every device keeps, `softswitch_on_hardware_idle` keeps. -/
theorem softswitchOnHardwareIdle_keeps {I : PThreadContext A n → Prop} (hclear : I (clearRts c))
    (hdevice : ∀ d s s', I s → HardwareIdled th s d s' → I s')
    (hreturn : ∀ s, I s → I { s with currentHandlerType := 0 })
    (hok : softswitchOnHardwareIdle th c = .ok c') : I c' := by
  have hloop : Sat ((List.finRange n).foldlM (hardwareIdleDevice th) (clearRts c)) I
      (fun _ => True) := by
    refine Sat.foldlM (fun s d _ hs => ?_) hclear
    exact hardwareIdleDevice_sat.mono (fun s' h => hdevice d s s' hs h) fun _ _ => trivial
  obtain ⟨c₁, hc₁, hret⟩ := bind_eq_ok.1 hok
  cases hret
  apply hreturn
  exact hloop.of_ok hc₁

/-! ## Initialisation -/

/-- The flags and the state that the initialisation of `d` leaves. -/
def initResult (th : PThread A n) (c : PThreadContext A n) (d : Fin n) :
    ReadyResult A.DevState :=
  readyResult th d ((th.device d).vtable.initHandler th.graphProps (th.device d).properties
    (c.devices d).state).state

/-- What an init handler records. -/
def initEvents (c : PThreadContext A n) (d : Fin n) : List (Event A n) :=
  [.enter .init d ⟨d, 4, c.currentPin⟩]

/-- What the initialisation of `d` does. -/
structure Initialised (th : PThread A n) (c : PThreadContext A n) (d : Fin n)
    (c' : PThreadContext A n) : Prop where
  states : c'.states = update c.states d (initResult th c d).state
  flags : c'.flags = update c.flags d (initResult th c d).flags
  links : c'.links = if wantsSend (initResult th c d).flags then c.links.pushBack d else c.links
  rtcChecked : c'.rtcChecked = c.rtcChecked
  rtcOffset : c'.rtcOffset = c.rtcOffset
  counted : c.Counted → c'.Counted
  tracking : c'.toTracking = ⟨d, 4, c.currentPin⟩
  sig : c'.sig = c.sig ++ initEvents c d

theorem initDevice_sat :
    Sat (initDevice th c d) (Initialised th c d)
      (fun s => s.ctxt.sig = c.sig ++ initEvents c d) := by
  let r := (th.device d).vtable.initHandler th.graphProps (th.device d).properties
    (c.devices d).state
  have hran : Ran c d r.state ⟨d, 4, c.currentPin⟩ (initEvents c d)
      (((c.track d 4).enter .init d).setState d r.state) := by
    have h : Ran (c.track d 4) d r.state (c.track d 4).toTracking
        [.enter .init d (c.track d 4).toTracking]
        (((c.track d 4).enter .init d).setState d r.state) := ran_enter
    exact ⟨⟨h.keeps.links, h.keeps.flags, rfl, rfl, id⟩, h.states, rfl, h.sig⟩
  unfold initDevice
  refine Sat.bind (hran.runCalls.mono (fun _ h => h) fun s h => h.2) fun c₁ _ h₁ => ?_
  have hs : c₁.states d = r.state := by rw [h₁.states, update_self]
  refine Sat.bind (callReadyToSend_sat.mono (fun _ h => h) ?_) fun p _ hp => ?_
  · exact fun s h => h.1.sig_eq.trans h₁.sig
  obtain ⟨f, c₂⟩ := p
  obtain ⟨hf, hstep⟩ := hp
  rw [hs] at hf hstep
  subst hf
  let c₃ := c₂.setRtsFlags d (initResult th c d).flags
  have hsig : c₃.sig = c.sig ++ initEvents c d := hstep.sig_eq.trans h₁.sig
  have hstates : c₃.states = update c.states d (initResult th c d).state := by
    rw [setRtsFlags_states, hstep.states_eq, setState_states, h₁.states, update_idem]
    rfl
  have hflags : c₃.flags = update c.flags d (initResult th c d).flags := by
    rw [setRtsFlags_flags, hstep.flags_eq, setState_flags, h₁.keeps.flags]
  have hlinks : c₃.links = c.links := by
    rw [setRtsFlags_links, hstep.links_eq, setState_links, h₁.keeps.links]
  have hchecked : c₃.rtcChecked = c.rtcChecked := hstep.rtcChecked.trans h₁.keeps.rtcChecked
  have hoffset : c₃.rtcOffset = c.rtcOffset := hstep.frame.rtcOffset.trans h₁.keeps.rtcOffset
  have hcounted : c.Counted → c₃.Counted := fun h => hstep.counted (h₁.keeps.counted h)
  have htracking : c₃.toTracking = ⟨d, 4, c.currentPin⟩ := hstep.frame.tracking.trans h₁.tracking
  dsimp only
  split
  · rename_i hw
    have hw' : wantsSend (initResult th c d).flags = true := hw
    refine rtsAppend_sat.mono (fun c₄ h => ?_) fun s h => h.frame.sig.trans hsig
    obtain ⟨h, hl⟩ := h
    refine ⟨h.states_eq.trans hstates, h.flags_eq.trans hflags, ?_, h.rtcChecked.trans hchecked,
      h.frame.rtcOffset.trans hoffset, fun hc => h.frame.counted (hcounted hc),
      h.frame.tracking.trans htracking, h.frame.sig.trans hsig⟩
    rw [if_pos hw', hl]
    exact congrArg (Links.pushBack · d) hlinks
  · rename_i hw
    have hw' : ¬wantsSend (initResult th c d).flags = true := hw
    refine ⟨hstates, hflags, ?_, hchecked, hoffset, hcounted, htracking, hsig⟩
    rw [if_neg hw']
    exact hlinks

theorem softswitchInit_loop (hok : softswitchInit th c = .ok c') :
    (List.finRange n).foldlM (initDevice th) (clearRts (zeroProfileCounters th c)) = .ok c' := by
  obtain ⟨-, -, hloop⟩ := bind_eq_ok.1 hok
  exact hloop

/-- What the initialisation of every device keeps, `softswitch_init` keeps. -/
theorem softswitchInit_keeps {I : PThreadContext A n → Prop}
    (hclear : I (clearRts (zeroProfileCounters th c)))
    (hdevice : ∀ d s s', I s → Initialised th s d s' → I s')
    (hok : softswitchInit th c = .ok c') : I c' := by
  have hloop : Sat ((List.finRange n).foldlM (initDevice th) (clearRts (zeroProfileCounters th c)))
      I (fun _ => True) := by
    refine Sat.foldlM (fun s d _ hs => ?_) hclear
    exact initDevice_sat.mono (fun s' h => hdevice d s s' hs h) fun _ _ => trivial
  exact hloop.of_ok (softswitchInit_loop hok)

/-- The state that the init handler of `d` leaves. -/
def initState (th : PThread A n) (c : PThreadContext A n) (d : Fin n) : A.DevState :=
  ((th.device d).vtable.initHandler th.graphProps (th.device d).properties (c.states d)).state

/-- The devices below `i` are initialised, the others are as in `c₀`. -/
structure InitialisedTo (th : PThread A n) (c₀ c : PThreadContext A n) (i : Nat) : Prop where
  states : ∀ d : Fin n, d.val < i → c.states d = (readyResult th d (initState th c₀ d)).state
  flags : ∀ d : Fin n, d.val < i → c.flags d = (readyResult th d (initState th c₀ d)).flags
  untouched : ∀ d : Fin n, i ≤ d.val → c.states d = c₀.states d

theorem InitialisedTo.step {c₀ : PThreadContext A n} (hc : InitialisedTo th c₀ c d)
    (h : Initialised th c d c') : InitialisedTo th c₀ c' (d + 1) := by
  have hresult : initResult th c d = readyResult th d (initState th c₀ d) := by
    unfold initState
    rw [← hc.untouched d le_rfl]
    rfl
  refine ⟨fun e he => ?_, fun e he => ?_, fun e he => ?_⟩
  · rw [h.states, hresult]
    by_cases hed : e = d
    · subst hed
      rw [update_self]
    · rw [update_of_ne hed]
      exact hc.states e (by have := Fin.val_ne_of_ne hed; omega)
  · rw [h.flags, hresult]
    by_cases hed : e = d
    · subst hed
      rw [update_self]
    · rw [update_of_ne hed]
      exact hc.flags e (by have := Fin.val_ne_of_ne hed; omega)
  · have hed : e ≠ d := by
      rintro rfl
      omega
    rw [h.states, update_of_ne hed]
    exact hc.untouched e (by omega)

theorem softswitchInit_initialised (hok : softswitchInit th c = .ok c') :
    InitialisedTo th c c' n := by
  have hclear : InitialisedTo th c (clearRts (zeroProfileCounters th c)) 0 :=
    ⟨fun d hd => absurd hd (Nat.not_lt_zero _), fun d hd => absurd hd (Nat.not_lt_zero _),
      fun d _ => rfl⟩
  have hstep : ∀ (d : Fin n) s, InitialisedTo th c s d →
      Sat (initDevice th s d) (fun s' => InitialisedTo th c s' (d + 1)) (fun _ => True) :=
    fun d s hs => initDevice_sat.mono (fun _ h => hs.step h) fun _ _ => trivial
  exact (Sat.foldlM_finRange (I := fun i s => InitialisedTo th c s i) hstep hclear).of_ok
    (softswitchInit_loop hok)

/-! ## Runs of events -/

/-- What an event does where it returns. -/
def Happened (th : PThread A n) (c c' : PThreadContext A n) : ThreadEvent A → Prop
  | .receive m => Received th c m c'
  | .send m isApp => ∃ size s, Sent th c m isApp (size, c', s)
  | .idle => ∃ more, Idled th c (more, c')
  | .hardwareIdle => softswitchOnHardwareIdle th c = .ok c'

theorem threadStep_happened {e : ThreadEvent A} (hok : threadStep th c e = .ok c') :
    Happened th c c' e := by
  cases e with
  | receive m => exact softswitchOnReceive_sat.of_ok hok
  | send m isApp =>
    obtain ⟨⟨size, c₁, s⟩, hout, hret⟩ := bind_eq_ok.1 hok
    cases hret
    exact ⟨size, s, softswitchOnSend_sat.of_ok hout⟩
  | idle =>
    obtain ⟨⟨more, c₁⟩, hout, hret⟩ := bind_eq_ok.1 hok
    cases hret
    exact ⟨more, softswitchOnIdle_sat.of_ok hout⟩
  | hardwareIdle => exact hok

/-- What refreshing the readiness of a device keeps, an event keeps. -/
theorem Happened.keeps {I : (Fin n → A.DevState) → (Fin n → BitVec 32) → Prop}
    (hrefresh : ∀ states flags d s, I states flags →
      I (update states d (readyResult th d s).state) (update flags d (readyResult th d s).flags))
    {e : ThreadEvent A} (h : Happened th c c' e) (hc : I c.states c.flags) :
    I c'.states c'.flags := by
  cases e with
  | receive m =>
    rcases h with ⟨d, target, -, -, h⟩ | ⟨d, -, -, -, h, hstates, -⟩
    · rw [h.states, h.flags]
      exact hrefresh _ _ d _ hc
    · rwa [hstates, h.flags]
  | send m isApp =>
    obtain ⟨size, s, ⟨d, pinIndex, pin, r, h⟩ | ⟨-, -, -, h, hstates, -⟩⟩ := h
    · rw [h.states, h.flags]
      exact hrefresh _ _ d _ hc
    · have hflags : c'.flags = c.flags := h.flags
      have hstates : c'.states = c.states := hstates
      rwa [hstates, hflags]
  | idle =>
    obtain ⟨more, ⟨-, heq⟩ | ⟨-, -, -, heq⟩ | ⟨-, -, k, d, -, -, h⟩⟩ := h
    · cases heq
      exact hc
    · cases heq
      exact hc
    · have hswept : I (swept c (k + 1)).states (swept c (k + 1)).flags := hc
      rw [h.states, h.flags]
      exact hrefresh _ _ d _ hswept
  | hardwareIdle =>
    have hclear : I (clearRts c).states (clearRts c).flags := hc
    refine softswitchOnHardwareIdle_keeps (I := fun s => I s.states s.flags) hclear ?_
      (fun s hs => hs) h
    rintro d s s' hs (rfl | ⟨_, -, h⟩)
    · exact hs
    · rw [h.states, h.flags]
      exact hrefresh _ _ d _ hs

/-- What the initialisation gives and every event keeps holds after every run. -/
theorem threadRun_keeps {I : PThreadContext A n → Prop} {events : List (ThreadEvent A)}
    (hinit : ∀ s, softswitchInit th c = .ok s → I s)
    (hevent : ∀ s e s', I s → Happened th s s' e → I s')
    (hrun : threadRun th c events = .ok c') : I c' := by
  obtain ⟨c₁, hc₁, hlist⟩ := bind_eq_ok.1 hrun
  refine runList_invariant (fun s e s' hs hok => ?_) (hinit c₁ hc₁) hlist
  exact hevent s e s' hs (threadStep_happened hok)

end Softswitch
