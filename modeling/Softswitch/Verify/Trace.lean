import Softswitch.Verify.MainLoop

/-!
# What a step leaves for the logs

A step of the main loop only adds to the trace, output included.  The tracking fields tell the
log of a handler where to look: if they name a device and one of its pins before a step, they do
so afterwards.
-/

namespace Softswitch

open Outcome Function

variable {A : AppTypes} {n : Nat} {th : PThread A n} {c c' c'' : PThreadContext A n}
  {s s' : Main A n} {i : LoopInput A} {w : WaitLocals} {d : Fin n} {m : Message A}

/-- The tracking fields name a device and, where the handler is one of a pin, a pin of it. -/
def NamesHandler (th : PThread A n) (t : Tracking) : Prop :=
  ∃ d : Fin n, t.currentDevice = d ∧
    (t.currentHandlerType = 1 → t.currentPin < (th.device d).vtable.inputPins.length) ∧
    (t.currentHandlerType = 2 → t.currentPin < (th.device d).vtable.outputPins.length)

/-- A handler that is not one of a pin. -/
theorem NamesHandler.of_type {type pin : Nat} (h₁ : type ≠ 1) (h₂ : type ≠ 2) :
    NamesHandler th ⟨d, type, pin⟩ :=
  ⟨d, rfl, fun h => absurd h h₁, fun h => absurd h h₂⟩

/-- The trace of `c'` goes on where that of `c` ends, and the tracking fields still name a
handler. -/
structure Continues (th : PThread A n) (c c' : PThreadContext A n) : Prop where
  trace : c.trace <+: c'.trace
  tracking : (∀ d, (th.device d).index = d) → NamesHandler th c.toTracking →
    NamesHandler th c'.toTracking

namespace Continues

/-- Nothing is emitted, and the tracking fields stay. -/
theorem same (h : c'.trace = c.trace) (ht : c'.toTracking = c.toTracking) : Continues th c c' :=
  ⟨h ▸ List.prefix_rfl, fun _ hc => ht ▸ hc⟩

theorem refl (c : PThreadContext A n) : Continues th c c := same rfl rfl

/-- An event is emitted under the tracking fields as they are. -/
theorem adds {e : Event A n} (h : c'.trace = c.trace ++ [e])
    (ht : c'.toTracking = c.toTracking) : Continues th c c' :=
  ⟨h ▸ List.prefix_append _ _, fun _ hc => ht ▸ hc⟩

/-- The tracking fields are set. -/
theorem tracks (h : c'.trace = c.trace)
    (ht : (∀ d, (th.device d).index = d) → NamesHandler th c'.toTracking) : Continues th c c' :=
  ⟨h ▸ List.prefix_rfl, fun hindex _ => ht hindex⟩

/-- What each of two parts does, both do together. -/
theorem trans (h₁ : Continues th c c') (h₂ : Continues th c' c'') : Continues th c c'' :=
  ⟨h₁.trace.trans h₂.trace, fun hindex hc => h₂.tracking hindex (h₁.tracking hindex hc)⟩

theorem emit {e : Event A n} (h : Continues th c c') : Continues th c (c'.emit e) :=
  h.trans (adds rfl rfl)

/-- A handler is entered, and emits that it is. -/
theorem enter {kind : HandlerKind} (h : Continues th c c') : Continues th c (c'.enter kind d) :=
  h.emit

theorem setState {σ : A.DevState} (h : Continues th c c') : Continues th c (c'.setState d σ) :=
  h.trans (same rfl rfl)

theorem storeEdgeState {p : Option Nat} {σ : Option A.EdgeState} (h : Continues th c c') :
    Continues th c (storeEdgeState c' p σ) := by
  refine h.trans ?_
  unfold Softswitch.storeEdgeState
  split <;> exact same rfl rfl

theorem mapPerf {f : Perf → Perf} (h : Continues th c c') : Continues th c (c'.mapPerf f) :=
  h.trans (same rfl rfl)

theorem tick (h : Continues th c c') : Continues th c (c'.tick th) := h.mapPerf

theorem addCycles {t : BitVec 32} {add : Perf → BitVec 32 → Perf} (h : Continues th c c') :
    Continues th c (c'.addCycles th t add) := h.mapPerf

/-- What is done first comes before what the rest does. -/
theorem sat {x : Outcome A n (PThreadContext A n)} (h : Continues th c c')
    (hx : Sat x (Continues th c') fun _ => True) : Sat x (Continues th c) fun _ => True :=
  Sat.mono hx (fun _ h' => h.trans h') fun _ h => h

end Continues

/-- Messages to the host do not touch the tracking fields. -/
theorem HostStep.continues (h : HostStep c c') : Continues th c c' := by
  have htracking := h.frame.tracking
  obtain ⟨_, es, _, _, rfl⟩ := h
  exact ⟨List.prefix_append _ _, fun _ hc => htracking ▸ hc⟩

/-- The links of the list are not seen in the trace. -/
theorem LinksOnly.continues (h : LinksOnly c c') : Continues th c c' := by
  have htracking := h.frame.tracking
  obtain ⟨_, _, _, rfl, _, _⟩ := h
  exact .same rfl htracking

/-! ## Events -/

/-- The services a handler calls. -/
theorem Continues.calls {calls : List HandlerCall} (h : Continues th c c')
    (hok : runCalls th c' calls = .ok c'') : Continues th c c'' :=
  h.trans (runCalls_service.of_ok hok).continues

/-- The ready-to-send handler runs under the tracking fields of the handler before it. -/
theorem softswitchUpdateRTS_continues :
    Sat (softswitchUpdateRTS th c d) (Continues th c) fun _ => True := by
  have hstored : ∀ (c₁ : PThreadContext A n) f, Continues th c₁ (storedFlags c₁ d f) := by
    intro c₁ f
    unfold storedFlags
    split <;> exact .same rfl rfl
  unfold softswitchUpdateRTS
  refine Sat.bind_ok fun _ _ => Sat.bind_ok fun r hr => ?_
  obtain ⟨-, hstep⟩ := callReadyToSend_sat.of_ok hr
  refine rtsStoreFlags_sat.mono (fun c' h => ?_) fun _ _ => trivial
  have hready : Continues th c r.2 := (Continues.refl c).setState.trans hstep.continues
  exact (hready.trans (hstored r.2 r.1)).trans h.1.continues

/-- The pin that is found is that of the message. -/
theorem receiveTarget_pin {target : ReceiveTarget A} (h : receiveTarget th c d m = .ok target) :
    (th.device d).vtable.inputPins[m.dest.pin.toNat]? = some target.pin := by
  obtain ⟨-, -, h⟩ := bind_eq_ok.1 h
  obtain ⟨pin, hpin, h⟩ := bind_eq_ok.1 h
  have hpin := deref_eq_ok hpin
  split at h
  · cases h
    exact hpin
  · obtain ⟨_, -, h⟩ := bind_eq_ok.1 h
    obtain ⟨_, -, h⟩ := bind_eq_ok.1 h
    obtain ⟨_, -, h⟩ := bind_eq_ok.1 h
    obtain ⟨_, -, h⟩ := bind_eq_ok.1 h
    cases h
    exact hpin

/-- What `softswitch_onReceive` stores before it calls the handler names this handler. -/
theorem NamesHandler.receive {pin : InputPinVTable A}
    (h : (th.device d).vtable.inputPins[m.dest.pin.toNat]? = some pin) :
    NamesHandler th ⟨d, 1, m.dest.pin.toNat⟩ :=
  ⟨d, rfl, fun _ => (List.getElem?_eq_some_iff.1 h).1, fun h => by cases h⟩

theorem dispatchReceive_continues :
    Sat (dispatchReceive th c d m) (Continues th c) fun _ => True := by
  unfold dispatchReceive
  refine Sat.bind_ok fun target htarget => ?_
  have htrack : Continues th c { c.track d 1 with currentPin := m.dest.pin.toNat } :=
    .tracks rfl fun _ => .receive (receiveTarget_pin htarget)
  unfold callReceive
  refine Sat.bind_ok fun c₁ h₁ => ?_
  exact (htrack.tick.enter.emit.setState.storeEdgeState.calls h₁).addCycles

/-- The tracking fields name the receive handler from before its call on. -/
theorem softswitchOnReceive_continues :
    Sat (softswitchOnReceive th c m) (Continues th c) fun _ => True := by
  unfold softswitchOnReceive
  refine Sat.bind_ok fun _ _ => Sat.bind_ok fun _ _ => ?_
  dsimp only
  split
  · split
    · exact Sat.bind_ok fun _ _ => (Continues.refl c).tick.addCycles
    · refine Sat.bind_ok fun c₁ h₁ => Sat.bind_ok fun _ _ => Sat.bind_ok fun c₂ h₂ =>
        Sat.bind_ok fun _ _ => ?_
      have hdispatch := (Continues.refl c).tick.trans (dispatchReceive_continues.of_ok h₁)
      exact (hdispatch.trans (softswitchUpdateRTS_continues.of_ok h₂)).addCycles
  · trivial

theorem callSend_continues {pinIndex : Nat} {pin : OutputPinVTable A} {payload : A.Payload} :
    Sat (callSend th c d pinIndex pin payload) (fun r => Continues th c r.2) fun _ => True := by
  unfold callSend
  refine Sat.bind_ok fun c₁ h₁ => ?_
  rw [pure_eq_ok, sat_ok]
  dsimp only
  exact ((Continues.refl c).tick.enter.setState.calls h₁).emit.addCycles

/-- The tracking fields name the send handler from before its call on. -/
theorem softswitchOnSend_continues {isApp : Bool} :
    Sat (softswitchOnSend th c m isApp) (fun out => Continues th c out.2.1) fun _ => True := by
  unfold softswitchOnSend
  refine Sat.bind_ok fun p hp => ?_
  obtain ⟨dev, c₁⟩ := p
  have hpop : Continues th c c₁ :=
    (Continues.refl c).tick.emit.trans (rtsPop_sat.of_ok hp).2.1.continues
  cases dev with
  | none => exact hpop
  | some d =>
    refine Sat.bind_ok fun _ _ => Sat.bind_ok fun pinIndex _ => Sat.bind_ok fun pin hpin =>
      Sat.bind_ok fun r hr => Sat.bind_ok fun _ _ => Sat.bind_ok fun _ _ =>
      Sat.bind_ok fun _ _ => Sat.bind_ok fun c₃ h₃ => ?_
    have hlt := (List.getElem?_eq_some_iff.1 (deref_eq_ok hpin)).1
    have htrack : Continues th c₁ (trackSend c₁ (th.device d).index pinIndex) :=
      .tracks rfl fun hindex => ⟨d, hindex d, fun h => (by cases h), fun _ => hlt⟩
    have hsend := htrack.trans (callSend_continues.of_ok hr)
    have hclear : Continues th r.2 (r.2.setRtsFlags d 0#32) := .same rfl rfl
    have hupdate := hclear.trans (softswitchUpdateRTS_continues.of_ok h₃)
    rw [pure_eq_ok, sat_ok]
    dsimp only
    exact ((hpop.trans hsend).trans hupdate).addCycles

theorem idleSweep_continues {fuel : Nat} :
    Sat (idleSweep fuel c) (fun out => Continues th c out.2) fun _ => True := by
  induction fuel generalizing c with
  | zero => exact Continues.refl c
  | succ fuel ih =>
    unfold idleSweep
    split
    · have hadvance : Continues th c (advanceSearch c) := .same rfl rfl
      dsimp only
      split
      · exact hadvance
      · exact ih.mono (fun _ h => hadvance.trans h) fun _ h => h
    · trivial

/-- The compute handler is called under the tracking fields that are there. -/
theorem softswitchOnIdle_continues :
    Sat (softswitchOnIdle th c) (fun out => Continues th c out.2) fun _ => True := by
  unfold softswitchOnIdle
  split
  · exact Continues.refl c
  · refine Sat.bind_ok fun out hout => ?_
    obtain ⟨dev, c₁⟩ := out
    have hsweep : Continues th c c₁ := idleSweep_continues.of_ok hout
    cases dev with
    | none => exact hsweep
    | some d =>
      refine Sat.bind_ok fun c₂ h₂ => Sat.bind_ok fun _ _ => Sat.bind_ok fun c₃ h₃ => ?_
      have hcall := hsweep.enter.setState.calls h₂
      exact hcall.trans (softswitchUpdateRTS_continues.of_ok h₃)

theorem hardwareIdleDevice_continues :
    Sat (hardwareIdleDevice th c d) (Continues th c) fun _ => True := by
  unfold hardwareIdleDevice
  refine Sat.bind_ok fun _ _ => Sat.bind_ok fun _ _ => ?_
  split
  · exact Continues.refl c
  · refine Sat.bind_ok fun c₁ h₁ => ?_
    have htrack : Continues th c (c.track d 5) :=
      .tracks rfl fun _ => .of_type (by decide) (by decide)
    exact (htrack.enter.setState.calls h₁).sat softswitchUpdateRTS_continues

/-- Each device is tracked before its handler is called. -/
theorem softswitchOnHardwareIdle_continues :
    Sat (softswitchOnHardwareIdle th c) (Continues th c) fun _ => True := by
  have hclear : Continues th c (clearRts c) := .same rfl rfl
  refine Sat.bind (Sat.foldlM (fun s d _ hs => ?_) hclear) fun c₁ _ h => ?_
  · exact hs.sat hardwareIdleDevice_continues
  · refine h.trans ⟨List.prefix_rfl, ?_⟩
    rintro - ⟨d, hd, -, -⟩
    exact ⟨d, hd, fun h => (by cases h), fun h => (by cases h)⟩

/-! ## The main loop -/

theorem softswitchFlushPerfmon_continues : Continues th c (softswitchFlushPerfmon th c) := by
  unfold softswitchFlushPerfmon
  exact pushWords_hostStep.continues.mapPerf

/-- A record of the counters is a message to the host. -/
theorem perfmonFlush_continues : Continues th c (perfmonFlush th c) := by
  unfold perfmonFlush
  exact (((Continues.refl c).tick.mapPerf.tick.mapPerf.trans HostStep.makeSpace.continues).trans
    softswitchFlushPerfmon_continues).tick.mapPerf

theorem perfmonIdle_continues {t : BitVec 32} :
    Continues th s.ctxt (perfmonIdle th s t).ctxt := by
  unfold perfmonIdle
  split
  · exact .refl _
  · split
    · have hcycles : ∀ t add, Continues th s.ctxt (s.ctxt.addCycles th t add) :=
        fun _ _ => (Continues.refl s.ctxt).addCycles
      split
      · dsimp only
        exact hcycles _ _
      · dsimp only
        exact (hcycles _ _).trans perfmonFlush_continues
    · exact .refl _

/-- At the top of the loop a device may compute. -/
theorem loopTop_continues :
    Sat (loopTop th s i) (fun s' => Continues th s.ctxt s'.ctxt) fun _ => True := by
  unfold loopTop
  dsimp only
  split
  · refine Sat.bind_ok fun out hout => ?_
    have hidle := (Continues.refl s.ctxt).tick.trans (softswitchOnIdle_continues.of_ok hout)
    split
    · exact hidle
    · have hperf : ∀ t, Continues th out.2 (perfmonIdle th { s with ctxt := out.2 } t).ctxt :=
        fun t => perfmonIdle_continues (s := { s with ctxt := out.2 })
      exact hidle.trans (hperf _)
  · exact (Continues.refl s.ctxt).tick

/-- A new message comes from a send handler. -/
theorem prepare_continues :
    Sat (prepare th s) (fun s' => Continues th s.ctxt s'.ctxt) fun _ => True := by
  unfold prepare
  split
  · refine Sat.bind_ok fun out hout => ?_
    exact (softswitchOnSend_continues.of_ok hout).trans (.same rfl rfl)
  · exact .refl _

theorem mailboxDeliver_continues :
    Sat (mailboxDeliver th s) (fun s' => Continues th s.ctxt s'.ctxt) fun _ => True := by
  rw [mailboxDeliver_eq]
  dsimp only
  split
  · exact Continues.adds rfl rfl
  · exact Sat.bind_ok fun addr _ => Continues.adds rfl rfl

/-- A delivery sends, or calls a receive handler on this thread. -/
theorem deliver_continues {adequate : Bool} :
    Sat (deliver th s adequate) (fun s' => Continues th s.ctxt s'.ctxt) fun _ => True := by
  have hrest : Sat (do
      let s ← retarget s
      let direct ← deliversDirectly th s adequate
      let s ← if direct then directDeliver th s else mailboxDeliver th s
      return nextTarget s) (fun s' => Continues th s.ctxt s'.ctxt) (fun _ => True) := by
    refine Sat.bind_ok fun s₁ h₁ => Sat.bind_ok fun direct _ => ?_
    have hnext : ∀ {s₂ : Main A n}, Continues th s₁.ctxt s₂.ctxt →
        Continues th s.ctxt (nextTarget s₂).ctxt := by
      intro s₂ h
      rwa [nextTarget_ctxt, ← retarget_ctxt h₁]
    cases direct with
    | true =>
      refine Sat.bind_ok fun s₂ h₂ => ?_
      obtain ⟨c, hc, hret⟩ := bind_eq_ok.1 h₂
      cases hret
      exact hnext (softswitchOnReceive_continues.of_ok hc)
    | false => exact Sat.bind_ok fun s₂ h₂ => hnext (mailboxDeliver_continues.of_ok h₂)
  rw [deliver_eq]
  split
  · exact Sat.bind_ok fun _ _ => hrest
  · exact hrest

theorem sendBranch_continues {adequate : Bool} :
    Sat (sendBranch th s w adequate i) (fun s' => Continues th s.ctxt s'.ctxt) fun _ => True := by
  unfold sendBranch
  refine Sat.bind_ok fun _ _ => Sat.bind_ok fun _ _ => ?_
  split
  · exact Continues.adds rfl rfl
  · refine Sat.bind_ok fun s₁ h₁ => ?_
    have hprep := prepare_continues.of_ok h₁
    split
    · exact deliver_continues.mono (fun _ h => hprep.trans h) fun _ h => h
    · exact hprep

/-- A message that is received goes to its receive handler. -/
theorem receiveBranch_continues :
    Sat (receiveBranch th s i) (fun s' => Continues th s.ctxt s'.ctxt) fun _ => True := by
  refine Sat.bind_ok fun _ _ => Sat.bind_ok fun c hc => ?_
  exact (Continues.refl s.ctxt).emit.trans (softswitchOnReceive_continues.of_ok hc)

theorem act_continues {adequate : Bool} :
    Sat (act th s w adequate i) (fun s' => Continues th s.ctxt s'.ctxt) fun _ => True := by
  unfold act
  split
  · split
    · exact sendBranch_continues
    · exact receiveBranch_continues
  · split
    · exact receiveBranch_continues
    · exact Sat.bind_ok fun _ _ => sendBranch_continues

theorem drainToAdequate_continues {fuel : Nat} :
    Sat (drainToAdequate fuel c) (Continues th c) fun _ => True := by
  induction fuel generalizing c with
  | zero => trivial
  | succ fuel ih =>
    have hpop : Continues th c (hostMessageSlowPopSend c) := .adds rfl rfl
    unfold drainToAdequate
    dsimp only
    split
    · exact hpop
    · exact hpop.sat ih

/-- Draining the host buffer only sends to the host. -/
theorem makeAdequate_continues : Sat (makeAdequate c w) (Continues th c) fun _ => True := by
  unfold makeAdequate
  split
  · exact Continues.refl c
  · exact drainToAdequate_continues

theorem waitPhase_continues :
    Sat (waitPhase th s w) (fun s' => Continues th s.ctxt s'.ctxt) fun _ => True := by
  have hwait : ∀ t add, Sat (.ok { s with ctxt := (s.ctxt.tick th).addCycles th t add } :
      Outcome A n (Main A n)) (fun s' => Continues th s.ctxt s'.ctxt) fun _ => True :=
    fun _ _ => (Continues.refl s.ctxt).tick.addCycles
  unfold waitPhase
  dsimp only
  split
  · exact Sat.bind_ok fun _ _ => hwait _ _
  · exact hwait _ _

/-- Whatever the thread does after its wait continues the trace. -/
theorem wake_continues :
    Sat (wake th s w i) (fun s' => Continues th s.ctxt s'.ctxt) fun _ => True := by
  unfold wake
  refine Sat.bind_ok fun s₁ h₁ => ?_
  have hwait := waitPhase_continues.of_ok h₁
  split
  · refine Sat.bind_ok fun c hc => ?_
    exact hwait.trans (softswitchOnHardwareIdle_continues.of_ok hc)
  · refine Sat.bind_ok fun c hc => Sat.bind_ok fun s₂ h₂ => ?_
    have hact : Continues th c s₂.ctxt := act_continues.of_ok h₂
    exact (hwait.trans (makeAdequate_continues.of_ok hc)).trans hact

/-- A step of the main loop adds to the trace, and leaves the tracking fields with the name of a
handler. -/
theorem mainStep_continues :
    Sat (mainStep th s i) (fun s' => Continues th s.ctxt s'.ctxt) fun _ => True := by
  unfold mainStep
  split
  · exact Continues.refl s.ctxt
  · exact loopTop_continues
  · exact wake_continues

end Softswitch
