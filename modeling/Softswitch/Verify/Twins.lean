import Softswitch.Verify.MainLoop

/-!
# Two threads in step

The build options that say how a message travels do not change what the event functions do to
the devices.  `Twin c c'` says that two contexts differ only in the contents of the host
buffer, the performance counters, the length register of the mailbox and the trace, in which
the receive handlers were called with the same arguments.  If a function returns in `c`, it
returns in `c'`, and the contexts it leaves are twins again.
-/

namespace Softswitch

open Outcome Function

variable {A : AppTypes} {n : Nat} {α β : Type} {th : PThread A n} {c c' : PThreadContext A n}
  {d : Fin n} {m : Message A} {e e' : Event A n}

/-- A receive handler is called. -/
def Event.isReceiveCall : Event A n → Bool
  | .receiveCall _ _ _ _ _ _ => true
  | _ => false

/-- The calls of receive handlers, in order. -/
def receiveCalls (trace : List (Event A n)) : List (Event A n) :=
  trace.filter Event.isReceiveCall

/-- Later events come after the earlier ones. -/
theorem receiveCalls_append {t t' : List (Event A n)} :
    receiveCalls (t ++ t') = receiveCalls t ++ receiveCalls t' := List.filter_append ..

structure Twin (c c' : PThreadContext A n) : Prop where
  tracking : c'.toTracking = c.toTracking
  hbufHead : c'.hbufHead = c.hbufHead
  hbufTail : c'.hbufTail = c.hbufTail
  hostPending : c'.hostPending = c.hostPending
  devices : c'.devices = c.devices
  lamport : c'.lamport = c.lamport
  rtsHead : c'.rtsHead = c.rtsHead
  rtsTail : c'.rtsTail = c.rtsTail
  rtcChecked : c'.rtcChecked = c.rtcChecked
  rtcOffset : c'.rtcOffset = c.rtcOffset
  currentSize : c'.currentSize = c.currentSize
  edgeState : c'.edgeState = c.edgeState
  calls : receiveCalls c'.trace = receiveCalls c.trace

/-- The thread, built without intra-thread sends. -/
def PThread.overMailbox (th : PThread A n) : PThread A n :=
  { th with build := { th.build with enableIntraThreadSend := false } }

theorem PThread.overMailbox_device : th.overMailbox.device = th.device := rfl

namespace Twin

/-- A context is its own twin. -/
theorem refl (c : PThreadContext A n) : Twin c c :=
  ⟨rfl, rfl, rfl, rfl, rfl, rfl, rfl, rfl, rfl, rfl, rfl, rfl, rfl⟩

/-! ## Updates -/

/-- Both contexts emit, and what they emit shows the same calls. -/
theorem emit (h : Twin c c') (hcall : receiveCalls [e'] = receiveCalls [e]) :
    Twin (c.emit e) (c'.emit e') := by
  refine { h with calls := ?_ }
  show receiveCalls (c'.trace ++ [e']) = receiveCalls (c.trace ++ [e])
  rw [receiveCalls_append, receiveCalls_append, h.calls, hcall]

/-- One of the two records an event that is not a call of a receive handler. -/
theorem emit_right (h : Twin c c') (he : e.isReceiveCall = false) : Twin c (c'.emit e) := by
  refine { h with calls := ?_ }
  have hnone : receiveCalls [e] = [] := by simp [receiveCalls, he]
  show receiveCalls (c'.trace ++ [e]) = receiveCalls c.trace
  rw [receiveCalls_append, h.calls, hnone, List.append_nil]

/-- The performance counters are not compared. -/
theorem mapPerf {f f' : Perf → Perf} (h : Twin c c') : Twin (c.mapPerf f) (c'.mapPerf f') :=
  { h with }

theorem setDevice {v : DeviceContext A n} (h : Twin c c') :
    Twin (c.setDevice d v) (c'.setDevice d v) := by
  refine { h with devices := ?_ }
  show update c'.devices d v = update c.devices d v
  rw [h.devices]

theorem setState {s : A.DevState} (h : Twin c c') : Twin (c.setState d s) (c'.setState d s) := by
  unfold PThreadContext.setState
  rw [h.devices]
  exact h.setDevice

theorem setRtsFlags {flags : BitVec 32} (h : Twin c c') :
    Twin (c.setRtsFlags d flags) (c'.setRtsFlags d flags) := by
  unfold PThreadContext.setRtsFlags
  rw [h.devices]
  exact h.setDevice

theorem setPrev {p : Option (Fin n)} (h : Twin c c') : Twin (c.setPrev d p) (c'.setPrev d p) := by
  unfold PThreadContext.setPrev
  rw [h.devices]
  exact h.setDevice

theorem setNext {p : Option (Fin n)} (h : Twin c c') : Twin (c.setNext d p) (c'.setNext d p) := by
  unfold PThreadContext.setNext
  rw [h.devices]
  exact h.setDevice

theorem track {device handlerType : Nat} (h : Twin c c') :
    Twin (c.track device handlerType) (c'.track device handlerType) := by
  refine { h with tracking := ?_ }
  have hpin : c'.currentPin = c.currentPin := congrArg Tracking.currentPin h.tracking
  show (⟨device, handlerType, c'.currentPin⟩ : Tracking) = ⟨device, handlerType, c.currentPin⟩
  rw [hpin]

theorem enter {kind : HandlerKind} (h : Twin c c') : Twin (c.enter kind d) (c'.enter kind d) :=
  h.emit rfl

/-! ## Checks -/

/-- An assertion that holds on one side holds on the other one. -/
theorem check {a : Assertion} {ok : Bool} :
    Matches (fun _ _ => True) (th.check c a ok) (th.overMailbox.check c' a ok) := by
  unfold PThread.check
  exact .ite (fun _ => .error) fun _ => .ok trivial

/-- The same for a condition that is computed. -/
theorem checkM {a : Assertion} {x x' : Outcome A n Bool} (hx : Matches (fun b b' => b' = b) x x') :
    Matches (fun _ _ => True) (th.checkM c a x) (th.overMailbox.checkM c' a x') := by
  unfold PThread.checkM
  refine .ite (fun _ => ?_) fun _ => .ok trivial
  refine hx.bind fun b b' hb => ?_
  rw [hb]
  exact check

theorem deref {f : Fault} {o : Option α} :
    Matches (fun a a' => a' = a) (c.deref f o) (c'.deref f o) := by
  cases o with
  | none => exact .error
  | some a => exact .ok rfl

/-! ## Services -/

/-- What is sent to the host is not compared. -/
theorem slowPop (h : Twin c c') : Twin (hostMessageSlowPopSend c) (hostMessageSlowPopSend c') := by
  have hemit : Twin (c.emit (.uart (c.hostBuffer c.hbufHead)))
      (c'.emit (.uart (c'.hostBuffer c'.hbufHead))) := h.emit rfl
  exact { hemit with
    hbufHead := congrArg wrapNext h.hbufHead
    hostPending := congrArg (· - 1) h.hostPending }

/-- The host buffers may hold different messages, but as many of them. -/
theorem push {msg msg' : HostMsg} (h : Twin c c') :
    Twin (hostMsgBufferPush c msg) (hostMsgBufferPush c' msg') :=
  { h with
    hbufTail := congrArg wrapNext h.hbufTail
    hostPending := congrArg (· + 1) h.hostPending }

/-- The two host buffers are equally full. -/
theorem size_eq (h : Twin c c') : hostMsgBufferSize c' = hostMsgBufferSize c := by
  unfold hostMsgBufferSize
  rw [h.hbufHead, h.hbufTail]

theorem space_eq (h : Twin c c') : hostMsgBufferSpace c' = hostMsgBufferSpace c := by
  unfold hostMsgBufferSpace
  rw [h.size_eq]

/-- So both make space, or neither does. -/
theorem makeSpace (h : Twin c c') : Twin (makeSpace c) (makeSpace c') := by
  unfold Softswitch.makeSpace
  rw [h.space_eq]
  split
  · exact h.slowPop
  · exact h

/-- The payload of a host message may differ, but not its length. -/
theorem storePayload {msg msg' : HostMsg} {i : Nat} {v v' : BitVec 32} (h : Twin c c')
    (hmsg : msg'.payload.length = msg.payload.length) :
    Twin (storePayload c msg i v).1 (storePayload c' msg' i v').1 ∧
      (storePayload c' msg' i v').2.payload.length = (storePayload c msg i v).2.payload.length := by
  unfold Softswitch.storePayload
  rw [hmsg]
  split
  · exact ⟨h, by simpa using hmsg⟩
  · exact ⟨h.emit rfl, hmsg⟩

/-- The message that is being filled is the same on both sides. -/
theorem logPeelParams {msg : HostMsg} {cnt : Nat} {params : List (BitVec 32)} (h : Twin c c') :
    Twin (logPeelParams c msg cnt params).1 (logPeelParams c' msg cnt params).1 ∧
      (logPeelParams c' msg cnt params).2 = (logPeelParams c msg cnt params).2 := by
  induction params generalizing c c' msg cnt with
  | nil => exact ⟨h.makeSpace.emit rfl, rfl⟩
  | cons p params ih =>
    have hmsg : (Softswitch.storePayload c' msg cnt p).2 =
        (Softswitch.storePayload c msg cnt p).2 := by
      unfold Softswitch.storePayload
      split <;> rfl
    unfold Softswitch.logPeelParams
    dsimp only
    rw [hmsg]
    exact ih (h.storePayload rfl).1

theorem logPinName {dev : DeviceFixed A} (h : Twin c c') :
    Matches (fun a a' => a' = a) (logPinName th c dev) (logPinName th.overMailbox c' dev) := by
  have hpin : c'.currentPin = c.currentPin := congrArg Tracking.currentPin h.tracking
  have htype : c'.currentHandlerType = c.currentHandlerType :=
    congrArg Tracking.currentHandlerType h.tracking
  unfold Softswitch.logPinName
  rw [hpin, htype]
  split
  · refine deref.bind fun p p' hp => .ok ?_
    rw [hp]
  · split
    · refine deref.bind fun p p' hp => .ok ?_
      rw [hp]
    · exact .ok rfl

/-- A log statement of a handler is for the host alone. -/
theorem handlerLog {level : Int} {pc msg : BitVec 32} {params : List (BitVec 32)}
    (h : Twin c c') : Matches Twin (softswitchHandlerLogImpl th c level pc msg params)
      (softswitchHandlerLogImpl th.overMailbox c' level pc msg params) := by
  have hdevice : c'.currentDevice = c.currentDevice :=
    congrArg Tracking.currentDevice h.tracking
  have htype : c'.currentHandlerType = c.currentHandlerType :=
    congrArg Tracking.currentHandlerType h.tracking
  unfold softswitchHandlerLogImpl
  rw [hdevice, htype]
  refine check.bind fun _ _ _ => check.bind fun _ _ _ => ?_
  refine .ite (fun _ => .ok h) fun _ => ?_
  split
  · refine h.logPinName.bind fun pin pin' hpin => ?_
    subst hpin
    dsimp only
    obtain ⟨hpeel, hcnt⟩ := h.logPeelParams
    rw [hcnt]
    exact check.bind fun _ _ _ => .ok hpeel
  · exact .error

/-- Both buffers are drained by as many messages. -/
theorem drainHostBuffer {fuel : Nat} (h : Twin c c') :
    Matches Twin (drainHostBuffer fuel c) (drainHostBuffer fuel c') := by
  induction fuel generalizing c c' with
  | zero =>
    unfold Softswitch.drainHostBuffer
    rw [h.size_eq]
    split
    · exact .error
    · exact .ok h
  | succ fuel ih =>
    unfold Softswitch.drainHostBuffer
    rw [h.size_eq]
    split
    · exact ih h.slowPop
    · exact .ok h

theorem runCall {call : HandlerCall} (h : Twin c c') :
    Matches Twin (runCall th c call) (runCall th.overMailbox c' call) := by
  cases call with
  | handlerLog level pc msg params => exact h.handlerLog
  | hostMsgBufferPush msg => exact .ok h.push
  | handlerExit code =>
    refine h.drainHostBuffer.bind fun c₁ c₁' h₁ => .ok ?_
    exact h₁.emit rfl
  | assert ok => exact check.bind fun _ _ _ => .ok h

/-- The services of a handler. -/
theorem runCalls {calls : List HandlerCall} (h : Twin c c') :
    Matches Twin (runCalls th c calls) (runCalls th.overMailbox c' calls) :=
  Matches.foldlM (fun _ _ _ h => h.runCall) h

/-! ## The RTS list -/

/-- The walk along the list sees the same links on both sides. -/
theorem isOnListFrom {fuel : Nat} {o : Option (Fin n)} (h : Twin c c') :
    Matches (fun b b' => b' = b) (rtsIsOnListFrom c d fuel o) (rtsIsOnListFrom c' d fuel o) := by
  induction fuel generalizing o with
  | zero =>
    cases o with
    | none => exact .ok rfl
    | some curr => exact .error
  | succ fuel ih =>
    cases o with
    | none => exact .ok rfl
    | some curr =>
      unfold rtsIsOnListFrom
      rw [h.devices]
      split
      · exact .ok rfl
      · exact ih

theorem isOnList (h : Twin c c') :
    Matches (fun b b' => b' = b) (rtsIsOnList c d) (rtsIsOnList c' d) := by
  unfold rtsIsOnList
  rw [h.rtsHead]
  exact h.isOnListFrom

/-- An assertion on the membership of `d` in the list. -/
theorem checkM_isOnList {a : Assertion} {f : Bool → Bool} (h : Twin c c') :
    Matches (fun _ _ => True) (th.checkM c a (rtsIsOnList c d >>= fun b => .ok (f b)))
      (th.overMailbox.checkM c' a (rtsIsOnList c' d >>= fun b => .ok (f b))) := by
  refine checkM (h.isOnList.bind fun b b' hb => .ok ?_)
  rw [hb]

/-- A check of the list changes nothing. -/
theorem sanityLinks (h : Twin c c') :
    Matches (fun _ _ => True) (rtsSanityLinks th c d) (rtsSanityLinks th.overMailbox c' d) := by
  have hlink : ∀ {o : Option (Fin n)} {f : Fin n → Bool}, Matches (fun _ _ => True)
      (c.deref .nullDeref o >>= fun p => th.check c .rtsSanity (f p))
      (c'.deref .nullDeref o >>= fun p => th.overMailbox.check c' .rtsSanity (f p)) := by
    intro o f
    refine deref.bind fun p p' hp => ?_
    rw [hp]
    exact check
  have hnext : Matches (fun _ _ => True)
      (if (c.devices d).next.isNone && c.rtsTail == some d then Except.ok () else
        c.deref .nullDeref (c.devices d).next >>= fun p =>
          th.check c .rtsSanity ((c.devices p).prev == some d))
      (if (c.devices d).next.isNone && c.rtsTail == some d then Except.ok () else
        c'.deref .nullDeref (c.devices d).next >>= fun p =>
          th.overMailbox.check c' .rtsSanity ((c.devices p).prev == some d)) := by
    split
    · exact .ok trivial
    · exact hlink
  unfold rtsSanityLinks
  rw [h.devices, h.rtsHead, h.rtsTail]
  dsimp only
  split
  · exact hnext
  · refine deref.bind fun p p' hp => ?_
    rw [hp]
    exact check.bind fun _ _ _ => hnext

/-- The walk of `rts_sanity` meets the same devices. -/
theorem sanityFrom {fuel : Nat} {o : Option (Fin n)} (h : Twin c c') :
    Matches (fun _ _ => True) (rtsSanityFrom th c fuel o)
      (rtsSanityFrom th.overMailbox c' fuel o) := by
  induction fuel generalizing o with
  | zero =>
    cases o with
    | none => exact .ok trivial
    | some curr => exact .error
  | succ fuel ih =>
    cases o with
    | none => exact .ok trivial
    | some curr =>
      unfold rtsSanityFrom
      rw [h.devices]
      exact check.bind fun _ _ _ => h.sanityLinks.bind fun _ _ _ => ih

theorem sanity (h : Twin c c') :
    Matches (fun _ _ => True) (rtsSanity th c) (rtsSanity th.overMailbox c') := by
  unfold rtsSanity
  rw [h.rtsHead, h.rtsTail]
  refine .ite (fun _ => ?_) fun _ => .ok trivial
  exact .ite (fun _ => check.bind fun _ _ _ => h.sanityFrom) fun _ => check

/-- The links of the list change in the same way. -/
theorem appendLinks (h : Twin c c') : Twin (rtsAppendLinks c d) (rtsAppendLinks c' d) := by
  have hself : ∀ t, Twin ((c.setPrev d t).setNext d none) ((c'.setPrev d t).setNext d none) :=
    fun t => h.setPrev.setNext
  have htail : ((c.setPrev d c.rtsTail).setNext d none).rtsTail = c.rtsTail := rfl
  have htail' : ((c'.setPrev d c.rtsTail).setNext d none).rtsTail = c.rtsTail := h.rtsTail
  unfold rtsAppendLinks
  rw [h.rtsTail]
  dsimp only
  rw [htail, htail']
  cases c.rtsTail with
  | none => exact { hself none with rtsHead := rfl, rtsTail := rfl }
  | some t => exact { (hself (some t)).setNext with rtsTail := rfl }

theorem append (h : Twin c c') :
    Matches Twin (rtsAppend th c d) (rtsAppend th.overMailbox c' d) := by
  unfold rtsAppend
  refine h.sanity.bind fun _ _ _ => h.checkM_isOnList.bind fun _ _ _ => ?_
  exact h.appendLinks.sanity.bind fun _ _ _ => .ok h.appendLinks

theorem removeNext (h : Twin c c') :
    Matches Twin (rtsRemoveNext c d) (rtsRemoveNext c' d) := by
  unfold rtsRemoveNext
  rw [h.rtsHead, h.devices]
  split
  · exact .ok { h with devices := rfl, rtsHead := rfl }
  · refine deref.bind fun p p' hp => ?_
    rw [hp]
    exact .ok h.setNext

theorem removePrev (h : Twin c c') :
    Matches Twin (rtsRemovePrev c d) (rtsRemovePrev c' d) := by
  unfold rtsRemovePrev
  rw [h.rtsTail, h.devices]
  split
  · exact .ok { h with devices := rfl, rtsTail := rfl }
  · refine deref.bind fun p p' hp => ?_
    rw [hp]
    exact .ok h.setPrev

/-- The device leaves both lists. -/
theorem remove (h : Twin c c') :
    Matches Twin (rtsRemove th c d) (rtsRemove th.overMailbox c' d) := by
  unfold rtsRemove
  rw [h.rtsHead]
  refine h.sanity.bind fun _ _ _ => (checkM h.isOnList).bind fun _ _ _ => check.bind fun _ _ _ => ?_
  refine h.removeNext.bind fun c₁ c₁' h₁ => h₁.removePrev.bind fun c₂ c₂' h₂ => ?_
  exact h₂.sanity.bind fun _ _ _ => .ok h₂

theorem popLinks (h : Twin c c') : Twin (rtsPopLinks c d) (rtsPopLinks c' d) := by
  have hnext : (c'.devices d).next = (c.devices d).next := by rw [h.devices]
  unfold rtsPopLinks
  rw [hnext]
  cases (c.devices d).next with
  | none => exact { h with rtsHead := rfl, rtsTail := rfl }
  | some s => exact { h.setPrev with rtsHead := rfl }

/-- Both lists have the same head. -/
theorem pop (h : Twin c c') : Matches (fun x x' => x'.1 = x.1 ∧ Twin x.2 x'.2)
    (rtsPop th c) (rtsPop th.overMailbox c') := by
  unfold rtsPop
  rw [h.rtsHead, h.devices]
  refine h.sanity.bind fun _ _ _ => ?_
  cases c.rtsHead with
  | none => exact h.sanity.bind fun _ _ _ => .ok ⟨rfl, h⟩
  | some head =>
    refine check.bind fun _ _ _ => ?_
    exact h.popLinks.sanity.bind fun _ _ _ => .ok ⟨rfl, h.popLinks⟩

/-- The handler sees the same device, and so asks for the same pins. -/
theorem readyToSend (h : Twin c c') : Matches (fun x x' => x'.1 = x.1 ∧ Twin x.2 x'.2)
    (callReadyToSend th c d) (callReadyToSend th.overMailbox c' d) := by
  unfold callReadyToSend
  rw [h.devices]
  exact h.setState.runCalls.bind fun c₁ c₁' h₁ => .ok ⟨rfl, h₁⟩

theorem storeFlags {flags : BitVec 32} (h : Twin c c') :
    Matches Twin (rtsStoreFlags th c d flags) (rtsStoreFlags th.overMailbox c' d flags) := by
  have hchecked : Twin (if wantsCompute flags then { c with rtcChecked := 0 } else c)
      (if wantsCompute flags then { c' with rtcChecked := 0 } else c') := by
    split
    · exact { h with rtcChecked := rfl }
    · exact h
  unfold rtsStoreFlags
  dsimp only
  generalize (if wantsCompute flags then { c with rtcChecked := 0 } else c) = c₁ at *
  generalize (if wantsCompute flags then { c' with rtcChecked := 0 } else c') = c₁' at *
  rw [hchecked.devices]
  refine hchecked.checkM_isOnList.bind fun _ _ _ => ?_
  split
  · exact .ok hchecked.setRtsFlags
  · split
    · exact hchecked.setRtsFlags.append
    · exact hchecked.setRtsFlags.remove

/-- `softswitch_UpdateRTS` puts the device into both lists, or takes it out of both. -/
theorem updateRTS (h : Twin c c') :
    Matches Twin (softswitchUpdateRTS th c d) (softswitchUpdateRTS th.overMailbox c' d) := by
  unfold softswitchUpdateRTS
  refine h.sanity.bind fun _ _ _ => h.readyToSend.bind fun x x' hx => ?_
  obtain ⟨flags, c₁⟩ := x
  obtain ⟨flags', c₁'⟩ := x'
  obtain ⟨rfl, h₁⟩ := hx
  exact h₁.storeFlags

/-! ## Receiving -/

/-- The fields that twins share can be read off either of them. -/
theorem exists_eq (h : Twin c c') : ∃ b p l t,
    c' = { c with hostBuffer := b, toPerf := p, mboxLen := l, trace := t } := by
  refine ⟨c'.hostBuffer, c'.toPerf, c'.mboxLen, c'.trace, ?_⟩
  obtain ⟨htracking, hhead, htail, hpending, hdevices, hlamport, hrtsHead, hrtsTail, hchecked,
    hoffset, hsize, hedge, -⟩ := h
  obtain ⟨_, ⟨_, _, _, _⟩, _⟩ := c
  obtain ⟨_, ⟨_, _, _, _⟩, _⟩ := c'
  cases htracking; cases hhead; cases htail; cases hpending; cases hdevices; cases hlamport
  cases hrtsHead; cases hrtsTail; cases hchecked; cases hoffset; cases hsize; cases hedge
  rfl

theorem tick (h : Twin c c') : Twin (c.tick th) (c'.tick th.overMailbox) := h.mapPerf

theorem addCycles {t t' : BitVec 32} {add : Perf → BitVec 32 → Perf} (h : Twin c c') :
    Twin (c.addCycles th t add) (c'.addCycles th.overMailbox t' add) := h.mapPerf

/-- A build with assertions does not get past a packet without an edge. -/
theorem onReceiveNoEdge {bindings : List (InputPinBinding A)} :
    Matches (fun _ _ => True) (onReceiveNoEdge th c m bindings)
      (onReceiveNoEdge th.overMailbox c' m bindings) := by
  unfold Softswitch.onReceiveNoEdge
  refine .ite (fun hasserts => ?_) fun _ => .ok trivial
  intro a ha
  obtain ⟨c₁, -, ha⟩ := bind_eq_ok.1 ha
  obtain ⟨_, -, ha⟩ := bind_eq_ok.1 ha
  unfold PThread.check at ha
  rw [hasserts] at ha
  cases ha

/-- The bindings that are searched do not depend on the context. -/
theorem findEdge {bindings : List (InputPinBinding A)} :
    Matches (fun edge edge' => edge' = edge) (findEdge th c m bindings)
      (findEdge th.overMailbox c' m bindings) := by
  have hrest : ∀ {o : Option (InputPinBinding A)}, Matches (fun edge edge' => edge' = edge)
      (c.deref .outOfBounds o >>= fun edge =>
        th.check c .onReceiveNoEdge (sameAddress edge.source m.source) >>= fun _ => .ok edge)
      (c'.deref .outOfBounds o >>= fun edge =>
        th.overMailbox.check c' .onReceiveNoEdge (sameAddress edge.source m.source) >>=
          fun _ => .ok edge) := by
    intro o
    refine deref.bind fun edge edge' hedge => ?_
    rw [hedge]
    exact check.bind fun _ _ _ => .ok rfl
  unfold Softswitch.findEdge
  dsimp only
  split
  · exact hrest
  · exact onReceiveNoEdge.bind fun _ _ _ => hrest

/-- Both sides find the same pin, with the same edge. -/
theorem receiveTarget : Matches (fun target target' => target' = target)
    (receiveTarget th c d m) (receiveTarget th.overMailbox c' d m) := by
  unfold Softswitch.receiveTarget
  refine check.bind fun _ _ _ => deref.bind fun pin pin' hpin => ?_
  rw [hpin]
  split
  · exact .ok rfl
  · refine deref.bind fun sources sources' hsources => ?_
    rw [hsources]
    refine findEdge.bind fun edge edge' hedge => ?_
    rw [hedge]
    exact check.bind fun _ _ _ => check.bind fun _ _ _ => .ok rfl

/-- The edge gets the same new state. -/
theorem storeEdgeState {p : Option Nat} {s : Option A.EdgeState} (h : Twin c c') :
    Twin (storeEdgeState c p s) (storeEdgeState c' p s) := by
  cases p with
  | none => exact h
  | some p =>
    cases s with
    | none => exact h
    | some s =>
      refine { h with edgeState := ?_ }
      show update c'.edgeState p s = update c.edgeState p s
      rw [h.edgeState]

/-- The tracking fields are all set. -/
theorem trackPin {device handlerType pin : Nat} (h : Twin c c') :
    Twin { c.track device handlerType with currentPin := pin }
      { c'.track device handlerType with currentPin := pin } :=
  { h with tracking := rfl }

/-- The receive handler is called with the same arguments. -/
theorem receive {target : ReceiveTarget A} (h : Twin c c') :
    Matches Twin (callReceive th c d m target) (callReceive th.overMailbox c' d m target) := by
  obtain ⟨_, _, _, _, rfl⟩ := h.exists_eq
  unfold callReceive
  refine Matches.bind (runCalls (storeEdgeState (setState (emit (enter (tick ?_)) ?_)))) ?_
  · exact h.trackPin
  · rfl
  · exact fun c₁ c₁' h₁ => .ok h₁.addCycles

theorem dispatchReceive (h : Twin c c') :
    Matches Twin (dispatchReceive th c d m) (dispatchReceive th.overMailbox c' d m) := by
  unfold Softswitch.dispatchReceive
  refine receiveTarget.bind fun target target' htarget => ?_
  rw [htarget]
  exact h.receive

theorem checkOnList {a : Assertion} (h : Twin c c') : Matches (fun _ _ => True)
    (checkOnList th c a d) (checkOnList th.overMailbox c' a d) := by
  unfold Softswitch.checkOnList
  rw [h.devices]
  exact h.checkM_isOnList

/-- `softswitch_onReceive` finds the same device and calls the same handler of it. -/
theorem onReceive (h : Twin c c') :
    Matches Twin (softswitchOnReceive th c m) (softswitchOnReceive th.overMailbox c' m) := by
  unfold softswitchOnReceive
  refine check.bind fun _ _ _ => check.bind fun _ _ _ => ?_
  split
  · dsimp only
    refine .ite (fun _ => ?_) fun _ => ?_
    · exact check.bind fun _ _ _ => .ok h.tick.addCycles
    · refine h.tick.dispatchReceive.bind fun c₁ c₁' h₁ => h₁.checkOnList.bind fun _ _ _ => ?_
      exact h₁.updateRTS.bind fun c₂ c₂' h₂ => h₂.checkOnList.bind fun _ _ _ => .ok h₂.addCycles
  · exact .error

/-! ## Sending -/

theorem rightMostOne {x : BitVec 32} : Matches (fun k k' => k' = k) (rightMostOne th c x)
    (rightMostOne th.overMailbox c' x) := by
  unfold Softswitch.rightMostOne
  exact check.bind fun _ _ _ => deref

/-- The send handler writes the same payload. -/
theorem send {pinIndex : Nat} {pin : OutputPinVTable A} {payload : A.Payload} (h : Twin c c') :
    Matches (fun x x' => x'.1 = x.1 ∧ Twin x.2 x'.2) (callSend th c d pinIndex pin payload)
      (callSend th.overMailbox c' d pinIndex pin payload) := by
  obtain ⟨_, _, _, _, rfl⟩ := h.exists_eq
  unfold callSend
  refine Matches.bind (runCalls (setState (enter h.tick))) fun c₁ c₁' h₁ => .ok ⟨rfl, ?_⟩
  dsimp only
  exact (h₁.emit rfl).addCycles

theorem writeHeader {pinIndex : Nat} {pin : OutputPinVTable A}
    {r : SendResult A.DevState A.Payload} {s : SendState A} :
    Matches (fun s₁ s₁' => s₁' = s₁) (writeHeader th c d pinIndex pin r s)
      (writeHeader th.overMailbox c' d pinIndex pin r s) := by
  unfold Softswitch.writeHeader
  refine .ite (fun _ => ?_) fun _ => .ok rfl
  refine .ite (fun _ => .ok rfl) fun _ => ?_
  refine deref.bind fun targets targets' htargets => .ok ?_
  rw [htargets]
  rfl

theorem trackSend {index pinIndex : Nat} (h : Twin c c') :
    Twin (trackSend c index pinIndex) (trackSend c' index pinIndex) :=
  { h with tracking := rfl, lamport := congrArg (· + 1) h.lamport }

/-- `softswitch_onSend` sends for the same device, with the same targets and the same message. -/
theorem onSend {isApp : Bool} (h : Twin c c') :
    Matches (fun x x' => x'.1 = x.1 ∧ Twin x.2.1 x'.2.1 ∧ x'.2.2 = x.2.2)
      (softswitchOnSend th c m isApp) (softswitchOnSend th.overMailbox c' m isApp) := by
  have hstart : Twin ((c.tick th).emit .onSend) ((c'.tick th.overMailbox).emit .onSend) :=
    h.tick.emit rfl
  unfold softswitchOnSend
  refine hstart.pop.bind fun x x' hx => ?_
  obtain ⟨dev, c₁⟩ := x
  obtain ⟨dev', c₁'⟩ := x'
  obtain ⟨rfl, h₁⟩ := hx
  cases dev' with
  | none => exact .ok ⟨rfl, h₁, rfl⟩
  | some d =>
    dsimp only
    rw [h₁.devices]
    refine check.bind fun _ _ _ => rightMostOne.bind fun k k' hk => ?_
    rw [hk]
    refine deref.bind fun pin pin' hpin => ?_
    rw [hpin]
    refine h₁.trackSend.send.bind fun y y' hy => ?_
    obtain ⟨r, c₂⟩ := y
    obtain ⟨r', c₂'⟩ := y'
    obtain ⟨rfl, h₂⟩ := hy
    refine check.bind fun _ _ _ => writeHeader.bind fun s s' hs => ?_
    refine h₂.setRtsFlags.checkM_isOnList.bind fun _ _ _ => ?_
    refine h₂.setRtsFlags.updateRTS.bind fun c₃ c₃' h₃ => .ok ⟨rfl, ?_, hs⟩
    dsimp only
    exact h₃.addCycles

/-! ## Idling -/

theorem advanceSearch (h : Twin c c') : Twin (advanceSearch c) (advanceSearch c') := by
  obtain ⟨_, _, _, _, rfl⟩ := h.exists_eq
  exact { h with rtcChecked := rfl, rtcOffset := rfl }

/-- The search for a device that wants to compute ends at the same device. -/
theorem idleSweep {fuel : Nat} (h : Twin c c') :
    Matches (fun x x' => x'.1 = x.1 ∧ Twin x.2 x'.2) (idleSweep fuel c) (idleSweep fuel c') := by
  induction fuel generalizing c c' with
  | zero => exact .ok ⟨rfl, h⟩
  | succ fuel ih =>
    obtain ⟨_, _, _, _, rfl⟩ := h.exists_eq
    unfold Softswitch.idleSweep
    split
    · refine .ite (fun _ => .ok ⟨rfl, h.advanceSearch⟩) fun _ => ?_
      exact ih h.advanceSearch
    · exact .error

theorem compute (h : Twin c c') :
    Matches Twin (callCompute th c d) (callCompute th.overMailbox c' d) := by
  obtain ⟨_, _, _, _, rfl⟩ := h.exists_eq
  exact runCalls (setState h.enter)

/-- `softswitch_onIdle` comes to the same answer. -/
theorem onIdle (h : Twin c c') : Matches (fun x x' => x'.1 = x.1 ∧ Twin x.2 x'.2)
    (softswitchOnIdle th c) (softswitchOnIdle th.overMailbox c') := by
  unfold softswitchOnIdle
  rw [h.rtcChecked]
  refine .ite (fun _ => .ok ⟨rfl, h⟩) fun _ => ?_
  refine h.idleSweep.bind fun x x' hx => ?_
  obtain ⟨dev, c₁⟩ := x
  obtain ⟨dev', c₁'⟩ := x'
  obtain ⟨rfl, h₁⟩ := hx
  cases dev' with
  | none => exact .ok ⟨rfl, h₁⟩
  | some d =>
    refine h₁.compute.bind fun c₂ c₂' h₂ => h₂.checkOnList.bind fun _ _ _ => ?_
    exact h₂.updateRTS.bind fun c₃ c₃' h₃ => .ok ⟨rfl, h₃⟩

theorem hardwareIdleDevice (h : Twin c c') :
    Matches Twin (hardwareIdleDevice th c d) (hardwareIdleDevice th.overMailbox c' d) := by
  obtain ⟨_, _, _, _, rfl⟩ := h.exists_eq
  unfold Softswitch.hardwareIdleDevice
  refine check.bind fun _ _ _ => h.checkM_isOnList.bind fun _ _ _ => ?_
  rw [PThread.overMailbox_device]
  cases (th.device d).vtable.onHardwareIdleHandler with
  | none => exact .ok h
  | some handler =>
    exact Matches.bind (runCalls (setState (enter h.track))) fun c₁ c₁' h₁ => h₁.updateRTS

theorem clearRts (h : Twin c c') : Twin (clearRts c) (clearRts c') :=
  { h with rtsHead := rfl, rtsTail := rfl }

/-- `softswitch_onHardwareIdle` calls the handlers of the same devices. -/
theorem onHardwareIdle (h : Twin c c') :
    Matches Twin (softswitchOnHardwareIdle th c) (softswitchOnHardwareIdle th.overMailbox c') := by
  have hloop : Matches Twin ((List.finRange n).foldlM (Softswitch.hardwareIdleDevice th)
      (Softswitch.clearRts c)) ((List.finRange n).foldlM
      (Softswitch.hardwareIdleDevice th.overMailbox) (Softswitch.clearRts c')) :=
    Matches.foldlM (fun _ _ _ h => h.hardwareIdleDevice) h.clearRts
  unfold softswitchOnHardwareIdle
  refine hloop.bind fun c₁ c₁' h₁ => .ok ?_
  obtain ⟨_, _, _, _, rfl⟩ := h₁.exists_eq
  exact { h₁ with tracking := rfl }

end Twin

end Softswitch
