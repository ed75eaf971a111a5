import Softswitch.Verify.HostBuffer
import Softswitch.Verify.MainLoop

/-!
# What handlers do to the host buffer

A handler that pushes nothing takes messages out of the host buffer only where it exits,
and what it passes to the host itself is no profiling record.  `HostRules P` says that `P`
is kept by that much, and that `P k` leaves `k` pushes to be made; then the event functions
keep `P` too, also where they stop, but for the pushes their handlers make.
-/

namespace Softswitch

open Outcome

variable {A : AppTypes} {n : Nat} {α : Type} {th : PThread A n} {c c' c'' : PThreadContext A n}
  {d : Fin n} {m : Message A} {msg : HostMsg} {e : Event A n} {calls : List HandlerCall}
  {k b : Nat}

/-! ## Profiling records -/

/-- The magic number of a dump of the performance counters. -/
def HostMsg.isRecord (msg : HostMsg) : Bool := msg.type == 0xE0#16

/-- The profiling records that have left the thread, in order. -/
def records (trace : List (Event A n)) : List HostMsg := (outputs trace).filter HostMsg.isRecord

theorem records_append {t t' : List (Event A n)} : records (t ++ t') = records t ++ records t' := by
  unfold records
  rw [outputs_append, List.filter_append]

/-- The host buffer is the same, and no profiling record has left. -/
structure Apart (c c' : PThreadContext A n) : Prop where
  buffer : c'.toHostBuffer = c.toHostBuffer
  records : records c'.trace = records c.trace

namespace Apart

/-- Nothing has been done. -/
theorem refl (c : PThreadContext A n) : Apart c c := ⟨rfl, rfl⟩

/-- What each of two parts keeps apart, both do together. -/
theorem trans (h₁ : Apart c c') (h₂ : Apart c' c'') : Apart c c'' :=
  ⟨h₂.buffer.trans h₁.buffer, h₂.records.trans h₁.records⟩

theorem mapPerf {f : Perf → Perf} : Apart c (c.mapPerf f) := ⟨rfl, rfl⟩

theorem emit (he : Softswitch.records [e] = []) : Apart c (c.emit e) := by
  refine ⟨rfl, ?_⟩
  show Softswitch.records (c.trace ++ [e]) = _
  rw [records_append, he, List.append_nil]

/-- A message over the UART that is no record is not looked at. -/
theorem uart (hmsg : msg.isRecord = false) : Apart c (c.emit (.uart msg)) := by
  refine emit ?_
  simp [Softswitch.records, outputs, hmsg]

end Apart

/-! ## What leaves the thread -/

/-- The two ways to the host. -/
inductive HostChannel where
  | mailbox
  | uart
deriving DecidableEq

/-- What leaves the thread for the host in an event, and on which way. -/
def Event.leaves : Event A n → Option (HostChannel × HostMsg)
  | .uart msg => some (.uart, msg)
  | .mboxSendExtra _ _ msg => some (.mailbox, msg)
  | _ => none

/-- The messages that have left the thread, with the ways they took. -/
def leaving (trace : List (Event A n)) : List (HostChannel × HostMsg) :=
  trace.filterMap Event.leaves

theorem leaving_append {t t' : List (Event A n)} : leaving (t ++ t') = leaving t ++ leaving t' :=
  List.filterMap_append

/-- What the host gets, without the way that it takes. -/
theorem outputs_eq_leaving (trace : List (Event A n)) :
    outputs trace = (leaving trace).map Prod.snd := by
  unfold outputs leaving
  rw [List.map_filterMap]
  congr 1
  funext e
  cases e <;> rfl

/-- The host buffer is the same, and nothing has gone to the host. -/
structure HostSame (c c' : PThreadContext A n) : Prop where
  buffer : c'.toHostBuffer = c.toHostBuffer
  leaving : leaving c'.trace = leaving c.trace

namespace HostSame

theorem refl (c : PThreadContext A n) : HostSame c c := ⟨rfl, rfl⟩

theorem emit (he : e.leaves = none) : HostSame c (c.emit e) := by
  refine ⟨rfl, ?_⟩
  show Softswitch.leaving (c.trace ++ [e]) = _
  rw [leaving_append]
  show Softswitch.leaving c.trace ++ [e].filterMap Event.leaves = _
  rw [List.filterMap_cons_none he, List.filterMap_nil, List.append_nil]

/-- What sends and pushes nothing keeps apart. -/
theorem apart (h : HostSame c c') : Apart c c' := by
  refine ⟨h.buffer, ?_⟩
  unfold records
  rw [outputs_eq_leaving, outputs_eq_leaving, h.leaving]

end HostSame

theorem LinksOnly.hostSame (h : LinksOnly c c') : HostSame c c' := by
  obtain ⟨_, _, _, rfl, -, -⟩ := h
  exact ⟨rfl, rfl⟩

theorem storePayload_same (c : PThreadContext A n) (msg : HostMsg) (i : Nat) (v : BitVec 32) :
    HostSame c (storePayload c msg i v).1 ∧ (storePayload c msg i v).2.type = msg.type := by
  unfold storePayload
  split
  · exact ⟨.refl c, rfl⟩
  · exact ⟨.emit rfl, rfl⟩

/-- Writing the payload of a message sends nothing. -/
theorem storeWords_apart (c : PThreadContext A n) (msg : HostMsg) (i : Nat)
    (words : List (BitVec 32)) :
    Apart c (storeWords c msg i words).1 ∧ (storeWords c msg i words).2.type = msg.type := by
  induction words generalizing c msg i with
  | nil => exact ⟨.refl c, rfl⟩
  | cons w words ih =>
    obtain ⟨h₁, htype₁⟩ := storePayload_same c msg i w
    obtain ⟨h₂, htype₂⟩ := ih (storePayload c msg i w).1 (storePayload c msg i w).2 (i + 1)
    exact ⟨h₁.apart.trans h₂, htype₂.trans htype₁⟩

/-! ## What handlers push -/

/-- None of the services pushes a host message. -/
def PushFree (calls : List HandlerCall) : Prop := ∀ msg, .hostMsgBufferPush msg ∉ calls

/-- No handler of the thread pushes a host message. -/
structure PThread.PushFree (th : PThread A n) : Prop where
  init : ∀ d p s, Softswitch.PushFree
    ((th.device d).vtable.initHandler th.graphProps p s).calls
  readyToSend : ∀ d p s, Softswitch.PushFree
    ((th.device d).vtable.readyToSendHandler th.graphProps p s).calls
  send : ∀ d, ∀ pin ∈ (th.device d).vtable.outputPins, ∀ p s payload, Softswitch.PushFree
    (pin.sendHandler th.graphProps p s payload).calls
  receive : ∀ d, ∀ pin ∈ (th.device d).vtable.inputPins, ∀ p s eProps eState payload,
    Softswitch.PushFree (pin.receiveHandler th.graphProps p s eProps eState payload).calls
  compute : ∀ d p s, Softswitch.PushFree
    ((th.device d).vtable.computeHandler th.graphProps p s).calls
  hardwareIdle : ∀ d handler, (th.device d).vtable.onHardwareIdleHandler = some handler →
    ∀ p s, Softswitch.PushFree (handler th.graphProps p s).calls

/-- A push of a host message. -/
def HandlerCall.isPush : HandlerCall → Bool
  | .hostMsgBufferPush _ => true
  | _ => false

/-- At most `b` of the services push a host message. -/
def PushesAtMost (b : Nat) (calls : List HandlerCall) : Prop :=
  calls.countP HandlerCall.isPush ≤ b

/-- Handlers that push nothing push at most nothing. -/
theorem PushFree.atMost (h : PushFree calls) : PushesAtMost 0 calls := by
  have hnone : ∀ call ∈ calls, ¬call.isPush = true := by
    intro call hcall hpush
    cases call with
    | hostMsgBufferPush msg => exact h msg hcall
    | _ => cases hpush
  exact (List.countP_eq_zero.2 hnone).le

/-- A receive or a send handler of the thread pushes at most `b` host messages, and no other
handler pushes any. -/
structure PThread.PushesAtMost (th : PThread A n) (b : Nat) : Prop where
  init : ∀ d p s, Softswitch.PushFree
    ((th.device d).vtable.initHandler th.graphProps p s).calls
  readyToSend : ∀ d p s, Softswitch.PushFree
    ((th.device d).vtable.readyToSendHandler th.graphProps p s).calls
  send : ∀ d, ∀ pin ∈ (th.device d).vtable.outputPins, ∀ p s payload, Softswitch.PushesAtMost b
    (pin.sendHandler th.graphProps p s payload).calls
  receive : ∀ d, ∀ pin ∈ (th.device d).vtable.inputPins, ∀ p s eProps eState payload,
    Softswitch.PushesAtMost b (pin.receiveHandler th.graphProps p s eProps eState payload).calls
  compute : ∀ d p s, Softswitch.PushFree
    ((th.device d).vtable.computeHandler th.graphProps p s).calls
  hardwareIdle : ∀ d handler, (th.device d).vtable.onHardwareIdleHandler = some handler →
    ∀ p s, Softswitch.PushFree (handler th.graphProps p s).calls

theorem PThread.PushFree.atMost (h : th.PushFree) : th.PushesAtMost 0 where
  init := h.init
  readyToSend := h.readyToSend
  send d pin hpin p s payload := (h.send d pin hpin p s payload).atMost
  receive d pin hpin p s eProps eState payload :=
    (h.receive d pin hpin p s eProps eState payload).atMost
  compute := h.compute
  hardwareIdle := h.hardwareIdle

/-- What is read from an array is an element of it. -/
theorem mem_of_deref {l : List α} {f : Fault} {k : Nat} {a : α}
    (h : c.deref f l[k]? = .ok a) : a ∈ l := by
  cases hget : l[k]? with
  | none => simp [hget, PThreadContext.deref, PThreadContext.fail] at h
  | some a' =>
    rw [hget] at h
    obtain rfl := Except.ok.inj h
    exact List.mem_of_getElem? hget

/-- `P k` is kept by what handlers that push nothing do to the host buffer, and a push leaves one
push less to be made. -/
structure HostRules (P : Nat → PThreadContext A n → Prop) : Prop where
  same : ∀ {k c c'}, P k c → HostSame c c' → P k c'
  slowSend : ∀ {k c msg}, P k c → msg.isRecord = false → P k (directHostMessageSlowSend c msg)
  slowPop : ∀ {k c}, P k c → 0 < hostMsgBufferSize c → P k (hostMessageSlowPopSend c)
  space : ∀ {k c}, P k c → hostMsgBufferSpace c ≠ 0
  push : ∀ {k c msg}, P (k + 1) c → P k (hostMsgBufferPush c msg)
  weaken : ∀ {k c}, P (k + 1) c → P k c

namespace HostRules

variable {P : Nat → PThreadContext A n → Prop} (hP : HostRules P)

include hP

/-- Room that was kept can be given up. -/
theorem weaken_add (h : P (k + b) c) : P k c := by
  induction b with
  | zero => exact h
  | succ b ih => exact ih (hP.weaken h)

/-! ## Services -/

/-- There is always space for a message. -/
theorem makeSpace_eq (h : P k c) : makeSpace c = c := if_neg (hP.space h)

/-- The parts of a log are no records. -/
theorem logPeelParams {cnt : Nat} {params : List (BitVec 32)} (hmsg : msg.isRecord = false)
    (h : P k c) : P k (logPeelParams c msg cnt params).1 := by
  induction params generalizing c msg cnt with
  | nil =>
    unfold Softswitch.logPeelParams
    rw [hP.makeSpace_eq h]
    exact hP.slowSend h hmsg
  | cons p params ih =>
    obtain ⟨hsame, htype⟩ := storePayload_same c msg cnt p
    refine ih ?_ (hP.same h hsame)
    unfold HostMsg.isRecord
    rw [htype]
    exact hmsg

/-- The buffer only gets emptier. -/
theorem drainHostBuffer {fuel : Nat} (h : P k c) :
    Sat (drainHostBuffer fuel c) (P k) (fun s => P k s.ctxt) := by
  induction fuel generalizing c with
  | zero =>
    unfold Softswitch.drainHostBuffer
    split <;> exact h
  | succ fuel ih =>
    unfold Softswitch.drainHostBuffer
    split
    · rename_i hsize
      exact ih (hP.slowPop h hsize)
    · exact h

/-- A service that does not push keeps the room there is. -/
theorem runCall {call : HandlerCall} (hcall : call.isPush = false) (h : P k c) :
    Sat (runCall th c call) (P k) (fun s => P k s.ctxt) := by
  cases call with
  | handlerLog level pc text params =>
    refine check_reads.then h fun _ _ => check_reads.then h fun _ _ => ?_
    split
    · exact h
    · split
      · refine Sat.bind (logPinName_sat.mono (fun _ h => h) ?_) fun pin _ _ => ?_
        · rintro s rfl
          exact h
        · refine check_reads.then ?_ fun _ _ => ?_
          · exact hP.logPeelParams rfl h
          · exact hP.logPeelParams rfl h
      · exact h
  | hostMsgBufferPush msg => cases hcall
  | handlerExit code => exact Sat.bind (hP.drainHostBuffer h) fun c₁ _ h₁ => hP.slowSend h₁ rfl
  | assert ok => exact check_reads.then h fun _ _ => h

/-- Each push of the handler is one of those that may be made. -/
theorem runCalls (hcalls : PushesAtMost b calls) (h : P (k + b) c) :
    Sat (runCalls th c calls) (P k) (fun s => P k s.ctxt) := by
  induction calls generalizing b c with
  | nil => exact hP.weaken_add h
  | cons call calls ih =>
    unfold Softswitch.runCalls
    rw [runList_cons]
    unfold PushesAtMost at hcalls
    rw [List.countP_cons] at hcalls
    cases hcall : call.isPush with
    | true =>
      rw [hcall, if_pos rfl] at hcalls
      obtain ⟨b, rfl⟩ := Nat.exists_eq_add_of_le' (Nat.le_of_add_left_le hcalls)
      cases call with
      | hostMsgBufferPush msg => exact ih (Nat.le_of_succ_le_succ hcalls) (hP.push h)
      | _ => cases hcall
    | false =>
      rw [hcall, if_neg Bool.false_ne_true] at hcalls
      refine Sat.bind ((hP.runCall hcall h).mono (fun _ h => h) fun _ => hP.weaken_add)
        fun c₁ _ h₁ => ?_
      exact ih hcalls h₁

/-- The services of a handler that pushes nothing. -/
theorem runCalls_pushFree (hcalls : PushFree calls) (h : P k c) :
    Sat (Softswitch.runCalls th c calls) (P k) (fun s => P k s.ctxt) :=
  hP.runCalls hcalls.atMost h

/-! ## Readiness -/

theorem setDevice {v : DeviceContext A n} (h : P k c) : P k (c.setDevice d v) :=
  hP.same h ⟨rfl, rfl⟩

theorem mapPerf {f : Perf → Perf} (h : P k c) : P k (c.mapPerf f) := hP.same h ⟨rfl, rfl⟩

theorem tick (h : P k c) : P k (c.tick th) := hP.mapPerf h

theorem track {device handlerType : Nat} (h : P k c) : P k (c.track device handlerType) :=
  hP.same h ⟨rfl, rfl⟩

theorem enter {kind : HandlerKind} (h : P k c) : P k (c.enter kind d) := hP.same h (.emit rfl)

variable (hth : th.PushesAtMost b)

include hth

theorem callReadyToSend (h : P k c) :
    Sat (callReadyToSend th c d) (fun r => P k r.2) (fun s => P k s.ctxt) :=
  Sat.bind (hP.runCalls_pushFree (hth.readyToSend d _ _) (hP.setDevice h)) fun _ _ h₁ => h₁

omit hth in
theorem rtsStoreFlags {flags : BitVec 32} (h : P k c) :
    Sat (rtsStoreFlags th c d flags) (P k) (fun s => P k s.ctxt) := by
  have hcompute : P k (if wantsCompute flags then { c with rtcChecked := 0 } else c) := by
    split
    · exact hP.same h ⟨rfl, rfl⟩
    · exact h
  have hstored : P k (storedFlags c d flags) := by
    unfold storedFlags PThreadContext.setRtsFlags
    exact hP.setDevice hcompute
  have hlinks : ∀ {c₁ : PThreadContext A n}, LinksOnly (storedFlags c d flags) c₁ → P k c₁ :=
    fun h₁ => hP.same hstored h₁.hostSame
  rw [rtsStoreFlags_eq]
  refine (checkM_reads rtsIsOnList_reads).then hcompute fun _ _ => ?_
  split
  · exact hstored
  · split
    · exact rtsAppend_sat.mono (fun _ h₁ => hlinks h₁.1) fun _ h₁ => hlinks h₁
    · exact rtsRemove_sat.mono (fun _ h₁ => hlinks h₁.1) fun _ h₁ => hlinks h₁

/-- The ready-to-send handler pushes nothing. -/
theorem softswitchUpdateRTS (h : P k c) :
    Sat (softswitchUpdateRTS th c d) (P k) (fun s => P k s.ctxt) := by
  refine rtsSanity_reads.then h fun _ _ => ?_
  exact Sat.bind (hP.callReadyToSend hth h) fun r _ h₁ => hP.rtsStoreFlags h₁

/-! ## Initialisation -/

theorem initDevice (h : P k c) : Sat (initDevice th c d) (P k) (fun s => P k s.ctxt) := by
  refine Sat.bind (hP.runCalls_pushFree (hth.init d _ _) (hP.setDevice (hP.enter (hP.track h))))
    fun c₁ _ h₁ => ?_
  refine Sat.bind (hP.callReadyToSend hth h₁) fun r _ h₂ => ?_
  have h₃ : P k (r.2.setRtsFlags d r.1) := hP.setDevice h₂
  dsimp only
  split
  · exact rtsAppend_sat.mono (fun _ h₄ => hP.same h₃ h₄.1.hostSame)
      fun _ h₄ => hP.same h₃ h₄.hostSame
  · exact h₃

/-- Neither do the init handlers. -/
theorem softswitchInit (h : P k c) : Sat (softswitchInit th c) (P k) (fun s => P k s.ctxt) := by
  have hzero : P k (zeroProfileCounters th c) := hP.same h ⟨rfl, rfl⟩
  refine check_reads.then hzero fun _ _ => ?_
  refine Sat.foldlM (fun s d _ hs => hP.initDevice hth hs) ?_
  exact hP.same hzero ⟨rfl, rfl⟩

/-! ## Receiving -/

omit hth

theorem softswitchLog {level : Nat} {params : List (BitVec 32)} (h : P k c) :
    P k (softswitchLog th c level params) := by
  unfold Softswitch.softswitchLog
  split
  · exact hP.same h (.emit rfl)
  · exact h

theorem logPossibleSource {bindings : List (InputPinBinding A)} {i : Nat} (h : P k c) :
    Sat (logPossibleSource th bindings c i) (P k) (fun s => P k s.ctxt) := by
  refine deref_reads.then h fun tmp _ => ?_
  have hlog : P k (Softswitch.softswitchLog th c 1 (addressParams tmp.source)) :=
    hP.softswitchLog h
  split
  · exact deref_reads.then hlog fun _ _ => check_reads.then hlog fun _ _ => hlog
  · exact hlog

theorem onReceiveNoEdge {bindings : List (InputPinBinding A)} (h : P k c) :
    Sat (onReceiveNoEdge th c m bindings) (fun _ => True) (fun s => P k s.ctxt) := by
  unfold Softswitch.onReceiveNoEdge
  split
  · refine Sat.bind (Sat.foldlM (fun s i _ hs => hP.logPossibleSource hs) (hP.softswitchLog h))
      fun c₁ _ h₁ => ?_
    exact check_reads.then h₁ fun _ _ => check_reads.mono (fun _ h => h) fun s hs => hs ▸ h₁
  · trivial

theorem findEdge {bindings : List (InputPinBinding A)} (h : P k c) :
    Sat (findEdge th c m bindings) (fun _ => True) (fun s => P k s.ctxt) := by
  have hrest : Sat (do
      let edge ← c.deref .outOfBounds bindings[LowerBound.lowerBound (fun i =>
        (bindings[i]?).any fun a => cmpAddress a.source m.source) bindings.length]?
      th.check c .onReceiveNoEdge (sameAddress edge.source m.source)
      return edge) (fun _ => True) (fun s => P k s.ctxt) :=
    deref_reads.then h fun _ _ => check_reads.then h fun _ _ => trivial
  unfold Softswitch.findEdge
  dsimp only
  split
  · exact hrest
  · exact Sat.bind (hP.onReceiveNoEdge h) fun _ _ _ => hrest

/-- The pin of a message is one of the device's. -/
theorem receiveTarget (h : P k c) :
    Sat (receiveTarget th c d m)
      (fun target => target.pin ∈ (th.device d).vtable.inputPins) (fun s => P k s.ctxt) := by
  unfold Softswitch.receiveTarget
  refine check_reads.then h fun _ _ => deref_reads.then h fun pin hpin => ?_
  have hmem : pin ∈ (th.device d).vtable.inputPins := mem_of_deref hpin
  split
  · exact hmem
  · refine deref_reads.then h fun _ _ => Sat.bind (hP.findEdge h) fun _ _ _ => ?_
    exact check_reads.then h fun _ _ => check_reads.then h fun _ _ => hmem

include hth

/-- A receive handler uses up what it may push. -/
theorem callReceive {target : ReceiveTarget A}
    (hpin : target.pin ∈ (th.device d).vtable.inputPins) (h : P (k + b) c) :
    Sat (callReceive th c d m target) (P k) (fun s => P k s.ctxt) := by
  have htracked : P (k + b) { c.track d 1 with currentPin := m.dest.pin.toNat } :=
    hP.same h ⟨rfl, rfl⟩
  have hstored : ∀ {c₁ : PThreadContext A n} {p : Option Nat} {s : Option A.EdgeState},
      P (k + b) c₁ → P (k + b) (storeEdgeState c₁ p s) := by
    intro c₁ p s h₁
    obtain ⟨e, he⟩ := storeEdgeState_eq (c := c₁) (p := p) (s := s)
    rw [he]
    exact hP.same h₁ ⟨rfl, rfl⟩
  unfold Softswitch.callReceive
  refine Sat.bind (hP.runCalls (hth.receive d target.pin hpin _ _ _ _ _) ?_) fun c₁ _ h₁ =>
    hP.mapPerf h₁
  exact hstored (hP.setDevice (hP.same (hP.enter (hP.mapPerf htracked)) (.emit rfl)))

/-- So does a receive. -/
theorem softswitchOnReceive (h : P (k + b) c) :
    Sat (softswitchOnReceive th c m) (P k) (fun s => P k s.ctxt) := by
  have hticked : P (k + b) (c.tick th) := hP.mapPerf h
  have htick : P k (c.tick th) := hP.weaken_add hticked
  unfold Softswitch.softswitchOnReceive
  dsimp only
  refine check_reads.then htick fun _ _ => check_reads.then htick fun _ _ => ?_
  split
  · split
    · exact check_reads.then htick fun _ _ => hP.mapPerf htick
    · refine Sat.bind (R := P k) ?_ fun c₁ _ h₁ => ?_
      · exact Sat.bind (hP.receiveTarget htick) fun target _ hpin => hP.callReceive hth hpin hticked
      · refine checkOnList_reads.then h₁ fun _ _ => ?_
        refine Sat.bind (hP.softswitchUpdateRTS hth h₁) fun c₂ _ h₂ => ?_
        exact checkOnList_reads.then h₂ fun _ _ => hP.mapPerf h₂
  · exact htick

/-! ## Sending -/

/-- A send handler uses up what it may push. -/
theorem callSend {pinIndex : Nat} {pin : OutputPinVTable A} {payload : A.Payload}
    (hpin : pin ∈ (th.device d).vtable.outputPins) (h : P (k + b) c) :
    Sat (callSend th c d pinIndex pin payload) (fun r => P k r.2) (fun s => P k s.ctxt) := by
  refine Sat.bind (hP.runCalls (hth.send d pin hpin _ _ _) ?_) fun c₁ _ h₁ => ?_
  · exact hP.setDevice (hP.enter (hP.mapPerf h))
  · exact hP.mapPerf (hP.same h₁ (.emit rfl))

/-- So does a send, if it calls a handler at all. -/
theorem softswitchOnSend {isApp : Bool} (h : P (k + b) c) :
    Sat (softswitchOnSend th c m isApp) (fun out => P k out.2.1) (fun s => P k s.ctxt) := by
  have hcalled : P (k + b) ((c.tick th).emit .onSend) := hP.same (hP.mapPerf h) (.emit rfl)
  unfold Softswitch.softswitchOnSend
  refine Sat.bind (rtsPop_sat.mono (fun _ h => h) ?_) fun popped _ hpopped => ?_
  · exact fun s hs => hP.weaken_add (hP.same hcalled hs.hostSame)
  obtain ⟨dev, c₁⟩ := popped
  have h₁ : P (k + b) c₁ := hP.same hcalled hpopped.2.1.hostSame
  have hstop : P k c₁ := hP.weaken_add h₁
  cases dev with
  | none => exact hstop
  | some d =>
    refine check_reads.then hstop fun _ _ => ?_
    refine Sat.bind (rightMostOne_reads.mono (fun _ h => h) fun s hs => hs ▸ hstop)
      fun pinIndex _ _ => ?_
    refine deref_reads.then hstop fun pin hpin => ?_
    have hmem : pin ∈ (th.device d).vtable.outputPins := mem_of_deref hpin
    have htracked : P (k + b) (trackSend c₁ (th.device d).index pinIndex) :=
      hP.same h₁ ⟨rfl, rfl⟩
    refine Sat.bind (hP.callSend hth hmem htracked) fun r _ h₂ => ?_
    refine check_reads.then h₂ fun _ _ => ?_
    refine Sat.bind (writeHeader_sat.mono (fun _ h => h) ?_) fun s' _ _ => ?_
    · rintro s rfl
      exact h₂
    have h₃ : P k (r.2.setRtsFlags d 0#32) := hP.setDevice h₂
    refine (checkM_reads rtsIsOnList_reads).then h₃ fun _ _ => ?_
    exact Sat.bind (hP.softswitchUpdateRTS hth h₃) fun c₂ _ h₄ => hP.mapPerf h₄

/-! ## Idling -/

omit hth in
theorem idleSweep {fuel : Nat} (h : P k c) :
    Sat (idleSweep fuel c) (fun r => P k r.2) (fun s => P k s.ctxt) := by
  induction fuel generalizing c with
  | zero => exact h
  | succ fuel ih =>
    have hadvanced : P k (advanceSearch c) := hP.same h ⟨rfl, rfl⟩
    unfold Softswitch.idleSweep
    split
    · dsimp only
      split
      · exact hadvanced
      · exact ih hadvanced
    · exact h

/-- A compute handler pushes nothing. -/
theorem softswitchOnIdle (h : P k c) :
    Sat (softswitchOnIdle th c) (fun out => P k out.2) (fun s => P k s.ctxt) := by
  unfold Softswitch.softswitchOnIdle
  split
  · exact h
  · refine Sat.bind (hP.idleSweep h) fun found _ h₁ => ?_
    obtain ⟨dev, c₁⟩ := found
    cases dev with
    | none => exact h₁
    | some d =>
      refine Sat.bind (hP.runCalls_pushFree (hth.compute d _ _) (hP.setDevice (hP.enter h₁)))
        fun c₂ _ h₂ => ?_
      refine checkOnList_reads.then h₂ fun _ _ => ?_
      exact Sat.bind (hP.softswitchUpdateRTS hth h₂) fun c₃ _ h₃ => h₃

theorem hardwareIdleDevice (h : P k c) :
    Sat (hardwareIdleDevice th c d) (P k) (fun s => P k s.ctxt) := by
  refine check_reads.then h fun _ _ => (checkM_reads rtsIsOnList_reads).then h fun _ _ => ?_
  cases hhandler : (th.device d).vtable.onHardwareIdleHandler with
  | none => exact h
  | some handler =>
    refine Sat.bind (hP.runCalls_pushFree (hth.hardwareIdle d handler hhandler _ _) ?_)
      fun c₁ _ h₁ => ?_
    · exact hP.setDevice (hP.enter (hP.track h))
    · exact hP.softswitchUpdateRTS hth h₁

/-- Neither do the handlers for hardware idle. -/
theorem softswitchOnHardwareIdle (h : P k c) :
    Sat (softswitchOnHardwareIdle th c) (P k) (fun s => P k s.ctxt) := by
  refine Sat.bind (Sat.foldlM (fun s d _ hs => hP.hardwareIdleDevice hth hs) ?_) fun c₁ _ h₁ => ?_
  · exact hP.same h ⟨rfl, rfl⟩
  · exact hP.same h₁ ⟨rfl, rfl⟩

/-! ## The branches of the main loop -/

variable {s s' : Main A n} {i : LoopInput A}

theorem receiveBranch (h : P (k + b) s.ctxt) :
    Sat (receiveBranch th s i) (fun s' => P k s'.ctxt) (fun st => P k st.ctxt) := by
  refine check_reads.then (hP.weaken_add h) fun _ _ => ?_
  exact Sat.bind (hP.softswitchOnReceive hth (hP.same h (.emit rfl))) fun c₁ _ h₁ => h₁

theorem prepare (h : P (k + b) s.ctxt) :
    Sat (prepare th s) (fun s' => P k s'.ctxt) (fun st => P k st.ctxt) := by
  unfold Softswitch.prepare
  split
  · exact Sat.bind (hP.softswitchOnSend hth h) fun out _ h₁ => hP.same h₁ ⟨rfl, rfl⟩
  · exact hP.weaken_add h

omit hth in
theorem mailboxDeliver (h : P k s.ctxt) :
    Sat (mailboxDeliver th s) (fun s' => P k s'.ctxt) (fun st => P k st.ctxt) := by
  have hlen : P k (tinselMboxSetLen s.ctxt s.currSize) := hP.same h ⟨rfl, rfl⟩
  rw [mailboxDeliver_eq]
  dsimp only
  split
  · have hlen' : P k (tinselMboxSetLen (tinselMboxSetLen s.ctxt s.currSize) 64) :=
      hP.same hlen ⟨rfl, rfl⟩
    exact hP.same hlen' (.emit rfl)
  · refine Reads.then ?_ hlen fun addr _ => hP.same hlen (.emit rfl)
    exact deref_reads.bind fun _ => deref_reads

/-- A delivery to a device of this thread is a receive. -/
theorem deliver {adequate : Bool} (h : P (k + b) s.ctxt) :
    Sat (deliver th s adequate) (fun s' => P k s'.ctxt) (fun st => P k st.ctxt) := by
  have hderef : ∀ {c : PThreadContext A n} {p}, Reads c (derefAddress c p) :=
    deref_reads.bind fun _ => deref_reads
  have hretarget : Reads s.ctxt (retarget s) := by
    rw [retarget_eq]
    split
    · trivial
    · exact hderef.bind fun _ => trivial
  have hrest : Sat (do
      let s ← retarget s
      let direct ← deliversDirectly th s adequate
      let s ← if direct then directDeliver th s else Softswitch.mailboxDeliver th s
      return nextTarget s) (fun s' => P k s'.ctxt) (fun st => P k st.ctxt) := by
    refine hretarget.then (hP.weaken_add h) fun s₁ hs₁ => ?_
    have h₁ : P (k + b) s₁.ctxt := retarget_ctxt hs₁ ▸ h
    have hdirect : Reads s₁.ctxt (deliversDirectly th s₁ adequate) := by
      rw [deliversDirectly_eq]
      split
      · exact hderef.bind fun _ => trivial
      · trivial
    refine hdirect.then (hP.weaken_add h₁) fun direct _ => ?_
    have hnext : ∀ {s₂ : Main A n}, P k s₂.ctxt → P k (nextTarget s₂).ctxt := by
      intro s₂ h₂
      rw [nextTarget_ctxt]
      exact h₂
    cases direct with
    | true =>
      refine Sat.bind (R := fun s₂ => P k s₂.ctxt) ?_ fun s₂ _ h₂ => hnext h₂
      exact Sat.bind (hP.softswitchOnReceive hth h₁) fun c₁ _ h₂ => h₂
    | false => exact Sat.bind (hP.mailboxDeliver (hP.weaken_add h₁)) fun s₂ _ h₂ => hnext h₂
  rw [deliver_eq]
  split
  · exact hderef.then (hP.weaken_add h) fun _ _ => hrest
  · exact hrest

end HostRules

/-! ## Handlers that push nothing -/

/-- `P` is kept by what handlers that push nothing do to the host buffer. -/
structure HostClosed (P : PThreadContext A n → Prop) : Prop where
  apart : ∀ {c c'}, P c → Apart c c' → P c'
  slowPop : ∀ {c}, P c → 0 < hostMsgBufferSize c → P (hostMessageSlowPopSend c)
  space : ∀ {c}, P c → hostMsgBufferSpace c ≠ 0

namespace HostClosed

variable {P : PThreadContext A n → Prop} (hP : HostClosed P)

include hP

/-- No push is left to be made. -/
theorem rules : HostRules fun k c => k = 0 ∧ P c where
  same h hsame := ⟨h.1, hP.apart h.2 hsame.apart⟩
  slowSend h hmsg := ⟨h.1, hP.apart h.2 (.uart hmsg)⟩
  slowPop h hsize := ⟨h.1, hP.slowPop h.2 hsize⟩
  space h := hP.space h.2
  push h := (Nat.succ_ne_zero _ h.1).elim
  weaken h := (Nat.succ_ne_zero _ h.1).elim

theorem makeSpace_eq (h : P c) : makeSpace c = c := if_neg (hP.space h)

theorem mapPerf {f : Perf → Perf} (h : P c) : P (c.mapPerf f) := hP.apart h .mapPerf

theorem tick (h : P c) : P (c.tick th) := hP.mapPerf h

variable {s : Main A n} {i : LoopInput A} (hth : th.PushFree)

include hth

theorem softswitchInit (h : P c) : Sat (softswitchInit th c) P (fun st => P st.ctxt) :=
  (hP.rules.softswitchInit hth.atMost ⟨rfl, h⟩).mono (fun _ h => h.2) fun _ h => h.2

theorem softswitchOnIdle (h : P c) :
    Sat (softswitchOnIdle th c) (fun out => P out.2) (fun st => P st.ctxt) :=
  (hP.rules.softswitchOnIdle hth.atMost ⟨rfl, h⟩).mono (fun _ h => h.2) fun _ h => h.2

theorem softswitchOnHardwareIdle (h : P c) :
    Sat (softswitchOnHardwareIdle th c) P (fun st => P st.ctxt) :=
  (hP.rules.softswitchOnHardwareIdle hth.atMost ⟨rfl, h⟩).mono (fun _ h => h.2) fun _ h => h.2

theorem receiveBranch (h : P s.ctxt) :
    Sat (receiveBranch th s i) (fun s' => P s'.ctxt) (fun st => P st.ctxt) :=
  (hP.rules.receiveBranch hth.atMost ⟨rfl, h⟩).mono (fun _ h => h.2) fun _ h => h.2

theorem prepare (h : P s.ctxt) :
    Sat (prepare th s) (fun s' => P s'.ctxt) (fun st => P st.ctxt) :=
  (hP.rules.prepare hth.atMost ⟨rfl, h⟩).mono (fun _ h => h.2) fun _ h => h.2

theorem deliver {adequate : Bool} (h : P s.ctxt) :
    Sat (deliver th s adequate) (fun s' => P s'.ctxt) (fun st => P st.ctxt) :=
  (hP.rules.deliver hth.atMost ⟨rfl, h⟩).mono (fun _ h => h.2) fun _ h => h.2

end HostClosed

end Softswitch
