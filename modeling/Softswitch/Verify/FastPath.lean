import Softswitch.Verify.Deadlock
import Softswitch.Verify.Twins

/-!
# Messages to the own thread

A thread that is built with intra-thread sends calls its receive function on the send buffer
where the target is one of its own devices.  One that is built without them sends the message,
and the network returns it: what the first does in one iteration of the main loop, the second
does in two.
-/

namespace Softswitch

open Outcome

variable {A : AppTypes} {n : Nat} {th : PThread A n} {c c' : PThreadContext A n}
  {s s' s₁ s₁' : Main A n} {i : LoopInput A} {w : WaitLocals} {m : Message A} {t t' : BitVec 32}

/-! ## The network that returns messages -/

/-- What is in a send slot, if it is a message to the thread `id`. -/
def Parcel.toThread (id : BitVec 32) : Parcel A → Option (Message A)
  | .message dest m => if dest = id then some m else none
  | .hostMessage _ _ => none

/-- The message the thread has sent to itself between `s` and `s₁`. -/
def selfSent (th : PThread A n) (s s₁ : Main A n) : Option (Message A) :=
  ((given s₁.ctxt.trace).drop (given s.ctxt.trace).length).findSome? (Parcel.toThread th.myId)

/-- The network has returned `m`. -/
def returned (m : Message A) : LoopInput A where
  canRecv := true
  canSend := true
  doHardwareIdle := false
  message := m

/-- The steps of an iteration that receives what the network has returned. -/
def returnedSteps : Option (Message A) → List (LoopInput A)
  | none => []
  | some m => [returned m, returned m]

/-- A step, and the iteration that receives what it sent to its own thread. -/
def returningStep (th : PThread A n) (s : Main A n) (i : LoopInput A) :
    Outcome A n (Main A n) := do
  let s₁ ← mainStep th s i
  runList (mainStep th) s₁ (returnedSteps (selfSent th s s₁))

/-- A run over a network that returns each message to the own thread at once. -/
def returningRun (th : PThread A n) (c : PThreadContext A n) (sendBuffer : Message A)
    (inputs : List (LoopInput A)) : Outcome A n (Main A n) := do
  let s ← softswitchMain th c sendBuffer
  runList (returningStep th) s inputs

/-- The inputs, each with the messages the network returns after it. -/
def withReturned (inputs : List (LoopInput A)) (ms : List (Option (Message A))) :
    List (LoopInput A) :=
  (inputs.zip ms).flatMap fun x => x.1 :: returnedSteps x.2

/-- A run with returned messages is a run of the main loop with those messages as inputs. -/
theorem runList_returningStep {inputs : List (LoopInput A)}
    (h : runList (returningStep th) s inputs = .ok s') :
    ∃ ms, ms.length = inputs.length ∧
      runList (mainStep th) s (withReturned inputs ms) = .ok s' := by
  induction inputs generalizing s with
  | nil => exact ⟨[], rfl, h⟩
  | cons i inputs ih =>
    rw [runList_cons] at h
    obtain ⟨s₂, hstep, h⟩ := bind_eq_ok.1 h
    obtain ⟨s₁, hstep, hreturned⟩ := bind_eq_ok.1 hstep
    obtain ⟨ms, hlength, hrest⟩ := ih h
    refine ⟨selfSent th s s₁ :: ms, congrArg (· + 1) hlength, ?_⟩
    unfold withReturned
    rw [List.zip_cons_cons, List.flatMap_cons, List.cons_append, runList_cons, hstep, ok_bind,
      runList_append, hreturned, ok_bind]
    exact hrest

/-- Such a run is a run of the main loop. -/
theorem returningRun_mainRun {buf : Message A} {inputs : List (LoopInput A)}
    (h : returningRun th c buf inputs = .ok s) :
    ∃ ms, ms.length = inputs.length ∧ mainRun th c buf (withReturned inputs ms) = .ok s := by
  obtain ⟨s₀, hmain, h⟩ := bind_eq_ok.1 h
  obtain ⟨ms, hlength, hrun⟩ := runList_returningStep h
  refine ⟨ms, hlength, ?_⟩
  unfold mainRun
  rw [hmain]
  exact hrun

/-! ## Threads in step -/

/-- Two main loops are at the same place. -/
structure MainTwin (s s' : Main A n) : Prop where
  ctxt : Twin s.ctxt s'.ctxt
  locals : s' = { s with ctxt := s'.ctxt }

theorem PThread.overMailbox_enableProfile :
    th.overMailbox.build.enableProfile = th.build.enableProfile := rfl

/-! ## The host buffer -/

namespace Twin

theorem storeWords {msg msg' : HostMsg} {k : Nat} {words words' : List (BitVec 32)}
    (h : Twin c c') (hmsg : msg'.payload.length = msg.payload.length)
    (hwords : words'.length = words.length) :
    Twin (storeWords c msg k words).1 (storeWords c' msg' k words').1 := by
  induction words generalizing c c' msg msg' k words' with
  | nil =>
    rw [List.length_eq_zero_iff.1 hwords]
    exact h
  | cons v words ih =>
    obtain ⟨v', words', rfl⟩ := List.exists_cons_of_length_eq_add_one hwords
    obtain ⟨hstore, hmsg⟩ := h.storePayload hmsg
    exact ih hstore hmsg (Nat.succ.inj hwords)

theorem pushWords {msg : HostMsg} {words words' : List (BitVec 32)} (h : Twin c c')
    (hwords : words'.length = words.length) :
    Twin (pushWords c msg words) (pushWords c' msg words') :=
  (h.storeWords rfl hwords).push

/-- A record of the counters may differ, but not that there is one. -/
theorem flushPerfmon (h : Twin c c') :
    Twin (softswitchFlushPerfmon th c) (softswitchFlushPerfmon th.overMailbox c') := by
  unfold softswitchFlushPerfmon
  exact mapPerf (h.pushWords rfl)

theorem perfmonFlush (h : Twin c c') :
    Twin (perfmonFlush th c) (perfmonFlush th.overMailbox c') := by
  unfold Softswitch.perfmonFlush
  exact mapPerf (tick (flushPerfmon (makeSpace (mapPerf (tick (mapPerf (tick h)))))))

theorem hostMessageBufferPopSend (h : Twin c c') :
    Twin (hostMessageBufferPopSend th c) (hostMessageBufferPopSend th.overMailbox c') := by
  obtain ⟨_, _, _, _, rfl⟩ := h.exists_eq
  unfold Softswitch.hostMessageBufferPopSend
  refine emit ?_ rfl
  exact { h with hbufHead := rfl, hostPending := rfl }

theorem drainToAdequate {fuel : Nat} (h : Twin c c') :
    Matches Twin (drainToAdequate fuel c) (drainToAdequate fuel c') := by
  induction fuel generalizing c c' with
  | zero => exact .error
  | succ fuel ih =>
    unfold Softswitch.drainToAdequate
    dsimp only
    rw [h.slowPop.space_eq]
    exact .ite (fun _ => .ok h.slowPop) fun _ => ih h.slowPop

theorem makeAdequate (h : Twin c c') :
    Matches Twin (makeAdequate c w) (makeAdequate c' w) :=
  .ite (fun _ => .ok h) fun _ => h.drainToAdequate

theorem initDevice {d : Fin n} (h : Twin c c') :
    Matches Twin (initDevice th c d) (initDevice th.overMailbox c' d) := by
  obtain ⟨_, _, _, _, rfl⟩ := h.exists_eq
  refine Matches.bind (runCalls (setState (enter h.track))) fun c₁ c₁' h₁ => ?_
  refine h₁.readyToSend.bind fun x x' hx => ?_
  obtain ⟨flags, c₂⟩ := x
  obtain ⟨flags', c₂'⟩ := x'
  obtain ⟨rfl, h₂⟩ := hx
  exact .ite (fun _ => h₂.setRtsFlags.append) fun _ => .ok h₂.setRtsFlags

theorem init (h : Twin c c') :
    Matches Twin (softswitchInit th c) (softswitchInit th.overMailbox c') := by
  have hzero : Twin (zeroProfileCounters th c) (zeroProfileCounters th.overMailbox c') :=
    { h with }
  unfold softswitchInit
  refine check.bind fun _ _ _ => ?_
  exact Matches.foldlM (fun _ _ _ h => h.initDevice) hzero.clearRts

end Twin

/-! ## The loop -/

/-- What the thread computes before its wait is the same on both sides. -/
theorem waitLocals_twin (h : MainTwin s s') : waitLocals s' = waitLocals s := by
  have hready : softswitchIsRTSReady s'.ctxt = softswitchIsRTSReady s.ctxt :=
    congrArg Option.isSome h.ctxt.rtsHead
  have htodo : s'.currSendTodo = s.currSendTodo := by rw [h.locals]
  unfold waitLocals
  rw [h.ctxt.size_eq, h.ctxt.space_eq, hready, htodo]

namespace MainTwin

/-- The two states differ in their contexts alone. -/
theorem exists_eq (h : MainTwin s s') : ∃ c', s' = { s with ctxt := c' } ∧ Twin s.ctxt c' :=
  ⟨s'.ctxt, h.locals, h.ctxt⟩

theorem withCtxt (h : MainTwin s s') (hc : Twin c c') :
    MainTwin { s with ctxt := c } { s' with ctxt := c' } := by
  refine ⟨hc, ?_⟩
  rw [h.locals]

theorem setPc {pc : Pc} (h : MainTwin s s') :
    MainTwin { s with pc := pc } { s' with pc := pc } := by
  refine ⟨h.ctxt, ?_⟩
  rw [h.locals]

theorem main {buf : Message A} (h : Twin c c') : Matches MainTwin
    (softswitchMain th c buf) (softswitchMain th.overMailbox c' buf) := by
  have hempty : Twin { c with hbufHead := 0, hbufTail := 0, hostPending := 0 }
      { c' with hbufHead := 0, hbufTail := 0, hostPending := 0 } :=
    { h with hbufHead := rfl, hbufTail := rfl, hostPending := rfl }
  unfold softswitchMain
  refine .ite (fun _ => .ok ⟨h, rfl⟩) fun _ => ?_
  refine hempty.init.bind fun c₁ c₁' h₁ => .ok ⟨?_, rfl⟩
  dsimp only
  exact h₁.tick.mapPerf

theorem perfmonIdle (h : MainTwin s s') :
    MainTwin (perfmonIdle th s t) (perfmonIdle th.overMailbox s' t') := by
  obtain ⟨c', rfl, hc⟩ := h.exists_eq
  unfold Softswitch.perfmonIdle
  rw [PThread.overMailbox_enableProfile]
  cases th.build.enableProfile with
  | none => exact h
  | some rate =>
    dsimp only
    split
    · split
      · refine ⟨?_, rfl⟩
        dsimp only
        exact hc.addCycles
      · refine ⟨?_, rfl⟩
        exact hc.addCycles.perfmonFlush
    · exact ⟨hc, rfl⟩

theorem loopTop (h : MainTwin s s') :
    Matches MainTwin (loopTop th s i) (loopTop th.overMailbox s' i) := by
  have htick : MainTwin { s with ctxt := s.ctxt.tick th }
      { s' with ctxt := s'.ctxt.tick th.overMailbox } := h.withCtxt h.ctxt.tick
  unfold Softswitch.loopTop
  rw [waitLocals_twin h]
  refine .ite (fun _ => ?_) fun _ => .ok htick.setPc
  refine h.ctxt.tick.onIdle.bind fun x x' hx => ?_
  obtain ⟨more, c₁⟩ := x
  obtain ⟨more', c₁'⟩ := x'
  obtain ⟨rfl, h₁⟩ := hx
  have hidle : MainTwin { s with ctxt := c₁ } { s' with ctxt := c₁' } := h.withCtxt h₁
  exact .ite (fun _ => .ok hidle.setPc) fun _ => .ok hidle.perfmonIdle.setPc

theorem waitPhase (h : MainTwin s s') :
    Matches MainTwin (waitPhase th s w) (waitPhase th.overMailbox s' w) := by
  obtain ⟨c', rfl, hc⟩ := h.exists_eq
  have hend : ∀ t t' add, Matches MainTwin
      (Except.ok { s with ctxt := (s.ctxt.tick th).addCycles th t add } : Outcome A n (Main A n))
      (.ok { s with ctxt := (c'.tick th.overMailbox).addCycles th.overMailbox t' add }) :=
    fun _ _ _ => .ok ⟨hc.tick.addCycles, rfl⟩
  obtain ⟨_, _, _, _, rfl⟩ := hc.exists_eq
  unfold Softswitch.waitPhase
  exact .ite (fun _ => Twin.check.bind fun _ _ _ => hend _ _ _) fun _ => hend _ _ _

theorem receiveBranch (h : MainTwin s s') :
    Matches MainTwin (receiveBranch th s i) (receiveBranch th.overMailbox s' i) := by
  have hrecv : Twin (s.ctxt.emit (.mboxRecv i.message)) (s'.ctxt.emit (.mboxRecv i.message)) :=
    h.ctxt.emit rfl
  unfold Softswitch.receiveBranch
  exact Twin.check.bind fun _ _ _ => hrecv.onReceive.bind fun c₁ c₁' h₁ => .ok (h.withCtxt h₁)

theorem prepare (h : MainTwin s s') :
    Matches MainTwin (prepare th s) (prepare th.overMailbox s') := by
  obtain ⟨c', rfl, hc⟩ := h.exists_eq
  unfold Softswitch.prepare
  refine .ite (fun _ => ?_) fun _ => .ok h
  refine hc.onSend.bind fun x x' hx => ?_
  obtain ⟨size, c₁, r⟩ := x
  obtain ⟨size', c₁', r'⟩ := x'
  obtain ⟨rfl, h₁, rfl⟩ := hx
  refine .ok ⟨?_, rfl⟩
  exact { h₁ with currentSize := rfl }

theorem hostInv (h : MainTwin s s') (hs : HostInv s) : HostInv s' := by
  obtain ⟨c', rfl, hc⟩ := h.exists_eq
  obtain ⟨_, _, _, _, rfl⟩ := hc.exists_eq
  exact ⟨fun hpc => ⟨(hs.counted hpc).head_lt, (hs.counted hpc).tail_eq⟩, hs.nonempty,
    hs.inadequate⟩

end MainTwin

/-! ## Delivery -/

theorem selfSent_eq {sent : List (Parcel A)}
    (h : given s₁.ctxt.trace = given s.ctxt.trace ++ sent) :
    selfSent th s s₁ = sent.findSome? (Parcel.toThread th.myId) := by
  unfold selfSent
  rw [h, List.drop_left]

theorem given_mboxSent {dest : BitVec 32} {length : Nat} :
    given (mboxSent c dest length m).trace = given c.trace ++ [.message dest m] :=
  List.filterMap_append

theorem Twin.mboxSent_right {dest : BitVec 32} {length : Nat} (h : Twin c c') :
    Twin c (mboxSent c' dest length m) := by
  have hset : Twin c (tinselMboxSetLen c' length) := { h with }
  exact hset.emit_right rfl

theorem Twin.mboxSent {dest : BitVec 32} {length : Nat} (h : Twin c c') :
    Twin (mboxSent c dest length m) (mboxSent c' dest length m) := by
  have hset : Twin (tinselMboxSetLen c length) (tinselMboxSetLen c' length) := { h with }
  exact hset.emit rfl

theorem nextTarget_sendBuffer : (nextTarget s).sendBuffer = s.sendBuffer := by
  unfold nextTarget
  split <;> rfl

theorem MainTwin.nextTarget (h : MainTwin s s') : MainTwin (nextTarget s) (nextTarget s') := by
  obtain ⟨c', rfl, hc⟩ := h.exists_eq
  unfold Softswitch.nextTarget
  split
  · exact ⟨hc, rfl⟩
  · exact ⟨hc, rfl⟩

/-- The message of `s` is for a device of the thread, and `mid` is how the main loop goes on, but
for what the receive function does. -/
def DeliversSelf (th : PThread A n) (s mid : Main A n) : Prop :=
  ∃ s₁, retarget s = .ok s₁ ∧ deliversDirectly th s₁ true = .ok true ∧ mid = nextTarget s₁

/-- A thread over the mailbox has gone on from the context `c₀` to `s'`, and the thread with
intra-thread sends to `s`.  The first is level with the second, or behind it by a receive. -/
inductive Trails (th : PThread A n) (c₀ : PThreadContext A n) (P : Main A n → Prop) :
    Main A n → Main A n → Prop
  | level {s s' : Main A n} {sent : List (Parcel A)} (h : MainTwin s s')
      (hgiven : given s'.ctxt.trace = given c₀.trace ++ sent)
      (hself : sent.findSome? (Parcel.toThread th.myId) = none) : Trails th c₀ P s s'
  | behind {s s' mid : Main A n} (hmid : P mid) (h : MainTwin mid s')
      (hgiven : given s'.ctxt.trace = given c₀.trace ++ [.message th.myId mid.sendBuffer])
      (hrecv : softswitchOnReceive th mid.ctxt mid.sendBuffer = .ok s.ctxt)
      (heq : s = { mid with ctxt := s.ctxt }) : Trails th c₀ P s s'

/-- With intra-thread sends only the messages of ordinary pins are delivered. -/
theorem deliver_hasTarget (hintra : th.build.enableIntraThreadSend = true)
    (hs : AddressInv th s) (hpos : 0 < s.currSendTodo) (hdeliver : deliver th s true = .ok s₁) :
    ∃ p addr, s.isApp = false ∧ s.currSendAddressList = some p ∧ p.get? = some addr := by
  obtain ⟨d, pinIndex, pin, hsending⟩ := hs hpos
  cases hpin : pin.isApp with
  | true =>
    have hstops := (addressUses_app th (hsending.isApp.trans hpin) (hsending.null hpin)).2
    rw [hstops (by rw [hintra, Bool.or_true])] at hdeliver
    cases hdeliver
  | false =>
    obtain ⟨p, targets, hlist, -, -, -, hlength⟩ := hsending.target hpin
    have hoffset : p.offset < p.base.length := by omega
    exact ⟨p, _, hsending.isApp.trans hpin, hlist, List.getElem?_eq_getElem hoffset⟩

/-- The state after a delivery through the mailbox. -/
def Main.mailed (s : Main A n) (addr : Address) : Main A n :=
  nextTarget { s.readdressed addr with
    ctxt := mboxSent s.ctxt addr.thread s.currSize (s.readdressed addr).sendBuffer }

theorem Main.given_mailed {addr : Address} : given (s.mailed addr).ctxt.trace =
    given s.ctxt.trace ++ [.message addr.thread (s.readdressed addr).sendBuffer] := by
  unfold Main.mailed
  rw [nextTarget_ctxt]
  exact given_mboxSent

theorem deliver_mailed {p : AddressPtr} {addr : Address} (happ : s.isApp = false)
    (hlist : s.currSendAddressList = some p) (hget : p.get? = some addr)
    (hmail : th.build.enableIntraThreadSend = true → addr.thread ≠ th.myId) :
    deliver th s true = .ok (s.mailed addr) := by
  have hcond : ¬(th.build.enableIntraThreadSend && addr.thread == th.myId) = true := by
    simpa using hmail
  rw [deliver_target happ hlist hget, if_neg hcond, mailboxDeliver_target happ hlist hget]
  rfl

/-- A message for this thread itself is, over the mailbox, still to be received. -/
theorem deliver_trails (h : MainTwin s s') (hintra : th.build.enableIntraThreadSend = true)
    (hs : AddressInv th s) (hpos : 0 < s.currSendTodo) :
    Matches (Trails th s'.ctxt (DeliversSelf th s)) (deliver th s true)
      (deliver th.overMailbox s' true) := by
  intro s₁ hdeliver
  obtain ⟨p, addr, happ, hlist, hget⟩ := deliver_hasTarget hintra hs hpos hdeliver
  obtain ⟨c', rfl, hc⟩ := h.exists_eq
  have hslow : deliver th.overMailbox { s with ctxt := c' } true =
      .ok (Main.mailed { s with ctxt := c' } addr) :=
    deliver_mailed happ hlist hget (by rintro ⟨⟩)
  refine ⟨_, hslow, ?_⟩
  by_cases hself : addr.thread = th.myId
  · rw [deliver_target happ hlist hget, hintra, Bool.true_and, if_pos (beq_iff_eq.2 hself)]
      at hdeliver
    obtain ⟨s₂, hdirect, hret⟩ := bind_eq_ok.1 hdeliver
    obtain ⟨c₁, hrecv, hret'⟩ := bind_eq_ok.1 hdirect
    cases hret'
    cases hret
    have hdirectly : deliversDirectly th (s.readdressed addr) true = .ok true := by
      rw [deliversDirectly_target hlist hget, hintra, hself]
      simp
    have hmid : DeliversSelf th s (nextTarget (s.readdressed addr)) :=
      ⟨_, retarget_target happ hlist hget, hdirectly, rfl⟩
    refine .behind hmid ?_ ?_ ?_ ?_
    · exact MainTwin.nextTarget ⟨hc.mboxSent_right, rfl⟩
    · rw [nextTarget_sendBuffer, ← hself]
      exact Main.given_mailed
    · rw [nextTarget_ctxt, nextTarget_ctxt, nextTarget_sendBuffer]
      exact hrecv
    · unfold nextTarget
      split
      · rfl
      · rfl
  · rw [deliver_mailed happ hlist hget fun _ => hself] at hdeliver
    cases hdeliver
    refine .level (MainTwin.nextTarget ⟨hc.mboxSent, rfl⟩) Main.given_mailed ?_
    simp [Parcel.toThread, hself]

/-! ## Steps -/

/-- What was given is seen in the events that are kept. -/
theorem given_eq (h : c'.sig = c.sig) : given c'.trace = given c.trace := by
  rw [← given_sig, h, given_sig]

namespace Trails

variable {c₀ c₁ : PThreadContext A n} {P Q : Main A n → Prop}

/-- Nothing is sent. -/
theorem quiet (h : MainTwin s s') (hgiven : given s'.ctxt.trace = given c₀.trace) :
    Trails th c₀ P s s' := by
  have hnone : given s'.ctxt.trace = given c₀.trace ++ [] := by rw [hgiven, List.append_nil]
  exact .level h hnone rfl

theorem of_given (h : Trails th c₁ P s s') (hgiven : given c₁.trace = given c₀.trace) :
    Trails th c₀ P s s' := by
  cases h with
  | level h hsent hself => exact .level h (hgiven ▸ hsent) hself
  | behind hmid h hsent hrecv heq => exact .behind hmid h (hgiven ▸ hsent) hrecv heq

/-- What the side behind is like may be described more loosely. -/
theorem mono (h : Trails th c₀ P s s') (hP : ∀ mid, P mid → Q mid) : Trails th c₀ Q s s' := by
  cases h with
  | level h hsent hself => exact .level h hsent hself
  | behind hmid h hsent hrecv heq => exact .behind (hP _ hmid) h hsent hrecv heq

theorem setTop (h : Trails th c₀ P s s') (hP : ∀ mid, P mid → Q { mid with pc := .top }) :
    Trails th c₀ Q { s with pc := .top } { s' with pc := .top } := by
  cases h with
  | level h hsent hself => exact .level h.setPc hsent hself
  | behind hmid h hsent hrecv heq =>
    refine .behind (hP _ hmid) h.setPc hsent hrecv ?_
    rw [heq]

end Trails

theorem sendBranch_trails {P : Main A n → Prop} (h : MainTwin s s')
    (hintra : th.build.enableIntraThreadSend = true)
    (hcall : ∀ s₁, (th.build.asserts = true → i.canSend = true ∧ w.wantToSend = true) →
      w.hostBufferEmpty = true → prepare th s = .ok s₁ → 0 < s₁.currSendTodo →
      AddressInv th s₁ ∧ ∀ mid, DeliversSelf th s₁ mid → P mid) :
    Matches (Trails th s'.ctxt P) (sendBranch th s w true i)
      (sendBranch th.overMailbox s' w true i) := by
  unfold sendBranch
  refine Twin.check.with_ok.bind fun _ _ hwant => Twin.check.with_ok.bind fun _ _ hcan => ?_
  have hchecks : th.build.asserts = true → i.canSend = true ∧ w.wantToSend = true :=
    fun ha => ⟨check_sat.of_ok hcan.2.1 ha, check_sat.of_ok hwant.2.1 ha⟩
  refine .ite (fun _ => .ok ?_) fun hempty => ?_
  · have hgiven : given (hostMessageBufferPopSend th.overMailbox s'.ctxt).trace =
        given s'.ctxt.trace ++ [.hostMessage th.hostId (s'.ctxt.hostBuffer s'.ctxt.hbufHead)] :=
      List.filterMap_append
    exact .level (h.withCtxt h.ctxt.hostMessageBufferPopSend) hgiven rfl
  · refine h.prepare.with_ok.bind fun s₁ s₁' h₁ => ?_
    obtain ⟨h₁, hprep, hprep'⟩ := h₁
    have hgiven : given s₁'.ctxt.trace = given s'.ctxt.trace := by
      have htrades : Trades _ s'.ctxt i s₁'.ctxt [] [] := (prepare_sat.of_ok hprep').trades
      rw [htrades.given, List.append_nil]
    obtain ⟨c₁', rfl, hc₁⟩ := h₁.exists_eq
    refine .ite (fun hpos => ?_) fun _ => .ok (.quiet h₁ hgiven)
    obtain ⟨hs₁, hself⟩ := hcall s₁ hchecks (by simpa using hempty) hprep hpos
    exact (deliver_trails h₁ hintra hs₁ hpos).mono fun s₂ s₂' h₂ => (h₂.mono hself).of_given hgiven

theorem act_trails {P : Main A n → Prop} (h : MainTwin s s')
    (hintra : th.build.enableIntraThreadSend = true)
    (hdrain : th.build.enableSendOverRecv = false)
    (hcall : ∀ s₁, i.canRecv = false →
      (th.build.asserts = true → i.canSend = true ∧ w.wantToSend = true) →
      w.hostBufferEmpty = true → prepare th s = .ok s₁ → 0 < s₁.currSendTodo →
      AddressInv th s₁ ∧ ∀ mid, DeliversSelf th s₁ mid → P mid) :
    Matches (Trails th s'.ctxt P) (act th s w true i) (act th.overMailbox s' w true i) := by
  unfold act
  refine .ite (fun hover => ?_) fun _ => .ite (fun hrecv => ?_) fun hrecv => ?_
  · simp [hdrain] at hover
  · refine h.receiveBranch.with_ok.mono fun s₁ s₁' h₁ => .quiet h₁.1 ?_
    obtain ⟨c₁', rfl, hrecv'⟩ := receiveBranch_sat.of_ok h₁.2.2
    have := hrecv'.trades_mbox (by simpa using hrecv)
    rw [this.given, List.append_nil]
  · refine Twin.check.bind fun _ _ _ => sendBranch_trails h hintra fun s₁ => ?_
    exact hcall s₁ (by simpa using hrecv)

/-- The step delivers to a device of the thread, and `mid` is the state after it, but for what
the receive function does. -/
def LoopsBack (th : PThread A n) (s : Main A n) (i : LoopInput A) (mid : Main A n) : Prop :=
  ∃ s₁ s₂, DeliverCall th s i s₁ ∧ DeliversSelf th s₁ s₂ ∧ mid = { s₂ with pc := .top }

theorem wake_trails (h : MainTwin s s') (hhost : HostInv s) (hs : AddressInv th s)
    (hpc : s.pc = .wait w) (hintra : th.build.enableIntraThreadSend = true)
    (hdrain : th.build.enableSendOverRecv = false) :
    Matches (Trails th s'.ctxt (LoopsBack th s i)) (wake th s w i)
      (wake th.overMailbox s' w i) := by
  have hpc' : s'.pc = .wait w := by rw [h.locals, hpc]
  have hhost' := h.hostInv hhost
  unfold wake
  refine h.waitPhase.with_ok.bind fun s₀ s₀' h₀ => ?_
  obtain ⟨h₀, hwait, hwait'⟩ := h₀
  obtain ⟨c₀', rfl, hspent, hbuffer⟩ := waitPhase_sat.of_ok hwait'
  refine .ite (fun _ => ?_) fun hidle => ?_
  · refine h₀.ctxt.onHardwareIdle.with_ok.bind fun c₁ c₁' h₁ => .ok ?_
    refine .quiet (h₀.withCtxt h₁.1).setPc ?_
    have hidle : Trades th c₀' i c₁' [] [] := .of_enters (softswitchOnHardwareIdle_enters h₁.2.2)
    rw [hidle.given, List.append_nil, given_eq hspent.sig]
  · refine h₀.ctxt.makeAdequate.with_ok.bind fun c₁ c₁' h₁ => ?_
    obtain ⟨h₁, hspace, hspace'⟩ := h₁
    have hgiven : given c₁'.trace = given s'.ctxt.trace := by
      have hpending : c₀'.hostPending = s'.ctxt.hostPending :=
        congrArg HostBuffer.hostPending hbuffer
      have hadequate := makeAdequate_sat
        (hspent.keeps.counted (hhost'.counted (by simp [hpc'])))
        (fun h => hpending ▸ hhost'.nonempty _ hpc' h)
        (fun h => hpending ▸ hhost'.inadequate _ hpc' h)
      rw [given_eq (hadequate.of_ok hspace').1.undisturbed.sig, given_eq hspent.sig]
    refine (act_trails (P := fun mid => LoopsBack th s i { mid with pc := .top })
      (h₀.withCtxt h₁) hintra hdrain ?_).bind fun s₂ s₂' h₂ => .ok ?_
    · intro s₁ hrecv hchecks hempty hprep hpos
      have hcall : DeliverCall th s i s₁ :=
        .call hpc hwait (by simpa using hidle) hspace (by simp [hdrain, hrecv]) hchecks hempty
          hprep hpos
      exact ⟨(hcall.addressInv hhost hs).1, fun mid hmid => ⟨s₁, mid, hcall, hmid, rfl⟩⟩
    · exact (h₂.of_given hgiven).setTop fun _ h => h

/-- A step keeps the two sides level, or leaves the one over the mailbox behind by a receive. -/
theorem mainStep_trails (h : MainTwin s s') (hhost : HostInv s) (hs : AddressInv th s)
    (hintra : th.build.enableIntraThreadSend = true)
    (hdrain : th.build.enableSendOverRecv = false) :
    Matches (Trails th s'.ctxt (LoopsBack th s i)) (mainStep th s i)
      (mainStep th.overMailbox s' i) := by
  have hpc' : s'.pc = s.pc := by rw [h.locals]
  have hquiet : (∀ w, s.pc ≠ .wait w) →
      Matches MainTwin (mainStep th s i) (mainStep th.overMailbox s' i) →
      Matches (Trails th s'.ctxt (LoopsBack th s i)) (mainStep th s i)
        (mainStep th.overMailbox s' i) := by
    intro hwait hstep
    refine hstep.with_ok.mono fun s₁ s₁' h₁ => .quiet h₁.1 ?_
    have := ((mainStep_sat (h.hostInv hhost)).of_ok h₁.2.2).trades_top (by rwa [hpc'])
    rw [this.given, List.append_nil]
  cases hpc : s.pc with
  | parked =>
    refine hquiet (by simp [hpc]) ?_
    unfold mainStep
    rw [hpc', hpc]
    exact .ok h
  | top =>
    refine hquiet (by simp [hpc]) ?_
    unfold mainStep
    rw [hpc', hpc]
    exact h.loopTop
  | wait w =>
    unfold mainStep
    rw [hpc', hpc]
    exact wake_trails h hhost hs hpc hintra hdrain

/-! ## The receive that was left out -/

/-- In the state `s` a thread can go through an iteration that receives: there is space for what
the handler pushes, and if nothing is left to send, a build that asserts it before the idle
detection finds no device that wants to compute. -/
structure Harmless (th : PThread A n) (s : Main A n) : Prop where
  space : maxHostPerHandler ≤ hostMsgBufferSpace s.ctxt
  idle : th.build.asserts = true → th.build.enableHardwareIdle = true →
    (waitLocals s).wantToSend = false → ∀ d, (s.ctxt.devices d).rtsFlags = 0

theorem Harmless.twin (h : MainTwin s s') (hs : Harmless th s) : Harmless th.overMailbox s' := by
  refine ⟨?_, fun hasserts hidle hwant d => ?_⟩
  · rw [h.ctxt.space_eq]
    exact hs.space
  · rw [waitLocals_twin h] at hwant
    rw [h.ctxt.devices]
    exact hs.idle hasserts hidle hwant d

/-- A message that came back is received in the next step. -/
theorem act_returned (hdrain : th.build.enableSendOverRecv = false) :
    act th s w true (returned m) = softswitchOnReceive th (s.ctxt.emit (.mboxRecv m)) m >>=
      fun c => .ok { s with ctxt := c } := by
  have hrecv : ((returned m).canRecv && true) = true := rfl
  have hcheck : th.check s.ctxt .mainCanRecv (returned m).canRecv = .ok () := check_true
  unfold act
  rw [if_neg (by simp [hdrain]), if_pos hrecv]
  unfold receiveBranch
  rw [hcheck]
  rfl

theorem wake_returned (hspace : w.adequateHostBufferSpace = true)
    (hidle : th.build.asserts = true → th.build.enableHardwareIdle = true →
      w.wantToSend = false → ∀ d, (s.ctxt.devices d).rtsFlags = 0)
    (hdrain : th.build.enableSendOverRecv = false) :
    ∃ p, wake th s w (returned m) =
      softswitchOnReceive th ({ s.ctxt with toPerf := p }.emit (.mboxRecv m)) m >>=
        fun c => .ok { s with ctxt := c, pc := .top } := by
  obtain ⟨p, hwait⟩ := waitPhase_ok hidle
  have hadequate : ∀ c : PThreadContext A n, makeAdequate c w = .ok c := fun _ => if_pos hspace
  refine ⟨p, ?_⟩
  unfold wake
  rw [hwait, ok_bind, if_neg (by simp [returned]), hadequate, ok_bind, act_returned hdrain]
  generalize softswitchOnReceive th _ m = r
  cases r with
  | error e => rfl
  | ok c₁ => rfl

/-- An iteration that receives. -/
theorem runList_returnedSteps (hs : Harmless th s) (hpc : s.pc = .top)
    (hdrain : th.build.enableSendOverRecv = false) : ∃ p,
      runList (mainStep th) s (returnedSteps (some m)) =
        softswitchOnReceive th ({ s.ctxt with toPerf := p }.emit (.mboxRecv m)) m >>=
          fun c => .ok { s with ctxt := c } := by
  have htop : mainStep th s (returned m) =
      .ok { s with ctxt := s.ctxt.tick th, pc := .wait (waitLocals s) } := by
    unfold mainStep
    rw [hpc]
    rfl
  obtain ⟨p, hwake⟩ := wake_returned (m := m) (w := waitLocals s)
    (s := { s with ctxt := s.ctxt.tick th, pc := .wait (waitLocals s) })
    (decide_eq_true hs.space) hs.idle hdrain
  have hwait : mainStep th { s with ctxt := s.ctxt.tick th, pc := .wait (waitLocals s) }
      (returned m) = softswitchOnReceive th ({ s.ctxt with toPerf := p }.emit (.mboxRecv m)) m >>=
        fun c => .ok { s with ctxt := c, pc := .top } := hwake
  refine ⟨p, ?_⟩
  unfold returnedSteps
  rw [runList_cons, htop, ok_bind, runList_cons, hwait, ← hpc]
  generalize softswitchOnReceive th _ m = r
  cases r with
  | error e => rfl
  | ok c₁ => rfl

/-- The thread over the mailbox catches up. -/
theorem Trails.catchUp {P : Main A n → Prop} {s₀ : Main A n} (h : Trails th s₀.ctxt P s s')
    (hP : ∀ mid, P mid → mid.pc = .top ∧ Harmless th mid)
    (hdrain : th.build.enableSendOverRecv = false) :
    ∃ s₂, runList (mainStep th.overMailbox) s'
      (returnedSteps (selfSent th.overMailbox s₀ s')) = .ok s₂ ∧ MainTwin s s₂ := by
  cases h with
  | level h hgiven hself =>
    have hnone : selfSent th.overMailbox s₀ s' = none := (selfSent_eq hgiven).trans hself
    rw [hnone]
    exact ⟨s', rfl, h⟩
  | @behind mid hmid h hgiven hrecv heq =>
    obtain ⟨htop, hharmless⟩ := hP mid hmid
    have hself : selfSent th.overMailbox s₀ s' = some mid.sendBuffer := by
      rw [selfSent_eq hgiven]
      simp [Parcel.toThread, PThread.overMailbox]
    obtain ⟨c', rfl, hc⟩ := h.exists_eq
    obtain ⟨p, hrun⟩ := runList_returnedSteps (m := mid.sendBuffer) (hharmless.twin h) htop hdrain
    have hback : Twin mid.ctxt ({ c' with toPerf := p }.emit (.mboxRecv mid.sendBuffer)) := by
      have hperf : Twin mid.ctxt { c' with toPerf := p } := { hc with }
      exact hperf.emit_right rfl
    obtain ⟨c₁', hrecv', h₁⟩ := hback.onReceive s.ctxt hrecv
    refine ⟨{ mid with ctxt := c₁' }, ?_, h₁, ?_⟩
    · rw [hself, hrun, hrecv']
      rfl
    · rw [heq]

/-! ## Runs -/

theorem LoopsBack.pc {mid : Main A n} (h : LoopsBack th s i mid) : mid.pc = .top := by
  obtain ⟨_, _, -, -, rfl⟩ := h
  rfl

/-- A step of one side is one of the other, or two of them where a message came back. -/
theorem mainStep_returningStep (h : MainTwin s s') (hhost : HostInv s) (hs : AddressInv th s)
    (hintra : th.build.enableIntraThreadSend = true)
    (hdrain : th.build.enableSendOverRecv = false)
    (hharmless : ∀ mid, LoopsBack th s i mid → Harmless th mid) :
    Matches MainTwin (mainStep th s i) (returningStep th.overMailbox s' i) := by
  intro s₁ hstep
  obtain ⟨s₁', hstep', htrails⟩ := mainStep_trails h hhost hs hintra hdrain s₁ hstep
  obtain ⟨s₂, hrun, h₂⟩ := htrails.catchUp (fun mid hmid => ⟨hmid.pc, hharmless mid hmid⟩) hdrain
  refine ⟨s₂, ?_, h₂⟩
  unfold returningStep
  rw [hstep']
  exact hrun

theorem runList_returningRun {inputs : List (LoopInput A)} (h : MainTwin s s') (hhost : HostInv s)
    (hs : AddressInv th s) (hintra : th.build.enableIntraThreadSend = true)
    (hdrain : th.build.enableSendOverRecv = false)
    (hall : ∀ pre i post t mid, inputs = pre ++ i :: post → runList (mainStep th) s pre = .ok t →
      LoopsBack th t i mid → Harmless th mid) :
    Matches MainTwin (runList (mainStep th) s inputs)
      (runList (returningStep th.overMailbox) s' inputs) := by
  induction inputs generalizing s s' with
  | nil => exact .ok h
  | cons i inputs ih =>
    rw [runList_cons, runList_cons]
    have hstep := mainStep_returningStep h hhost hs hintra hdrain
      fun mid => hall [] i inputs s mid rfl rfl
    refine hstep.with_ok.bind fun s₁ s₁' h₁ => ?_
    obtain ⟨h₁, hok, -⟩ := h₁
    have hstepped := (mainStep_sat hhost).of_ok hok
    refine ih h₁ (hstepped.hostInv hhost) (hstepped.addressInv hs) ?_
    rintro pre j post t mid rfl hpre
    refine hall (i :: pre) j post t mid rfl ?_
    rw [runList_cons, hok]
    exact hpre

/-- A run of a thread with intra-thread sends is matched by a run over a network that returns the
messages to the own thread, if every one of its deliveries to itself is harmless. -/
theorem mainRun_returningRun {buf : Message A} {inputs : List (LoopInput A)}
    (hintra : th.build.enableIntraThreadSend = true)
    (hdrain : th.build.enableSendOverRecv = false) (hrun : mainRun th c buf inputs = .ok s)
    (hall : ∀ pre i post t mid, inputs = pre ++ i :: post → mainRun th c buf pre = .ok t →
      LoopsBack th t i mid → Harmless th mid) :
    ∃ s', returningRun th.overMailbox c buf inputs = .ok s' ∧ MainTwin s s' := by
  obtain ⟨s₀, hmain, hsteps⟩ := bind_eq_ok.1 hrun
  obtain ⟨s₀', hmain', h₀⟩ := MainTwin.main (Twin.refl c) s₀ hmain
  have hstart := softswitchMain_sat.of_ok hmain
  have hall' : ∀ pre i post t mid, inputs = pre ++ i :: post →
      runList (mainStep th) s₀ pre = .ok t → LoopsBack th t i mid → Harmless th mid := by
    intro pre i post t mid heq hpre
    refine hall pre i post t mid heq ?_
    unfold mainRun
    rw [hmain]
    exact hpre
  obtain ⟨s', hsteps', h⟩ :=
    runList_returningRun h₀ hstart.hostInv hstart.addressInv hintra hdrain hall' s hsteps
  refine ⟨s', ?_, h⟩
  unfold returningRun
  rw [hmain']
  exact hsteps'

/-- Device 0 sends to device 1, which wants nothing. -/
theorem mainRun_returningRun_quiet : ∃ s s',
    mainRun (flagsThread intraThreadBuild) (flagsContext 1#32 0#32) (flagsMessage 0#16 0#32)
      [freeMailbox, freeMailbox] = .ok s ∧
    returningRun (flagsThread intraThreadBuild).overMailbox (flagsContext 1#32 0#32)
      (flagsMessage 0#16 0#32) [freeMailbox, freeMailbox] = .ok s' ∧ MainTwin s s' := by
  obtain ⟨s, hrun⟩ : ∃ s, mainRun (flagsThread intraThreadBuild) (flagsContext 1#32 0#32)
      (flagsMessage 0#16 0#32) [freeMailbox, freeMailbox] = .ok s := ⟨_, rfl⟩
  have hharmless : ∀ pre i post t mid, [freeMailbox, freeMailbox] = pre ++ i :: post →
      mainRun (flagsThread intraThreadBuild) (flagsContext 1#32 0#32) (flagsMessage 0#16 0#32) pre =
        .ok t → LoopsBack (flagsThread intraThreadBuild) t i mid →
      Harmless (flagsThread intraThreadBuild) mid := by
    rintro pre i post t mid hsplit hpre ⟨s₁, s₂, hcall, ⟨s₃, hretarget, -, rfl⟩, rfl⟩
    obtain ⟨hpc, hwait, -, hspace, -, -, -, hprep, -⟩ := hcall
    match pre, hsplit with
    | [], _ =>
      cases hpre
      cases hpc
    | [_], hsplit =>
      cases hsplit
      cases hpre
      cases hpc
      cases hwait
      cases hspace
      cases hprep
      cases hretarget
      exact ⟨by decide, fun _ _ _ => by decide⟩
    | _ :: _ :: _, hsplit => simp at hsplit
  obtain ⟨s', hrun', h⟩ := mainRun_returningRun rfl rfl hrun hharmless
  exact ⟨s, s', hrun, hrun', h⟩

/-- Device 0 sends to device 1, which wants to compute.  The thread over the mailbox has nothing
left to send then, goes to its wait and stops at the assertion before the idle detection. -/
theorem returningRun_idleFlags :
    (∃ s, mainRun (flagsThread intraThreadBuild) (flagsContext 1#32 0x80000000#32)
      (flagsMessage 0#16 0#32) [freeMailbox, freeMailbox] = .ok s) ∧
    ∃ stop, returningRun (flagsThread intraThreadBuild).overMailbox
      (flagsContext 1#32 0x80000000#32) (flagsMessage 0#16 0#32) [freeMailbox, freeMailbox] =
        .error stop ∧ stop.fault = .assertion .mainIdleFlags :=
  ⟨⟨_, rfl⟩, _, rfl, rfl⟩

end Softswitch
