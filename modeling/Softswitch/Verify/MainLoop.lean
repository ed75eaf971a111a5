import Softswitch.Verify.ComputeSearch

/-!
# One iteration of the main loop

`Stepped` says what one step of `softswitch_main` can do, for every build and whatever the
mailbox answers.  Between two events of the thread only time passes, output is made and the
host buffer changes (`Undisturbed`).  The pops of the main loop rest on snapshots taken at
the loop top, which is what `HostInv` is about.
-/

namespace Softswitch

open Outcome IntrusiveList Function

variable {A : AppTypes} {n : Nat} {th : PThread A n} {c c' c'' : PThreadContext A n}
  {s s' s'' : Main A n} {i : LoopInput A} {w : WaitLocals} {q : List (Fin n)} {t : BitVec 32}

/-! ## Between the events -/

/-- No handler has run, no message has gone either way, and the RTS list is as before. -/
structure Undisturbed (c c' : PThreadContext A n) : Prop where
  keeps : KeepsRts c c'
  states : c'.states = c.states
  sig : c'.sig = c.sig

namespace Undisturbed

theorem refl (c : PThreadContext A n) : Undisturbed c c := ⟨KeepsRts.refl c, rfl, rfl⟩

theorem trans (h₁ : Undisturbed c c') (h₂ : Undisturbed c' c'') : Undisturbed c c'' :=
  ⟨h₁.keeps.trans h₂.keeps, h₂.states.trans h₁.states, h₂.sig.trans h₁.sig⟩

theorem mapPerf {f : Perf → Perf} (h : Undisturbed c c') : Undisturbed c (c'.mapPerf f) :=
  ⟨⟨h.keeps.links, h.keeps.flags, h.keeps.rtcChecked, h.keeps.rtcOffset, h.keeps.counted⟩,
    h.states, h.sig⟩

theorem tick (h : Undisturbed c c') : Undisturbed c (c'.tick th) := h.mapPerf

theorem addCycles {add : Perf → BitVec 32 → Perf} (h : Undisturbed c c') :
    Undisturbed c (c'.addCycles th t add) := h.mapPerf

end Undisturbed

/-- Messages to the host leave the list and the search as they are. -/
theorem HostStep.undisturbed (h : HostStep c c') : Undisturbed c c' :=
  ⟨h.keepsRts, h.states_eq, h.sig_eq⟩

/-! ## The flush of the performance counters -/

theorem mapPerf_hostBuffer {f : Perf → Perf} : (c.mapPerf f).toHostBuffer = c.toHostBuffer := rfl

theorem tick_hostBuffer : (c.tick th).toHostBuffer = c.toHostBuffer := rfl

theorem storeWords_hostBuffer {msg : HostMsg} {k : Nat} {words : List (BitVec 32)} :
    (storeWords c msg k words).1.toHostBuffer = c.toHostBuffer := by
  induction words generalizing c msg k with
  | nil => rfl
  | cons w words ih =>
    unfold storeWords
    refine ih.trans ?_
    unfold storePayload
    split <;> rfl

theorem pushWords_hostStep {msg : HostMsg} {words : List (BitVec 32)} :
    HostStep c (pushWords c msg words) :=
  HostStep.storeWords.trans (HostStep.push _)

theorem pushWords_pending {msg : HostMsg} {words : List (BitVec 32)} :
    (pushWords c msg words).hostPending = c.hostPending + 1 :=
  congrArg (HostBuffer.hostPending · + 1) storeWords_hostBuffer

theorem softswitchFlushPerfmon_undisturbed : Undisturbed c (softswitchFlushPerfmon th c) := by
  unfold softswitchFlushPerfmon
  exact pushWords_hostStep.undisturbed.mapPerf

theorem softswitchFlushPerfmon_pending :
    (softswitchFlushPerfmon th c).hostPending = c.hostPending + 1 := by
  unfold softswitchFlushPerfmon
  rw [mapPerf_hostBuffer, pushWords_pending]

theorem makeSpace_pending : c.hostPending ≤ (makeSpace c).hostPending + 1 := by
  unfold makeSpace
  split
  · show c.hostPending ≤ c.hostPending - 1 + 1
    omega
  · omega

theorem perfmonFlush_undisturbed : Undisturbed c (perfmonFlush th c) := by
  unfold perfmonFlush
  exact (((Undisturbed.refl c).tick.mapPerf.tick.mapPerf.trans
    HostStep.makeSpace.undisturbed).trans softswitchFlushPerfmon_undisturbed).tick.mapPerf

/-- After a flush there is a message to send, and at most one has left to make space for it. -/
theorem perfmonFlush_pending :
    c.hostPending ≤ (perfmonFlush th c).hostPending ∧ 0 < (perfmonFlush th c).hostPending := by
  have h : ∀ c₁ : PThreadContext A n, c₁.hostPending = c.hostPending →
      c.hostPending ≤ (softswitchFlushPerfmon th (makeSpace c₁)).hostPending ∧
        0 < (softswitchFlushPerfmon th (makeSpace c₁)).hostPending := by
    intro c₁ h₁
    rw [softswitchFlushPerfmon_pending, ← h₁]
    exact ⟨makeSpace_pending, Nat.succ_pos _⟩
  unfold perfmonFlush
  rw [mapPerf_hostBuffer, tick_hostBuffer]
  exact h _ rfl

/-- The iteration flushes the performance counters if there is no idle work. -/
def flushDue (th : PThread A n) (s : Main A n) : Bool :=
  th.build.enableProfile.any fun rate => s.startPerfmon && decide (rate ≤ s.perfmonFlushRateCnt)

/-- What `perfmonIdle` changes. -/
structure PerfmonIdled (th : PThread A n) (s s' : Main A n) : Prop where
  eq : s' = { s with
    ctxt := s'.ctxt
    startPerfmon := s'.startPerfmon
    perfmonFlushRateCnt := s'.perfmonFlushRateCnt }
  undisturbed : Undisturbed s.ctxt s'.ctxt
  pending_le : s.ctxt.hostPending ≤ s'.ctxt.hostPending
  pending_flush : flushDue th s = true → 0 < s'.ctxt.hostPending
  buffer_eq : flushDue th s = false → s'.ctxt.toHostBuffer = s.ctxt.toHostBuffer

theorem PerfmonIdled.pending_eq (h : PerfmonIdled th s s') (hdue : flushDue th s = false) :
    s'.ctxt.hostPending = s.ctxt.hostPending :=
  congrArg HostBuffer.hostPending (h.buffer_eq hdue)

/-- What the counters' part of the loop does. -/
theorem perfmonIdle_spec : PerfmonIdled th s (perfmonIdle th s t) := by
  have hkeep : ∀ {c}, flushDue th s = false → Undisturbed s.ctxt c →
      c.toHostBuffer = s.ctxt.toHostBuffer → ∀ b k, PerfmonIdled th s
        { s with ctxt := c, startPerfmon := b, perfmonFlushRateCnt := k } := by
    intro c hdue hc hbuf b k
    have hpending : c.hostPending = s.ctxt.hostPending := congrArg HostBuffer.hostPending hbuf
    exact ⟨rfl, hc, hpending.ge, fun h => by simp [h] at hdue, fun _ => hbuf⟩
  unfold perfmonIdle
  cases hrate : th.build.enableProfile with
  | none => exact hkeep (by simp [flushDue, hrate]) (Undisturbed.refl _) rfl _ _
  | some rate =>
    dsimp only
    cases hstart : s.startPerfmon with
    | false =>
      exact hkeep (by simp [flushDue, hrate, hstart]) (Undisturbed.refl _) rfl _ _
    | true =>
      rw [if_pos rfl]
      split
      · rename_i hlt
        have hdue : flushDue th s = false := by simp [flushDue, hrate, hstart, hlt]
        exact hkeep hdue (Undisturbed.refl _).addCycles mapPerf_hostBuffer _ _
      · rename_i hle
        have hdue : flushDue th s = true := by
          simpa [flushDue, hrate, hstart] using hle
        have hflush : ∀ c, Undisturbed s.ctxt c → c.toHostBuffer = s.ctxt.toHostBuffer → ∀ k,
            PerfmonIdled th s { s with ctxt := perfmonFlush th c, perfmonFlushRateCnt := k } := by
          intro c hc hbuf k
          obtain ⟨hpending, hpos⟩ := perfmonFlush_pending (c := c)
          rw [hbuf] at hpending
          exact ⟨rfl, hc.trans perfmonFlush_undisturbed, hpending, fun _ => hpos,
            fun h => by simp [hdue] at h⟩
        rw [← hstart]
        exact hflush _ (Undisturbed.refl _).addCycles mapPerf_hostBuffer _

/-! ## The pops of the main loop -/

/-- The indices of the host buffer are right, and the snapshots of a thread that is about to
wait still hold: there is a message to send, or there are two. -/
structure HostInv (s : Main A n) : Prop where
  counted : s.pc ≠ .parked → s.ctxt.Counted
  nonempty : ∀ w, s.pc = .wait w → w.hostBufferEmpty = false → 0 < s.ctxt.hostPending
  inadequate : ∀ w, s.pc = .wait w → w.adequateHostBufferSpace = false → 1 < s.ctxt.hostPending

/-- The snapshots are right when they are taken. -/
theorem waitLocals_pending (h : s.ctxt.Counted) :
    ((waitLocals s).hostBufferEmpty = false → 0 < s.ctxt.hostPending) ∧
    ((waitLocals s).adequateHostBufferSpace = false → 1 < s.ctxt.hostPending) := by
  have hsize := h.size_eq
  constructor
  · intro hne
    have hne : hostMsgBufferSize s.ctxt ≠ 0 := by simpa [waitLocals] using hne
    simp only [hostbufferSize] at hsize
    omega
  · intro hfew
    have hfew : ¬maxHostPerHandler ≤ hostMsgBufferSpace s.ctxt := of_decide_eq_false hfew
    simp only [hostMsgBufferSpace, maxHostPerHandler, hostbufferSize] at hfew hsize
    omega

/-- The loop that makes adequate space leaves a message in the buffer. -/
theorem drainToAdequate_sat {fuel : Nat} (hc : c.Counted) (hmany : 1 < c.hostPending) :
    Sat (drainToAdequate fuel c) (fun c' => HostStep c c' ∧ 0 < c'.hostPending)
      (fun _ => True) := by
  induction fuel generalizing c with
  | zero => trivial
  | succ fuel ih =>
    have hpop : HostStep c (hostMessageSlowPopSend c) := HostStep.slowPop fun _ => by omega
    have hpending : (hostMessageSlowPopSend c).hostPending = c.hostPending - 1 := rfl
    unfold drainToAdequate
    dsimp only
    split
    · refine ⟨hpop, ?_⟩
      rw [hpending]
      omega
    · rename_i hspace
      have hc' := hpop.counted hc
      have hsize := hc'.size_eq
      simp only [hostMsgBufferSpace, maxHostPerHandler, hostbufferSize] at hspace hsize
      exact (ih hc' (by omega)).mono (fun c' h => ⟨hpop.trans h.1, h.2⟩) fun _ _ => trivial

/-- After it, the buffer has space, and still a message if it had one to send. -/
theorem makeAdequate_sat (hc : c.Counted)
    (hnonempty : w.hostBufferEmpty = false → 0 < c.hostPending)
    (hfew : w.adequateHostBufferSpace = false → 1 < c.hostPending) :
    Sat (makeAdequate c w)
      (fun c' => HostStep c c' ∧ (w.hostBufferEmpty = false → 0 < c'.hostPending))
      (fun _ => True) := by
  unfold makeAdequate
  split
  · exact ⟨HostStep.refl c, hnonempty⟩
  · rename_i hspace
    exact (drainToAdequate_sat hc (hfew (by simpa using hspace))).mono
      (fun _ h => ⟨h.1, fun _ => h.2⟩) fun _ _ => trivial

/-! ## Preparing and delivering -/

/-- The state of the main loop after `softswitch_onSend` returned `out`. -/
def Main.prepared (s : Main A n) (out : Nat × PThreadContext A n × SendState A) : Main A n :=
  { s with
    ctxt := { out.2.1 with currentSize := out.1 }
    currSize := out.1
    sendBuffer := out.2.2.message
    currSendTodo := out.2.2.numTargets
    currSendAddressList := out.2.2.pTargets
    isApp := out.2.2.isApp }

/-- What `prepare` does. -/
inductive Prepares (th : PThread A n) (s : Main A n) : Main A n → Prop
  | busy (h : s.currSendTodo ≠ 0) : Prepares th s s
  | fresh {out : Nat × PThreadContext A n × SendState A} (h : s.currSendTodo = 0)
      (hsent : Sent th s.ctxt s.sendBuffer s.isApp out) : Prepares th s (s.prepared out)

/-- The message of the last send handler is sent on, or a new one comes from the next device. -/
theorem prepare_sat : Sat (prepare th s) (Prepares th s) (fun _ => True) := by
  unfold prepare
  split
  · rename_i h
    exact Sat.bind (softswitchOnSend_sat.mono (fun _ h => h) fun _ _ => trivial)
      fun out _ hout => .fresh h hout
  · rename_i h
    exact .busy h

/-- The context after a mailbox send. -/
def mboxSent (c : PThreadContext A n) (dest : BitVec 32) (length : Nat) (message : Message A) :
    PThreadContext A n :=
  (tinselMboxSetLen c length).emit (.mboxSend dest length message)

/-- What `deliver` does: a mailbox send, or, in a build that has it, a receive on the same
thread. -/
inductive Delivers (th : PThread A n) (s : Main A n) : Main A n → Prop
  | app (happ : s.isApp = true) : Delivers th s
      { s with ctxt := mboxSent s.ctxt th.hostId 64 s.sendBuffer, currSendTodo := 0 }
  | target {p : AddressPtr} {addr : Address} (happ : s.isApp = false)
      (hlist : s.currSendAddressList = some p) (hget : p.get? = some addr) : Delivers th s
      { s with
        ctxt := mboxSent s.ctxt addr.thread s.currSize { s.sendBuffer with dest := addr }
        sendBuffer := { s.sendBuffer with dest := addr }
        currSendTodo := s.currSendTodo - 1
        currSendAddressList := some p.succ }
  | direct {s₁ : Main A n} {c : PThreadContext A n}
      (hbuild : th.build.enableIntraThreadSend = true) (hretarget : retarget s = .ok s₁)
      (hrecv : Received th s₁.ctxt s₁.sendBuffer c) :
      Delivers th s (nextTarget { s₁ with ctxt := c })

theorem derefAddress_sat {p : Option AddressPtr} :
    Sat (derefAddress c p) (fun addr => ∃ p', p = some p' ∧ p'.get? = some addr)
      (fun _ => True) := by
  unfold derefAddress
  cases p with
  | none => trivial
  | some p =>
    show Sat (c.deref .outOfBounds p.get?) _ _
    cases hget : p.get? with
    | none => trivial
    | some addr => exact ⟨p, rfl, hget⟩

theorem deliversDirectly_sat {adequate : Bool} :
    Sat (deliversDirectly th s adequate)
      (fun direct => direct = true → th.build.enableIntraThreadSend = true) (fun _ => True) := by
  rw [deliversDirectly_eq]
  split
  · rename_i hbuild
    exact Sat.bind derefAddress_sat fun _ _ _ _ => hbuild
  · exact fun h => by cases h

theorem nextTarget_app (happ : s.isApp = true) : nextTarget s = s := if_pos happ

theorem nextTarget_target (happ : s.isApp = false) : nextTarget s = { s with
    currSendTodo := s.currSendTodo - 1
    currSendAddressList := s.currSendAddressList.map AddressPtr.succ } :=
  if_neg (by simp [happ])

/-- A mailbox send, after the target was written into the buffer. -/
theorem mailboxDeliver_sat (hretarget : retarget s = .ok s') :
    Sat (mailboxDeliver th s') (fun s'' => Delivers th s (nextTarget s'')) (fun _ => True) := by
  rw [retarget_eq] at hretarget
  rw [mailboxDeliver_eq]
  cases happ : s.isApp with
  | true =>
    rw [if_pos happ] at hretarget
    cases hretarget
    rw [if_pos happ]
    refine (congrArg (Delivers th s) (nextTarget_app ?_)).mpr (.app happ)
    exact happ
  | false =>
    rw [if_neg (by simp [happ])] at hretarget
    obtain ⟨addr, hderef, hret⟩ := bind_eq_ok.1 hretarget
    cases hret
    obtain ⟨p, hlist, hget⟩ := derefAddress_sat.of_ok hderef
    rw [if_neg (by simp [happ])]
    refine Sat.bind derefAddress_sat fun addr' _ h => ?_
    obtain ⟨p', hlist', hget'⟩ := h
    have hp : p = p' := Option.some.inj (hlist.symm.trans hlist')
    subst hp
    have haddr : addr = addr' := Option.some.inj (hget.symm.trans hget')
    subst haddr
    refine (congrArg (Delivers th s) (nextTarget_target ?_)).mpr ?_
    · exact happ
    · rw [hlist]
      exact .target happ hlist hget

/-- A delivery ends in one of three ways. -/
theorem deliver_sat {adequate : Bool} :
    Sat (deliver th s adequate) (Delivers th s) (fun _ => True) := by
  have hrest : Sat (do
      let s ← retarget s
      let direct ← deliversDirectly th s adequate
      let s ← if direct then directDeliver th s else mailboxDeliver th s
      return nextTarget s) (Delivers th s) (fun _ => True) := by
    refine Sat.bind (R := fun _ => True) ?_ fun s₁ h₁ _ => ?_
    · rw [retarget_eq]
      split
      · trivial
      · exact Sat.bind derefAddress_sat fun _ _ _ => trivial
    refine Sat.bind deliversDirectly_sat fun direct _ hbuild => ?_
    cases direct with
    | true =>
      refine Sat.bind (R := fun s₂ => ∃ c, s₂ = { s₁ with ctxt := c } ∧
        Received th s₁.ctxt s₁.sendBuffer c) ?_ fun s₂ _ h₂ => ?_
      · exact Sat.bind (softswitchOnReceive_sat.mono (fun _ h => h) fun _ _ => trivial)
          fun c _ hc => ⟨c, rfl, hc⟩
      · obtain ⟨c, rfl, hc⟩ := h₂
        exact .direct (hbuild rfl) h₁ hc
    | false => exact Sat.bind (mailboxDeliver_sat h₁) fun s₂ _ h₂ => h₂
  rw [deliver_eq]
  split
  · exact Sat.bind derefAddress_sat fun _ _ _ => hrest
  · exact hrest

/-- What the send branch does. -/
inductive Sends (th : PThread A n) (s : Main A n) : Main A n → Prop
  | host (hpos : 0 < s.ctxt.hostPending) :
      Sends th s { s with ctxt := hostMessageBufferPopSend th s.ctxt }
  /-- There is no target to deliver to. -/
  | nothing {s₁ : Main A n} (hprep : Prepares th s s₁) (hnone : s₁.currSendTodo = 0) :
      Sends th s s₁
  | deliver {s₁ s₂ : Main A n} (hprep : Prepares th s s₁) (hsome : 0 < s₁.currSendTodo)
      (hdeliver : Delivers th s₁ s₂) : Sends th s s₂

theorem sendBranch_sat {adequate : Bool}
    (hpos : w.hostBufferEmpty = false → 0 < s.ctxt.hostPending) :
    Sat (sendBranch th s w adequate i) (Sends th s) (fun _ => True) := by
  have hcheck : ∀ {c : PThreadContext A n} {a ok},
      Sat (th.check c a ok) (fun _ => True) (fun _ => True) :=
    check_sat.mono (fun _ _ => trivial) fun _ _ => trivial
  refine Sat.bind hcheck fun _ _ _ => Sat.bind hcheck fun _ _ _ => ?_
  split
  · rename_i hne
    exact .host (hpos (by simpa using hne))
  · refine Sat.bind prepare_sat fun s₁ _ hprep => ?_
    split
    · rename_i hsome
      exact deliver_sat.mono (fun s₂ h => .deliver hprep hsome h) fun _ _ => trivial
    · rename_i hnone
      exact .nothing hprep (Nat.eq_zero_of_not_pos hnone)

/-! ## Steps -/

/-- What one step of the main loop does. -/
inductive Stepped (th : PThread A n) (s : Main A n) (i : LoopInput A) : Main A n → Prop
  | parked (hpc : s.pc = .parked) : Stepped th s i s
  /-- There may be more idle work. -/
  | idle {c : PThreadContext A n} (hpc : s.pc = .top) (hrecv : i.canRecv = false)
      (hidle : Idled th (s.ctxt.tick th) (true, c)) :
      Stepped th s i { s with ctxt := c, pc := .top }
  /-- The idle work was done. -/
  | searchOver {s₁ : Main A n} (hpc : s.pc = .top) (hrecv : i.canRecv = false)
      (hsend : (waitLocals s).wantToSend = true → i.canSend = false)
      (hover : n ≤ s.ctxt.rtcChecked)
      (hperf : PerfmonIdled th { s with ctxt := s.ctxt.tick th } s₁) :
      Stepped th s i { s₁ with pc := .wait (waitLocals s) }
  /-- There is something to receive, or something to send and the way is free. -/
  | noIdle (hpc : s.pc = .top)
      (hbusy : i.canRecv = true ∨ (waitLocals s).wantToSend = true ∧ i.canSend = true) :
      Stepped th s i { s with ctxt := s.ctxt.tick th, pc := .wait (waitLocals s) }
  | hardwareIdle {w : WaitLocals} {c c' : PThreadContext A n} (hpc : s.pc = .wait w)
      (hw : w.wantToSend = false) (hwait : Undisturbed s.ctxt c)
      (hidle : softswitchOnHardwareIdle th c = .ok c') :
      Stepped th s i { s with ctxt := c', pc := .top }
  | receive {w : WaitLocals} {c c' : PThreadContext A n} (hpc : s.pc = .wait w)
      (hcan : i.canRecv = true ∨ th.build.enableSendOverRecv = true)
      (hwait : Undisturbed s.ctxt c)
      (hrecv : Received th (c.emit (.mboxRecv i.message)) i.message c') :
      Stepped th s i { s with ctxt := c', pc := .top }
  | send {w : WaitLocals} {c : PThreadContext A n} {s₁ : Main A n} (hpc : s.pc = .wait w)
      (hwait : Undisturbed s.ctxt c) (hsend : Sends th { s with ctxt := c } s₁) :
      Stepped th s i { s₁ with pc := .top }

/-- The top of the loop makes one step of the search, or waits. -/
theorem loopTop_sat (hpc : s.pc = .top) :
    Sat (loopTop th s i) (Stepped th s i) (fun _ => True) := by
  unfold loopTop
  dsimp only
  split
  · rename_i hcond
    rw [Bool.and_eq_true, Bool.not_eq_true', Bool.or_eq_true, Bool.not_eq_true',
      Bool.not_eq_true'] at hcond
    obtain ⟨hrecv, hsend⟩ := hcond
    refine Sat.bind (softswitchOnIdle_sat.mono (fun _ h => h) fun _ _ => trivial)
      fun out _ hout => ?_
    obtain ⟨more, c⟩ := out
    cases more with
    | true => exact .idle hpc hrecv hout
    | false =>
      rcases hout with ⟨hover, h⟩ | ⟨-, -, -, h⟩ | ⟨-, -, _, _, -, h, -⟩
      · cases h
        refine .searchOver hpc hrecv (fun hw => ?_) hover perfmonIdle_spec
        exact hsend.resolve_left (by simp [hw])
      · cases h
      · cases h
  · rename_i hcond
    refine .noIdle hpc ?_
    cases hr : i.canRecv with
    | true => exact .inl rfl
    | false =>
      refine .inr ?_
      simpa [hr] using hcond

/-- The wait lets only time pass. -/
theorem waitPhase_sat : Sat (waitPhase th s w)
    (fun s' => ∃ c, s' = { s with ctxt := c } ∧ Undisturbed s.ctxt c ∧
      c.toHostBuffer = s.ctxt.toHostBuffer) (fun _ => True) := by
  have hret : ∀ t add, Sat (Except.ok { s with ctxt := (s.ctxt.tick th).addCycles th t add } :
      Outcome A n (Main A n)) (fun s' => ∃ c, s' = { s with ctxt := c } ∧ Undisturbed s.ctxt c ∧
      c.toHostBuffer = s.ctxt.toHostBuffer) (fun _ => True) :=
    fun t add => ⟨_, rfl, (Undisturbed.refl _).tick.addCycles, mapPerf_hostBuffer⟩
  unfold waitPhase
  dsimp only
  split
  · exact Sat.bind (R := fun _ => True) (check_sat.mono (fun _ _ => trivial) fun _ _ => trivial)
      fun _ _ _ => hret _ _
  · exact hret _ _

/-- The wait lets time pass, if the assertion before the idle detection holds. -/
theorem waitPhase_ok (hidle : th.build.asserts = true → th.build.enableHardwareIdle = true →
      w.wantToSend = false → ∀ d, (s.ctxt.devices d).rtsFlags = 0) :
    ∃ p, waitPhase th s w = .ok { s with ctxt := { s.ctxt with toPerf := p } } := by
  unfold waitPhase
  dsimp only
  split
  · rename_i hcond
    rw [Bool.and_eq_true, Bool.not_eq_true'] at hcond
    have hcheck : th.check (s.ctxt.tick th) .mainIdleFlags
        (decide (∀ d, ((s.ctxt.tick th).devices d).rtsFlags = 0)) = .ok () := by
      cases hasserts : th.build.asserts with
      | false => exact check_of_noAsserts hasserts
      | true =>
        have hflags : ∀ d, ((s.ctxt.tick th).devices d).rtsFlags = 0 :=
          hidle hasserts hcond.1 hcond.2
        rw [decide_eq_true hflags]
        exact check_true
    rw [hcheck]
    exact ⟨_, rfl⟩
  · exact ⟨_, rfl⟩

/-- The receive branch takes the message and hands it to its device. -/
theorem receiveBranch_sat : Sat (receiveBranch th s i)
    (fun s' => ∃ c, s' = { s with ctxt := c } ∧
      Received th (s.ctxt.emit (.mboxRecv i.message)) i.message c) (fun _ => True) := by
  refine Sat.bind (R := fun _ => True) (check_sat.mono (fun _ _ => trivial) fun _ _ => trivial)
    fun _ _ _ => ?_
  exact Sat.bind (softswitchOnReceive_sat.mono (fun _ h => h) fun _ _ => trivial)
    fun c _ hc => ⟨c, rfl, hc⟩

/-- Whether the thread receives, once it is awake. -/
def doRecv (th : PThread A n) (w : WaitLocals) (adequate : Bool) (i : LoopInput A) : Bool :=
  if th.build.enableSendOverRecv then !(i.canSend && w.wantToSend) else i.canRecv && adequate

/-- What `act` does: it receives or it sends. -/
theorem act_sat {adequate : Bool} (hpos : w.hostBufferEmpty = false → 0 < s.ctxt.hostPending) :
    Sat (act th s w adequate i)
      (fun s' => doRecv th w adequate i = false ∧ Sends th s s' ∨
        doRecv th w adequate i = true ∧ ∃ c, s' = { s with ctxt := c } ∧
          Received th (s.ctxt.emit (.mboxRecv i.message)) i.message c) (fun _ => True) := by
  unfold act doRecv
  cases th.build.enableSendOverRecv with
  | true =>
    rw [if_pos rfl]
    cases hdo : i.canSend && w.wantToSend with
    | true => exact (sendBranch_sat hpos).mono (fun _ h => .inl ⟨rfl, h⟩) fun _ h => h
    | false => exact receiveBranch_sat.mono (fun _ h => .inr ⟨rfl, h⟩) fun _ h => h
  | false =>
    rw [if_neg (by simp)]
    cases hdo : i.canRecv && adequate with
    | true => exact receiveBranch_sat.mono (fun _ h => .inr ⟨rfl, h⟩) fun _ h => h
    | false =>
      refine Sat.bind (R := fun _ => True)
        (check_sat.mono (fun _ _ => trivial) fun _ _ => trivial) fun _ _ _ => ?_
      exact (sendBranch_sat hpos).mono (fun _ h => .inl ⟨rfl, h⟩) fun _ h => h

/-- What a thread does after the wait. -/
inductive Wakened (th : PThread A n) (s : Main A n) (w : WaitLocals) (i : LoopInput A) :
    Main A n → Prop
  | hardwareIdle {c c' : PThreadContext A n} (hw : w.wantToSend = false)
      (hwait : Undisturbed s.ctxt c) (hidle : softswitchOnHardwareIdle th c = .ok c') :
      Wakened th s w i { s with ctxt := c', pc := .top }
  | receive {c c' : PThreadContext A n}
      (hidle : (th.build.enableHardwareIdle && !w.wantToSend && i.doHardwareIdle) = false)
      (hdo : doRecv th w true i = true) (hwait : Undisturbed s.ctxt c)
      (hrecv : Received th (c.emit (.mboxRecv i.message)) i.message c') :
      Wakened th s w i { s with ctxt := c', pc := .top }
  | send {c : PThreadContext A n} {s₁ : Main A n}
      (hidle : (th.build.enableHardwareIdle && !w.wantToSend && i.doHardwareIdle) = false)
      (hdo : doRecv th w true i = false) (hwait : Undisturbed s.ctxt c)
      (hsend : Sends th { s with ctxt := c } s₁) : Wakened th s w i { s₁ with pc := .top }

/-- `tinsel_mboxIdle` returned true. -/
theorem wake_idle_sat
    (hidle : (th.build.enableHardwareIdle && !w.wantToSend && i.doHardwareIdle) = true) :
    Sat (wake th s w i) (fun s' => ∃ c c', Undisturbed s.ctxt c ∧
      softswitchOnHardwareIdle th c = .ok c' ∧ s' = { s with ctxt := c', pc := .top })
      (fun _ => True) := by
  unfold wake
  refine Sat.bind waitPhase_sat fun s₁ _ h₁ => ?_
  obtain ⟨c₁, rfl, hwait, -⟩ := h₁
  rw [if_pos hidle]
  exact Sat.bind_ok fun c' hc' => ⟨c₁, c', hwait, hc', rfl⟩

/-- The wait ended for another reason. -/
theorem wake_busy_sat (hinv : HostInv s) (hpc : s.pc = .wait w)
    (hidle : (th.build.enableHardwareIdle && !w.wantToSend && i.doHardwareIdle) = false) :
    Sat (wake th s w i) (fun s' => ∃ c, Undisturbed s.ctxt c ∧
      (doRecv th w true i = false ∧
          (∃ s₁, Sends th { s with ctxt := c } s₁ ∧ s' = { s₁ with pc := .top }) ∨
        doRecv th w true i = true ∧ ∃ c', s' = { s with ctxt := c', pc := .top } ∧
          Received th (c.emit (.mboxRecv i.message)) i.message c')) (fun _ => True) := by
  unfold wake
  refine Sat.bind waitPhase_sat fun s₁ _ h₁ => ?_
  obtain ⟨c₁, rfl, hwait, hbuf⟩ := h₁
  have hpending : c₁.hostPending = s.ctxt.hostPending := congrArg HostBuffer.hostPending hbuf
  rw [if_neg (Bool.eq_false_iff.1 hidle)]
  have hadequate := makeAdequate_sat (hwait.keeps.counted (hinv.counted (by simp [hpc])))
    (fun h => hpending ▸ hinv.nonempty w hpc h) (fun h => hpending ▸ hinv.inadequate w hpc h)
  refine Sat.bind hadequate fun c₂ _ h₂ => ?_
  have hwait₂ := hwait.trans h₂.1.undisturbed
  refine Sat.bind (act_sat h₂.2) fun s₂ _ h => ⟨c₂, hwait₂, ?_⟩
  rcases h with ⟨hdo, hsend⟩ | ⟨hdo, c', rfl, hrecv⟩
  · exact .inl ⟨hdo, s₂, hsend, rfl⟩
  · exact .inr ⟨hdo, c', rfl, hrecv⟩

theorem wake_sat (hinv : HostInv s) (hpc : s.pc = .wait w) :
    Sat (wake th s w i) (Wakened th s w i) (fun _ => True) := by
  cases hidle : th.build.enableHardwareIdle && !w.wantToSend && i.doHardwareIdle with
  | true =>
    refine (wake_idle_sat hidle).mono (fun s' h => ?_) fun _ h => h
    obtain ⟨c, c', hwait, hc', rfl⟩ := h
    have hw : w.wantToSend = false := by
      cases h : w.wantToSend <;> simp_all
    exact .hardwareIdle hw hwait hc'
  | false =>
    refine (wake_busy_sat hinv hpc hidle).mono (fun s' h => ?_) fun _ h => h
    obtain ⟨c, hwait, ⟨hdo, s₁, hsend, rfl⟩ | ⟨hdo, c', rfl, hrecv⟩⟩ := h
    · exact .send hidle hdo hwait hsend
    · exact .receive hidle hdo hwait hrecv

theorem Wakened.stepped (h : Wakened th s w i s') (hpc : s.pc = .wait w) : Stepped th s i s' := by
  cases h with
  | hardwareIdle hw hwait hidle => exact .hardwareIdle hpc hw hwait hidle
  | receive _ hdo hwait hrecv =>
    have hcan : i.canRecv = true ∨ th.build.enableSendOverRecv = true := by
      unfold doRecv at hdo
      cases hbuild : th.build.enableSendOverRecv <;> simp_all
    exact .receive hpc hcan hwait hrecv
  | send _ _ hwait hsend => exact .send hpc hwait hsend

/-- Every step of the loop is one of those listed. -/
theorem mainStep_sat (hinv : HostInv s) :
    Sat (mainStep th s i) (Stepped th s i) (fun _ => True) := by
  unfold mainStep
  split
  · rename_i hpc
    exact .parked hpc
  · rename_i hpc
    exact loopTop_sat hpc
  · rename_i w hpc
    exact (wake_sat hinv hpc).mono (fun _ h => h.stepped hpc) fun _ h => h

/-! ## Runs -/

theorem Received.counted {m : Message A} (h : Received th c m c') : c.Counted → c'.Counted := by
  rcases h with ⟨_, _, -, -, h⟩ | ⟨_, -, -, -, h, -⟩
  · exact h.counted
  · exact h.counted

theorem Sent.counted {m : Message A} {isApp : Bool} {out : Nat × PThreadContext A n × SendState A}
    (h : Sent th c m isApp out) : c.Counted → out.2.1.Counted := by
  rcases h with ⟨_, _, _, _, h⟩ | ⟨-, -, -, h, -⟩
  · exact h.counted
  · exact h.counted

theorem Idled.counted {out : Bool × PThreadContext A n} (h : Idled th c out) :
    c.Counted → out.2.Counted := by
  rcases h with ⟨-, rfl⟩ | ⟨-, -, -, rfl⟩ | ⟨-, -, _, _, -, -, h⟩
  · exact id
  · exact id
  · exact h.counted

theorem HardwareIdled.counted {d : Fin n} (h : HardwareIdled th c d c') (hc : c.Counted) :
    c'.Counted := by
  rcases h with rfl | ⟨_, -, h⟩
  · exact hc
  · exact h.counted hc

theorem softswitchOnHardwareIdle_counted (hok : softswitchOnHardwareIdle th c = .ok c')
    (hc : c.Counted) : c'.Counted := by
  apply softswitchOnHardwareIdle_keeps (I := fun s => s.Counted) hc _ _ hok
  · exact fun d s s' hs h => h.counted hs
  · exact fun s hs => hs

theorem softswitchInit_counted (hok : softswitchInit th c = .ok c') (hc : c.Counted) :
    c'.Counted := by
  apply softswitchInit_keeps (I := fun s => s.Counted) hc _ hok
  exact fun d s s' hs h => h.counted hs

theorem Prepares.counted (h : Prepares th s s') : s.ctxt.Counted → s'.ctxt.Counted := by
  cases h with
  | busy _ => exact id
  | fresh _ hsent => exact hsent.counted

theorem retarget_ctxt (h : retarget s = .ok s') : s'.ctxt = s.ctxt := by
  rw [retarget_eq] at h
  split at h
  · cases h
    rfl
  · obtain ⟨addr, -, hret⟩ := bind_eq_ok.1 h
    cases hret
    rfl

theorem nextTarget_ctxt : (nextTarget s).ctxt = s.ctxt := by
  unfold nextTarget
  split <;> rfl

theorem Delivers.counted (h : Delivers th s s') : s.ctxt.Counted → s'.ctxt.Counted := by
  cases h with
  | app _ => exact id
  | target _ _ _ => exact id
  | direct _ hretarget hrecv =>
    rw [nextTarget_ctxt, ← retarget_ctxt hretarget]
    exact hrecv.counted

theorem Sends.counted (h : Sends th s s') : s.ctxt.Counted → s'.ctxt.Counted := by
  cases h with
  | host hpos => exact fun hc => hc.pop hpos
  | nothing hprep _ => exact hprep.counted
  | deliver hprep _ hdeliver => exact fun hc => hdeliver.counted (hprep.counted hc)

/-- One step keeps the indices of the host buffer right. -/
theorem Stepped.hostInv (h : Stepped th s i s') (hinv : HostInv s) : HostInv s' := by
  have hrunning : ∀ s₁ : Main A n, s₁.ctxt.Counted → HostInv { s₁ with pc := .top } :=
    fun s₁ hc => ⟨fun _ => hc, fun w h => (by cases h), fun w h => (by cases h)⟩
  have hwaits : ∀ s₁ : Main A n, s.pc = .top → Undisturbed s.ctxt s₁.ctxt →
      s.ctxt.hostPending ≤ s₁.ctxt.hostPending →
      HostInv { s₁ with pc := .wait (waitLocals s) } := by
    intro s₁ hpc hs₁ hle
    have hc : s.ctxt.Counted := hinv.counted (by simp [hpc])
    obtain ⟨hnonempty, hfew⟩ := waitLocals_pending hc
    refine ⟨fun _ => hs₁.keeps.counted hc, ?_, ?_⟩
    · rintro w hw
      cases hw
      exact fun h => (hnonempty h).trans_le hle
    · rintro w hw
      cases hw
      exact fun h => (hfew h).trans_le hle
  have hc : ∀ {w}, s.pc = .wait w → s.ctxt.Counted := fun h => hinv.counted (by simp [h])
  cases h with
  | parked _ => exact hinv
  | idle hpc _ hidle =>
    exact hrunning { s with ctxt := _ } (hidle.counted (hinv.counted (by simp [hpc])))
  | searchOver hpc _ _ _ hperf =>
    exact hwaits _ hpc ((Undisturbed.refl _).tick.trans hperf.undisturbed) hperf.pending_le
  | noIdle hpc _ => exact hwaits { s with ctxt := _ } hpc (Undisturbed.refl _).tick le_rfl
  | hardwareIdle hpc _ hwait hidle =>
    exact hrunning { s with ctxt := _ }
      (softswitchOnHardwareIdle_counted hidle (hwait.keeps.counted (hc hpc)))
  | receive hpc _ hwait hrecv =>
    exact hrunning { s with ctxt := _ } (hrecv.counted (hwait.keeps.counted (hc hpc)))
  | send hpc hwait hsend => exact hrunning _ (hsend.counted (hwait.keeps.counted (hc hpc)))

/-- What `softswitch_main` does up to the loop. -/
inductive Started (th : PThread A n) (c : PThreadContext A n) (sendBuffer : Message A) :
    Main A n → Prop
  | parked (hn : n = 0) : Started th c sendBuffer
      ⟨c, none, 0, 0, false, sendBuffer, false, 1, .parked⟩
  | running {c₁ c₂ : PThreadContext A n} (hn : n ≠ 0)
      (hinit : softswitchInit th { c with hbufHead := 0, hbufTail := 0, hostPending := 0 } = .ok c₁)
      (hstart : Undisturbed c₁ c₂) : Started th c sendBuffer
      ⟨c₂, none, 0, 0, false, sendBuffer, false, 1, .top⟩

theorem softswitchMain_sat {buf : Message A} :
    Sat (softswitchMain th c buf) (Started th c buf) (fun _ => True) := by
  unfold softswitchMain
  split
  · rename_i hn
    exact .parked hn
  · rename_i hn
    refine Sat.bind (R := fun c₁ => softswitchInit th
      { c with hbufHead := 0, hbufTail := 0, hostPending := 0 } = .ok c₁) ?_ fun c₁ _ h₁ => ?_
    · generalize softswitchInit th _ = r
      cases r <;> trivial
    · exact .running hn h₁ (Undisturbed.refl c₁).tick.mapPerf

theorem Started.hostInv {buf : Message A} (h : Started th c buf s) : HostInv s := by
  cases h with
  | parked hn => exact ⟨fun h => (h rfl).elim, fun w h => (by cases h), fun w h => (by cases h)⟩
  | running hn hinit hstart =>
    have hcounted := softswitchInit_counted hinit ⟨Nat.zero_lt_succ 39, rfl⟩
    exact ⟨fun _ => hstart.keeps.counted hcounted, fun w h => (by cases h), fun w h => (by cases h)⟩

/-- What holds at the start of the loop and is kept by every step holds along every run. -/
theorem mainRun_invariant {I : Main A n → Prop} {buf : Message A} {inputs : List (LoopInput A)}
    (hstart : ∀ s, Started th c buf s → I s)
    (hstep : ∀ s i s', HostInv s → I s → Stepped th s i s' → I s')
    (hrun : mainRun th c buf inputs = .ok s) : HostInv s ∧ I s := by
  obtain ⟨s₀, hmain, hrun⟩ := bind_eq_ok.1 hrun
  have hs₀ := softswitchMain_sat.of_ok hmain
  refine runList_invariant (I := fun s => HostInv s ∧ I s) ?_ ⟨hs₀.hostInv, hstart s₀ hs₀⟩ hrun
  rintro s i s' ⟨hinv, hs⟩ hok
  have h := (mainStep_sat hinv).of_ok hok
  exact ⟨h.hostInv hinv, hstep s i s' hinv hs h⟩

end Softswitch
