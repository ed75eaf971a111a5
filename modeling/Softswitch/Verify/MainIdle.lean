import Softswitch.Verify.MainLoop

/-!
# When the main loop blocks

`softswitch_main` decides at the loop top that it does not want to send, and then calls
`tinsel_mboxIdle`.  By then it may have skipped the compute search, since a message was
there to receive, or have pushed a host message, since a flush of the performance counters
was due; and a full host buffer looks empty.  Otherwise nothing is left to do.
-/

namespace Softswitch

open Outcome IntrusiveList Function

variable {A : AppTypes} {n : Nat} {th : PThread A n} {c c' : PThreadContext A n}
  {s s' : Main A n} {i : LoopInput A} {w : WaitLocals} {m : Message A}

/-! ## The invariant of the thread -/

/-- The RTS list is the queue of the devices that want to send, and the compute search has
overlooked no device. -/
structure ThreadInv (c : PThreadContext A n) : Prop where
  queue : ∃ q, IsQueue c q
  search : SearchInv c

theorem ThreadInv.keep (h : ThreadInv c) (hk : KeepsRts c c') : ThreadInv c' := by
  obtain ⟨q, hq⟩ := h.queue
  exact ⟨⟨q, hk.isQueue hq⟩, h.search.keep hk⟩

theorem Received.threadInv (h : Received th c m c') (hc : ThreadInv c) : ThreadInv c' := by
  obtain ⟨q, hq⟩ := hc.queue
  exact ⟨h.isQueue hq, h.searchInv hc.search⟩

theorem Prepares.threadInv (h : Prepares th s s') (hc : ThreadInv s.ctxt) :
    ThreadInv s'.ctxt := by
  cases h with
  | busy _ => exact hc
  | @fresh out _ hsent =>
    obtain ⟨q, hq⟩ := hc.queue
    have hout : ThreadInv out.2.1 := ⟨hsent.isQueue hq, hsent.searchInv hc.search⟩
    exact hout.keep ⟨rfl, rfl, rfl, rfl, id⟩

theorem Delivers.threadInv (h : Delivers th s s') (hc : ThreadInv s.ctxt) :
    ThreadInv s'.ctxt := by
  cases h with
  | app _ => exact hc.keep ⟨rfl, rfl, rfl, rfl, id⟩
  | target _ _ _ => exact hc.keep ⟨rfl, rfl, rfl, rfl, id⟩
  | direct _ hretarget hrecv =>
    rw [nextTarget_ctxt]
    rw [← retarget_ctxt hretarget] at hc
    exact hrecv.threadInv hc

theorem Sends.threadInv (h : Sends th s s') (hc : ThreadInv s.ctxt) : ThreadInv s'.ctxt := by
  cases h with
  | host hpos => exact hc.keep ⟨rfl, rfl, rfl, rfl, fun h => h.pop hpos⟩
  | nothing hprep _ => exact hprep.threadInv hc
  | deliver hprep _ hdeliver => exact hdeliver.threadInv (hprep.threadInv hc)

/-! ## The invariant of the main loop -/

/-- A thread that is about to wait without wanting to send has nothing listed, and has
delivered its last message. -/
structure IdleInv (s : Main A n) : Prop where
  thread : s.pc ≠ .parked → ThreadInv s.ctxt
  blocked : ∀ w, s.pc = .wait w → w.wantToSend = false →
    s.ctxt.rtsHead = none ∧ s.currSendTodo = 0

/-- What it means that the thread does not want to send. -/
theorem waitLocals_wantToSend (h : (waitLocals s).wantToSend = false) :
    s.ctxt.rtsHead = none ∧ s.currSendTodo = 0 ∧ hostMsgBufferSize s.ctxt = 0 := by
  simp only [waitLocals, Bool.or_eq_false_iff, decide_eq_false_iff_not, Nat.not_lt,
    Nat.le_zero, Bool.not_eq_false', beq_iff_eq] at h
  obtain ⟨⟨htodo, hready⟩, hempty⟩ := h
  exact ⟨by simpa [softswitchIsRTSReady] using hready, htodo, hempty⟩

theorem IdleInv.top (h : ThreadInv s.ctxt) : IdleInv { s with pc := .top } :=
  ⟨fun _ => h, fun w hw => (by cases hw)⟩

theorem Started.idleInv {buf : Message A} (hchecked : c.rtcChecked = 0) (hoffset : c.rtcOffset = 0)
    (h : Started th c buf s) : IdleInv s := by
  cases h with
  | parked _ => exact ⟨fun h => (h rfl).elim, fun w h => (by cases h)⟩
  | running _ hinit hstart =>
    refine ⟨fun _ => ThreadInv.keep ⟨softswitchInit_isQueue hinit, ?_⟩ hstart.keeps,
      fun w h => (by cases h)⟩
    refine softswitchInit_searchInv ?_ ?_ hinit
    · exact hchecked
    · exact hoffset

theorem Stepped.idleInv (h : Stepped th s i s') (hs : IdleInv s) : IdleInv s' := by
  have hwait : ∀ s₁ : Main A n, s.pc = .top → Undisturbed s.ctxt s₁.ctxt →
      s₁.currSendTodo = s.currSendTodo → IdleInv { s₁ with pc := .wait (waitLocals s) } := by
    intro s₁ hpc hs₁ htodo
    refine ⟨fun _ => (hs.thread (by simp [hpc])).keep hs₁.keeps, fun w hw hwant => ?_⟩
    cases hw
    obtain ⟨hhead, htodo₀, -⟩ := waitLocals_wantToSend hwant
    exact ⟨(congrArg Links.head hs₁.keeps.links).trans hhead, htodo.trans htodo₀⟩
  have hthread : ∀ {c}, s.pc ≠ .parked → Undisturbed s.ctxt c → ThreadInv c :=
    fun hpc hc => (hs.thread hpc).keep hc.keeps
  cases h with
  | parked _ => exact hs
  | idle hpc _ hidle =>
    have hc : ThreadInv (s.ctxt.tick th) := hthread (by simp [hpc]) (Undisturbed.refl _).tick
    obtain ⟨q, hq⟩ := hc.queue
    exact .top (s := { s with ctxt := _ }) ⟨hidle.isQueue hq, hidle.searchInv hc.search⟩
  | searchOver hpc _ _ _ hperf =>
    have htodo := congrArg Main.currSendTodo hperf.eq
    exact hwait _ hpc ((Undisturbed.refl _).tick.trans hperf.undisturbed) htodo
  | noIdle hpc _ => exact hwait { s with ctxt := _ } hpc (Undisturbed.refl _).tick rfl
  | @hardwareIdle w c c' hpc hw hc hidle =>
    have hthread := hthread (by simp [hpc]) hc
    obtain ⟨q, hq⟩ := hthread.queue
    have hhead : c.rtsHead = none :=
      (congrArg Links.head hc.keeps.links).trans (hs.blocked w hpc hw).1
    exact .top (s := { s with ctxt := _ }) ⟨softswitchOnHardwareIdle_isQueue hq hhead hidle,
      softswitchOnHardwareIdle_searchInv hthread.search hidle⟩
  | receive hpc _ hc hrecv =>
    refine .top (s := { s with ctxt := _ }) (hrecv.threadInv ?_)
    exact (hthread (by simp [hpc]) hc).keep ⟨rfl, rfl, rfl, rfl, id⟩
  | send hpc hc hsend => exact .top (hsend.threadInv (hthread (by simp [hpc]) hc))

/-! ## Outstanding work -/

/-- The thread is about to call `tinsel_mboxIdle`. -/
def AboutToIdle (s : Main A n) : Prop := ∃ w, s.pc = .wait w ∧ w.wantToSend = false

/-- No device wants to send or to compute, the last message has gone to all its targets, and
no host message is pending. -/
structure NoWork (s : Main A n) : Prop where
  flags : ∀ d, s.ctxt.flags d = 0#32
  todo : s.currSendTodo = 0
  pending : s.ctxt.hostPending = 0

/-- The thread goes from the loop top straight to `tinsel_mboxIdle`: it does not want to send,
and there is a message to receive or the compute search is over. -/
structure GoesIdle (s : Main A n) (i : LoopInput A) : Prop where
  top : s.pc = .top
  nothing : (waitLocals s).wantToSend = false
  ready : i.canRecv = true ∨ n ≤ s.ctxt.rtcChecked

/-- Nothing is overlooked on the way: with a message to receive no device wants to compute,
without one no flush of the performance counters is due, and the host buffer is not full. -/
structure OverlooksNothing (th : PThread A n) (s : Main A n) (i : LoopInput A) : Prop where
  compute : i.canRecv = true → ∀ d, wantsCompute (s.ctxt.flags d) = false
  flush : i.canRecv = false → flushDue th s = false
  notFull : s.ctxt.hostPending < hostbufferSize

theorem flags_eq_zero {f : BitVec 32} (hs : wantsSend f = false) (hc : wantsCompute f = false) :
    f = 0#32 := by
  have hs : f &&& 0x7FFFFFFF#32 = 0#32 := by simpa [wantsSend] using hs
  have hc : f &&& 0x80000000#32 = 0#32 := by simpa [wantsCompute] using hc
  calc f = f &&& (0x7FFFFFFF#32 ||| 0x80000000#32) := by
        rw [show (0x7FFFFFFF#32 ||| 0x80000000#32) = BitVec.allOnes 32 from by decide,
          BitVec.and_allOnes]
    _ = 0#32 := by rw [BitVec.and_or_distrib_left, hs, hc, BitVec.or_zero]

/-- With an empty list, only a compute can be wanted. -/
theorem ThreadInv.flags_iff (h : ThreadInv c) (hhead : c.rtsHead = none) :
    (∀ d, c.flags d = 0#32) ↔ ∀ d, wantsCompute (c.flags d) = false := by
  obtain ⟨q, hq⟩ := h.queue
  obtain rfl : q = [] := hq.rep.head_eq_none_iff.1 hhead
  have hsend : ∀ d, wantsSend (c.flags d) = false := by
    intro d
    rw [Bool.eq_false_iff]
    exact fun hw => List.not_mem_nil ((hq.mem_iff d).2 hw)
  constructor
  · intro h d
    rw [h d]
    decide
  · exact fun h d => flags_eq_zero (hsend d) (h d)

/-- A buffer that looks empty is empty, if it is not full. -/
theorem pending_eq_zero_iff (h : c.Counted) (hsize : hostMsgBufferSize c = 0) :
    c.hostPending = 0 ↔ c.hostPending < hostbufferSize := by
  rw [h.size_eq] at hsize
  simp only [hostbufferSize] at *
  omega

theorem GoesIdle.step (th : PThread A n) (h : GoesIdle s i) :
    ∃ s', mainStep th s i = .ok s' ∧ AboutToIdle s' := by
  unfold mainStep
  rw [h.top]
  unfold loopTop
  dsimp only
  cases hr : i.canRecv with
  | true => exact ⟨_, rfl, _, rfl, h.nothing⟩
  | false =>
    have hover : n ≤ (s.ctxt.tick th).rtcChecked := h.ready.resolve_left (by simp [hr])
    rw [h.nothing, softswitchOnIdle_over hover]
    exact ⟨_, rfl, _, rfl, h.nothing⟩

theorem Stepped.goesIdle (h : Stepped th s i s') (hidle : AboutToIdle s') : GoesIdle s i := by
  obtain ⟨w, hw, hwant⟩ := hidle
  cases h with
  | parked hpc => simp [hpc] at hw
  | searchOver hpc _ _ hover _ =>
    cases hw
    exact ⟨hpc, hwant, .inr hover⟩
  | noIdle hpc hbusy =>
    cases hw
    exact ⟨hpc, hwant, .inl (hbusy.resolve_right (by simp [hwant]))⟩
  | _ => cases hw

/-- The step that goes idle leaves no work exactly if it overlooks nothing. -/
theorem Stepped.noWork_iff (h : Stepped th s i s') (hinv : HostInv s) (hs : IdleInv s)
    (hgo : GoesIdle s i) : NoWork s' ↔ OverlooksNothing th s i := by
  have hrunning : s.pc ≠ .parked := by simp [hgo.top]
  have hthread := hs.thread hrunning
  obtain ⟨hhead, htodo, hsize⟩ := waitLocals_wantToSend hgo.nothing
  have hflags := hthread.flags_iff hhead
  have hpending := pending_eq_zero_iff (hinv.counted hrunning) hsize
  cases h with
  | @searchOver s₁ _ hrecv _ hover hperf =>
    have hno := hthread.search.no_compute hover
    have hflags₁ : s₁.ctxt.flags = s.ctxt.flags := hperf.undisturbed.keeps.flags
    have htodo₁ : s₁.currSendTodo = 0 := (congrArg Main.currSendTodo hperf.eq).trans htodo
    constructor
    · intro hwork
      have hflush : flushDue th s = false := by
        rw [Bool.eq_false_iff]
        intro hdue
        have := hperf.pending_flush hdue
        exact this.ne' hwork.pending
      have heq : s₁.ctxt.hostPending = s.ctxt.hostPending := hperf.pending_eq hflush
      exact ⟨fun h => by simp [hrecv] at h, fun _ => hflush,
        hpending.1 (heq.symm.trans hwork.pending)⟩
    · intro hall
      have heq : s₁.ctxt.hostPending = s.ctxt.hostPending := hperf.pending_eq (hall.flush hrecv)
      exact ⟨fun d => (congrFun hflags₁ d).trans (hflags.2 hno d), htodo₁,
        heq.trans (hpending.2 hall.notFull)⟩
  | noIdle _ hbusy =>
    have hrecv : i.canRecv = true := hbusy.resolve_right (by simp [hgo.nothing])
    constructor
    · exact fun hwork => ⟨fun _ => hflags.1 hwork.flags, fun h => by simp [hrecv] at h,
        hpending.1 hwork.pending⟩
    · exact fun hall => ⟨hflags.2 (hall.compute hrecv), htodo, hpending.2 hall.notFull⟩
  | idle _ hrecv hidle =>
    have hover := hgo.ready.resolve_left (by simp [hrecv])
    rcases hidle with ⟨-, h⟩ | ⟨hlt, -⟩ | ⟨hlt, -⟩
    · cases h
    · exact absurd hover (Nat.not_le.2 hlt)
    · exact absurd hover (Nat.not_le.2 hlt)
  | parked hpc => exact absurd hpc hrunning
  | hardwareIdle hpc _ _ _ => simp [hgo.top] at hpc
  | receive hpc _ _ _ => simp [hgo.top] at hpc
  | send hpc _ _ => simp [hgo.top] at hpc

/-! ## Runs -/

theorem mainRun_snoc {buf : Message A} {inputs : List (LoopInput A)} :
    mainRun th c buf (inputs ++ [i]) = mainRun th c buf inputs >>= fun s => mainStep th s i := by
  unfold mainRun
  simp only [runList_snoc]
  cases softswitchMain th c buf <;> rfl

/-- Whenever the thread is about to call `tinsel_mboxIdle` no work is left, exactly if
whenever it goes there it overlooks nothing. -/
theorem mboxIdle_noWork_iff {buf : Message A} {inputs : List (LoopInput A)}
    (hchecked : c.rtcChecked = 0) (hoffset : c.rtcOffset = 0) :
    (∀ pre post s, inputs = pre ++ post → mainRun th c buf pre = .ok s → AboutToIdle s →
      NoWork s) ↔
    ∀ pre i post s, inputs = pre ++ i :: post → mainRun th c buf pre = .ok s → GoesIdle s i →
      OverlooksNothing th s i := by
  have hrun : ∀ {pre s}, mainRun th c buf pre = .ok s → HostInv s ∧ IdleInv s := fun h =>
    mainRun_invariant (fun s hs => hs.idleInv hchecked hoffset)
      (fun s i s' _ hs hstep => hstep.idleInv hs) h
  constructor
  · intro hall pre i post s hsplit hpre hgo
    obtain ⟨hinv, hs⟩ := hrun hpre
    obtain ⟨s', hstep, hidle⟩ := hgo.step th
    have hpre' : mainRun th c buf (pre ++ [i]) = .ok s' := by
      rw [mainRun_snoc, hpre, ok_bind, hstep]
    refine (((mainStep_sat hinv).of_ok hstep).noWork_iff hinv hs hgo).1 ?_
    exact hall (pre ++ [i]) post s' (by simp [hsplit]) hpre' hidle
  · intro hall pre post s hsplit hpre hidle
    induction pre using List.reverseRecOn with
    | nil =>
      obtain ⟨s₀, hmain, hnil⟩ := bind_eq_ok.1 hpre
      cases hnil
      obtain ⟨w, hw, -⟩ := hidle
      cases softswitchMain_sat.of_ok hmain with
      | parked _ => cases hw
      | running _ _ _ => cases hw
    | append_singleton pre i _ =>
      rw [mainRun_snoc, bind_eq_ok] at hpre
      obtain ⟨s₀, hpre, hstep⟩ := hpre
      obtain ⟨hinv, hs⟩ := hrun hpre
      have hstepped := (mainStep_sat hinv).of_ok hstep
      have hgo := hstepped.goesIdle hidle
      refine (hstepped.noWork_iff hinv hs hgo).2 (hall pre i post s₀ ?_ hpre hgo)
      simpa using hsplit

/-- The mailbox has something to receive. -/
def someToReceive : LoopInput flagsApp := ⟨true, true, false, flagsMessage 0#16 0#32⟩

/-- The mailbox has nothing to receive. -/
def noneToReceive : LoopInput flagsApp := ⟨false, true, false, flagsMessage 0#16 0#32⟩

/-- A thread without work that has something to receive. -/
theorem mboxIdle_noWork_iff_receive :
    (∃ s, mainRun (flagsThread (defaultBuild true)) (flagsContext 0#32 0#32)
      (flagsMessage 0#16 0#32) [someToReceive] = .ok s ∧ AboutToIdle s) ∧
    ∀ pre post s, [someToReceive] = pre ++ post →
      mainRun (flagsThread (defaultBuild true)) (flagsContext 0#32 0#32) (flagsMessage 0#16 0#32)
        pre = .ok s → AboutToIdle s → NoWork s := by
  refine ⟨⟨_, rfl, _, rfl, rfl⟩, ?_⟩
  have hchecked : (flagsContext 0#32 0#32).rtcChecked = 0 := rfl
  have hoffset : (flagsContext 0#32 0#32).rtcOffset = 0 := rfl
  apply (mboxIdle_noWork_iff hchecked hoffset).2
  intro pre i post s hsplit hpre _
  obtain rfl : pre = [] := by
    have := congrArg List.length hsplit
    simp only [List.length_append, List.length_cons, List.length_nil] at this
    exact List.length_eq_zero_iff.1 (by omega)
  obtain ⟨rfl, -⟩ := List.cons.inj hsplit
  cases hpre
  exact ⟨fun _ => (by decide), fun h => (by cases h), by decide⟩

/-- A thread that has something to receive goes idle with a device that wants to compute; and
one that flushes its performance counters goes idle with the host message of the flush. -/
theorem mboxIdle_leavesWork :
    (∃ s, mainRun (flagsThread (defaultBuild true)) (flagsContext 0x80000000#32 0#32)
      (flagsMessage 0#16 0#32) [someToReceive] = .ok s ∧ AboutToIdle s ∧ ¬NoWork s) ∧
    (∃ s, mainRun (flagsThread { defaultBuild true with enableProfile := some 1 })
      (flagsContext 0#32 0#32) (flagsMessage 0#16 0#32)
      [noneToReceive, noneToReceive, someToReceive, noneToReceive] = .ok s ∧
        AboutToIdle s ∧ ¬NoWork s) := by
  constructor
  · exact ⟨_, rfl, ⟨_, rfl, rfl⟩, fun h => absurd (h.flags 0) (by decide)⟩
  · exact ⟨_, rfl, ⟨_, rfl, rfl⟩, fun h => absurd h.pending (by decide)⟩

end Softswitch
