import Softswitch.Verify.ConnectedThreads
import Softswitch.Verify.EdgePropsThreads
import Softswitch.Verify.RunLength

/-!
# What comes to rest on the graph comes to rest on the threads

A step of a thread calls a handler of a device, sends something that was waiting to be sent, or
brings the thread nearer to its wait (`mainStep_quiet`).  If `tinsel_mboxIdle` returns for idleness
only where all is idle (`SoundStep`), the threads of a graph thus cannot go on without the graph:
if every run of the graph comes to an end, so does every run of its threads (`comes_to_rest`).
-/

namespace Softswitch

open Outcome Function Runs

variable {A : AppTypes} {n : Nat} {ι D : Type} {size : ι → Nat} {th : PThread A n}
  {c c' c'' : PThreadContext A n} {s s' : Main A n} {i : LoopInput A} {w : WaitLocals}
  {es : List (Event A n)}

/-! ## A step without a handler -/

/-- A handler was called, other than an init handler. -/
def Event.isHandling : Event A n → Bool
  | .sendReturn _ _ _ _ | .receiveCall _ _ _ _ _ _ => true
  | .enter .compute _ _ | .enter .hardwareIdle _ _ => true
  | _ => false

theorem Event.handling_of_isHandling {ths : Threads A size} {place : (Σ i, Fin (size i)) ≃ D}
    {k : ι} {e : Event A (size k)} (h : e.isHandling = true) :
    e.handling ths place k ≠ none := by
  unfold Event.isHandling at h
  split at h <;> simp_all [Event.handling]

/-- A handler is called on the way from `c` to `c'`. -/
def CallsHandler (c c' : PThreadContext A n) : Prop :=
  ∃ es, c'.sig = c.sig ++ es ∧ ∃ e ∈ es, e.isHandling = true

theorem CallsHandler.then (h : CallsHandler c c') (hsig : c''.sig = c'.sig ++ es) :
    CallsHandler c c'' := by
  obtain ⟨es', hsig', e, he, hcall⟩ := h
  exact ⟨es' ++ es, by rw [hsig, hsig', List.append_assoc], e, List.mem_append_left _ he, hcall⟩

theorem CallsHandler.of_sig (h : CallsHandler c' c'') (hsig : c'.sig = c.sig ++ es) :
    CallsHandler c c'' := by
  obtain ⟨es', hsig', e, he, hcall⟩ := h
  exact ⟨es ++ es', by rw [hsig', hsig, List.append_assoc], e, List.mem_append_right _ he, hcall⟩

/-- What the thread has left to send: messages to the host, and its message to further targets. -/
def Main.unsent (s : Main A n) : Nat := s.ctxt.hostPending + s.currSendTodo

/-- How far the thread is from its wait. -/
def Main.untilWait (s : Main A n) : Nat :=
  match s.pc with
  | .top => n - s.ctxt.rtcChecked + 1
  | _ => 0

theorem Main.untilWait_le : s.untilWait ≤ n + 1 := by
  unfold untilWait
  split
  · omega
  · omega

theorem Main.untilWait_top (hpc : s.pc = .top) : s.untilWait = n - s.ctxt.rtcChecked + 1 := by
  unfold untilWait
  rw [hpc]

theorem Main.untilWait_wait (hpc : s.pc = .wait w) : s.untilWait = 0 := by
  unfold untilWait
  rw [hpc]

/-- A step in which no handler is called: the thread is nearer to its wait, or it has sent. -/
inductive HandlerFree (s s' : Main A n) : Prop
  | nearer (hwait : s'.untilWait < s.untilWait) (hunsent : s'.unsent = s.unsent)
      (hsig : s'.ctxt.sig = s.ctxt.sig)
  | sends (hunsent : s'.unsent < s.unsent)

/-- A thread that waits to send has something to send. -/
def WantsInv (s : Main A n) : Prop :=
  ∀ w, s.pc = .wait w → w.wantToSend = true → w.hostBufferEmpty = true →
    s.ctxt.rtsHead ≠ none ∨ 0 < s.currSendTodo

theorem waitLocals_wants (hwant : (waitLocals s).wantToSend = true)
    (hempty : (waitLocals s).hostBufferEmpty = true) :
    s.ctxt.rtsHead ≠ none ∨ 0 < s.currSendTodo := by
  simp only [waitLocals, Bool.or_eq_true, decide_eq_true_eq] at hwant hempty
  rw [hempty] at hwant
  simp only [Bool.not_true, or_false, softswitchIsRTSReady, Bool.false_eq_true] at hwant
  exact hwant.symm.imp_left fun h => by simpa [Option.isSome_iff_ne_none] using h

theorem Stepped.wantsInv (h : Stepped th s i s') (hs : WantsInv s) : WantsInv s' := by
  cases h with
  | parked _ => exact hs
  | @searchOver s₁ _ _ _ _ hperf =>
    intro w hw hwant hempty
    cases hw
    have hhead : s₁.ctxt.rtsHead = s.ctxt.rtsHead :=
      congrArg IntrusiveList.Links.head hperf.undisturbed.keeps.links
    have htodo : s₁.currSendTodo = s.currSendTodo := hperf.sameSend.todo
    rw [hhead, htodo]
    exact waitLocals_wants hwant hempty
  | noIdle _ _ =>
    intro w hw hwant hempty
    cases hw
    exact waitLocals_wants hwant hempty
  | _ => exact fun w hw => by cases hw

theorem Started.wantsInv {buf : Message A} (h : Started th c buf s) : WantsInv s := by
  cases h with
  | parked _ => exact fun w hw => by cases hw
  | running _ _ _ => exact fun w hw => by cases hw

/-! ## Sending -/

theorem drainToAdequate_pending {fuel : Nat} :
    Sat (drainToAdequate fuel c) (fun c' => c'.hostPending ≤ c.hostPending) fun _ => True := by
  induction fuel generalizing c with
  | zero => trivial
  | succ fuel ih =>
    have hpending : (hostMessageSlowPopSend c).hostPending = c.hostPending - 1 := rfl
    unfold drainToAdequate
    dsimp only
    split
    · exact hpending.trans_le (Nat.sub_le _ _)
    · refine ih.mono (fun c' h => ?_) fun _ _ => trivial
      omega

theorem makeAdequate_pending :
    Sat (makeAdequate c w) (fun c' => c'.hostPending ≤ c.hostPending) fun _ => True := by
  unfold makeAdequate
  split
  · exact Nat.le_refl _
  · exact drainToAdequate_pending

theorem Delivers.unsent (hbuild : th.build.enableIntraThreadSend = false)
    (h : Delivers th s s') (hpos : 0 < s.currSendTodo) : s'.unsent < s.unsent := by
  cases h with
  | app _ => exact Nat.add_lt_add_left hpos _
  | target _ _ _ => exact Nat.add_lt_add_left (Nat.sub_lt hpos Nat.one_pos) _
  | direct hdirect _ _ =>
    rw [hbuild] at hdirect
    cases hdirect

theorem Delivers.sig (hbuild : th.build.enableIntraThreadSend = false) (h : Delivers th s s') :
    ∃ es, s'.ctxt.sig = s.ctxt.sig ++ es := by
  cases h with
  | app _ => exact ⟨_, mboxSent_sig⟩
  | target _ _ _ => exact ⟨_, mboxSent_sig⟩
  | direct hdirect _ _ =>
    rw [hbuild] at hdirect
    cases hdirect

/-- A new message comes from a send handler. -/
theorem Prepares.callsHandler (h : Prepares th s s') (htodo : s.currSendTodo = 0)
    (hhead : s.ctxt.rtsHead ≠ none) : CallsHandler s.ctxt s'.ctxt := by
  cases h with
  | busy h => exact absurd htodo h
  | fresh _ hsent =>
    rcases hsent with ⟨d, pinIndex, pin, r, hsent⟩ | ⟨hnone, -⟩
    · exact ⟨_, hsent.sig, .sendReturn d pinIndex r.doSend r.payload, by simp [sendEvents], rfl⟩
    · exact absurd hnone hhead

theorem sendBranch_quiet {adequate : Bool} (hbuild : th.build.enableIntraThreadSend = false)
    (hpos : w.hostBufferEmpty = false → 0 < s.ctxt.hostPending)
    (hwants : w.hostBufferEmpty = true → s.ctxt.rtsHead ≠ none ∨ 0 < s.currSendTodo) :
    Sat (sendBranch th s w adequate i)
      (fun s' => CallsHandler s.ctxt s'.ctxt ∨ s'.unsent < s.unsent) fun _ => True := by
  have hcheck : ∀ {c : PThreadContext A n} {a ok},
      Sat (th.check c a ok) (fun _ => True) (fun _ => True) :=
    check_sat.mono (fun _ _ => trivial) fun _ _ => trivial
  refine Sat.bind hcheck fun _ _ _ => Sat.bind hcheck fun _ _ _ => ?_
  split
  · rename_i hfull
    refine .inr ?_
    have hpending := hpos (by simpa using hfull)
    exact Nat.add_lt_add_right (Nat.sub_lt hpending Nat.one_pos) _
  · rename_i hempty
    have hwants := hwants (by simpa using hempty)
    refine Sat.bind prepare_sat fun s₁ _ hprep => ?_
    split
    · rename_i hsome
      refine deliver_sat.mono (fun s₂ hdeliver => ?_) fun _ _ => trivial
      by_cases htodo : s.currSendTodo = 0
      · obtain ⟨es, hsig⟩ := hdeliver.sig hbuild
        have hcall := hprep.callsHandler htodo (hwants.resolve_right (by omega))
        exact .inl (hcall.then hsig)
      · cases hprep with
        | busy _ => exact .inr (hdeliver.unsent hbuild hsome)
        | fresh h _ => exact absurd h htodo
    · rename_i hnone
      have htodo : s.currSendTodo = 0 := by
        by_contra htodo
        cases hprep with
        | busy _ => omega
        | fresh h _ => exact htodo h
      exact .inl (hprep.callsHandler htodo (hwants.resolve_right (by omega)))

theorem Fills.length_le {o slot : Option (Parcel A)} {sent : List (Parcel A)}
    (h : Fills o sent slot) : slot.toList.length ≤ o.toList.length + sent.length ∧
      slot.toList.length ≤ o.toList.length + 1 := by
  cases h with
  | nothing => exact ⟨Nat.le_refl _, Nat.le_succ _⟩
  | one => exact ⟨Nat.le_refl _, Nat.le_refl _⟩

/-! ## Waking up -/

theorem receiveBranch_calls (hm : Deliverable th i.message) :
    Sat (receiveBranch th s i) (fun s' => CallsHandler s.ctxt s'.ctxt) fun _ => True := by
  refine receiveBranch_sat.mono (fun s' h => ?_) fun _ _ => trivial
  obtain ⟨c, rfl, hrecv⟩ := h
  have hemit : (s.ctxt.emit (.mboxRecv i.message)).sig = s.ctxt.sig ++ [.mboxRecv i.message] :=
    sig_emit rfl
  rcases hrecv with ⟨d, target, -, -, hhandled⟩ | ⟨d, hd, hext, -⟩
  · exact CallsHandler.of_sig ⟨_, hhandled.sig, _, List.mem_cons_of_mem _ List.mem_cons_self, rfl⟩
      hemit
  · obtain ⟨e, pin, ⟨he, hinner⟩, -⟩ := hm
    obtain rfl : d = e := Fin.ext (hd.trans he.symm)
    exact absurd hinner hext

theorem act_quiet {adequate : Bool} (hbuild : th.build.enableIntraThreadSend = false)
    (hpos : w.hostBufferEmpty = false → 0 < s.ctxt.hostPending)
    (hwants : doRecv th w adequate i = false → w.hostBufferEmpty = true →
      s.ctxt.rtsHead ≠ none ∨ 0 < s.currSendTodo)
    (hm : doRecv th w adequate i = true → Deliverable th i.message) :
    Sat (act th s w adequate i)
      (fun s' => CallsHandler s.ctxt s'.ctxt ∨ s'.unsent < s.unsent) fun _ => True := by
  unfold act
  unfold doRecv at hwants hm
  split
  · rename_i hover
    rw [if_pos hover] at hwants hm
    split
    · rename_i hsend
      exact sendBranch_quiet hbuild hpos (hwants (by rw [hsend, Bool.not_true]))
    · rename_i hsend
      have hm := hm (by rw [Bool.eq_false_iff.2 hsend, Bool.not_false])
      exact (receiveBranch_calls hm).mono (fun _ h => .inl h) fun _ h => h
  · rename_i hover
    rw [if_neg hover] at hwants hm
    split
    · rename_i hrecv
      exact (receiveBranch_calls (hm hrecv)).mono (fun _ h => .inl h) fun _ h => h
    · rename_i hrecv
      refine Sat.bind (R := fun _ => True)
        (check_sat.mono (fun _ _ => trivial) fun _ _ => trivial) fun _ _ _ => ?_
      exact sendBranch_quiet hbuild hpos (hwants (Bool.eq_false_iff.2 hrecv))

/-- A thread that is awake and does not receive wants to send. -/
theorem doRecv_wantToSend {released : Prop} (hpc : s.pc = .wait w) (hwakes : s.Wakes th released i)
    (hidle : (th.build.enableHardwareIdle && !w.wantToSend && i.doHardwareIdle) = false)
    (hdo : doRecv th w true i = false) : w.wantToSend = true := by
  unfold Main.Wakes at hwakes
  unfold doRecv at hdo
  rw [hpc] at hwakes
  split at hwakes <;> split at hdo <;> grind

theorem wake_quiet {released : Prop} (hbuild : th.build.enableIntraThreadSend = false)
    (hmain : MainInv th s) (hwants : WantsInv s) (hpc : s.pc = .wait w)
    (hwakes : s.Wakes th released i) (hidle : i.doHardwareIdle = false)
    (hm : i.canRecv = true → Deliverable th i.message) :
    Sat (wake th s w i) (fun s' => CallsHandler s.ctxt s'.ctxt ∨ s'.unsent < s.unsent)
      fun _ => True := by
  have hnot : (th.build.enableHardwareIdle && !w.wantToSend && i.doHardwareIdle) = false := by
    rw [hidle, Bool.and_false]
  unfold wake
  refine Sat.bind waitPhase_sat fun s₁ _ h₁ => ?_
  obtain ⟨c₁, rfl, hwait, hbuf⟩ := h₁
  have hpending : c₁.hostPending = s.ctxt.hostPending := congrArg HostBuffer.hostPending hbuf
  rw [hnot, if_neg Bool.false_ne_true]
  have hadequate := makeAdequate_sat
    (hwait.keeps.counted (hmain.host.counted (by simp [hpc])))
    (fun h => hpending ▸ hmain.host.nonempty w hpc h)
    (fun h => hpending ▸ hmain.host.inadequate w hpc h)
  have hboth := (hadequate.and makeAdequate_pending).mono (fun _ h => h) fun _ _ => trivial
  refine Sat.bind hboth fun c₂ _ h₂ => ?_
  obtain ⟨⟨hhost, hpos⟩, hle⟩ := h₂
  have hspent : Undisturbed s.ctxt c₂ := hwait.trans hhost.undisturbed
  have hhead : c₂.rtsHead = s.ctxt.rtsHead :=
    congrArg IntrusiveList.Links.head hspent.keeps.links
  have hact : Sat (act th { s with ctxt := c₂ } w true i)
      (fun s' => CallsHandler c₂ s'.ctxt ∨ s'.unsent < c₂.hostPending + s.currSendTodo)
      fun _ => True := by
    refine act_quiet hbuild hpos (fun hdo hempty => ?_) fun hdo => ?_
    · dsimp only
      rw [hhead]
      exact hwants w hpc (doRecv_wantToSend hpc hwakes hnot hdo) hempty
    · exact hm (doRecv_canRecv hpc hwakes hnot hdo)
  refine Sat.bind hact fun s₂ _ h => ?_
  rcases h with hcall | hless
  · exact .inl (hcall.of_sig (hspent.sig.trans (List.append_nil _).symm))
  · refine .inr (Nat.lt_of_lt_of_le hless ?_)
    exact Nat.add_le_add_right (hle.trans hpending.le) _

theorem Stepped.top_quiet (hprofile : th.build.enableProfile = none) (h : Stepped th s i s')
    (hpc : s.pc = .top) : CallsHandler s.ctxt s'.ctxt ∨ HandlerFree s s' := by
  cases h with
  | idle _ _ hidle =>
    rcases hidle with ⟨-, h⟩ | ⟨hlt, -, -, h⟩ | ⟨-, -, k, d, -, -, h⟩
    · cases h
    · cases h
      refine .inr (.nearer ?_ rfl rfl)
      rw [Main.untilWait_top hpc, Main.untilWait_top rfl]
      have hlt : s.ctxt.rtcChecked < n := hlt
      show n - (s.ctxt.rtcChecked + idleSweepChunkSize) + 1 < _
      simp only [idleSweepChunkSize]
      omega
    · exact .inl ⟨_, h.sig, _, List.mem_cons_self, rfl⟩
  | @searchOver s₁ _ _ _ _ hperf =>
    refine .inr (.nearer ?_ ?_ hperf.undisturbed.sig)
    · rw [Main.untilWait_top hpc, Main.untilWait_wait rfl]
      exact Nat.succ_pos _
    · have hpending : s₁.ctxt.hostPending = s.ctxt.hostPending :=
        hperf.pending_eq (by simp [flushDue, hprofile])
      have htodo : s₁.currSendTodo = s.currSendTodo := hperf.sameSend.todo
      show s₁.ctxt.hostPending + s₁.currSendTodo = _
      rw [hpending, htodo]
      rfl
  | noIdle _ _ =>
    refine .inr (.nearer ?_ rfl rfl)
    rw [Main.untilWait_top hpc, Main.untilWait_wait rfl]
    exact Nat.succ_pos _
  | parked h => exact absurd (hpc.symm.trans h) (by simp)
  | hardwareIdle h _ _ _ => exact absurd (hpc.symm.trans h) (by simp)
  | receive h _ _ _ => exact absurd (hpc.symm.trans h) (by simp)
  | send h _ _ => exact absurd (hpc.symm.trans h) (by simp)

/-- A step of a thread that runs calls a handler, or brings it nearer to its wait, or sends. -/
theorem mainStep_quiet {released : Prop} (hbuild : th.build.enableIntraThreadSend = false)
    (hprofile : th.build.enableProfile = none) (hmain : MainInv th s) (hwants : WantsInv s)
    (hrunning : s.pc ≠ .parked) (hwakes : s.Wakes th released i)
    (hidle : i.doHardwareIdle = false) (hm : i.canRecv = true → Deliverable th i.message)
    (hstep : mainStep th s i = .ok s') : CallsHandler s.ctxt s'.ctxt ∨ HandlerFree s s' := by
  cases hpc : s.pc with
  | parked => exact absurd hpc hrunning
  | top => exact ((mainStep_sat hmain.host).of_ok hstep).top_quiet hprofile hpc
  | wait w =>
    unfold mainStep at hstep
    rw [hpc] at hstep
    exact ((wake_quiet hbuild hmain hwants hpc hwakes hidle hm).of_ok hstep).imp_right .sends

/-! ## Sound runs -/

section Interconnect

variable {ths : Threads A size} {slots : ι → Nat} {cs : (i : ι) → PThreadContext A (size i)}
  {buf : ι → Message A} {g g' : Interconnect A size} {N N' : Network A size} {k : ι}
  {place : (Σ i, Fin (size i)) ≃ D} {G : Graph A D} [DecidableEq ι]

namespace Interconnect

/-- A thread that waits to send has something to send, in every reachable state. -/
theorem Reachable.wantsInv (hstart : ∀ i, (cs i).rtcChecked = 0 ∧ (cs i).rtcOffset = 0)
    (h : Reachable ths slots cs buf g) (i : ι) : WantsInv (g.main i) := by
  induction h generalizing i with
  | start h => exact (softswitchMain_sat.of_ok (h i)).wantsInv
  | @thread g g' k hreach hstep ih =>
    cases hstep with
    | step hanswers hwakes hstep htaken hgiven hrecv hsend =>
      have hstepped := (mainStep_sat ((hreach.inv hstart).main k).host).of_ok hstep
      exact (forall_update_iff _ fun _ s => WantsInv s).2
        ⟨hstepped.wantsInv (ih k), fun i _ => ih i⟩ i
  | network _ hstep ih =>
    rw [hstep.main_eq]
    exact ih i

/-- A step of a running thread or of the network; `tinsel_mboxIdle` returns for idleness only
where all is idle. -/
inductive SoundStep (ths : Threads A size) (slots : ι → Nat) (g : Interconnect A size) :
    Interconnect A size → Prop
  | thread {i : ι} {g' : Interconnect A size} {input : LoopInput A}
      (hrunning : (g.main i).pc ≠ .parked) (hanswers : g.Answers i input)
      (hwakes : (g.main i).Wakes (ths i) (g.AllIdle ths) input)
      (hidle : input.doHardwareIdle = true → g.AllIdle ths)
      (hmain : mainStep (ths i) (g.main i) input = .ok (g'.main i))
      (hstep : g.ThreadStep ths i g') : SoundStep ths slots g g'
  | network {g' : Interconnect A size} (h : g.NetworkStep ths slots g') : SoundStep ths slots g g'

theorem SoundStep.reachable (h : g.SoundStep ths slots g')
    (hreach : Reachable ths slots cs buf g) : Reachable ths slots cs buf g' := by
  cases h with
  | thread hrunning hanswers hwakes hidle hmain hstep => exact hreach.thread hstep
  | network h => exact hreach.network h

theorem reachable_of_soundSteps {run : Nat → Interconnect A size}
    (hstart : Reachable ths slots cs buf (run 0))
    (hrun : ∀ k, (run k).SoundStep ths slots (run (k + 1))) (k : Nat) :
    Reachable ths slots cs buf (run k) := by
  induction k with
  | zero => exact hstart
  | succ k ih => exact (hrun k).reachable ih

omit [DecidableEq ι] in
/-- A thread that is not held up also wakes without the hardware being idle. -/
theorem exists_waking (h : ¬g.Blocked ths k) (hidle : ¬g.AllIdle ths) :
    ∃ input, g.Answers k input ∧ (g.main k).Wakes (ths k) (g.AllIdle ths) input ∧
      input.doHardwareIdle = false := by
  simp only [Blocked, not_forall, not_not, exists_prop] at h
  obtain ⟨input, hanswers, hwakes⟩ := h
  refine ⟨{ input with doHardwareIdle := false }, ⟨hanswers.canRecv, hanswers.canSend,
    hanswers.message⟩, ?_, rfl⟩
  unfold Main.Wakes at hwakes ⊢
  split <;> grind

/-- As long as something is left to do, the threads and the network can go on. -/
theorem Reachable.exists_soundStep (hw : Wired ths slots) (h : Installed ths cs)
    (hreach : Reachable ths slots cs buf g) (hactive : g.Active) :
    ∃ g', g.SoundStep ths slots g' := by
  have hinv := hreach.inv h.start
  have hbusy : ¬g.AllIdle ths := fun hidle => hidle.not_active hinv hactive
  by_contra hnone
  rw [not_exists] at hnone
  refine not_active_of_stuck hw hinv (fun g' h => hnone g' (.network h)) (fun i hrunning => ?_)
    hactive
  by_contra hblocked
  obtain ⟨input, hanswers, hwakes, hidle⟩ := exists_waking hblocked hbusy
  have hsafe := hreach.safe h.placed.toLinked h.tables h.start hanswers hwakes
    (hreach.not_sendsApp h i)
  obtain ⟨g', hmain, hstep⟩ := exists_threadStep hw hinv hanswers hwakes hsafe
  refine hnone g' (.thread hrunning hanswers hwakes (fun h => ?_) hmain hstep)
  rw [hidle] at h
  cases h

/-! ## What the threads can do without a handler -/

section Fintype

variable [Fintype ι]

/-- What the threads and the network can do without a handler; `W` is more than what a thread does
up to its wait. -/
def work (W : Nat) (g : Interconnect A size) : Nat :=
  (∑ i, ((g.main i).untilWait + W * (3 * (g.main i).unsent))) +
    W * (∑ i, (g.recvSlots i).card) + W * (2 * ∑ i, (g.sendSlot i).toList.length)

theorem work_lt_of_handlerFree {W : Nat} {s : Main A (size k)} {received : List (Message A)}
    {sent : List (Parcel A)} {rest : Multiset (Message A)} {slot : Option (Parcel A)}
    (h : HandlerFree (g.main k) s) (hW : size k + 2 ≤ W)
    (hgiven : given s.ctxt.trace = given (g.main k).ctxt.trace ++ sent)
    (hrecv : g.recvSlots k = received + rest) (hsend : Fills (g.sendSlot k) sent slot) :
    work W ⟨update g.main k s, update g.recvSlots k rest, update g.sendSlot k slot⟩ <
      work W g := by
  have hmain := Tally.sum_change
    (fun i => (g.main i).untilWait + W * (3 * (g.main i).unsent))
    (fun i => (update g.main k s i).untilWait + W * (3 * (update g.main k s i).unsent)) k
    fun j hj => by rw [update_of_ne hj]
  have hrecvSum := Tally.sum_change (fun i => (g.recvSlots i).card)
    (fun i => (update g.recvSlots k rest i).card) k fun j hj => by rw [update_of_ne hj]
  have hsendSum := Tally.sum_change (fun i => (g.sendSlot i).toList.length)
    (fun i => (update g.sendSlot k slot i).toList.length) k fun j hj => by rw [update_of_ne hj]
  rw [update_self] at hmain hrecvSum hsendSum
  have hcard : rest.card ≤ (g.recvSlots k).card := by
    rw [hrecv, Multiset.card_add]
    exact Nat.le_add_left _ _
  have hrecvLe : ∑ i, (update g.recvSlots k rest i).card ≤ ∑ i, (g.recvSlots i).card := by omega
  have hrecvW := Nat.mul_le_mul_left W hrecvLe
  unfold work
  dsimp only
  cases h with
  | nearer hwait hunsent hsig =>
    have hnone : sent = [] := by
      rw [← given_sig, ← given_sig, hsig] at hgiven
      exact List.self_eq_append_right.1 hgiven
    have hslot := hsend.length_le.1
    rw [hnone, List.length_nil, add_zero] at hslot
    have hsendLe : 2 * ∑ i, (update g.sendSlot k slot i).toList.length ≤
        2 * ∑ i, (g.sendSlot i).toList.length := by omega
    have hsendW := Nat.mul_le_mul_left W hsendLe
    rw [hunsent] at hmain
    omega
  | sends hunsent =>
    have hslot := hsend.length_le.2
    have hsendLe : 2 * ∑ i, (update g.sendSlot k slot i).toList.length ≤
        2 * (∑ i, (g.sendSlot i).toList.length) + 2 := by omega
    have hsendW := Nat.mul_le_mul_left W hsendLe
    have hunsentW := Nat.mul_le_mul_left W
      (show 3 * s.unsent + 3 ≤ 3 * (g.main k).unsent by omega)
    have hwait := s.untilWait_le
    rw [Nat.mul_add] at hsendW hunsentW
    omega

/-- A message that leaves a send slot counts less in a receive slot, and not at all with the
host. -/
theorem NetworkStep.work_lt {W : Nat} (h : g.NetworkStep ths slots g')
    (hW : ∀ i, size i + 2 ≤ W) : work W g' < work W g := by
  have hsendSum : ∀ {i x}, g.sendSlot i = some x →
      ∑ j, (update g.sendSlot i none j).toList.length + 1 =
        ∑ j, (g.sendSlot j).toList.length := by
    intro i x hslot
    have hchange := Tally.sum_change (fun j => (g.sendSlot j).toList.length)
      (fun j => (update g.sendSlot i none j).toList.length) i fun j hj => by rw [update_of_ne hj]
    rw [update_self, hslot] at hchange
    exact hchange
  unfold work
  cases h with
  | @host i x hslot hdest =>
    have hsum := hsendSum hslot
    have hWi := hW i
    dsimp only
    rw [← hsum, Nat.mul_add, Nat.mul_add W]
    omega
  | @thread i j m hslot hfree =>
    have hsum := hsendSum hslot
    have hrecvSum := Tally.sum_change (fun l => (g.recvSlots l).card)
      (fun l => (update g.recvSlots j (m ::ₘ g.recvSlots j) l).card) j fun l hl => by
        rw [update_of_ne hl]
    rw [update_self, Multiset.card_cons] at hrecvSum
    have hrecv : ∑ l, (update g.recvSlots j (m ::ₘ g.recvSlots j) l).card =
        ∑ l, (g.recvSlots l).card + 1 := by omega
    have hWi := hW i
    dsimp only
    rw [hrecv, ← hsum, Nat.mul_add W, Nat.mul_add, Nat.mul_add W]
    omega

/-! ## Histories -/

section Graph

variable [DecidableEq D] {es : List (GraphEvent A D)}

/-- A run of the graph leads to what the threads show, by the calls of handlers that they made. -/
def IsHistory (ths : Threads A size) (place : (Σ i, Fin (size i)) ≃ D)
    (cs : (i : ι) → PThreadContext A (size i)) (G : Graph A D) (g : Interconnect A size)
    (es : List (GraphEvent A D)) : Prop :=
  G.HasRun (gather place fun i => (cs i).states) es (g.view ths place) ∧
    SameCalls ths place g.main es

/-- A step of the threads is one of the graph, or the threads are left with less to do. -/
theorem SoundStep.history {W : Nat} (hth : ∀ i, Complete (ths i))
    (h : Deployed ths place cs G) (hprofile : ∀ i, (ths i).build.enableProfile = none)
    (hW : ∀ i, size i + 2 ≤ W) (hreach : Reachable ths slots cs buf g) (hactive : g.Active)
    (hhistory : IsHistory ths place cs G g es) (hstep : g.SoundStep ths slots g') :
    ∃ es', IsHistory ths place cs G g' (es ++ es') ∧ (es' ≠ [] ∨ work W g' < work W g) := by
  classical
  have hplaced := h.realises.placed
  obtain ⟨hrun, hcalls⟩ := hhistory
  obtain ⟨N, hN, hshows⟩ := hreach.shown
  cases hstep with
  | network hstep =>
    have hshows' := hstep.shows hshows
    have hview : _ = g.view ths place :=
      (hshows'.view_eq hplaced).symm.trans (hshows.view_eq hplaced)
    have hmain := hshows'.main.symm.trans hshows.main
    refine ⟨[], ?_, .inr (hstep.work_lt hW)⟩
    rw [List.append_nil]
    unfold IsHistory
    rw [hview, hmain]
    exact ⟨hrun, hcalls⟩
  | @thread i _ input hrunning hanswers hwakes hidle hmain hthread =>
    have hinst := h.installed hth
    have hinv := hreach.inv hinst.start
    have hbusy : input.doHardwareIdle = false := by
      rw [Bool.eq_false_iff]
      exact fun hidle' => (hidle hidle').not_active hinv hactive
    obtain ⟨N', hstep', hshows'⟩ := hthread.network hshows
    have hnet := hN.networkInv hplaced h.trace
    have hidles : ∀ i, IdleInv (N.main i) := by
      rw [hshows.main]
      exact fun i => (hinv.main i).idle
    obtain ⟨⟨k, es', hsig, hother, ges, hrun', hcalls'⟩, -⟩ :=
      hstep'.refines h.realises hnet.host hnet.fanOut hnet.fromPin hidles
    rw [hshows.view_eq hplaced, hshows'.view_eq hplaced] at hrun'
    rw [hshows.main, hshows'.main] at hsig hother
    refine ⟨ges, ⟨hrun.append hrun', hcalls.step hsig hother hcalls'⟩, ?_⟩
    by_cases hnone : ges = []
    · have hquiet := mainStep_quiet (hplaced.build i) (hprofile i) (hinv.main i)
        (hreach.wantsInv hinst.start i) hrunning hwakes hbusy
        (fun hcan => hinv.deliverable hplaced.toLinked (hanswers.message hcan)) hmain
      rcases hquiet with ⟨es₁, hsig₁, e, he, hcall⟩ | hfree
      · -- the handler that was called is one of the graph, which made no step
        exfalso
        by_cases hi : i = k
        · subst hi
          rw [hsig₁] at hsig
          obtain rfl := List.append_cancel_left hsig
          rw [hnone] at hcalls'
          exact Event.handling_of_isHandling hcall (List.filterMap_eq_nil_iff.1 hcalls'.symm e he)
        · rw [hother i hi] at hsig₁
          rw [List.self_eq_append_right.1 hsig₁] at he
          cases he
      · cases hthread with
        | step _ _ _ htaken hgiven hrecv hsend =>
          dsimp only at hfree
          rw [update_self] at hfree
          exact .inr (work_lt_of_handlerFree hfree (hW i) hgiven hrecv hsend)
    · exact .inl hnone

/-- The threads only go on for ever with the graph: as long as something is left to do, they come
to any number of its steps. -/
theorem exists_history_ge (hth : ∀ i, Complete (ths i)) (h : Deployed ths place cs G)
    (hprofile : ∀ i, (ths i).build.enableProfile = none)
    {run : Nat → Interconnect A size} (hstart : Reachable ths slots cs buf (run 0))
    (hrun : ∀ k, (run k).SoundStep ths slots (run (k + 1))) (hactive : ∀ k, (run k).Active)
    (m : Nat) : ∃ k es, IsHistory ths place cs G (run k) es ∧ m ≤ es.length := by
  have hW : ∀ i, size i + 2 ≤ ∑ i, size i + 2 := fun i =>
    Nat.add_le_add_right (Finset.single_le_sum (fun i _ => Nat.zero_le _) (Finset.mem_univ i)) 2
  refine Runs.exists_length_ge (μ := work (∑ i, size i + 2)) (hstart.hasRun h)
    (fun k es hes => ?_) m
  exact (hrun k).history hth h hprofile hW (reachable_of_soundSteps hstart hrun k) (hactive k)
    hes

/-- If the runs of the graph are bounded, the threads do not go on for ever. -/
theorem exists_not_active {bound : Nat} (hth : ∀ i, Complete (ths i))
    (h : Deployed ths place cs G) (hprofile : ∀ i, (ths i).build.enableProfile = none)
    (hbound : ∀ es v, G.HasRun (gather place fun i => (cs i).states) es v → es.length ≤ bound)
    {run : Nat → Interconnect A size} (hstart : Reachable ths slots cs buf (run 0))
    (hrun : ∀ k, (run k).SoundStep ths slots (run (k + 1))) : ∃ k, ¬(run k).Active := by
  by_contra hactive
  simp only [not_exists, not_not] at hactive
  obtain ⟨k, es, hhistory, hlength⟩ :=
    exists_history_ge hth h hprofile hstart hrun hactive (bound + 1)
  have hle := hbound es _ hhistory.1
  omega

/-- If the runs of the graph are bounded, the threads and the network come to rest: they can go on
as long as something is left to do, but not without end. -/
theorem comes_to_rest {bound : Nat} (hw : Wired ths slots) (hth : ∀ i, Complete (ths i))
    (h : Deployed ths place cs G) (hprofile : ∀ i, (ths i).build.enableProfile = none)
    (hbound : ∀ es v, G.HasRun (gather place fun i => (cs i).states) es v → es.length ≤ bound) :
    (∀ g, Reachable ths slots cs buf g → g.Active → ∃ g', g.SoundStep ths slots g') ∧
    ∀ run : Nat → Interconnect A size, Reachable ths slots cs buf (run 0) →
      (∀ k, (run k).SoundStep ths slots (run (k + 1))) → ∃ k, ¬(run k).Active :=
  ⟨fun _ hreach => hreach.exists_soundStep hw (h.installed hth), fun _ hstart hrun =>
    exists_not_active hth h hprofile hbound hstart hrun⟩

end Graph

end Fintype

end Interconnect

end Interconnect

/-! ## The shipped edge property instance -/

/-- The shipped instance without assertions. -/
def edgeThreads : Threads EdgeProps.app fun _ : Unit => 4 :=
  EdgeProps.dev4Threads EdgeProps.bare (defaultBuild false)

theorem edgeThreads_wired : Wired edgeThreads fun _ => 1 := EdgeProps.dev4Wired rfl Nat.one_pos

/-- The send buffer before the start. -/
def edgeBuffer (_ : Unit) : Message EdgeProps.app :=
  ⟨⟨0#32, 0#16, 0#8, 0#8⟩, ⟨0#32, 0#16, 0#8, 0#8⟩, 0#16, ()⟩

theorem edgeThreads_start : ∃ main : Unit → Main EdgeProps.app 4,
    ∀ i, softswitchMain (edgeThreads i) EdgeProps.dev4Threads1Context (edgeBuffer i) =
      .ok (main i) := by
  have hmain : ∃ s, softswitchMain (edgeThreads ()) EdgeProps.dev4Threads1Context (edgeBuffer ()) =
      .ok s := ⟨_, rfl⟩
  obtain ⟨s, hmain⟩ := hmain
  exact ⟨fun _ => s, fun _ => hmain⟩

/-- The states of the shipped instance. -/
abbrev EdgeReachable : Interconnect EdgeProps.app (fun _ : Unit => 4) → Prop :=
  Interconnect.Reachable edgeThreads (fun _ => 1) (fun _ => EdgeProps.dev4Threads1Context)
    edgeBuffer

/-- What the shipped instance does on the graph is bounded. -/
theorem edgeThreads_bound : ∀ es v,
    (EdgeProps.graph EdgeProps.bare 3 EdgeProps.dev3Sources.edges).HasRun
      (gather EdgeProps.dev4Place fun _ => EdgeProps.dev4Threads1Context.states) es v →
    es.length ≤ 3 * 3 :=
  fun _ _ hrun => (Nat.le_add_right _ _).trans
    (EdgeProps.length_add_left EdgeProps.dev4Initial hrun).le

/-- The shipped instance comes to rest. -/
theorem comes_to_rest_edge : ∃ g, EdgeReachable g ∧ ¬g.Active := by
  obtain ⟨main, hmain⟩ := edgeThreads_start
  have hrest : (∀ g, EdgeReachable g → g.Active → ∃ g', g.SoundStep edgeThreads (fun _ => 1) g') ∧
      ∀ run : Nat → Interconnect EdgeProps.app (fun _ : Unit => 4), EdgeReachable (run 0) →
        (∀ k, (run k).SoundStep edgeThreads (fun _ => 1) (run (k + 1))) → ∃ k, ¬(run k).Active :=
    Interconnect.comes_to_rest edgeThreads_wired EdgeProps.dev4Complete
      (EdgeProps.dev4Deployed rfl) (fun _ => rfl) edgeThreads_bound
  have hstart : EdgeReachable ⟨main, fun _ => 0, fun _ => none⟩ := .start hmain
  exact Runs.exists_rest hstart (fun _ _ hreach hstep => hstep.reachable hreach) hrest.1 hrest.2

end Softswitch
