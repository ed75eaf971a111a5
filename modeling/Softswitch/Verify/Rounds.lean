import Softswitch.Rounds
import Softswitch.Verify.ConnectedThreads

/-!
# Rounds

When the hardware takes the threads for idle, nothing is left to do (`allIdle_settled`), although a
single thread may sit in `tinsel_mboxIdle` with work.  In a round every thread first runs
the hardware idle handlers of its devices, and what is sent in the round is received in the round
(`round_complete`).
-/

namespace Softswitch

open Outcome IntrusiveList Function

variable {A : AppTypes} {n : Nat} {ι : Type} {size : ι → Nat} {th : PThread A n}
  {c c' : PThreadContext A n} {s s' : Main A n} {i : LoopInput A} {w : WaitLocals} {d : Fin n}
  {es es' : List (Event A n)} {m : Message A}

/-! ## Entries of hardware idle handlers -/

/-- The device whose hardware idle handler is entered. -/
def Event.hardwareIdled : Event A n → Option (Fin n)
  | .enter .hardwareIdle d _ => some d
  | _ => none

/-- The event is not the entry of a hardware idle handler. -/
def Event.isBusy (e : Event A n) : Bool := e.hardwareIdled.isNone

theorem Event.isBusy_of_isOutput {e : Event A n} (h : e.isOutput = true) : e.isBusy = true := by
  cases e with
  | enter _ _ _ => cases h
  | _ => rfl

theorem Records.of_sig {p : Event A n → Bool} (h : c'.sig = c.sig ++ es)
    (hes : ∀ e ∈ es, p e = true) : Records p c c' := ⟨es, h, hes⟩

theorem Received.isBusy (h : Received th c m c') : Records Event.isBusy c c' := by
  rcases h with ⟨d, target, -, -, h⟩ | ⟨d, -, -, -, -, -, -, h⟩
  · exact .of_sig h.sig (by simp [receiveEvents, Event.isBusy, Event.hardwareIdled])
  · exact .of_eq h

theorem Idled.isBusy {out : Bool × PThreadContext A n} (h : Idled th c out) :
    Records Event.isBusy c out.2 := by
  rcases h with ⟨-, rfl⟩ | ⟨-, -, -, rfl⟩ | ⟨-, -, k, d, -, -, h⟩
  · exact .of_eq rfl
  · exact .of_eq rfl
  · exact .of_sig h.sig (by simp [Event.isBusy, Event.hardwareIdled])

theorem Prepares.isBusy (h : Prepares th s s') : Records Event.isBusy s.ctxt s'.ctxt := by
  cases h with
  | busy _ => exact .of_eq rfl
  | @fresh out _ hsent =>
    have hout : Records Event.isBusy s.ctxt out.2.1 := by
      rcases hsent with ⟨d, pinIndex, pin, r, h⟩ | ⟨-, -, -, -, -, -, hsig⟩
      · exact .of_sig h.sig (by simp [sendEvents, Event.isBusy, Event.hardwareIdled])
      · exact .of_sig hsig (by simp [Event.isBusy, Event.hardwareIdled])
    exact hout

theorem Delivers.isBusy (h : Delivers th s s') : Records Event.isBusy s.ctxt s'.ctxt := by
  have hsend : ∀ e : Event A n, e.isMboxSend = true → e.isBusy = true := by
    intro e he
    cases e with
    | enter _ _ _ => cases he
    | _ => rfl
  cases h with
  | app _ => exact .of_sig mboxSent_sig (by simpa using hsend _ rfl)
  | target _ _ _ => exact .of_sig mboxSent_sig (by simpa using hsend _ rfl)
  | direct _ hretarget hrecv =>
    rw [nextTarget_ctxt, ← retarget_ctxt hretarget]
    exact hrecv.isBusy

theorem Sends.isBusy (h : Sends th s s') : Records Event.isBusy s.ctxt s'.ctxt := by
  cases h with
  | host _ =>
    have hsig : (hostMessageBufferPopSend th s.ctxt).sig = s.ctxt.sig ++ _ := sig_emit rfl
    exact .of_sig hsig (by simp [Event.isBusy, Event.hardwareIdled])
  | nothing hprep _ => exact hprep.isBusy
  | deliver hprep _ hdeliver => exact hprep.isBusy.trans hdeliver.isBusy

/-- The call of `tinsel_mboxIdle` returned true. -/
def HardwareIdles (th : PThread A n) (s : Main A n) (i : LoopInput A) : Prop :=
  ∃ w, s.pc = .wait w ∧ w.wantToSend = false ∧ th.build.enableHardwareIdle = true ∧
    i.doHardwareIdle = true

/-- No hardware idle handler runs unless `tinsel_mboxIdle` returned true. -/
theorem mainStep_busy (hinv : HostInv s) (hstep : mainStep th s i = .ok s')
    (hidle : ¬HardwareIdles th s i) : Records Event.isBusy s.ctxt s'.ctxt := by
  cases hpc : s.pc with
  | parked =>
    unfold mainStep at hstep
    rw [hpc] at hstep
    cases hstep
    exact .of_eq rfl
  | top =>
    cases (mainStep_sat hinv).of_ok hstep with
    | idle _ _ h => exact h.isBusy
    | searchOver _ _ _ _ hperf => exact .of_eq hperf.undisturbed.sig
    | noIdle _ _ => exact .of_eq rfl
    | parked h => simp [hpc] at h
    | hardwareIdle h _ _ _ => simp [hpc] at h
    | receive h _ _ _ => simp [hpc] at h
    | send h _ _ => simp [hpc] at h
  | wait w =>
    have hcond : (th.build.enableHardwareIdle && !w.wantToSend && i.doHardwareIdle) = false := by
      rw [Bool.eq_false_iff]
      intro h
      simp only [Bool.and_eq_true, Bool.not_eq_true'] at h
      exact hidle ⟨w, hpc, h.1.2, h.1.1, h.2⟩
    unfold mainStep at hstep
    rw [hpc] at hstep
    obtain ⟨c, hwait, ⟨-, s₁, hsend, rfl⟩ | ⟨-, c', rfl, hrecv⟩⟩ :=
      (wake_busy_sat hinv hpc hcond).of_ok hstep
    · exact (Records.of_eq hwait.sig).trans hsend.isBusy
    · have hemit : Records Event.isBusy c (c.emit (.mboxRecv i.message)) :=
        .of_sig (sig_emit rfl) (by simp [Event.isBusy, Event.hardwareIdled])
      exact ((Records.of_eq hwait.sig).trans hemit).trans hrecv.isBusy

/-! ## What a round records -/

/-- The devices with a hardware idle handler, in order. -/
def PThread.idleDevices (th : PThread A n) : List (Fin n) :=
  (List.finRange n).filter fun d => (th.device d).vtable.onHardwareIdleHandler.isSome

theorem hardwareIdleDevice_events : Sat (hardwareIdleDevice th c d)
    (fun c' => c'.sig = c.sig ++
      if (th.device d).vtable.onHardwareIdleHandler.isSome then hardwareIdleEvents c d else [])
    (fun _ => True) := by
  unfold hardwareIdleDevice
  refine Sat.bind_ok fun _ _ => Sat.bind_ok fun _ _ => ?_
  cases (th.device d).vtable.onHardwareIdleHandler with
  | none => exact (List.append_nil _).symm
  | some handler =>
    refine Sat.bind (ran_hardwareIdle.runCalls.mono (fun _ h => h) fun _ _ => trivial)
      fun c₁ _ h₁ => ?_
    exact h₁.handled.mono (fun _ h => h.sig) fun _ _ => trivial

/-- The handlers are entered in the order of the devices. -/
theorem softswitchOnHardwareIdle_events (hok : softswitchOnHardwareIdle th c = .ok c') :
    ∃ es, c'.sig = c.sig ++ es ∧ es.filterMap Event.hardwareIdled = th.idleDevices ∧
      ∀ e ∈ es, e.isBusy = false := by
  let I (pre : List (Fin n)) (s : PThreadContext A n) : Prop := ∃ es, s.sig = c.sig ++ es ∧
    es.filterMap Event.hardwareIdled =
      pre.filter (fun d => (th.device d).vtable.onHardwareIdleHandler.isSome) ∧
    ∀ e ∈ es, e.isBusy = false
  have hstart : I [] (clearRts c) := ⟨[], (List.append_nil _).symm, rfl, by simp⟩
  have hloop : Sat ((List.finRange n).foldlM (hardwareIdleDevice th) (clearRts c))
      (I (List.finRange n)) (fun _ => True) := by
    refine Sat.foldlM_prefix (fun pre d post s _ hs => ?_) hstart
    obtain ⟨es, hsig, hdevices, hes⟩ := hs
    refine hardwareIdleDevice_events.mono (fun s' h => ?_) fun _ _ => trivial
    refine ⟨_, by rw [h, hsig, List.append_assoc], ?_, ?_⟩
    · rw [List.filterMap_append, hdevices, List.filter_append]
      congr 1
      cases hhandler : (th.device d).vtable.onHardwareIdleHandler.isSome <;>
        simp [hhandler, hardwareIdleEvents, Event.hardwareIdled]
    · intro e he
      rcases List.mem_append.1 he with he | he
      · exact hes e he
      · split at he
        · obtain rfl := List.mem_singleton.1 he
          rfl
        · cases he
  obtain ⟨c₁, hc₁, hret⟩ := bind_eq_ok.1 hok
  cases hret
  have hall : I (List.finRange n) c₁ := hloop.of_ok hc₁
  exact hall

/-- The hardware idle handlers of the devices run first, and none of them runs again. -/
def RoundEvents (th : PThread A n) (es : List (Event A n)) : Prop :=
  ∃ first rest, es = first ++ rest ∧ first.filterMap Event.hardwareIdled = th.idleDevices ∧
    (∀ e ∈ first, e.isOutput = true ∨ e.isBusy = false) ∧ ∀ e ∈ rest, e.isBusy = true

theorem RoundEvents.append (h : RoundEvents th es) (hes : ∀ e ∈ es', e.isBusy = true) :
    RoundEvents th (es ++ es') := by
  obtain ⟨first, rest, rfl, hdevices, hfirst, hrest⟩ := h
  refine ⟨first, rest ++ es', List.append_assoc _ _ _, hdevices, hfirst, fun e he => ?_⟩
  rcases List.mem_append.1 he with he | he
  · exact hrest e he
  · exact hes e he

/-- Output aside, what was recorded is what was added to the trace. -/
theorem sig_of_trace (htrace : c'.trace = c.trace ++ es) (hsig : c'.sig = c.sig ++ es') :
    es.filter (fun e => !e.isOutput) = es' := by
  unfold PThreadContext.sig at hsig
  rw [htrace, List.filter_append] at hsig
  exact List.append_cancel_left hsig

theorem mainStep_busy_trace (hinv : HostInv s) (hstep : mainStep th s i = .ok s')
    (hidle : ¬HardwareIdles th s i) :
    ∃ es, s'.ctxt.trace = s.ctxt.trace ++ es ∧ ∀ e ∈ es, e.isBusy = true := by
  obtain ⟨es, htrace⟩ := (mainStep_continues.of_ok hstep).trace
  obtain ⟨es', hsig, hbusy⟩ := mainStep_busy hinv hstep hidle
  obtain rfl := sig_of_trace htrace.symm hsig
  refine ⟨es, htrace.symm, fun e he => ?_⟩
  cases hout : e.isOutput with
  | true => exact Event.isBusy_of_isOutput hout
  | false => exact hbusy e (List.mem_filter.2 ⟨he, by simp [hout]⟩)

/-- When `tinsel_mboxIdle` returned true, the hardware idle handlers run, and nothing else. -/
theorem mainStep_idles (hstep : mainStep th s i = .ok s') (hidle : HardwareIdles th s i) :
    ∃ es, s'.ctxt.trace = s.ctxt.trace ++ es ∧ RoundEvents th es := by
  obtain ⟨es, htrace⟩ := (mainStep_continues.of_ok hstep).trace
  obtain ⟨w, hpc, hwant, hbuild, hreturn⟩ := hidle
  unfold mainStep at hstep
  rw [hpc] at hstep
  obtain ⟨c₁, c₂, hwait, hidled, rfl⟩ :=
    (wake_idle_sat (by simp [hwant, hbuild, hreturn])).of_ok hstep
  obtain ⟨es', hsig, hdevices, hfirst⟩ := softswitchOnHardwareIdle_events hidled
  rw [hwait.sig] at hsig
  obtain rfl := sig_of_trace htrace.symm hsig
  refine ⟨es, htrace.symm, es, [], (List.append_nil es).symm, ?_, fun e he => ?_, by simp⟩
  · rw [← hdevices, List.filterMap_filter]
    refine congrFun (congrArg _ (funext fun e => ?_)) es
    cases e <;> rfl
  · cases hout : e.isOutput with
    | true => exact .inl rfl
    | false => exact .inr (hfirst e (List.mem_filter.2 ⟨he, by simp [hout]⟩))

/-! ## Idle threads have nothing left to do -/

/-- What the assertions of `softswitch_on_hardware_idle` ask for holds of every device when its
turn comes. -/
def IdleChecksHold (th : PThread A n) (c : PThreadContext A n) : Prop :=
  ∀ pre d post c', List.finRange n = pre ++ d :: post →
    pre.foldlM (hardwareIdleDevice th) (clearRts c) = .ok c' →
    (c'.devices d).rtsFlags = 0 ∧ rtsIsOnList c' d = .ok false

/-- The handler of one device leaves the flags of the others alone. -/
theorem idleChecksHold_of_settled (hqueue : ∃ q, IsQueue c q) (hhead : c.rtsHead = none)
    (hflags : ∀ d, c.flags d = 0) : IdleChecksHold th c := by
  intro pre d post c' hsplit hloop
  obtain ⟨q, hq⟩ := hqueue
  obtain rfl : q = [] := hq.rep.head_eq_none_iff.1 hhead
  have hnot : ∀ e ∈ pre, e ≠ d := by
    rintro e he rfl
    have hnodup := List.nodup_finRange n
    rw [hsplit, List.nodup_middle, List.nodup_cons] at hnodup
    exact hnodup.1 (List.mem_append_left _ he)
  let I (s : PThreadContext A n) : Prop := (∃ q, IsQueue s q) ∧ s.flags d = 0
  have hstart : I (clearRts c) := ⟨⟨[], Rep.empty, hq.mem_iff⟩, hflags d⟩
  have hall : I c' := by
    refine (Sat.foldlM (E := fun _ => True) (fun s e he hs => ?_) hstart).of_ok hloop
    refine hardwareIdleDevice_sat.mono (fun s' h => ?_) fun _ _ => trivial
    obtain ⟨⟨q, hq⟩, hs⟩ := hs
    refine ⟨h.isQueue hq, ?_⟩
    rcases h with rfl | ⟨_, -, h⟩
    · exact hs
    · rw [h.flags, update_of_ne (hnot e he).symm]
      exact hs
  obtain ⟨⟨q, hq⟩, hd⟩ := hall
  refine ⟨hd, ?_⟩
  have hnotMem : d ∉ q := by
    rw [hq.mem_iff, hd]
    decide
  rw [rtsIsOnList_eq hq.rep, decide_eq_false hnotMem]

/-! ## The host buffer of an idle thread -/

/-- In a build that does not profile, a thread that does not want to send has no message in its
host buffer. -/
def IdleBuffer (th : PThread A n) (s : Main A n) : Prop :=
  th.build.enableProfile = none → ∀ w, s.pc = .wait w → w.wantToSend = false →
    hostMsgBufferSize s.ctxt = 0

theorem hostMsgBufferSize_congr (h : c'.toHostBuffer = c.toHostBuffer) :
    hostMsgBufferSize c' = hostMsgBufferSize c := by
  have hhead : c'.hbufHead = c.hbufHead := congrArg HostBuffer.hbufHead h
  have htail : c'.hbufTail = c.hbufTail := congrArg HostBuffer.hbufTail h
  unfold hostMsgBufferSize
  rw [hhead, htail]

theorem waitLocals_empty (h : (waitLocals s).wantToSend = false) :
    hostMsgBufferSize s.ctxt = 0 := by
  simp only [waitLocals, Bool.or_eq_false_iff, Bool.not_eq_false', beq_iff_eq] at h
  exact h.2

/-- Between the loop top and the wait only a flush of the counters pushes a message. -/
theorem Stepped.idleBuffer (h : Stepped th s i s') (hs : IdleBuffer th s) : IdleBuffer th s' := by
  cases h with
  | parked _ => exact hs
  | @searchOver s₁ _ _ _ _ hperf =>
    intro hprofile w hw hwant
    cases hw
    have hbuffer : s₁.ctxt.toHostBuffer = s.ctxt.toHostBuffer :=
      hperf.buffer_eq (by simp [flushDue, hprofile])
    have hempty := waitLocals_empty hwant
    rwa [← hostMsgBufferSize_congr hbuffer] at hempty
  | noIdle _ _ =>
    intro _ w hw hwant
    cases hw
    exact waitLocals_empty hwant
  | _ => exact fun _ w hw => by cases hw

theorem Started.idleBuffer {buf : Message A} (h : Started th c buf s) : IdleBuffer th s := by
  cases h with
  | parked _ => exact fun _ w hw => by cases hw
  | running _ _ _ => exact fun _ w hw => by cases hw

section Rounds

variable {ths : Threads A size} {slots : ι → Nat} {cs : (i : ι) → PThreadContext A (size i)}
  {buf : ι → Message A}

theorem Interconnect.Reachable.idleBuffer [DecidableEq ι] {g : Interconnect A size}
    (hstart : ∀ i, (cs i).rtcChecked = 0 ∧ (cs i).rtcOffset = 0)
    (h : Reachable ths slots cs buf g) (i : ι) : IdleBuffer (ths i) (g.main i) := by
  induction h generalizing i with
  | start h => exact (softswitchMain_sat.of_ok (h i)).idleBuffer
  | @thread g g' k hreach hstep ih =>
    obtain ⟨input, s, received, sent, rest, slot, -, hstepped, -, -, -, rfl⟩ :=
      hstep.trades (hreach.inv hstart).main
    exact (forall_update_iff g.main fun i s => IdleBuffer (ths i) s).2
      ⟨hstepped.idleBuffer (ih k), fun i _ => ih i⟩ i
  | network _ hstep ih =>
    rw [hstep.main_eq]
    exact ih i

namespace Rounds

variable {g g' : Rounds A size} {k : ι}

/-- What thread `i` records from one state to another is what it records in a round. -/
def RoundOf (ths : Threads A size) (i : ι) (prev last : Interconnect A size) : Prop :=
  ∃ es, (last.main i).ctxt.trace = (prev.main i).ctxt.trace ++ es ∧ RoundEvents (ths i) es

variable [DecidableEq ι]

/-- What holds in every state. -/
structure Inv (ths : Threads A size) (slots : ι → Nat) (cs : (i : ι) → PThreadContext A (size i))
    (buf : ι → Message A) (g : Rounds A size) : Prop where
  net : Interconnect.Reachable ths slots cs buf g.net
  /-- A thread that was released has done nothing since. -/
  waiting : ∀ i, g.released i = true →
    ∃ last older, g.releases = last :: older ∧ g.net.main i = last.main i
  current : ∀ last older, g.releases = last :: older → ∀ i, g.released i = false →
    RoundOf ths i last g.net
  past : ∀ last ∈ g.releases, Interconnect.Reachable ths slots cs buf last ∧ last.AllIdle ths
  rounds : g.releases.IsChain fun last prev => ∀ i, RoundOf ths i prev last

theorem inv_start {main : (i : ι) → Main A (size i)}
    (h : ∀ i, softswitchMain (ths i) (cs i) (buf i) = .ok (main i)) :
    Inv ths slots cs buf ⟨⟨main, fun _ => 0, fun _ => none⟩, fun _ => false, []⟩ where
  net := .start h
  waiting i h := by cases h
  current last older h := by cases h
  past last h := by cases h
  rounds := .nil

omit [DecidableEq ι] in
/-- A thread whose call of `tinsel_mboxIdle` is about to return true runs its hardware idle
handlers next. -/
theorem round_begins {last : Interconnect A size} (hidle : last.AllIdle ths)
    (hmain : MainInv (ths k) (last.main k)) {input : LoopInput A}
    (hreturn : input.doHardwareIdle = true) {s : Main A (size k)}
    (hstep : mainStep (ths k) (last.main k) input = .ok s) :
    ∃ es, s.ctxt.trace = (last.main k).ctxt.trace ++ es ∧ RoundEvents (ths k) es := by
  have hin := (hidle k).1
  unfold Main.InMboxIdle at hin
  cases hpc : (last.main k).pc with
  | parked =>
    unfold mainStep at hstep
    rw [hpc] at hstep
    cases hstep
    have hnone : (ths k).idleDevices = [] := by
      refine List.eq_nil_iff_forall_not_mem.2 fun d _ => absurd d.isLt ?_
      have := (hmain.parked hpc).1
      omega
    exact ⟨[], (List.append_nil _).symm, [], [], rfl, hnone.symm, by simp, by simp⟩
  | top =>
    rw [hpc] at hin
    exact hin.elim
  | wait w =>
    rw [hpc] at hin
    exact mainStep_idles hstep ⟨w, hpc, hin.2, hin.1, hreturn⟩

/-- What a thread has recorded since the last release, a step later: it was released and begins the
round, or it goes on in it. -/
theorem Inv.round_step {last : Interconnect A size} {older : List (Interconnect A size)}
    (hinv : Inv ths slots cs buf g) (hmain : MainInv (ths k) (g.net.main k))
    (hlast : g.releases = last :: older) {input : LoopInput A} {s : Main A (size k)}
    (hidle : input.doHardwareIdle = g.released k)
    (hstep : mainStep (ths k) (g.net.main k) input = .ok s) :
    ∃ es, s.ctxt.trace = (last.main k).ctxt.trace ++ es ∧ RoundEvents (ths k) es := by
  cases hreleased : g.released k with
  | true =>
    obtain ⟨last', older', hlast', hmain'⟩ := hinv.waiting k hreleased
    obtain ⟨rfl, rfl⟩ := List.cons.inj (hlast.symm.trans hlast')
    rw [hmain'] at hstep hmain
    exact round_begins (hinv.past last (hlast ▸ List.mem_cons_self)).2 hmain
      (hidle.trans hreleased) hstep
  | false =>
    obtain ⟨es, htrace, hes⟩ := hinv.current last older hlast k hreleased
    have hnot : ¬HardwareIdles (ths k) (g.net.main k) input := by
      rintro ⟨-, -, -, -, hreturn⟩
      rw [hidle, hreleased] at hreturn
      cases hreturn
    obtain ⟨es', htrace', hbusy⟩ := mainStep_busy_trace hmain.host hstep hnot
    refine ⟨es ++ es', ?_, hes.append hbusy⟩
    rw [htrace', htrace, List.append_assoc]

/-- A release ends the round of every thread. -/
theorem Inv.release (hinv : Inv ths slots cs buf g) (hnone : ∀ i, g.released i = false)
    (hidle : g.net.AllIdle ths) :
    Inv ths slots cs buf ⟨g.net, fun _ => true, g.net :: g.releases⟩ where
  net := hinv.net
  waiting _ _ := ⟨_, _, rfl, rfl⟩
  current _ _ _ _ hi := by cases hi
  past last hlast := by
    rcases List.mem_cons.1 hlast with rfl | hlast
    · exact ⟨hinv.net, hidle⟩
    · exact hinv.past last hlast
  rounds := by
    have hrounds := hinv.rounds
    cases hreleases : g.releases with
    | nil => exact .singleton _
    | cons last older =>
      rw [hreleases] at hrounds
      exact hrounds.cons_cons fun i => hinv.current last older hreleases i (hnone i)

theorem Step.inv (hstart : ∀ i, (cs i).rtcChecked = 0 ∧ (cs i).rtcOffset = 0)
    (hinv : Inv ths slots cs buf g) (h : g.Step ths slots g') : Inv ths slots cs buf g' := by
  cases h with
  | @thread k input net hanswers hidle hwakes hstep hnet =>
    have hothers : ∀ i, i ≠ k → net.main i = g.net.main i := by
      intro i hi
      cases hnet
      exact update_of_ne hi _ _
    have hmain := (hinv.net.inv hstart).main k
    refine ⟨hinv.net.thread hnet, fun i hi => ?_, fun last older hlast i hi => ?_, hinv.past,
      hinv.rounds⟩
    · have hik : i ≠ k := by
        rintro rfl
        dsimp only at hi
        rw [update_self] at hi
        cases hi
      dsimp only at hi ⊢
      rw [update_of_ne hik] at hi
      rw [hothers i hik]
      exact hinv.waiting i hi
    · by_cases hik : i = k
      · subst hik
        exact hinv.round_step hmain hlast hidle hstep
      · dsimp only at hi
        rw [update_of_ne hik] at hi
        obtain ⟨es, htrace, hes⟩ := hinv.current last older hlast i hi
        exact ⟨es, by rw [← htrace, hothers i hik], hes⟩
  | @network net hnet =>
    refine ⟨hinv.net.network hnet, ?_, ?_, hinv.past, hinv.rounds⟩
    · dsimp only
      rw [hnet.main_eq]
      exact hinv.waiting
    · unfold RoundOf
      rw [hnet.main_eq]
      exact hinv.current
  | release hnone hidle => exact hinv.release hnone hidle

theorem Reachable.inv (hstart : ∀ i, (cs i).rtcChecked = 0 ∧ (cs i).rtcOffset = 0)
    (h : Reachable ths slots cs buf g) : Inv ths slots cs buf g := by
  induction h with
  | start h => exact inv_start h
  | step _ hstep ih => exact hstep.inv hstart ih

/-- When the hardware takes the threads for idle, no message is on its way, no device wants to send
or to compute, no thread has targets left, and without profiling the host buffers read as empty.
So what is asserted before `tinsel_mboxIdle`, and in
`softswitch_on_hardware_idle` when it returned true, holds in every released thread. -/
theorem allIdle_settled (hstart : ∀ i, (cs i).rtcChecked = 0 ∧ (cs i).rtcOffset = 0)
    (hreach : Reachable ths slots cs buf g) :
    (g.net.AllIdle ths → ¬g.net.Active ∧
      ∀ i, (ths i).build.enableProfile = none → (g.net.main i).pc ≠ .parked →
        hostMsgBufferSize (g.net.main i).ctxt = 0) ∧
    ∀ i, g.released i = true → (∀ d, ((g.net.main i).ctxt.devices d).rtsFlags = 0) ∧
      ∀ w s, (g.net.main i).pc = .wait w → waitPhase (ths i) (g.net.main i) w = .ok s →
        IdleChecksHold (ths i) s.ctxt := by
  have hinv := hreach.inv hstart
  have hnet := hinv.net.inv hstart
  refine ⟨fun hidle => ⟨hidle.not_active hnet, fun i hprofile hrunning => ?_⟩,
    fun i hreleased => ?_⟩
  · have hin := (hidle i).1
    unfold Main.InMboxIdle at hin
    cases hpc : (g.net.main i).pc with
    | parked => exact absurd hpc hrunning
    | top =>
      rw [hpc] at hin
      exact hin.elim
    | wait w =>
      rw [hpc] at hin
      exact hinv.net.idleBuffer hstart i hprofile w hpc hin.2
  obtain ⟨last, older, hlast, heq⟩ := hinv.waiting i hreleased
  obtain ⟨hreachLast, hidle⟩ := hinv.past last (hlast ▸ List.mem_cons_self)
  have hflags : ∀ d, (g.net.main i).ctxt.flags d = 0 := by
    rw [heq]
    exact (hidle.thread_settled (hreachLast.inv hstart) i).2
  refine ⟨hflags, fun w s hpc hwait => ?_⟩
  have hwant : w.wantToSend = false := by
    have hin := (hidle i).1
    unfold Main.InMboxIdle at hin
    rw [← heq, hpc] at hin
    exact hin.2
  obtain ⟨c, rfl, hc, -⟩ := waitPhase_sat.of_ok hwait
  have hhead := ((hnet.main i).idle.blocked w hpc hwant).1
  have hthread := ((hnet.main i).idle.thread (by simp [hpc])).keep hc.keeps
  refine idleChecksHold_of_settled hthread.queue ?_ fun d => ?_
  · exact (congrArg Links.head hc.keeps.links).trans hhead
  · rw [hc.keeps.flags]
    exact hflags d

section Fintype

variable [Fintype ι]

/-- From one release to the next, every thread runs the hardware idle handlers of its devices, once
and in order, before it does anything else, and what send handlers write in that time is what
receive handlers are called with in that time. -/
theorem round_complete [DecidableEq A.Payload] (hplaced : Placed ths)
    (htrace : ∀ i, (cs i).trace = [])
    (hstart : ∀ i, (cs i).rtcChecked = 0 ∧ (cs i).rtcOffset = 0)
    (hreach : Reachable ths slots cs buf g) {newer older : List (Interconnect A size)}
    {last prev : Interconnect A size} (hreleases : g.releases = newer ++ last :: prev :: older) :
    ∃ es : (i : ι) → List (Event A (size i)),
      (∀ i, (last.main i).ctxt.trace = (prev.main i).ctxt.trace ++ es i ∧
        RoundEvents (ths i) (es i)) ∧
      ∀ i j (d : Fin (size i)) pinIndex pin targets (dest : Address) (payload : A.Payload),
        ((ths i).device d).vtable.outputPins[pinIndex]? = some pin → pin.isApp = false →
        ((ths i).device d).targets[pinIndex]? = some targets → dest.thread = (ths j).myId →
        (es j).countP
            (Event.IsCall (n := size j) (sendSource (ths i) d pinIndex pin) dest payload) =
          (es i).countP (Event.IsReturn (n := size i) d pinIndex payload) *
            targets.targets.countP (sameAddress · dest) := by
  have hinv := hreach.inv hstart
  have hrounds := hinv.rounds
  rw [hreleases] at hrounds
  have hround := (List.isChain_cons_cons.1 hrounds.right_of_append).1
  choose es hround hes using hround
  refine ⟨es, fun i => ⟨hround i, hes i⟩, ?_⟩
  intro i j d pinIndex pin targets dest payload hpin happ htargets hdest
  have hdelivered : ∀ e ∈ g.releases, (e.main j).ctxt.trace.countP
        (Event.IsCall (n := size j) (sendSource (ths i) d pinIndex pin) dest payload) =
      (e.main i).ctxt.trace.countP (Event.IsReturn (n := size i) d pinIndex payload) *
        targets.targets.countP (sameAddress · dest) := by
    intro e he
    obtain ⟨hreach, hidle⟩ := hinv.past e he
    exact hreach.delivered hplaced htrace (hidle.not_active (hreach.inv hstart)) payload hpin happ
      htargets hdest
  have hlast := hdelivered last (by simp [hreleases])
  have hprev := hdelivered prev (by simp [hreleases])
  rw [hround i, hround j, List.countP_append, List.countP_append, Nat.add_mul, hprev] at hlast
  exact Nat.add_left_cancel hlast

end Fintype

/-! ## Progress -/

theorem step_of_wakes (hw : Wired ths slots) (h : Installed ths cs)
    (hreach : Interconnect.Reachable ths slots cs buf g.net) {input : LoopInput A}
    (hanswers : g.net.Answers k input) (hidle : input.doHardwareIdle = g.released k)
    (hwakes : (g.net.main k).Wakes (ths k) (g.released k = true) input) :
    ∃ g', g.Step ths slots g' ∧ g'.released k = false := by
  have hsafe := hreach.safe h.placed.toLinked h.tables h.start hanswers hwakes
    (hreach.not_sendsApp h k)
  obtain ⟨net, hstep, hnet⟩ :=
    Interconnect.exists_threadStep hw (hreach.inv h.start) hanswers hwakes hsafe
  exact ⟨_, .thread hanswers hidle hwakes hstep hnet, update_self ..⟩

/-- A thread that was released goes on at once. -/
theorem Inv.wakes_of_released (hinv : Inv ths slots cs buf g) (hreleased : g.released k = true)
    {input : LoopInput A} (hreturn : input.doHardwareIdle = true) :
    (g.net.main k).Wakes (ths k) (g.released k = true) input := by
  obtain ⟨last, older, hlast, heq⟩ := hinv.waiting k hreleased
  have hin := ((hinv.past last (hlast ▸ List.mem_cons_self)).2 k).1
  rw [← heq] at hin
  unfold Main.InMboxIdle at hin
  unfold Main.Wakes
  cases hpc : (g.net.main k).pc with
  | parked => exact .inr ⟨hreturn, hreleased⟩
  | top => trivial
  | wait w =>
    rw [hpc] at hin
    dsimp only
    rw [if_neg (by simp [hin.2])]
    exact .inr ⟨hin.1, hreturn, hreleased⟩

/-- The threads never get stuck: some step can be made, if it is only that the hardware releases
the threads.  A thread that was released can go on whatever the others do. -/
theorem keeps_going (hw : Wired ths slots) (h : Installed ths cs)
    (hbuild : ∀ i, (ths i).build.enableHardwareIdle = true)
    (hreach : Reachable ths slots cs buf g) :
    (∃ g', g.Step ths slots g') ∧
    ∀ i, g.released i = true → ∃ g', g.Step ths slots g' ∧ g'.released i = false := by
  have hinv := hreach.inv h.start
  have hnet := hinv.net.inv h.start
  have hgo : ∀ i, g.released i = true → ∃ g', g.Step ths slots g' ∧ g'.released i = false := by
    intro i hreleased
    obtain ⟨input, hanswers, hreturn⟩ := g.net.exists_answers i true
    exact step_of_wakes hw h hinv.net hanswers (hreturn.trans hreleased.symm)
      (hinv.wakes_of_released hreleased hreturn)
  refine ⟨?_, hgo⟩
  by_contra hstuck
  rw [not_exists] at hstuck
  have hnone : ∀ i, g.released i = false := by
    intro i
    rw [Bool.eq_false_iff]
    intro hreleased
    obtain ⟨g', hstep, -⟩ := hgo i hreleased
    exact hstuck g' hstep
  have hnotIdle : ¬g.net.AllIdle ths := fun hidle => hstuck _ (.release hnone hidle)
  have hblocked : ∀ i, g.net.Blocked ths i := by
    intro i input hanswers hwakes
    have hanswers' : g.net.Answers i { input with doHardwareIdle := g.released i } :=
      ⟨hanswers.canRecv, hanswers.canSend, hanswers.message⟩
    refine Exists.elim (step_of_wakes hw h hinv.net hanswers' rfl ?_) fun g' hstep =>
      hstuck g' hstep.1
    -- nothing is released, so the thread was woken by its mailbox
    unfold Main.Wakes at *
    cases hpc : (g.net.main i).pc <;> rw [hpc] at hwakes <;> grind
  have hactive := Interconnect.not_active_of_stuck hw hnet
    (fun net hstep => hstuck _ (.network hstep)) fun i _ => hblocked i
  refine hnotIdle fun i => ⟨?_, by_contra fun hne => hactive ⟨i, .inl hne⟩,
    by_contra fun hne => hactive ⟨i, .inr (.inl hne)⟩⟩
  unfold Main.InMboxIdle
  cases hpc : (g.net.main i).pc with
  | parked => trivial
  | top => exact ((hblocked i).not_top hpc).elim
  | wait w =>
    refine ⟨hbuild i, Bool.eq_false_iff.2 fun hwant => ?_⟩
    exact hactive ⟨i, .inr (.inl (((hblocked i).wait hpc).2 hwant))⟩

end Rounds

end Rounds

/-! ## Two devices, one of which sends in every round -/

/-- A device whose state has bit 1 set asks for a send when it is told that all is idle. -/
def roundVTable : DeviceTypeVTable flagsApp where
  initHandler _ _ s := ⟨s, []⟩
  readyToSendHandler _ _ s := ⟨⟨s, []⟩, BitVec.and s 1#32⟩
  outputPins := [⟨fun _ _ s _ => ⟨⟨BitVec.and s 2#32, []⟩, true, 1#32⟩, 20, 0#32, false, 0#16⟩]
  inputPins := [⟨fun _ _ s _ _ _ => ⟨⟨s, []⟩, none⟩, 0#16, 0#16, 0#32⟩]
  computeHandler _ _ s := ⟨s, []⟩
  onHardwareIdleHandler := some fun _ _ s => ⟨BitVec.or s (BitVec.ushiftRight s 1), []⟩

def roundThread : PThread flagsApp 2 := typedThread (defaultBuild false) 0 roundVTable

/-- A network of this thread alone. -/
def roundThreads : Threads flagsApp fun _ : Unit => 2 := fun _ => roundThread

theorem roundThread_complete : Complete roundThread where
  index _ := rfl
  asks _ _ _ hk hbit := lt_of_and (n := 1) (by decide) hk hbit
  targets d k pin hpin _ := (List.getElem?_eq_some_iff.1 hpin).1
  logging h := by cases h

theorem roundThreads_placed : Placed roundThreads where
  toLinked := typedThread_linked
    ⟨_, rfl, show (0#16).setWidth 32 ||| (0#16).setWidth 32 = 0#32 by decide⟩ rfl
  build _ := rfl

theorem roundThreads_wired : Wired roundThreads fun _ => 1 := typedThread_wired rfl

/-- Device 0 is the one that sends. -/
theorem roundThreads_installed : Installed roundThreads fun _ => flagsContext 2#32 0#32 :=
  ⟨roundThreads_placed, fun _ => roundThread_complete, fun _ => rfl, fun _ => rfl, fun _ => rfl⟩

/-- What device 0 sends to device 1 in a round. -/
def roundMessage : Message flagsApp := ⟨flagsAddress 1#16, flagsAddress 0#16, 0#16, flagsPayload⟩

/-- The send slot is free; if something has arrived, it is the message of the round. -/
def roundInput (canRecv doHardwareIdle : Bool) : LoopInput flagsApp :=
  ⟨canRecv, true, doHardwareIdle, roundMessage⟩

/-- The messages that a thread has taken and given. -/
def Main.Moved (s : Main flagsApp 2) (received : List (Message flagsApp))
    (sent : List (Parcel flagsApp)) : Prop :=
  taken s.ctxt.trace = received ∧ given s.ctxt.trace = sent

/-- How often the send handler of device 0 has returned with the message of a round. -/
def Main.roundSends (s : Main flagsApp 2) : Nat :=
  s.ctxt.trace.countP (Event.IsReturn (n := 2) ⟨0, Nat.two_pos⟩ 0 flagsPayload)

/-- The thread goes idle, is told that all is idle, sends, receives, and goes idle again. -/
theorem roundThread_run : ∃ s₀ s₁ s₂ s₃ s₄ s₅ s₆ s₇ s₈ w₂ w₄ w₆ w₈,
    softswitchMain roundThread (flagsContext 2#32 0#32) (flagsMessage 0#16 0#32) = .ok s₀ ∧
    mainStep roundThread s₀ (roundInput false false) = .ok s₁ ∧
    mainStep roundThread s₁ (roundInput false false) = .ok s₂ ∧
    mainStep roundThread s₂ (roundInput false true) = .ok s₃ ∧
    mainStep roundThread s₃ (roundInput false false) = .ok s₄ ∧
    mainStep roundThread s₄ (roundInput false false) = .ok s₅ ∧
    mainStep roundThread s₅ (roundInput true false) = .ok s₆ ∧
    mainStep roundThread s₆ (roundInput true false) = .ok s₇ ∧
    mainStep roundThread s₇ (roundInput false false) = .ok s₈ ∧
    ((s₀.pc = .top ∧ s₁.pc = .top ∧ s₂.pc = .wait w₂ ∧ w₂.wantToSend = false) ∧
      (s₃.pc = .top ∧ s₄.pc = .wait w₄ ∧ w₄.wantToSend = true) ∧
      (s₅.pc = .top ∧ s₆.pc = .wait w₆ ∧ w₆.wantToSend = false) ∧
      s₇.pc = .top ∧ s₈.pc = .wait w₈ ∧ w₈.wantToSend = false) ∧
    ((s₀.Moved [] [] ∧ s₁.Moved [] [] ∧ s₂.Moved [] [] ∧ s₃.Moved [] [] ∧ s₄.Moved [] []) ∧
      (s₅.Moved [] [.message 0#32 roundMessage] ∧ s₆.Moved [] [.message 0#32 roundMessage]) ∧
      s₇.Moved [roundMessage] [.message 0#32 roundMessage] ∧
      s₈.Moved [roundMessage] [.message 0#32 roundMessage]) ∧
    s₂.roundSends = 0 ∧ s₈.roundSends = 1 :=
  ⟨_, _, _, _, _, _, _, _, _, _, _, _, _, rfl, rfl, rfl, rfl, rfl, rfl, rfl, rfl, rfl,
    ⟨⟨rfl, rfl, rfl, rfl⟩, ⟨rfl, rfl, rfl⟩, ⟨rfl, rfl, rfl⟩, rfl, rfl, rfl⟩,
    ⟨⟨⟨rfl, rfl⟩, ⟨rfl, rfl⟩, ⟨rfl, rfl⟩, ⟨rfl, rfl⟩, ⟨rfl, rfl⟩⟩, ⟨⟨rfl, rfl⟩, ⟨rfl, rfl⟩⟩,
      ⟨rfl, rfl⟩, ⟨rfl, rfl⟩⟩, rfl, rfl⟩

namespace Rounds

/-- The thread in state `s`, with `recv` in its receive slots. -/
def roundNet (s : Main flagsApp 2) (recv : Multiset (Message flagsApp))
    (slot : Option (Parcel flagsApp)) : Interconnect flagsApp fun _ : Unit => 2 :=
  ⟨fun _ => s, fun _ => recv, fun _ => slot⟩

/-- The states that the thread reaches. -/
abbrev RoundReachable : Rounds flagsApp (fun _ : Unit => 2) → Prop :=
  Reachable roundThreads (fun _ => 1) (fun _ => flagsContext 2#32 0#32)
    fun _ => flagsMessage 0#16 0#32

/-- A step of the thread, which has no message in its send slot. -/
theorem round_step {s s' : Main flagsApp 2} {canRecv b : Bool} {rest : Multiset (Message flagsApp)}
    {received taken₀ : List (Message flagsApp)} {sent given₀ : List (Parcel flagsApp)}
    {slot : Option (Parcel flagsApp)} {releases : List (Interconnect flagsApp fun _ : Unit => 2)}
    (h : RoundReachable ⟨roundNet s (if canRecv then {roundMessage} else 0) none, fun _ => b,
      releases⟩)
    (hstep : mainStep roundThread s (roundInput canRecv b) = .ok s')
    (hwakes : s.Wakes roundThread (b = true) (roundInput canRecv b))
    (hs : s.Moved taken₀ given₀) (hs' : s'.Moved (taken₀ ++ received) (given₀ ++ sent))
    (hrecv : (if canRecv then {roundMessage} else 0) = (received : Multiset _) + rest)
    (hsend : Fills none sent slot) :
    RoundReachable ⟨roundNet s' rest slot, fun _ => false, releases⟩ := by
  have hanswers : (roundNet s (if canRecv then {roundMessage} else 0) none).Answers ()
      (roundInput canRecv b) := by
    cases canRecv <;> constructor <;> simp [roundInput, roundNet]
  have htaken : taken s'.ctxt.trace = taken s.ctxt.trace ++ received := by rw [hs.1, hs'.1]
  have hgiven : given s'.ctxt.trace = given s.ctxt.trace ++ sent := by rw [hs.2, hs'.2]
  have hnet : (roundNet s (if canRecv then {roundMessage} else 0) none).ThreadStep roundThreads ()
      (roundNet s' rest slot) :=
    .step hanswers (hwakes.mono fun _ => trivial) hstep htaken hgiven hrecv hsend
  have hthread : Step roundThreads (fun _ => 1)
      ⟨roundNet s (if canRecv then {roundMessage} else 0) none, fun _ => b, releases⟩
      ⟨roundNet s' rest slot, update (fun _ => b) () false, releases⟩ :=
    .thread hanswers rfl hwakes hstep hnet
  exact h.step hthread

/-- A step in which nothing is taken or given. -/
theorem round_quiet (canRecv : Bool) {s s' : Main flagsApp 2} {b : Bool}
    {taken₀ : List (Message flagsApp)} {given₀ : List (Parcel flagsApp)}
    {releases : List (Interconnect flagsApp fun _ : Unit => 2)}
    (h : RoundReachable ⟨roundNet s (if canRecv then {roundMessage} else 0) none, fun _ => b,
      releases⟩)
    (hstep : mainStep roundThread s (roundInput canRecv b) = .ok s')
    (hwakes : s.Wakes roundThread (b = true) (roundInput canRecv b))
    (hs : s.Moved taken₀ given₀) (hs' : s'.Moved taken₀ given₀) :
    RoundReachable ⟨roundNet s' (if canRecv then {roundMessage} else 0) none, fun _ => false,
      releases⟩ := by
  have hsame : s'.Moved (taken₀ ++ []) (given₀ ++ []) := by
    rwa [List.append_nil, List.append_nil]
  exact round_step h hstep hwakes hs hsame (zero_add _).symm .nothing

/-- Such a step while no message is there. -/
theorem round_idle {s s' : Main flagsApp 2} {b : Bool}
    {taken₀ : List (Message flagsApp)} {given₀ : List (Parcel flagsApp)}
    {releases : List (Interconnect flagsApp fun _ : Unit => 2)}
    (h : RoundReachable ⟨roundNet s 0 none, fun _ => b, releases⟩)
    (hstep : mainStep roundThread s (roundInput false b) = .ok s')
    (hwakes : s.Wakes roundThread (b = true) (roundInput false b))
    (hs : s.Moved taken₀ given₀) (hs' : s'.Moved taken₀ given₀) :
    RoundReachable ⟨roundNet s' 0 none, fun _ => false, releases⟩ :=
  round_quiet false h hstep hwakes hs hs'

theorem round_send {s s' : Main flagsApp 2}
    {releases : List (Interconnect flagsApp fun _ : Unit => 2)}
    (h : RoundReachable ⟨roundNet s 0 none, fun _ => false, releases⟩)
    (hstep : mainStep roundThread s (roundInput false false) = .ok s')
    (hwakes : s.Wakes roundThread (false = true) (roundInput false false))
    (hs : s.Moved [] []) (hs' : s'.Moved [] [.message 0#32 roundMessage]) :
    RoundReachable ⟨roundNet s' 0 (some (.message 0#32 roundMessage)), fun _ => false,
      releases⟩ := by
  have hmoved : s'.Moved ([] ++ []) ([] ++ [.message 0#32 roundMessage]) := hs'
  have hstart : RoundReachable ⟨roundNet s (if false then {roundMessage} else 0) none,
    fun _ => false, releases⟩ := h
  exact round_step hstart hstep hwakes hs hmoved (zero_add 0).symm .one

theorem round_receive {s s' : Main flagsApp 2} {given₀ : List (Parcel flagsApp)}
    {releases : List (Interconnect flagsApp fun _ : Unit => 2)}
    (h : RoundReachable ⟨roundNet s {roundMessage} none, fun _ => false, releases⟩)
    (hstep : mainStep roundThread s (roundInput true false) = .ok s')
    (hwakes : s.Wakes roundThread (false = true) (roundInput true false))
    (hs : s.Moved [] given₀) (hs' : s'.Moved [roundMessage] given₀) :
    RoundReachable ⟨roundNet s' 0 none, fun _ => false, releases⟩ := by
  have hmoved : s'.Moved ([] ++ [roundMessage]) (given₀ ++ []) := by rwa [List.append_nil]
  have hstart : RoundReachable ⟨roundNet s (if true then {roundMessage} else 0) none,
    fun _ => false, releases⟩ := h
  exact round_step hstart hstep hwakes hs hmoved (add_zero _).symm .nothing

/-- The network delivers the message of the round. -/
theorem round_move {s : Main flagsApp 2}
    {releases : List (Interconnect flagsApp fun _ : Unit => 2)}
    (h : RoundReachable ⟨roundNet s 0 (some (.message 0#32 roundMessage)), fun _ => false,
      releases⟩) :
    RoundReachable ⟨roundNet s {roundMessage} none, fun _ => false, releases⟩ := by
  have hslot : (roundNet s 0 (some (.message 0#32 roundMessage))).sendSlot () =
      some (.message (roundThreads ()).myId roundMessage) := rfl
  have hmove : (roundNet s 0 (some (.message 0#32 roundMessage))).NetworkStep roundThreads
      (fun _ => 1) (roundNet s {roundMessage} none) := .thread hslot Nat.one_pos
  exact h.step (.network hmove)

theorem round_release {s : Main flagsApp 2} {w : WaitLocals}
    {releases : List (Interconnect flagsApp fun _ : Unit => 2)}
    (h : RoundReachable ⟨roundNet s 0 none, fun _ => false, releases⟩) (hpc : s.pc = .wait w)
    (hwant : w.wantToSend = false) :
    RoundReachable ⟨roundNet s 0 none, fun _ => true, roundNet s 0 none :: releases⟩ := by
  refine h.step (.release (fun _ => rfl) fun _ => ⟨?_, rfl, rfl⟩)
  unfold Main.InMboxIdle roundNet
  rw [hpc]
  exact ⟨rfl, hwant⟩

/-- The thread is released twice; in the round between, device 0 sends. -/
theorem round_releases : ∃ last prev, RoundReachable ⟨roundNet last 0 none, fun _ => true,
    [roundNet last 0 none, roundNet prev 0 none]⟩ ∧ last.pc ≠ .parked ∧
    prev.roundSends = 0 ∧ last.roundSends = 1 := by
  obtain ⟨s₀, s₁, s₂, s₃, s₄, s₅, s₆, s₇, s₈, w₂, w₄, w₆, w₈, hmain, hstep₁, hstep₂, hstep₃, hstep₄,
    hstep₅, hstep₆, hstep₇, hstep₈, ⟨⟨hpc₀, hpc₁, hpc₂, hwant₂⟩, ⟨hpc₃, hpc₄, hwant₄⟩,
    ⟨hpc₅, hpc₆, hwant₆⟩, hpc₇, hpc₈, hwant₈⟩, ⟨⟨hs₀, hs₁, hs₂, hs₃, hs₄⟩, ⟨hs₅, hs₆⟩, hs₇, hs₈⟩,
    hprev, hlast⟩ := roundThread_run
  have htop : ∀ {s : Main flagsApp 2} {released input}, s.pc = .top →
      s.Wakes roundThread released input := by
    intro s released input hpc
    unfold Main.Wakes
    rw [hpc]
    trivial
  have hwait : ∀ {s : Main flagsApp 2} {w canRecv b}, s.pc = .wait w →
      (canRecv || w.wantToSend || b) = true →
      s.Wakes roundThread (b = true) (roundInput canRecv b) := by
    intro s w canRecv b hpc h
    unfold Main.Wakes
    rw [hpc]
    cases hwant : w.wantToSend <;> cases canRecv <;> cases b <;>
      simp_all [roundInput, roundThread, typedThread, flagsThread, defaultBuild]
  have hstart : RoundReachable ⟨roundNet s₀ 0 none, fun _ => false, []⟩ := .start fun _ => hmain
  have h₁ : RoundReachable ⟨roundNet s₁ 0 none, fun _ => false, []⟩ :=
    round_idle hstart hstep₁ (htop hpc₀) hs₀ hs₁
  have h₂ := round_release (round_idle h₁ hstep₂ (htop hpc₁) hs₁ hs₂) hpc₂ hwant₂
  have h₃ := round_idle h₂ hstep₃ (hwait hpc₂ (by simp)) hs₂ hs₃
  have h₄ := round_idle h₃ hstep₄ (htop hpc₃) hs₃ hs₄
  have h₅ := round_move (round_send h₄ hstep₅ (hwait hpc₄ (by simp [hwant₄])) hs₄ hs₅)
  have h₆ := round_quiet true h₅ hstep₆ (htop hpc₅) hs₅ hs₆
  have h₇ := round_receive h₆ hstep₇ (hwait hpc₆ (by simp)) hs₆ hs₇
  have h₈ := round_idle h₇ hstep₈ (htop hpc₇) hs₇ hs₈
  exact ⟨s₈, s₂, round_release h₈ hpc₈ hwant₈, by simp [hpc₈], hprev, hlast⟩

theorem allIdle_settled_round : ∃ g, RoundReachable g ∧ g.released () = true ∧ ¬g.net.Active ∧
    hostMsgBufferSize (g.net.main ()).ctxt = 0 ∧
    ∀ d, ((g.net.main ()).ctxt.devices d).rtsFlags = 0 := by
  obtain ⟨last, prev, hreach, hpc, -⟩ := round_releases
  obtain ⟨hidle, hreleased⟩ := allIdle_settled (fun _ => ⟨rfl, rfl⟩) hreach
  have hall := ((hreach.inv fun _ => ⟨rfl, rfl⟩).past (roundNet last 0 none) List.mem_cons_self).2
  exact ⟨_, hreach, rfl, (hidle hall).1, (hidle hall).2 () rfl hpc, (hreleased () rfl).1⟩

/-- The message of the round is received in the round. -/
theorem round_complete_round : ∃ g last prev, RoundReachable g ∧ g.releases = [last, prev] ∧
    ∃ es, (last.main ()).ctxt.trace = (prev.main ()).ctxt.trace ++ es ∧
      RoundEvents roundThread es ∧
      es.countP (Event.IsReturn (n := 2) 0 0 flagsPayload) = 1 ∧
      es.countP (Event.IsCall (n := 2) (flagsAddress 0#16) (flagsAddress 1#16)
        flagsPayload) = 1 := by
  obtain ⟨last, prev, hreach, -, hprev, hlast⟩ := round_releases
  obtain ⟨es, hes, hcount⟩ := @round_complete _ _ _ _ _ _ _ _ _ _ _ roundThreads_placed
    (fun _ => rfl) (fun _ => ⟨rfl, rfl⟩) hreach [] [] _ _ rfl
  obtain ⟨htrace, hround⟩ := hes ()
  have hreturn : (es ()).countP (Event.IsReturn (n := 2) 0 0 flagsPayload) = 1 := by
    unfold Main.roundSends at hprev hlast
    have htrace' : last.ctxt.trace = prev.ctxt.trace ++ es () := htrace
    rw [htrace', List.countP_append, hprev, Nat.zero_add] at hlast
    exact hlast
  have hcall := hcount () () 0 0 _ _ (flagsAddress 1#16) flagsPayload rfl rfl rfl rfl
  rw [hreturn] at hcall
  exact ⟨_, roundNet last 0 none, roundNet prev 0 none, hreach, rfl, es (), htrace, hround, hreturn,
    hcall⟩

theorem keeps_going_round : ∃ g, RoundReachable g ∧
    ∃ g', g.Step roundThreads (fun _ => 1) g' ∧ g'.released () = false := by
  obtain ⟨last, prev, hreach, -⟩ := round_releases
  exact ⟨_, hreach, (keeps_going roundThreads_wired roundThreads_installed (fun _ => rfl)
    hreach).2 () rfl⟩

end Rounds

end Softswitch
