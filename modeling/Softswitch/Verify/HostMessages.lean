import Softswitch.Verify.Records

/-!
# Host messages in the main loop

In a build that does not profile, and where a handler that receives or sends pushes one host message
at most, the host buffer is a queue without bound to the main loop: what was pushed leaves in that
order, and what was not leaves past it (`hostMessages_survive`).  `MAX_HOST_PER_HANDLER` is one too
many: where two are pushed at a time the buffer fills up, and then it looks empty
(`hostMessages_lost`).
-/

namespace Softswitch

open Outcome RingBuffer Function

variable {A : AppTypes} {n : Nat} {th : PThread A n} {c c' c₀ : PThreadContext A n}
  {s s' : Main A n} {i : LoopInput A} {w : WaitLocals} {k : Nat}

/-! ## A queue without bound -/

/-- What is done about host messages. -/
inductive HostAct where
  | buffer (op : HostOp)
  | slowSend (msg : HostMsg)

/-- A queue of host messages, and what has left. -/
structure HostQueue where
  queue : List HostMsg
  left : List (HostChannel × HostMsg)

namespace HostQueue

/-- The first message leaves. -/
def pop (Q : HostQueue) (channel : HostChannel) : Option HostQueue :=
  match Q.queue with
  | [] => none
  | msg :: queue => some ⟨queue, Q.left ++ [(channel, msg)]⟩

def act (Q : HostQueue) : HostAct → Option HostQueue
  | .buffer (.push msg) => some { Q with queue := Q.queue ++ [msg] }
  | .buffer .popSend => Q.pop .mailbox
  | .buffer .slowPop => Q.pop .uart
  | .slowSend msg => some { Q with left := Q.left ++ [(.uart, msg)] }

/-- All of it, in order, with an empty queue at first. -/
def run (acts : List HostAct) : Option HostQueue := acts.foldlM act ⟨[], []⟩

theorem run_snoc {acts : List HostAct} {a : HostAct} {Q : HostQueue} (h : run acts = some Q) :
    run (acts ++ [a]) = Q.act a := by
  unfold run at *
  rw [List.foldlM_append, h]
  exact Option.bind_fun_some _

theorem run_append_eq {acts : List HostAct} {a : HostAct} {Q' : HostQueue}
    (h : run (acts ++ [a]) = some Q') : ∃ Q, run acts = some Q ∧ Q.act a = some Q' := by
  cases hQ : run acts with
  | none =>
    have hnone : run (acts ++ [a]) = none := by
      unfold run at *
      rw [List.foldlM_append, hQ]
      rfl
    rw [hnone] at h
    cases h
  | some Q => exact ⟨Q, rfl, (run_snoc hQ).symm.trans h⟩

/-- The messages that were pushed, in order. -/
def pushed (acts : List HostAct) : List HostMsg :=
  acts.filterMap fun
    | .buffer (.push msg) => some msg
    | _ => none

/-- What was pushed has left in that order, or is in the queue. -/
def InOrder (acts : List HostAct) (Q : HostQueue) : Prop :=
  ∃ popped, pushed acts = popped ++ Q.queue ∧ popped.Sublist (Q.left.map Prod.snd)

theorem InOrder.pop {acts : List HostAct} {op : HostOp} {channel : HostChannel} {Q Q' : HostQueue}
    (h : InOrder acts Q) (hop : pushed [.buffer op] = []) (hpop : Q.pop channel = some Q') :
    InOrder (acts ++ [.buffer op]) Q' := by
  obtain ⟨popped, hpushed, hleft⟩ := h
  obtain ⟨queue, left⟩ := Q
  cases queue with
  | nil => cases hpop
  | cons msg queue =>
    obtain rfl := Option.some.inj hpop
    refine ⟨popped ++ [msg], ?_, ?_⟩
    · unfold pushed at *
      rw [List.filterMap_append, hop, List.append_nil, hpushed, List.append_assoc]
      rfl
    · rw [List.map_append]
      exact hleft.append (List.Sublist.refl [msg])

theorem run_inOrder {acts : List HostAct} {Q : HostQueue} (h : run acts = some Q) :
    InOrder acts Q := by
  induction acts using List.reverseRecOn generalizing Q with
  | nil =>
    obtain rfl := Option.some.inj h
    exact ⟨[], rfl, List.Sublist.refl []⟩
  | append_singleton acts a ih =>
    obtain ⟨Q₀, hQ₀, hact⟩ := run_append_eq h
    have hin := ih hQ₀
    obtain ⟨popped, hpushed, hleft⟩ := ih hQ₀
    match a, hact with
    | .buffer (.push msg), hact =>
      obtain rfl := Option.some.inj hact
      refine ⟨popped, ?_, hleft⟩
      unfold pushed at *
      rw [List.filterMap_append, hpushed, List.append_assoc]
      rfl
    | .buffer .popSend, hact => exact hin.pop rfl hact
    | .buffer .slowPop, hact => exact hin.pop rfl hact
    | .slowSend msg, hact =>
      obtain rfl := Option.some.inj hact
      refine ⟨popped, ?_, ?_⟩
      · unfold pushed at *
        rw [List.filterMap_append, hpushed]
        exact List.append_nil _
      · rw [List.map_append]
        exact hleft.trans (List.sublist_append_left _ _)

end HostQueue

/-- From `c₀` to `c` the thread has done `acts` about host messages, and nothing else. -/
inductive HostActs (th : PThread A n) (c₀ : PThreadContext A n) :
    List HostAct → PThreadContext A n → Prop
  | start : HostActs th c₀ [] c₀
  | same {acts : List HostAct} {c c' : PThreadContext A n} (h : HostActs th c₀ acts c)
      (hsame : HostSame c c') : HostActs th c₀ acts c'
  | buffer {acts : List HostAct} {c : PThreadContext A n} (op : HostOp)
      (h : HostActs th c₀ acts c) : HostActs th c₀ (acts ++ [.buffer op]) (hostStep th c op)
  | slowSend {acts : List HostAct} {c : PThreadContext A n} (msg : HostMsg)
      (h : HostActs th c₀ acts c) :
      HostActs th c₀ (acts ++ [.slowSend msg]) (directHostMessageSlowSend c msg)

/-- The host buffer holds what is in the queue, and what left the queue has left the thread. -/
structure Implements (c : PThreadContext A n) (Q : HostQueue) : Prop where
  rep : Rep hostbufferSize c.ring Q.queue
  left : leaving c.trace = Q.left

/-- What the thread has done since `c₀` is what a queue does, and the buffer can take another `k`
messages and does not fill up. -/
def Queues (th : PThread A n) (c₀ : PThreadContext A n) (k : Nat) (c : PThreadContext A n) :
    Prop :=
  ∃ acts Q, HostActs th c₀ acts c ∧ HostQueue.run acts = some Q ∧ Implements c Q ∧
    Q.queue.length + k < hostbufferSize

/-! ## One act -/

namespace Implements

variable {Q : HostQueue}

theorem same (h : Implements c Q) (hsame : HostSame c c') : Implements c' Q := by
  have hring : c'.ring = c.ring := by
    unfold PThreadContext.ring
    rw [hsame.buffer]
  exact ⟨hring ▸ h.rep, hsame.leaving.trans h.left⟩

theorem push (h : Implements c Q) (hfree : Q.queue.length < hostbufferSize) (msg : HostMsg) :
    Implements (hostMsgBufferPush c msg) { Q with queue := Q.queue ++ [msg] } :=
  ⟨h.rep.push hfree, h.left⟩

theorem slowSend (h : Implements c Q) (msg : HostMsg) :
    Implements (directHostMessageSlowSend c msg) { Q with left := Q.left ++ [(.uart, msg)] } := by
  refine ⟨h.rep, ?_⟩
  show leaving (c.trace ++ [.uart msg]) = _
  rw [leaving_append, h.left]
  rfl

/-- A pop of either kind. -/
theorem pop {op : HostOp} {channel : HostChannel} {msg : HostMsg} {queue : List HostMsg}
    {left : List (HostChannel × HostMsg)} (h : Implements c ⟨msg :: queue, left⟩)
    (hop : op = .popSend ∧ channel = .mailbox ∨ op = .slowPop ∧ channel = .uart) :
    Implements (hostStep th c op) ⟨queue, left ++ [(channel, msg)]⟩ := by
  have hfront : c.hostBuffer c.hbufHead = msg := h.rep.front
  rcases hop with ⟨rfl, rfl⟩ | ⟨rfl, rfl⟩
  · refine ⟨h.rep.pop, ?_⟩
    show leaving (c.trace ++ [.mboxSendExtra th.hostId th.sizeofHostMsg _]) = _
    rw [leaving_append, h.left, ← hfront]
    rfl
  · refine ⟨h.rep.pop, ?_⟩
    show leaving (c.trace ++ [.uart (c.hostBuffer c.hbufHead)]) = _
    rw [leaving_append, h.left, hfront]
    rfl

theorem size_eq (h : Implements c Q) (hfree : Q.queue.length < hostbufferSize) :
    hostMsgBufferSize c = Q.queue.length := h.rep.size_eq hfree

end Implements

namespace Queues

theorem start (hstart : Fresh c) (hk : k < hostbufferSize) : Queues th c k c := by
  have hring : c.ring = ⟨c.hostBuffer, 0, 0⟩ := by
    unfold PThreadContext.ring
    rw [hstart.head, hstart.tail]
  refine ⟨[], ⟨[], []⟩, .start, rfl, ⟨?_, ?_⟩, ?_⟩
  · rw [hring]
    exact Rep.empty (by decide)
  · rw [hstart.trace]
    rfl
  · rw [List.length_nil, Nat.zero_add]
    exact hk

theorem same (h : Queues th c₀ k c) (hsame : HostSame c c') : Queues th c₀ k c' := by
  obtain ⟨acts, Q, hacts, hrun, hQ, hk⟩ := h
  exact ⟨acts, Q, hacts.same hsame, hrun, hQ.same hsame, hk⟩

theorem size_lt (h : Queues th c₀ k c) : hostMsgBufferSize c + k < hostbufferSize := by
  obtain ⟨acts, Q, -, -, hQ, hk⟩ := h
  rw [hQ.size_eq (by omega)]
  exact hk

/-- How much the buffer can take is told by its size. -/
theorem of_size {j : Nat} (h : Queues th c₀ k c) (hj : hostMsgBufferSize c + j < hostbufferSize) :
    Queues th c₀ j c := by
  obtain ⟨acts, Q, hacts, hrun, hQ, hk⟩ := h
  rw [hQ.size_eq (by omega)] at hj
  exact ⟨acts, Q, hacts, hrun, hQ, hj⟩

theorem push {msg : HostMsg} (h : Queues th c₀ (k + 1) c) :
    Queues th c₀ k (hostMsgBufferPush c msg) := by
  obtain ⟨acts, Q, hacts, hrun, hQ, hk⟩ := h
  refine ⟨_, _, hacts.buffer (.push msg), HostQueue.run_snoc hrun, hQ.push (by omega) msg, ?_⟩
  rw [List.length_append, List.length_singleton]
  omega

theorem slowSend {msg : HostMsg} (h : Queues th c₀ k c) :
    Queues th c₀ k (directHostMessageSlowSend c msg) := by
  obtain ⟨acts, Q, hacts, hrun, hQ, hk⟩ := h
  exact ⟨_, _, hacts.slowSend msg, HostQueue.run_snoc hrun, hQ.slowSend msg, hk⟩

/-- A pop, where the buffer reports something to pop. -/
theorem pop {op : HostOp} (h : Queues th c₀ k c) (hop : op = .popSend ∨ op = .slowPop)
    (hsize : 0 < hostMsgBufferSize c) : Queues th c₀ (k + 1) (hostStep th c op) ∧
      hostMsgBufferSize (hostStep th c op) + 1 = hostMsgBufferSize c := by
  obtain ⟨acts, ⟨queue, left⟩, hacts, hrun, hQ, hk⟩ := h
  have hbefore := hQ.size_eq (by omega)
  rw [hbefore] at hsize ⊢
  cases queue with
  | nil => exact absurd hsize (Nat.lt_irrefl 0)
  | cons msg queue =>
    have hlength : queue.length + (k + 1) < hostbufferSize := by
      rw [List.length_cons] at hk
      omega
    have hafter : ∀ {channel}, HostQueue.act ⟨msg :: queue, left⟩ (.buffer op) =
          some ⟨queue, left ++ [(channel, msg)]⟩ →
        Implements (hostStep th c op) ⟨queue, left ++ [(channel, msg)]⟩ →
        Queues th c₀ (k + 1) (hostStep th c op) ∧
          hostMsgBufferSize (hostStep th c op) + 1 = (msg :: queue).length := by
      intro channel hact hQ'
      refine ⟨⟨_, _, hacts.buffer op, (HostQueue.run_snoc hrun).trans hact, hQ', hlength⟩, ?_⟩
      rw [hQ'.size_eq (Nat.lt_of_add_right_lt hlength), List.length_cons]
    rcases hop with rfl | rfl
    · exact hafter rfl (hQ.pop (.inl ⟨rfl, rfl⟩))
    · exact hafter rfl (hQ.pop (.inr ⟨rfl, rfl⟩))

theorem weaken (h : Queues th c₀ (k + 1) c) : Queues th c₀ k c := by
  have hsize := h.size_lt
  exact h.of_size (by omega)

end Queues

/-- What the thread has done about host messages since `c₀` is what a queue does.  What was pushed
has left in order but for what is in the queue, whose size the buffer tells. -/
def Survives (th : PThread A n) (c₀ c : PThreadContext A n) : Prop :=
  ∃ acts Q, HostActs th c₀ acts c ∧ HostQueue.run acts = some Q ∧ HostQueue.InOrder acts Q ∧
    leaving c.trace = Q.left ∧ hostMsgBufferSize c = Q.queue.length

theorem Queues.survives (h : Queues th c₀ k c) : Survives th c₀ c := by
  obtain ⟨acts, Q, hacts, hrun, hQ, hk⟩ := h
  exact ⟨acts, Q, hacts, hrun, HostQueue.run_inOrder hrun, hQ.left, hQ.size_eq (by omega)⟩

/-- The rules of the event functions hold of the queue. -/
theorem queues_rules : HostRules (Queues th c₀) where
  same h hsame := h.same hsame
  slowSend h _ := h.slowSend
  slowPop h hsize := (h.pop (.inr rfl) hsize).1.weaken
  space h := by
    have hsize := h.size_lt
    unfold hostMsgBufferSpace
    omega
  push h := h.push
  weaken h := h.weaken

/-! ## The main loop -/

theorem HostSame.size_eq (h : HostSame c c') : hostMsgBufferSize c' = hostMsgBufferSize c := by
  unfold hostMsgBufferSize
  rw [h.buffer]

/-- The snapshots say how the host buffer is now. -/
structure Snapshots (c : PThreadContext A n) (w : WaitLocals) : Prop where
  adequate : w.adequateHostBufferSpace = decide (maxHostPerHandler ≤ hostMsgBufferSpace c)
  empty : w.hostBufferEmpty = (hostMsgBufferSize c == 0)

theorem Snapshots.same (h : Snapshots c w) (hsame : HostSame c c') : Snapshots c' w := by
  have hspace : hostMsgBufferSpace c' = hostMsgBufferSpace c := by
    unfold hostMsgBufferSpace
    rw [hsame.size_eq]
  exact ⟨hspace ▸ h.adequate, hsame.size_eq ▸ h.empty⟩

/-- Between the steps of the main loop the buffer is not full. -/
def HostQueued (th : PThread A n) (c₀ : PThreadContext A n) (s : Main A n) : Prop :=
  match s.pc with
  | .parked => n = 0
  | .top => Queues th c₀ 0 s.ctxt
  | .wait w => Queues th c₀ 0 s.ctxt ∧ Snapshots s.ctxt w

/-- So it is where a thread stops. -/
def StopQueued (th : PThread A n) (c₀ : PThreadContext A n) (st : Stop A n) : Prop :=
  Queues th c₀ 0 st.ctxt

theorem loopTop_queued (hprofile : th.build.enableProfile = none) (hth : th.PushesAtMost 1)
    (h : Queues th c₀ 0 s.ctxt) : Sat (loopTop th s i) (HostQueued th c₀) (StopQueued th c₀) := by
  have hsame : HostSame s.ctxt (s.ctxt.tick th) := ⟨rfl, rfl⟩
  have hwaits : HostQueued th c₀
      { s with ctxt := s.ctxt.tick th, pc := .wait (waitLocals s) } :=
    ⟨h.same hsame, Snapshots.same ⟨rfl, rfl⟩ hsame⟩
  unfold loopTop
  dsimp only
  split
  · have hidle := (queues_rules.softswitchOnIdle hth (h.same hsame)).and
      (softswitchOnIdle_sat.mono (fun _ h => h) fun _ _ => (trivial : True))
    refine Sat.bind (hidle.mono (fun _ h => h) fun st hst => hst.1) fun out _ hout => ?_
    obtain ⟨more, c⟩ := out
    cases more with
    | true => exact hout.1
    | false =>
      have hover : (false, c) = (false, s.ctxt.tick th) := by
        rcases hout.2 with ⟨-, heq⟩ | ⟨-, -, -, heq⟩ | ⟨-, -, _, _, -, heq, -⟩
        · exact heq
        · cases heq
        · cases heq
      cases hover
      unfold perfmonIdle
      rw [hprofile]
      exact hwaits
  · exact hwaits

theorem waitPhase_same : Sat (waitPhase th s w) (fun s' => HostSame s.ctxt s'.ctxt)
    (fun st => HostSame s.ctxt st.ctxt) := by
  unfold waitPhase
  dsimp only
  split
  · exact check_reads.then ⟨rfl, rfl⟩ fun _ _ => ⟨rfl, rfl⟩
  · exact ⟨rfl, rfl⟩

/-- The drain loop pops one message, if there is too little space. -/
theorem Queues.makeAdequate_eq (h : Queues th c₀ 0 c) (hw : Snapshots c w) :
    ∃ c', makeAdequate c w = .ok c' ∧ Queues th c₀ 1 c' ∧
      (hostMsgBufferSize c' = 0 ↔ hostMsgBufferSize c = 0) ∧
      hostMsgBufferSize c' ≤ hostMsgBufferSize c := by
  have hsize := h.size_lt
  have hadequate := hw.adequate
  unfold makeAdequate
  unfold hostMsgBufferSpace at hadequate
  split
  · rename_i hspace
    rw [hspace, eq_comm, decide_eq_true_eq] at hadequate
    simp only [maxHostPerHandler] at hadequate
    exact ⟨c, rfl, h.of_size (by omega), Iff.rfl, le_rfl⟩
  · rename_i hspace
    rw [Bool.eq_false_iff.2 hspace, eq_comm, decide_eq_false_iff_not] at hadequate
    simp only [maxHostPerHandler, hostbufferSize] at hadequate hsize
    obtain ⟨hpop, hless⟩ := h.pop (.inr rfl) (by omega)
    have hless : hostMsgBufferSize (hostMessageSlowPopSend c) + 1 = hostMsgBufferSize c := hless
    have hnow : maxHostPerHandler ≤ hostMsgBufferSpace (hostMessageSlowPopSend c) := by
      simp only [maxHostPerHandler, hostMsgBufferSpace, hostbufferSize]
      omega
    exact ⟨hostMessageSlowPopSend c, if_pos hnow, hpop, by omega, by omega⟩

theorem act_queues (hth : th.PushesAtMost 1) (h : Queues th c₀ 1 s.ctxt)
    (hempty : w.hostBufferEmpty = (hostMsgBufferSize s.ctxt == 0)) :
    Sat (act th s w true i) (fun s' => Queues th c₀ 0 s'.ctxt) (StopQueued th c₀) := by
  have hP : HostRules (Queues th c₀) := queues_rules
  have hbranch : Sat (sendBranch th s w true i) (fun s' => Queues th c₀ 0 s'.ctxt)
      (StopQueued th c₀) := by
    refine check_reads.then h.weaken fun _ _ => check_reads.then h.weaken fun _ _ => ?_
    split
    · rename_i hne
      have hpos : hostMsgBufferSize s.ctxt ≠ 0 := by simpa [hempty] using hne
      exact (h.pop (.inl rfl) (Nat.pos_of_ne_zero hpos)).1.weaken.weaken
    · rename_i hnone
      -- the buffer is empty, and two handlers may run
      have hzero : hostMsgBufferSize s.ctxt = 0 := by simpa [hempty] using hnone
      have htwo : Queues th c₀ (1 + 1) s.ctxt := h.of_size (by rw [hzero]; decide)
      refine Sat.bind ((hP.prepare hth htwo).mono (fun _ h => h) fun _ => Queues.weaken)
        fun s₁ _ h₁ => ?_
      split
      · exact hP.deliver hth h₁
      · exact h₁.weaken
  unfold act
  split
  · split
    · exact hbranch
    · exact hP.receiveBranch hth h
  · split
    · exact hP.receiveBranch hth h
    · exact check_reads.then h.weaken fun _ _ => hbranch

theorem wake_queued (hth : th.PushesAtMost 1) (h : Queues th c₀ 0 s.ctxt)
    (hw : Snapshots s.ctxt w) : Sat (wake th s w i) (HostQueued th c₀) (StopQueued th c₀) := by
  unfold wake
  refine Sat.bind (waitPhase_same.mono (fun _ h => h) fun st hst => h.same hst) fun s₁ _ h₁ => ?_
  split
  · exact Sat.bind (queues_rules.softswitchOnHardwareIdle hth (h.same h₁)) fun c₂ _ h₂ => h₂
  · obtain ⟨c₂, heq, h₂, hzero, -⟩ := (h.same h₁).makeAdequate_eq (hw.same h₁)
    rw [heq, ok_bind]
    refine Sat.bind (act_queues hth h₂ ?_) fun s₃ _ h₃ => h₃
    rw [(hw.same h₁).empty, Bool.eq_iff_iff, beq_iff_eq, beq_iff_eq]
    exact hzero.symm

/-- One step of the main loop, also where it stops. -/
theorem mainStep_queued (hprofile : th.build.enableProfile = none) (hth : th.PushesAtMost 1)
    (h : HostQueued th c₀ s) : Sat (mainStep th s i) (HostQueued th c₀) (StopQueued th c₀) := by
  unfold mainStep
  unfold HostQueued at h
  split
  · exact h
  · rename_i hpc
    rw [hpc] at h
    exact loopTop_queued hprofile hth h
  · rename_i w hpc
    rw [hpc] at h
    exact wake_queued hth h.1 h.2

/-! ## Runs -/

theorem softswitchMain_queued {buf : Message A} (hth : th.PushesAtMost 1) (hstart : c.trace = []) :
    Sat (softswitchMain th c buf) (HostQueued th (emptiedBuffer c))
      (StopQueued th (emptiedBuffer c)) := by
  unfold softswitchMain
  split
  · rename_i hn
    exact hn
  · refine Sat.bind (queues_rules.softswitchInit hth (.start ⟨rfl, rfl, rfl, hstart⟩ (by decide)))
      fun c₁ _ h₁ => ?_
    exact h₁.same ⟨rfl, rfl⟩

theorem runList_queued {inputs : List (LoopInput A)} (hprofile : th.build.enableProfile = none)
    (hth : th.PushesAtMost 1) (h : HostQueued th c₀ s) :
    Sat (runList (mainStep th) s inputs) (HostQueued th c₀) (StopQueued th c₀) :=
  Sat.foldlM (fun _ _ _ hs => mainStep_queued hprofile hth hs) h

theorem mainRun_queued {buf : Message A} {inputs : List (LoopInput A)}
    (hprofile : th.build.enableProfile = none) (hth : th.PushesAtMost 1) (hstart : c.trace = []) :
    Sat (mainRun th c buf inputs) (HostQueued th (emptiedBuffer c))
      (StopQueued th (emptiedBuffer c)) :=
  Sat.bind (softswitchMain_queued hth hstart) fun _ _ h => runList_queued hprofile hth h

theorem HostQueued.queues (h : HostQueued th c₀ s) (hn : n ≠ 0) : Queues th c₀ 0 s.ctxt := by
  unfold HostQueued at h
  split at h
  · exact absurd h hn
  · exact h
  · exact h.1

/-- While the mailbox takes messages and has none, the buffer becomes empty. -/
theorem queue_sent (hprofile : th.build.enableProfile = none) (hth : th.PushesAtMost 1)
    (h : HostQueued th c₀ s) (hpc : s.pc = .top) (hrecv : i.canRecv = false)
    (hsend : i.canSend = true) :
    ∃ k s', runList (mainStep th) s (List.replicate k i) = .ok s' ∧
      Queues th c₀ 0 s'.ctxt ∧ hostMsgBufferSize s'.ctxt = 0 := by
  have htop : ∀ {s : Main A n}, HostQueued th c₀ s → s.pc = .top → Queues th c₀ 0 s.ctxt := by
    intro s h hpc
    unfold HostQueued at h
    rw [hpc] at h
    exact h
  have hstep : ∀ s : Main A n, (HostQueued th c₀ s ∧ s.pc = .top) →
      0 < hostMsgBufferSize s.ctxt →
      ∃ s', runList (mainStep th) s (List.replicate 2 i) = .ok s' ∧
        (HostQueued th c₀ s' ∧ s'.pc = .top) ∧
        hostMsgBufferSize s'.ctxt < hostMsgBufferSize s.ctxt := by
    rintro s ⟨h, hpc⟩ hpos
    have hspent : ∀ p, HostSame s.ctxt { s.ctxt with toPerf := p } := fun _ => ⟨rfl, rfl⟩
    have hadequate : ∀ p, ∃ c', makeAdequate { s.ctxt with toPerf := p } (waitLocals s) = .ok c' ∧
        Queues th c₀ 0 c' ∧ 0 < hostMsgBufferSize c' ∧
        hostMsgBufferSize c' ≤ hostMsgBufferSize s.ctxt := by
      intro p
      have hsnapshots : Snapshots s.ctxt (waitLocals s) := ⟨rfl, rfl⟩
      obtain ⟨c', heq, hc', hzero, hle⟩ :=
        ((htop h hpc).same (hspent p)).makeAdequate_eq (hsnapshots.same (hspent p))
      have hne : hostMsgBufferSize { s.ctxt with toPerf := p } ≠ 0 := hpos.ne'
      exact ⟨c', heq, hc'.weaken, Nat.pos_of_ne_zero (mt hzero.1 hne), hle⟩
    obtain ⟨s', c', hrun, hpc', hctxt, hc', hpos', hle⟩ :=
      iteration_pops hpc hpos.ne' hrecv hsend hadequate
    refine ⟨s', hrun, ⟨(runList_queued hprofile hth h).of_ok hrun, hpc'⟩, ?_⟩
    rw [hctxt]
    have hless := (hc'.pop (.inl rfl) hpos').2
    exact Nat.lt_of_lt_of_le (Nat.lt_of_succ_le hless.le) hle
  obtain ⟨k, s', -, hrun, ⟨h', hpc'⟩, hzero⟩ := runList_exhausts hstep ⟨h, hpc⟩
  exact ⟨k, s', hrun, htop h' hpc', hzero⟩

/-- In a build that does not profile, where a handler that receives or sends pushes one host message
at most and the others push none, the thread does about host messages in every run what a queue
without bound does: the size is right, and what has left is what left the queue, in order.  From the
loop top all of the queue leaves while the mailbox takes messages and has none. -/
theorem hostMessages_survive {buf : Message A} {inputs : List (LoopInput A)}
    (hprofile : th.build.enableProfile = none) (hth : th.PushesAtMost 1) (hn : n ≠ 0)
    (hstart : c.trace = []) :
    Sat (mainRun th c buf inputs)
      (fun s => Survives th (emptiedBuffer c) s.ctxt ∧
        (s.pc = .top → ∀ i : LoopInput A, i.canRecv = false → i.canSend = true →
          ∃ k s', runList (mainStep th) s (List.replicate k i) = .ok s' ∧
            Survives th (emptiedBuffer c) s'.ctxt ∧ hostMsgBufferSize s'.ctxt = 0))
      (fun st => Survives th (emptiedBuffer c) st.ctxt) := by
  refine (mainRun_queued hprofile hth hstart).mono (fun s h => ⟨(h.queues hn).survives, ?_⟩)
    fun st h => h.survives
  intro hpc i hrecv hsend
  obtain ⟨k, s', hrun, h', hzero⟩ := queue_sent hprofile hth h hpc hrecv hsend
  exact ⟨k, s', hrun, h'.survives, hzero⟩

/-! ## Devices that push -/

/-- Devices that push `msgs` when they receive. -/
def pushingVTable (msgs : List HostMsg) : DeviceTypeVTable flagsApp where
  initHandler _ _ s := ⟨s, []⟩
  readyToSendHandler _ _ s := ⟨⟨s, []⟩, 0#32⟩
  outputPins := []
  inputPins := [⟨fun _ _ s _ _ _ => ⟨⟨s, msgs.map .hostMsgBufferPush⟩, none⟩, 0#16, 0#16, 0#32⟩]
  computeHandler _ _ s := ⟨s, []⟩
  onHardwareIdleHandler := none

def pushingThread (msgs : List HostMsg) : PThread flagsApp 2 :=
  { flagsThread (defaultBuild false) with
    device := fun d =>
      { (flagsThread (defaultBuild false)).device d with vtable := pushingVTable msgs }
    devices_fit := flagsThread_fits }

theorem pushingThread_pushes (msgs : List HostMsg) :
    (pushingThread msgs).PushesAtMost msgs.length := by
  have hnil : ∀ msg, HandlerCall.hostMsgBufferPush msg ∉ ([] : List HandlerCall) := by simp
  refine ⟨fun _ _ _ => hnil, fun _ _ _ => hnil, ?_, ?_, fun _ _ _ => hnil, ?_⟩
  · intro d pin hpin
    cases hpin
  · intro d pin hpin
    obtain rfl := List.mem_singleton.1 hpin
    intro _ _ _ _ _
    exact List.countP_le_length.trans (List.length_map _).le
  · intro d handler hhandler
    cases hhandler

/-- A message has arrived, and the mailbox takes none. -/
def arrival : LoopInput flagsApp := ⟨true, false, false, flagsMessage 0#16 0#32⟩

/-- The run of the thread when one message after the other arrives. -/
def arrivals (msgs : List HostMsg) (k : Nat) : Outcome flagsApp 2 (Main flagsApp 2) :=
  mainRun (pushingThread msgs) (flagsContext 0#32 0#32) (flagsMessage 0#16 0#32)
    (List.replicate (2 * k) arrival)

theorem hostMessages_survive_arrivals : ∃ s, arrivals [someMsg] 2 = .ok s ∧
    hostMsgBufferSize s.ctxt = 2 ∧
    Survives (pushingThread [someMsg]) (emptiedBuffer (flagsContext 0#32 0#32)) s.ctxt := by
  obtain ⟨s, hrun, hsize⟩ : ∃ s, arrivals [someMsg] 2 = .ok s ∧ hostMsgBufferSize s.ctxt = 2 :=
    ⟨_, rfl, rfl⟩
  have hn : 2 ≠ 0 := by decide
  have hprofile : (pushingThread [someMsg]).build.enableProfile = none := rfl
  have hsurvive :=
    (hostMessages_survive hprofile (pushingThread_pushes [someMsg]) hn rfl).of_ok hrun
  exact ⟨s, hrun, hsize, hsurvive.1⟩

/-- As many messages are pending as are in the queue. -/
theorem HostActs.pending_eq {acts : List HostAct} {Q : HostQueue} (h : HostActs th c₀ acts c)
    (hrun : HostQueue.run acts = some Q) (hstart : c₀.hostPending = 0) :
    c.hostPending = Q.queue.length := by
  induction h generalizing Q with
  | start =>
    obtain rfl := Option.some.inj hrun
    exact hstart
  | same _ hsame ih =>
    rw [congrArg HostBuffer.hostPending hsame.buffer]
    exact ih hrun
  | buffer op _ ih =>
    obtain ⟨⟨queue, left⟩, hQ, hact⟩ := HostQueue.run_append_eq hrun
    have hpending := ih hQ
    cases op with
    | push msg =>
      obtain rfl := Option.some.inj hact
      rw [List.length_append]
      exact congrArg (· + 1) hpending
    | popSend =>
      cases queue with
      | nil => cases hact
      | cons msg queue =>
        obtain rfl := Option.some.inj hact
        exact congrArg (· - 1) hpending
    | slowPop =>
      cases queue with
      | nil => cases hact
      | cons msg queue =>
        obtain rfl := Option.some.inj hact
        exact congrArg (· - 1) hpending
  | slowSend msg _ ih =>
    obtain ⟨Q₀, hQ, hact⟩ := HostQueue.run_append_eq hrun
    have hpending := ih hQ
    obtain rfl := Option.some.inj hact
    exact hpending

set_option maxRecDepth 4000 in
/-- Where a handler pushes `MAX_HOST_PER_HANDLER` messages, twenty arrivals fill the buffer, and
then it looks empty. -/
theorem hostMessages_lost : ∃ s, arrivals (List.replicate maxHostPerHandler someMsg) 20 = .ok s ∧
    ¬Survives (pushingThread (List.replicate maxHostPerHandler someMsg))
      (emptiedBuffer (flagsContext 0#32 0#32)) s.ctxt := by
  obtain ⟨s, hrun, hpending, hsize⟩ : ∃ s,
      arrivals (List.replicate maxHostPerHandler someMsg) 20 = .ok s ∧
        s.ctxt.hostPending = 40 ∧ hostMsgBufferSize s.ctxt = 0 := ⟨_, rfl, rfl, rfl⟩
  refine ⟨s, hrun, ?_⟩
  rintro ⟨acts, Q, hacts, hQ, -, -, hlength⟩
  have heq := hacts.pending_eq hQ rfl
  omega

end Softswitch
