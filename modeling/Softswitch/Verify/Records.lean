import Softswitch.Verify.HostTraffic

/-!
# Profiling records in the main loop

Where handlers push nothing, what is in the host buffer are the records that
`softswitch_flush_perfmon` pushed.  A flush is made after the snapshots of the loop top were
taken and may fill the buffer to its last cell; that it was nearly full is in the
snapshots, so the drain loop empties it before anything else asks for its size.
-/

namespace Softswitch

open Outcome RingBuffer Function

variable {A : AppTypes} {n : Nat} {th : PThread A n} {c c' c₀ : PThreadContext A n}
  {s s' : Main A n} {i : LoopInput A} {w : WaitLocals} {ops : List HostOp} {k : Nat}

/-! ## What is done to the host buffer -/

/-- What is pushed is at the tail. -/
theorem pushWords_cell (c : PThreadContext A n) (msg : HostMsg) (words : List (BitVec 32)) :
    (pushWords c msg words).hostBuffer c.hbufTail = (storeWords c msg 0 words).2 := by
  have hapart := (storeWords_apart c msg 0 words).1
  unfold pushWords hostMsgBufferPush
  dsimp only
  rw [hapart.buffer, update_self]

/-- The record that a flush in the context `c` writes. -/
def perfmonRecord (th : PThread A n) (c : PThreadContext A n) : HostMsg :=
  (softswitchFlushPerfmon th c).hostBuffer c.hbufTail

/-- A flush is a push of its record. -/
theorem softswitchFlushPerfmon_push (th : PThread A n) (c : PThreadContext A n) :
    (softswitchFlushPerfmon th c).toHostBuffer =
      (hostMsgBufferPush c (perfmonRecord th c)).toHostBuffer ∧
    records (softswitchFlushPerfmon th c).trace = records c.trace ∧
    (perfmonRecord th c).isRecord = true := by
  have hpush : ∀ {msg : HostMsg} {words : List (BitVec 32)}, msg.isRecord = true →
      (pushWords c msg words).toHostBuffer =
        (hostMsgBufferPush c ((pushWords c msg words).hostBuffer c.hbufTail)).toHostBuffer ∧
      records (pushWords c msg words).trace = records c.trace ∧
      ((pushWords c msg words).hostBuffer c.hbufTail).isRecord = true := by
    intro msg words hmsg
    obtain ⟨hapart, htype⟩ := storeWords_apart c msg 0 words
    rw [pushWords_cell]
    refine ⟨?_, hapart.records, ?_⟩
    · unfold pushWords hostMsgBufferPush
      dsimp only
      rw [hapart.buffer]
    · unfold HostMsg.isRecord
      rw [htype]
      exact hmsg
  obtain ⟨msg, words, f, hmsg, heq⟩ : ∃ msg words f, HostMsg.isRecord msg = true ∧
      softswitchFlushPerfmon th c = (pushWords c msg words).mapPerf f := by
    unfold softswitchFlushPerfmon
    exact ⟨_, _, _, rfl, rfl⟩
  unfold perfmonRecord
  rw [heq]
  exact hpush hmsg

/-- From `c₀` to `c` the operations `ops` were made on the host buffer, and all pushes were
those of flushes. -/
inductive Buffered (th : PThread A n) (c₀ : PThreadContext A n) :
    List HostOp → PThreadContext A n → Prop
  | start : Buffered th c₀ [] c₀
  | apart {ops : List HostOp} {c c' : PThreadContext A n} (h : Buffered th c₀ ops c)
      (hapart : Apart c c') : Buffered th c₀ ops c'
  | flush {ops : List HostOp} {c : PThreadContext A n} (h : Buffered th c₀ ops c) :
      Buffered th c₀ (ops ++ [.push (perfmonRecord th c)]) (softswitchFlushPerfmon th c)
  | popSend {ops : List HostOp} {c : PThreadContext A n} (h : Buffered th c₀ ops c) :
      Buffered th c₀ (ops ++ [.popSend]) (hostMessageBufferPopSend th c)
  | slowPop {ops : List HostOp} {c : PThreadContext A n} (h : Buffered th c₀ ops c) :
      Buffered th c₀ (ops ++ [.slowPop]) (hostMessageSlowPopSend c)

/-- No pop is made on an empty buffer, and no push on a full one. -/
def WithinBounds (ops : List HostOp) : Prop :=
  ∀ pre post, ops = pre ++ post →
    pops pre ≤ (pushed pre).length ∧ (pushed pre).length ≤ pops pre + hostbufferSize

namespace WithinBounds

theorem nil : WithinBounds [] := by
  intro pre post h
  obtain ⟨rfl, rfl⟩ := List.append_eq_nil_iff.1 h.symm
  exact ⟨Nat.le_refl 0, Nat.zero_le _⟩

theorem snoc {op : HostOp} (h : WithinBounds ops)
    (hpops : pops (ops ++ [op]) ≤ (pushed (ops ++ [op])).length)
    (hpushed : (pushed (ops ++ [op])).length ≤ pops (ops ++ [op]) + hostbufferSize) :
    WithinBounds (ops ++ [op]) := by
  intro pre post hsplit
  rcases List.eq_nil_or_concat post with rfl | ⟨post', e, rfl⟩
  · rw [List.append_nil] at hsplit
    rw [← hsplit]
    exact ⟨hpops, hpushed⟩
  · rw [List.concat_eq_append, ← List.append_assoc] at hsplit
    exact h pre post' (List.append_inj' hsplit rfl).1

end WithinBounds

/-- The host buffer is empty, and nothing has happened. -/
structure Fresh (c : PThreadContext A n) : Prop where
  head : c.hbufHead = 0
  tail : c.hbufTail = 0
  pending : c.hostPending = 0
  trace : c.trace = []

/-- What the operations have brought about: all that was pushed are records, and those
popped have left. -/
structure Flows (ops : List HostOp) (c : PThreadContext A n) : Prop where
  queued : Queued hostbufferSize c.ring (pushed ops) (records c.trace)
  isRecord : ∀ msg ∈ pushed ops, msg.isRecord = true
  popped : (records c.trace).length = pops ops
  pending : c.hostPending + pops ops = (pushed ops).length

namespace Flows

theorem start (h : Fresh c) : Flows [] c := by
  have hring : c.ring = ⟨c.hostBuffer, 0, 0⟩ := by
    unfold PThreadContext.ring
    rw [h.head, h.tail]
  have hrecords : records c.trace = [] := by
    rw [h.trace]
    rfl
  refine ⟨?_, by simp [pushed], ?_, h.pending⟩
  · rw [hring, hrecords]
    exact Queued.empty (by decide)
  · rw [hrecords]
    rfl

theorem apart (h : Flows ops c) (hapart : Apart c c') : Flows ops c' := by
  have hring : c'.ring = c.ring := by
    unfold PThreadContext.ring
    rw [hapart.buffer]
  refine ⟨?_, h.isRecord, ?_, ?_⟩
  · rw [hring, hapart.records]
    exact h.queued
  · rw [hapart.records]
    exact h.popped
  · rw [hapart.buffer]
    exact h.pending

theorem push {msg : HostMsg} (h : Flows ops c)
    (hbuffer : c'.toHostBuffer = (hostMsgBufferPush c msg).toHostBuffer)
    (hrecords : records c'.trace = records c.trace) (hmsg : msg.isRecord = true)
    (hfree : (pushed ops).length < pops ops + hostbufferSize) :
    Flows (ops ++ [.push msg]) c' := by
  have hpushed : pushed (ops ++ [.push msg]) = pushed ops ++ [msg] := by
    simp [pushed_append, pushed]
  have hpops : pops (ops ++ [.push msg]) = pops ops := by simp [pops_append, pops]
  have hring : c'.ring = ⟨update c.ring.cells c.ring.tail msg, c.ring.head,
      next hostbufferSize c.ring.tail⟩ := by
    unfold PThreadContext.ring
    rw [hbuffer]
    rfl
  refine ⟨?_, ?_, ?_, ?_⟩
  · rw [hring, hpushed, hrecords]
    apply h.queued.push
    rw [h.popped]
    exact hfree
  · intro m hm
    rw [hpushed, List.mem_append, List.mem_singleton] at hm
    rcases hm with hm | rfl
    · exact h.isRecord m hm
    · exact hmsg
  · rw [hrecords, hpops]
    exact h.popped
  · have hpending : c'.hostPending = c.hostPending + 1 := by
      rw [hbuffer]
      rfl
    rw [hpending, hpops, hpushed, List.length_append, List.length_singleton, ← h.pending]
    omega

/-- A pop of either kind. -/
theorem pop {op : HostOp} (h : Flows ops c) (hop : op = .popSend ∨ op = .slowPop)
    (hbuffer : c'.toHostBuffer = ⟨c.hostBuffer, wrapNext c.hbufHead, c.hbufTail, c.hostPending - 1⟩)
    (hout : outputs c'.trace = outputs c.trace ++ [c.hostBuffer c.hbufHead])
    (hne : pops ops < (pushed ops).length) : Flows (ops ++ [op]) c' := by
  have hpushed : pushed (ops ++ [op]) = pushed ops := by
    rcases hop with rfl | rfl <;> simp [pushed_append, pushed]
  have hpops : pops (ops ++ [op]) = pops ops + 1 := by
    rcases hop with rfl | rfl <;> simp [pops_append, pops]
  have hring : c'.ring = ⟨c.ring.cells, next hostbufferSize c.ring.head, c.ring.tail⟩ := by
    unfold PThreadContext.ring
    rw [hbuffer]
    rfl
  have hne' : (records c.trace).length < (pushed ops).length := h.popped ▸ hne
  -- what is popped was pushed, so it is a record
  have hfront : (c.hostBuffer c.hbufHead).isRecord = true :=
    h.isRecord _ (h.queued.front_mem hne')
  have hrecords : records c'.trace = records c.trace ++ [c.ring.cells c.ring.head] := by
    unfold records
    rw [hout, List.filter_append]
    simp [PThreadContext.ring, hfront]
  refine ⟨?_, ?_, ?_, ?_⟩
  · rw [hring, hpushed, hrecords]
    exact h.queued.pop hne'
  · rw [hpushed]
    exact h.isRecord
  · rw [hrecords, hpops, List.length_append, h.popped, List.length_singleton]
  · have hpending : c'.hostPending = c.hostPending - 1 := by rw [hbuffer]
    have := h.pending
    rw [hpending, hpops, hpushed]
    omega

end Flows

/-! ## The flow of records -/

/-- From `c₀` on nothing was popped from an empty buffer or pushed on a full one, and at
most `k` records are pending. -/
def Flow (th : PThread A n) (c₀ : PThreadContext A n) (k : Nat) (c : PThreadContext A n) : Prop :=
  ∃ ops, Buffered th c₀ ops c ∧ WithinBounds ops ∧ Flows ops c ∧ c.hostPending ≤ k

namespace Flow

theorem of_pending {j : Nat} (h : Flow th c₀ k c) (hj : c.hostPending ≤ j) : Flow th c₀ j c := by
  obtain ⟨ops, hops, hbounds, hflows, -⟩ := h
  exact ⟨ops, hops, hbounds, hflows, hj⟩

theorem pending_le (h : Flow th c₀ k c) : c.hostPending ≤ k := by
  obtain ⟨ops, -, -, -, hk⟩ := h
  exact hk

theorem mono {j : Nat} (h : Flow th c₀ k c) (hkj : k ≤ j) : Flow th c₀ j c :=
  h.of_pending (h.pending_le.trans hkj)

theorem start (h : Fresh c) : Flow th c k c :=
  ⟨[], .start, .nil, .start h, by rw [h.pending]; exact Nat.zero_le k⟩

theorem apart (h : Flow th c₀ k c) (hapart : Apart c c') : Flow th c₀ k c' := by
  obtain ⟨ops, hops, hbounds, hflows, hk⟩ := h
  refine ⟨ops, hops.apart hapart, hbounds, hflows.apart hapart, ?_⟩
  rw [hapart.buffer]
  exact hk

/-- The size is right, as long as the buffer is not full. -/
theorem size_eq (h : Flow th c₀ k c) (hk : c.hostPending < hostbufferSize) :
    hostMsgBufferSize c = c.hostPending := by
  obtain ⟨ops, -, -, hflows, -⟩ := h
  have hpending := hflows.pending
  have hsize := hflows.queued.size_eq (by rw [hflows.popped]; omega)
  rw [hostMsgBufferSize_eq]
  rw [hflows.popped] at hsize
  omega

theorem flush (h : Flow th c₀ k c) (hk : k < hostbufferSize) :
    Flow th c₀ (k + 1) (softswitchFlushPerfmon th c) := by
  obtain ⟨ops, hops, hbounds, hflows, hle⟩ := h
  obtain ⟨hbuffer, hrecords, hrecord⟩ := softswitchFlushPerfmon_push th c
  have hpending := hflows.pending
  have hfree : (pushed ops).length < pops ops + hostbufferSize := by omega
  refine ⟨_, hops.flush, hbounds.snoc ?_ ?_, hflows.push hbuffer hrecords hrecord hfree, ?_⟩
  · simp only [pushed_append, pops_append, pushed, pops, List.length_append]
    omega
  · simp only [pushed_append, pops_append, pushed, pops, List.length_append, List.length_cons,
      List.length_nil]
    omega
  · rw [softswitchFlushPerfmon_pending]
    omega

/-- A pop where there is something to pop. -/
theorem pop {op : HostOp} (h : Flow th c₀ k c) (hop : op = .popSend ∨ op = .slowPop)
    (hpos : 0 < c.hostPending) : Flow th c₀ (k - 1) (hostStep th c op) := by
  obtain ⟨ops, hops, hbounds, hflows, hle⟩ := h
  have hpending := hflows.pending
  have hne : pops ops < (pushed ops).length := by omega
  have hlast := (hbounds ops [] (List.append_nil _).symm).2
  have hbounds' : WithinBounds (ops ++ [op]) := by
    refine hbounds.snoc ?_ ?_ <;> rcases hop with rfl | rfl <;>
      simp only [pushed_append, pops_append, pushed, pops, List.append_nil] <;> omega
  rcases hop with rfl | rfl
  · exact ⟨_, hops.popSend, hbounds', hflows.pop (.inl rfl) rfl outputs_append hne,
      Nat.sub_le_sub_right hle 1⟩
  · exact ⟨_, hops.slowPop, hbounds', hflows.pop (.inr rfl) rfl outputs_append hne,
      Nat.sub_le_sub_right hle 1⟩

/-- While the buffer is not full, a handler that pushes nothing keeps the flow. -/
theorem hostClosed (hk : k < hostbufferSize) : HostClosed (Flow th c₀ k) where
  apart h hapart := h.apart hapart
  slowPop h hsize := by
    rw [h.size_eq (h.pending_le.trans_lt hk)] at hsize
    exact (h.pop (.inr rfl) hsize).mono (Nat.sub_le k 1)
  space h := by
    have hpending := h.pending_le
    unfold hostMsgBufferSpace
    rw [h.size_eq (hpending.trans_lt hk)]
    omega

end Flow

/-! ## The main loop -/

/-- The number of pending records between the steps of the main loop. -/
def Flowing (th : PThread A n) (c₀ : PThreadContext A n) (s : Main A n) : Prop :=
  match s.pc with
  | .parked => n = 0
  | .top => Flow th c₀ 39 s.ctxt
  | .wait w => Flow th c₀ 40 s.ctxt ∧
      (w.adequateHostBufferSpace = true → Flow th c₀ 39 s.ctxt) ∧
      (w.wantToSend = false → w.adequateHostBufferSpace = true)

/-- The flow of a thread that stops. -/
def StopFlow (th : PThread A n) (c₀ : PThreadContext A n) (st : Stop A n) : Prop :=
  Flow th c₀ 40 st.ctxt

theorem Flow.hostClosed_top : HostClosed (Flow th c₀ 39) := Flow.hostClosed (by decide)

theorem perfmonFlush_flow (h : Flow th c₀ k c) (hk : k < hostbufferSize) :
    Flow th c₀ (k + 1) (perfmonFlush th c) := by
  have hP : HostClosed (Flow th c₀ k) := Flow.hostClosed hk
  have hflush : ∀ {c₁ : PThreadContext A n}, Flow th c₀ k c₁ →
      Flow th c₀ (k + 1) (softswitchFlushPerfmon th (makeSpace c₁)) := by
    intro c₁ h₁
    rw [hP.makeSpace_eq h₁]
    exact h₁.flush hk
  unfold perfmonFlush
  apply Flow.apart _ .mapPerf
  apply Flow.apart _ .mapPerf
  exact hflush (hP.mapPerf (hP.tick (hP.mapPerf (hP.tick h))))

theorem perfmonIdle_flow {t : BitVec 32} (h : Flow th c₀ k s.ctxt) (hk : k < hostbufferSize) :
    Flow th c₀ (k + 1) (perfmonIdle th s t).ctxt := by
  have hread : ∀ {f : Perf → Perf}, Flow th c₀ k (s.ctxt.mapPerf f) :=
    (Flow.hostClosed hk).mapPerf h
  unfold perfmonIdle
  cases th.build.enableProfile with
  | none => exact h.mono (Nat.le_succ k)
  | some rate =>
    dsimp only
    split
    · split
      · exact hread.mono (Nat.le_succ k)
      · exact perfmonFlush_flow hread hk
    · exact h.mono (Nat.le_succ k)

/-- Snapshots that promise adequate space promise it for one more record. -/
theorem Flow.of_adequate (h : Flow th c₀ 39 s.ctxt)
    (hspace : (waitLocals s).adequateHostBufferSpace = true) : Flow th c₀ 38 s.ctxt := by
  have hpending := h.pending_le
  have hspace : maxHostPerHandler ≤ hostMsgBufferSpace s.ctxt := of_decide_eq_true hspace
  unfold hostMsgBufferSpace at hspace
  rw [h.size_eq (by unfold hostbufferSize; omega)] at hspace
  simp only [maxHostPerHandler, hostbufferSize] at hspace
  exact h.of_pending (by omega)

/-- Where there is nothing to send, there is adequate space. -/
theorem waitLocals_adequate (hw : (waitLocals s).wantToSend = false) :
    (waitLocals s).adequateHostBufferSpace = true := by
  have hempty : hostMsgBufferSize s.ctxt = 0 := by
    unfold waitLocals at hw
    simp at hw
    exact hw.2
  unfold waitLocals hostMsgBufferSpace
  rw [hempty]
  rfl

theorem loopTop_flowing (hth : th.PushFree) (h : Flow th c₀ 39 s.ctxt) :
    Sat (loopTop th s i) (Flowing th c₀) (StopFlow th c₀) := by
  have htick : Flow th c₀ 39 (s.ctxt.tick th) := Flow.hostClosed_top.tick h
  have hwaits : ∀ {s₁ : Main A n}, Flow th c₀ 40 s₁.ctxt →
      ((waitLocals s).adequateHostBufferSpace = true → Flow th c₀ 39 s₁.ctxt) →
      Flowing th c₀ { s₁ with pc := .wait (waitLocals s) } :=
    fun h₁ hspace => ⟨h₁, hspace, waitLocals_adequate⟩
  unfold loopTop
  dsimp only
  split
  · have hidle := (Flow.hostClosed_top.softswitchOnIdle hth htick).and
      (softswitchOnIdle_sat.mono (fun _ h => h) fun _ _ => (trivial : True))
    refine Sat.bind (hidle.mono (fun _ h => h) fun st hst => hst.1.mono (by decide))
      fun out _ hout => ?_
    obtain ⟨more, c⟩ := out
    cases more with
    | true => exact hout.1
    | false =>
      have hover : (false, c) = (false, s.ctxt.tick th) := by
        rcases hout.2 with ⟨-, heq⟩ | ⟨-, -, -, heq⟩ | ⟨-, -, _, _, -, heq, -⟩
        · exact heq
        · cases heq
        · cases heq
      cases hover
      refine hwaits (perfmonIdle_flow htick (by decide)) fun hspace => ?_
      have hfew : Flow th c₀ 38 (s.ctxt.tick th) :=
        (Flow.hostClosed (by decide)).tick (h.of_adequate hspace)
      exact perfmonIdle_flow hfew (by decide)
  · have hwide : Flow th c₀ 40 (s.ctxt.tick th) := htick.mono (by decide)
    exact @hwaits { s with ctxt := s.ctxt.tick th } hwide fun _ => htick

theorem waitPhase_apart : Sat (waitPhase th s w) (fun s' => Apart s.ctxt s'.ctxt)
    (fun st => Apart s.ctxt st.ctxt) := by
  have htick : Apart s.ctxt (s.ctxt.tick th) := .mapPerf
  unfold waitPhase
  dsimp only
  split
  · exact check_reads.then htick fun _ _ => htick.trans .mapPerf
  · exact htick.trans .mapPerf

/-- The drain loop ends with adequate space, however full the buffer was. -/
theorem drainToAdequate_flow {fuel : Nat} (h : Flow th c₀ 40 c) (hmany : 1 < c.hostPending) :
    Sat (drainToAdequate fuel c) (fun c' => Flow th c₀ 39 c' ∧ 0 < c'.hostPending)
      (StopFlow th c₀) := by
  induction fuel generalizing c with
  | zero => exact h
  | succ fuel ih =>
    have hpop : Flow th c₀ 39 (hostMessageSlowPopSend c) := h.pop (.inr rfl) (by omega)
    have hpending : (hostMessageSlowPopSend c).hostPending = c.hostPending - 1 := rfl
    have hsize := hpop.size_eq (hpop.pending_le.trans_lt (by decide))
    unfold drainToAdequate
    dsimp only
    split
    · exact ⟨hpop, by omega⟩
    · rename_i hspace
      refine ih (hpop.mono (by decide)) ?_
      simp only [maxHostPerHandler, hostMsgBufferSpace, hostbufferSize] at hspace
      omega

theorem makeAdequate_flow (h : Flow th c₀ 40 c)
    (hspace : w.adequateHostBufferSpace = true → Flow th c₀ 39 c)
    (hnonempty : w.hostBufferEmpty = false → 0 < c.hostPending)
    (hfew : w.adequateHostBufferSpace = false → 1 < c.hostPending) :
    Sat (makeAdequate c w)
      (fun c' => Flow th c₀ 39 c' ∧ (w.hostBufferEmpty = false → 0 < c'.hostPending))
      (StopFlow th c₀) := by
  unfold makeAdequate
  split
  · rename_i hw
    exact ⟨hspace hw, hnonempty⟩
  · rename_i hw
    refine (drainToAdequate_flow h (hfew (by simpa using hw))).mono ?_ fun _ h => h
    exact fun c' h' => ⟨h'.1, fun _ => h'.2⟩

theorem act_flow (hth : th.PushFree) (h : Flow th c₀ 39 s.ctxt)
    (hnonempty : w.hostBufferEmpty = false → 0 < s.ctxt.hostPending) :
    Sat (act th s w true i) (fun s' => Flow th c₀ 39 s'.ctxt)
      (fun st => Flow th c₀ 39 st.ctxt) := by
  have hP : HostClosed (Flow th c₀ 39) := Flow.hostClosed_top
  have hbranch : Sat (sendBranch th s w true i) (fun s' => Flow th c₀ 39 s'.ctxt)
      (fun st => Flow th c₀ 39 st.ctxt) := by
    refine check_reads.then h fun _ _ => check_reads.then h fun _ _ => ?_
    split
    · rename_i hne
      exact (h.pop (.inl rfl) (hnonempty (by simpa using hne))).mono (by decide)
    · refine Sat.bind (hP.prepare hth h) fun s₁ _ h₁ => ?_
      split
      · exact hP.deliver hth h₁
      · exact h₁
  unfold act
  split
  · split
    · exact hbranch
    · exact hP.receiveBranch hth h
  · split
    · exact hP.receiveBranch hth h
    · exact check_reads.then h fun _ _ => hbranch

theorem wake_flowing (hth : th.PushFree) (hinv : HostInv s) (hpc : s.pc = .wait w)
    (h : Flow th c₀ 40 s.ctxt) (hspace : w.adequateHostBufferSpace = true → Flow th c₀ 39 s.ctxt)
    (hwant : w.wantToSend = false → w.adequateHostBufferSpace = true) :
    Sat (wake th s w i) (Flowing th c₀) (StopFlow th c₀) := by
  have hstop : ∀ {st : Stop A n}, Flow th c₀ 39 st.ctxt → StopFlow th c₀ st :=
    fun hst => hst.mono (by decide)
  unfold wake
  refine Sat.bind (waitPhase_apart.mono (fun _ h => h) fun st hst => h.apart hst) fun s₁ _ h₁ => ?_
  have hpending : s₁.ctxt.hostPending = s.ctxt.hostPending :=
    congrArg HostBuffer.hostPending h₁.buffer
  split
  · rename_i hcond
    have hw : w.wantToSend = false := by
      cases hw : w.wantToSend <;> simp_all
    have hwide : Flow th c₀ 39 s₁.ctxt := (hspace (hwant hw)).apart h₁
    refine Sat.bind ((Flow.hostClosed_top.softswitchOnHardwareIdle hth hwide).mono
      (fun _ h => h) fun _ => hstop) fun c₂ _ h₂ => ?_
    exact h₂
  · refine Sat.bind (makeAdequate_flow (h.apart h₁) (fun hw => (hspace hw).apart h₁) ?_ ?_)
      fun c₂ _ h₂ => ?_
    · exact fun hw => hpending ▸ hinv.nonempty w hpc hw
    · exact fun hw => hpending ▸ hinv.inadequate w hpc hw
    · refine Sat.bind ((act_flow hth h₂.1 h₂.2).mono (fun _ h => h) fun _ => hstop)
        fun s₃ _ h₃ => ?_
      exact h₃

/-- One step of the main loop, also where it stops. -/
theorem mainStep_flowing (hth : th.PushFree) (hinv : HostInv s) (h : Flowing th c₀ s) :
    Sat (mainStep th s i) (Flowing th c₀) (StopFlow th c₀) := by
  unfold mainStep
  unfold Flowing at h
  split
  · exact h
  · rename_i hpc
    rw [hpc] at h
    exact loopTop_flowing hth h
  · rename_i w hpc
    rw [hpc] at h
    exact wake_flowing hth hinv hpc h.1 h.2.1 h.2.2

/-! ## Runs -/

/-- The context in which the main loop is entered, but for the initialisation. -/
def emptiedBuffer (c : PThreadContext A n) : PThreadContext A n :=
  { c with hbufHead := 0, hbufTail := 0, hostPending := 0 }

theorem softswitchMain_flowing {buf : Message A} (hth : th.PushFree) (hstart : c.trace = []) :
    Sat (softswitchMain th c buf) (Flowing th (emptiedBuffer c))
      (StopFlow th (emptiedBuffer c)) := by
  have hP : HostClosed (Flow th (emptiedBuffer c) 39) := Flow.hostClosed_top
  unfold softswitchMain
  split
  · rename_i hn
    exact hn
  · refine Sat.bind ((hP.softswitchInit hth (.start ⟨rfl, rfl, rfl, hstart⟩)).mono (fun _ h => h)
      fun st hst => hst.mono (by decide)) fun c₁ _ h₁ => ?_
    have hread : Flow th (emptiedBuffer c) 39 ((c₁.tick th).mapPerf fun p =>
        { p with
          threadCyclesTstart := if th.build.enableProfile.isSome then tinselCycleCount th c₁
            else p.threadCyclesTstart }) := hP.mapPerf (hP.tick h₁)
    exact hread

theorem runList_flowing {inputs : List (LoopInput A)} (hth : th.PushFree) (hinv : HostInv s)
    (h : Flowing th c₀ s) :
    Sat (runList (mainStep th) s inputs) (fun s' => HostInv s' ∧ Flowing th c₀ s')
      (StopFlow th c₀) := by
  refine Sat.foldlM (fun s i _ hs => ?_) ⟨hinv, h⟩
  refine ((mainStep_sat hs.1).and (mainStep_flowing hth hs.1 hs.2)).mono
    (fun s' h => ?_) fun _ h => h.2
  exact ⟨h.1.hostInv hs.1, h.2⟩

theorem mainRun_flowing {buf : Message A} {inputs : List (LoopInput A)} (hth : th.PushFree)
    (hstart : c.trace = []) :
    Sat (mainRun th c buf inputs) (fun s => HostInv s ∧ Flowing th (emptiedBuffer c) s)
      (StopFlow th (emptiedBuffer c)) := by
  refine Sat.bind ((softswitchMain_sat.and (softswitchMain_flowing hth hstart)).mono
    (fun _ h => h) fun _ h => h.2) fun s₀ _ h₀ => ?_
  exact runList_flowing hth h₀.1.hostInv h₀.2

theorem Flowing.flow (h : Flowing th c₀ s) (hn : n ≠ 0) : Flow th c₀ 40 s.ctxt := by
  unfold Flowing at h
  split at h
  · exact absurd h hn
  · exact h.mono (by decide)
  · exact h.1

/-! ## Pending records leave -/

theorem act_popSend (hrecv : i.canRecv = false) (hsend : i.canSend = true)
    (hwant : w.wantToSend = true) (hne : w.hostBufferEmpty = false) :
    act th s w true i = .ok { s with ctxt := hostMessageBufferPopSend th s.ctxt } := by
  have hbranch : sendBranch th s w true i =
      .ok { s with ctxt := hostMessageBufferPopSend th s.ctxt } := by
    unfold sendBranch
    rw [hwant, hsend, hne, check_true, check_true]
    rfl
  unfold act
  rw [hrecv, hsend, hwant, hbranch]
  split
  · rfl
  · rw [Bool.false_and, if_neg (by simp), Bool.and_self, check_true]
    rfl

/-- One pop makes adequate space, if there was too little of it. -/
theorem Flow.makeAdequate_ok (h : Flow th c₀ 39 c) (hpos : 0 < c.hostPending) :
    ∃ c', makeAdequate c w = .ok c' ∧ c'.hostPending ≤ c.hostPending := by
  unfold makeAdequate
  split
  · exact ⟨c, rfl, le_rfl⟩
  · have hpop : Flow th c₀ 38 (hostMessageSlowPopSend c) := h.pop (.inr rfl) hpos
    have hsize := hpop.size_eq (hpop.pending_le.trans_lt (by decide))
    have hspace : maxHostPerHandler ≤ hostMsgBufferSpace (hostMessageSlowPopSend c) := by
      have := hpop.pending_le
      unfold hostMsgBufferSpace maxHostPerHandler hostbufferSize
      omega
    exact ⟨hostMessageSlowPopSend c, if_pos hspace, Nat.sub_le c.hostPending 1⟩

/-- While the mailbox takes messages and has none, an iteration sends a host message, if the buffer
reports one and can be drained. -/
theorem iteration_pops {R : PThreadContext A n → Prop} (hpc : s.pc = .top)
    (hne : hostMsgBufferSize s.ctxt ≠ 0) (hrecv : i.canRecv = false) (hsend : i.canSend = true)
    (hadequate : ∀ p, ∃ c', makeAdequate { s.ctxt with toPerf := p } (waitLocals s) = .ok c' ∧
      R c') :
    ∃ s' c', runList (mainStep th) s [i, i] = .ok s' ∧ s'.pc = .top ∧
      s'.ctxt = hostMessageBufferPopSend th c' ∧ R c' := by
  have hempty : (waitLocals s).hostBufferEmpty = false := beq_eq_false_iff_ne.2 hne
  have hwant : (waitLocals s).wantToSend = true := by
    show (_ || !(waitLocals s).hostBufferEmpty) = true
    rw [hempty, Bool.not_false, Bool.or_true]
  let s₁ : Main A n := { s with ctxt := s.ctxt.tick th, pc := .wait (waitLocals s) }
  have htop : mainStep th s i = .ok s₁ := by
    unfold mainStep
    rw [hpc]
    unfold loopTop
    dsimp only
    rw [hrecv, hsend, hwant]
    rfl
  obtain ⟨p, hwait⟩ : ∃ p, waitPhase th s₁ (waitLocals s) =
      .ok { s₁ with ctxt := { s₁.ctxt with toPerf := p } } :=
    waitPhase_ok fun _ _ hw => by simp [hwant] at hw
  obtain ⟨c₃, hdrained, hc₃⟩ := hadequate p
  have hdrained : makeAdequate { s₁.ctxt with toPerf := p } (waitLocals s) = .ok c₃ := hdrained
  let s₂ : Main A n := { s₁ with ctxt := hostMessageBufferPopSend th c₃, pc := .top }
  have hwake : mainStep th s₁ i = .ok s₂ := by
    show wake th s₁ (waitLocals s) i = _
    unfold wake
    rw [hwait, ok_bind, hwant, Bool.not_true, Bool.and_false, Bool.false_and, if_neg (by simp),
      hdrained, ok_bind, act_popSend hrecv hsend hwant hempty]
    rfl
  refine ⟨s₂, c₃, ?_, rfl, rfl, hc₃⟩
  rw [runList_cons, htop, ok_bind, runList_cons, hwake, ok_bind, runList_nil]

/-- While the mailbox takes messages and has none, an iteration sends a pending record. -/
theorem iteration_sends (h : Flow th c₀ 39 s.ctxt) (hpc : s.pc = .top)
    (hpos : 0 < s.ctxt.hostPending) (hrecv : i.canRecv = false) (hsend : i.canSend = true) :
    ∃ s', runList (mainStep th) s [i, i] = .ok s' ∧ s'.pc = .top ∧
      s'.ctxt.hostPending < s.ctxt.hostPending := by
  have hsize := h.size_eq (h.pending_le.trans_lt (by decide))
  have hspent : ∀ p, Apart s.ctxt { s.ctxt with toPerf := p } := fun _ => ⟨rfl, rfl⟩
  have hadequate : ∀ p, ∃ c', makeAdequate { s.ctxt with toPerf := p } (waitLocals s) = .ok c' ∧
      c'.hostPending ≤ s.ctxt.hostPending := fun p => (h.apart (hspent p)).makeAdequate_ok hpos
  obtain ⟨s', c', hrun, hpc', hctxt, hpending⟩ :=
    iteration_pops hpc (by omega) hrecv hsend hadequate
  refine ⟨s', hrun, hpc', ?_⟩
  rw [hctxt]
  show c'.hostPending - 1 < s.ctxt.hostPending
  omega

/-- While the mailbox takes messages and has none, all pending records are sent. -/
theorem pending_sent (hth : th.PushFree) (hinv : HostInv s) (h : Flowing th c₀ s)
    (hpc : s.pc = .top) (hrecv : i.canRecv = false) (hsend : i.canSend = true) :
    ∃ k s', k ≤ 2 * s.ctxt.hostPending ∧
      runList (mainStep th) s (List.replicate k i) = .ok s' ∧ s'.ctxt.hostPending = 0 := by
  have hstep : ∀ s : Main A n, (HostInv s ∧ Flowing th c₀ s ∧ s.pc = .top) →
      0 < s.ctxt.hostPending →
      ∃ s', runList (mainStep th) s (List.replicate 2 i) = .ok s' ∧
        (HostInv s' ∧ Flowing th c₀ s' ∧ s'.pc = .top) ∧
        s'.ctxt.hostPending < s.ctxt.hostPending := by
    rintro s ⟨hinv, h, hpc⟩ hpos
    have hflow : Flow th c₀ 39 s.ctxt := by
      unfold Flowing at h
      rw [hpc] at h
      exact h
    obtain ⟨s₁, hrun, hpc₁, hlt⟩ := iteration_sends hflow hpc hpos hrecv hsend
    obtain ⟨hinv₁, h₁⟩ := (runList_flowing hth hinv h).of_ok hrun
    exact ⟨s₁, hrun, ⟨hinv₁, h₁, hpc₁⟩, hlt⟩
  obtain ⟨k, s', hk, hrun, -, hnone⟩ := runList_exhausts hstep ⟨hinv, h, hpc⟩
  exact ⟨k, s', hk, hrun, hnone⟩

/-- Where handlers push nothing, every run of the main loop does to the host buffer what the
flushes, the sends and the drains do, and no more.  No pop is made on an empty buffer, no
push on a full one, and the records that have left are the first ones pushed, in order, the
others being in the buffer.  From the loop top those leave while the mailbox takes messages
and has none. -/
theorem records_survive {buf : Message A} {inputs : List (LoopInput A)} (hth : th.PushFree)
    (hn : n ≠ 0) (hstart : c.trace = []) :
    Sat (mainRun th c buf inputs)
      (fun s =>
        (∃ ops, Buffered th (emptiedBuffer c) ops s.ctxt ∧ WithinBounds ops ∧
          Flows ops s.ctxt) ∧
        (s.pc = .top → ∀ i : LoopInput A, i.canRecv = false → i.canSend = true →
          ∃ k s' ops, runList (mainStep th) s (List.replicate k i) = .ok s' ∧
            Buffered th (emptiedBuffer c) ops s'.ctxt ∧ records s'.ctxt.trace = pushed ops))
      (fun st => ∃ ops, Buffered th (emptiedBuffer c) ops st.ctxt ∧ WithinBounds ops ∧
        Flows ops st.ctxt) := by
  have hflow : ∀ {c₁ : PThreadContext A n}, Flow th (emptiedBuffer c) 40 c₁ →
      ∃ ops, Buffered th (emptiedBuffer c) ops c₁ ∧ WithinBounds ops ∧ Flows ops c₁ := by
    rintro c₁ ⟨ops, hops, hbounds, hflows, -⟩
    exact ⟨ops, hops, hbounds, hflows⟩
  refine (mainRun_flowing hth hstart).mono (fun s h => ⟨hflow (h.2.flow hn), ?_⟩)
    fun st h => hflow h
  intro hpc i hrecv hsend
  obtain ⟨k, s', -, hrun, hnone⟩ := pending_sent hth h.1 h.2 hpc hrecv hsend
  obtain ⟨ops, hops, -, hflows⟩ := hflow (((runList_flowing hth h.1 h.2).of_ok hrun).2.flow hn)
  refine ⟨k, s', ops, hrun, hops, ?_⟩
  obtain ⟨q, -, hq⟩ := hflows.queued
  have hlength := hflows.pending
  rw [hnone, Nat.zero_add, ← hflows.popped, hq, List.length_append] at hlength
  have hnil : q = [] := List.eq_nil_of_length_eq_zero (by omega)
  rw [hq, hnil, List.append_nil]

/-- A build that profiles and flushes at every chance. -/
def profilingBuild : Build := { defaultBuild true with enableProfile := some 1 }

theorem flagsThread_pushFree {build : Build} : (flagsThread build).PushFree := by
  have hnil : ∀ msg, HandlerCall.hostMsgBufferPush msg ∉ ([] : List HandlerCall) := by simp
  refine ⟨fun _ _ _ => hnil, fun _ _ _ => hnil, ?_, ?_, fun _ _ _ => hnil, ?_⟩
  · intro d pin hpin
    obtain rfl := List.mem_singleton.1 hpin
    exact fun _ _ _ => hnil
  · intro d pin hpin
    obtain rfl := List.mem_singleton.1 hpin
    exact fun _ _ _ _ _ => hnil
  · intro d handler hhandler
    cases hhandler

/-- All threads are idle. -/
def allIdle : LoopInput flagsApp := ⟨false, true, true, flagsMessage 0#16 0#32⟩

/-- The thread flushes its counters while it has nothing else to do, and sends the record. -/
theorem records_survive_flush : ∃ s,
    mainRun (flagsThread profilingBuild) (flagsContext 0#32 0#32) (flagsMessage 0#16 0#32)
      (List.replicate 8 allIdle) = .ok s ∧
    (records s.ctxt.trace).length = 1 ∧
    ∃ ops, Buffered (flagsThread profilingBuild) (emptiedBuffer (flagsContext 0#32 0#32)) ops
      s.ctxt ∧ WithinBounds ops ∧ Flows ops s.ctxt := by
  have hn : 2 ≠ 0 := by decide
  have hstart : (flagsContext 0#32 0#32).trace = [] := rfl
  obtain ⟨s, hrun, hlength⟩ : ∃ s,
      mainRun (flagsThread profilingBuild) (flagsContext 0#32 0#32) (flagsMessage 0#16 0#32)
        (List.replicate 8 allIdle) = .ok s ∧ (records s.ctxt.trace).length = 1 :=
    ⟨_, rfl, by decide⟩
  exact ⟨s, hrun, hlength, ((records_survive flagsThread_pushFree hn hstart).of_ok hrun).1⟩

end Softswitch
