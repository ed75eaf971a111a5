import Softswitch.Verify.MemorySafety

/-!
# No global deadlock

Threads that wait for each other's mailboxes do not all get stuck while something is left to
do.  A thread that is held up has nothing to receive; if it wants to send, its send slot is in
use, and if it does not, its compute search is over and nothing is listed.  A send slot that
is in use can be emptied unless the receiver has its receive slots full, and then the receiver
is not held up.

A thread that is not held up goes on, unless it stops at a bad memory access.  Where the tables
are complete and name each other's pins, there is one way to come to that: to send on an
application pin in a build that reads the address list for it (`memory_safe`).
-/

namespace Softswitch

open Outcome Function

variable {A : AppTypes} {n : Nat} {ι : Type} {size : ι → Nat} {th : PThread A n}
  {c c' : PThreadContext A n} {s s' : Main A n} {i : LoopInput A} {w : WaitLocals}
  {m : Message A} {x : Parcel A} {released : Prop}

/-- The assertions are compiled out, every thread has a receive slot, and every target names a
device of a thread.  No thread has the identifier of another one, or that of the host. -/
structure Wired (ths : Threads A size) (slots : ι → Nat) : Prop where
  asserts : ∀ i, (ths i).build.asserts = false
  slots_pos : ∀ i, 0 < slots i
  myId_inj : ∀ i j, (ths i).myId = (ths j).myId → i = j
  host : ∀ i j, (ths i).hostId ≠ (ths j).myId
  target : ∀ i d, ∀ targets ∈ ((ths i).device d).targets, ∀ addr ∈ targets.targets,
    ∃ j, (ths j).myId = addr.thread ∧ addr.device.toNat < size j

/-- The parcel is for the host, or a message for a thread. -/
def Routed (ths : Threads A size) (i : ι) (x : Parcel A) : Prop :=
  x.dest = (ths i).hostId ∨ ∃ j m, x = .message (ths j).myId m

section Interconnect

variable {ths : Threads A size} {slots : ι → Nat} {cs : (i : ι) → PThreadContext A (size i)}
  {buf : ι → Message A} {g g' : Interconnect A size} {k : ι}

theorem Wired.routed (hw : Wired ths slots) (h : Addressed (ths k) x) : Routed ths k x := by
  rcases h with h | ⟨m, hfrom, rfl⟩
  · exact .inl h
  · rcases hfrom with h | ⟨d, pinIndex, pin, targets, -, -, htargets, -, hdest, -⟩
    · exact .inl h
    · obtain ⟨j, hj, -⟩ := hw.target k d targets (List.mem_of_getElem? htargets) m.dest hdest
      exact .inr ⟨j, m, by rw [hj]⟩

/-- A thread that a message is for has devices. -/
theorem Wired.size_pos (hw : Wired ths slots) {j : ι}
    (h : FromPin (ths j) ⟨(ths k).myId, m⟩) : 0 < size k := by
  rcases h with h | ⟨d, pinIndex, pin, targets, -, -, htargets, -, hdest, hthread⟩
  · exact absurd h.symm (hw.host j k)
  · obtain ⟨l, hl, hdevice⟩ := hw.target j d targets (List.mem_of_getElem? htargets) m.dest hdest
    obtain rfl : l = k := hw.myId_inj l k (hl.trans hthread.symm)
    exact Nat.zero_lt_of_lt hdevice

namespace Interconnect

/-- A thread that waits has nothing to compute, or need not wait. -/
def Waits (g : Interconnect A size) : Prop :=
  ∀ i w, (g.main i).pc = .wait w → size i ≤ (g.main i).ctxt.rtcChecked ∨
    g.recvSlots i ≠ 0 ∨ w.wantToSend = true ∧ g.sendSlot i = none

/-- What holds in every state of the threads and their mailboxes. -/
structure Inv (ths : Threads A size) (g : Interconnect A size) : Prop where
  main : ∀ i, MainInv (ths i) (g.main i)
  recv : ∀ i, ∀ m ∈ g.recvSlots i, ∃ j, FromPin (ths j) ⟨(ths i).myId, m⟩
  send : ∀ i x, g.sendSlot i = some x → Addressed (ths i) x
  waits : g.Waits

theorem started_waits {main : (i : ι) → Main A (size i)}
    (h : ∀ i, softswitchMain (ths i) (cs i) (buf i) = .ok (main i)) :
    Waits ⟨main, fun _ => 0, fun _ => none⟩ := by
  intro i w hpc
  have hi : Started (ths i) (cs i) (buf i) (main i) := softswitchMain_sat.of_ok (h i)
  dsimp only at hpc
  generalize main i = s at hi hpc
  cases hi with
  | parked _ => cases hpc
  | running _ _ _ => cases hpc

theorem started_mainInv (hstart : ∀ i, (cs i).rtcChecked = 0 ∧ (cs i).rtcOffset = 0)
    {main : (i : ι) → Main A (size i)}
    (h : ∀ i, softswitchMain (ths i) (cs i) (buf i) = .ok (main i)) (i : ι) :
    MainInv (ths i) (main i) :=
  (softswitchMain_sat.of_ok (h i)).mainInv (hstart i).1 (hstart i).2

theorem inv_start {main : (i : ι) → Main A (size i)}
    (hstart : ∀ i, (cs i).rtcChecked = 0 ∧ (cs i).rtcOffset = 0)
    (h : ∀ i, softswitchMain (ths i) (cs i) (buf i) = .ok (main i)) :
    Inv ths ⟨main, fun _ => 0, fun _ => none⟩ :=
  ⟨started_mainInv hstart h, fun i m h => absurd h (Multiset.notMem_zero m),
    fun i x h => (by cases h), started_waits h⟩

variable [DecidableEq ι]

/-- What a step of a thread does to its own mailbox. -/
theorem ThreadStep.trades (hmain : ∀ i, MainInv (ths i) (g.main i))
    (h : g.ThreadStep ths k g') :
    ∃ input s received sent rest slot, g.Answers k input ∧
      Stepped (ths k) (g.main k) input s ∧
      Trades (ths k) (g.main k).ctxt input s.ctxt received sent ∧
      g.recvSlots k = received + rest ∧ Fills (g.sendSlot k) sent slot ∧
      g' = ⟨update g.main k s, update g.recvSlots k rest, update g.sendSlot k slot⟩ := by
  cases h with
  | @step input s received sent rest slot hanswers hwakes hstep htaken hgiven hrecv hsend =>
    have hk := hmain k
    obtain ⟨received', sent', htrades⟩ := mainStep_trades hk.host hk.address hwakes hstep
    obtain rfl := List.append_cancel_left (htaken.symm.trans htrades.taken)
    obtain rfl := List.append_cancel_left (hgiven.symm.trans htrades.given)
    exact ⟨input, s, received, sent, rest, slot, hanswers, (mainStep_sat hk.host).of_ok hstep,
      htrades, hrecv, hsend, rfl⟩

theorem ThreadStep.mainInv (hmain : ∀ i, MainInv (ths i) (g.main i))
    (h : g.ThreadStep ths k g') : ∀ i, MainInv (ths i) (g'.main i) := by
  obtain ⟨input, s, received, sent, rest, slot, -, hstep, -, -, -, rfl⟩ := h.trades hmain
  exact (forall_update_iff _ fun i s => MainInv (ths i) s).2
    ⟨hstep.mainInv (hmain k), fun i _ => hmain i⟩

theorem ThreadStep.waits (hmain : ∀ i, MainInv (ths i) (g.main i)) (hwaits : g.Waits)
    (h : g.ThreadStep ths k g') : g'.Waits := by
  obtain ⟨input, s, received, sent, rest, slot, hanswers, hstep, htrades, hrecv, hsend, rfl⟩ :=
    h.trades hmain
  intro i w hpc
  by_cases hi : i = k
  · subst hi
    dsimp only at hpc ⊢
    rw [update_self] at hpc
    rw [update_self, update_self, update_self]
    obtain ⟨htop, hwaits⟩ := hstep.waits hpc
    have hnothing := hstep.trades_top (by simp [htop])
    obtain rfl : received = [] :=
      List.append_cancel_left (htrades.taken.symm.trans hnothing.taken)
    obtain rfl : sent = [] := List.append_cancel_left (htrades.given.symm.trans hnothing.given)
    obtain rfl : slot = g.sendSlot i := by
      rcases hsend.cases with ⟨-, h⟩ | ⟨_, -, h, -⟩
      · exact h
      · cases h
    obtain rfl : g.recvSlots i = rest := hrecv.trans (zero_add rest)
    exact hwaits.imp_right fun h =>
      h.imp hanswers.canRecv.1 fun h => ⟨h.1, hanswers.canSend.1 h.2⟩
  · dsimp only at hpc ⊢
    rw [update_of_ne hi] at hpc ⊢
    rw [update_of_ne hi, update_of_ne hi]
    exact hwaits i w hpc

theorem ThreadStep.inv (hinv : Inv ths g) (h : g.ThreadStep ths k g') : Inv ths g' := by
  refine ⟨h.mainInv hinv.main, ?_, ?_, h.waits hinv.main hinv.waits⟩
  all_goals obtain ⟨input, s, received, sent, rest, slot, -, -, htrades, hrecv, hsend, rfl⟩ :=
    h.trades hinv.main
  · refine (forall_update_iff _ fun i r => ∀ m ∈ r, ∃ j, FromPin (ths j) ⟨(ths i).myId, m⟩).2
      ⟨fun m hm => hinv.recv k m ?_, fun i _ => hinv.recv i⟩
    rw [hrecv]
    exact Multiset.mem_add.2 (.inr hm)
  · refine (forall_update_iff _ fun i o => ∀ x, o = some x → Addressed (ths i) x).2
      ⟨fun x hx => ?_, fun i _ => hinv.send i⟩
    rcases hsend.cases with ⟨-, rfl⟩ | ⟨y, -, rfl, rfl⟩
    · exact hinv.send k x hx
    · obtain h | ⟨-, z, hz, haddressed⟩ := htrades.sends
      · cases h
      · cases hz
        cases hx
        exact haddressed

theorem NetworkStep.main_eq (h : g.NetworkStep ths slots g') : g'.main = g.main := by
  cases h <;> rfl

/-- The network takes away from a thread nothing that it could do. -/
theorem NetworkStep.waits (hwaits : g.Waits) (h : g.NetworkStep ths slots g') : g'.Waits := by
  have hempty : ∀ {i j}, g.sendSlot j = none → update g.sendSlot i none j = none := by
    intro i j hj
    by_cases hji : j = i
    · rw [hji, update_self]
    · rw [update_of_ne hji]
      exact hj
  cases h with
  | host hslot hdest =>
    exact fun j w hpc => (hwaits j w hpc).imp_right fun h => h.imp_right fun h => ⟨h.1, hempty h.2⟩
  | @thread i j m hslot hfree =>
    intro l w hpc
    refine (hwaits l w hpc).imp_right fun h => h.imp (fun h => ?_) fun h => ⟨h.1, hempty h.2⟩
    by_cases hl : l = j
    · subst hl
      simp
    · dsimp only
      rw [update_of_ne hl]
      exact h

/-- What the network moves comes from where it came from before. -/
theorem NetworkStep.inv (hinv : Inv ths g) (h : g.NetworkStep ths slots g') : Inv ths g' := by
  have hsend : ∀ i j x, update g.sendSlot i none j = some x → Addressed (ths j) x := by
    intro i j x hx
    by_cases hj : j = i
    · simp [hj] at hx
    · rw [update_of_ne hj] at hx
      exact hinv.send j x hx
  have hwaits := h.waits hinv.waits
  cases h with
  | host hslot hdest => exact ⟨hinv.main, hinv.recv, hsend _, hwaits⟩
  | @thread i j m hslot hfree =>
    have hm : FromPin (ths i) ⟨(ths j).myId, m⟩ := by
      rcases hinv.send i _ hslot with h | ⟨m', hfrom, h⟩
      · exact .inl h
      · obtain ⟨hthread, rfl⟩ := Parcel.message.inj h
        rw [hthread]
        exact hfrom
    refine ⟨hinv.main, ?_, hsend _, hwaits⟩
    refine (forall_update_iff _ fun i r => ∀ m ∈ r, ∃ j, FromPin (ths j) ⟨(ths i).myId, m⟩).2
      ⟨fun m' hm' => ?_, fun i _ => hinv.recv i⟩
    rcases Multiset.mem_cons.1 hm' with rfl | hm'
    · exact ⟨i, hm⟩
    · exact hinv.recv j m' hm'

theorem Reachable.inv (hstart : ∀ i, (cs i).rtcChecked = 0 ∧ (cs i).rtcOffset = 0)
    (h : Reachable ths slots cs buf g) : Inv ths g := by
  induction h with
  | start h => exact inv_start hstart h
  | thread _ hstep ih => exact hstep.inv ih
  | network _ hstep ih => exact hstep.inv ih

/-! ## Threads that are held up -/

omit [DecidableEq ι] in
theorem not_active_iff : ¬g.Active ↔ ∀ i, g.recvSlots i = 0 ∧ g.sendSlot i = none ∧
    (g.main i).currSendTodo = 0 ∧ ∀ d, (g.main i).ctxt.flags d = 0 := by
  constructor
  · intro h i
    refine ⟨?_, ?_, ?_, fun d => ?_⟩
    · exact by_contra fun hne => h ⟨i, .inl hne⟩
    · exact by_contra fun hne => h ⟨i, .inr (.inl hne)⟩
    · exact Nat.eq_zero_of_not_pos fun hpos => h ⟨i, .inr (.inr (.inl hpos))⟩
    · exact by_contra fun hne => h ⟨i, .inr (.inr (.inr ⟨d, hne⟩))⟩
  · rintro h ⟨i, hactive⟩
    obtain ⟨hrecv, hsend, htodo, hflags⟩ := h i
    rcases hactive with hne | hne | hpos | ⟨d, hne⟩
    · exact hne hrecv
    · exact hne hsend
    · exact hpos.ne' htodo
    · exact hne (hflags d)

omit [DecidableEq ι] in
theorem exists_answers (g : Interconnect A size) (i : ι) (doHardwareIdle : Bool) :
    ∃ input, g.Answers i input ∧ input.doHardwareIdle = doHardwareIdle := by
  classical
  by_cases hrecv : g.recvSlots i = 0
  · refine ⟨⟨false, (g.sendSlot i).isNone, doHardwareIdle, (g.main i).sendBuffer⟩,
      ⟨by simp [hrecv], by simp, by simp⟩, rfl⟩
  · obtain ⟨m, hm⟩ := Multiset.exists_mem_of_ne_zero hrecv
    exact ⟨⟨true, (g.sendSlot i).isNone, doHardwareIdle, m⟩,
      ⟨by simp [hrecv], by simp, fun _ => hm⟩, rfl⟩

omit [DecidableEq ι] in
/-- A thread that is held up in its loop has nothing to receive, and if it wants to send, its
send slot is in use. -/
theorem Blocked.wait (h : g.Blocked ths k) (hpc : (g.main k).pc = .wait w) :
    g.recvSlots k = 0 ∧ (w.wantToSend = true → g.sendSlot k ≠ none) := by
  obtain ⟨input, hanswers, -⟩ := g.exists_answers k false
  have hwakes := h input hanswers
  unfold Main.Wakes at hwakes
  rw [hpc] at hwakes
  dsimp only at hwakes
  have hrecv : ¬input.canRecv = true := by
    intro hcan
    refine hwakes ?_
    split
    · exact .inl hcan
    · exact .inl hcan
  refine ⟨?_, fun hwant hslot => ?_⟩
  · by_contra hne
    exact hrecv (hanswers.canRecv.2 hne)
  · rw [if_pos hwant] at hwakes
    exact hwakes (.inr (hanswers.canSend.2 hslot))

omit [DecidableEq ι] in
theorem Blocked.not_top (h : g.Blocked ths k) : (g.main k).pc ≠ .top := by
  intro hpc
  obtain ⟨input, hanswers, -⟩ := g.exists_answers k false
  refine h input hanswers ?_
  unfold Main.Wakes
  rw [hpc]
  trivial

omit [DecidableEq ι] in
/-- The compute search of a thread that is held up is over. -/
theorem Blocked.search_done (hinv : Inv ths g) (h : g.Blocked ths k) :
    size k ≤ (g.main k).ctxt.rtcChecked := by
  cases hpc : (g.main k).pc with
  | parked =>
    have := ((hinv.main k).parked hpc).1
    omega
  | top => exact absurd hpc h.not_top
  | wait w =>
    obtain ⟨hrecv, hsend⟩ := h.wait hpc
    rcases hinv.waits k w hpc with hdone | hne | ⟨hwant, hnone⟩
    · exact hdone
    · exact absurd hrecv hne
    · exact absurd hnone (hsend hwant)

omit [DecidableEq ι] in
theorem Blocked.no_compute (hinv : Inv ths g) (h : g.Blocked ths k) (d : Fin (size k)) :
    wantsCompute ((g.main k).ctxt.flags d) = false := by
  have hrunning : (g.main k).pc ≠ .parked := by
    intro hpc
    have := ((hinv.main k).parked hpc).1
    exact absurd d.isLt (by omega)
  exact ((hinv.main k).idle.thread hrunning).search.no_compute (h.search_done hinv) d

omit [DecidableEq ι] in
/-- A thread that cannot go on and has nothing in its send slot has nothing left to do. -/
theorem idle_of_blocked (hinv : Inv ths g) (h : (g.main k).pc ≠ .parked → g.Blocked ths k)
    (hslot : g.sendSlot k = none) :
    (g.main k).currSendTodo = 0 ∧ ∀ d, (g.main k).ctxt.flags d = 0 := by
  have hk := hinv.main k
  cases hpc : (g.main k).pc with
  | parked =>
    obtain ⟨hsize, htodo⟩ := hk.parked hpc
    exact ⟨htodo, fun d => absurd d.isLt (by omega)⟩
  | top => exact absurd hpc (h (by simp [hpc])).not_top
  | wait w =>
    have h := h (by simp [hpc])
    have hwant : w.wantToSend = false := by
      rw [Bool.eq_false_iff]
      exact fun hwant => (h.wait hpc).2 hwant hslot
    exact hk.settled hpc hwant (h.search_done hinv)

/-- Where the network cannot move, what is in a send slot is for a thread whose receive slots
are full. -/
theorem recv_of_sendSlot (hw : Wired ths slots) (hinv : Inv ths g)
    (hstuck : ∀ g', ¬g.NetworkStep ths slots g') (hslot : g.sendSlot k = some x) :
    ∃ j, g.recvSlots j ≠ 0 := by
  rcases hw.routed (hinv.send k x hslot) with hdest | ⟨j, m, rfl⟩
  · exact absurd (.host hslot hdest) (hstuck _)
  · refine ⟨j, fun hzero => hstuck _ (.thread hslot ?_)⟩
    rw [hzero]
    exact hw.slots_pos j

/-- If neither the network nor a thread can go on, nothing is left to do. -/
theorem not_active_of_stuck (hw : Wired ths slots) (hinv : Inv ths g)
    (hstuck : ∀ g', ¬g.NetworkStep ths slots g')
    (hblocked : ∀ i, (g.main i).pc ≠ .parked → g.Blocked ths i) : ¬g.Active := by
  have hrecv : ∀ i, g.recvSlots i = 0 := by
    intro i
    by_contra hne
    obtain ⟨m, hm⟩ := Multiset.exists_mem_of_ne_zero hne
    obtain ⟨j, hfrom⟩ := hinv.recv i m hm
    have hsize := hw.size_pos hfrom
    cases hpc : (g.main i).pc with
    | parked =>
      have := ((hinv.main i).parked hpc).1
      omega
    | top => exact (hblocked i (by simp [hpc])).not_top hpc
    | wait w => exact hne ((hblocked i (by simp [hpc])).wait hpc).1
  have hsend : ∀ i, g.sendSlot i = none := by
    intro i
    cases hslot : g.sendSlot i with
    | none => rfl
    | some x =>
      obtain ⟨j, hj⟩ := recv_of_sendSlot hw hinv hstuck hslot
      exact absurd (hrecv j) hj
  exact not_active_iff.2 fun i => ⟨hrecv i, hsend i, idle_of_blocked hinv (hblocked i) (hsend i)⟩

omit [DecidableEq ι] in
/-- A thread has nothing left to do where all threads are idle. -/
theorem AllIdle.thread_settled (h : g.AllIdle ths) (hinv : Inv ths g) (i : ι) :
    (g.main i).currSendTodo = 0 ∧ ∀ d, (g.main i).ctxt.flags d = 0 := by
  obtain ⟨hidle, hrecv, -⟩ := h i
  unfold Main.InMboxIdle at hidle
  cases hpc : (g.main i).pc with
  | parked =>
    obtain ⟨hsize, htodo⟩ := (hinv.main i).parked hpc
    exact ⟨htodo, fun d => absurd d.isLt (by omega)⟩
  | top =>
    rw [hpc] at hidle
    exact hidle.elim
  | wait w =>
    rw [hpc] at hidle
    refine (hinv.main i).settled hpc hidle.2 ((hinv.waits i w hpc).resolve_right ?_)
    rintro (hne | ⟨hwant, -⟩)
    · exact hne hrecv
    · rw [hidle.2] at hwant
      cases hwant

omit [DecidableEq ι] in
/-- Threads that are all idle have nothing left to do. -/
theorem AllIdle.not_active (h : g.AllIdle ths) (hinv : Inv ths g) : ¬g.Active :=
  not_active_iff.2 fun i => ⟨(h i).2.1, (h i).2.2, h.thread_settled hinv i⟩

/-! ## Memory safety -/

theorem Reachable.tables (hth : ∀ i, Tables (ths i))
    (hstart : ∀ i, (cs i).rtcChecked = 0 ∧ (cs i).rtcOffset = 0)
    (h : Reachable ths slots cs buf g) (i : ι) : TableInv (ths i) (g.main i) := by
  induction h generalizing i with
  | start h => exact softswitchMain_tableInv (hth i) (h i)
  | @thread g g' k hreach hstep ih =>
    cases hstep with
    | step hanswers hwakes hstep htaken hgiven hrecv hsend =>
      have hk := (ih k).step (hth k) ((hreach.inv hstart).main k) hstep
      exact (forall_update_iff _ fun i s => TableInv (ths i) s).2 ⟨hk, fun i _ => ih i⟩ i
  | network _ hstep ih =>
    rw [hstep.main_eq]
    exact ih i

omit [DecidableEq ι] in
/-- A message in a receive slot finds its device, its pin and its edge. -/
theorem Inv.deliverable (hinv : Inv ths g) (hl : Linked ths) (hm : m ∈ g.recvSlots k) :
    Deliverable (ths k) m := by
  obtain ⟨j, hfrom⟩ := hinv.recv k m hm
  exact (hl.admits hfrom rfl).2.deliverable

theorem Reachable.safe (hl : Linked ths) (hth : ∀ i, Tables (ths i))
    (hstart : ∀ i, (cs i).rtcChecked = 0 ∧ (cs i).rtcOffset = 0)
    (h : Reachable ths slots cs buf g) {input : LoopInput A} (hanswers : g.Answers k input)
    (hwakes : (g.main k).Wakes (ths k) released input)
    (happ : (ths k).readsForApp = true → ¬(g.main k).SendsApp (ths k)) :
    Safe (mainStep (ths k) (g.main k) input) := by
  have hinv := h.inv hstart
  have hself : ∀ m, FromPin (ths k) ⟨(ths k).myId, m⟩ → Deliverable (ths k) m :=
    fun m hfrom => (hl.admits hfrom rfl).2.deliverable
  exact mainStep_safe (hth k) hself (hinv.main k) (h.tables hth hstart k) happ hwakes fun hcan =>
    hinv.deliverable hl (hanswers.message hcan)

/-- No thread ever makes a bad memory access, neither at its start nor in a step of its main loop,
whatever the mailboxes do; only where a message of an application pin is due in a build that reads
the address list for it, nothing is said. -/
theorem memory_safe (hl : Linked ths) (hth : ∀ i, Tables (ths i))
    (hstart : ∀ i, (cs i).rtcChecked = 0 ∧ (cs i).rtcOffset = 0) :
    (∀ i, Safe (softswitchMain (ths i) (cs i) (buf i))) ∧
    ∀ g, Reachable ths slots cs buf g → ∀ i input, g.Answers i input →
      (g.main i).Wakes (ths i) True input →
      ((ths i).readsForApp = true → ¬(g.main i).SendsApp (ths i)) →
      Safe (mainStep (ths i) (g.main i) input) :=
  ⟨fun _ => softswitchMain_safe, fun _ hreach _ _ hanswers hwakes happ =>
    hreach.safe hl hth hstart hanswers hwakes happ⟩

/-! ## Threads that go on -/

/-- Thread `i` goes on: the call it waits in returns, for a reason that the mailbox has, and the
step of its loop ends well. -/
def GoesOn (ths : Threads A size) (g : Interconnect A size) (i : ι) : Prop :=
  (g.main i).pc ≠ .parked ∧ ∃ input g', g.Answers i input ∧
    (g.main i).Wakes (ths i) (g.AllIdle ths) input ∧
    mainStep (ths i) (g.main i) input = .ok (g'.main i) ∧ g.ThreadStep ths i g'

omit [DecidableEq ι] in
/-- Where the call that a thread waits in returns, the mailbox can do what the thread does then. -/
theorem threadStep_of_wakes {input : LoopInput A} (hw : Wired ths slots) (hinv : Inv ths g)
    (hanswers : g.Answers k input) (hwakes : (g.main k).Wakes (ths k) released input) :
    Sat (mainStep (ths k) (g.main k) input) (fun s => ∃ received sent rest slot,
        taken s.ctxt.trace = taken (g.main k).ctxt.trace ++ received ∧
        given s.ctxt.trace = given (g.main k).ctxt.trace ++ sent ∧
        g.recvSlots k = received + rest ∧ Fills (g.sendSlot k) sent slot)
      (fun st => st.fault.isMemory = true) := by
  have hk := hinv.main k
  have hends := mainStep_ends (i := input) (hw.asserts k) hk.host hk.idle
  cases hstep : mainStep (ths k) (g.main k) input with
  | error st =>
    rw [hstep] at hends
    exact hends
  | ok s =>
    obtain ⟨received, sent, htrades⟩ := mainStep_trades hk.host hk.address hwakes hstep
    obtain ⟨rest, hrecv⟩ : ∃ rest, g.recvSlots k = received + rest := by
      rcases htrades.receives with rfl | ⟨hcan, rfl⟩
      · exact ⟨g.recvSlots k, (zero_add _).symm⟩
      · obtain ⟨rest, hrest⟩ := Multiset.exists_cons_of_mem (hanswers.message hcan)
        exact ⟨rest, hrest⟩
    obtain ⟨slot, hsend⟩ : ∃ slot, Fills (g.sendSlot k) sent slot := by
      rcases htrades.sends with rfl | ⟨hcan, x, rfl, -⟩
      · exact ⟨_, .nothing⟩
      · rw [hanswers.canSend.1 hcan]
        exact ⟨_, .one⟩
    exact ⟨received, sent, rest, slot, htrades.taken, htrades.given, hrecv, hsend⟩

/-- A step that makes no bad memory access is one of the connected threads. -/
theorem exists_threadStep {input : LoopInput A} (hw : Wired ths slots) (hinv : Inv ths g)
    (hanswers : g.Answers k input) (hwakes : (g.main k).Wakes (ths k) released input)
    (hsafe : Safe (mainStep (ths k) (g.main k) input)) :
    ∃ g', mainStep (ths k) (g.main k) input = .ok (g'.main k) ∧ g.ThreadStep ths k g' := by
  have hsteps := threadStep_of_wakes hw hinv hanswers hwakes
  cases hstep : mainStep (ths k) (g.main k) input with
  | error st =>
    rw [hstep] at hsteps hsafe
    cases hsteps.symm.trans hsafe
  | ok s =>
    rw [hstep] at hsteps
    obtain ⟨received, sent, rest, slot, htaken, hgiven, hrecv, hsend⟩ := hsteps
    refine ⟨_, ?_, .step hanswers (hwakes.mono fun _ => trivial) hstep htaken hgiven hrecv hsend⟩
    dsimp only
    rw [update_self]

/-- A thread that is not held up goes on, unless a message of an application pin is due in a build
that reads the address list for it. -/
theorem Reachable.goesOn (hw : Wired ths slots) (hl : Linked ths) (hth : ∀ i, Tables (ths i))
    (hstart : ∀ i, (cs i).rtcChecked = 0 ∧ (cs i).rtcOffset = 0)
    (h : Reachable ths slots cs buf g) (hpc : (g.main k).pc ≠ .parked) (hfree : ¬g.Blocked ths k)
    (happ : (ths k).readsForApp = true → ¬(g.main k).SendsApp (ths k)) : g.GoesOn ths k := by
  simp only [Blocked, not_forall, not_not, exists_prop] at hfree
  obtain ⟨input, hanswers, hwakes⟩ := hfree
  obtain ⟨g', hstep, hg'⟩ := exists_threadStep hw (h.inv hstart) hanswers hwakes
    (h.safe hl hth hstart hanswers hwakes happ)
  exact ⟨hpc, input, g', hanswers, hwakes, hstep, hg'⟩

theorem Reachable.exists_goesOn (hw : Wired ths slots) (hl : Linked ths)
    (hth : ∀ i, Tables (ths i)) (hstart : ∀ i, (cs i).rtcChecked = 0 ∧ (cs i).rtcOffset = 0)
    (h : Reachable ths slots cs buf g)
    (happ : ∀ i, (ths i).readsForApp = true → ¬(g.main i).SendsApp (ths i))
    (hactive : g.Active) : (∃ g', g.NetworkStep ths slots g') ∨ ∃ i, g.GoesOn ths i := by
  by_contra hnone
  rw [not_or, not_exists, not_exists] at hnone
  refine not_active_of_stuck hw (h.inv hstart) hnone.1 (fun i hpc => ?_) hactive
  by_contra hfree
  exact hnone.2 i (h.goesOn hw hl hth hstart hpc hfree (happ i))

/-- As long as something is left to do, the network or a thread goes on, unless a message of an
application pin is due in a build that reads the address list for it.  A thread is never held up
while one of its own devices wants to compute. -/
theorem no_globalDeadlock (hw : Wired ths slots) (hl : Linked ths) (hth : ∀ i, Tables (ths i))
    (hstart : ∀ i, (cs i).rtcChecked = 0 ∧ (cs i).rtcOffset = 0)
    (h : Reachable ths slots cs buf g) :
    ((∀ i, (ths i).readsForApp = true → ¬(g.main i).SendsApp (ths i)) → g.Active →
      (∃ g', g.NetworkStep ths slots g') ∨ ∃ i, g.GoesOn ths i) ∧
    ∀ i, g.Blocked ths i → ∀ d, wantsCompute ((g.main i).ctxt.flags d) = false :=
  ⟨h.exists_goesOn hw hl hth hstart, fun _ hblocked => hblocked.no_compute (h.inv hstart)⟩

end Interconnect

end Interconnect

/-! ## A thread of two devices -/

section Typed

variable {build : Build} {level : Int} {vtable : DeviceTypeVTable flagsApp}

theorem typedThread_wired (hasserts : build.asserts = false) :
    Wired (fun _ : Unit => typedThread build level vtable) fun _ => 1 where
  asserts _ := hasserts
  slots_pos _ := Nat.one_pos
  myId_inj _ _ _ := rfl
  host _ _ := show 4096#32 ≠ 0#32 by decide
  target i d targets htargets addr haddr := by
    obtain rfl := List.mem_singleton.1 htargets
    have hmem : addr ∈ [flagsAddress 0#16, flagsAddress 1#16] := by
      split at haddr
      · exact List.mem_cons_of_mem _ haddr
      · exact haddr
    refine ⟨(), ?_⟩
    rcases List.mem_pair.1 hmem with rfl | rfl
    · exact ⟨rfl, by decide⟩
    · exact ⟨rfl, by decide⟩

theorem typedThread_linked (hin : ∃ pin, vtable.inputPins[0]? = some pin ∧ pin.NoData)
    (hout : vtable.outputPins.length = 1) :
    Linked fun _ : Unit => typedThread build level vtable where
  fits _ := ⟨fun _ => rfl, by decide, fun _ => hout.le.trans (by decide)⟩
  threadId _ := rfl
  myId_inj _ _ _ := rfl
  host _ _ := show 4096#32 ≠ 0#32 by decide
  target _ d pinIndex pin targets _ _ htargets addr haddr := by
    obtain rfl := List.mem_singleton.1 (List.mem_of_getElem? htargets)
    obtain ⟨inPin, hinPin, hnone⟩ := hin
    have hadmits : ∀ e : Fin 2, Admits (typedThread build level vtable)
        (sendSource (typedThread build level vtable) d pinIndex pin)
        (flagsAddress (BitVec.ofNat 16 e.val)) := by
      intro e
      refine ⟨rfl, e, inPin, ?_, rfl, hinPin, fun hdata => absurd hnone hdata⟩
      revert e
      decide
    refine ⟨(), ?_⟩
    have hmem : addr ∈ [flagsAddress 0#16, flagsAddress 1#16] := by
      split at haddr
      · exact List.mem_cons_of_mem _ haddr
      · exact haddr
    rcases List.mem_pair.1 hmem with rfl | rfl
    · exact hadmits 0
    · exact hadmits 1

theorem typedThread_tables (hready : ∀ g p s, (vtable.readyToSendHandler g p s).flags =
      BitVec.and s 0x80000001#32) (hout : vtable.outputPins.length = 1) :
    Tables (typedThread build level vtable) where
  index _ := rfl
  asks d s k hk hbit := by
    have hflags : (readyResult (typedThread build level vtable) d s).flags =
      BitVec.and s 0x80000001#32 := hready _ _ _
    rw [hflags] at hbit
    exact (masked_lt hk hbit).trans_eq hout.symm
  targets d k pin hpin _ := (List.getElem?_eq_some_iff.1 hpin).1.trans_eq hout

end Typed

/-- A build that reads the address list for every message. -/
def readingBuild : Build :=
  { defaultBuild false with logging := true, enableIntraThreadSend := true }

/-- The thread alone, with nothing in its mailbox. -/
def alone (s : Main flagsApp 2) : Interconnect flagsApp fun _ : Unit => 2 :=
  ⟨fun _ => s, fun _ => 0, fun _ => none⟩

/-- The states that the thread alone reaches when device 1 wants to send at first. -/
abbrev AloneReachable (th : PThread flagsApp 2) :
    Interconnect flagsApp (fun _ : Unit => 2) → Prop :=
  Interconnect.Reachable (fun _ => th) (fun _ => 1) (fun _ => flagsContext 0#32 1#32)
    fun _ => flagsMessage 0#16 0#32

/-- The thread goes on to its first wait. -/
theorem alone_waits {th : PThread flagsApp 2} {s₀ s₁ : Main flagsApp 2}
    (hmain : softswitchMain th (flagsContext 0#32 1#32) (flagsMessage 0#16 0#32) = .ok s₀)
    (hstep : mainStep th s₀ freeMailbox = .ok s₁) (hpc : s₀.pc = .top)
    (h₀ : taken s₀.ctxt.trace = [] ∧ given s₀.ctxt.trace = [])
    (h₁ : taken s₁.ctxt.trace = [] ∧ given s₁.ctxt.trace = []) : AloneReachable th (alone s₁) := by
  have hstart : AloneReachable th (alone s₀) := .start fun _ => hmain
  have hanswers : (alone s₀).Answers () freeMailbox := by
    constructor <;> simp [freeMailbox, alone]
  have hwakes : s₀.Wakes th True freeMailbox := by
    unfold Main.Wakes
    rw [hpc]
    trivial
  have htaken : taken s₁.ctxt.trace = taken s₀.ctxt.trace ++ [] := by
    rw [h₀.1, h₁.1, List.append_nil]
  have hgiven : given s₁.ctxt.trace = given s₀.ctxt.trace ++ [] := by
    rw [h₀.2, h₁.2, List.append_nil]
  exact hstart.thread (i := ())
    (.step hanswers hwakes hstep htaken hgiven (zero_add 0).symm .nothing)

/-- Device 1 is about to send to both devices, in a build that reads the address list. -/
theorem no_globalDeadlock_alone : ∃ g : Interconnect flagsApp fun _ : Unit => 2,
    (typedThread readingBuild 3 maskedVTable).readsForApp = true ∧
    AloneReachable (typedThread readingBuild 3 maskedVTable) g ∧ g.Active ∧
    ((∃ g', g.NetworkStep (fun _ => typedThread readingBuild 3 maskedVTable) (fun _ => 1) g') ∨
      ∃ i, g.GoesOn (fun _ => typedThread readingBuild 3 maskedVTable) i) := by
  obtain ⟨s₀, s₁, hmain, hstep, hpc, h₀, h₁, htodo, hflags⟩ : ∃ s₀ s₁,
      softswitchMain (typedThread readingBuild 3 maskedVTable) (flagsContext 0#32 1#32)
        (flagsMessage 0#16 0#32) = .ok s₀ ∧
      mainStep (typedThread readingBuild 3 maskedVTable) s₀ freeMailbox = .ok s₁ ∧
      s₀.pc = .top ∧ (taken s₀.ctxt.trace = [] ∧ given s₀.ctxt.trace = []) ∧
      (taken s₁.ctxt.trace = [] ∧ given s₁.ctxt.trace = []) ∧ s₁.currSendTodo = 0 ∧
      (s₁.ctxt.devices 1).rtsFlags ≠ 0 :=
    ⟨_, _, rfl, rfl, rfl, ⟨rfl, rfl⟩, ⟨rfl, rfl⟩, rfl, by decide⟩
  have hreach := alone_waits hmain hstep hpc h₀ h₁
  have hactive : (alone s₁).Active := ⟨(), .inr (.inr (.inr ⟨1, hflags⟩))⟩
  have hdue : ¬s₁.SendsApp (typedThread readingBuild 3 maskedVTable) := by
    rintro ⟨w, -, -, h⟩
    rw [if_pos htodo] at h
    obtain ⟨d, k, pin, -, -, hpin, happ, -⟩ := h
    obtain rfl := List.mem_singleton.1 (List.mem_of_getElem? hpin)
    cases happ
  have hlinked : Linked fun _ : Unit => typedThread readingBuild 3 maskedVTable :=
    typedThread_linked ⟨_, rfl, show (0#16).setWidth 32 ||| (0#16).setWidth 32 = 0#32 by decide⟩ rfl
  have htables : Tables (typedThread readingBuild 3 maskedVTable) :=
    typedThread_tables (fun _ _ _ => rfl) rfl
  have hprogress := (Interconnect.no_globalDeadlock (typedThread_wired rfl) hlinked
    (fun _ => htables) (fun _ => ⟨rfl, rfl⟩) hreach).1
  exact ⟨alone s₁, rfl, hreach, hactive, hprogress (fun _ _ => hdue) hactive⟩

/-- Device 1 is about to send to the host, and nothing can go on: the one step that the thread
could make stops at a null pointer. -/
theorem alone_stuck : ∃ g : Interconnect flagsApp fun _ : Unit => 2,
    Wired (fun _ : Unit => appThread readingBuild 3) (fun _ => 1) ∧
    Linked (fun _ : Unit => appThread readingBuild 3) ∧ Tables (appThread readingBuild 3) ∧
    AloneReachable (appThread readingBuild 3) g ∧ g.Active ∧
    (∀ g', ¬g.NetworkStep (fun _ => appThread readingBuild 3) (fun _ => 1) g') ∧
    ∀ i g', ¬g.ThreadStep (fun _ => appThread readingBuild 3) i g' := by
  obtain ⟨s₀, s₁, hmain, hstep, hpc, h₀, h₁, hflags, hstop⟩ : ∃ s₀ s₁,
      softswitchMain (appThread readingBuild 3) (flagsContext 0#32 1#32)
        (flagsMessage 0#16 0#32) = .ok s₀ ∧
      mainStep (appThread readingBuild 3) s₀ freeMailbox = .ok s₁ ∧
      s₀.pc = .top ∧ (taken s₀.ctxt.trace = [] ∧ given s₀.ctxt.trace = []) ∧
      (taken s₁.ctxt.trace = [] ∧ given s₁.ctxt.trace = []) ∧ (s₁.ctxt.devices 1).rtsFlags ≠ 0 ∧
      ∀ idle m, ∃ c, mainStep (appThread readingBuild 3) s₁ ⟨false, true, idle, m⟩ =
        .error ⟨.nullDeref, c⟩ :=
    ⟨_, _, rfl, rfl, rfl, ⟨rfl, rfl⟩, ⟨rfl, rfl⟩, by decide, fun _ _ => ⟨_, rfl⟩⟩
  have hlinked : Linked fun _ : Unit => appThread readingBuild 3 :=
    typedThread_linked ⟨_, rfl, show (0#16).setWidth 32 ||| (0#16).setWidth 32 = 0#32 by decide⟩ rfl
  have htables : Tables (appThread readingBuild 3) := typedThread_tables (fun _ _ _ => rfl) rfl
  refine ⟨alone s₁, typedThread_wired rfl, hlinked, htables, alone_waits hmain hstep hpc h₀ h₁,
    ⟨(), .inr (.inr (.inr ⟨1, hflags⟩))⟩, fun g' h => ?_, fun i g' h => ?_⟩
  · cases h with
    | host hslot _ => cases hslot
    | thread hslot _ => cases hslot
  · cases h with
    | @step input s received sent rest slot hanswers _ hstep _ _ _ _ =>
      have hrecv : input.canRecv = false := by
        rw [Bool.eq_false_iff]
        exact fun hcan => hanswers.canRecv.1 hcan rfl
      have hsend : input.canSend = true := hanswers.canSend.2 rfl
      obtain ⟨canRecv, canSend, idle, m⟩ := input
      obtain rfl : canRecv = false := hrecv
      obtain rfl : canSend = true := hsend
      obtain ⟨c, hc⟩ := hstop idle m
      cases hstep.symm.trans hc

end Softswitch
