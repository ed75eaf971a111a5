import Mathlib.Order.Monotone.Defs
import Softswitch.Verify.LogPacking
import Softswitch.Verify.Records

/-!
# The cycle counters

In a build that profiles, each counter adds up the lengths of intervals between readings of the
cycle counter, modulo `2 ^ 32`.  The intervals of different counters do not overlap, except those
of the handlers, which are inside those of their events (`Spends`); a flush starts all counters
anew (`Accounted`).  So the counters of a period that is shorter than `2 ^ 32` cycles add up to no
more than its length (`cycles_consistent`).
-/

namespace Softswitch

open Outcome

variable {A : AppTypes} {n : Nat} {α : Type} {th : PThread A n} {c c' : PThreadContext A n}
  {s s' : Main A n} {i : LoopInput A} {w : WaitLocals} {d : Fin n} {m : Message A} {p p' p'' : Perf}
  {j k t : Nat}

/-! ## The clock -/

/-- The `k`-th reading of the cycle counter. -/
def PThread.reading (th : PThread A n) (k : Nat) : BitVec 32 := BitVec.ofNat 32 (th.clock k)

theorem deltaCycles_eq (tstart tend : BitVec 32) : deltaCycles tstart tend = tend - tstart := by
  unfold deltaCycles
  split
  · rfl
  · rw [BitVec.ofNat_add, BitVec.ofNat_toNat, BitVec.setWidth_eq]
    exact BitVec.add_zero _

theorem deltaCycles_ofNat {a b : Nat} (h : a ≤ b) :
    (deltaCycles (BitVec.ofNat 32 a) (BitVec.ofNat 32 b)).toNat = (b - a) % 2 ^ 32 := by
  rw [deltaCycles_eq, BitVec.toNat_sub, BitVec.toNat_ofNat, BitVec.toNat_ofNat]
  omega

section Clock

variable (hclock : Monotone th.clock) (hjk : j ≤ k)

include hclock hjk

theorem deltaCycles_le :
    (deltaCycles (th.reading j) (th.reading k)).toNat ≤ th.clock k - th.clock j :=
  (deltaCycles_ofNat (hclock hjk)).trans_le (Nat.mod_le _ _)

/-- A short interval is measured exactly. -/
theorem deltaCycles_short (hshort : th.clock k - th.clock j < 2 ^ 32) :
    (deltaCycles (th.reading j) (th.reading k)).toNat = th.clock k - th.clock j :=
  (deltaCycles_ofNat (hclock hjk)).trans (Nat.mod_eq_of_lt hshort)

end Clock

/-! ## What is spent -/

/-- The cycles in the counters that are not part of others. -/
def Perf.spent (p : Perf) : Nat :=
  p.idleCycles.toNat + p.sendBlockedCycles.toNat + p.recvBlockedCycles.toNat +
    p.perfmonCycles.toNat + p.sendCycles.toNat + p.recvCycles.toNat

/-- The cycles of the handlers are part of those of their events. -/
structure Perf.Nested (p : Perf) : Prop where
  send : p.sendHandlerCycles.toNat ≤ p.sendCycles.toNat
  recv : p.recvHandlerCycles.toNat ≤ p.recvCycles.toNat

/-- The time between the next readings at `p` and at `p'`. -/
def PThread.elapsed (th : PThread A n) (p p' : Perf) : Nat :=
  th.clock p'.clockReads - th.clock p.clockReads

/-- From `p` to `p'` no more cycles are added to the counters than pass, as long as they are
few. -/
structure Spends (th : PThread A n) (p p' : Perf) : Prop where
  tstart : p'.threadCyclesTstart = p.threadCyclesTstart
  reads : p.clockReads ≤ p'.clockReads
  spent : p.Nested → p.spent + th.elapsed p p' < 2 ^ 32 →
    p'.Nested ∧ p'.spent ≤ p.spent + th.elapsed p p'

namespace Spends

theorem refl (p : Perf) : Spends th p p :=
  ⟨rfl, Nat.le_refl _, fun h _ => ⟨h, Nat.le_add_right _ _⟩⟩

theorem of_eq (h : p' = p) : Spends th p p' := h ▸ refl p'

variable (hclock : Monotone th.clock)

include hclock

theorem trans (h₁ : Spends th p p') (h₂ : Spends th p' p'') : Spends th p p'' := by
  refine ⟨h₂.tstart.trans h₁.tstart, h₁.reads.trans h₂.reads, fun hnested hshort => ?_⟩
  have hle₁ := hclock h₁.reads
  have hle₂ := hclock h₂.reads
  have hsum : th.elapsed p p'' = th.elapsed p p' + th.elapsed p' p'' := by
    unfold PThread.elapsed
    omega
  obtain ⟨hnested', hspent'⟩ := h₁.spent hnested (by omega)
  obtain ⟨hnested'', hspent''⟩ := h₂.spent hnested' (by omega)
  exact ⟨hnested'', by omega⟩

omit hclock in
/-- Time passes. -/
theorem tick (p : Perf) : Spends th p { p with clockReads := p.clockReads + 1 } :=
  ⟨rfl, Nat.le_succ _, fun h _ => ⟨⟨h.send, h.recv⟩, Nat.le_add_right _ _⟩⟩

end Spends

/-! ## The counters -/

/-- `add p h t` adds an interval of `t` cycles to one of the counters, and `h` cycles of a handler
to the counter for that part of it. -/
structure Counts (add : Perf → BitVec 32 → BitVec 32 → Perf) : Prop where
  tstart : ∀ p h t, (add p h t).threadCyclesTstart = p.threadCyclesTstart
  spent : ∀ p h t, (add p h t).spent ≤ p.spent + t.toNat
  nested : ∀ p h t, p.Nested → h.toNat ≤ t.toNat → p.spent + t.toNat < 2 ^ 32 →
    (add p h t).Nested

theorem toNat_add_le {x y : BitVec 32} : (x + y).toNat ≤ x.toNat + y.toNat :=
  (BitVec.toNat_add x y).trans_le (Nat.mod_le _ _)

theorem nested_add {x y h u : BitVec 32} (hxy : x.toNat ≤ y.toNat) (hhu : h.toNat ≤ u.toNat)
    (hroom : y.toNat + u.toNat < 2 ^ 32) : (x + h).toNat ≤ (y + u).toNat := by
  rw [BitVec.toNat_add y, Nat.mod_eq_of_lt hroom]
  exact toNat_add_le.trans (Nat.add_le_add hxy hhu)

namespace Counts

theorem idle : Counts fun p _ t => { p with idleCycles := p.idleCycles + t } where
  tstart _ _ _ := rfl
  spent p _ t := by
    have hle := toNat_add_le (x := p.idleCycles) (y := t)
    simp only [Perf.spent]
    omega
  nested _ _ _ h _ _ := ⟨h.send, h.recv⟩

theorem sendBlocked :
    Counts fun p _ t => { p with sendBlockedCycles := p.sendBlockedCycles + t } where
  tstart _ _ _ := rfl
  spent p _ t := by
    have hle := toNat_add_le (x := p.sendBlockedCycles) (y := t)
    simp only [Perf.spent]
    omega
  nested _ _ _ h _ _ := ⟨h.send, h.recv⟩

theorem recvBlocked :
    Counts fun p _ t => { p with recvBlockedCycles := p.recvBlockedCycles + t } where
  tstart _ _ _ := rfl
  spent p _ t := by
    have hle := toNat_add_le (x := p.recvBlockedCycles) (y := t)
    simp only [Perf.spent]
    omega
  nested _ _ _ h _ _ := ⟨h.send, h.recv⟩

theorem send : Counts fun p h t => { p with
    sendHandlerCycles := p.sendHandlerCycles + h
    sendCycles := p.sendCycles + t } where
  tstart _ _ _ := rfl
  spent p _ t := by
    have hle := toNat_add_le (x := p.sendCycles) (y := t)
    simp only [Perf.spent]
    omega
  nested p h t hp hht hroom := by
    refine ⟨nested_add hp.send hht ?_, hp.recv⟩
    unfold Perf.spent at hroom
    omega

/-- A packet is dropped without a handler. -/
theorem dropped : Counts fun p _ t => { p with recvCycles := p.recvCycles + t } where
  tstart _ _ _ := rfl
  spent p _ t := by
    have hle := toNat_add_le (x := p.recvCycles) (y := t)
    simp only [Perf.spent]
    omega
  nested p h t hp hht hroom := by
    refine ⟨hp.send, hp.recv.trans ?_⟩
    have hmod : p.recvCycles.toNat + t.toNat < 2 ^ 32 := by
      unfold Perf.spent at hroom
      omega
    rw [BitVec.toNat_add, Nat.mod_eq_of_lt hmod]
    exact Nat.le_add_right _ _

theorem recv : Counts fun p h t => { p with
    recvHandlerCycles := p.recvHandlerCycles + h
    recvCycles := p.recvCycles + t } where
  tstart _ _ _ := rfl
  spent p _ t := by
    have hle := toNat_add_le (x := p.recvCycles) (y := t)
    simp only [Perf.spent]
    omega
  nested p h t hp hht hroom := by
    refine ⟨hp.send, nested_add hp.recv hht ?_⟩
    unfold Perf.spent at hroom
    omega

/-- The cycles of a flush replace those of the flush before. -/
theorem perfmon : Counts fun p _ t => { p with perfmonCycles := t } where
  tstart _ _ _ := rfl
  spent p _ t := by
    simp only [Perf.spent]
    omega
  nested _ _ _ h _ _ := ⟨h.send, h.recv⟩

end Counts

section Clock

variable {add : Perf → BitVec 32 → BitVec 32 → Perf} {j' k' : Nat} (hadd : Counts add)
  (hclock : Monotone th.clock)

include hadd hclock

/-- The interval from reading `j` to reading `k` is counted. -/
theorem Counts.spends {h : BitVec 32} (hj : p.clockReads ≤ j) (hjk : j ≤ k)
    (hh : th.clock k - th.clock j < 2 ^ 32 →
      h.toNat ≤ (deltaCycles (th.reading j) (th.reading k)).toNat) :
    Spends th p
      { add p h (deltaCycles (th.reading j) (th.reading k)) with clockReads := k + 1 } := by
  have hdelta := deltaCycles_le hclock hjk
  have hlong : th.clock k - th.clock j ≤ th.clock (k + 1) - th.clock p.clockReads := by
    have hle := hclock hj
    have hle' : th.clock k ≤ th.clock (k + 1) := hclock (Nat.le_succ k)
    omega
  refine ⟨hadd.tstart _ _ _, hj.trans (hjk.trans (Nat.le_succ k)), fun hp hshort => ?_⟩
  unfold PThread.elapsed at hshort ⊢
  dsimp only at hshort ⊢
  obtain ⟨hsend, hrecv⟩ := hadd.nested p h (deltaCycles (th.reading j) (th.reading k)) hp
    (hh (by omega)) (by omega)
  exact ⟨⟨hsend, hrecv⟩, (hadd.spent _ _ _).trans (by omega)⟩

/-- So is one with that of a handler inside. -/
theorem Counts.spends_inside (hj : p.clockReads ≤ j) (hj' : j ≤ j') (hjk' : j' ≤ k')
    (hk' : k' ≤ k) : Spends th p { add p (deltaCycles (th.reading j') (th.reading k'))
      (deltaCycles (th.reading j) (th.reading k)) with clockReads := k + 1 } := by
  have hjk : j ≤ k := hj'.trans (hjk'.trans hk')
  refine hadd.spends hclock hj hjk fun hshort => ?_
  have hinside := deltaCycles_le hclock hjk'
  have hfirst := hclock hj'
  have hlast := hclock hk'
  rw [deltaCycles_short hclock hjk hshort]
  omega

end Clock

/-! ## The events -/

/-- The counters are as in `c`. -/
def KeepsPerf (c : PThreadContext A n) (x : Outcome A n (PThreadContext A n)) : Prop :=
  Sat x (fun c' => c'.toPerf = c.toPerf) fun _ => True

theorem runCalls_perf {calls : List HandlerCall} : KeepsPerf c (runCalls th c calls) :=
  runCalls_service.mono (fun _ h => h.frame.perf) fun _ _ => trivial

theorem softswitchUpdateRTS_perf : KeepsPerf c (softswitchUpdateRTS th c d) :=
  softswitchUpdateRTS_sat.mono (fun _ h => h.1.frame.perf) fun _ _ => trivial

theorem rtsAppend_perf : KeepsPerf c (rtsAppend th c d) :=
  rtsAppend_sat.mono (fun _ h => h.1.frame.perf) fun _ _ => trivial

theorem callCompute_perf : KeepsPerf c (callCompute th c d) := runCalls_perf

theorem idleSweep_perf {fuel : Nat} :
    Sat (idleSweep fuel c) (fun r => r.2.toPerf = c.toPerf) fun _ => True := by
  induction fuel generalizing c with
  | zero => rfl
  | succ fuel ih =>
    unfold idleSweep
    split
    · dsimp only
      split
      · rfl
      · exact ih
    · trivial

theorem softswitchOnIdle_perf :
    Sat (softswitchOnIdle th c) (fun r => r.2.toPerf = c.toPerf) fun _ => True := by
  unfold softswitchOnIdle
  split
  · rfl
  · refine Sat.bind idleSweep_perf fun r _ h₁ => ?_
    obtain ⟨dev, c₁⟩ := r
    cases dev with
    | none => exact h₁
    | some d =>
      refine Sat.bind callCompute_perf fun c₂ _ h₂ => ?_
      refine Sat.bind_ok fun _ _ => ?_
      exact Sat.bind softswitchUpdateRTS_perf fun c₃ _ h₃ => h₃.trans (h₂.trans h₁)

theorem hardwareIdleDevice_perf : KeepsPerf c (hardwareIdleDevice th c d) := by
  unfold hardwareIdleDevice
  refine Sat.bind_ok fun _ _ => Sat.bind_ok fun _ _ => ?_
  split
  · rfl
  · refine Sat.bind runCalls_perf fun c₁ _ h₁ => ?_
    exact softswitchUpdateRTS_perf.mono (fun _ h => h.trans h₁) fun _ _ => trivial

theorem softswitchOnHardwareIdle_perf : KeepsPerf c (softswitchOnHardwareIdle th c) := by
  have hloop : KeepsPerf c ((List.finRange n).foldlM (hardwareIdleDevice th) (clearRts c)) := by
    refine Sat.foldlM (fun c₁ d _ h => ?_) rfl
    exact hardwareIdleDevice_perf.mono (fun _ h' => h'.trans h) fun _ _ => trivial
  exact Sat.bind hloop fun _ _ h => h

section Profile

variable (hprofile : th.build.enableProfile.isSome = true)

include hprofile

theorem tick_perf : (c.tick th).toPerf = { c.toPerf with clockReads := c.clockReads + 1 } := by
  simp [PThreadContext.tick, PThreadContext.mapPerf, hprofile]

theorem addCycles_eq {tstart : BitVec 32} {add : Perf → BitVec 32 → Perf} :
    c.addCycles th tstart add =
      (c.tick th).mapPerf fun p => add p (deltaCycles tstart (tinselCycleCount th c)) := by
  simp [PThreadContext.addCycles, PThreadContext.mapPerf, PThreadContext.tick, hprofile]

theorem addCycles_perf {tstart : BitVec 32} {add : Perf → BitVec 32 → Perf} :
    (c.addCycles th tstart add).toPerf =
      add { c.toPerf with clockReads := c.clockReads + 1 }
        (deltaCycles tstart (th.reading c.clockReads)) := by
  rw [addCycles_eq hprofile, ← tick_perf hprofile]
  rfl

/-- The handler is measured. -/
theorem callReceive_perf {target : ReceiveTarget A} :
    Sat (callReceive th c d m target) (fun c' => c'.toPerf = { c.toPerf with
      recvHandlerCycles := c.recvHandlerCycles +
        deltaCycles (th.reading c.clockReads) (th.reading (c.clockReads + 1))
      clockReads := c.clockReads + 2 }) fun _ => True := by
  unfold callReceive
  refine Sat.bind runCalls_perf fun c₁ _ h₁ => ?_
  obtain ⟨e, he⟩ := storeEdgeState_eq (c := ((({ c.track d 1 with
    currentPin := m.dest.pin.toNat }.tick th).enter .receive d).emit (.receiveCall d
      m.dest.pin.toNat m.source target.eProps (target.eState.map c.edgeState)
      m.payload)).setState d (receiveResult th c d m target).state) (p := target.eState)
    (s := (receiveResult th c d m target).edgeState)
  have hp : c₁.toPerf = { c.toPerf with clockReads := c.clockReads + 1 } := by
    refine h₁.trans ((congrArg PThreadContext.toPerf he).trans ?_)
    exact tick_perf (c := { c.track d 1 with currentPin := m.dest.pin.toNat }) hprofile
  show (c₁.addCycles th _ _).toPerf = _
  rw [addCycles_perf hprofile, hp]
  rfl

theorem callSend_perf {pinIndex : Nat} {pin : OutputPinVTable A} {payload : A.Payload} :
    Sat (callSend th c d pinIndex pin payload) (fun q => q.2.toPerf = { c.toPerf with
      sendHandlerCycles := c.sendHandlerCycles +
        deltaCycles (th.reading c.clockReads) (th.reading (c.clockReads + 1))
      clockReads := c.clockReads + 2 }) fun _ => True := by
  unfold callSend
  refine Sat.bind runCalls_perf fun c₁ _ h₁ => ?_
  have hp : ∀ e, (c₁.emit e).toPerf = { c.toPerf with clockReads := c.clockReads + 1 } :=
    fun _ => h₁.trans (tick_perf hprofile)
  show ((c₁.emit _).addCycles th _ _).toPerf = _
  rw [addCycles_perf hprofile, hp]
  rfl

variable (hclock : Monotone th.clock)

include hclock

theorem softswitchOnReceive_spends : Sat (softswitchOnReceive th c m)
    (fun c' => Spends th c.toPerf c'.toPerf) fun _ => True := by
  have htick : (c.tick th).toPerf = _ := tick_perf hprofile
  unfold softswitchOnReceive
  refine Sat.bind_ok fun _ _ => Sat.bind_ok fun _ _ => ?_
  split
  · dsimp only
    split
    · refine Sat.bind_ok fun _ _ => ?_
      show Spends th c.toPerf ((c.tick th).addCycles th _ _).toPerf
      rw [addCycles_perf hprofile, htick]
      exact Counts.dropped.spends (h := 0#32) hclock (Nat.le_refl _) (Nat.le_succ _)
        fun _ => Nat.zero_le _
    · unfold dispatchReceive
      refine Sat.bind (Sat.bind_ok fun target _ => callReceive_perf hprofile) fun c₁ _ h₁ => ?_
      refine Sat.bind_ok fun _ _ => ?_
      refine Sat.bind softswitchUpdateRTS_perf fun c₂ _ h₂ => Sat.bind_ok fun _ _ => ?_
      show Spends th c.toPerf (c₂.addCycles th _ _).toPerf
      rw [addCycles_perf hprofile, h₂, h₁, htick]
      exact Counts.recv.spends_inside hclock (Nat.le_refl _) (Nat.le_succ _) (Nat.le_succ _)
        (Nat.le_succ _)
  · trivial

theorem softswitchOnSend_spends {isApp : Bool} : Sat (softswitchOnSend th c m isApp)
    (fun out => Spends th c.toPerf out.2.1.toPerf) fun _ => True := by
  have htick : ((c.tick th).emit .onSend).toPerf = _ := tick_perf hprofile
  unfold softswitchOnSend
  refine Sat.bind (rtsPop_sat.mono (fun _ h => h.2.1.frame.perf) fun _ _ => trivial)
    fun popped _ h₁ => ?_
  obtain ⟨dev, c₁⟩ := popped
  have hpop : c₁.toPerf = { c.toPerf with clockReads := c.clockReads + 1 } := Eq.trans h₁ htick
  cases dev with
  | none =>
    show Spends th c.toPerf c₁.toPerf
    rw [hpop]
    exact .tick _
  | some d =>
    refine Sat.bind_ok fun _ _ => ?_
    refine Sat.bind_ok fun pinIndex _ => Sat.bind_ok fun pin _ => ?_
    refine Sat.bind (callSend_perf hprofile) fun q _ h₂ => ?_
    obtain ⟨r, c₂⟩ := q
    refine Sat.bind_ok fun _ _ => Sat.bind_ok fun s' _ => Sat.bind_ok fun _ _ => ?_
    refine Sat.bind softswitchUpdateRTS_perf fun c₃ _ h₃ => ?_
    have hcall : c₂.toPerf = { c₁.toPerf with
      sendHandlerCycles := c₁.sendHandlerCycles +
        deltaCycles (th.reading c₁.clockReads) (th.reading (c₁.clockReads + 1))
      clockReads := c₁.clockReads + 2 } := h₂
    have hupdate : c₃.toPerf = c₂.toPerf := h₃
    show Spends th c.toPerf (c₃.addCycles th _ _).toPerf
    rw [addCycles_perf hprofile, hupdate, hcall, hpop]
    exact Counts.send.spends_inside hclock (Nat.le_refl _) (Nat.le_succ _) (Nat.le_succ _)
      (Nat.le_succ _)

/-! ## The main loop -/

/-- The step spends no more than passes. -/
def MainSpends (th : PThread A n) (s : Main A n) (x : Outcome A n (Main A n)) : Prop :=
  Sat x (fun s' => Spends th s.ctxt.toPerf s'.ctxt.toPerf) fun _ => True

theorem waitPhase_spends : MainSpends th s (waitPhase th s w) := by
  have htick : (s.ctxt.tick th).toPerf = _ := tick_perf hprofile
  have hblocked : Spends th s.ctxt.toPerf ((s.ctxt.tick th).addCycles th
      (tinselCycleCount th s.ctxt) fun p t =>
        if w.wantToSend then { p with sendBlockedCycles := p.sendBlockedCycles + t }
        else { p with recvBlockedCycles := p.recvBlockedCycles + t }).toPerf := by
    rw [addCycles_perf hprofile, htick]
    cases w.wantToSend with
    | true =>
      exact Counts.sendBlocked.spends (h := 0#32) hclock (Nat.le_refl _) (Nat.le_succ _)
        fun _ => Nat.zero_le _
    | false =>
      exact Counts.recvBlocked.spends (h := 0#32) hclock (Nat.le_refl _) (Nat.le_succ _)
        fun _ => Nat.zero_le _
  unfold waitPhase
  dsimp only
  split
  · exact Sat.bind_ok fun _ _ => hblocked
  · exact hblocked

omit hprofile hclock in
theorem drainToAdequate_perf {fuel : Nat} : KeepsPerf c (drainToAdequate fuel c) := by
  induction fuel generalizing c with
  | zero => trivial
  | succ fuel ih =>
    unfold drainToAdequate
    dsimp only
    split
    · rfl
    · exact ih

omit hprofile hclock in
theorem makeAdequate_perf : KeepsPerf c (makeAdequate c w) := by
  unfold makeAdequate
  split
  · rfl
  · exact drainToAdequate_perf

theorem receiveBranch_spends : MainSpends th s (receiveBranch th s i) :=
  Sat.bind_ok fun _ _ =>
    Sat.bind (softswitchOnReceive_spends hprofile hclock) fun _ _ h => h

theorem prepare_spends : MainSpends th s (prepare th s) := by
  unfold prepare
  split
  · exact Sat.bind (softswitchOnSend_spends hprofile hclock) fun _ _ h => h
  · exact .refl _

omit hprofile hclock in
theorem mailboxDeliver_perf :
    Sat (mailboxDeliver th s) (fun s' => s'.ctxt.toPerf = s.ctxt.toPerf) fun _ => True := by
  rw [mailboxDeliver_eq]
  dsimp only
  split
  · rfl
  · exact Sat.bind_ok fun _ _ => rfl

theorem directDeliver_spends : MainSpends th s (directDeliver th s) :=
  Sat.bind (softswitchOnReceive_spends hprofile hclock) fun _ _ h => h

theorem deliver_spends {adequate : Bool} : MainSpends th s (deliver th s adequate) := by
  have hrest : MainSpends th s (do
      let s ← retarget s
      let direct ← deliversDirectly th s adequate
      let s ← if direct then directDeliver th s else mailboxDeliver th s
      return nextTarget s) := by
    refine Sat.bind_ok fun s₁ h₁ => Sat.bind_ok fun direct _ => ?_
    have hnext : ∀ s₂ : Main A n, Spends th s.ctxt.toPerf s₂.ctxt.toPerf →
        MainSpends th s (.ok (nextTarget s₂)) := by
      intro s₂ h₂
      unfold nextTarget
      split
      · exact h₂
      · exact h₂
    rw [← retarget_ctxt h₁] at hnext
    cases direct with
    | true =>
      exact Sat.bind (directDeliver_spends hprofile hclock) fun s₂ _ h₂ => hnext s₂ h₂
    | false => exact Sat.bind mailboxDeliver_perf fun s₂ _ h₂ => hnext s₂ (.of_eq h₂)
  rw [deliver_eq]
  split
  · exact Sat.bind_ok fun _ _ => hrest
  · exact hrest

theorem sendBranch_spends {adequate : Bool} : MainSpends th s (sendBranch th s w adequate i) := by
  refine Sat.bind_ok fun _ _ => Sat.bind_ok fun _ _ => ?_
  split
  · exact .refl _
  · refine Sat.bind (prepare_spends hprofile hclock) fun s₁ _ h₁ => ?_
    split
    · exact (deliver_spends hprofile hclock).mono (fun _ h => h₁.trans hclock h) fun _ _ => trivial
    · exact h₁

theorem act_spends {adequate : Bool} : MainSpends th s (act th s w adequate i) := by
  unfold act
  split
  · split
    · exact sendBranch_spends hprofile hclock
    · exact receiveBranch_spends hprofile hclock
  · split
    · exact receiveBranch_spends hprofile hclock
    · exact Sat.bind_ok fun _ _ => sendBranch_spends hprofile hclock

theorem wake_spends : MainSpends th s (wake th s w i) := by
  unfold wake
  refine Sat.bind (waitPhase_spends hprofile hclock) fun s₁ _ h₁ => ?_
  split
  · refine Sat.bind softswitchOnHardwareIdle_perf fun c₂ _ h₂ => ?_
    exact h₁.trans hclock (.of_eq h₂)
  · refine Sat.bind makeAdequate_perf fun c₂ _ h₂ => ?_
    refine Sat.bind (act_spends hprofile hclock) fun s₃ _ h₃ => ?_
    exact (h₁.trans hclock (.of_eq h₂)).trans hclock h₃

end Profile

/-! ## Flushes -/

/-- The counters, in the order of a record. -/
def Perf.words (p : Perf) : List (BitVec 32) :=
  [p.threadCycles, p.sendBlockedCycles, p.recvBlockedCycles, p.idleCycles, p.perfmonCycles,
    p.sendCycles, p.sendHandlerCycles, p.recvCycles, p.recvHandlerCycles]

/-- No cycle is counted twice, and none of another period. -/
structure Perf.Consistent (p : Perf) : Prop where
  nested : p.Nested
  spent : p.spent ≤ p.threadCycles.toNat

/-- The context in which `perfmonFlush` calls `softswitch_flush_perfmon`. -/
def flushContext (th : PThread A n) (c : PThreadContext A n) : PThreadContext A n :=
  let threadEnd := tinselCycleCount th c
  let c := (c.tick th).mapPerf fun p =>
    { p with threadCycles := deltaCycles p.threadCyclesTstart threadEnd }
  let threadStart := tinselCycleCount th c
  makeSpace ((c.tick th).mapPerf fun p => { p with threadCyclesTstart := threadStart })

/-- The idle work is over, and the time it took is counted. -/
def idleCounted (th : PThread A n) (s : Main A n) (c : PThreadContext A n) : PThreadContext A n :=
  c.addCycles th (tinselCycleCount th s.ctxt) fun p t => { p with idleCycles := p.idleCycles + t }

/-- The step from `s` calls `softswitch_flush_perfmon` in the context `c`. -/
inductive FlushCall (th : PThread A n) (s : Main A n) (i : LoopInput A) :
    PThreadContext A n → Prop
  | mk {c : PThreadContext A n} (hpc : s.pc = .top)
      (hidle : (!i.canRecv && (!(waitLocals s).wantToSend || !i.canSend)) = true)
      (hover : softswitchOnIdle th (s.ctxt.tick th) = .ok (false, c))
      (hdue : flushDue th s = true) : FlushCall th s i (flushContext th (idleCounted th s c))

/-- The thread is in state `s`, and the current period began at the time `t`: when it entered the
loop, or with the last flush. -/
inductive Period (th : PThread A n) (c : PThreadContext A n) (buf : Message A) :
    Nat → Main A n → Prop
  | start {s : Main A n} (h : softswitchMain th c buf = .ok s) :
      Period th c buf (th.clock (s.ctxt.clockReads - 1)) s
  | within {t : Nat} {s s' : Main A n} {i : LoopInput A} (h : Period th c buf t s)
      (hstep : mainStep th s i = .ok s') (hno : ∀ c', ¬FlushCall th s i c') : Period th c buf t s'
  | flush {t : Nat} {s s' : Main A n} {i : LoopInput A} {c' : PThreadContext A n}
      (h : Period th c buf t s) (hstep : mainStep th s i = .ok s') (hflush : FlushCall th s i c') :
      Period th c buf (th.clock (c'.clockReads - 1)) s'

/-- Every run is in some period. -/
theorem exists_period {buf : Message A} {inputs : List (LoopInput A)}
    (h : mainRun th c buf inputs = .ok s) : ∃ t, Period th c buf t s := by
  obtain ⟨s₀, hstart, hrun⟩ := bind_eq_ok.1 h
  refine runList_invariant (I := fun s => ∃ t, Period th c buf t s) ?_ ⟨_, .start hstart⟩ hrun
  rintro s i s' ⟨t, hperiod⟩ hstep
  by_cases hflush : ∃ c', FlushCall th s i c'
  · obtain ⟨c', hflush⟩ := hflush
    exact ⟨_, hperiod.flush hstep hflush⟩
  · exact ⟨t, hperiod.within hstep fun c' hc' => hflush ⟨c', hc'⟩⟩

/-- In a period that began at the time `t`, no more cycles have been counted than have passed. -/
structure Accounted (th : PThread A n) (t : Nat) (p : Perf) : Prop where
  tstart : p.threadCyclesTstart = BitVec.ofNat 32 t
  start_le : t ≤ th.clock p.clockReads
  spent : th.clock p.clockReads - t < 2 ^ 32 → p.Nested ∧ p.spent ≤ th.clock p.clockReads - t

namespace Accounted

/-- All counters are zero. -/
theorem fresh (k : Nat) :
    Accounted th (th.clock k) ⟨th.reading k, 0, 0, 0, 0, 0, 0, 0, 0, 0, k⟩ :=
  ⟨rfl, Nat.le_refl _, fun _ => ⟨⟨Nat.le_refl _, Nat.le_refl _⟩, Nat.zero_le _⟩⟩

theorem spends (hclock : Monotone th.clock) (h : Accounted th t p) (hs : Spends th p p') :
    Accounted th t p' := by
  have hle := hclock hs.reads
  have hstart := h.start_le
  refine ⟨hs.tstart.trans h.tstart, hstart.trans hle, fun hshort => ?_⟩
  obtain ⟨hnested, hspent⟩ := h.spent (by omega)
  have helapsed : th.elapsed p p' = th.clock p'.clockReads - th.clock p.clockReads := rfl
  obtain ⟨hnested', hspent'⟩ := hs.spent hnested (by omega)
  exact ⟨hnested', by omega⟩

end Accounted

/-- The record of a flush holds the counters for which there is room. -/
theorem perfmonRecord_words : (perfmonRecord th c).payload.take c.toPerf.words.length =
    c.toPerf.words.take th.uninitHostMsg.payload.length := by
  obtain ⟨msg, f, hflush, hmsg⟩ : ∃ (msg : HostMsg) (f : Perf → Perf),
      softswitchFlushPerfmon th c = (pushWords c msg c.toPerf.words).mapPerf f ∧
      msg.payload = th.uninitHostMsg.payload := by
    unfold softswitchFlushPerfmon Perf.words
    exact ⟨_, _, rfl, rfl⟩
  have hrecord : perfmonRecord th c = (storeWords c msg 0 c.toPerf.words).2 := by
    rw [← pushWords_cell]
    unfold perfmonRecord
    rw [hflush]
    rfl
  rw [← hmsg]
  rw [hrecord]
  rcases Nat.lt_or_ge msg.payload.length c.toPerf.words.length with hlt | hge
  · rw [storeWords_oversize (Nat.zero_le _) (by rw [Nat.zero_add]; exact hlt)]
    exact List.take_of_length_le (by simp)
  · rw [storeWords_inside (by rw [Nat.zero_add]; exact hge), List.take_of_length_le hge]
    exact List.take_left

/-! ## Runs -/

section Profile

variable (hprofile : th.build.enableProfile.isSome = true)

include hprofile

theorem flushContext_perf : (flushContext th c).toPerf = { c.toPerf with
    threadCyclesTstart := th.reading (c.clockReads + 1)
    threadCycles := deltaCycles c.threadCyclesTstart (th.reading c.clockReads)
    clockReads := c.clockReads + 2 } := by
  have hspace : ∀ c₁ : PThreadContext A n, (makeSpace c₁).toPerf = c₁.toPerf :=
    fun _ => HostStep.makeSpace.frame.perf
  unfold flushContext
  rw [hspace]
  simp [PThreadContext.tick, PThreadContext.mapPerf, hprofile, tinselCycleCount, PThread.reading]

/-- The time that the flush takes is counted when it is over. -/
theorem perfmonFlush_eq : perfmonFlush th c =
    (softswitchFlushPerfmon th (flushContext th c)).addCycles th (th.reading (c.clockReads + 1))
      fun p t => { p with perfmonCycles := t } := by
  have hstart : c.clockReads + 1 = (c.tick th).clockReads :=
    (congrArg Perf.clockReads (tick_perf hprofile)).symm
  rw [addCycles_eq hprofile, hstart]
  unfold perfmonFlush flushContext
  rfl

/-- The period that follows starts with the flush itself. -/
theorem perfmonFlush_perf : (perfmonFlush th c).toPerf =
    ⟨th.reading (c.clockReads + 1), 0, 0, 0, 0,
      deltaCycles (th.reading (c.clockReads + 1)) (th.reading (c.clockReads + 2)), 0, 0, 0, 0,
      c.clockReads + 3⟩ := by
  have hpush : ∀ (c₁ : PThreadContext A n) msg words, (pushWords c₁ msg words).toPerf = c₁.toPerf :=
    fun _ _ _ => pushWords_hostStep.frame.perf
  have hflushed : (softswitchFlushPerfmon th (flushContext th c)).toPerf =
      ⟨th.reading (c.clockReads + 1), 0, 0, 0, 0, 0, 0, 0, 0, 0, c.clockReads + 2⟩ := by
    unfold softswitchFlushPerfmon
    simp only [PThreadContext.mapPerf, hpush, flushContext_perf hprofile]
  rw [perfmonFlush_eq hprofile, addCycles_perf hprofile, hflushed]

omit hprofile in
theorem initDevice_perf : KeepsPerf c (initDevice th c d) := by
  unfold initDevice
  refine Sat.bind runCalls_perf fun c₁ _ h₁ => ?_
  have hready : Sat (callReadyToSend th c₁ d) (fun r => r.2.toPerf = c₁.toPerf) fun _ => True :=
    Sat.bind runCalls_perf fun _ _ h => h
  refine Sat.bind hready fun r _ h₂ => ?_
  have h : r.2.toPerf = c.toPerf := h₂.trans h₁
  dsimp only
  split
  · exact rtsAppend_perf.mono (fun _ h₃ => h₃.trans h) fun _ _ => trivial
  · exact h

/-- The first period starts with the reading before the loop. -/
theorem softswitchMain_accounted {buf : Message A} (hclock : Monotone th.clock) :
    Sat (softswitchMain th c buf) (fun s => s.pc ≠ .parked →
      Accounted th (th.clock (s.ctxt.clockReads - 1)) s.ctxt.toPerf) fun _ => True := by
  have hinit : Sat (softswitchInit th (emptiedBuffer c)) (fun c₁ => c₁.toPerf =
      ⟨0, 0, 0, 0, 0, 0, 0, 0, 0, 0, c.clockReads⟩) fun _ => True := by
    refine Sat.bind_ok fun _ _ => Sat.foldlM (fun c₁ d _ h => ?_) (if_pos hprofile)
    exact initDevice_perf.mono (fun _ h' => h'.trans h) fun _ _ => trivial
  unfold softswitchMain
  split
  · exact fun h => absurd rfl h
  · refine Sat.bind hinit fun c₁ _ h₁ => ?_
    have hperf : ((c₁.tick th).mapPerf fun p =>
        { p with threadCyclesTstart := tinselCycleCount th c₁ }).toPerf =
        ⟨th.reading c.clockReads, 0, 0, 0, 0, 0, 0, 0, 0, 0, c.clockReads + 1⟩ := by
      simp only [PThreadContext.mapPerf, tick_perf hprofile, h₁, tinselCycleCount, PThread.reading]
    intro _
    rw [hperf]
    exact (Accounted.fresh c.clockReads).spends hclock (.tick _)

section Clock

variable (hclock : Monotone th.clock)

include hclock

/-- The idle work that found nothing is counted from the loop top on. -/
theorem idleCounted_spends (hidle : c.toPerf = (s.ctxt.tick th).toPerf) :
    Spends th s.ctxt.toPerf (idleCounted th s c).toPerf := by
  unfold idleCounted
  rw [addCycles_perf hprofile, hidle, tick_perf hprofile]
  exact Counts.idle.spends (h := 0#32) hclock (Nat.le_refl _) (Nat.le_succ _)
    fun _ => Nat.zero_le _

/-- An iteration without a flush. -/
theorem loopTop_spends (hpc : s.pc = .top) (hno : ∀ c', ¬FlushCall th s i c') :
    MainSpends th s (loopTop th s i) := by
  have htick : Spends th s.ctxt.toPerf (s.ctxt.tick th).toPerf := by
    rw [tick_perf hprofile]
    exact .tick _
  unfold loopTop
  dsimp only
  split
  · rename_i hidle
    refine Sat.bind softswitchOnIdle_perf fun out hout hperf => ?_
    obtain ⟨more, c⟩ := out
    have hperf : c.toPerf = (s.ctxt.tick th).toPerf := hperf
    cases more with
    | true => exact htick.trans hclock (.of_eq hperf)
    | false =>
      have hdue : flushDue th s = true → False := fun h => hno _ (.mk hpc hidle hout h)
      obtain ⟨rate, hrate⟩ := Option.isSome_iff_exists.1 hprofile
      show Spends th s.ctxt.toPerf (perfmonIdle th { s with ctxt := c } _).ctxt.toPerf
      unfold flushDue at hdue
      unfold perfmonIdle
      rw [hrate] at hdue ⊢
      dsimp only
      split
      · rename_i hstart
        split
        · exact idleCounted_spends hprofile hclock hperf
        · rename_i hrate
          have hstart : s.startPerfmon = true := hstart
          refine (hdue ?_).elim
          rw [Option.any_some, hstart, Bool.true_and, decide_eq_true_eq]
          exact Nat.le_of_not_lt hrate
      · exact htick.trans hclock (.of_eq hperf)
  · exact htick

/-- A step with a flush counts the idle work and then flushes. -/
theorem FlushCall.flushes (h : FlushCall th s i c) : ∃ c₁ s', c = flushContext th c₁ ∧
    Spends th s.ctxt.toPerf c₁.toPerf ∧ mainStep th s i = .ok s' ∧
    s'.ctxt = perfmonFlush th c₁ := by
  obtain @⟨c₀, hpc, hidle, hover, hdue⟩ := h
  have hperf : c₀.toPerf = (s.ctxt.tick th).toPerf := softswitchOnIdle_perf.of_ok hover
  have hflush : (perfmonIdle th { s with ctxt := c₀ } (tinselCycleCount th s.ctxt)).ctxt =
      perfmonFlush th (idleCounted th s c₀) := by
    obtain ⟨rate, hrate⟩ := Option.isSome_iff_exists.1 hprofile
    unfold flushDue at hdue
    rw [hrate, Option.any_some, Bool.and_eq_true, decide_eq_true_eq] at hdue
    unfold perfmonIdle idleCounted
    rw [hrate]
    dsimp only
    rw [if_pos hdue.1, if_neg (Nat.not_lt.2 hdue.2)]
  refine ⟨idleCounted th s c₀, { perfmonIdle th { s with ctxt := c₀ } (tinselCycleCount th s.ctxt)
    with pc := .wait (waitLocals s) }, rfl, idleCounted_spends hprofile hclock hperf, ?_, hflush⟩
  have htop : mainStep th s i = loopTop th s i := by
    unfold mainStep
    rw [hpc]
  rw [htop]
  unfold loopTop
  rw [if_pos hidle, hover]
  rfl

theorem Accounted.perfmonFlush : Accounted th (th.clock (c.clockReads + 1))
    (perfmonFlush th c).toPerf := by
  rw [perfmonFlush_perf hprofile]
  exact (Accounted.fresh (c.clockReads + 1)).spends hclock
    (Counts.perfmon.spends (h := 0#32) hclock (Nat.le_refl _) (Nat.le_succ _)
      fun _ => Nat.zero_le _)

theorem Period.accounted {buf : Message A} (h : Period th c₀ buf t s) (hpc : s.pc ≠ .parked) :
    Accounted th t s.ctxt.toPerf := by
  induction h with
  | start h => exact (softswitchMain_accounted hprofile hclock).of_ok h hpc
  | @within t s s' i _ hstep hno ih =>
    unfold mainStep at hstep
    split at hstep
    · cases hstep
      exact ih hpc
    · rename_i htop
      refine (ih (by rw [htop]; simp)).spends hclock ?_
      exact (loopTop_spends hprofile hclock htop hno).of_ok hstep
    · rename_i w hwait
      refine (ih (by rw [hwait]; simp)).spends hclock ?_
      exact (wake_spends hprofile hclock).of_ok hstep
  | @flush t s s' i c' _ hstep hflush ih =>
    obtain ⟨c₁, s₁, rfl, -, hstep', hctxt⟩ := hflush.flushes hprofile hclock
    cases hstep.symm.trans hstep'
    rw [hctxt, flushContext_perf hprofile]
    exact .perfmonFlush hprofile hclock

/-- In every record, the counters of a period that is shorter than `2 ^ 32` cycles add up to no more
than its length, and those of the handlers are part of those of their events. -/
theorem cycles_consistent {buf : Message A} (h : Period th c₀ buf t s) (hflush : FlushCall th s i c)
    (hshort : th.clock (c.clockReads - 2) - t < 2 ^ 32) :
    c.toPerf.Consistent ∧
    (perfmonRecord th c).payload.take c.toPerf.words.length =
      c.toPerf.words.take th.uninitHostMsg.payload.length ∧
    ∃ s', mainStep th s i = .ok s' ∧
      s'.ctxt.toHostBuffer = (hostMsgBufferPush c (perfmonRecord th c)).toHostBuffer := by
  have htop : s.pc ≠ .parked := by
    cases hflush
    simp_all
  obtain ⟨c₁, s', rfl, hspends, hstep, hctxt⟩ := hflush.flushes hprofile hclock
  have hacc : Accounted th t c₁.toPerf :=
    (h.accounted hprofile hclock htop).spends hclock hspends
  have hperf := flushContext_perf (c := c₁) hprofile
  have hreads : (flushContext th c₁).clockReads - 2 = c₁.clockReads := by rw [hperf]; rfl
  rw [hreads] at hshort
  obtain ⟨⟨hsend, hrecv⟩, hspent⟩ := hacc.spent hshort
  refine ⟨⟨?_, ?_⟩, perfmonRecord_words, s', hstep, ?_⟩
  · rw [hperf]
    exact ⟨hsend, hrecv⟩
  · have hcycles : (flushContext th c₁).threadCycles.toNat = th.clock c₁.clockReads - t := by
      rw [hperf]
      rw [hacc.tstart]
      exact (deltaCycles_ofNat hacc.start_le).trans (Nat.mod_eq_of_lt hshort)
    rw [hcycles, hperf]
    exact hspent
  · have hcount : ∀ (c₂ : PThreadContext A n) tstart add,
        (c₂.addCycles th tstart add).toHostBuffer = c₂.toHostBuffer := fun _ _ _ => rfl
    rw [hctxt, perfmonFlush_eq hprofile, hcount]
    exact (softswitchFlushPerfmon_push th (flushContext th c₁)).1

end Clock

end Profile

/-- The counter of the thread wraps soon, and passes on at every other reading. -/
def wrappingThread : PThread flagsApp 2 :=
  { flagsThread profilingBuild with
    clock := fun k => 2 ^ 32 - 2 + k / 2
    devices_fit := flagsThread_fits }

theorem wrappingThread_monotone : Monotone wrappingThread.clock :=
  fun _ _ h => Nat.add_le_add_left (Nat.div_le_div_right h) _

/-- The first period of the thread. -/
theorem cycles_consistent_wrapping : ∃ s c s',
    Period wrappingThread (flagsContext 0#32 0#32) (flagsMessage 0#16 0#32) (2 ^ 32 - 2) s ∧
    FlushCall wrappingThread s allIdle c ∧ c.threadCycles = 3#32 ∧ c.toPerf.Consistent ∧
    (perfmonRecord wrappingThread c).payload.take c.toPerf.words.length =
      c.toPerf.words.take wrappingThread.uninitHostMsg.payload.length ∧
    mainStep wrappingThread s allIdle = .ok s' ∧
    s'.ctxt.toHostBuffer = (hostMsgBufferPush c (perfmonRecord wrappingThread c)).toHostBuffer := by
  obtain ⟨s₀, s₁, s₂, s, c, hmain, hfirst, hstep₀, hdue₀, hstep₁, hdue₁, hstep₂, hpc₂, hflush,
      hcycles, hlast⟩ : ∃ s₀ s₁ s₂ s c, softswitchMain wrappingThread (flagsContext 0#32 0#32)
        (flagsMessage 0#16 0#32) = .ok s₀ ∧ s₀.ctxt.clockReads - 1 = 0 ∧
      mainStep wrappingThread s₀ allIdle = .ok s₁ ∧ flushDue wrappingThread s₀ = false ∧
      mainStep wrappingThread s₁ allIdle = .ok s₂ ∧ flushDue wrappingThread s₁ = false ∧
      mainStep wrappingThread s₂ allIdle = .ok s ∧ s₂.pc ≠ .top ∧
      FlushCall wrappingThread s allIdle c ∧ c.threadCycles = 3#32 ∧ c.clockReads - 2 = 7 :=
    ⟨_, _, _, _, _, rfl, rfl, rfl, rfl, rfl, rfl, rfl, by decide, .mk rfl rfl rfl rfl, rfl, rfl⟩
  have hperiod := Period.start hmain
  rw [hfirst] at hperiod
  have hperiod₁ := hperiod.within hstep₀ fun _ h => by
    cases h
    simp_all
  have hperiod₂ := hperiod₁.within hstep₁ fun _ h => by
    cases h
    simp_all
  have hperiod₃ := hperiod₂.within hstep₂ fun _ h => by
    cases h
    contradiction
  have hshort : wrappingThread.clock (c.clockReads - 2) - (2 ^ 32 - 2) < 2 ^ 32 := by
    rw [hlast]
    decide
  obtain ⟨hconsistent, hwords, s', hstep, hpush⟩ :=
    cycles_consistent rfl wrappingThread_monotone hperiod₃ hflush hshort
  exact ⟨s, c, s', hperiod₃, hflush, hcycles, hconsistent, hwords, hstep, hpush⟩

end Softswitch
