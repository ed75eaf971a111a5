import Softswitch.Apps.Barrier
import Softswitch.Lib.Tally

/-!
# The barrier runs in lock-step

For each device `i` and time `τ`, the ticks for `τ` that `i` has seen and those that are on
their way to it are as many as the devices that have reached `τ` (`Inv.law`).  A device that
has passed `τ` has seen all of them, so no device is more than one step ahead of another.
-/

namespace Softswitch.Barrier

open Function Runs Tally

variable {P : Platform} {N : Nat} {maxTime : BitVec 32} {s s' : GraphState app (Device N)}
  {e : GraphEvent app (Device N)} {es : List (GraphEvent app (Device N))} {i j : Fin N} {τ : Nat}

/-! ## What is counted -/

/-- The states of the dev devices. -/
def dev (s : GraphState app (Device N)) (i : Fin N) : DevState := (s.state (.dev i)).toDevState

/-- The state of the halt device. -/
def halt (s : GraphState app (Device N)) : HaltState := (s.state .halt).toHaltState

/-- The tick a message carries. -/
def tick (m : GraphMessage app (Device N)) : Nat := BitVec.toNat m.payload

/-- The ticks for time `τ` that are on their way to device `i`. -/
def ticks (s : GraphState app (Device N)) (i : Fin N) (τ : Nat) : Nat :=
  s.pending.countP fun m => m.dest = (.dev i, 0) ∧ tick m = τ

/-- The reports that are on their way to the halt device. -/
def reports (s : GraphState app (Device N)) : Nat := s.pending.countP fun m => m.dest = (.halt, 0)

/-- The ticks for time `τ` that a device in state `σ` has seen. -/
def DevState.seen (N : Nat) (σ : DevState) (τ : Nat) : Nat :=
  if τ < σ.t.toNat then N
  else if τ = σ.t.toNat then σ.seenNow.toNat
  else if τ = σ.t.toNat + 1 then σ.seenNext.toNat
  else 0

/-- The devices that have reached time `τ`. -/
def reached (s : GraphState app (Device N)) (τ : Nat) : Nat :=
  tally (fun σ : DevState => τ ≤ σ.t.toNat) (dev s)

/-- The devices that have reported. -/
def halted (s : GraphState app (Device N)) : Nat :=
  tally (fun σ : DevState => σ.halted = true) (dev s)

/-! ## Steps -/

/-- The cached flags are what the readiness handlers answer. -/
structure Fresh (N : Nat) (maxTime : BitVec 32) (s : GraphState app (Device N)) : Prop where
  devFlags : ∀ i, s.flags (.dev i) = devReadyToSendHandler ⟨maxTime, BitVec.ofNat 32 N⟩ (dev s i)
  haltFlags : s.flags .halt = 0#32

/-- What one step of the graph is, in terms of the protocol. -/
inductive Stepped (P : Platform) (maxTime : BitVec 32) (s : GraphState app (Device N)) :
    GraphEvent app (Device N) → GraphState app (Device N) → Prop
  /-- A device goes on to the next time. -/
  | advance {s' : GraphState app (Device N)} {i : Fin N} (hgoing : (dev s i).t < maxTime)
      (hfull : (dev s i).seenNow = BitVec.ofNat 32 N)
      (hdev : dev s' = update (dev s) i
        (devOutSendHandler P ⟨maxTime, BitVec.ofNat 32 N⟩ (dev s i)).1)
      (hhalt : halt s' = halt s)
      (hpending : s'.pending = s.pending + (graph P N maxTime).messages (.dev i) 0
        ((dev s i).t + 1#32)) :
      Stepped P maxTime s (.send (.dev i) 0 true ((dev s i).t + 1#32)
        (devOutSendHandler P ⟨maxTime, BitVec.ofNat 32 N⟩ (dev s i)).2) s'
  /-- A device reports that it is done. -/
  | report {s' : GraphState app (Device N)} {i : Fin N} {payload : app.Payload}
      (hover : ¬(dev s i).t < maxTime) (hnot : (dev s i).halted = false)
      (hdev : dev s' = update (dev s) i (devHaltSendHandler (dev s i)))
      (hhalt : halt s' = halt s)
      (hpending : s'.pending = s.pending + (graph P N maxTime).messages (.dev i) 1 payload) :
      Stepped P maxTime s (.send (.dev i) 1 true payload []) s'
  | forward {s' : GraphState app (Device N)} {m : GraphMessage app (Device N)}
      (hdev : dev s' = dev s) (hhalt : halt s' = halt s) (hpending : s'.pending = s.pending) :
      Stepped P maxTime s (.forward m) s'
  /-- A device sees a tick. -/
  | tick {s' : GraphState app (Device N)} {i : Fin N} {m : GraphMessage app (Device N)}
      (hdest : m.dest = (.dev i, 0)) (hpending : s.pending = m ::ₘ s'.pending)
      (hdev : dev s' = update (dev s) i (devInReceiveHandler P (dev s i) m.payload).1)
      (hhalt : halt s' = halt s) :
      Stepped P maxTime s (.receive m (devInReceiveHandler P (dev s i) m.payload).2) s'
  /-- The halt device sees a report. -/
  | count {s' : GraphState app (Device N)} {m : GraphMessage app (Device N)}
      (hdest : m.dest = (.halt, 0))
      (hpending : s.pending = m ::ₘ s'.pending) (hdev : dev s' = dev s)
      (hhalt : halt s' = (haltInReceiveHandler P ⟨maxTime, BitVec.ofNat 32 N⟩ (halt s)).1) :
      Stepped P maxTime s (.receive m
        (haltInReceiveHandler P ⟨maxTime, BitVec.ofNat 32 N⟩ (halt s)).2) s'

/-- A device is ready to tick, to report, or not ready. -/
theorem devReadyToSendHandler_cases (gProps : GraphProps) (σ : DevState) :
    (σ.t < gProps.maxTime ∧ σ.seenNow = gProps.devCount ∧
      devReadyToSendHandler gProps σ = 1#32) ∨
    (¬σ.t < gProps.maxTime ∧ σ.halted = false ∧ devReadyToSendHandler gProps σ = 2#32) ∨
    (¬(σ.t < gProps.maxTime ∧ σ.seenNow = gProps.devCount) ∧
      (σ.t < gProps.maxTime ∨ σ.halted = true) ∧ devReadyToSendHandler gProps σ = 0#32) := by
  unfold devReadyToSendHandler
  by_cases hgoing : σ.t < gProps.maxTime
  · by_cases hfull : σ.seenNow = gProps.devCount
    · simp [hgoing, hfull, outputFlagDevOut]
    · simp [hgoing, hfull]
  · cases hhalted : σ.halted with
    | false => simp [hgoing, outputFlagHaltOut]
    | true => simp [hgoing]

section Settle

variable {σ : State}

theorem dev_ne (h : j ≠ i) : Device.dev j ≠ Device.dev i := fun heq => h (Device.dev.inj heq)

theorem halt_ne : (Device.halt : Device N) ≠ .dev i := nofun

theorem ne_halt : Device.dev i ≠ .halt := nofun

theorem settle_dev : dev ((graph P N maxTime).settle s (.dev i) σ) =
    update (dev s) i σ.toDevState := by
  funext j
  unfold dev
  by_cases hj : j = i
  · subst hj
    rw [update_self, Graph.settle_state_self]
    rfl
  · rw [update_of_ne hj, Graph.settle_state_of_ne (dev_ne hj)]

theorem settle_dev_halt : halt ((graph P N maxTime).settle s (.dev i) σ) = halt s := by
  unfold halt
  rw [Graph.settle_state_of_ne halt_ne]

theorem settle_halt_dev : dev ((graph P N maxTime).settle s .halt σ) = dev s := by
  funext j
  unfold dev
  rw [Graph.settle_state_of_ne ne_halt]

theorem settle_halt : halt ((graph P N maxTime).settle s .halt σ) = σ.toHaltState := by
  unfold halt
  rw [Graph.settle_state_self]
  rfl

theorem Fresh.settle (h : Fresh N maxTime s) (d : Device N) (σ : State) :
    Fresh N maxTime ((graph P N maxTime).settle s d σ) := by
  cases d with
  | dev i =>
    refine ⟨fun j => ?_, ?_⟩
    · rw [settle_dev]
      by_cases hj : j = i
      · subst hj
        rw [update_self, Graph.settle_flags_self]
        rfl
      · rw [update_of_ne hj, Graph.settle_flags_of_ne (dev_ne hj)]
        exact h.devFlags j
    · rw [Graph.settle_flags_of_ne halt_ne]
      exact h.haltFlags
  | halt =>
    refine ⟨fun j => ?_, ?_⟩
    · rw [settle_halt_dev, Graph.settle_flags_of_ne ne_halt]
      exact h.devFlags j
    · rw [Graph.settle_flags_self]
      rfl

theorem ready_calls {d : Device N} : ((graph P N maxTime).ready d σ).calls = [] := by
  cases d with
  | dev i => rfl
  | halt => rfl

end Settle

/-- Every step of the graph is one of the protocol. -/
theorem Fresh.stepped (hfresh : Fresh N maxTime s) (h : (graph P N maxTime).Step s e s') :
    Stepped P maxTime s e s' := by
  cases h with
  | @send d pinIndex pin payload r hready hindex hpin hr =>
    rw [ready_calls, List.append_nil]
    cases d with
    | halt =>
      rw [hfresh.haltFlags] at hready
      cases hready
    | dev i =>
      have hflags := hfresh.devFlags i
      have hdev : dev ((graph P N maxTime).settle s (.dev i) r.state) = _ := settle_dev
      have hhalt : halt ((graph P N maxTime).settle s (.dev i) r.state) = _ := settle_dev_halt
      rcases devReadyToSendHandler_cases ⟨maxTime, BitVec.ofNat 32 N⟩ (dev s i) with
        ⟨hgoing, hfull, hone⟩ | ⟨hover, hnot, htwo⟩ | ⟨-, -, hzero⟩
      · rw [hflags, hone] at hindex
        obtain rfl : 0 = pinIndex := Option.some.inj hindex
        cases hpin
        subst hr
        refine .advance hgoing hfull hdev hhalt ?_
        exact add_right_comm s.owed _ s.flight
      · rw [hflags, htwo] at hindex
        obtain rfl : 1 = pinIndex := Option.some.inj hindex
        cases hpin
        subst hr
        refine .report hover hnot hdev hhalt ?_
        exact add_right_comm s.owed _ s.flight
      · rw [hflags, hzero] at hready
        cases hready
  | @forward m owed howed =>
    refine .forward rfl rfl ?_
    show owed + m ::ₘ s.flight = s.owed + s.flight
    rw [howed, Multiset.add_cons, Multiset.cons_add]
  | @receive m pin eState flight r hflight hpin hr =>
    rw [ready_calls, List.append_nil]
    have hpending : s.pending = m ::ₘ (s.owed + flight) := by
      unfold GraphState.pending
      rw [hflight, Multiset.add_cons]
    obtain ⟨source, ⟨d, k⟩, msg⟩ := m
    cases d with
    | dev i =>
      have hdev : dev ((graph P N maxTime).settle s (.dev i) r.state) = _ := settle_dev
      have hhalt : halt ((graph P N maxTime).settle s (.dev i) r.state) = _ := settle_dev_halt
      obtain rfl : k = 0 := Nat.lt_one_iff.1 (List.getElem?_eq_some_iff.1 hpin).1
      cases hpin
      subst hr
      exact .tick rfl hpending hdev hhalt
    | halt =>
      have hdev : dev ((graph P N maxTime).settle s .halt r.state) = _ := settle_halt_dev
      have hhalt : halt ((graph P N maxTime).settle s .halt r.state) = _ := settle_halt
      obtain rfl : k = 0 := Nat.lt_one_iff.1 (List.getElem?_eq_some_iff.1 hpin).1
      cases hpin
      subst hr
      exact .count rfl hpending hdev hhalt
  | @compute d r hready hr =>
    cases d with
    | dev i =>
      have hflags := hfresh.devFlags i
      rcases devReadyToSendHandler_cases ⟨maxTime, BitVec.ofNat 32 N⟩ (dev s i) with
        ⟨-, -, h⟩ | ⟨-, -, h⟩ | ⟨-, -, h⟩ <;>
      · rw [hflags, h] at hready
        cases hready
    | halt =>
      rw [hfresh.haltFlags] at hready
      cases hready
  | @hardwareIdle d handler r hhandler hr =>
    cases d with
    | dev i => cases hhandler
    | halt => cases hhandler

theorem Fresh.congr (h : Fresh N maxTime s) (hstate : s'.state = s.state)
    (hflags : s'.flags = s.flags) : Fresh N maxTime s' := by
  refine ⟨fun i => ?_, ?_⟩
  · unfold dev
    rw [hflags, hstate]
    exact h.devFlags i
  · rw [hflags]
    exact h.haltFlags

theorem Fresh.step (hfresh : Fresh N maxTime s) (h : (graph P N maxTime).Step s e s') :
    Fresh N maxTime s' := by
  cases h with
  | @send d _ _ _ r _ _ _ _ => exact (hfresh.settle (P := P) d r.state).congr rfl rfl
  | forward _ => exact hfresh.congr rfl rfl
  | @receive m _ _ _ r _ _ _ => exact (hfresh.settle (P := P) m.dest.1 r.state).congr rfl rfl
  | compute _ _ => exact hfresh.settle _ _
  | hardwareIdle _ _ => exact hfresh.settle _ _

/-! ## Counting -/

variable {payload : BitVec 32} {k : Fin N}

theorem targets_out : (graph P N maxTime).targets (.dev i) 0 =
    Finset.univ.val.map fun j => (Device.dev j, 0) := rfl

/-- A device ticks each device once. -/
theorem messages_ticks : ((graph P N maxTime).messages (.dev i) 0 payload).countP
    (fun m => m.dest = (.dev k, 0) ∧ tick m = τ) = if τ = payload.toNat then 1 else 0 := by
  have hmap : (graph P N maxTime).messages (.dev i) 0 payload =
      Finset.univ.val.map fun j : Fin N => ⟨(.dev i, 0), (.dev j, 0), payload⟩ := by
    unfold Graph.messages
    rw [targets_out, Multiset.map_map]
    rfl
  rw [hmap, Multiset.countP_map]
  show (Finset.univ.filter fun j : Fin N => _).card = _
  split
  · rename_i h
    subst h
    rw [Finset.card_eq_one]
    refine ⟨k, Finset.ext fun j => ?_⟩
    simp [tick, Prod.ext_iff]
  · rename_i h
    rw [Finset.card_eq_zero, Finset.filter_eq_empty_iff]
    rintro j - ⟨-, htick⟩
    exact h htick.symm

theorem messages_ticks_reports : ((graph P N maxTime).messages (.dev i) 0 payload).countP
    (fun m => m.dest = (.halt, 0)) = 0 := by
  rw [Multiset.countP_eq_zero]
  intro m hm
  obtain ⟨dest, hdest, rfl⟩ := Multiset.mem_map.1 hm
  rw [targets_out] at hdest
  obtain ⟨j, -, rfl⟩ := Multiset.mem_map.1 hdest
  simp

theorem messages_reports : ((graph P N maxTime).messages (.dev i) 1 payload).countP
    (fun m => m.dest = (.halt, 0)) = 1 := rfl

theorem messages_reports_ticks : ((graph P N maxTime).messages (.dev i) 1 payload).countP
    (fun m => m.dest = (.dev k, 0) ∧ tick m = τ) = 0 := by
  rw [Multiset.countP_eq_zero]
  intro m hm
  obtain ⟨dest, hdest, rfl⟩ := Multiset.mem_map.1 hm
  obtain rfl := Multiset.mem_singleton.1 hdest
  simp

theorem t_succ {σ : DevState} (hgoing : σ.t < maxTime) : (σ.t + 1#32).toNat = σ.t.toNat + 1 := by
  bv_omega

/-- Going on to the next time is no loss of ticks. -/
theorem seen_advance {σ : DevState} (hN : N < 2 ^ 32) (hgoing : σ.t < maxTime)
    (hfull : σ.seenNow = BitVec.ofNat 32 N) :
    (devOutSendHandler P ⟨maxTime, BitVec.ofNat 32 N⟩ σ).1.seen N τ = σ.seen N τ := by
  have ht := t_succ hgoing
  have hnow : σ.seenNow.toNat = N := by rw [hfull, BitVec.toNat_ofNat, Nat.mod_eq_of_lt hN]
  unfold DevState.seen devOutSendHandler
  simp only [ht, hnow]
  split_ifs <;> first | rfl | omega

/-- A tick for this time or the next is counted for that time. -/
theorem seen_tick {σ : DevState} (htick : payload.toNat = σ.t.toNat ∨ payload.toNat = σ.t.toNat + 1)
    (hroom : σ.seen N payload.toNat + 1 < 2 ^ 32) :
    (devInReceiveHandler P σ payload).1.seen N τ =
      σ.seen N τ + if τ = payload.toNat then 1 else 0 := by
  rcases htick with htick | htick
  · have hpayload : payload = σ.t := BitVec.eq_of_toNat_eq htick
    have hnow : (σ.seenNow + 1#32).toNat = σ.seenNow.toNat + 1 := by
      simp only [DevState.seen, htick, lt_irrefl, if_false, if_true] at hroom
      rw [BitVec.toNat_add]
      exact Nat.mod_eq_of_lt hroom
    unfold devInReceiveHandler
    rw [if_pos hpayload]
    unfold DevState.seen
    simp only [hnow, htick]
    split_ifs <;> omega
  · have hpayload : payload = σ.t + 1#32 := by bv_omega
    have hne : payload ≠ σ.t := by
      rintro rfl
      omega
    have hnext : (σ.seenNext + 1#32).toNat = σ.seenNext.toNat + 1 := by
      have h₁ : ¬σ.t.toNat + 1 < σ.t.toNat := by omega
      have h₂ : ¬σ.t.toNat + 1 = σ.t.toNat := by omega
      simp only [DevState.seen, htick, if_neg h₁, if_neg h₂, if_true] at hroom
      rw [BitVec.toNat_add]
      exact Nat.mod_eq_of_lt hroom
    unfold devInReceiveHandler
    rw [if_neg hne, if_pos hpayload]
    unfold DevState.seen
    simp only [hnext, htick]
    split_ifs <;> omega

/-! ## The invariant -/

/-- The conservation laws of ticks and of reports. -/
structure Inv (N : Nat) (maxTime : BitVec 32) (s : GraphState app (Device N)) : Prop where
  fresh : Fresh N maxTime s
  law : ∀ i τ, ticks s i τ + (dev s i).seen N τ = reached s τ
  le_maxTime : ∀ i, (dev s i).t.toNat ≤ maxTime.toNat
  reports : reports s + (halt s).seen.toNat = halted s
  at_end : ∀ i, (dev s i).halted = true → ¬(dev s i).t < maxTime

namespace Inv

theorem reached_le : reached s τ ≤ N := by
  have h := tally_le_card (p := fun σ : DevState => τ ≤ σ.t.toNat) (f := dev s)
  rwa [Fintype.card_fin] at h

theorem seen_le (h : Inv N maxTime s) : (dev s i).seen N τ ≤ N := by
  have hlaw := h.law i τ
  have hle : reached s τ ≤ N := reached_le
  omega

theorem seenNow_le (h : Inv N maxTime s) : (dev s i).seenNow.toNat ≤ N := by
  have hle := h.seen_le (i := i) (τ := (dev s i).t.toNat)
  simpa [DevState.seen] using hle

theorem seenNext_le (h : Inv N maxTime s) : (dev s i).seenNext.toNat ≤ N := by
  have hle := h.seen_le (i := i) (τ := (dev s i).t.toNat + 1)
  have hnot : ¬(dev s i).t.toNat + 1 < (dev s i).t.toNat := by omega
  simpa [DevState.seen, hnot] using hle

/-- No device is more than one step ahead of another. -/
theorem t_le_succ (h : Inv N maxTime s) (i j : Fin N) :
    (dev s j).t.toNat ≤ (dev s i).t.toNat + 1 := by
  by_contra hfar
  -- device `j` has passed the time before its own, so it has seen the tick of `i` for it
  have hpassed : (dev s j).seen N ((dev s j).t.toNat - 1) = N := if_pos (by omega)
  have hlaw := h.law j ((dev s j).t.toNat - 1)
  have hle : reached s ((dev s j).t.toNat - 1) ≤ N := reached_le
  have hall : reached s ((dev s j).t.toNat - 1) = Fintype.card (Fin N) := by
    rw [Fintype.card_fin]
    omega
  have hi := tally_eq_card_iff.1 hall i
  omega

/-- A tick on its way to a device is for its time or for the next. -/
theorem tick_eq (h : Inv N maxTime s) {m : GraphMessage app (Device N)} (hm : m ∈ s.pending)
    (hdest : m.dest = (.dev i, 0)) :
    tick m = (dev s i).t.toNat ∨ tick m = (dev s i).t.toNat + 1 := by
  have hpos : 0 < ticks s i (tick m) := Multiset.countP_pos.2 ⟨m, hm, hdest, rfl⟩
  have hlaw := h.law i (tick m)
  have hle : reached s (tick m) ≤ N := reached_le
  have hpast : ¬tick m < (dev s i).t.toNat := by
    intro hlt
    have hpassed : (dev s i).seen N (tick m) = N := if_pos hlt
    omega
  obtain ⟨j, hj⟩ := exists_of_tally_pos (show 0 < reached s (tick m) by omega)
  have hnext := h.t_le_succ i j
  omega

/-- There is room for a tick on its way. -/
theorem room (h : Inv N maxTime s) {m : GraphMessage app (Device N)} (hm : m ∈ s.pending)
    (hdest : m.dest = (.dev i, 0)) : (dev s i).seen N (tick m) + 1 ≤ N := by
  have hpos : 0 < ticks s i (tick m) := Multiset.countP_pos.2 ⟨m, hm, hdest, rfl⟩
  have hlaw := h.law i (tick m)
  have hle : reached s (tick m) ≤ N := reached_le
  omega

/-! ## Each step keeps the invariant -/

variable {σ : DevState}

theorem of_update (p : DevState → Prop) (hdev : dev s' = update (dev s) i σ)
    (hother : ∀ k, p (dev s k)) (hself : p σ) (k : Fin N) : p (dev s' k) := by
  rw [hdev]
  by_cases hk : k = i
  · subst hk
    rwa [update_self]
  · rw [update_of_ne hk]
    exact hother k

theorem seen_update (hdev : dev s' = update (dev s) i σ)
    (hseen : ∀ τ, σ.seen N τ = (dev s i).seen N τ) (k : Fin N) (τ : Nat) :
    (dev s' k).seen N τ = (dev s k).seen N τ := by
  rw [hdev]
  by_cases hk : k = i
  · subst hk
    rw [update_self, hseen]
  · rw [update_of_ne hk]

theorem reached_update (hdev : dev s' = update (dev s) i σ) :
    reached s' τ + (if τ ≤ (dev s i).t.toNat then 1 else 0) =
      reached s τ + if τ ≤ σ.t.toNat then 1 else 0 := by
  unfold reached
  rw [hdev]
  exact tally_update i σ

theorem halted_update (hdev : dev s' = update (dev s) i σ) :
    halted s' + (if (dev s i).halted = true then 1 else 0) =
      halted s + if σ.halted = true then 1 else 0 := by
  unfold halted
  rw [hdev]
  exact tally_update i σ

theorem ticks_add {ms : Multiset (GraphMessage app (Device N))}
    (hpending : s'.pending = s.pending + ms) : ticks s' k τ = ticks s k τ +
      ms.countP fun m => m.dest = (.dev k, 0) ∧ tick m = τ := by
  unfold ticks
  rw [hpending, Multiset.countP_add]

theorem reports_add {ms : Multiset (GraphMessage app (Device N))}
    (hpending : s'.pending = s.pending + ms) : Barrier.reports s' = Barrier.reports s +
      ms.countP fun m => m.dest = (.halt, 0) := by
  unfold Barrier.reports
  rw [hpending, Multiset.countP_add]

theorem advance (hN : N < 2 ^ 32) (h : Inv N maxTime s) (hfresh : Fresh N maxTime s')
    (hgoing : (dev s i).t < maxTime) (hfull : (dev s i).seenNow = BitVec.ofNat 32 N)
    (hdev : dev s' =
      update (dev s) i (devOutSendHandler P ⟨maxTime, BitVec.ofNat 32 N⟩ (dev s i)).1)
    (hhalt : halt s' = halt s)
    (hpending : s'.pending = s.pending + (graph P N maxTime).messages (.dev i) 0
      ((dev s i).t + 1#32)) : Inv N maxTime s' := by
  have ht := t_succ hgoing
  have hle : (dev s i).t.toNat + 1 ≤ maxTime.toNat := by bv_omega
  refine ⟨hfresh, ?_, ?_, ?_, ?_⟩
  · intro k τ
    have hlaw := h.law k τ
    have hticks := ticks_add (k := k) (τ := τ) hpending
    have hreached := reached_update (τ := τ) hdev
    rw [seen_update hdev fun τ => seen_advance hN hgoing hfull]
    rw [messages_ticks, ht] at hticks
    have htime : (devOutSendHandler P ⟨maxTime, BitVec.ofNat 32 N⟩ (dev s i)).1.t.toNat =
        (dev s i).t.toNat + 1 := ht
    rw [htime] at hreached
    split at hticks <;> split at hreached <;> split at hreached <;> omega
  · exact of_update (fun σ => σ.t.toNat ≤ maxTime.toNat) hdev h.le_maxTime (ht.trans_le hle)
  · have hreports := reports_add hpending
    have hhalted := halted_update hdev
    rw [messages_ticks_reports, add_zero] at hreports
    rw [hreports, hhalt, h.reports]
    exact (Nat.add_right_cancel hhalted).symm
  · refine of_update (fun σ => σ.halted = true → ¬σ.t < maxTime) hdev h.at_end fun hhalted => ?_
    exact absurd hgoing (h.at_end i hhalted)

theorem report {payload : app.Payload} (h : Inv N maxTime s) (hfresh : Fresh N maxTime s')
    (hover : ¬(dev s i).t < maxTime) (hnot : (dev s i).halted = false)
    (hdev : dev s' = update (dev s) i (devHaltSendHandler (dev s i))) (hhalt : halt s' = halt s)
    (hpending : s'.pending = s.pending + (graph P N maxTime).messages (.dev i) 1 payload) :
    Inv N maxTime s' := by
  have hle := of_update (fun σ => σ.t.toNat ≤ maxTime.toNat) hdev h.le_maxTime (h.le_maxTime i)
  refine ⟨hfresh, ?_, hle, ?_, ?_⟩
  · intro k τ
    have hticks := ticks_add (k := k) (τ := τ) hpending
    have hreached := reached_update (τ := τ) hdev
    have hreached : reached s' τ = reached s τ := Nat.add_right_cancel hreached
    rw [messages_reports_ticks, add_zero] at hticks
    rw [hticks, hreached, seen_update hdev fun _ => rfl]
    exact h.law k τ
  · have hreports := reports_add hpending
    have hhalted := halted_update hdev
    rw [messages_reports] at hreports
    rw [hnot, if_neg (by simp)] at hhalted
    have hcount := h.reports
    have hplus : halted s' = halted s + 1 := hhalted
    rw [hreports, hhalt]
    omega
  · exact of_update (fun σ => σ.halted = true → ¬σ.t < maxTime) hdev h.at_end fun _ => hover

theorem ticks_cons {m : GraphMessage app (Device N)} (hpending : s.pending = m ::ₘ s'.pending) :
    ticks s k τ = ticks s' k τ + if m.dest = (.dev k, 0) ∧ Barrier.tick m = τ then 1 else 0 := by
  unfold ticks
  rw [hpending, Multiset.countP_cons]

theorem reports_cons {m : GraphMessage app (Device N)} (hpending : s.pending = m ::ₘ s'.pending) :
    Barrier.reports s = Barrier.reports s' + if m.dest = (.halt, 0) then 1 else 0 := by
  unfold Barrier.reports
  rw [hpending, Multiset.countP_cons]

/-- A tick only changes what its receiver has seen. -/
theorem devInReceiveHandler_t (P : Platform) (σ : DevState) (payload : BitVec 32) :
    (devInReceiveHandler P σ payload).1.t = σ.t ∧
      (devInReceiveHandler P σ payload).1.halted = σ.halted := by
  unfold devInReceiveHandler
  split_ifs <;> exact ⟨rfl, rfl⟩

theorem receiveTick {m : GraphMessage app (Device N)} (hN : N < 2 ^ 32) (h : Inv N maxTime s)
    (hfresh : Fresh N maxTime s') (hdest : m.dest = (.dev i, 0))
    (hpending : s.pending = m ::ₘ s'.pending)
    (hdev : dev s' = update (dev s) i (devInReceiveHandler P (dev s i) m.payload).1)
    (hhalt : halt s' = halt s) : Inv N maxTime s' := by
  have hm : m ∈ s.pending := by
    rw [hpending]
    exact Multiset.mem_cons_self m s'.pending
  obtain ⟨ht, hhalted⟩ := devInReceiveHandler_t P (dev s i) m.payload
  have hroom : (dev s i).seen N (Barrier.tick m) + 1 < 2 ^ 32 := (h.room hm hdest).trans_lt hN
  refine ⟨hfresh, ?_, ?_, ?_, ?_⟩
  · intro k τ
    have hlaw := h.law k τ
    have hticks := ticks_cons (k := k) (τ := τ) hpending
    have hreached := reached_update (τ := τ) hdev
    rw [ht, Nat.add_right_cancel_iff] at hreached
    rw [hreached, ← hlaw, hticks, hdest, hdev]
    by_cases hk : k = i
    · subst hk
      rw [update_self, seen_tick (h.tick_eq hm hdest) hroom]
      simp only [true_and, eq_comm, Barrier.tick]
      omega
    · rw [update_of_ne hk, if_neg]
      · rfl
      · rintro ⟨hk', -⟩
        exact hk (Device.dev.inj (congrArg Prod.fst hk')).symm
  · refine of_update (fun σ => σ.t.toNat ≤ maxTime.toNat) hdev h.le_maxTime ?_
    rw [ht]
    exact h.le_maxTime i
  · have hreports := reports_cons hpending
    have hcount := halted_update hdev
    rw [hhalted, Nat.add_right_cancel_iff] at hcount
    rw [hdest, if_neg (by simp), add_zero] at hreports
    rw [← hreports, hcount, hhalt]
    exact h.reports
  · refine of_update (fun σ => σ.halted = true → ¬σ.t < maxTime) hdev h.at_end ?_
    rw [ht, hhalted]
    exact h.at_end i

theorem receiveReport {m : GraphMessage app (Device N)} (hN : N < 2 ^ 32) (h : Inv N maxTime s)
    (hfresh : Fresh N maxTime s') (hdest : m.dest = (.halt, 0))
    (hpending : s.pending = m ::ₘ s'.pending) (hdev : dev s' = dev s)
    (hhalt : halt s' = (haltInReceiveHandler P ⟨maxTime, BitVec.ofNat 32 N⟩ (halt s)).1) :
    Inv N maxTime s' := by
  have hreports := reports_cons hpending
  rw [hdest, if_pos rfl] at hreports
  have hcount := h.reports
  have hle : halted s ≤ N := by
    have hle := tally_le_card (p := fun σ : DevState => σ.halted = true) (f := dev s)
    rwa [Fintype.card_fin] at hle
  have hseen : ((halt s).seen + 1#32).toNat = (halt s).seen.toNat + 1 := by
    rw [BitVec.toNat_add]
    apply Nat.mod_eq_of_lt
    show (halt s).seen.toNat + 1 < 2 ^ 32
    omega
  refine ⟨hfresh, ?_, ?_, ?_, ?_⟩
  · intro k τ
    have hticks := ticks_cons (k := k) (τ := τ) hpending
    rw [hdest, if_neg (by simp), add_zero] at hticks
    have hreached : reached s' τ = reached s τ := by
      unfold reached
      rw [hdev]
    rw [← hticks, hreached, hdev]
    exact h.law k τ
  · rw [hdev]
    exact h.le_maxTime
  · have hhalted : halted s' = halted s := by
      unfold halted
      rw [hdev]
    have hsum : (halt s').seen.toNat = (halt s).seen.toNat + 1 := by
      rw [hhalt]
      exact hseen
    omega
  · rw [hdev]
    exact h.at_end

theorem congr (h : Inv N maxTime s) (hfresh : Fresh N maxTime s') (hdev : dev s' = dev s)
    (hhalt : halt s' = halt s) (hpending : s'.pending = s.pending) : Inv N maxTime s' := by
  have hticks : ticks s' = ticks s := by
    unfold ticks
    rw [hpending]
  have hreached : reached s' = reached s := by
    unfold reached
    rw [hdev]
  have hreports : Barrier.reports s' = Barrier.reports s := by
    unfold Barrier.reports
    rw [hpending]
  have hhalted : halted s' = halted s := by
    unfold halted
    rw [hdev]
  refine ⟨hfresh, ?_, ?_, ?_, ?_⟩
  · rw [hticks, hreached, hdev]
    exact h.law
  · rw [hdev]
    exact h.le_maxTime
  · rw [hreports, hhalted, hhalt]
    exact h.reports
  · rw [hdev]
    exact h.at_end

theorem step (hN : N < 2 ^ 32) (h : Inv N maxTime s) (hstep : (graph P N maxTime).Step s e s') :
    Inv N maxTime s' := by
  have hfresh := h.fresh.step hstep
  cases h.fresh.stepped hstep with
  | advance hgoing hfull hdev hhalt hpending =>
    exact h.advance hN hfresh hgoing hfull hdev hhalt hpending
  | report hover hnot hdev hhalt hpending =>
    exact h.report hfresh hover hnot hdev hhalt hpending
  | forward hdev hhalt hpending => exact h.congr hfresh hdev hhalt hpending
  | tick hdest hpending hdev hhalt => exact h.receiveTick hN hfresh hdest hpending hdev hhalt
  | count hdest hpending hdev hhalt => exact h.receiveReport hN hfresh hdest hpending hdev hhalt

/-- At the start every device is at time 0, for which there are no ticks. -/
theorem start {σ : Device N → State} (hN : N < 2 ^ 32) (h : Initial σ) :
    Inv N maxTime ((graph P N maxTime).start σ) := by
  have hdev : ∀ i, dev ((graph P N maxTime).start σ) i =
      ⟨0#32, BitVec.ofNat 32 N, 0#32, false⟩ := h.dev
  have hhalt : (halt ((graph P N maxTime).start σ)).seen = 0#32 := h.halt
  have hnow : (BitVec.ofNat 32 N).toNat = N := by rw [BitVec.toNat_ofNat, Nat.mod_eq_of_lt hN]
  refine ⟨⟨fun _ => rfl, rfl⟩, ?_, ?_, ?_, ?_⟩
  · intro i τ
    have hticks : ticks ((graph P N maxTime).start σ) i τ = 0 := rfl
    rw [hticks, zero_add, hdev]
    rcases Nat.eq_zero_or_pos τ with rfl | hτ
    · have hall : reached ((graph P N maxTime).start σ) 0 = Fintype.card (Fin N) :=
        tally_eq_card_iff.2 fun _ => Nat.zero_le _
      rw [hall, Fintype.card_fin]
      exact hnow
    · have hnone : reached ((graph P N maxTime).start σ) τ = 0 := by
        apply tally_eq_zero_iff.2
        intro i
        rw [hdev]
        exact Nat.not_le.2 hτ
      rw [hnone]
      have hpast : ¬τ < (0#32 : BitVec 32).toNat := Nat.not_lt_zero τ
      have hnow : ¬τ = (0#32 : BitVec 32).toNat := hτ.ne'
      unfold DevState.seen
      rw [if_neg hpast, if_neg hnow]
      split <;> rfl
  · intro i
    rw [hdev]
    exact Nat.zero_le _
  · have hnone : halted ((graph P N maxTime).start σ) = 0 := by
      apply tally_eq_zero_iff.2
      intro i
      rw [hdev]
      nofun
    rw [hnone, hhalt]
    rfl
  · intro i
    rw [hdev]
    nofun

end Inv

/-- Along every run from the initial states. -/
theorem run_inv {σ : Device N → State} (hN : N < 2 ^ 32) (h : Initial σ)
    (hrun : (graph P N maxTime).HasRun σ es s) : Inv N maxTime s :=
  hrun.invariant (I := fun _ s => Inv N maxTime s) (Inv.start hN h) fun _ _ _ _ h hs => h.step hN hs

/-! ## Lock-step -/

theorem Inv.payload_eq (h : Inv N maxTime s) {m : GraphMessage app (Device N)}
    (hm : m ∈ s.pending) (hdest : m.dest = (.dev i, 0)) :
    m.payload = (dev s i).t ∨ m.payload = (dev s i).t + 1#32 := by
  rcases h.tick_eq hm hdest with htick | htick
  · exact .inl (BitVec.eq_of_toNat_eq htick)
  · refine .inr (BitVec.eq_of_toNat_eq ?_)
    have hlt := (m.payload : BitVec 32).isLt
    rw [BitVec.toNat_add]
    have hmod : ((dev s i).t.toNat + 1) % 2 ^ 32 = (dev s i).t.toNat + 1 :=
      Nat.mod_eq_of_lt (htick ▸ hlt)
    exact htick.trans hmod.symm

/-- The assertions of the handlers that a step runs hold. -/
theorem Inv.asserts (h : Inv N maxTime s) (hstep : (graph P N maxTime).Step s e s') {ok : Bool}
    (hok : .assert ok ∈ e.calls) : ok = true := by
  have hlog : ∀ {level msg params}, .assert ok ∉ P.handlerLog level msg params := by
    intro level msg params
    unfold Platform.handlerLog
    split <;> simp
  cases h.fresh.stepped hstep with
  | advance hgoing hfull _ _ _ =>
    simp only [GraphEvent.calls, devOutSendHandler, List.mem_append, hlog, hgoing, hfull,
      List.mem_cons, HandlerCall.assert.injEq, beq_self_eq_true, decide_true, List.not_mem_nil,
      or_false, false_or, or_self] at hok
    exact hok
  | report _ _ _ _ _ => cases hok
  | forward _ _ _ => cases hok
  | @tick _ i m hdest hpending _ _ =>
    have hm : m ∈ s.pending := by
      rw [hpending]
      exact Multiset.mem_cons_self m s'.pending
    rcases h.payload_eq hm hdest with hpayload | hpayload
    · simp only [GraphEvent.calls, devInReceiveHandler, if_pos hpayload] at hok
      exact absurd hok hlog
    · simp only [GraphEvent.calls, devInReceiveHandler, if_pos hpayload] at hok
      split at hok
      · exact absurd hok hlog
      · exact absurd hok hlog
  | count _ _ _ _ =>
    simp only [GraphEvent.calls, haltInReceiveHandler, List.mem_append] at hok
    rcases hok with hok | hok
    · exact absurd hok hlog
    · split at hok
      · exact absurd hok hlog
      · cases hok

/-- In every reachable state: the assertions in the handlers of the next step hold; a tick that
is received is for the time of its receiver or for the next; the out handler runs with
`t < maxTime` and `seenNow == devCount`; no more ticks are seen than there are devices; and
the times of two devices differ by at most 1. -/
theorem lockStep {σ : Device N → State} (hN : N < 2 ^ 32) (hinit : Initial σ)
    (hrun : (graph P N maxTime).HasRun σ es s) :
    (∀ e s', (graph P N maxTime).Step s e s' → ∀ ok, .assert ok ∈ e.calls → ok = true) ∧
    (∀ m calls s' i k, (graph P N maxTime).Step s (.receive m calls) s' → m.dest = (.dev i, k) →
      m.payload = (dev s i).t ∨ m.payload = (dev s i).t + 1#32) ∧
    (∀ i doSend payload calls s',
      (graph P N maxTime).Step s (.send (.dev i) 0 doSend payload calls) s' →
      (dev s i).t < maxTime ∧ (dev s i).seenNow.toNat = N) ∧
    (∀ i, (dev s i).seenNow.toNat ≤ N ∧ (dev s i).seenNext.toNat ≤ N) ∧
    (∀ i j, (dev s i).t.toNat ≤ (dev s j).t.toNat + 1) := by
  have h : Inv N maxTime s := run_inv hN hinit hrun
  refine ⟨fun e s' hstep ok hok => h.asserts hstep hok, ?_, ?_, ?_, fun i j => h.t_le_succ j i⟩
  · intro m calls s' i k hstep hdest
    cases h.fresh.stepped hstep with
    | @tick _ j _ hdest' hpending _ _ =>
      obtain rfl : j = i := Device.dev.inj (congrArg Prod.fst (hdest'.symm.trans hdest))
      apply h.payload_eq _ hdest'
      rw [hpending]
      exact Multiset.mem_cons_self m s'.pending
    | count hdest' _ _ _ => cases hdest'.symm.trans hdest
  · intro i doSend payload calls s' hstep
    cases h.fresh.stepped hstep with
    | advance hgoing hfull _ _ _ =>
      rw [hfull, BitVec.toNat_ofNat, Nat.mod_eq_of_lt hN]
      exact ⟨hgoing, rfl⟩
  · exact fun i => ⟨h.seenNow_le, h.seenNext_le⟩

/-- A build without logs. -/
def quiet : Platform := ⟨false, 16, fun _ => 0#32, fun _ => 0#32⟩

/-- The initial states of `N` devices. -/
def initialState (N : Nat) : Device N → State
  | .dev _ => ⟨⟨0#32, BitVec.ofNat 32 N, 0#32, false⟩, ⟨0#32⟩⟩
  | .halt => ⟨⟨0#32, 0#32, 0#32, false⟩, ⟨0#32⟩⟩

theorem initialState_initial : Initial (initialState N) := ⟨fun _ => rfl, rfl⟩

/-- The first of two devices goes on before the second one. -/
theorem lockStep_two : ∃ es s, (graph quiet 2 1#32).HasRun (initialState 2) es s ∧
    (dev s 0).t = 1#32 ∧ (dev s 1).t = 0#32 ∧
    ∀ i j, (dev s i).t.toNat ≤ (dev s j).t.toNat + 1 := by
  have hstart : (graph quiet 2 1#32).HasRun (initialState 2) [] _ := .nil
  have hsend := hstart.snoc (@Graph.Step.send _ _ _ _ _ (.dev 0) 0 _ 0#32 _ rfl rfl rfl rfl)
  have hN : 2 < 2 ^ 32 := by decide
  have hall := (lockStep hN initialState_initial hsend).2.2.2.2
  exact ⟨_, _, hsend, rfl, rfl, hall⟩

end Softswitch.Barrier
