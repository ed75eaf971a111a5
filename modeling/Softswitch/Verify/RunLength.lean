import Softswitch.Verify.BarrierCompletion
import Softswitch.Verify.EdgeProps
import Softswitch.Verify.Ring

/-!
# How long the runs are

A run of the barrier, or of the edge property application, cannot go on for ever: every step, of
whichever kind, uses up one of what is left to do (`Inv.left_step`).  All runs that come to rest
are thus of the same length, and no run is longer (`Barrier.run_length`, `EdgeProps.ticks_length`).
A run of the ring is three steps long for each hop of the token (`Ring.length_le`).
-/

namespace Softswitch

open Function Runs Tally

/-! ## Messages -/

section Graph

variable {A : AppTypes} {D : Type} [DecidableEq D] {G : Graph A D} {s s' : GraphState A D}
  {e : GraphEvent A D}

/-- What is left to do with the messages: one that is owed is forwarded and received. -/
def GraphState.transfers (s : GraphState A D) : Nat := s.pending.card + s.owed.card

/-- A message is first owed, and forwarded once. -/
theorem Graph.Step.owed_card : G.Step s e s' →
    match e with
    | .send _ _ _ _ _ => s'.owed.card + s.pending.card = s.owed.card + s'.pending.card
    | .forward _ => s'.owed.card + 1 = s.owed.card
    | _ => s'.owed.card = s.owed.card := by
  intro h
  cases h with
  | send _ _ _ _ =>
    simp only [GraphState.pending, Graph.settle, Multiset.card_add]
    omega
  | forward howed => rw [howed, Multiset.card_cons]
  | receive _ _ _ => rfl
  | compute _ _ => rfl
  | hardwareIdle _ _ => rfl

omit [DecidableEq D] in
theorem GraphState.transfers_eq_zero (h : s.transfers = 0) : s.owed = 0 ∧ s.flight = 0 := by
  unfold transfers pending at h
  rw [Multiset.card_add] at h
  exact ⟨Multiset.card_eq_zero.1 (by omega), Multiset.card_eq_zero.1 (by omega)⟩

omit [DecidableEq D] in
theorem GraphState.Quiescent.transfers (h : s.Quiescent) : s.transfers = 0 := by
  unfold GraphState.transfers GraphState.pending
  rw [h.owed, h.flight]
  rfl

end Graph

/-! ## The barrier -/

namespace Barrier

variable {P : Platform} {N : Nat} {maxTime : BitVec 32} {s s' : GraphState app (Device N)}
  {e : GraphEvent app (Device N)} {es : List (GraphEvent app (Device N))} {σ : Device N → State}

/-- What a device has left to send, with what is left to do with it then: a tick for each of `N`
devices at each time, and a report. -/
def DevState.left (N : Nat) (maxTime : BitVec 32) (σ : DevState) : Nat :=
  (maxTime.toNat - σ.t.toNat) * (2 * N + 1) + if σ.halted then 0 else 3

/-- What is left to do. -/
def left (maxTime : BitVec 32) (s : GraphState app (Device N)) : Nat :=
  (∑ i, (dev s i).left N maxTime) + s.transfers

theorem sum_left_update (maxTime : BitVec 32) {i : Fin N} {σ : DevState}
    (hdev : dev s' = update (dev s) i σ) :
    (∑ j, (dev s' j).left N maxTime) + (dev s i).left N maxTime =
      (∑ j, (dev s j).left N maxTime) + σ.left N maxTime := by
  have hchange := sum_change (fun j => (dev s j).left N maxTime)
    (fun j => (dev s' j).left N maxTime) i fun j hj => by rw [hdev, update_of_ne hj]
  rwa [hdev, update_self, ← hdev] at hchange

theorem left_advance {σ : DevState} (hgoing : σ.t < maxTime) :
    (devOutSendHandler P ⟨maxTime, BitVec.ofNat 32 N⟩ σ).1.left N maxTime + (2 * N + 1) =
      σ.left N maxTime := by
  have ht : (σ.t + 1#32).toNat = σ.t.toNat + 1 := t_succ hgoing
  have hlt : σ.t.toNat < maxTime.toNat := hgoing
  have hsteps : maxTime.toNat - σ.t.toNat = maxTime.toNat - (σ.t.toNat + 1) + 1 := by omega
  unfold DevState.left devOutSendHandler
  rw [ht, hsteps, Nat.add_one_mul (maxTime.toNat - _)]
  exact Nat.add_right_comm _ _ _

theorem left_report (N : Nat) (maxTime : BitVec 32) {σ : DevState} (hnot : σ.halted = false) :
    (devHaltSendHandler σ).left N maxTime + 3 = σ.left N maxTime := by
  unfold DevState.left devHaltSendHandler
  rw [hnot]
  rfl

theorem left_tick {σ : DevState} {payload : BitVec 32} :
    (devInReceiveHandler P σ payload).1.left N maxTime = σ.left N maxTime := by
  unfold DevState.left
  rw [(Inv.devInReceiveHandler_t P σ payload).1, (Inv.devInReceiveHandler_t P σ payload).2]

theorem card_messages_ticks {P : Platform} {i : Fin N} {payload : BitVec 32} :
    ((graph P N maxTime).messages (.dev i) 0 payload).card = N := by
  unfold Graph.messages
  rw [targets_out, Multiset.card_map, Multiset.card_map]
  exact Finset.card_fin N

/-- Every step uses up one of what is left to do. -/
theorem Inv.left_step (h : Inv N maxTime s) (hstep : (graph P N maxTime).Step s e s') :
    left maxTime s' + 1 = left maxTime s := by
  have howed := hstep.owed_card
  unfold left GraphState.transfers
  cases h.fresh.stepped hstep with
  | advance hgoing _ hdev _ hpending =>
    have hsum := sum_left_update maxTime hdev
    have hleft := left_advance (P := P) (N := N) hgoing
    have hcard := congrArg Multiset.card hpending
    rw [Multiset.card_add, card_messages_ticks] at hcard
    omega
  | @report _ i payload _ hnot hdev _ hpending =>
    have hsum := sum_left_update maxTime hdev
    have hleft := left_report N maxTime hnot
    have hcard := congrArg Multiset.card hpending
    rw [Multiset.card_add] at hcard
    have hone : ((graph P N maxTime).messages (.dev i) 1 payload).card = 1 := rfl
    omega
  | forward hdev _ hpending =>
    rw [hdev, hpending]
    omega
  | tick _ hpending hdev _ =>
    have hsum := sum_left_update maxTime hdev
    rw [left_tick] at hsum
    have hcard := congrArg Multiset.card hpending
    rw [Multiset.card_cons] at hcard
    omega
  | count _ hpending hdev _ =>
    have hcard := congrArg Multiset.card hpending
    rw [Multiset.card_cons] at hcard
    rw [hdev]
    omega

theorem left_start (hinit : Initial σ) :
    left maxTime ((graph P N maxTime).start σ) = N * (maxTime.toNat * (2 * N + 1) + 3) := by
  have hdev : ∀ i, (dev ((graph P N maxTime).start σ) i).left N maxTime =
      maxTime.toNat * (2 * N + 1) + 3 := by
    intro i
    have hi : dev ((graph P N maxTime).start σ) i = _ := hinit.dev i
    rw [hi]
    rfl
  unfold left
  rw [Finset.sum_const_nat fun i _ => hdev i, Finset.card_fin]
  rfl

theorem Inv.left_eq_zero_iff (hN : N < 2 ^ 32) (h : Inv N maxTime s) :
    left maxTime s = 0 ↔ s.Quiescent := by
  constructor
  · intro hleft
    unfold left at hleft
    obtain ⟨howed, hflight⟩ := GraphState.transfers_eq_zero (Nat.eq_zero_of_add_eq_zero hleft).2
    have hdevs : ∀ i, (dev s i).left N maxTime = 0 := fun i =>
      Finset.sum_eq_zero_iff.1 (Nat.eq_zero_of_add_eq_zero hleft).1 i (Finset.mem_univ i)
    refine ⟨howed, hflight, fun d => ?_⟩
    cases d with
    | halt =>
      rw [h.fresh.haltFlags]
      rfl
    | dev i =>
      have hi := hdevs i
      unfold DevState.left at hi
      obtain ⟨hover, hhalted⟩ := Nat.eq_zero_of_add_eq_zero hi
      have hover : ¬(dev s i).t < maxTime := by
        have hle := (Nat.mul_eq_zero.1 hover).resolve_right (by omega)
        bv_omega
      have hhalted : (dev s i).halted = true := by
        by_contra hnot
        rw [if_neg hnot] at hhalted
        cases hhalted
      rw [h.fresh.devFlags]
      rcases devReadyToSendHandler_cases ⟨maxTime, BitVec.ofNat 32 N⟩ (dev s i) with
        ⟨hgoing, -, -⟩ | ⟨-, hnot, -⟩ | ⟨-, -, hzero⟩
      · exact absurd hgoing hover
      · rw [hhalted] at hnot
        cases hnot
      · rw [hzero]
        rfl
  · intro hq
    obtain ⟨hdevs, -⟩ := h.complete hN hq
    have hzero : ∀ i, (dev s i).left N maxTime = 0 := by
      intro i
      unfold DevState.left
      rw [(hdevs i).1, (hdevs i).2, Nat.sub_self, Nat.zero_mul]
      rfl
    unfold left
    rw [hq.transfers, Finset.sum_congr rfl fun i _ => hzero i, Finset.sum_const_zero]

theorem length_add_left (hN : N < 2 ^ 32) (hinit : Initial σ)
    (hrun : (graph P N maxTime).HasRun σ es s) :
    es.length + left maxTime s = N * (maxTime.toNat * (2 * N + 1) + 3) := by
  rw [← left_start hinit]
  exact hrun.length_add (I := Inv N maxTime) (Inv.start hN hinit) fun s e s' h hstep =>
    ⟨h.step hN hstep, h.left_step hstep⟩

/-- In whatever order the messages are sent, forwarded and received, no run of the barrier is longer
than `devCount * (maxTime * (2 * devCount + 1) + 3)` steps, and the runs of that length are those
that come to rest. -/
theorem run_length (hN : N < 2 ^ 32) (hinit : Initial σ)
    (hrun : (graph P N maxTime).HasRun σ es s) :
    es.length ≤ N * (maxTime.toNat * (2 * N + 1) + 3) ∧
    (s.Quiescent ↔ es.length = N * (maxTime.toNat * (2 * N + 1) + 3)) := by
  have hlength := length_add_left hN hinit hrun
  have hzero : left maxTime s = 0 ↔ s.Quiescent := (run_inv hN hinit hrun).left_eq_zero_iff hN
  rw [← hzero]
  omega

/-- The tick of a single device for itself. -/
def oneTick : GraphMessage app (Device 1) := ⟨(.dev 0, 0), (.dev 0, 0), 1#32⟩

/-- A single device with one step to go sends, forwards and receives its tick; it is not at rest
before it has reported. -/
theorem run_length_one : ∃ es s, (graph quiet 1 1#32).HasRun (initialState 1) es s ∧
    es.length = 3 ∧ ¬s.Quiescent := by
  have h₀ : (graph quiet 1 1#32).HasRun (initialState 1) [] _ := .nil
  have h₁ := h₀.snoc (@Graph.Step.send _ _ _ _ _ (.dev 0) 0 _ 0#32 _ rfl rfl rfl rfl)
  have h₂ := h₁.snoc (@Graph.Step.forward _ _ _ _ _ oneTick 0 rfl)
  have h₃ := h₂.snoc (@Graph.Step.receive _ _ _ _ _ oneTick _ none 0 _ rfl rfl rfl)
  have hrest := (run_length (by decide) initialState_initial h₃).2
  exact ⟨_, _, h₃, rfl, fun hq => absurd (hrest.1 hq) (by decide)⟩

end Barrier

/-! ## The edge property application -/

namespace EdgeProps

variable {P : Barrier.Platform} {n : Nat} {S : Sources n} {s s' : GraphState app (Device n)}
  {e : GraphEvent app (Device n)} {es : List (GraphEvent app (Device n))} {σ : Device n → State}

/-- The outer devices that have not sent, and what is left to do with the ticks. -/
def left (s : GraphState app (Device n)) : Nat :=
  3 * tally (fun σ : OuterState => σ.ready ≠ 0#8) (outer s) + s.transfers

/-- Every step uses up one of what is left to do. -/
theorem Inv.left_step (h : Inv es s) (hstep : (graph P n S.edges).Step s e s') :
    left s' + 1 = left s := by
  have howed := hstep.owed_card
  unfold left GraphState.transfers
  cases h.fresh.stepped h.ticks hstep with
  | @send _ i _ hready houter _ hpending =>
    have htally : tally (fun σ : OuterState => σ.ready ≠ 0#8) (outer s') + 1 =
        tally (fun σ : OuterState => σ.ready ≠ 0#8) (outer s) := by
      have hupdate := tally_update (p := fun σ : OuterState => σ.ready ≠ 0#8) (f := outer s) i ⟨0#8⟩
      rw [if_pos hready] at hupdate
      rw [houter]
      exact hupdate
    have hcard := congrArg Multiset.card hpending
    rw [Multiset.card_cons] at hcard
    omega
  | forward houter _ hpending =>
    rw [houter, hpending]
    omega
  | receive hpending houter _ =>
    have hcard := congrArg Multiset.card hpending
    rw [Multiset.card_cons] at hcard
    rw [houter]
    omega

theorem left_start (hinit : Initial σ) : left ((graph P n S.edges).start σ) = 3 * n := by
  have hall : tally (fun σ : OuterState => σ.ready ≠ 0#8) (outer ((graph P n S.edges).start σ)) =
      Fintype.card (Fin n) := tally_eq_card_iff.2 hinit.outer
  unfold left
  rw [hall, Fintype.card_fin]
  rfl

theorem Inv.left_eq_zero_iff (h : Inv es s) : left s = 0 ↔ s.Quiescent := by
  have hready : ∀ i, wantsSend (s.flags (.outer i)) = false ↔ (outer s i).ready = 0#8 := by
    intro i
    rw [h.fresh.outerFlags]
    constructor
    · intro hready
      by_contra hne
      rw [outerReadyToSendHandler_ne hne] at hready
      cases hready
    · intro hzero
      rw [outerReadyToSendHandler_zero hzero]
      rfl
  unfold left
  constructor
  · intro hleft
    obtain ⟨howed, hflight⟩ := GraphState.transfers_eq_zero (s := s) (by omega)
    have hnone := tally_eq_zero_iff.1
      (show tally (fun σ : OuterState => σ.ready ≠ 0#8) (outer s) = 0 by omega)
    refine ⟨howed, hflight, fun d => ?_⟩
    cases d with
    | outer i => exact (hready i).2 (not_not.1 (hnone i))
    | inner =>
      rw [h.fresh.innerFlags]
      rfl
  · intro hq
    have hnone : tally (fun σ : OuterState => σ.ready ≠ 0#8) (outer s) = 0 :=
      tally_eq_zero_iff.2 fun i => not_not.2 ((hready i).1 (hq.ready (.outer i)))
    rw [hnone, hq.transfers]

theorem length_add_left (hinit : Initial σ) (hrun : (graph P n S.edges).HasRun σ es s) :
    es.length + left s = 3 * n := by
  rw [← left_start (P := P) (S := S) hinit]
  refine hrun.length_add (I := fun s => ∃ es, Inv es s) ⟨[], Inv.start hinit⟩ ?_
  rintro s e s' ⟨es, h⟩ hstep
  exact ⟨⟨_, h.step hstep⟩, h.left_step hstep⟩

/-- In whatever order the ticks are sent, forwarded and received, no run is longer than three steps
for each outer device, and the runs of that length are those that come to rest. -/
theorem ticks_length (hinit : Initial σ) (hrun : (graph P n S.edges).HasRun σ es s) :
    es.length ≤ 3 * n ∧ (s.Quiescent ↔ es.length = 3 * n) := by
  have hlength := length_add_left hinit hrun
  have hzero : left s = 0 ↔ s.Quiescent := (run_inv hinit hrun).left_eq_zero_iff
  rw [← hzero]
  omega

/-- After the first tick of the instance, the application is not at rest. -/
theorem ticks_length_one : ∃ es s, (graph bare 3 dev3Sources.edges).HasRun readyState es s ∧
    es.length = 3 ∧ ¬s.Quiescent := by
  have h₀ : (graph bare 3 dev3Sources.edges).HasRun readyState [] _ := .nil
  have h₁ := h₀.snoc (@Graph.Step.send _ _ _ _ _ (.outer 1) 0 _ () _ rfl rfl rfl rfl)
  have h₂ := h₁.snoc (@Graph.Step.forward _ _ _ _ _ (tick 1) 0 rfl)
  have h₃ := h₂.snoc (@Graph.Step.receive _ _ _ _ _ (tick 1) _ none 0 _ rfl rfl rfl)
  have hrest := (ticks_length readyState_initial h₃).2
  exact ⟨_, _, h₃, rfl, fun hq => absurd (hrest.1 hq) (by decide)⟩

end EdgeProps

/-! ## The ring -/

namespace Ring

variable {P : Barrier.Platform} {N : Nat} {increment c₀ : BitVec 32} {s s' : GraphState app (Fin N)}
  {e : GraphEvent app (Fin N)} {es : List (GraphEvent app (Fin N))} {σ : Fin N → DevState}

/-- A step that is no hop sends the token or forwards it. -/
theorem length_step (hfresh : Fresh s) (hstep : (graph P N increment).Step s e s') :
    1 + s'.owed.card + 2 * s.pending.card =
      3 * hops [e] + 2 * s'.pending.card + s.owed.card := by
  have howed := hstep.owed_card
  have hhops : hops [e] = if isReceive e = true then 1 else 0 := List.countP_singleton
  cases hfresh.stepped hstep with
  | send _ _ hpending =>
    have hcard := congrArg Multiset.card hpending
    rw [Multiset.card_cons] at hcard
    rw [hhops, if_neg (by simp [isReceive])]
    omega
  | forward _ hpending =>
    rw [hhops, if_neg (by simp [isReceive]), hpending]
    omega
  | receive hpending _ =>
    have hcard := congrArg Multiset.card hpending
    rw [Multiset.card_cons] at hcard
    rw [hhops, if_pos (by simp [isReceive])]
    omega

/-- As long as the token is not lost, each hop takes three steps. -/
theorem length_le (hinit : Initial c₀ σ) (hcount : ∀ k, tokenCount increment c₀ k ≠ 0#32)
    (hrun : (graph P N increment).HasRun σ es s) : es.length ≤ 3 * hops es + 2 := by
  have hlength : es.length + s.owed.card = 3 * hops es + 2 * s.pending.card := by
    refine (hrun.invariant (I := fun es s => Fresh s ∧
      es.length + s.owed.card = 3 * hops es + 2 * s.pending.card) ⟨fun _ => rfl, rfl⟩ ?_).2
    rintro es s e s' ⟨hfresh, hlength⟩ hstep
    have hone := length_step hfresh hstep
    have hhops : hops (es ++ [e]) = hops es + hops [e] := List.countP_append
    refine ⟨hfresh.step hstep, ?_⟩
    rw [hhops, List.length_append, List.length_singleton]
    omega
  have hone := (run_inv hinit hrun).one (hcount _)
  omega

end Ring

end Softswitch
