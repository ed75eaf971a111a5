import Mathlib.Data.Finset.Max
import Softswitch.Verify.Barrier

/-!
# The barrier completes

A device reports when it has reached `maxTime`, and only once.  Where nothing is on its way, a
device that is behind no other has seen all ticks for its time; if it could not go on, it is
at `maxTime`, and so are all.
-/

namespace Softswitch.Barrier

open Function Runs Tally

variable {P : Platform} {N : Nat} {maxTime : BitVec 32} {s s' : GraphState app (Device N)}
  {e : GraphEvent app (Device N)} {es : List (GraphEvent app (Device N))} {i j : Fin N}

/-! ## Reports -/

/-- Device `i` sends its report. -/
def isReport (i : Fin N) : GraphEvent app (Device N) → Bool
  | .send (.dev j) 1 _ _ _ => j == i
  | _ => false

theorem Inv.t_eq (h : Inv N maxTime s) (hover : ¬(dev s i).t < maxTime) :
    (dev s i).t = maxTime := by
  have hle := h.le_maxTime i
  bv_omega

theorem Inv.halted_le (h : Inv N maxTime s) : (halt s).seen.toNat ≤ halted s := by
  have hreports := h.reports
  omega

theorem halted_le_card : halted s ≤ N := by
  have hle := tally_le_card (p := fun σ : DevState => σ.halted = true) (f := dev s)
  rwa [Fintype.card_fin] at hle

/-- A device that has reported is marked. -/
theorem Stepped.reports (h : Stepped P maxTime s e s') :
    (if isReport i e = true then 1 else 0) + (if (dev s i).halted = true then 1 else 0) =
      if (dev s' i).halted = true then 1 else 0 := by
  have hsame : ∀ {k σ}, dev s' = update (dev s) k σ → σ.halted = (dev s k).halted →
      (dev s' i).halted = (dev s i).halted := by
    intro k σ hdev hσ
    rw [hdev]
    by_cases hk : i = k
    · subst hk
      rw [update_self, hσ]
    · rw [update_of_ne hk]
  cases h with
  | advance _ _ hdev _ _ =>
    rw [hsame hdev rfl]
    exact zero_add _
  | @report _ k payload hover hnot hdev hhalt hpending =>
    by_cases hk : i = k
    · subst hk
      rw [hdev, update_self, hnot]
      simp [isReport, devHaltSendHandler]
    · have hne : ¬k = i := fun h => hk h.symm
      rw [hdev, update_of_ne hk]
      simp [isReport, hne]
  | forward hdev _ _ =>
    rw [hdev]
    exact zero_add _
  | tick _ _ hdev _ =>
    rw [hsame hdev (Inv.devInReceiveHandler_t P (dev s _) _).2]
    exact zero_add _
  | count _ _ hdev _ =>
    rw [hdev]
    exact zero_add _

/-- A device reports as often as it is marked. -/
theorem run_reports {σ : Device N → State} (hN : N < 2 ^ 32) (hinit : Initial σ)
    (hrun : (graph P N maxTime).HasRun σ es s) :
    es.countP (isReport i) = if (dev s i).halted = true then 1 else 0 := by
  have hinv : Inv N maxTime s ∧
      es.countP (isReport i) = if (dev s i).halted = true then 1 else 0 := by
    refine hrun.invariant (I := fun es s => Inv N maxTime s ∧
      es.countP (isReport i) = if (dev s i).halted = true then 1 else 0) ?_ ?_
    · refine ⟨Inv.start hN hinit, ?_⟩
      have hdev : dev ((graph P N maxTime).start σ) i = _ := hinit.dev i
      rw [hdev]
      rfl
    · rintro es s e s' ⟨hinv, hcount⟩ hstep
      refine ⟨hinv.step hN hstep, ?_⟩
      rw [List.countP_append, List.countP_singleton, hcount,
        ← (hinv.fresh.stepped hstep).reports, add_comm]
  exact hinv.2

/-! ## Quiescence -/

namespace Inv

/-- Where nothing is on its way, a device that is behind no other has seen all ticks for its
time. -/
theorem full_of_behind (h : Inv N maxTime s) (hpending : s.pending = 0)
    (hbehind : ∀ j, (dev s i).t.toNat ≤ (dev s j).t.toNat) : (dev s i).seenNow.toNat = N := by
  have hall : reached s (dev s i).t.toNat = Fintype.card (Fin N) := tally_eq_card_iff.2 hbehind
  have hticks : ticks s i (dev s i).t.toNat = 0 := by
    unfold ticks
    rw [hpending, Multiset.countP_zero]
  have hlaw := h.law i (dev s i).t.toNat
  rw [hticks, zero_add, hall, Fintype.card_fin] at hlaw
  simpa [DevState.seen] using hlaw

/-- Where nothing is on its way and no device is ready, all devices are at `maxTime`. -/
theorem over_of_quiescent (hN : N < 2 ^ 32) (h : Inv N maxTime s) (hq : s.Quiescent) (i : Fin N) :
    ¬(dev s i).t < maxTime := by
  have hpending : s.pending = 0 := by
    unfold GraphState.pending
    rw [hq.owed, hq.flight, add_zero]
  obtain ⟨j, -, hbehind⟩ := Finset.exists_min_image Finset.univ (fun j => (dev s j).t.toNat)
    ⟨i, Finset.mem_univ i⟩
  have hbehind : ∀ k, (dev s j).t.toNat ≤ (dev s k).t.toNat :=
    fun k => hbehind k (Finset.mem_univ k)
  have hfull := h.full_of_behind hpending hbehind
  have hready := hq.ready (.dev j)
  rw [h.fresh.devFlags] at hready
  have hover : ¬(dev s j).t < maxTime := by
    intro hgoing
    rcases devReadyToSendHandler_cases ⟨maxTime, BitVec.ofNat 32 N⟩ (dev s j) with
      ⟨-, -, hone⟩ | ⟨hover, -, -⟩ | ⟨hnot, -, -⟩
    · rw [hone] at hready
      cases hready
    · exact hover hgoing
    · refine hnot ⟨hgoing, BitVec.eq_of_toNat_eq ?_⟩
      rw [hfull, BitVec.toNat_ofNat, Nat.mod_eq_of_lt hN]
  have hle := hbehind i
  bv_omega

theorem halted_of_quiescent (hN : N < 2 ^ 32) (h : Inv N maxTime s) (hq : s.Quiescent)
    (i : Fin N) : (dev s i).halted = true := by
  have hover := h.over_of_quiescent hN hq i
  have hready := hq.ready (.dev i)
  rw [h.fresh.devFlags] at hready
  rcases devReadyToSendHandler_cases ⟨maxTime, BitVec.ofNat 32 N⟩ (dev s i) with
    ⟨hgoing, -, -⟩ | ⟨-, -, htwo⟩ | ⟨-, hdone, -⟩
  · exact absurd hgoing hover
  · rw [htwo] at hready
    cases hready
  · exact hdone.resolve_left hover

/-- Where nothing is on its way and no device is ready, all have reported, and the reports are
counted. -/
theorem complete (hN : N < 2 ^ 32) (h : Inv N maxTime s) (hq : s.Quiescent) :
    (∀ i, (dev s i).t = maxTime ∧ (dev s i).halted = true) ∧
      (halt s).seen = BitVec.ofNat 32 N := by
  have hhalted := h.halted_of_quiescent hN hq
  refine ⟨fun i => ⟨h.t_eq (h.over_of_quiescent hN hq i), hhalted i⟩, ?_⟩
  have hall : halted s = Fintype.card (Fin N) := tally_eq_card_iff.2 hhalted
  have hnone : Barrier.reports s = 0 := by
    unfold Barrier.reports GraphState.pending
    rw [hq.owed, hq.flight, add_zero, Multiset.countP_zero]
  have hreports := h.reports
  rw [hnone, hall, zero_add, Fintype.card_fin] at hreports
  apply BitVec.eq_of_toNat_eq
  rw [hreports, BitVec.toNat_ofNat, Nat.mod_eq_of_lt hN]

end Inv

/-- In every reachable state: the halt device has counted at most `devCount` reports, and
`devCount` of them only when every device is at `maxTime` and halted; no device has reported
twice, or is about to report before `maxTime`; and if nothing is owed or in flight and no device
is ready, every device is at `maxTime` and halted, and the halt device has counted them all. -/
theorem completion {σ : Device N → State} (hN : N < 2 ^ 32) (hinit : Initial σ)
    (hrun : (graph P N maxTime).HasRun σ es s) :
    (halt s).seen.toNat ≤ N ∧
    ((halt s).seen = BitVec.ofNat 32 N →
      ∀ i, (dev s i).t = maxTime ∧ (dev s i).halted = true) ∧
    (∀ i, es.countP (isReport i) ≤ 1) ∧
    (∀ i doSend payload calls s',
      (graph P N maxTime).Step s (.send (.dev i) 1 doSend payload calls) s' →
      (dev s i).t = maxTime) ∧
    (s.Quiescent → (∀ i, (dev s i).t = maxTime ∧ (dev s i).halted = true) ∧
      (halt s).seen = BitVec.ofNat 32 N) := by
  have h : Inv N maxTime s := run_inv hN hinit hrun
  refine ⟨h.halted_le.trans halted_le_card, ?_, ?_, ?_, ?_⟩
  · intro hseen i
    have hall : halted s = Fintype.card (Fin N) := by
      have hle := h.halted_le
      have hcard : halted s ≤ N := halted_le_card
      rw [hseen, BitVec.toNat_ofNat, Nat.mod_eq_of_lt hN] at hle
      rw [Fintype.card_fin]
      omega
    have hi := tally_eq_card_iff.1 hall i
    exact ⟨h.t_eq (h.at_end i hi), hi⟩
  · intro i
    rw [run_reports hN hinit hrun]
    split <;> omega
  · intro i doSend payload calls s' hstep
    cases h.fresh.stepped hstep with
    | report hover _ _ _ _ => exact h.t_eq hover
  · exact fun hq => h.complete hN hq

/-- The tick of device `i` for device `j`. -/
def twoTick (i j : Fin 2) : GraphMessage app (Device 2) := ⟨(.dev i, 0), (.dev j, 0), 1#32⟩

/-- The report of device `i`. -/
def twoReport (i : Fin 2) : GraphMessage app (Device 2) := ⟨(.dev i, 1), (.halt, 0), 0#32⟩

/-- Two devices tick each other and themselves, and report. -/
theorem completion_two : ∃ es s, (graph quiet 2 1#32).HasRun (initialState 2) es s ∧
    (∀ i, (dev s i).t = 1#32 ∧ (dev s i).halted = true) ∧ (halt s).seen = 2#32 := by
  obtain ⟨es, s, hrun, hq⟩ : ∃ es s,
      (graph quiet 2 1#32).HasRun (initialState 2) es s ∧ s.Quiescent := by
    have h₀ : (graph quiet 2 1#32).HasRun (initialState 2) [] _ := .nil
    -- the ticks of device 0
    have h₁ := h₀.snoc (@Graph.Step.send _ _ _ _ _ (.dev 0) 0 _ 0#32 _ rfl rfl rfl rfl)
    have h₂ := h₁.snoc (@Graph.Step.forward _ _ _ _ _ (twoTick 0 0) {twoTick 0 1} rfl)
    have h₃ := h₂.snoc (@Graph.Step.forward _ _ _ _ _ (twoTick 0 1) 0 rfl)
    have h₄ := h₃.snoc
      (@Graph.Step.receive _ _ _ _ _ (twoTick 0 1) _ none {twoTick 0 0} _ rfl rfl rfl)
    have h₅ := h₄.snoc (@Graph.Step.receive _ _ _ _ _ (twoTick 0 0) _ none 0 _ rfl rfl rfl)
    -- the ticks of device 1
    have h₆ := h₅.snoc (@Graph.Step.send _ _ _ _ _ (.dev 1) 0 _ 0#32 _ rfl rfl rfl rfl)
    have h₇ := h₆.snoc (@Graph.Step.forward _ _ _ _ _ (twoTick 1 0) {twoTick 1 1} rfl)
    have h₈ := h₇.snoc (@Graph.Step.forward _ _ _ _ _ (twoTick 1 1) 0 rfl)
    have h₉ := h₈.snoc
      (@Graph.Step.receive _ _ _ _ _ (twoTick 1 1) _ none {twoTick 1 0} _ rfl rfl rfl)
    have h₁₀ := h₉.snoc (@Graph.Step.receive _ _ _ _ _ (twoTick 1 0) _ none 0 _ rfl rfl rfl)
    -- their reports
    have h₁₁ := h₁₀.snoc (@Graph.Step.send _ _ _ _ _ (.dev 0) 1 _ 0#32 _ rfl rfl rfl rfl)
    have h₁₂ := h₁₁.snoc (@Graph.Step.forward _ _ _ _ _ (twoReport 0) 0 rfl)
    have h₁₃ := h₁₂.snoc (@Graph.Step.receive _ _ _ _ _ (twoReport 0) _ none 0 _ rfl rfl rfl)
    have h₁₄ := h₁₃.snoc (@Graph.Step.send _ _ _ _ _ (.dev 1) 1 _ 0#32 _ rfl rfl rfl rfl)
    have h₁₅ := h₁₄.snoc (@Graph.Step.forward _ _ _ _ _ (twoReport 1) 0 rfl)
    have h₁₆ := h₁₅.snoc (@Graph.Step.receive _ _ _ _ _ (twoReport 1) _ none 0 _ rfl rfl rfl)
    refine ⟨_, _, h₁₆, rfl, rfl, fun d => ?_⟩
    cases d with
    | dev i =>
      revert i
      exact Fin.forall_fin_two.2 ⟨rfl, rfl⟩
    | halt => rfl
  have hN : 2 < 2 ^ 32 := by decide
  exact ⟨es, s, hrun, (completion hN initialState_initial hrun).2.2.2.2 hq⟩

end Softswitch.Barrier
