import Softswitch.Apps.Ring
import Softswitch.Verify.Barrier

/-!
# The token of the ring

The token is at a device or on its way to one, and its count grows by `increment` with every hop
(`Inv`).  A device that receives the count 0 has lost the token.  So the ring goes on forever
exactly if no multiple of the increment takes the count to 0 (`circulates_iff`).
-/

namespace Softswitch.Ring

open Barrier (Platform quiet)
open Function Runs Tally

variable {P : Platform} {N : Nat} {increment c₀ : BitVec 32} {σ : Fin N → DevState}
  {s s' : GraphState app (Fin N)} {e : GraphEvent app (Fin N)}
  {es : List (GraphEvent app (Fin N))} {h : Nat}

/-! ## What is counted -/

/-- The devices that have a token. -/
def holding (s : GraphState app (Fin N)) : Nat :=
  tally (fun σ : DevState => σ.count ≠ 0#32) s.state

def isReceive : GraphEvent app (Fin N) → Bool
  | .receive _ _ => true
  | _ => false

/-- The hops that have been completed. -/
def hops (es : List (GraphEvent app (Fin N))) : Nat := es.countP isReceive

/-- The count of the token after `h` hops. -/
def tokenCount (increment c₀ : BitVec 32) (h : Nat) : BitVec 32 :=
  c₀ + BitVec.ofNat 32 h * increment

theorem tokenCount_zero : tokenCount increment c₀ 0 = c₀ := by
  simp [tokenCount]

theorem tokenCount_succ :
    tokenCount increment c₀ (h + 1) = tokenCount increment c₀ h + increment := by
  unfold tokenCount
  rw [BitVec.ofNat_add, BitVec.add_mul, BitVec.one_mul, BitVec.add_assoc]

/-! ## Steps -/

/-- The cached flags are what the readiness handlers answer. -/
def Fresh (s : GraphState app (Fin N)) : Prop := ∀ i, s.flags i = devReadyToSendHandler (s.state i)

/-- The message that device `i` sends. -/
def tokenMessage (i : Fin N) (msg : BitVec 32) : GraphMessage app (Fin N) :=
  ⟨(i, 0), (next i, 0), msg⟩

/-- What one step of the graph is, in terms of the token. -/
inductive Stepped (increment : BitVec 32) (s : GraphState app (Fin N)) :
    GraphEvent app (Fin N) → GraphState app (Fin N) → Prop
  | send {s' : GraphState app (Fin N)} {i : Fin N} (hcount : (s.state i).count ≠ 0#32)
      (hstate : s'.state = update s.state i ⟨0#32⟩)
      (hpending : s'.pending = tokenMessage i ((s.state i).count + increment) ::ₘ s.pending) :
      Stepped increment s (.send i 0 true ((s.state i).count + increment) []) s'
  | forward {s' : GraphState app (Fin N)} {m : GraphMessage app (Fin N)}
      (hstate : s'.state = s.state) (hpending : s'.pending = s.pending) :
      Stepped increment s (.forward m) s'
  | receive {s' : GraphState app (Fin N)} {m : GraphMessage app (Fin N)}
      (hpending : s.pending = m ::ₘ s'.pending)
      (hstate : s'.state = update s.state m.dest.1 ⟨m.payload⟩) :
      Stepped increment s (.receive m []) s'

theorem devReadyToSendHandler_ne {dState : DevState} (hcount : dState.count ≠ 0#32) :
    devReadyToSendHandler dState = 1#32 := if_pos hcount

theorem count_ne_of_wantsSend {dState : DevState}
    (hready : wantsSend (devReadyToSendHandler dState) = true) : dState.count ≠ 0#32 := by
  intro hcount
  unfold devReadyToSendHandler at hready
  rw [if_neg (not_not.2 hcount)] at hready
  cases hready

theorem not_wantsCompute {dState : DevState} :
    wantsCompute (devReadyToSendHandler dState) = false := by
  unfold devReadyToSendHandler
  split <;> rfl

theorem settle_state {i : Fin N} {dState : DevState} :
    ((graph P N increment).settle s i dState).state = update s.state i dState := rfl

theorem Fresh.settle (hfresh : Fresh s) (i : Fin N) (dState : DevState) :
    Fresh ((graph P N increment).settle s i dState) := by
  intro j
  rw [settle_state]
  by_cases hj : j = i
  · subst hj
    rw [update_self, Graph.settle_flags_self]
    rfl
  · rw [update_of_ne hj, Graph.settle_flags_of_ne hj]
    exact hfresh j

theorem Fresh.step (hfresh : Fresh s) (hstep : (graph P N increment).Step s e s') : Fresh s' := by
  cases hstep with
  | send _ _ _ _ => exact hfresh.settle _ _
  | forward _ => exact hfresh
  | receive _ _ _ => exact hfresh.settle _ _
  | compute _ _ => exact hfresh.settle _ _
  | hardwareIdle _ _ => exact hfresh.settle _ _

/-- Every step of the graph is one of the token. -/
theorem Fresh.stepped (hfresh : Fresh s) (hstep : (graph P N increment).Step s e s') :
    Stepped increment s e s' := by
  cases hstep with
  | @send i pinIndex pin payload r hready hindex hpin hr =>
    rw [hfresh i] at hready hindex
    have hcount := count_ne_of_wantsSend hready
    rw [devReadyToSendHandler_ne hcount] at hindex
    obtain rfl : 0 = pinIndex := Option.some.inj hindex
    cases hpin
    subst hr
    refine .send hcount rfl ?_
    show s.owed + {_} + s.flight = _ ::ₘ (s.owed + s.flight)
    rw [add_right_comm, add_comm, Multiset.singleton_add]
    rfl
  | @forward m owed howed =>
    refine .forward rfl ?_
    show owed + m ::ₘ s.flight = s.owed + s.flight
    rw [howed, Multiset.add_cons, Multiset.cons_add]
  | @receive m pin eState flight r hflight hpin hr =>
    have hpending : s.pending = m ::ₘ (s.owed + flight) := by
      unfold GraphState.pending
      rw [hflight, Multiset.add_cons]
    obtain ⟨source, ⟨i, k⟩, msg⟩ := m
    obtain rfl : k = 0 := Nat.lt_one_iff.1 (List.getElem?_eq_some_iff.1 hpin).1
    cases hpin
    subst hr
    exact .receive hpending rfl
  | @compute i r hready hr =>
    rw [hfresh i, not_wantsCompute] at hready
    cases hready
  | hardwareIdle hhandler hr => cases hhandler

/-! ## The invariant -/

/-- Where the token is after `h` hops. -/
inductive Token (increment c₀ : BitVec 32) (h : Nat) (s : GraphState app (Fin N)) : Prop
  /-- At a device; it is lost if its count is 0. -/
  | held (i : Fin N) (hstate : s.state = update (fun _ => ⟨0#32⟩) i ⟨tokenCount increment c₀ h⟩)
      (hpending : s.pending = 0)
  /-- On its way to a device, where it completes the next hop. -/
  | sent (m : GraphMessage app (Fin N)) (hstate : s.state = fun _ => ⟨0#32⟩)
      (hpending : s.pending = {m}) (hpayload : m.payload = tokenCount increment c₀ (h + 1))

structure Inv (increment c₀ : BitVec 32) (h : Nat) (s : GraphState app (Fin N)) : Prop where
  fresh : Fresh s
  token : Token increment c₀ h s

namespace Token

/-- Who sends has the token. -/
theorem send {i : Fin N} (ht : Token increment c₀ h s) (hcount : (s.state i).count ≠ 0#32) :
    s.state = update (fun _ => ⟨0#32⟩) i ⟨tokenCount increment c₀ h⟩ ∧ s.pending = 0 := by
  cases ht with
  | held j hstate hpending =>
    obtain rfl : i = j := by
      by_contra hne
      rw [hstate, update_of_ne hne] at hcount
      exact hcount rfl
    exact ⟨hstate, hpending⟩
  | sent m hstate _ _ =>
    rw [hstate] at hcount
    exact absurd rfl hcount

/-- What is received is the token, and no device has one. -/
theorem receive {m : GraphMessage app (Fin N)} {rest : Multiset (GraphMessage app (Fin N))}
    (ht : Token increment c₀ h s) (hm : s.pending = m ::ₘ rest) :
    (s.state = fun _ => ⟨0#32⟩) ∧ rest = 0 ∧ m.payload = tokenCount increment c₀ (h + 1) := by
  cases ht with
  | held i _ hpending =>
    rw [hpending] at hm
    exact absurd hm Multiset.zero_ne_cons
  | sent m' hstate hpending hpayload =>
    rw [hpending] at hm
    obtain ⟨rfl, rfl⟩ := (Multiset.singleton_eq_cons_iff _).1 hm
    exact ⟨hstate, rfl, hpayload⟩

theorem step (ht : Token increment c₀ h s) (hstep : Stepped increment s e s') :
    Token increment c₀ (h + hops [e]) s' := by
  cases hstep with
  | @send _ i hcount hstate hpending =>
    obtain ⟨hheld, hnone⟩ := ht.send hcount
    refine .sent _ ?_ (by rw [hpending, hnone]; rfl) ?_
    · rw [hstate, hheld, update_idem]
      exact update_eq_self i _
    · rw [hheld, update_self]
      exact tokenCount_succ.symm
  | forward hstate hpending =>
    cases ht with
    | held i hheld hnone => exact .held i (hstate.trans hheld) (hpending.trans hnone)
    | sent m hzero hm hpayload =>
      exact .sent m (hstate.trans hzero) (hpending.trans hm) hpayload
  | @receive _ m hpending hstate =>
    obtain ⟨hzero, hrest, hpayload⟩ := ht.receive hpending
    refine .held m.dest.1 ?_ hrest
    rw [hstate, hzero, hpayload]
    rfl

end Token

namespace Inv

theorem start (hinit : Initial c₀ σ) : Inv increment c₀ 0 ((graph P N increment).start σ) := by
  obtain ⟨i, hσ⟩ := hinit
  refine ⟨fun _ => rfl, .held i ?_ rfl⟩
  rw [tokenCount_zero]
  exact hσ

theorem step (hinv : Inv increment c₀ h s) (hstep : (graph P N increment).Step s e s') :
    Inv increment c₀ (h + hops [e]) s' :=
  ⟨hinv.fresh.step hstep, hinv.token.step (hinv.fresh.stepped hstep)⟩

theorem run (hinv : Inv increment c₀ h s) (hrun : Run (graph P N increment).Step s es s') :
    Inv increment c₀ (h + hops es) s' := by
  refine hrun.invariant (I := fun es s' => Inv increment c₀ (h + hops es) s') hinv ?_
  intro es s e s' hs hstep
  have hhops : hops (es ++ [e]) = hops es + hops [e] := List.countP_append
  rw [hhops, ← Nat.add_assoc]
  exact hs.step hstep

/-- As long as its count is not 0, there is one token. -/
theorem one (hinv : Inv increment c₀ h s) (hcount : tokenCount increment c₀ h ≠ 0#32) :
    holding s + s.pending.card = 1 := by
  have hzero : tally (fun σ : DevState => σ.count ≠ 0#32) (fun _ : Fin N => ⟨0#32⟩) = 0 :=
    tally_eq_zero_iff.2 fun _ hne => hne rfl
  unfold holding
  cases hinv.token with
  | held i hstate hpending =>
    have hupdate := tally_update (p := fun σ : DevState => σ.count ≠ 0#32)
      (f := fun _ : Fin N => ⟨0#32⟩) i ⟨tokenCount increment c₀ h⟩
    rw [hzero, if_neg (not_not.2 rfl), if_pos hcount] at hupdate
    rw [hstate, hpending]
    exact hupdate
  | sent m hstate hpending _ =>
    rw [hstate, hzero, hpending, Multiset.card_singleton]

/-- A count of 0 is no token. -/
theorem lost (hinv : Inv increment c₀ h s) (hcount : tokenCount increment c₀ h = 0#32) :
    holding s = 0 := by
  refine tally_eq_zero_iff.2 fun i hne => ?_
  obtain ⟨hstate, -⟩ := hinv.token.send hne
  rw [hstate, update_self] at hne
  exact hne hcount

/-- A token that is not lost is sent on, and arrives. -/
theorem hop (hinv : Inv increment c₀ h s) (hpending : s.pending = 0)
    (hcount : tokenCount increment c₀ h ≠ 0#32) :
    ∃ es s', Run (graph P N increment).Step s es s' ∧ hops es = 1 ∧ s'.pending = 0 := by
  have howed : s.owed = 0 := Multiset.le_zero.1 (hpending ▸ Multiset.le_add_right _ _)
  have hflight : s.flight = 0 := Multiset.le_zero.1 (hpending ▸ Multiset.le_add_left _ _)
  have hone := hinv.one hcount
  obtain ⟨i, hi⟩ := exists_of_tally_pos (show 0 < holding s by simp [hpending] at hone; omega)
  have hflags : s.flags i = 1#32 := (hinv.fresh i).trans (devReadyToSendHandler_ne hi)
  have h₁ : Run (graph P N increment).Step s _ _ := Run.nil.snoc
    (@Graph.Step.send _ _ _ _ _ i 0 _ 0#32 _ (by rw [hflags]; rfl) (by rw [hflags]; rfl) rfl rfl)
  have h₂ := h₁.snoc (@Graph.Step.forward _ _ _ _ _
    (tokenMessage i ((s.state i).count + increment)) 0 (by rw [howed]; rfl))
  have h₃ := h₂.snoc (@Graph.Step.receive _ _ _ _ _
    (tokenMessage i ((s.state i).count + increment)) _ none 0 _ (by rw [← hflight]; rfl) rfl rfl)
  exact ⟨_, _, h₃, rfl, rfl⟩

end Inv

/-! ## Forever -/

/-- The token goes around in every run: there is always exactly one, it is not received by a
device that has one, it is received with the count of its hops, and it is at a device that is ready
or on its way. -/
structure Circulates (P : Platform) (increment c₀ : BitVec 32) (σ : Fin N → DevState) : Prop where
  one : ∀ es s, (graph P N increment).HasRun σ es s → holding s + s.pending.card = 1
  apart : ∀ es s m calls s', (graph P N increment).HasRun σ es s →
    (graph P N increment).Step s (.receive m calls) s' → (s.state m.dest.1).count = 0#32
  payload : ∀ es s m calls s', (graph P N increment).HasRun σ es s →
    (graph P N increment).Step s (.receive m calls) s' →
    m.payload = c₀ + BitVec.ofNat 32 (hops (es ++ [.receive m calls])) * increment
  goesOn : ∀ es s, (graph P N increment).HasRun σ es s →
    (∃ i, wantsSend (s.flags i) = true) ∨ s.pending ≠ 0

theorem run_inv (hinit : Initial c₀ σ) (hrun : (graph P N increment).HasRun σ es s) :
    Inv increment c₀ (hops es) s := by
  have hinv := (Inv.start hinit).run hrun
  rwa [Nat.zero_add] at hinv

/-- The token makes any number of hops, unless its count is 0 before. -/
theorem exists_run (hinit : Initial c₀ σ) (hcount : ∀ k < h, tokenCount increment c₀ k ≠ 0#32) :
    ∃ es s, (graph P N increment).HasRun σ es s ∧ hops es = h ∧ s.pending = 0 := by
  induction h with
  | zero => exact ⟨[], _, .nil, rfl, rfl⟩
  | succ h ih =>
    obtain ⟨es, s, hrun, rfl, hpending⟩ := ih fun k hk => hcount k (Nat.lt_succ_of_lt hk)
    obtain ⟨es', s', hrun', hone, hpending'⟩ := (run_inv hinit hrun).hop hpending
      (hcount _ (Nat.lt_succ_self _))
    refine ⟨es ++ es', s', hrun.append hrun', ?_, hpending'⟩
    unfold hops
    rw [List.countP_append]
    exact congrArg (hops es + ·) hone

/-- The token of the ring goes around forever exactly if its count never becomes 0. -/
theorem circulates_iff (hinit : Initial c₀ σ) :
    Circulates P increment c₀ σ ↔ ∀ h, c₀ + BitVec.ofNat 32 h * increment ≠ 0#32 := by
  constructor
  · intro hall
    by_contra hlost
    have hex : ∃ h, tokenCount increment c₀ h = 0#32 := by simpa [tokenCount] using hlost
    obtain ⟨es, s, hrun, hhops, hpending⟩ := exists_run (P := P) hinit fun k => Nat.find_min hex
    have hinv := run_inv hinit hrun
    rw [hhops] at hinv
    have hone := hall.one es s hrun
    rw [hinv.lost (Nat.find_spec hex), hpending] at hone
    cases hone
  · intro hcount
    have hreceive : ∀ es s m calls s', (graph P N increment).HasRun σ es s →
        (graph P N increment).Step s (.receive m calls) s' →
        (s.state = fun _ => ⟨0#32⟩) ∧ m.payload = tokenCount increment c₀ (hops es + 1) := by
      intro es s m calls s' hrun hstep
      have hinv := run_inv hinit hrun
      cases hinv.fresh.stepped hstep with
      | receive hpending hstate =>
        obtain ⟨hzero, -, hpayload⟩ := hinv.token.receive hpending
        exact ⟨hzero, hpayload⟩
    refine ⟨fun es s hrun => (run_inv hinit hrun).one (hcount _), ?_, ?_, ?_⟩
    · intro es s m calls s' hrun hstep
      rw [(hreceive es s m calls s' hrun hstep).1]
    · intro es s m calls s' hrun hstep
      have hhops : hops (es ++ [.receive m calls]) = hops es + 1 := by simp [hops, isReceive]
      rw [hhops]
      exact (hreceive es s m calls s' hrun hstep).2
    · intro es s hrun
      have hinv := run_inv hinit hrun
      have hone := hinv.one (hcount _)
      by_cases hpending : s.pending = 0
      · obtain ⟨i, hi⟩ := exists_of_tally_pos
          (show 0 < holding s by simp [hpending] at hone; omega)
        refine .inl ⟨i, ?_⟩
        rw [hinv.fresh i, devReadyToSendHandler_ne hi]
        rfl
      · exact .inr hpending

/-- Device `i` has a token with the count `count`, and the others have none. -/
def tokenAt (i : Fin N) (count : BitVec 32) : Fin N → DevState := update (fun _ => ⟨0#32⟩) i ⟨count⟩

/-- The shipped increment keeps an odd count odd. -/
theorem odd_ne_zero : 1#32 + BitVec.ofNat 32 h * 2#32 ≠ 0#32 := by
  generalize BitVec.ofNat 32 h = k
  bv_omega

theorem circulates_iff_odd : Circulates quiet 2#32 1#32 (tokenAt (0 : Fin 2) 1#32) :=
  (circulates_iff ⟨0, rfl⟩).2 fun _ => odd_ne_zero

/-- The message that takes the shipped increment past the last even count. -/
def wrapped (i : Fin N) : GraphMessage app (Fin N) := ⟨(i, 0), (next i, 0), 0#32⟩

/-- An even count becomes 0. -/
theorem not_circulates_even :
    ¬Circulates quiet 2#32 0xFFFFFFFE#32 (tokenAt (0 : Fin 2) 0xFFFFFFFE#32) := by
  intro hall
  have h₀ : (graph quiet 2 2#32).HasRun (tokenAt 0 0xFFFFFFFE#32) [] _ := .nil
  have h₁ := h₀.snoc (@Graph.Step.send _ _ _ _ _ 0 0 _ 0#32 _ rfl rfl rfl rfl)
  have h₂ := h₁.snoc (@Graph.Step.forward _ _ _ _ _ (wrapped 0) 0 rfl)
  have h₃ := h₂.snoc (@Graph.Step.receive _ _ _ _ _ (wrapped 0) _ none 0 _ rfl rfl rfl)
  exact absurd (hall.one _ _ h₃) (by decide)

end Softswitch.Ring
