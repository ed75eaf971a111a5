import Mathlib.Data.Fintype.Basic
import Softswitch.Verify.EdgeLookup

/-!
# Gathering the edge properties

Each outer device ticks once, and each tick is received once (`Inv.law`).  As the source list
gives each outer device a bit of its own, the bit of a tick is never set before it, and all bits
are set with the last tick (`gathers`).
-/

namespace Softswitch.EdgeProps

open Barrier (Platform)
open Function Runs

/-- What the inner device knows of its edges: the addresses of the outer devices are bound to their
bits in a strictly sorted list. -/
structure Sources (n : Nat) where
  address : Fin n → Address
  bindings : List (InputPinBinding app)
  sorted : StrictlySorted bindings
  bound : ∀ i, ∃ edge ∈ bindings, sameAddress edge.source (address i) = true ∧
    edge.edgeProperties = some ⟨1#32 <<< i.val⟩

variable {P : Platform} {n : Nat} {S : Sources n} {σ : Device n → State}
  {s s' : GraphState app (Device n)} {e : GraphEvent app (Device n)}
  {es : List (GraphEvent app (Device n))} {i j : Fin n}

/-- The properties that the search finds for a tick of outer device `i`. -/
def Sources.edges (S : Sources n) (i : Fin n) : Option InnerInProps :=
  (edgeOf S.bindings (S.address i)).bind (·.edgeProperties)

theorem Sources.edges_eq (S : Sources n) (i : Fin n) : S.edges i = some ⟨1#32 <<< i.val⟩ := by
  obtain ⟨edge, hmem, hsource, hprops⟩ := S.bound i
  unfold Sources.edges
  rw [S.sorted.edgeOf_eq hmem hsource]
  exact hprops

/-! ## What is counted -/

/-- The states of the outer devices. -/
def outer (s : GraphState app (Device n)) (i : Fin n) : OuterState :=
  (s.state (.outer i)).toOuterState

/-- The state of the inner device. -/
def inner (s : GraphState app (Device n)) : InnerState := (s.state .inner).toInnerState

/-- The tick of outer device `i`. -/
def tick (i : Fin n) : GraphMessage app (Device n) := ⟨(.outer i, 0), (.inner, 0), ()⟩

/-- Outer device `i` sends. -/
def isSend (i : Fin n) : GraphEvent app (Device n) → Bool
  | .send d _ _ _ _ => d = .outer i
  | _ => false

/-- The tick of outer device `i` is delivered. -/
def isTick (i : Fin n) : GraphEvent app (Device n) → Bool
  | .receive m _ => m.source = (.outer i, 0)
  | _ => false

/-- The tick of outer device `i` has been delivered. -/
def ticked (es : List (GraphEvent app (Device n))) (i : Fin n) : Bool := es.any (isTick i)

/-- The masks of the outer devices with `p`, together. -/
def union (p : Fin n → Bool) : BitVec 32 :=
  ((List.finRange n).filter p).foldr (fun i acc => 1#32 <<< i.val ||| acc) 0#32

theorem union_getLsbD {p : Fin n → Bool} {k : Nat} (hk : k < 32) :
    (union p).getLsbD k = true ↔ ∃ i : Fin n, i.val = k ∧ p i = true := by
  have hfold : ∀ l : List (Fin n),
      (l.foldr (fun i acc => 1#32 <<< i.val ||| acc) 0#32).getLsbD k = true ↔
        ∃ i ∈ l, i.val = k := by
    intro l
    induction l with
    | nil => simp
    | cons i l ih =>
      have hbit : (1#32 <<< i.val).getLsbD k = true ↔ i.val = k := by
        rw [← BitVec.twoPow_eq]
        simp [hk]
        omega
      rw [List.foldr_cons, BitVec.getLsbD_or, Bool.or_eq_true, ih, hbit]
      simp
  unfold union
  rw [hfold]
  simp [and_comm]

/-- All bits are set when all outer devices have `p`. -/
theorem allReceived_union {p : Fin n → Bool} (hn : n ≤ 31) :
    allReceived ⟨BitVec.ofNat 32 n⟩ (union p) = true ↔ ∀ i, p i = true := by
  have hall : ∀ k < 32, (1#32 <<< BitVec.ofNat 32 n - 1#32).getLsbD k = decide (k < n) := by
    intro k hk
    have htoNat : (1#32 <<< BitVec.ofNat 32 n - 1#32).toNat = 2 ^ n - 1 := by
      have hlt : 2 ^ n < 2 ^ 32 := Nat.pow_lt_pow_right (by decide) (by omega)
      have hpos : 0 < 2 ^ n := Nat.two_pow_pos n
      have hmod : (BitVec.ofNat 32 n).toNat = n := Nat.mod_eq_of_lt (by omega)
      have hshift : (1#32 <<< BitVec.ofNat 32 n).toNat = 2 ^ n := by
        rw [BitVec.shiftLeft_eq', hmod, ← BitVec.twoPow_eq, BitVec.toNat_twoPow_of_lt (by omega)]
      bv_omega
    rw [← BitVec.testBit_toNat, htoNat, Nat.testBit_two_pow_sub_one]
  unfold allReceived
  rw [beq_iff_eq]
  constructor
  · intro heq i
    have hi : i.val < 32 := by omega
    have hbit : (union p).getLsbD i.val = true := by
      rw [heq, hall _ hi]
      exact decide_eq_true i.isLt
    obtain ⟨j, hj, hp⟩ := (union_getLsbD hi).1 hbit
    rwa [Fin.ext hj] at hp
  · intro hp
    apply BitVec.eq_of_getLsbD_eq
    intro k hk
    rw [hall k hk, Bool.eq_iff_iff, union_getLsbD hk, decide_eq_true_iff]
    exact ⟨fun ⟨i, hi, _⟩ => hi ▸ i.isLt, fun hlt => ⟨⟨k, hlt⟩, rfl, hp _⟩⟩

/-! ## Steps -/

/-- The cached flags are what the readiness handlers answer. -/
structure Fresh (s : GraphState app (Device n)) : Prop where
  outerFlags : ∀ i, s.flags (.outer i) = outerReadyToSendHandler (outer s i)
  innerFlags : s.flags .inner = 0#32

/-- What one step of the graph is, in terms of the ticks. -/
inductive Stepped (s : GraphState app (Device n)) :
    GraphEvent app (Device n) → GraphState app (Device n) → Prop
  | send {s' : GraphState app (Device n)} {i : Fin n} {payload : app.Payload}
      (hready : (outer s i).ready ≠ 0#8) (houter : outer s' = update (outer s) i ⟨0#8⟩)
      (hinner : inner s' = inner s) (hpending : s'.pending = tick i ::ₘ s.pending) :
      Stepped s (.send (.outer i) 0 true payload (outerOutSendHandler (outer s i)).2) s'
  | forward {s' : GraphState app (Device n)} {m : GraphMessage app (Device n)}
      (houter : outer s' = outer s) (hinner : inner s' = inner s)
      (hpending : s'.pending = s.pending) : Stepped s (.forward m) s'
  | receive {s' : GraphState app (Device n)} {i : Fin n}
      (hpending : s.pending = tick i ::ₘ s'.pending) (houter : outer s' = outer s)
      (hinner : inner s' =
        (innerInReceiveHandler ⟨BitVec.ofNat 32 n⟩ (inner s) ⟨1#32 <<< i.val⟩).1) :
      Stepped s (.receive (tick i)
        (innerInReceiveHandler ⟨BitVec.ofNat 32 n⟩ (inner s) ⟨1#32 <<< i.val⟩).2) s'

theorem outerReadyToSendHandler_zero {dState : OuterState} (h : dState.ready = 0#8) :
    outerReadyToSendHandler dState = 0#32 := if_neg (not_not.2 h)

theorem outerReadyToSendHandler_ne {dState : OuterState} (h : dState.ready ≠ 0#8) :
    outerReadyToSendHandler dState = 1#32 := if_pos h

theorem not_wantsCompute {dState : OuterState} :
    wantsCompute (outerReadyToSendHandler dState) = false := by
  unfold outerReadyToSendHandler
  split <;> rfl

section Settle

variable {dState : State} {edges : Fin n → Option InnerInProps}

theorem outer_ne (h : j ≠ i) : Device.outer j ≠ Device.outer i :=
  fun heq => h (Device.outer.inj heq)

theorem inner_ne : (Device.inner : Device n) ≠ .outer i := nofun

theorem ne_inner : Device.outer i ≠ .inner := nofun

theorem settle_outer : outer ((graph P n edges).settle s (.outer i) dState) =
    update (outer s) i dState.toOuterState := by
  funext j
  unfold outer
  by_cases hj : j = i
  · subst hj
    rw [update_self, Graph.settle_state_self]
    rfl
  · rw [update_of_ne hj, Graph.settle_state_of_ne (outer_ne hj)]

theorem settle_outer_inner :
    inner ((graph P n edges).settle s (.outer i) dState) = inner s := by
  unfold inner
  rw [Graph.settle_state_of_ne inner_ne]

theorem settle_inner_outer :
    outer ((graph P n edges).settle s .inner dState) = outer s := by
  funext j
  unfold outer
  rw [Graph.settle_state_of_ne ne_inner]

theorem settle_inner :
    inner ((graph P n edges).settle s .inner dState) = dState.toInnerState := by
  unfold inner
  rw [Graph.settle_state_self]
  rfl

theorem Fresh.settle (h : Fresh s) (d : Device n) (dState : State) :
    Fresh ((graph P n edges).settle s d dState) := by
  cases d with
  | outer i =>
    refine ⟨fun j => ?_, ?_⟩
    · rw [settle_outer]
      by_cases hj : j = i
      · subst hj
        rw [update_self, Graph.settle_flags_self]
        rfl
      · rw [update_of_ne hj, Graph.settle_flags_of_ne (outer_ne hj)]
        exact h.outerFlags j
    · rw [Graph.settle_flags_of_ne inner_ne]
      exact h.innerFlags
  | inner =>
    refine ⟨fun j => ?_, ?_⟩
    · rw [settle_inner_outer, Graph.settle_flags_of_ne ne_inner]
      exact h.outerFlags j
    · rw [Graph.settle_flags_self]
      rfl

theorem Fresh.step (h : Fresh s) (hstep : (graph P n edges).Step s e s') : Fresh s' := by
  cases hstep with
  | @send d _ _ _ r _ _ _ _ =>
    have hsettle : Fresh ((graph P n edges).settle s d r.state) := h.settle d r.state
    exact ⟨hsettle.outerFlags, hsettle.innerFlags⟩
  | forward _ => exact ⟨h.outerFlags, h.innerFlags⟩
  | @receive m _ _ _ r _ _ _ =>
    have hsettle : Fresh ((graph P n edges).settle s m.dest.1 r.state) := h.settle _ r.state
    exact ⟨hsettle.outerFlags, hsettle.innerFlags⟩
  | compute _ _ => exact h.settle _ _
  | hardwareIdle _ _ => exact h.settle _ _

theorem ready_calls {d : Device n} : ((graph P n edges).ready d dState).calls = [] := by
  cases d with
  | outer i => rfl
  | inner => rfl

end Settle

/-- Every step of the graph is one of the ticks. -/
theorem Fresh.stepped (hfresh : Fresh s) (hticks : ∀ m ∈ s.pending, ∃ i, m = tick i)
    (hstep : (graph P n S.edges).Step s e s') : Stepped s e s' := by
  cases hstep with
  | @send d pinIndex pin payload r hready hindex hpin hr =>
    rw [ready_calls, List.append_nil]
    cases d with
    | inner =>
      rw [hfresh.innerFlags] at hready
      cases hready
    | outer i =>
      rw [hfresh.outerFlags] at hready hindex
      have hone : (outer s i).ready ≠ 0#8 := by
        intro hzero
        rw [outerReadyToSendHandler_zero hzero] at hready
        cases hready
      rw [outerReadyToSendHandler_ne hone] at hindex
      obtain rfl : 0 = pinIndex := Option.some.inj hindex
      have houter : outer ((graph P n S.edges).settle s (.outer i) r.state) = _ := settle_outer
      have hinner : inner ((graph P n S.edges).settle s (.outer i) r.state) = _ :=
        settle_outer_inner
      cases hpin
      subst hr
      refine .send hone houter hinner ?_
      show s.owed + {_} + s.flight = _ ::ₘ (s.owed + s.flight)
      rw [add_right_comm, add_comm, Multiset.singleton_add]
      rfl
  | @forward m owed howed =>
    refine .forward rfl rfl ?_
    show owed + m ::ₘ s.flight = s.owed + s.flight
    rw [howed, Multiset.add_cons, Multiset.cons_add]
  | @receive m pin eState flight r hflight hpin hr =>
    rw [ready_calls, List.append_nil]
    have hpending : s.pending = m ::ₘ (s.owed + flight) := by
      unfold GraphState.pending
      rw [hflight, Multiset.add_cons]
    obtain ⟨i, rfl⟩ := hticks m (hpending ▸ Multiset.mem_cons_self _ _)
    have hedge : (graph P n S.edges).edgeProps (tick i).source (tick i).dest =
        some ⟨1#32 <<< i.val⟩ := S.edges_eq i
    have houter : outer ((graph P n S.edges).settle s .inner r.state) = _ := settle_inner_outer
    have hinner : inner ((graph P n S.edges).settle s .inner r.state) = _ := settle_inner
    cases hpin
    unfold Graph.receiveResult at hr
    rw [hedge] at hr
    subst hr
    exact .receive hpending houter hinner
  | @compute d r hready hr =>
    cases d with
    | outer i =>
      rw [hfresh.outerFlags, not_wantsCompute] at hready
      cases hready
    | inner =>
      rw [hfresh.innerFlags] at hready
      cases hready
  | @hardwareIdle d handler r hhandler hr =>
    cases d with
    | outer i => cases hhandler
    | inner => cases hhandler

/-! ## The invariant -/

/-- The ticks of outer device `i` that are on their way. -/
def outstanding (s : GraphState app (Device n)) (i : Fin n) : Nat :=
  s.pending.countP fun m => m.source = (.outer i, 0)

theorem countP_tick {rest : Multiset (GraphMessage app (Device n))} :
    (tick i ::ₘ rest).countP (fun m => m.source = (.outer j, 0)) =
      rest.countP (fun m => m.source = (.outer j, 0)) + if i = j then 1 else 0 := by
  rw [Multiset.countP_cons]
  simp [tick]

theorem countP_isSend {payload : app.Payload} {calls : List HandlerCall} :
    [.send (.outer i) 0 true payload calls].countP (isSend j) = if i = j then 1 else 0 := by
  simp [isSend, List.countP_singleton]

theorem countP_isTick {calls : List HandlerCall} :
    [.receive (tick i) calls].countP (isTick j) = if i = j then 1 else 0 := by
  simp [isTick, tick, List.countP_singleton]

theorem union_or {p : Fin n → Bool} :
    union (fun j => p j || decide (j = i)) = union p ||| 1#32 <<< i.val := by
  apply BitVec.eq_of_getLsbD_eq
  intro k hk
  have hbit : (1#32 <<< i.val).getLsbD k = true ↔ i.val = k := by
    rw [← BitVec.twoPow_eq]
    simp [hk]
    omega
  rw [BitVec.getLsbD_or, Bool.eq_iff_iff, Bool.or_eq_true, union_getLsbD hk, union_getLsbD hk, hbit]
  constructor
  · rintro ⟨j, hj, hp⟩
    rcases Bool.or_eq_true_iff.1 hp with hp | heq
    · exact .inl ⟨j, hj, hp⟩
    · exact .inr (of_decide_eq_true heq ▸ hj)
  · rintro (⟨j, hj, hp⟩ | hi)
    · exact ⟨j, hj, by simp [hp]⟩
    · exact ⟨i, hi, by simp⟩

/-- The bit of an outer device without `p` is not set. -/
theorem union_and {p : Fin n → Bool} (hp : p i = false) : union p &&& 1#32 <<< i.val = 0#32 := by
  apply BitVec.eq_of_getLsbD_eq
  intro k hk
  rw [BitVec.getLsbD_and, BitVec.getLsbD_zero, ← Bool.not_eq_true, Bool.and_eq_true,
    union_getLsbD hk]
  rintro ⟨⟨j, rfl, hj⟩, hbit⟩
  have hi : i = j := by
    rw [← BitVec.twoPow_eq] at hbit
    simp at hbit
    omega
  rw [← hi, hp] at hj
  cases hj

namespace Stepped

theorem ticks (h : Stepped s e s') (hticks : ∀ m ∈ s.pending, ∃ i, m = tick i) :
    ∀ m ∈ s'.pending, ∃ i, m = tick i := by
  intro m hm
  cases h with
  | @send _ i _ _ _ _ hpending =>
    rw [hpending, Multiset.mem_cons] at hm
    rcases hm with rfl | hm
    · exact ⟨i, rfl⟩
    · exact hticks m hm
  | forward _ _ hpending => exact hticks m (hpending ▸ hm)
  | receive hpending _ _ => exact hticks m (hpending ▸ Multiset.mem_cons_of_mem hm)

/-- An outer device that sends is no longer ready. -/
theorem sends (h : Stepped s e s') (j : Fin n) :
    (if (outer s j).ready = 0#8 then 1 else 0) + [e].countP (isSend j) =
      if (outer s' j).ready = 0#8 then 1 else 0 := by
  cases h with
  | @send _ i _ hready houter _ _ =>
    rw [houter, countP_isSend]
    by_cases hj : j = i
    · subst hj
      rw [update_self, if_neg hready, if_pos rfl]
      rfl
    · rw [update_of_ne hj, if_neg (Ne.symm hj), Nat.add_zero]
  | forward houter _ _ =>
    rw [houter]
    rfl
  | receive _ houter _ =>
    rw [houter]
    rfl

/-- A tick that is sent is on its way until it is delivered. -/
theorem law (h : Stepped s e s') (j : Fin n) :
    outstanding s' j + [e].countP (isTick j) = outstanding s j + [e].countP (isSend j) := by
  unfold outstanding
  cases h with
  | send _ _ _ hpending =>
    rw [hpending, countP_tick, countP_isSend]
    rfl
  | forward _ _ hpending =>
    rw [hpending]
    rfl
  | receive hpending _ _ =>
    rw [hpending, countP_tick, countP_isTick]
    rfl

/-- A tick that is delivered adds its bit. -/
theorem acc (h : Stepped s e s') {p : Fin n → Bool} (hacc : (inner s).acc = union p) :
    (inner s').acc = union fun j => p j || isTick j e := by
  have hsame : (union fun j => p j || false) = union p := by simp
  cases h with
  | send _ _ hinner _ =>
    rw [hinner, hacc]
    exact hsame.symm
  | forward _ hinner _ =>
    rw [hinner, hacc]
    exact hsame.symm
  | @receive _ i _ _ hinner =>
    have hself : (fun j => p j || isTick j (.receive (tick i) (innerInReceiveHandler
        ⟨BitVec.ofNat 32 n⟩ (inner s) ⟨1#32 <<< i.val⟩).2)) = fun j => p j || decide (j = i) := by
      funext j
      simp [isTick, tick, eq_comm]
    rw [hinner, hself, union_or, ← hacc]
    rfl

end Stepped

structure Inv (es : List (GraphEvent app (Device n))) (s : GraphState app (Device n)) : Prop where
  fresh : Fresh s
  ticks : ∀ m ∈ s.pending, ∃ i, m = tick i
  sends : ∀ i, es.countP (isSend i) = if (outer s i).ready = 0#8 then 1 else 0
  law : ∀ i, outstanding s i + es.countP (isTick i) = es.countP (isSend i)
  acc : (inner s).acc = union (ticked es)

namespace Inv

theorem start {edges : Fin n → Option InnerInProps} (hinit : Initial σ) :
    Inv [] ((graph P n edges).start σ) where
  fresh := ⟨fun _ => rfl, rfl⟩
  ticks _ hm := absurd hm (Multiset.notMem_zero _)
  sends i := (if_neg (hinit.outer i)).symm
  law _ := rfl
  acc := by
    have hnone : union (ticked ([] : List (GraphEvent app (Device n)))) = 0#32 := by
      unfold union
      rw [List.filter_eq_nil_iff.2 fun i _ => by simp [ticked]]
      rfl
    rw [hnone]
    exact hinit.inner

theorem sends_le (h : Inv es s) (i : Fin n) : es.countP (isSend i) ≤ 1 := by
  rw [h.sends]
  split <;> omega

/-- A tick on its way has not been delivered before. -/
theorem not_ticked (h : Inv es s) {rest : Multiset (GraphMessage app (Device n))}
    (hpending : s.pending = tick i ::ₘ rest) : ticked es i = false := by
  have hone : outstanding s i = rest.countP (fun m => m.source = (.outer i, 0)) + 1 := by
    unfold outstanding
    rw [hpending, countP_tick, if_pos rfl]
  have hlaw := h.law i
  have hle := h.sends_le i
  have hzero : es.countP (isTick i) = 0 := by omega
  unfold ticked
  rw [List.any_eq_false]
  exact List.countP_eq_zero.1 hzero

theorem stepped (h : Inv es s) (hfresh : Fresh s') (hstep : Stepped s e s') :
    Inv (es ++ [e]) s' := by
  refine ⟨hfresh, hstep.ticks h.ticks, fun i => ?_, fun i => ?_, ?_⟩
  · rw [List.countP_append, h.sends, hstep.sends]
  · have hlaw := h.law i
    have hone := hstep.law i
    rw [List.countP_append, List.countP_append]
    omega
  · have hticked : ticked (es ++ [e]) = fun i => ticked es i || isTick i e := by
      funext i
      simp [ticked]
    rw [hticked]
    exact hstep.acc h.acc

theorem step (h : Inv es s) (hstep : (graph P n S.edges).Step s e s') : Inv (es ++ [e]) s' :=
  h.stepped (h.fresh.step hstep) (h.fresh.stepped h.ticks hstep)

/-- Where the graph is quiescent, all outer devices have sent. -/
theorem sent_of_quiescent (h : Inv es s) (hq : s.Quiescent) (i : Fin n) :
    es.countP (isSend i) = 1 := by
  have hready := hq.ready (.outer i)
  rw [h.fresh.outerFlags] at hready
  rw [h.sends]
  refine if_pos ?_
  by_contra hne
  rw [outerReadyToSendHandler_ne hne] at hready
  cases hready

/-- And their ticks have been delivered. -/
theorem ticked_of_quiescent (h : Inv es s) (hq : s.Quiescent) (i : Fin n) :
    ticked es i = true := by
  have hnone : outstanding s i = 0 := by
    unfold outstanding GraphState.pending
    rw [hq.owed, hq.flight, add_zero, Multiset.countP_zero]
  have hlaw := h.law i
  rw [hnone, h.sent_of_quiescent hq, Nat.zero_add] at hlaw
  obtain ⟨e, he, htick⟩ := List.countP_pos_iff.1 (hlaw ▸ Nat.one_pos)
  exact List.any_eq_true.2 ⟨e, he, htick⟩

/-- No assertion of the handlers fails. -/
theorem asserts (h : Inv es s) (hstep : Stepped s e s') : HandlerCall.assert false ∉ e.calls := by
  cases hstep with
  | send hready _ _ _ => simp [GraphEvent.calls, outerOutSendHandler, hready]
  | forward _ _ _ => simp [GraphEvent.calls]
  | @receive _ i hpending _ _ =>
    have hunset : (inner s).acc &&& 1#32 <<< i.val = 0#32 := by
      rw [h.acc]
      exact union_and (h.not_ticked hpending)
    simp only [GraphEvent.calls, innerInReceiveHandler, hunset, beq_self_eq_true]
    split <;> simp [exit]

/-- The program ends with the last tick. -/
theorem exits (hn : n ≤ 31) (h : Inv es s) (hfresh : Fresh s')
    {m : GraphMessage app (Device n)} {calls : List HandlerCall}
    (hstep : Stepped s (.receive m calls) s') :
    exit 0#32 ∈ calls ↔ ∀ i, ticked (es ++ [.receive m calls]) i = true := by
  have hacc := (h.stepped hfresh hstep).acc
  rw [← allReceived_union hn, ← hacc]
  cases hstep with
  | @receive _ i _ _ hinner =>
    rw [hinner]
    unfold innerInReceiveHandler
    dsimp only
    split <;> rename_i hall <;> simp [hall, exit]

end Inv

theorem run_inv (hinit : Initial σ) (hrun : (graph P n S.edges).HasRun σ es s) : Inv es s :=
  hrun.invariant (Inv.start hinit) fun _ _ _ _ => Inv.step

/-- In every run, each outer device sends at most once, and has sent once the graph is quiescent;
no assertion of the handlers fails; the inner device has the masks of those whose ticks have been
delivered; and it ends the program with the last of the ticks. -/
theorem gathers (hn : n ≤ 31) (hinit : Initial σ) (hrun : (graph P n S.edges).HasRun σ es s) :
    (∀ i, es.countP (isSend i) ≤ 1) ∧
    (s.Quiescent → ∀ i, es.countP (isSend i) = 1) ∧
    (∀ e s', (graph P n S.edges).Step s e s' → HandlerCall.assert false ∉ e.calls) ∧
    (inner s).acc = union (ticked es) ∧
    (∀ m calls s', (graph P n S.edges).Step s (.receive m calls) s' →
      (exit 0#32 ∈ calls ↔ ∀ i, ticked (es ++ [.receive m calls]) i = true)) := by
  have h := run_inv hinit hrun
  refine ⟨h.sends_le, h.sent_of_quiescent, fun e s' hstep => ?_, h.acc, fun m calls s' hstep => ?_⟩
  · exact h.asserts (h.fresh.stepped h.ticks hstep)
  · exact h.exits hn (h.fresh.step hstep) (h.fresh.stepped h.ticks hstep)

/-- The bindings of `edge_props_dev4_threads1`. -/
def dev3Sources : Sources 3 where
  address i := ⟨0#32, BitVec.ofNat 16 i, 0#8, 0#8⟩
  bindings := dev3InBindings
  sorted := by
    unfold StrictlySorted
    decide
  bound i := by
    refine ⟨dev3InBinding i, ?_, by simp [dev3InBinding, sameAddress], rfl⟩
    revert i
    rw [Fin.forall_fin_succ, Fin.forall_fin_two]
    exact ⟨.head _, .tail _ (.head _), .tail _ (.tail _ (.head _))⟩

/-- The outer devices are ready. -/
def readyState : Device n → State
  | .outer _ => ⟨⟨1#8⟩, ⟨0#32⟩⟩
  | .inner => ⟨⟨0#8⟩, ⟨0#32⟩⟩

theorem readyState_initial : Initial (@readyState n) where
  outer _ := show 1#8 ≠ 0#8 by decide
  inner := rfl

/-- The tick of outer device 1 is sent and delivered. -/
theorem gathers_tick : ∃ es s, (graph bare 3 dev3Sources.edges).HasRun readyState es s ∧
    (inner s).acc = 2#32 ∧ ∀ i, es.countP (isSend i) ≤ 1 := by
  have h₀ : (graph bare 3 dev3Sources.edges).HasRun readyState [] _ := .nil
  have h₁ := h₀.snoc (@Graph.Step.send _ _ _ _ _ (.outer 1) 0 _ () _ rfl rfl rfl rfl)
  have h₂ := h₁.snoc (@Graph.Step.forward _ _ _ _ _ (tick 1) 0 rfl)
  have h₃ := h₂.snoc (@Graph.Step.receive _ _ _ _ _ (tick 1) _ none 0 _ rfl rfl rfl)
  obtain ⟨hsends, -, -, hacc, -⟩ := gathers (by decide) readyState_initial h₃
  exact ⟨_, _, h₃, hacc.trans (by decide), hsends⟩

end Softswitch.EdgeProps
