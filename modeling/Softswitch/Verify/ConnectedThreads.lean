import Mathlib.Algebra.Order.BigOperators.Group.Finset
import Softswitch.Verify.InterconnectRefinement
import Softswitch.Verify.RingThreads

/-!
# Threads of a graph, connected by their mailboxes

What was shown of a network holds of the threads with their mailboxes.  A message is in one of the
slots until it is received (`messages_conserved`), something happens as long as something is left to
do, and what happens is a run of the graph, which is over when nothing is left to do (`runs_graph`).
-/

namespace Softswitch

open Outcome Function

variable {A : AppTypes} {n : Nat} {ι D : Type} {size : ι → Nat} {ths : Threads A size}
  {slots : ι → Nat} {cs : (i : ι) → PThreadContext A (size i)} {buf : ι → Message A}
  {N N' : Network A size} {g : Interconnect A size} {place : (Σ i, Fin (size i)) ≃ D}
  {G : Graph A D}

/-- The threads of a well-placed graph, with complete tables, before they are started. -/
structure Installed (ths : Threads A size) (cs : (i : ι) → PThreadContext A (size i)) :
    Prop where
  placed : Placed ths
  complete : ∀ i, Complete (ths i)
  trace : ∀ i, (cs i).trace = []
  rtcChecked : ∀ i, (cs i).rtcChecked = 0
  rtcOffset : ∀ i, (cs i).rtcOffset = 0

theorem Deployed.installed (h : Deployed ths place cs G) (hth : ∀ i, Complete (ths i)) :
    Installed ths cs :=
  ⟨h.realises.placed, hth, h.trace, h.rtcChecked, h.rtcOffset⟩

namespace Installed

theorem start (h : Installed ths cs) (i : ι) : (cs i).rtcChecked = 0 ∧ (cs i).rtcOffset = 0 :=
  ⟨h.rtcChecked i, h.rtcOffset i⟩

theorem tables (h : Installed ths cs) (i : ι) : Tables (ths i) := (h.complete i).toTables

end Installed

variable [DecidableEq ι]

namespace Interconnect

theorem Reachable.not_sendsApp (h : Installed ths cs) (hreach : Reachable ths slots cs buf g)
    (i : ι) (hreads : (ths i).readsForApp = true) : ¬(g.main i).SendsApp (ths i) :=
  (h.complete i).not_sendsApp (h.placed.build i) ((hreach.inv h.start).main i).address hreads

section Fintype

variable [Fintype ι]

/-! ## Delivery -/

omit [DecidableEq ι] in
/-- The host gets nothing that is for a thread. -/
theorem Shows.countP_flight [DecidableEq A.Payload] (hplaced : Placed ths)
    (hshows : Shows ths g N) {j : ι} {source dest : Address} (payload : A.Payload)
    (hdest : dest.thread = (ths j).myId) :
    N.flight.countP (Packet.Carries · source dest payload) =
      (g.inSlots ths).countP (Packet.Carries · source dest payload) := by
  obtain ⟨-, toHost, hhost, hflight⟩ := hshows
  have hnone : toHost.countP (Packet.Carries · source dest payload) = 0 := by
    rw [Multiset.countP_eq_zero]
    intro x hx hcarries
    obtain ⟨i, hi⟩ := hhost x hx
    exact hplaced.host i j (hi.symm.trans (hcarries.1.trans hdest))
  rw [hflight, Multiset.countP_add, hnone, add_zero]

omit [DecidableEq ι] in
theorem inSlots_of_not_active (hactive : ¬g.Active) : g.inSlots ths = 0 := by
  have hrest := not_active_iff.1 hactive
  unfold inSlots
  rw [Finset.sum_eq_zero fun i _ => by rw [(hrest i).1]; rfl,
    Finset.sum_eq_zero fun i _ => by rw [(hrest i).2.1]; rfl, add_zero]

section Delivery

variable [DecidableEq A.Payload] {i j : ι} {d : Fin (size i)} {pinIndex : Nat}
  {pin : OutputPinVTable A} {targets : OutputPinTargets} {dest : Address}

theorem Reachable.conserved (hplaced : Placed ths) (htrace : ∀ i, (cs i).trace = [])
    (hreach : Reachable ths slots cs buf g) (payload : A.Payload)
    (hpin : ((ths i).device d).vtable.outputPins[pinIndex]? = some pin)
    (happ : pin.isApp = false) (htargets : ((ths i).device d).targets[pinIndex]? = some targets)
    (hdest : dest.thread = (ths j).myId) :
    let source := sendSource (ths i) d pinIndex pin
    (g.main j).ctxt.trace.countP (Event.IsCall (n := size j) source dest payload) +
        (g.inSlots ths).countP (Packet.Carries · source dest payload) +
        (sentPackets ((g.main i).owed (ths i))).countP (Packet.Carries · source dest payload) =
      (g.main i).ctxt.trace.countP (Event.IsReturn (n := size i) d pinIndex payload) *
        targets.targets.countP (sameAddress · dest) := by
  obtain ⟨N, hN, hshows⟩ := hreach.shown
  have hinv := hN.networkInv hplaced htrace
  have hhost : dest.thread ≠ (ths i).hostId :=
    fun hd => hplaced.host i j (hd.symm.trans hdest)
  have hledger := hinv.ledger i j (sendSource (ths i) d pinIndex pin) dest payload rfl hdest
  have hfan := (hinv.fanOut i).law.count (hplaced.fits i) hpin happ htargets hhost payload
  rw [countP_sig fun _ h => h.not_output] at hledger hfan
  rw [hshows.countP_flight hplaced payload hdest, hshows.main] at hledger
  rw [hshows.main] at hfan
  exact (congrArg (· + _) hledger).trans hfan

/-- When nothing is left to do, everything has been delivered. -/
theorem Reachable.delivered (hplaced : Placed ths) (htrace : ∀ i, (cs i).trace = [])
    (hreach : Reachable ths slots cs buf g) (hactive : ¬g.Active) (payload : A.Payload)
    (hpin : ((ths i).device d).vtable.outputPins[pinIndex]? = some pin)
    (happ : pin.isApp = false) (htargets : ((ths i).device d).targets[pinIndex]? = some targets)
    (hdest : dest.thread = (ths j).myId) :
    (g.main j).ctxt.trace.countP
        (Event.IsCall (n := size j) (sendSource (ths i) d pinIndex pin) dest payload) =
      (g.main i).ctxt.trace.countP (Event.IsReturn (n := size i) d pinIndex payload) *
        targets.targets.countP (sameAddress · dest) := by
  have hall := hreach.conserved hplaced htrace payload hpin happ htargets hdest
  obtain ⟨N, hN, hshows⟩ := hreach.shown
  have howed : (g.main i).owed (ths i) = [] := by
    rw [← hshows.main]
    refine ((hN.networkInv hplaced htrace).fanOut i).nothing_owed ?_
    rw [hshows.main]
    exact (not_active_iff.1 hactive i).2.2.1
  rw [howed, inSlots_of_not_active hactive] at hall
  exact hall

end Delivery

/-- Between a pin and an address, what the receive handler was called with, what is in the slots
of the mailboxes and what the sender still owes are what the send handler wrote.  When nothing is
left to do, everything has been delivered once. -/
theorem messages_conserved [DecidableEq A.Payload] (hplaced : Placed ths)
    (htrace : ∀ i, (cs i).trace = []) (hreach : Reachable ths slots cs buf g) {i j : ι}
    {d : Fin (size i)} {pinIndex : Nat}
    {pin : OutputPinVTable A} {targets : OutputPinTargets} {dest : Address} (payload : A.Payload)
    (hpin : ((ths i).device d).vtable.outputPins[pinIndex]? = some pin) (happ : pin.isApp = false)
    (htargets : ((ths i).device d).targets[pinIndex]? = some targets)
    (hdest : dest.thread = (ths j).myId) :
    let source := sendSource (ths i) d pinIndex pin
    let calls := (g.main j).ctxt.trace.countP (Event.IsCall (n := size j) source dest payload)
    let asked := (g.main i).ctxt.trace.countP (Event.IsReturn (n := size i) d pinIndex payload) *
      targets.targets.countP (sameAddress · dest)
    calls + (g.inSlots ths).countP (Packet.Carries · source dest payload) +
        (sentPackets ((g.main i).owed (ths i))).countP (Packet.Carries · source dest payload) =
      asked ∧
    (¬g.Active → calls = asked) :=
  ⟨hreach.conserved hplaced htrace payload hpin happ htargets hdest,
    fun hactive => hreach.delivered hplaced htrace hactive payload hpin happ htargets hdest⟩

/-! ## The graph -/

section Graph

variable [DecidableEq D]

/-- The threads and their mailboxes as a state of the graph. -/
noncomputable def view (ths : Threads A size) (place : (Σ i, Fin (size i)) ≃ D)
    (g : Interconnect A size) : GraphState A D :=
  Network.view ths place ⟨g.main, g.inSlots ths⟩

omit [DecidableEq ι] [DecidableEq D] in
/-- What the host was handed is no message of the graph. -/
theorem Shows.view_eq (hplaced : Placed ths) (hshows : Shows ths g N) :
    N.view ths place = g.view ths place := by
  obtain ⟨main, flight⟩ := N
  obtain ⟨rfl, toHost, hhost, rfl⟩ := hshows
  have hnone : toHost.filterMap (graphMessage ths place) = 0 := by
    refine Multiset.eq_zero_of_forall_notMem fun gm hgm => ?_
    obtain ⟨x, hx, hmessage⟩ := (Multiset.mem_filterMap _ _).1 hgm
    obtain ⟨i, hi⟩ := hhost x hx
    rw [graphMessage_host hplaced hi] at hmessage
    cases hmessage
  refine GraphState.ext rfl rfl rfl ?_
  show (g.inSlots ths + toHost).filterMap (graphMessage ths place) = _
  rw [Multiset.filterMap_add, hnone, add_zero]
  rfl

theorem Reachable.hasRun (h : Deployed ths place cs G) (hreach : Reachable ths slots cs buf g) :
    ∃ es, G.HasRun (gather place fun i => (cs i).states) es (g.view ths place) ∧
      SameCalls ths place g.main es := by
  obtain ⟨N, hN, hshows⟩ := hreach.shown
  rw [← hshows.view_eq h.realises.placed, ← hshows.main]
  exact h.hasRun_calls hN

omit [DecidableEq D] in
theorem Reachable.quiescent (hplaced : Placed ths) (htrace : ∀ i, (cs i).trace = [])
    (hreach : Reachable ths slots cs buf g) (hactive : ¬g.Active) :
    (g.view ths place).Quiescent := by
  classical
  obtain ⟨N, hN, hshows⟩ := hreach.shown
  have hinv := hN.networkInv hplaced htrace
  refine ⟨Finset.sum_eq_zero fun i _ => ?_, ?_, fun x => ?_⟩
  · have howed : (g.main i).owed (ths i) = [] := by
      rw [← hshows.main]
      refine (hinv.fanOut i).nothing_owed ?_
      rw [hshows.main]
      exact (not_active_iff.1 hactive i).2.2.1
    show (sentPackets ((g.main i).owed (ths i))).filterMap _ = 0
    rw [howed]
    rfl
  · show (g.inSlots ths).filterMap _ = 0
    rw [inSlots_of_not_active hactive]
    rfl
  · obtain ⟨⟨i, d⟩, rfl⟩ := place.surjective x
    show wantsSend (gather place (fun i => (g.main i).ctxt.flags) _) = false
    rw [gather_place, (not_active_iff.1 hactive i).2.2.2 d]
    exact wantsSend_zero

/-- The threads of a graph and their mailboxes run the graph, with the same calls of handlers.  As
long as something is left to do, the network hands a message over or a thread goes on; when nothing
is left to do, the graph has no message left, and no device wants to send or to compute. -/
theorem runs_graph (hw : Wired ths slots) (hth : ∀ i, Complete (ths i))
    (h : Deployed ths place cs G) (hreach : Reachable ths slots cs buf g) :
    (∃ es, G.HasRun (gather place fun i => (cs i).states) es (g.view ths place) ∧
      SameCalls ths place g.main es) ∧
    (g.Active → (∃ g', g.NetworkStep ths slots g') ∨ ∃ i, g.GoesOn ths i) ∧
    (¬g.Active → (g.view ths place).Quiescent ∧ ∀ x, (g.view ths place).flags x = 0) := by
  have hinst := h.installed hth
  refine ⟨hreach.hasRun h, hreach.exists_goesOn hw hinst.placed.toLinked hinst.tables hinst.start
    (hreach.not_sendsApp hinst), fun hactive => ?_⟩
  refine ⟨hreach.quiescent h.realises.placed h.trace hactive, fun x => ?_⟩
  exact (not_active_iff.1 hactive (place.symm x).1).2.2.2 (place.symm x).2

end Graph

end Fintype

end Interconnect

/-! ## The shipped ring -/

/-- The shipped ring without assertions. -/
def ringThreads : Threads Ring.app fun _ : Fin 2 => 1 :=
  Ring.dev2Threads2 Barrier.quiet (defaultBuild false)

theorem ringThreads_installed : Installed ringThreads Ring.dev2Threads2Context :=
  (Ring.dev2Deployed rfl).installed Ring.dev2Complete

theorem ringThreads_wired : Wired ringThreads fun _ => 1 := Ring.dev2Wired rfl fun _ => Nat.one_pos

/-- Nothing has arrived, and the send slot is free. -/
def ringInput : LoopInput Ring.app := ⟨false, true, false, Ring.dev2Buffer ⟨0, Nat.two_pos⟩⟩

theorem ringThreads_start : ∃ main : (i : Fin 2) → Main Ring.app 1,
    (∀ i, softswitchMain (ringThreads i) (Ring.dev2Threads2Context i) (Ring.dev2Buffer i) =
      .ok (main i)) ∧ (∀ i, (main i).pc = .top) ∧ (main 0).ctxt.flags 0 ≠ 0 := by
  have hmain : ∀ i, ∃ s, softswitchMain (ringThreads i) (Ring.dev2Threads2Context i)
      (Ring.dev2Buffer i) = .ok s ∧ s.pc = .top ∧ (i = 0 → s.ctxt.flags 0 ≠ 0) :=
    Fin.forall_fin_two.2 ⟨⟨_, rfl, rfl, by decide⟩, ⟨_, rfl, rfl, by decide⟩⟩
  choose main hmain using hmain
  exact ⟨main, fun i => (hmain i).1, fun i => (hmain i).2.1, (hmain 0).2.2 rfl⟩

/-- The output pin of device 0. -/
def ringSource : Address := ⟨0#32, 0#16, 0#8, 20#8⟩

/-- The count that device 0 sends. -/
def ringPayload : Ring.app.Payload := 3#32

def ringToken : Message Ring.app :=
  ⟨Ring.inputAddress ⟨1, Nat.one_lt_two⟩, ringSource, 0#16, ringPayload⟩

/-- The thread of device 0 sends the token in its second step. -/
theorem ringThreads_sends : ∃ s₀ s₁ s₂,
    softswitchMain (ringThreads 0) (Ring.dev2Threads2Context 0) (Ring.dev2Buffer 0) = .ok s₀ ∧
    mainStep (ringThreads 0) s₀ ringInput = .ok s₁ ∧
    mainStep (ringThreads 0) s₁ ringInput = .ok s₂ ∧
    s₀.Wakes (ringThreads 0) True ringInput ∧ s₁.Wakes (ringThreads 0) True ringInput ∧
    s₁.ctxt.trace = s₀.ctxt.trace ∧
    s₂.ctxt.trace = s₁.ctxt.trace ++ [.onSend, .enter .send 0 ⟨0, 2, 0⟩,
      .sendReturn 0 0 true ringPayload, .mboxSend 1#32 20 ringToken] ∧
    s₂.ctxt.trace.countP (Event.IsReturn (n := 1) 0 0 ringPayload) = 1 :=
  ⟨_, _, _, rfl, rfl, rfl, trivial, .inr rfl, rfl, rfl, rfl⟩

theorem ringInput_answers {main : (i : Fin 2) → Main Ring.app 1} {i : Fin 2} :
    Interconnect.Answers ⟨main, fun _ => 0, fun _ => none⟩ i ringInput := by
  constructor <;> simp [ringInput]

namespace Interconnect

/-- The first steps of the ring. -/
theorem memory_safe_ring : ∃ main,
    Reachable ringThreads (fun _ => 1) Ring.dev2Threads2Context Ring.dev2Buffer
      ⟨main, fun _ => 0, fun _ => none⟩ ∧
    ∀ i, Safe (mainStep (ringThreads i) (main i) ringInput) := by
  obtain ⟨main, hmain, htop, -⟩ := ringThreads_start
  have hstart : Reachable ringThreads (fun _ => 1) Ring.dev2Threads2Context Ring.dev2Buffer
      ⟨main, fun _ => 0, fun _ => none⟩ := .start hmain
  refine ⟨main, hstart, fun i => ?_⟩
  have hwakes : (main i).Wakes (ringThreads i) True ringInput := by
    unfold Main.Wakes
    rw [htop i]
    trivial
  refine (memory_safe ringThreads_installed.placed.toLinked ringThreads_installed.tables
    ringThreads_installed.start).2 _ hstart i ringInput ringInput_answers hwakes fun _ hdue => ?_
  obtain ⟨w, hpc, -⟩ := hdue
  cases (htop i).symm.trans hpc

/-- The thread of device 0 makes a step in which it receives nothing. -/
theorem Reachable.ring_step {main : (i : Fin 2) → Main Ring.app 1} {s : Main Ring.app 1}
    {es : List (Event Ring.app 1)} {slot : Option (Parcel Ring.app)}
    (h : Reachable ringThreads (fun _ => 1) Ring.dev2Threads2Context Ring.dev2Buffer
      ⟨main, fun _ => 0, fun _ => none⟩)
    (hstep : mainStep (ringThreads 0) (main 0) ringInput = .ok s)
    (hwakes : (main 0).Wakes (ringThreads 0) True ringInput)
    (htrace : s.ctxt.trace = (main 0).ctxt.trace ++ es) (htaken : taken es = [])
    (hgiven : Fills none (given es) slot) :
    Reachable ringThreads (fun _ => 1) Ring.dev2Threads2Context Ring.dev2Buffer
      ⟨update main 0 s, fun _ => 0, update (fun _ => none) 0 slot⟩ := by
  have htakes : taken s.ctxt.trace = taken (main 0).ctxt.trace ++ taken es := by
    rw [htrace]
    exact List.filterMap_append
  have hgives : given s.ctxt.trace = given (main 0).ctxt.trace ++ given es := by
    rw [htrace]
    exact List.filterMap_append
  rw [htaken] at htakes
  have hnext := h.thread (.step ringInput_answers hwakes hstep htakes hgives
    (zero_add 0).symm hgiven)
  rwa [update_eq_self] at hnext

/-- The token is on its way from device 0 to device 1. -/
theorem messages_conserved_ring : ∃ g : Interconnect Ring.app fun _ : Fin 2 => 1,
    Reachable ringThreads (fun _ => 1) Ring.dev2Threads2Context Ring.dev2Buffer g ∧
    (g.main 1).ctxt.trace.countP
        (Event.IsCall (n := 1) ringSource (Ring.inputAddress 1) ringPayload) +
      (g.inSlots ringThreads).countP
        (Packet.Carries · ringSource (Ring.inputAddress 1) ringPayload) +
      (sentPackets ((g.main 0).owed (ringThreads 0))).countP
        (Packet.Carries · ringSource (Ring.inputAddress 1) ringPayload) = 1 := by
  obtain ⟨main, hmain, -, -⟩ := ringThreads_start
  obtain ⟨s₀, s₁, s₂, hmain₀, hstep₁, hstep₂, hwakes₁, hwakes₂, htrace₁, htrace₂, hreturn⟩ :=
    ringThreads_sends
  obtain rfl : main 0 = s₀ := Except.ok.inj ((hmain 0).symm.trans hmain₀)
  have hstart : Reachable ringThreads (fun _ => 1) Ring.dev2Threads2Context Ring.dev2Buffer
      ⟨main, fun _ => 0, fun _ => none⟩ := .start hmain
  have hidle := hstart.ring_step hstep₁ hwakes₁ (htrace₁.trans (List.append_nil _).symm) rfl
    .nothing
  rw [update_eq_self] at hidle
  have hself : update main 0 s₁ 0 = s₁ := update_self 0 s₁ main
  have hsent := hidle.ring_step (hself ▸ hstep₂) (hself ▸ hwakes₂)
    (htrace₂.trans (by rw [← hself]; rfl)) rfl .one
  have hcount := (@messages_conserved _ _ _ _ _ _ _ _ _ _ _ ringThreads_installed.placed
    ringThreads_installed.trace hsent 0 1 0 0
    _ _ (Ring.inputAddress 1) ringPayload rfl rfl rfl rfl).1
  refine ⟨_, hsent, hcount.trans ?_⟩
  dsimp only
  rw [update_self, hreturn]
  rfl

/-- The ring can be started. -/
theorem runs_graph_ring : ∃ g : Interconnect Ring.app fun _ : Fin 2 => 1,
    Reachable ringThreads (fun _ => 1) Ring.dev2Threads2Context Ring.dev2Buffer g ∧
    (∃ es, (Ring.graph Barrier.quiet 2 2#32).HasRun
      (gather Ring.dev2Place fun i => (Ring.dev2Threads2Context i).states) es
      (g.view ringThreads Ring.dev2Place) ∧ SameCalls ringThreads Ring.dev2Place g.main es) ∧
    ((∃ g', g.NetworkStep ringThreads (fun _ => 1) g') ∨ ∃ i, g.GoesOn ringThreads i) := by
  obtain ⟨main, hmain, -, hflags⟩ := ringThreads_start
  have hstart : Reachable ringThreads (fun _ => 1) Ring.dev2Threads2Context Ring.dev2Buffer
      ⟨main, fun _ => 0, fun _ => none⟩ := .start hmain
  obtain ⟨hrun, hactive, -⟩ :=
    runs_graph ringThreads_wired Ring.dev2Complete (Ring.dev2Deployed rfl) hstart
  exact ⟨_, hstart, hrun, hactive ⟨0, .inr (.inr (.inr ⟨0, hflags⟩))⟩⟩

end Interconnect

end Softswitch
