import Softswitch.Verify.Delivery

/-!
# Exactly-once delivery in a network

The threads of a well-placed graph address each other (`Placed`).  In every state they reach
together, what the receive handler at a target was called with, what is in flight to it and
what the sender still owes it are what the send handler wrote for it (`delivery_exactlyOnce`).
-/

namespace Softswitch

open Outcome Transport Function

variable {A : AppTypes} {n : Nat} {ι : Type} {size : ι → Nat} {ths : Threads A size}
  {cs : (i : ι) → PThreadContext A (size i)} {buf : ι → Message A} {g g' : Network A size}
  {th : PThread A n} {c : PThreadContext A n} {l es : List (Event A n)} {e : Event A n}
  {source dest : Address} {payload : A.Payload} {x : Packet A} {m : Message A}

/-! ## Placement -/

/-- The input pin has no edge data. -/
def InputPinVTable.NoData (pin : InputPinVTable A) : Prop :=
  pin.propertiesSize.setWidth 32 ||| pin.stateSize.setWidth 32 = 0#32

/-- The address is that of an input pin of a device of the thread; if the pin has edge data,
its sources are strictly sorted and `source` is one of them. -/
def Admits (th : PThread A n) (source addr : Address) : Prop :=
  addr.thread = th.myId ∧ ∃ (d : Fin n) (pin : InputPinVTable A),
    d.val = addr.device.toNat ∧ (th.device d).isExternal = 0#32 ∧
    (th.device d).vtable.inputPins[addr.pin.toNat]? = some pin ∧
    (¬pin.NoData →
      ∃ sources, (th.device d).sources[addr.pin.toNat]? = some sources ∧
        StrictlySorted sources.sourceBindings ∧
        ∃ edge ∈ sources.sourceBindings, sameAddress edge.source source = true)

/-- The threads know their own identifiers, and every target of an output pin is an input pin of
one of them. -/
structure Linked (ths : Threads A size) : Prop where
  fits : ∀ i, Fits (ths i)
  threadId : ∀ i, (ths i).threadId = (ths i).myId
  myId_inj : ∀ i j, (ths i).myId = (ths j).myId → i = j
  /-- The host is not one of the threads. -/
  host : ∀ i j, (ths i).hostId ≠ (ths j).myId
  target : ∀ i d pinIndex pin targets,
    ((ths i).device d).vtable.outputPins[pinIndex]? = some pin → pin.isApp = false →
    ((ths i).device d).targets[pinIndex]? = some targets → ∀ addr ∈ targets.targets,
      ∃ j, Admits (ths j) (sendSource (ths i) d pinIndex pin) addr

/-- Linked threads that are built without intra-thread sends. -/
structure Placed (ths : Threads A size) : Prop extends Linked ths where
  build : ∀ i, (ths i).build.enableIntraThreadSend = false

/-- The device a message is for takes it, and finds its edge if the pin has edge data. -/
def Deliverable (th : PThread A n) (m : Message A) : Prop :=
  ∃ (d : Fin n) (pin : InputPinVTable A), Accepts th d m ∧
    (th.device d).vtable.inputPins[m.dest.pin.toNat]? = some pin ∧
    (¬pin.NoData →
      ∃ sources, (th.device d).sources[m.dest.pin.toNat]? = some sources ∧
        ∃ edge ∈ sources.sourceBindings, sameAddress edge.source m.source = true ∧
          ∀ c, findEdge th c m sources.sourceBindings = .ok edge)

theorem Admits.deliverable (h : Admits th m.source m.dest) : Deliverable th m := by
  obtain ⟨-, d, pin, hd, hext, hpin, hedge⟩ := h
  refine ⟨d, pin, ⟨hd, by simp [hext]⟩, hpin, ?_⟩
  intro hdata
  obtain ⟨sources, hsources, hsorted, edge, hmem, hsame⟩ := hedge hdata
  exact ⟨sources, hsources, edge, hmem, hsame, fun _ => findEdge_ok hsorted hmem hsame⟩

namespace Linked

/-- A packet from an output pin that is for a thread reaches a device of that thread. -/
theorem admits (h : Linked ths) {i j : ι} (hfrom : FromPin (ths i) x)
    (hx : x.thread = (ths j).myId) :
    x.message.source.thread = (ths i).threadId ∧
      Admits (ths j) x.message.source x.message.dest := by
  rcases hfrom with hhost |
    ⟨d, pinIndex, pin, targets, hpin, happ, htargets, hsource, hdest, hthread⟩
  · exact absurd (hhost.symm.trans hx) (h.host i j)
  · obtain ⟨k, hadmits⟩ := h.target i d pinIndex pin targets hpin happ htargets _ hdest
    obtain rfl : k = j := h.myId_inj k j (hadmits.1.symm.trans (hthread.symm.trans hx))
    rw [hsource]
    exact ⟨rfl, hadmits⟩

end Linked

/-! ## Output in the trace -/

theorem sentPackets_filter :
    sentPackets (l.filter fun e => !e.isOutput) = sentPackets l := by
  unfold sentPackets
  rw [List.filterMap_filter]
  refine congrArg _ (congrFun (congrArg _ (funext fun e => ?_)) l)
  cases e <;> rfl

theorem receivedPackets_filter :
    receivedPackets th (l.filter fun e => !e.isOutput) = receivedPackets th l := by
  unfold receivedPackets
  rw [List.filterMap_filter]
  refine congrArg _ (congrFun (congrArg _ (funext fun e => ?_)) l)
  cases e <;> rfl

/-- Output is not counted. -/
theorem countP_sig {P : Event A n → Prop} [DecidablePred P]
    (hP : ∀ e, P e → e.isOutput = false) :
    c.sig.countP (fun e => P e) = c.trace.countP (fun e => P e) := by
  unfold PThreadContext.sig
  rw [List.countP_filter]
  apply List.countP_congr
  intro e _
  simp only [Bool.and_eq_true, decide_eq_true_eq, Bool.not_eq_true']
  exact ⟨fun h => h.1, fun h => ⟨h, hP e h⟩⟩

theorem Event.IsCall.not_output (h : Event.IsCall source dest payload e) : e.isOutput = false := by
  cases e with
  | receiveCall _ _ _ _ _ _ => rfl
  | _ => exact h.elim

theorem Event.IsReturn.not_output {d : Fin n} {pinIndex : Nat}
    (h : Event.IsReturn d pinIndex payload e) : e.isOutput = false := by
  cases e with
  | sendReturn _ _ _ _ => rfl
  | _ => exact h.elim

/-! ## One step -/

/-- What a step of thread `k` is, with the output left out. -/
structure Advances (ths : Threads A size) (g : Network A size) (k : ι) (s : Main A (size k))
    (es : List (Event A (size k))) (flight : Multiset (Packet A)) : Prop where
  host : HostInv s
  fanOut : FanOutInv (ths k) s
  sig : s.ctxt.sig = (g.main k).ctxt.sig ++ es
  dispatches : Dispatches (ths k) es
  exchange : Exchange g.flight (receivedPackets (ths k) es) (sentPackets es) flight

namespace Advances

variable {k : ι} {s : Main A (size k)} {es : List (Event A (size k))}
  {flight : Multiset (Packet A)}

/-- What is sent comes from an output pin of the thread. -/
theorem fromPin (h : Advances ths g k s es flight) : ∀ x ∈ sentPackets es, FromPin (ths k) x := by
  intro x hx
  apply h.fanOut.law.fromPin
  rw [h.sig, sentPackets_append]
  exact Multiset.mem_add.2 (.inl (Multiset.mem_add.2 (.inr hx)))

/-- What is received is for a device of the thread that takes it. -/
theorem received (h : Advances ths g k s es flight) (hplaced : Placed ths)
    (hfrom : ∀ x ∈ g.flight, ∃ i, FromPin (ths i) x) (hm : .mboxRecv m ∈ es) :
    m.dest.thread = (ths k).myId ∧ ∀ d : Fin (size k), d.val = m.dest.device.toNat →
        ((ths k).device d).isExternal.setWidth 8 = 0#8 := by
  have hflight : (⟨(ths k).myId, m⟩ : Packet A) ∈ g.flight :=
    h.exchange.mem_of_mem_received (mem_receivedPackets.2 ⟨m, hm, rfl⟩)
  obtain ⟨i, hpin⟩ := hfrom _ hflight
  obtain ⟨-, hthread, d, pin, hd, hext, -⟩ := hplaced.admits hpin rfl
  refine ⟨hthread, fun d' hd' => ?_⟩
  obtain rfl : d' = d := Fin.ext (hd'.trans hd.symm)
  simp [hext]

end Advances

/-- Before its first step a thread has only entered init handlers. -/
theorem Started.enters {buf : Message A} {s : Main A n} (hstart : c.trace = [])
    (h : Started th c buf s) : ∀ e ∈ s.ctxt.sig, e.isEnter = true := by
  have hsig : c.sig = [] := by simp [PThreadContext.sig, hstart]
  cases h with
  | parked _ => simp [hsig]
  | running _ hinit hmain =>
    obtain ⟨es, hsig', hes⟩ := softswitchInit_enters hinit
    have hall : _ = c.sig ++ es := hmain.sig.trans hsig'
    rw [hsig, List.nil_append] at hall
    rw [hall]
    exact hes

/-! ## The invariant -/

section Ledger

variable [DecidableEq A.Payload]

/-- Between thread `i` and thread `j`, what was delivered and what is in flight is what was
sent. -/
def Ledger (ths : Threads A size) (g : Network A size) (i j : ι) : Prop :=
  ∀ source dest payload, source.thread = (ths i).threadId → dest.thread = (ths j).myId →
    (g.main j).ctxt.sig.countP (Event.IsCall (n := size j) source dest payload) +
      g.flight.countP (Packet.Carries · source dest payload) =
    (sentPackets (g.main i).ctxt.sig).countP (Packet.Carries · source dest payload)

structure NetworkInv (ths : Threads A size) (g : Network A size) : Prop where
  host : ∀ i, HostInv (g.main i)
  fanOut : ∀ i, FanOutInv (ths i) (g.main i)
  fromPin : ∀ x ∈ g.flight, ∃ i, FromPin (ths i) x
  ledger : ∀ i j, Ledger ths g i j

theorem networkInv_start (hstart : ∀ i, (cs i).trace = []) {main : (i : ι) → Main A (size i)}
    (h : ∀ i, softswitchMain (ths i) (cs i) (buf i) = .ok (main i)) :
    NetworkInv ths ⟨main, 0⟩ := by
  have hstarted : ∀ i, Started (ths i) (cs i) (buf i) (main i) :=
    fun i => softswitchMain_sat.of_ok (h i)
  refine ⟨fun i => (hstarted i).hostInv, fun i => (hstarted i).fanOutInv (hstart i), by simp, ?_⟩
  intro i j source dest payload _ _
  have hsent : sentPackets (main i).ctxt.sig = 0 := by
    apply sentPackets_eq_zero
    intro e he
    exact isMboxSend_of_isSending
      (Event.isSending_of_isEnter ((hstarted i).enters (hstart i) e he))
  have hcalls : (main j).ctxt.sig.countP (Event.IsCall (n := size j) source dest payload) = 0 := by
    rw [List.countP_eq_zero]
    intro e he hcall
    have henter := (hstarted j).enters (hstart j) e he
    cases e with
    | enter _ _ _ => exact of_decide_eq_true hcall
    | _ => cases henter
  rw [hsent, hcalls, Multiset.countP_zero]

variable [DecidableEq ι]

omit [DecidableEq A.Payload] in
/-- A step of the network is a step of one thread. -/
theorem Network.Step.stepped (hinv : ∀ i, HostInv (g.main i)) (h : Network.Step ths g g') :
    ∃ k input s es flight, Stepped (ths k) (g.main k) input s ∧
      s.ctxt.sig = (g.main k).ctxt.sig ++ es ∧
      Exchange g.flight (receivedPackets (ths k) es) (sentPackets es) flight ∧
      g' = ⟨update g.main k s, flight⟩ := by
  cases h with
  | @thread k input s es flight hstep htrace hflight =>
    refine ⟨k, input, s, es.filter fun e => !e.isOutput, flight,
      (mainStep_sat (hinv k)).of_ok hstep, ?_, ?_, rfl⟩
    · unfold PThreadContext.sig
      rw [htrace, Network.trace, List.filter_append]
    · rwa [receivedPackets_filter, sentPackets_filter]

theorem Network.Step.advances (hplaced : Placed ths) (hinv : NetworkInv ths g)
    (h : Network.Step ths g g') : ∃ k s es flight,
      Advances ths g k s es flight ∧ g' = ⟨update g.main k s, flight⟩ := by
  obtain ⟨k, input, s, es, flight, hstepped, hsig, hexchange, rfl⟩ := h.stepped hinv.host
  have hbuild := hplaced.build k
  obtain ⟨es', hsig', hdispatches⟩ := hstepped.dispatches hbuild
  obtain rfl : es' = es := List.append_cancel_left (hsig'.symm.trans hsig)
  exact ⟨k, s, es', flight, ⟨hstepped.hostInv (hinv.host k),
    hstepped.fanOutInv hbuild (hinv.fanOut k), hsig, hdispatches, hexchange⟩, rfl⟩

namespace Advances

variable {k i j : ι} {s : Main A (size k)} {es : List (Event A (size k))}
  {flight : Multiset (Packet A)}

/-- The receive handlers are called with what is received. -/
theorem calls (h : Advances ths g k s es flight) (hplaced : Placed ths)
    (hinv : NetworkInv ths g) (hdest : dest.thread = (ths j).myId) (source : Address)
    (payload : A.Payload) :
    (update g.main k s j).ctxt.sig.countP (Event.IsCall (n := size j) source dest payload) =
      (g.main j).ctxt.sig.countP (Event.IsCall (n := size j) source dest payload) +
        (receivedPackets (ths k) es).countP (Packet.Carries · source dest payload) := by
  by_cases hj : j = k
  · subst hj
    rw [update_self, h.sig, List.countP_append,
      h.dispatches.count hdest fun m hm => h.received hplaced hinv.fromPin hm]
  · have hnone :
        (receivedPackets (ths k) es).countP (Packet.Carries · source dest payload) = 0 := by
      rw [Multiset.countP_eq_zero]
      intro x hx hcarries
      obtain ⟨m, -, rfl⟩ := mem_receivedPackets.1 hx
      exact hj (hplaced.myId_inj j k (hdest.symm.trans hcarries.1.symm))
    rw [update_of_ne hj, hnone, add_zero]

/-- What a thread sends is what it has sent since. -/
theorem sents (h : Advances ths g k s es flight) (hplaced : Placed ths)
    (hsource : source.thread = (ths i).threadId) (hdest : dest.thread = (ths j).myId)
    (payload : A.Payload) :
    (sentPackets (update g.main k s i).ctxt.sig).countP (Packet.Carries · source dest payload) =
      (sentPackets (g.main i).ctxt.sig).countP (Packet.Carries · source dest payload) +
        (sentPackets es).countP (Packet.Carries · source dest payload) := by
  by_cases hi : i = k
  · subst hi
    rw [update_self, h.sig, sentPackets_append, Multiset.countP_add]
  · have hnone : (sentPackets es).countP (Packet.Carries · source dest payload) = 0 := by
      rw [Multiset.countP_eq_zero]
      intro x hx hcarries
      have hthread := (hplaced.admits (h.fromPin x hx) (hcarries.1.trans hdest)).1
      rw [hcarries.2.2.1, hsource, hplaced.threadId, hplaced.threadId] at hthread
      exact hi (hplaced.myId_inj i k hthread)
    rw [update_of_ne hi, hnone, add_zero]

theorem networkInv (h : Advances ths g k s es flight) (hplaced : Placed ths)
    (hinv : NetworkInv ths g) : NetworkInv ths ⟨update g.main k s, flight⟩ := by
  refine ⟨?_, ?_, ?_, ?_⟩
  · intro i
    by_cases hi : i = k
    · subst hi
      simpa using h.host
    · simpa [hi] using hinv.host i
  · intro i
    by_cases hi : i = k
    · subst hi
      simpa using h.fanOut
    · simpa [hi] using hinv.fanOut i
  · exact h.exchange.forall_mem hinv.fromPin fun x hx => ⟨k, h.fromPin x hx⟩
  · intro i j source dest payload hsource hdest
    have hcalls := h.calls hplaced hinv hdest source payload
    have hsents := h.sents hplaced hsource hdest payload
    have hflight := h.exchange.countP_eq (Packet.Carries · source dest payload)
    have hledger := hinv.ledger i j source dest payload hsource hdest
    show (update g.main k s j).ctxt.sig.countP _ + flight.countP _ =
      (sentPackets (update g.main k s i).ctxt.sig).countP _
    omega

end Advances

/-! ## Runs -/

theorem Network.Reachable.networkInv (hplaced : Placed ths) (hstart : ∀ i, (cs i).trace = [])
    (h : Network.Reachable ths cs buf g) : NetworkInv ths g := by
  induction h with
  | start h => exact networkInv_start hstart h
  | step _ hstep ih =>
    obtain ⟨k, s, es, flight, hadvances, rfl⟩ := hstep.advances hplaced ih
    exact hadvances.networkInv hplaced ih

/-- Take a pin of a device of thread `i` and an address on thread `j`.  How often the receive
handler there was called for the pin with a payload, the packets in flight and those still owed
(as many as `currSendTodo`) are together how often the send handler returned true with that
payload, times how often the address is a target.  What is in flight to a thread is deliverable
there. -/
theorem delivery_exactlyOnce (hplaced : Placed ths) (hstart : ∀ i, (cs i).trace = [])
    (h : Network.Reachable ths cs buf g) :
    (∀ i j d pinIndex pin targets dest payload,
      ((ths i).device d).vtable.outputPins[pinIndex]? = some pin → pin.isApp = false →
      ((ths i).device d).targets[pinIndex]? = some targets → dest.thread = (ths j).myId →
      (g.trace j).countP
          (Event.IsCall (n := size j) (sendSource (ths i) d pinIndex pin) dest payload) +
        g.flight.countP (Packet.Carries · (sendSource (ths i) d pinIndex pin) dest payload) +
        (sentPackets ((g.main i).owed (ths i))).countP
          (Packet.Carries · (sendSource (ths i) d pinIndex pin) dest payload) =
      (g.trace i).countP (Event.IsReturn (n := size i) d pinIndex payload) *
        targets.targets.countP (sameAddress · dest)) ∧
    (∀ i, ((g.main i).owed (ths i)).length = (g.main i).currSendTodo) ∧
    (∀ j, ∀ x ∈ g.flight, x.thread = (ths j).myId → Deliverable (ths j) x.message) := by
  have hinv := h.networkInv hplaced hstart
  refine ⟨?_, fun i => (hinv.fanOut i).length, ?_⟩
  · intro i j d pinIndex pin targets dest payload hpin happ htargets hdest
    have hhost : dest.thread ≠ (ths i).hostId := fun h => hplaced.host i j (h.symm.trans hdest)
    have hledger := hinv.ledger i j (sendSource (ths i) d pinIndex pin) dest payload rfl hdest
    have hfan := (hinv.fanOut i).law.count (hplaced.fits i) hpin happ htargets hhost payload
    rw [countP_sig fun _ h => h.not_output] at hledger hfan
    unfold Network.trace
    rw [hledger, hfan]
  · intro j x hx hthread
    obtain ⟨i, hfrom⟩ := hinv.fromPin x hx
    exact (hplaced.admits hfrom hthread).2.deliverable

end Ledger

/-- Two threads; the devices of the second one send to those of the first one. -/
def flagsThreads (i : Fin 2) : PThread flagsApp 2 :=
  { flagsThread (defaultBuild true) with
    myId := BitVec.ofNat 32 i.val
    threadId := BitVec.ofNat 32 i.val }

theorem flagsThreads_admits {i : Fin 2} {d : Fin 2} {pinIndex : Nat}
    {pin : OutputPinVTable flagsApp} {targets : OutputPinTargets} {addr : Address}
    (hpin : ((flagsThreads i).device d).vtable.outputPins[pinIndex]? = some pin)
    (htargets : ((flagsThreads i).device d).targets[pinIndex]? = some targets)
    (haddr : addr ∈ targets.targets) (source : Address) :
    Admits (flagsThreads 0) source addr := by
  obtain ⟨hlt, -⟩ := List.getElem?_eq_some_iff.1 hpin
  obtain rfl : pinIndex = 0 := Nat.lt_one_iff.1 hlt
  have hmem : addr ∈ [flagsAddress 0#16, flagsAddress 1#16] := by
    cases htargets
    split at haddr
    · exact List.mem_cons_of_mem _ haddr
    · exact haddr
  have hpin : ∀ e : Fin 2, ((flagsThreads 0).device e).vtable.inputPins[0]? =
    some ⟨fun _ _ _ _ _ payload => ⟨⟨payload, []⟩, none⟩, 0#16, 0#16, 0#32⟩ := fun _ => rfl
  rcases List.mem_pair.1 hmem with rfl | rfl
  · exact ⟨rfl, 0, _, rfl, rfl, hpin 0, fun h => (h rfl).elim⟩
  · exact ⟨rfl, 1, _, rfl, rfl, hpin 1, fun h => (h rfl).elim⟩

theorem flagsThreads_placed : Placed flagsThreads where
  build _ := rfl
  fits _ := ⟨fun _ => rfl, by decide, fun _ => Nat.one_le_two_pow⟩
  threadId _ := rfl
  myId_inj i j h := by
    revert h
    revert i j
    decide
  host i j := by
    revert i j
    decide
  target _ _ _ _ _ hpin _ htargets addr haddr := ⟨0, flagsThreads_admits hpin htargets haddr _⟩


instance : DecidableEq flagsApp.Payload := inferInstanceAs (DecidableEq (BitVec 32))

/-- The payload of the send handlers. -/
def flagsPayload : flagsApp.Payload := 1#32

/-- The source of what device 1 of the second thread sends. -/
def secondSource : Address := ⟨1#32, 1#16, 0#8, 20#8⟩

/-- Device 1 of the second thread sends to device 0 of the first one. -/
theorem delivery_exactlyOnce_two : ∃ g, Network.Reachable flagsThreads
      (fun _ => flagsContext 0#32 1#32) (fun _ => flagsMessage 0#16 0#32) g ∧
    (g.trace 0).countP (Event.IsCall (n := 2) secondSource (flagsAddress 0#16) flagsPayload) +
      g.flight.countP (Packet.Carries · secondSource (flagsAddress 0#16) flagsPayload) +
      (sentPackets ((g.main 1).owed (flagsThreads 1))).countP
        (Packet.Carries · secondSource (flagsAddress 0#16) flagsPayload) = 1 := by
  have hmain : ∀ i, ∃ s, softswitchMain (flagsThreads i) (flagsContext 0#32 1#32)
      (flagsMessage 0#16 0#32) = .ok s := Fin.forall_fin_two.2 ⟨⟨_, rfl⟩, ⟨_, rfl⟩⟩
  choose main hmain using hmain
  obtain ⟨s₁, s₂, hstep₁, hstep₂, htrace₁, htrace₂, htrace⟩ : ∃ s₁ s₂,
      mainStep (flagsThreads 1) (main 1) freeMailbox = .ok s₁ ∧
      mainStep (flagsThreads 1) s₁ freeMailbox = .ok s₂ ∧
      s₁.ctxt.trace = (main 1).ctxt.trace ++ [] ∧
      s₂.ctxt.trace = s₁.ctxt.trace ++ [.onSend, .enter .send 1 ⟨1, 2, 0⟩,
        .sendReturn 1 0 true flagsPayload,
        .mboxSend 0#32 20 ⟨flagsAddress 0#16, secondSource, 0#16, flagsPayload⟩] ∧
      s₂.ctxt.trace.countP (Event.IsReturn (n := 2) 1 0 flagsPayload) = 1 := by
    rw [← Except.ok.inj ((rfl : softswitchMain (flagsThreads 1) (flagsContext 0#32 1#32)
      (flagsMessage 0#16 0#32) = .ok _).symm.trans (hmain 1))]
    exact ⟨_, _, rfl, rfl, rfl, rfl, rfl⟩
  have hstart : Network.Reachable flagsThreads (fun _ => flagsContext 0#32 1#32)
      (fun _ => flagsMessage 0#16 0#32) ⟨main, 0⟩ := .start hmain
  have hidle : Network.Reachable flagsThreads _ _ ⟨update main 1 s₁, 0⟩ :=
    hstart.step (.thread hstep₁ htrace₁ ⟨0, rfl, rfl⟩)
  have hself : update main 1 s₁ 1 = s₁ := update_self 1 s₁ main
  have hstep : mainStep (flagsThreads 1) (update main 1 s₁ 1) freeMailbox = .ok s₂ :=
    hself ▸ hstep₂
  have hsent := hidle.step (.thread hstep (htrace₂.trans (by rw [← hself]; rfl)) ⟨0, rfl, rfl⟩)
  have hcount := (delivery_exactlyOnce flagsThreads_placed (fun _ => rfl) hsent).1
    1 0 1 0 _ _ (flagsAddress 0#16) flagsPayload rfl rfl rfl rfl
  refine ⟨_, hsent, hcount.trans ?_⟩
  unfold Network.trace
  dsimp only
  rw [update_self, htrace]
  rfl

end Softswitch
