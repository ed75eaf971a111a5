import Softswitch.Apps.EdgeProps
import Softswitch.Verify.Lookup
import Softswitch.Verify.Queue

/-!
# Packets for pins with edge data

In a build with assertions, a packet for an input pin with edge properties or edge state reaches
the receive handler with the data of the one binding that has its source (`edgeLookup_exact`).
If there is none, `softswitch_onReceive` stops before the handler, but seldom where it is meant
to: the loop over the possible sources looks back from the first of them (`diagnoses_iff`).
-/

namespace Softswitch

open Outcome LowerBound Function

variable {A : AppTypes} {n : Nat} {th : PThread A n} {c c' : PThreadContext A n} {d : Fin n}
  {m m' : Message A} {pin : InputPinVTable A} {bindings : List (InputPinBinding A)}
  {edge : InputPinBinding A} {s : Stop A n}

/-- The packet is for an input pin of `d` with edge data, whose sources are `bindings`. -/
structure ForEdgePin (th : PThread A n) (d : Fin n) (m : Message A) (pin : InputPinVTable A)
    (bindings : List (InputPinBinding A)) : Prop where
  device_eq : d.val = m.dest.device.toNat
  pin_eq : (th.device d).vtable.inputPins[m.dest.pin.toNat]? = some pin
  data : pin.propertiesSize ≠ 0#16 ∨ pin.stateSize ≠ 0#16
  sources_eq : (th.device d).sources[m.dest.pin.toNat]? = some ⟨bindings⟩
  sorted : StrictlySorted bindings

/-- What `softswitch_onReceive` asserts before it takes a packet apart. -/
structure WellAddressed (th : PThread A n) (d : Fin n) (m : Message A) : Prop where
  size : th.sizeofPacketHeader ≤ m.source.size.toNat
  external : (th.device d).isExternal.setWidth 8 = 0#8

/-- What it asserts of the edge: a pin with properties or state is delivered some. -/
structure InputPinVTable.Delivers (pin : InputPinVTable A) (edge : InputPinBinding A) : Prop where
  props : pin.propertiesSize ≠ 0#16 → edge.edgeProperties.isSome = true
  state : pin.stateSize ≠ 0#16 → edge.edgeState.isSome = true

/-- No edge has the source of the packet. -/
def NoEdge (bindings : List (InputPinBinding A)) (m : Message A) : Prop :=
  ∀ edge ∈ bindings, sameAddress edge.source m.source = false

/-! ## Up to the search -/

theorem ForEdgePin.receiveTarget_eq (h : ForEdgePin th d m pin bindings) :
    receiveTarget th c d m = findEdge th c m bindings >>= fun edge =>
      th.check c .onReceiveProps (pin.propertiesSize == 0 || edge.edgeProperties.isSome) >>=
        fun _ => th.check c .onReceiveState (pin.stateSize == 0 || edge.edgeState.isSome) >>=
          fun _ => .ok ⟨pin, edge.edgeProperties, edge.edgeState⟩ := by
  have hlt := (List.getElem?_eq_some_iff.1 h.pin_eq).1
  have hdata : ¬pin.propertiesSize.setWidth 32 ||| pin.stateSize.setWidth 32 = 0#32 := by
    rw [BitVec.or_eq_zero_iff]
    rintro ⟨hprops, hstate⟩
    rcases h.data with hne | hne <;> bv_omega
  unfold receiveTarget
  dsimp only
  rw [decide_eq_true hlt, check_true, h.pin_eq, h.sources_eq]
  exact if_neg hdata

/-- A packet that is well addressed is dispatched. -/
theorem softswitchOnReceive_eq (hd : d.val = m.dest.device.toNat) (hwell : WellAddressed th d m) :
    softswitchOnReceive th c m = dispatchReceive th (c.tick th) d m >>= fun c₁ =>
      checkOnList th c₁ .onReceiveOnList d >>= fun _ =>
        softswitchUpdateRTS th c₁ d >>= fun c₂ =>
          checkOnList th c₂ .onReceiveOnList d >>= fun _ =>
            .ok (c₂.addCycles th (tinselCycleCount th c) fun p t =>
              { p with recvCycles := p.recvCycles + t }) := by
  have hlt : m.dest.device.toNat < n := hd ▸ d.isLt
  obtain rfl : d = ⟨m.dest.device.toNat, hlt⟩ := Fin.ext hd
  unfold softswitchOnReceive
  dsimp only
  rw [decide_eq_true hwell.size, decide_eq_true hlt, check_true, check_true, dif_pos hlt,
    if_neg (not_not.2 hwell.external)]
  rfl

/-- A packet that is not well addressed is not taken apart. -/
theorem softswitchOnReceive_illAddressed (ha : th.build.asserts = true)
    (hd : d.val = m.dest.device.toNat) (hill : ¬WellAddressed th d m) :
    ∃ a, softswitchOnReceive th c m = .error ⟨.assertion a, c.tick th⟩ := by
  have hlt : m.dest.device.toNat < n := hd ▸ d.isLt
  obtain rfl : d = ⟨m.dest.device.toNat, hlt⟩ := Fin.ext hd
  unfold softswitchOnReceive
  dsimp only
  by_cases hsize : th.sizeofPacketHeader ≤ m.source.size.toNat
  · have hexternal : (th.device ⟨m.dest.device.toNat, hlt⟩).isExternal.setWidth 8 ≠ 0#8 :=
      fun h => hill ⟨hsize, h⟩
    refine ⟨.onReceiveExternal, ?_⟩
    rw [decide_eq_true hsize, decide_eq_true hlt, check_true, check_true, dif_pos hlt,
      if_pos hexternal]
    simp [PThread.check, ha, PThreadContext.fail]
  · refine ⟨.onReceiveSize, ?_⟩
    simp [PThread.check, ha, PThreadContext.fail, hsize]

/-! ## An edge is found -/

namespace ForEdgePin

theorem receiveTarget_ok (h : ForEdgePin th d m pin bindings)
    (hedge : findEdge th c m bindings = .ok edge) (hdelivers : pin.Delivers edge) :
    receiveTarget th c d m = .ok ⟨pin, edge.edgeProperties, edge.edgeState⟩ := by
  have hprops : (pin.propertiesSize == 0 || edge.edgeProperties.isSome) = true := by
    by_cases hzero : pin.propertiesSize = 0#16
    · simp [hzero]
    · simp [hdelivers.props hzero]
  have hstate : (pin.stateSize == 0 || edge.edgeState.isSome) = true := by
    by_cases hzero : pin.stateSize = 0#16
    · simp [hzero]
    · simp [hdelivers.state hzero]
  rw [h.receiveTarget_eq, hedge, ok_bind, hprops, hstate, check_true, check_true]
  rfl

theorem receiveTarget_undelivered (h : ForEdgePin th d m pin bindings)
    (ha : th.build.asserts = true)
    (hedge : findEdge th c m bindings = .ok edge) (hdelivers : ¬pin.Delivers edge) :
    ∃ a, receiveTarget th c d m = .error ⟨.assertion a, c⟩ := by
  rw [h.receiveTarget_eq, hedge, ok_bind]
  cases hprops : (pin.propertiesSize == 0 || edge.edgeProperties.isSome) with
  | false => exact ⟨.onReceiveProps, by simp [PThread.check, ha, PThreadContext.fail]⟩
  | true =>
    cases hstate : (pin.stateSize == 0 || edge.edgeState.isSome) with
    | false => exact ⟨.onReceiveState, by simp [PThread.check, ha, PThreadContext.fail]⟩
    | true =>
      refine absurd ⟨fun hne => ?_, fun hne => ?_⟩ hdelivers
      · simpa [hne] using hprops
      · simpa [hne] using hstate

end ForEdgePin

/-- The handler is called once, with the target that was found, whatever happens afterwards. -/
theorem softswitchOnReceive_called {target : ReceiveTarget A} (hd : d.val = m.dest.device.toNat)
    (hwell : WellAddressed th d m) (ht : receiveTarget th (c.tick th) d m = .ok target) :
    (lastContext (softswitchOnReceive th c m)).sig = c.sig ++ receiveEvents c d m target := by
  rw [softswitchOnReceive_eq hd hwell]
  let Called (c' : PThreadContext A n) : Prop := c'.sig = c.sig ++ receiveEvents c d m target
  refine lastContext_sat (P := Called) ?_
  unfold dispatchReceive
  rw [ht, ok_bind]
  refine Sat.bind (callReceive_sat.mono (fun _ h => h) fun s h => h.2) fun c₁ _ h₁ => ?_
  refine checkOnList_reads.then (E := Called) h₁.sig fun _ _ => ?_
  refine Sat.bind (h₁.handled.mono (fun _ h => h) fun s h => h) fun c₂ _ h₂ => ?_
  refine checkOnList_reads.then (E := Called) h₂.sig fun _ _ => ?_
  exact h₂.sig

/-- Where no target is found, the packet is not handled. -/
theorem softswitchOnReceive_of_receiveTarget (hd : d.val = m.dest.device.toNat)
    (hwell : WellAddressed th d m) (ht : receiveTarget th (c.tick th) d m = .error s) :
    softswitchOnReceive th c m = .error s := by
  rw [softswitchOnReceive_eq hd hwell]
  unfold dispatchReceive
  rw [ht]
  rfl

/-! ## No edge is found -/

theorem findEdge_missing (hnone : NoEdge bindings m)
    (hstop : onReceiveNoEdge th c m bindings = .error s) :
    findEdge th c m bindings = .error s := by
  have hmiss : ∀ k : Nat,
      (bindings[k]?).any (fun e : InputPinBinding A => sameAddress e.source m.source) = false := by
    intro k
    cases hget : bindings[k]? with
    | none => rfl
    | some edge => exact hnone edge (List.mem_of_getElem? hget)
  unfold findEdge
  dsimp only
  rw [hmiss, hstop]
  rfl

/-- The line on the packet. -/
def logNoEdge (th : PThread A n) (c : PThreadContext A n) (m : Message A) : PThreadContext A n :=
  softswitchLog th c 1 (addressParams m.dest ++ addressParams m.source)

/-- Without sources the last assertion is reached. -/
theorem onReceiveNoEdge_nil (ha : th.build.asserts = true) :
    onReceiveNoEdge th c m [] = .error ⟨.assertion .onReceiveNoEdge, logNoEdge th c m⟩ := by
  unfold onReceiveNoEdge
  rw [if_pos ha]
  simp [PThread.check, ha, PThreadContext.fail, bindingsSorted, logNoEdge]

/-- The first source is logged, and the look back from it leaves the list. -/
theorem onReceiveNoEdge_cons (ha : th.build.asserts = true) :
    onReceiveNoEdge th c m (edge :: bindings) =
      .error ⟨.outOfBounds, softswitchLog th (logNoEdge th c m) 1 (addressParams edge.source)⟩ := by
  have hfirst : logPossibleSource th (edge :: bindings) (logNoEdge th c m) 0 =
      .error ⟨.outOfBounds, softswitchLog th (logNoEdge th c m) 1 (addressParams edge.source)⟩ :=
    rfl
  unfold onReceiveNoEdge
  rw [if_pos ha, List.length_cons, List.range_succ_eq_map]
  dsimp only
  rw [List.foldlM_cons]
  unfold logNoEdge at hfirst
  rw [hfirst]
  rfl

/-- In a build with assertions the loop and what follows it stop. -/
theorem onReceiveNoEdge_stops (ha : th.build.asserts = true) :
    ∃ s, onReceiveNoEdge th c m bindings = .error s := by
  cases bindings with
  | nil => exact ⟨_, onReceiveNoEdge_nil ha⟩
  | cons edge bindings => exact ⟨_, onReceiveNoEdge_cons ha⟩

/-- A packet without an edge is not handled. -/
theorem ForEdgePin.missing (h : ForEdgePin th d m pin bindings) (hwell : WellAddressed th d m)
    (hnone : NoEdge bindings m) (hstop : onReceiveNoEdge th (c.tick th) m bindings = .error s) :
    softswitchOnReceive th c m = .error s := by
  refine softswitchOnReceive_of_receiveTarget h.device_eq hwell ?_
  rw [h.receiveTarget_eq, findEdge_missing hnone hstop]
  rfl

/-! ## The lookup -/

/-- If a binding has the packet's source, the search finds it, as a scan would, whatever the size
byte; the receive handler is called, once, with the properties and the state of this binding,
unless the packet or the binding fails an assertion.  If no binding has it, `softswitch_onReceive`
stops with no handler called and no device changed. -/
theorem edgeLookup_exact (ha : th.build.asserts = true) (h : ForEdgePin th d m pin bindings) :
    (∀ edge ∈ bindings, sameAddress edge.source m.source = true →
      (bindings.find? fun e => sameAddress e.source m.source) = some edge ∧
      (∀ m' : Message A, sameAddress m'.source m.source = true →
        findEdge th c m' bindings = .ok edge) ∧
      (WellAddressed th d m → pin.Delivers edge →
        (lastContext (softswitchOnReceive th c m)).sig =
          c.sig ++ receiveEvents c d m ⟨pin, edge.edgeProperties, edge.edgeState⟩) ∧
      (¬(WellAddressed th d m ∧ pin.Delivers edge) →
        ∃ a, softswitchOnReceive th c m = .error ⟨.assertion a, c.tick th⟩)) ∧
    (NoEdge bindings m → ∃ s, softswitchOnReceive th c m = .error s ∧ s.ctxt.sig = c.sig ∧
      s.ctxt.states = c.states) := by
  constructor
  · intro edge hmem hsame
    have hedge := h.sorted.edgeOf_eq hmem hsame
    have hfound : ∀ c₁ : PThreadContext A n, findEdge th c₁ m bindings = .ok edge :=
      fun _ => findEdge_of_edgeOf hedge
    refine ⟨h.sorted.edgeOf_eq_find? ▸ hedge, ?_, ?_, ?_⟩
    · intro m' hsame'
      refine findEdge_ok h.sorted hmem (sameAddress_iff.2 ?_)
      obtain ⟨hthread, hdevice, hpin⟩ := sameAddress_iff.1 hsame
      obtain ⟨hthread', hdevice', hpin'⟩ := sameAddress_iff.1 hsame'
      exact ⟨hthread.trans hthread'.symm, hdevice.trans hdevice'.symm, hpin.trans hpin'.symm⟩
    · intro hwell hdelivers
      exact softswitchOnReceive_called h.device_eq hwell (h.receiveTarget_ok (hfound _) hdelivers)
    · intro hfails
      by_cases hwell : WellAddressed th d m
      · have hdelivers : ¬pin.Delivers edge := fun hdelivers => hfails ⟨hwell, hdelivers⟩
        obtain ⟨a, ht⟩ := h.receiveTarget_undelivered ha (hfound (c.tick th)) hdelivers
        exact ⟨a, softswitchOnReceive_of_receiveTarget h.device_eq hwell ht⟩
      · exact softswitchOnReceive_illAddressed ha h.device_eq hwell
  · intro hnone
    by_cases hwell : WellAddressed th d m
    · obtain ⟨s, hstop⟩ : ∃ s, onReceiveNoEdge th (c.tick th) m bindings = .error s :=
        onReceiveNoEdge_stops ha
      have hquiet := (onReceiveNoEdge_quiet.of_error hstop).1
      exact ⟨s, h.missing hwell hnone hstop, hquiet.sig_eq, hquiet.states_eq⟩
    · obtain ⟨a, hstop⟩ := softswitchOnReceive_illAddressed (c := c) ha h.device_eq hwell
      exact ⟨_, hstop, rfl, rfl⟩

namespace EdgeProps

/-- A platform without logging. -/
def bare : Barrier.Platform := ⟨false, 16, fun _ => 0#32, fun _ => 0#32⟩

/-- A tick for the inner device of `edge_props_dev4_threads1`. -/
def tickOf (device : BitVec 16) : Message app :=
  ⟨⟨0#32, 3#16, 0#8, 0#8⟩, ⟨0#32, device, 0#8, 17#8⟩, 0#16, ()⟩

/-- The input pin of the inner device. -/
def innerIn : InputPinVTable app := (innerVTable bare).inputPins.head (by simp [innerVTable])

theorem tickOf_forEdgePin {build : Build} {device : BitVec 16} :
    ForEdgePin (dev4Threads1 bare build) 3 (tickOf device) innerIn dev3InBindings where
  device_eq := rfl
  pin_eq := rfl
  data := .inl (by decide)
  sources_eq := rfl
  sorted := by
    unfold StrictlySorted
    decide

theorem tickOf_wellAddressed {build : Build} {device : BitVec 16} :
    WellAddressed (dev4Threads1 bare build) 3 (tickOf device) where
  size := Nat.le_of_ble_eq_true rfl
  external := rfl

/-- The tick of outer device 1. -/
theorem edgeLookup_exact_tick :
    (lastContext (softswitchOnReceive (dev4Threads1 bare (defaultBuild true))
      dev4Threads1Context (tickOf 1#16))).sig =
    receiveEvents dev4Threads1Context 3 (tickOf 1#16) ⟨innerIn, some ⟨2#32⟩, none⟩ := by
  have hpin : ForEdgePin (dev4Threads1 bare (defaultBuild true)) 3 (tickOf 1#16) innerIn
      dev3InBindings := tickOf_forEdgePin
  have hmem : dev3InBinding 1 ∈ dev3InBindings := by simp [dev3InBindings]
  obtain ⟨-, -, hcalled, -⟩ := (edgeLookup_exact rfl hpin).1 (dev3InBinding 1) hmem rfl
  exact hcalled tickOf_wellAddressed ⟨fun _ => rfl, fun h => absurd rfl h⟩

end EdgeProps

/-! ## The diagnostics -/

/-- The loop over the possible sources compares the neighbours `i` and `i + 1` of a list: it stops
where they are out of order. -/
def ComparesNeighbours (th : PThread A n) (i : Nat) : Prop :=
  ∀ (bindings : List (InputPinBinding A)) (c : PThreadContext A n) (a b : InputPinBinding A),
    bindings[i]? = some a → bindings[i + 1]? = some b → cmpAddress a.source b.source = false →
    ∃ c', logPossibleSource th bindings c (i + 1) = .error ⟨.assertion .onReceiveNeighbours, c'⟩

/-- All neighbours are compared but the first two. -/
theorem comparesNeighbours_iff {i : Nat} (ha : th.build.asserts = true) (c : PThreadContext A n) :
    ComparesNeighbours th i ↔ i ≠ 0 := by
  constructor
  · rintro h rfl
    let edge : InputPinBinding A := ⟨⟨0#32, 0#16, 0#8, 0#8⟩, none, none⟩
    obtain ⟨c', hstop⟩ := h [edge, edge] c edge edge rfl rfl rfl
    cases hstop
  · intro hne bindings c a b hi hnext hcmp
    refine ⟨softswitchLog th c 1 (addressParams b.source), ?_⟩
    unfold logPossibleSource
    rw [hnext]
    simp [PThreadContext.deref, hne, hi, hcmp, PThread.check, ha, PThreadContext.fail]

namespace EdgeProps

end EdgeProps

end Softswitch
