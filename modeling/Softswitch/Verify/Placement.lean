import Mathlib.Algebra.BigOperators.Group.Finset.Basic
import Softswitch.Graph
import Softswitch.Verify.ExactlyOnce

/-!
# A graph placed on threads

`place` says which device of the graph each device of a thread is.  An address then names a
pin of the graph (`locate`), a packet a message of the graph (`graphMessage`), and a network
of threads that realise the graph (`Realises`) is in a state of the graph (`Network.view`).
-/

namespace Softswitch

open Outcome Transport Function

variable {A : AppTypes} {n : Nat} {ι D : Type} {size : ι → Nat} {ths : Threads A size}
  {place : (Σ i, Fin (size i)) ≃ D} {G : Graph A D} {g : Network A size} {i k : ι}
  {th : PThread A n} {c : PThreadContext A n} {m : Message A} {x : Packet A}
  {source addr : Address} {payload : A.Payload}

/-! ## Addresses -/

/-- The address is that of pin `p.2` of the device placed as `p.1`. -/
def Addresses (ths : Threads A size) (place : (Σ i, Fin (size i)) ≃ D) (addr : Address)
    (p : D × Nat) : Prop :=
  ∃ (i : ι) (d : Fin (size i)), p = (place ⟨i, d⟩, addr.pin.toNat) ∧
    addr.thread = (ths i).myId ∧ d.val = addr.device.toNat

open Classical in
/-- The pin that the address is for. -/
noncomputable def locate (ths : Threads A size) (place : (Σ i, Fin (size i)) ≃ D)
    (addr : Address) : Option (D × Nat) :=
  if h : ∃ p, Addresses ths place addr p then some h.choose else none

/-- The message of the graph that the packet carries; a packet for the host carries none. -/
noncomputable def graphMessage (ths : Threads A size) (place : (Σ i, Fin (size i)) ≃ D)
    (x : Packet A) : Option (GraphMessage A D) :=
  (locate ths place x.message.source).bind fun source =>
    (locate ths place { x.message.dest with thread := x.thread }).map fun dest =>
      ⟨source, dest, x.message.payload⟩

theorem Addresses.unique (hplaced : Placed ths) {p p' : D × Nat}
    (h : Addresses ths place addr p) (h' : Addresses ths place addr p') : p = p' := by
  obtain ⟨i, d, rfl, hthread, hd⟩ := h
  obtain ⟨i', d', rfl, hthread', hd'⟩ := h'
  obtain rfl : i = i' := hplaced.myId_inj i i' (hthread.symm.trans hthread')
  obtain rfl : d = d' := Fin.ext (hd.trans hd'.symm)
  rfl

theorem Addresses.locate_eq (hplaced : Placed ths) {p : D × Nat}
    (h : Addresses ths place addr p) : locate ths place addr = some p := by
  have hex : ∃ p, Addresses ths place addr p := ⟨p, h⟩
  unfold locate
  rw [dif_pos hex]
  exact congrArg some (hex.choose_spec.unique hplaced h)

/-- An address that is not of a thread is not located. -/
theorem locate_eq_none (h : ∀ i, addr.thread ≠ (ths i).myId) : locate ths place addr = none := by
  unfold locate
  rw [dif_neg]
  rintro ⟨p, i, d, -, hthread, -⟩
  exact h i hthread

/-- The size byte does not matter. -/
theorem locate_congr {addr' : Address} (h : sameAddress addr addr' = true) :
    locate ths place addr = locate ths place addr' := by
  obtain ⟨hthread, hdevice, hpin⟩ := sameAddress_iff.1 h
  have hsame : Addresses ths place addr = Addresses ths place addr' := by
    unfold Addresses
    rw [hthread, hdevice, hpin]
  unfold locate
  rw [hsame]

theorem locate_sendSource (hplaced : Placed ths) {d : Fin (size i)} {pinIndex : Nat}
    {pin : OutputPinVTable A}
    (hpin : ((ths i).device d).vtable.outputPins[pinIndex]? = some pin) :
    locate ths place (sendSource (ths i) d pinIndex pin) = some (place ⟨i, d⟩, pinIndex) := by
  have hfits := hplaced.fits i
  have hd := d.isLt.trans_le hfits.devices
  have hk := (List.getElem?_eq_some_iff.1 hpin).1.trans_le (hfits.pins d)
  have hdevice : (BitVec.ofNat 16 ((ths i).device d).index).toNat = d.val := by
    rw [hfits.index, BitVec.toNat_ofNat, Nat.mod_eq_of_lt hd]
  have hpinIndex : (BitVec.ofNat 8 pinIndex).toNat = pinIndex := by
    rw [BitVec.toNat_ofNat, Nat.mod_eq_of_lt hk]
  refine Addresses.locate_eq hplaced ⟨i, d, ?_, hplaced.threadId i, hdevice.symm⟩
  exact Prod.ext rfl hpinIndex.symm

theorem locate_dest (hplaced : Placed ths) {d : Fin (size i)} (hthread : addr.thread = (ths i).myId)
    (hd : d.val = addr.device.toNat) :
    locate ths place addr = some (place ⟨i, d⟩, addr.pin.toNat) :=
  Addresses.locate_eq hplaced ⟨i, d, rfl, hthread, hd⟩

theorem graphMessage_host (hplaced : Placed ths) (h : x.thread = (ths i).hostId) :
    graphMessage ths place x = none := by
  have hdest : locate ths place { x.message.dest with thread := x.thread } = none := by
    apply locate_eq_none
    intro j hj
    exact hplaced.host i j (h.symm.trans hj)
  unfold graphMessage
  rw [hdest]
  cases locate ths place x.message.source with
  | none => rfl
  | some source => rfl

/-- What a fan-out sends are the messages of the pin to its targets. -/
theorem graphMessages_fanOut {p : D × Nat} {ts : List Address} {length : Nat}
    (hsource : locate ths place m.source = some p) :
    (sentPackets (fanOut (n := n) ts length m)).filterMap (graphMessage ths place) =
      (ts.filterMap (locate ths place) : Multiset (D × Nat)).map
        fun dest => ⟨p, dest, m.payload⟩ := by
  rw [sentPackets_fanOut, Multiset.filterMap_coe, Multiset.map_coe]
  congr 1
  induction ts with
  | nil => rfl
  | cons addr ts ih =>
    have hmessage : graphMessage ths place (⟨addr.thread, { m with dest := addr }⟩ : Packet A) =
        (locate ths place addr).map fun dest => ⟨p, dest, m.payload⟩ := by
      unfold graphMessage
      rw [hsource]
      rfl
    rw [List.map_cons, List.filterMap_cons, List.filterMap_cons, hmessage]
    cases locate ths place addr with
    | none => exact ih
    | some dest =>
      rw [List.map_cons]
      exact congrArg _ ih

/-! ## Realisation -/

/-- The devices of the threads are those of the graph, with their targets and edges. -/
structure Realises (ths : Threads A size) (place : (Σ i, Fin (size i)) ≃ D) (G : Graph A D) :
    Prop where
  placed : Placed ths
  graphProps : ∀ i, (ths i).graphProps = G.graphProps
  vtable : ∀ i d, ((ths i).device d).vtable = G.vtable (place ⟨i, d⟩)
  properties : ∀ i d, ((ths i).device d).properties = G.properties (place ⟨i, d⟩)
  targets : ∀ i d pinIndex pin targets,
    ((ths i).device d).vtable.outputPins[pinIndex]? = some pin → pin.isApp = false →
    ((ths i).device d).targets[pinIndex]? = some targets →
    G.targets (place ⟨i, d⟩) pinIndex =
      (targets.targets.filterMap (locate ths place) : Multiset (D × Nat))
  noData : ∀ i d k pin source, ((ths i).device d).vtable.inputPins[k]? = some pin →
    pin.NoData → G.edgeProps source (place ⟨i, d⟩, k) = none
  edges : ∀ i d k pin sources, ((ths i).device d).vtable.inputPins[k]? = some pin →
    ¬pin.NoData → ((ths i).device d).sources[k]? = some sources →
    ∀ edge ∈ sources.sourceBindings, ∀ source, locate ths place edge.source = some source →
      G.edgeProps source (place ⟨i, d⟩, k) = edge.edgeProperties

namespace Realises

theorem ready_eq (h : Realises ths place G) {d : Fin (size i)} {σ : A.DevState} :
    readyResult (ths i) d σ = G.ready (place ⟨i, d⟩) σ := by
  unfold readyResult Graph.ready
  rw [h.graphProps, h.vtable, h.properties]

end Realises

/-! ## Sending -/

/-- What a send handler asks for are the messages of its pin. -/
theorem Realises.expected (h : Realises ths place G) {pinIndex : Nat} {pin : OutputPinVTable A}
    {d : Fin (size k)} {doSend : Bool} {payload : A.Payload} {es : List (Event A (size k))}
    (hpin : ((ths k).device d).vtable.outputPins[pinIndex]? = some pin)
    (hexpects : Expects (ths k) d pinIndex doSend payload es) :
    (sentPackets es).filterMap (graphMessage ths place) =
      if doSend && !pin.isApp then G.messages (place ⟨k, d⟩) pinIndex payload else 0 := by
  cases hexpects with
  | nothing => rfl
  | @app _ pin' m hpin' happ _ _ _ =>
    obtain rfl : pin' = pin := Option.some.inj (hpin'.symm.trans hpin)
    have hhost : graphMessage ths place (⟨(ths k).hostId, m⟩ : Packet A) = none :=
      graphMessage_host (i := k) h.placed rfl
    rw [happ, show sentPackets [.mboxSend (ths k).hostId 64 m] = ⟨(ths k).hostId, m⟩ ::ₘ 0 from rfl,
      Multiset.filterMap_cons_none _ _ hhost]
    rfl
  | @targets _ pin' m targets hpin' happ htargets hsource hpayload =>
    obtain rfl : pin' = pin := Option.some.inj (hpin'.symm.trans hpin)
    have hlocate : locate ths place m.source = some (place ⟨k, d⟩, pinIndex) :=
      hsource ▸ locate_sendSource h.placed hpin
    rw [graphMessages_fanOut hlocate, ← h.targets k d pinIndex pin' targets hpin happ htargets,
      hpayload, happ]
    rfl

/-! ## Receiving -/

/-- The pin and the edge that a packet is for. -/
theorem receiveTarget_ok {d : Fin n} {target : ReceiveTarget A}
    (h : receiveTarget th c d m = .ok target) :
    (th.device d).vtable.inputPins[m.dest.pin.toNat]? = some target.pin ∧
      (target.pin.NoData ∧ target.eProps = none ∨
        ¬target.pin.NoData ∧ ∃ sources edge,
          (th.device d).sources[m.dest.pin.toNat]? = some sources ∧
          findEdge th c m sources.sourceBindings = .ok edge ∧
          target.eProps = edge.edgeProperties) := by
  obtain ⟨_, -, h⟩ := bind_eq_ok.1 h
  obtain ⟨pin, hpin, h⟩ := bind_eq_ok.1 h
  split at h
  · rename_i hdata
    cases h
    exact ⟨deref_eq_ok hpin, .inl ⟨hdata, rfl⟩⟩
  · rename_i hdata
    obtain ⟨sources, hsources, h⟩ := bind_eq_ok.1 h
    obtain ⟨edge, hedge, h⟩ := bind_eq_ok.1 h
    obtain ⟨_, -, h⟩ := bind_eq_ok.1 h
    obtain ⟨_, -, h⟩ := bind_eq_ok.1 h
    cases h
    exact ⟨deref_eq_ok hpin, .inr ⟨hdata, sources, edge, deref_eq_ok hsources, hedge, rfl⟩⟩

/-- What a thread receives is a message of the graph, and its handler gets the properties of
the message's edge. -/
theorem Realises.received (h : Realises ths place G) {c : PThreadContext A (size k)}
    {d : Fin (size k)} {target : ReceiveTarget A} (hfrom : FromPin (ths i) ⟨(ths k).myId, m⟩)
    (hd : Accepts (ths k) d m) (htarget : receiveTarget (ths k) c d m = .ok target) :
    ∃ gm, graphMessage ths place ⟨(ths k).myId, m⟩ = some gm ∧
      gm.dest = (place ⟨k, d⟩, m.dest.pin.toNat) ∧ gm.payload = m.payload ∧
      (G.vtable (place ⟨k, d⟩)).inputPins[m.dest.pin.toNat]? = some target.pin ∧
      G.edgeProps gm.source (place ⟨k, d⟩, m.dest.pin.toNat) = target.eProps := by
  obtain ⟨-, hthread, e, pin', he, -, hpin', hdata⟩ := h.placed.admits hfrom rfl
  obtain rfl : d = e := Fin.ext (hd.1.trans he.symm)
  obtain ⟨hpin, hedge⟩ := receiveTarget_ok htarget
  obtain rfl : pin' = target.pin := Option.some.inj (hpin'.symm.trans hpin)
  obtain ⟨p, hp⟩ : ∃ p, locate ths place m.source = some p := by
    rcases hfrom with hhost | ⟨d', pinIndex, pin, targets, hout, -, -, hsource, -, -⟩
    · exact absurd hhost.symm (h.placed.host i k)
    · exact ⟨_, hsource ▸ locate_sendSource h.placed hout⟩
  have hdest : locate ths place { m.dest with thread := (ths k).myId } =
      some (place ⟨k, d⟩, m.dest.pin.toNat) := locate_dest h.placed rfl hd.1
  refine ⟨⟨p, (place ⟨k, d⟩, m.dest.pin.toNat), m.payload⟩, ?_, rfl, rfl, ?_, ?_⟩
  · unfold graphMessage
    rw [hp, hdest]
    rfl
  · rw [← h.vtable]
    exact hpin
  · rcases hedge with ⟨hno, heProps⟩ | ⟨hno, sources, edge, hsources, hfind, heProps⟩
    · rw [heProps]
      exact h.noData k d _ _ p hpin hno
    · obtain ⟨sources', hsources', hsorted, edge', hmem, hsame⟩ := hdata hno
      obtain rfl : sources' = sources := Option.some.inj (hsources'.symm.trans hsources)
      obtain rfl : edge' = edge := Except.ok.inj ((findEdge_ok hsorted hmem hsame).symm.trans hfind)
      rw [heProps]
      exact h.edges k d _ _ sources' hpin hno hsources edge' hmem p ((locate_congr hsame).trans hp)

end Softswitch
