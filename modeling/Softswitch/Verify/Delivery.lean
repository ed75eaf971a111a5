import Softswitch.Network
import Softswitch.Verify.FanOut
import Softswitch.Verify.Lookup

/-!
# Exactly-once delivery

What a thread sends to an address is what its send handlers wrote, once for each target
(`FanOut.count`), and what it takes from the network goes to the receive handlers
(`Dispatches`).  The network neither loses nor duplicates, so between any sender and any
target what was delivered, what is in flight and what is owed add up to what was written.
-/

namespace Softswitch

open Outcome Transport Function

variable {A : AppTypes} {n : Nat} {th : PThread A n} {c c' : PThreadContext A n}
  {s s' : Main A n} {i : LoopInput A} {l rest es : List (Event A n)} {e : Event A n}
  {d : Fin n} {pinIndex : Nat} {pin : OutputPinVTable A} {targets : OutputPinTargets}
  {doSend : Bool} {source dest : Address} {payload : A.Payload} {x : Packet A}

/-! ## Packets and the events they come from -/

/-- The packet carries `payload` from `source` to `dest`. -/
def Packet.Carries (x : Packet A) (source dest : Address) (payload : A.Payload) : Prop :=
  x.thread = dest.thread ∧ sameAddress x.message.dest dest = true ∧
    x.message.source = source ∧ x.message.payload = payload

/-- The receive handler at `dest` is called with `payload` from `source`. -/
def Event.IsCall (source dest : Address) (payload : A.Payload) : Event A n → Prop
  | .receiveCall d pin source' _ _ payload' => d.val = dest.device.toNat ∧
      pin = dest.pin.toNat ∧ source' = source ∧ payload' = payload
  | _ => False

/-- The send handler of pin `pinIndex` of `d` returned true, having written `payload`. -/
def Event.IsReturn (d : Fin n) (pinIndex : Nat) (payload : A.Payload) : Event A n → Prop
  | .sendReturn d' pinIndex' doSend payload' => d' = d ∧ pinIndex' = pinIndex ∧
      doSend = true ∧ payload' = payload
  | _ => False

section Decidable

variable [DecidableEq A.Payload]

instance : Decidable (x.Carries source dest payload) := by
  unfold Packet.Carries
  infer_instance

instance : DecidablePred (Event.IsCall (n := n) source dest payload) := fun e => by
  cases e <;> unfold Event.IsCall <;> infer_instance

instance : DecidablePred (Event.IsReturn d pinIndex payload) := fun e => by
  cases e <;> unfold Event.IsReturn <;> infer_instance

end Decidable

/-- The packet was sent to the host, or comes from an output pin and is on its way to one of
the pin's targets. -/
def FromPin (th : PThread A n) (x : Packet A) : Prop :=
  x.thread = th.hostId ∨ ∃ d pinIndex pin targets,
    (th.device d).vtable.outputPins[pinIndex]? = some pin ∧ pin.isApp = false ∧
    (th.device d).targets[pinIndex]? = some targets ∧
    x.message.source = sendSource th d pinIndex pin ∧ x.message.dest ∈ targets.targets ∧
    x.thread = x.message.dest.thread

theorem mem_sentPackets : x ∈ sentPackets l ↔ ∃ e ∈ l, e.sent = some x := by
  unfold sentPackets
  rw [Multiset.mem_coe, List.mem_filterMap]

theorem sentPackets_append {l' : List (Event A n)} :
    sentPackets (l ++ l') = sentPackets l + sentPackets l' := by
  unfold sentPackets
  rw [List.filterMap_append, Multiset.coe_add]

theorem receivedPackets_append {l' : List (Event A n)} :
    receivedPackets th (l ++ l') = receivedPackets th l + receivedPackets th l' := by
  unfold receivedPackets
  rw [List.filterMap_append, Multiset.coe_add]

/-- Events that are not sends leave nothing in the network. -/
theorem sentPackets_eq_zero (h : ∀ e ∈ l, e.isMboxSend = false) : sentPackets l = 0 := by
  refine Multiset.eq_zero_of_forall_notMem fun x hx => ?_
  obtain ⟨e, he, hsent⟩ := mem_sentPackets.1 hx
  have hno := h e he
  cases e with
  | mboxSend _ _ _ => cases hno
  | _ => cases hsent

theorem isMboxSend_of_isSending (he : e.isSending = false) : e.isMboxSend = false := by
  cases e with
  | mboxSend _ _ _ => cases he
  | _ => rfl

/-! ## The sender -/

theorem Expects.fromPin (h : Expects th d pinIndex doSend payload es) :
    ∀ x ∈ sentPackets es, FromPin th x := by
  intro x hx
  obtain ⟨e, he, hsent⟩ := mem_sentPackets.1 hx
  cases h with
  | nothing => cases he
  | app _ _ _ _ _ =>
    obtain rfl := List.mem_singleton.1 he
    cases hsent
    exact .inl rfl
  | @targets _ pin m targets hpin happ htargets hsource hpayload =>
    obtain ⟨addr, haddr, rfl⟩ := List.mem_map.1 he
    cases hsent
    exact .inr ⟨d, pinIndex, pin, targets, hpin, happ, htargets, hsource, haddr, rfl⟩

/-- What was sent and what is owed comes from output pins. -/
theorem FanOut.fromPin (h : FanOut th l rest) :
    ∀ x ∈ sentPackets l + sentPackets rest, FromPin th x := by
  induction h with
  | nil => simp [sentPackets]
  | @other l rest e h he ih =>
    have hnone : sentPackets [e] = 0 :=
      sentPackets_eq_zero (by simpa using isMboxSend_of_isSending he)
    rw [sentPackets_append, hnone, add_zero]
    exact ih
  | @send l rest e h ih =>
    rw [sentPackets_append, add_assoc, ← sentPackets_append]
    exact ih
  | @onSend l h ih =>
    have hnone : sentPackets [(.onSend : Event A n)] = 0 := sentPackets_eq_zero (by
      simp [Event.isMboxSend])
    rw [sentPackets_append, hnone, add_zero]
    exact ih
  | @prepare l es d pinIndex doSend payload h hes ih =>
    have hnone : sentPackets (onSendEvents th d pinIndex doSend payload) = 0 :=
      sentPackets_eq_zero (by simp [onSendEvents, Event.isMboxSend])
    rw [sentPackets_append, hnone, add_zero]
    intro x hx
    rcases Multiset.mem_add.1 hx with hx | hx
    · exact ih x (Multiset.mem_add.2 (.inl hx))
    · exact hes.fromPin x hx

/-- The indices are those of the arrays, and fit the fields of an address. -/
structure Fits (th : PThread A n) : Prop where
  index : ∀ d, (th.device d).index = d
  devices : n ≤ 2 ^ 16
  pins : ∀ d, (th.device d).vtable.outputPins.length ≤ 2 ^ 8

/-- A source address tells the device and the pin. -/
theorem Fits.sendSource_inj (h : Fits th) {d' : Fin n} {pinIndex' : Nat}
    {pin' : OutputPinVTable A} (hpin : (th.device d).vtable.outputPins[pinIndex]? = some pin)
    (hpin' : (th.device d').vtable.outputPins[pinIndex']? = some pin')
    (heq : sendSource th d pinIndex pin = sendSource th d' pinIndex' pin') :
    d = d' ∧ pinIndex = pinIndex' := by
  have hdevice : BitVec.ofNat 16 d.val = BitVec.ofNat 16 d'.val := by
    rw [← h.index d, ← h.index d']
    exact congrArg Address.device heq
  have hpins : BitVec.ofNat 8 pinIndex = BitVec.ofNat 8 pinIndex' := congrArg Address.pin heq
  have hd := d.isLt.trans_le h.devices
  have hd' := d'.isLt.trans_le h.devices
  have hp := (List.getElem?_eq_some_iff.1 hpin).1.trans_le (h.pins d)
  have hp' := (List.getElem?_eq_some_iff.1 hpin').1.trans_le (h.pins d')
  have hdevice := congrArg BitVec.toNat hdevice
  have hpins := congrArg BitVec.toNat hpins
  rw [BitVec.toNat_ofNat, BitVec.toNat_ofNat, Nat.mod_eq_of_lt hd, Nat.mod_eq_of_lt hd'] at hdevice
  rw [BitVec.toNat_ofNat, BitVec.toNat_ofNat, Nat.mod_eq_of_lt hp, Nat.mod_eq_of_lt hp'] at hpins
  exact ⟨Fin.ext hdevice, hpins⟩

theorem sentPackets_fanOut {ts : List Address} {length : Nat} {m : Message A} :
    sentPackets (fanOut (n := n) ts length m) =
      (ts.map fun addr => ⟨addr.thread, { m with dest := addr }⟩ : List (Packet A)) := by
  unfold sentPackets fanOut
  rw [List.filterMap_map]
  congr 1
  induction ts with
  | nil => rfl
  | cons a ts ih => simp [Event.sent, ih]

section Count

variable [DecidableEq A.Payload]

/-- The packets that a call of `softswitch_onSend` leads to. -/
theorem Expects.count {d' : Fin n} {pinIndex' : Nat} {payload' : A.Payload}
    (h : Expects th d' pinIndex' doSend payload' es) (hfits : Fits th)
    (hpin : (th.device d).vtable.outputPins[pinIndex]? = some pin) (happ : pin.isApp = false)
    (htargets : (th.device d).targets[pinIndex]? = some targets)
    (hhost : dest.thread ≠ th.hostId) :
    (sentPackets es).countP (Packet.Carries · (sendSource th d pinIndex pin) dest payload) =
      if Event.IsReturn d pinIndex payload (.sendReturn d' pinIndex' doSend payload' : Event A n)
      then targets.targets.countP (sameAddress · dest) else 0 := by
  cases h with
  | nothing =>
    rw [if_neg fun h => by simp [Event.IsReturn] at h]
    rfl
  | @app _ pin' m hpin' happ' hsource htype hpayload =>
    have hno : ¬(⟨th.hostId, m⟩ : Packet A).Carries (sendSource th d pinIndex pin) dest payload :=
      fun h => hhost h.1.symm
    rw [if_neg ?_]
    · rw [show sentPackets [.mboxSend th.hostId 64 m] = {⟨th.hostId, m⟩} from rfl,
        Multiset.countP_eq_zero]
      intro x hx
      rw [Multiset.mem_singleton.1 hx]
      exact hno
    · rintro ⟨rfl, rfl, -, -⟩
      rw [hpin, Option.some.injEq] at hpin'
      simp [hpin', happ'] at happ
  | @targets _ pin' m targets' hpin' happ' htargets' hsource hpayload =>
    rw [sentPackets_fanOut, Multiset.coe_countP, List.countP_map]
    by_cases hfrom : m.source = sendSource th d pinIndex pin ∧ payload' = payload
    · obtain ⟨hd, hp⟩ := hfits.sendSource_inj hpin' hpin (hsource.symm.trans hfrom.1)
      subst hd hp
      rw [htargets, Option.some.injEq] at htargets'
      subst htargets'
      rw [if_pos ⟨rfl, rfl, rfl, hfrom.2⟩]
      refine List.countP_congr fun addr _ => ?_
      have hpay : m.payload = payload := hpayload.trans hfrom.2
      have hthread : sameAddress addr dest = true → addr.thread = dest.thread :=
        fun h => (sameAddress_iff.1 h).1
      simp only [Function.comp_apply, Packet.Carries, hfrom.1, hpay, decide_eq_true_eq, and_true]
      exact ⟨fun h => h.2, fun h => ⟨hthread h, h⟩⟩
    · rw [if_neg ?_, List.countP_eq_zero]
      · intro addr _ h
        have hcarries := of_decide_eq_true h
        exact hfrom ⟨hcarries.2.2.1, hpayload.symm.trans hcarries.2.2.2⟩
      · rintro ⟨rfl, rfl, -, hpay⟩
        rw [hpin, Option.some.injEq] at hpin'
        exact hfrom ⟨hpin' ▸ hsource, hpay⟩

theorem countP_singleton_isReturn :
    [e].countP (Event.IsReturn d pinIndex payload) =
      if e.IsReturn d pinIndex payload then 1 else 0 := by
  rw [List.countP_singleton]
  simp only [decide_eq_true_eq]

/-- What was sent to a target and what is owed to it is what was written, once for each time
the target is listed. -/
theorem FanOut.count (h : FanOut th l rest) (hfits : Fits th)
    (hpin : (th.device d).vtable.outputPins[pinIndex]? = some pin) (happ : pin.isApp = false)
    (htargets : (th.device d).targets[pinIndex]? = some targets)
    (hhost : dest.thread ≠ th.hostId) (payload : A.Payload) :
    (sentPackets l).countP (Packet.Carries · (sendSource th d pinIndex pin) dest payload) +
      (sentPackets rest).countP (Packet.Carries · (sendSource th d pinIndex pin) dest payload) =
      l.countP (Event.IsReturn d pinIndex payload) *
        targets.targets.countP (sameAddress · dest) := by
  induction h with
  | nil => simp [sentPackets]
  | @other l rest e h he ih =>
    have hnone : sentPackets [e] = 0 :=
      sentPackets_eq_zero (by simpa using isMboxSend_of_isSending he)
    have hreturn : ¬e.IsReturn d pinIndex payload := by
      cases e with
      | sendReturn _ _ _ _ => cases he
      | _ => exact not_false
    rw [sentPackets_append, hnone, add_zero, List.countP_append, countP_singleton_isReturn,
      if_neg hreturn, add_zero]
    exact ih
  | @send l rest e h ih =>
    have hreturn : ¬e.IsReturn d pinIndex payload := by
      have he := h.isMboxSend e List.mem_cons_self
      cases e with
      | mboxSend _ _ _ => exact not_false
      | _ => cases he
    have hcons : sentPackets (e :: rest) = sentPackets [e] + sentPackets rest :=
      sentPackets_append (l := [e])
    rw [hcons, Multiset.countP_add] at ih
    rw [sentPackets_append, Multiset.countP_add, List.countP_append, countP_singleton_isReturn,
      if_neg hreturn, add_zero, add_assoc]
    exact ih
  | @onSend l h ih =>
    have hnone : sentPackets [(.onSend : Event A n)] = 0 :=
      sentPackets_eq_zero (by simp [Event.isMboxSend])
    have honSend : ¬(.onSend : Event A n).IsReturn d pinIndex payload := fun h => h
    rw [sentPackets_append, hnone, add_zero, List.countP_append, countP_singleton_isReturn,
      if_neg honSend, add_zero]
    exact ih
  | @prepare l es d' pinIndex' doSend payload' h hes ih =>
    have hnone : sentPackets (onSendEvents th d' pinIndex' doSend payload') = 0 :=
      sentPackets_eq_zero (by simp [onSendEvents, Event.isMboxSend])
    have hreturns : (onSendEvents th d' pinIndex' doSend payload').countP
        (Event.IsReturn d pinIndex payload) =
        if Event.IsReturn d pinIndex payload (.sendReturn d' pinIndex' doSend payload' : Event A n)
        then 1 else 0 := by
      have honSend : ¬(.onSend : Event A n).IsReturn d pinIndex payload := fun h => h
      have henter : ∀ t, ¬(.enter .send d' t : Event A n).IsReturn d pinIndex payload :=
        fun _ h => h
      have hsplit : onSendEvents th d' pinIndex' doSend payload' = [.onSend] ++
          ([.enter .send d' ⟨(th.device d').index, 2, pinIndex'⟩] ++
            [.sendReturn d' pinIndex' doSend payload']) := rfl
      rw [hsplit, List.countP_append, List.countP_append, countP_singleton_isReturn,
        countP_singleton_isReturn, countP_singleton_isReturn, if_neg honSend, if_neg (henter _),
        zero_add, zero_add]
    have hnil : (sentPackets ([] : List (Event A n))).countP
        (Packet.Carries · (sendSource th d pinIndex pin) dest payload) = 0 := rfl
    rw [hnil, add_zero] at ih
    rw [sentPackets_append, hnone, add_zero, ih, List.countP_append, hreturns,
      hes.count hfits hpin happ htargets hhost, Nat.add_mul]
    split <;> simp

end Count

/-! ## The receiver -/

/-- A message is taken from the network, or given to a receive handler. -/
def Event.isReceiving : Event A n → Bool
  | .mboxRecv _ | .receiveCall _ _ _ _ _ _ => true
  | _ => false

/-- What one step of the main loop takes from the network it gives to the handler of the
device it is for, or drops because the device is external. -/
inductive Dispatches (th : PThread A n) : List (Event A n) → Prop
  | nothing {es : List (Event A n)} (h : ∀ e ∈ es, (!e.isReceiving) = true) : Dispatches th es
  | call {c : PThreadContext A n} {d : Fin n} {m : Message A} {target : ReceiveTarget A}
      (hd : Accepts th d m) : Dispatches th (.mboxRecv m :: receiveEvents c d m target)
  | drop {d : Fin n} {m : Message A} (hd : d.val = m.dest.device.toNat)
      (hext : (th.device d).isExternal.setWidth 8 ≠ 0#8) : Dispatches th [.mboxRecv m]

/-- Nothing is taken from the network or given to it. -/
def Event.isLocal (e : Event A n) : Bool := !e.isReceiving && !e.isMboxSend

theorem Event.isLocal_iff : e.isLocal = true ↔ e.isReceiving = false ∧ e.isMboxSend = false := by
  unfold Event.isLocal
  rw [Bool.and_eq_true, Bool.not_eq_true', Bool.not_eq_true']

theorem Event.isLocal_of_isEnter (he : e.isEnter = true) : e.isLocal = true := by
  cases e with
  | enter _ _ _ => rfl
  | _ => cases he

theorem Event.not_receiving_of_isLocal (he : e.isLocal = true) : (!e.isReceiving) = true := by
  rw [(isLocal_iff.1 he).1]
  rfl

theorem Prepares.records (h : Prepares th s s') : Records Event.isLocal s.ctxt s'.ctxt := by
  cases h with
  | busy _ => exact .of_eq rfl
  | fresh _ hsent =>
    rcases hsent with ⟨d, pinIndex, pin, r, h⟩ | ⟨-, -, -, -, -, -, h⟩
    · exact ⟨_, h.sig, by simp [sendEvents, Event.isLocal, Event.isReceiving, Event.isMboxSend]⟩
    · exact ⟨_, h, by simp [Event.isLocal, Event.isReceiving, Event.isMboxSend]⟩

theorem Delivers.records (h : Delivers th s s') (hbuild : th.build.enableIntraThreadSend = false) :
    Records (fun e => !e.isReceiving) s.ctxt s'.ctxt := by
  cases h with
  | app _ => exact ⟨_, mboxSent_sig, by simp [Event.isReceiving]⟩
  | target _ _ _ => exact ⟨_, mboxSent_sig, by simp [Event.isReceiving]⟩
  | direct h _ _ => simp [hbuild] at h

theorem Sends.records (h : Sends th s s') (hbuild : th.build.enableIntraThreadSend = false) :
    Records (fun e => !e.isReceiving) s.ctxt s'.ctxt := by
  cases h with
  | host _ =>
    have hsig : (hostMessageBufferPopSend th s.ctxt).sig = s.ctxt.sig ++ _ := sig_emit rfl
    exact ⟨_, hsig, by simp [Event.isReceiving]⟩
  | nothing hprep _ => exact hprep.records.mono fun _ => Event.not_receiving_of_isLocal
  | deliver hprep _ hdeliver =>
    exact (hprep.records.mono fun _ => Event.not_receiving_of_isLocal).trans
      (hdeliver.records hbuild)

theorem Stepped.dispatches (h : Stepped th s i s')
    (hbuild : th.build.enableIntraThreadSend = false) :
    ∃ es, s'.ctxt.sig = s.ctxt.sig ++ es ∧ Dispatches th es := by
  have hquiet : ∀ {c}, Records (fun e => !e.isReceiving) s.ctxt c →
      ∃ es, c.sig = s.ctxt.sig ++ es ∧ Dispatches th es := by
    rintro c ⟨es, hsig, hes⟩
    exact ⟨es, hsig, .nothing hes⟩
  have henter : ∀ e : Event A n, e.isEnter = true → (!e.isReceiving) = true :=
    fun _ he => Event.not_receiving_of_isLocal (Event.isLocal_of_isEnter he)
  cases h with
  | parked _ => exact hquiet (.of_eq rfl)
  | idle _ _ hidle => exact hquiet (hidle.enters.mono henter)
  | searchOver _ _ _ _ hperf => exact hquiet (.of_eq hperf.undisturbed.sig)
  | noIdle _ _ => exact hquiet (.of_eq rfl)
  | hardwareIdle _ _ hwait hidle =>
    exact hquiet ((Records.of_eq hwait.sig).trans
      ((softswitchOnHardwareIdle_enters hidle).mono henter))
  | @receive w c c' _ _ hwait hrecv =>
    have hemit : (c.emit (.mboxRecv i.message)).sig = s.ctxt.sig ++ [.mboxRecv i.message] := by
      rw [sig_emit rfl, hwait.sig]
    rcases hrecv with ⟨d, target, hd, -, h⟩ | ⟨d, hd, hext, -, -, -, -, hsig⟩
    · have hcall : c'.sig = s.ctxt.sig ++
          .mboxRecv i.message ::
            receiveEvents (c.emit (.mboxRecv i.message)) d i.message target := by
        rw [h.sig, hemit, List.append_assoc]
        rfl
      exact ⟨_, hcall, .call hd⟩
    · exact ⟨_, hsig.trans hemit, .drop hd hext⟩
  | send _ hwait hsend => exact hquiet ((Records.of_eq hwait.sig).trans (hsend.records hbuild))

theorem mem_receivedPackets : x ∈ receivedPackets th l ↔
    ∃ m, .mboxRecv m ∈ l ∧ x = ⟨th.myId, m⟩ := by
  unfold receivedPackets
  rw [Multiset.mem_coe, List.mem_filterMap]
  constructor
  · rintro ⟨e, he, hx⟩
    obtain ⟨m, hm, rfl⟩ := Option.map_eq_some_iff.1 hx
    cases e with
    | mboxRecv m' =>
      cases hm
      exact ⟨m, he, rfl⟩
    | _ => cases hm
  · rintro ⟨m, hm, rfl⟩
    exact ⟨.mboxRecv m, hm, rfl⟩

/-- Events that are not receives take nothing from the network. -/
theorem receivedPackets_eq_zero (h : ∀ e ∈ l, e.isReceiving = false) :
    receivedPackets th l = 0 := by
  apply Multiset.eq_zero_of_forall_notMem
  intro x hx
  obtain ⟨m, hm, -⟩ := mem_receivedPackets.1 hx
  cases h _ hm

section Count

variable [DecidableEq A.Payload]

/-- What is taken from the network for `dest` is what the handler at `dest` is called with. -/
theorem Dispatches.count (h : Dispatches th es) (hdest : dest.thread = th.myId)
    (hgood : ∀ m, .mboxRecv m ∈ es → m.dest.thread = th.myId ∧
      ∀ d : Fin n, d.val = m.dest.device.toNat → (th.device d).isExternal.setWidth 8 = 0#8) :
    es.countP (Event.IsCall (n := n) source dest payload) =
      (receivedPackets th es).countP (Packet.Carries · source dest payload) := by
  cases h with
  | nothing h =>
    have hreceived : receivedPackets th es = 0 := receivedPackets_eq_zero fun e he => by
      simpa using h e he
    rw [hreceived, Multiset.countP_zero, List.countP_eq_zero]
    intro e he hcall
    have hno := h e he
    cases e with
    | receiveCall _ _ _ _ _ _ => cases hno
    | _ => exact of_decide_eq_true hcall
  | @call c d m target hd =>
    obtain ⟨hthread, -⟩ := hgood m List.mem_cons_self
    have hiff : Event.IsCall source dest payload (.receiveCall d m.dest.pin.toNat m.source
        target.eProps (target.eState.map c.edgeState) m.payload : Event A n) ↔
        (⟨th.myId, m⟩ : Packet A).Carries source dest payload := by
      unfold Event.IsCall Packet.Carries
      simp only [hd.1, sameAddress_iff, hthread, hdest, BitVec.toNat_inj, true_and, and_assoc]
    have hrecv : ¬Event.IsCall source dest payload (.mboxRecv m : Event A n) := fun h => h
    have henter : ∀ t, ¬Event.IsCall source dest payload (.enter .receive d t : Event A n) :=
      fun _ h => h
    have hreceived : receivedPackets th (.mboxRecv m :: receiveEvents c d m target) =
        {⟨th.myId, m⟩} := rfl
    rw [hreceived, ← Multiset.cons_zero, Multiset.countP_cons, Multiset.countP_zero, receiveEvents]
    simp only [List.countP_cons, List.countP_nil, decide_eq_true_eq, if_neg hrecv,
      if_neg (henter _), hiff, zero_add, add_zero]
  | @drop d m hd hext => exact absurd ((hgood m List.mem_cons_self).2 d hd) hext

end Count

end Softswitch
