import Softswitch.Verify.Asserts
import Softswitch.Verify.Termination

/-!
# One send opportunity

A send takes the first device off the RTS list and calls the send handler of its lowest flag.  On
the list are devices that want to send, so that flag is not the one that asks for a computation,
and where no readiness handler asks for a pin that its device does not have, it is the flag of an
output pin.
-/

namespace Softswitch

open Outcome Function

variable {A : AppTypes} {n : Nat} {th : PThread A n} {c₀ c c' : PThreadContext A n}
  {d : Fin n} {q : List (Fin n)} {m : Message A} {isApp : Bool} {x : BitVec 32} {k : Nat}

/-! ## The lowest bit -/

/-- `k` is the index of the lowest bit of `x`. -/
structure LowestBit (x : BitVec 32) (k : Nat) : Prop where
  bit : x.getLsbD k = true
  least : ∀ j < k, x.getLsbD j = false

theorem rightMostOneFrom_lowest {fuel index : Nat}
    (h : rightMostOneFrom fuel index x = some k) : ∃ j, k = index + j ∧ LowestBit x j := by
  induction fuel generalizing index x with
  | zero => cases h
  | succ fuel ih =>
    unfold rightMostOneFrom at h
    have hlow : (x &&& 1#32).getLsbD 0 = x.getLsbD 0 := by simp
    split at h
    · rename_i heven
      obtain ⟨j, hk, hj⟩ := ih h
      have hshift : ∀ i, (x >>> 1).getLsbD i = x.getLsbD (i + 1) := by
        intro i
        rw [BitVec.getLsbD_ushiftRight, Nat.add_comm]
      refine ⟨j + 1, by omega, (hshift j).symm.trans hj.bit, fun i hi => ?_⟩
      cases i with
      | zero => rw [← hlow, heven]; rfl
      | succ i => rw [← hshift]; exact hj.least i (by omega)
    · rename_i hodd
      cases h
      refine ⟨0, rfl, ?_, fun i hi => absurd hi (Nat.not_lt_zero i)⟩
      by_contra hzero
      refine hodd (BitVec.eq_of_getLsbD_eq fun i _ => ?_)
      cases i with
      | zero => simpa using hzero
      | succ i => simp

/-- In a word that has one of the lower bits, the lowest bit is one of them. -/
theorem LowestBit.lt (h : LowestBit x k) (hw : wantsSend x = true) : k < 31 := by
  by_contra hk
  have hzero : x &&& 0x7FFFFFFF#32 = 0#32 := by
    refine BitVec.eq_of_getLsbD_eq fun i hi => ?_
    rw [BitVec.getLsbD_and]
    rcases Nat.lt_or_ge i 31 with hlt | hge
    · rw [h.least i (by omega), Bool.false_and, BitVec.getLsbD_zero]
    · obtain rfl : i = 31 := by omega
      rw [show (0x7FFFFFFF#32).getLsbD 31 = false from by decide, Bool.and_false,
        BitVec.getLsbD_zero]
  rw [wantsSend, hzero] at hw
  cases hw

/-! ## Flags are answers of the readiness handlers -/

section Answers

variable {P : Fin n → BitVec 32 → Prop} (hanswer : ∀ d s, P d (readyResult th d s).flags)

include hanswer

/-- What holds of every answer, an event keeps. -/
theorem Happened.answers {e : ThreadEvent A} (h : Happened th c c' e)
    (hc : ∀ d, P d (c.flags d)) : ∀ d, P d (c'.flags d) := by
  refine h.keeps (I := fun _ flags => ∀ d, P d (flags d)) (fun _ flags d s hflags e => ?_) hc
  by_cases he : e = d
  · subst he
    rw [update_self]
    exact hanswer e s
  · rw [update_of_ne he]
    exact hflags e

theorem Reachable.answers (h : Reachable th c₀ c) : ∀ d, P d (c.flags d) := by
  induction h with
  | init h =>
    intro d
    rw [(softswitchInit_initialised h).flags d d.isLt]
    exact hanswer d _
  | step _ e _ hstep ih => exact (threadStep_happened hstep).answers hanswer ih

end Answers

/-- The readiness handler of a device asks only for output pins that the device has. -/
def PThread.AsksForPins (th : PThread A n) : Prop :=
  ∀ d s, ∀ k < 31, (readyResult th d s).flags.getLsbD k = true →
    k < (th.device d).vtable.outputPins.length

/-! ## The send -/

/-- The services that the handlers of `d` call in a send from pin `k` return. -/
def SendServicesReturn (th : PThread A n) (c : PThreadContext A n) (m : Message A) (d : Fin n)
    (k : Nat) (pin : OutputPinVTable A) : Prop :=
  ∀ c₁, softswitchPopRTS th ((c.tick th).emit .onSend) = .ok (some d, c₁) →
    ∃ r c₂ f, callSend th (trackSend c₁ (th.device d).index k) d k pin m.payload = .ok (r, c₂) ∧
      callReadyToSend th (c₂.setRtsFlags d 0#32) d = .ok f

/-- A send from pin `k` of `d`, whose send handler returned `r`; the devices `q` are behind `d` on
the list. -/
structure SendsOnce (th : PThread A n) (c : PThreadContext A n) (d : Fin n) (q : List (Fin n))
    (k : Nat) (pin : OutputPinVTable A) (r : SendResult A.DevState A.Payload)
    (out : Nat × PThreadContext A n × SendState A) : Prop where
  size : out.1 = pin.messageSize
  calls : out.2.1.sig = c.sig ++ sendEvents th d k r
  numTargets : out.2.2.numTargets = 0 ↔ r.doSend = false ∨
    pin.isApp = false ∧ ∃ t, (th.device d).targets[k]? = some t ∧ t.targets = []
  queue : IsQueue out.2.1 (if wantsSend (readyResult th d r.state).flags then q ++ [d] else q)
  rtcChecked : wantsCompute (readyResult th d r.state).flags = true → out.2.1.rtcChecked = 0
  states : out.2.1.states = update c.states d (readyResult th d r.state).state
  flags : out.2.1.flags = update c.flags d (readyResult th d r.state).flags

theorem Prepared.numTargets_eq_zero_iff {pin : OutputPinVTable A}
    {r : SendResult A.DevState A.Payload} {s : SendState A}
    (h : Prepared th d k pin r (noSend m isApp) s) :
    s.numTargets = 0 ↔ r.doSend = false ∨
      pin.isApp = false ∧ ∃ t, (th.device d).targets[k]? = some t ∧ t.targets = [] := by
  unfold Prepared at h
  cases hsend : r.doSend with
  | false =>
    rw [hsend] at h
    cases h
    simp [noSend]
  | true =>
    rw [hsend] at h
    cases happ : pin.isApp with
    | true =>
      rw [happ] at h
      cases h
      simp
    | false =>
      rw [happ] at h
      obtain ⟨t, ht, rfl⟩ := h
      simp [ht]

theorem SentFrom.sendsOnce {pin : OutputPinVTable A} {r : SendResult A.DevState A.Payload}
    {size : Nat} {s : SendState A} (h : SentFrom th c d k pin r (noSend m isApp) size c' s)
    (hq : IsQueue c (d :: q)) : SendsOnce th c d q k pin r (size, c', s) where
  size := h.size_eq
  calls := h.sig
  numTargets := h.prepared.numTargets_eq_zero_iff
  queue := by
    have hqueue := h.isQueue hq
    unfold requeue at hqueue
    cases hw : wantsSend (readyResult th d r.state).flags with
    | true => simpa [hw] using hqueue
    | false => simpa [hw] using hqueue
  rtcChecked hw := by rw [h.rtcChecked, if_pos hw]
  states := h.states
  flags := h.flags

/-- A send with the device `d` at the head of the list is one from it. -/
theorem softswitchOnSend_sendsOnce {pin : OutputPinVTable A}
    {out : Nat × PThreadContext A n × SendState A} (hq : IsQueue c (d :: q))
    (hbit : rightMostOneFrom 32 0 (c.flags d) = some k)
    (hpin : (th.device d).vtable.outputPins[k]? = some pin)
    (hok : softswitchOnSend th c m isApp = .ok out) :
    SendsOnce th c d q k pin (sendResult th c d pin m.payload) out := by
  have hhead : c.rtsHead = some d := hq.rtsHead_eq
  obtain ⟨size, c', s⟩ := out
  rcases softswitchOnSend_sat.of_ok hok with ⟨e, j, pin', r, h⟩ | ⟨hnone, -⟩
  · obtain rfl : d = e := Option.some.inj (hhead.symm.trans h.head)
    obtain rfl : k = j := Option.some.inj (hbit.symm.trans h.pinIndex_eq)
    obtain rfl : pin = pin' := Option.some.inj (hpin.symm.trans h.pin_eq)
    obtain rfl : r = sendResult th c d pin m.payload := h.result_eq
    exact h.sendsOnce hq
  · cases hhead.symm.trans hnone

theorem writeHeader_returns {pin : OutputPinVTable A} {r : SendResult A.DevState A.Payload}
    {s : SendState A} (htargets : k < (th.device d).targets.length) :
    ∃ s', writeHeader th c d k pin r s = .ok s' := by
  unfold writeHeader
  rw [List.getElem?_eq_getElem htargets]
  split
  · split
    · exact ⟨_, rfl⟩
    · exact ⟨_, rfl⟩
  · exact ⟨_, rfl⟩

/-- The send returns, where the services do. -/
theorem softswitchOnSend_returns {pin : OutputPinVTable A} (hq : IsQueue c (d :: q))
    (hbit : rightMostOneFrom 32 0 (c.flags d) = some k)
    (hpin : (th.device d).vtable.outputPins[k]? = some pin)
    (hreturn : SendServicesReturn th c m d k pin)
    (hsize : th.build.asserts = true → th.sizeofPacketHeader ≤ pin.messageSize)
    (htargets : k < (th.device d).targets.length) :
    ∃ out, softswitchOnSend th c m isApp = .ok out := by
  have hq₀ : IsQueue ((c.tick th).emit .onSend) (d :: q) := hq.of_links_flags rfl rfl
  obtain ⟨c₁, hpop, hlinks, hrep⟩ := softswitchPopRTS_ok th hq₀
  obtain ⟨r, c₂, f, hcall, hready⟩ := hreturn c₁ hpop
  have hran := (callSend_sat.of_ok hcall).2
  have hflags : (c₁.devices d).rtsFlags = c.flags d := congrFun hlinks.flags_eq d
  have hcheck : th.check c₂ .onSendSize (decide (th.sizeofPacketHeader ≤ pin.messageSize)) =
      .ok () := by
    cases ha : th.build.asserts with
    | false => exact check_of_noAsserts ha
    | true => rw [decide_eq_true (hsize ha), check_true]
  obtain ⟨s, hheader⟩ : ∃ s, writeHeader th c₂ d k pin r (noSend m isApp) = .ok s :=
    writeHeader_returns htargets
  have hq₂ : IsQueue (c₂.setRtsFlags d 0#32) q :=
    hq₀.popped (hrep.congr hran.keeps.links) (hran.keeps.flags.trans hlinks.flags_eq)
  have hd : d ∉ q := (List.nodup_cons.1 hq.rep.nodup).1
  -- with its flags cleared the device is one that is not on the list
  obtain ⟨c₃, hupdate⟩ : ∃ c₃, softswitchUpdateRTS th (c₂.setRtsFlags d 0#32) d = .ok c₃ :=
    softswitchUpdateRTS_returns hq₂ hready fun _ hw => by simp at hw
  refine ⟨(pin.messageSize, c₃.addCycles th (tinselCycleCount th c) fun p t =>
    { p with sendCycles := p.sendCycles + t }, s), ?_⟩
  unfold softswitchOnSend
  dsimp only
  rw [hpop, ok_bind]
  dsimp only [List.head?_cons]
  rw [hflags, ne_zero_of_rightMostOneFrom hbit, check_true, ok_bind, rightMostOne_ok hbit, ok_bind,
    hpin]
  show callSend th (trackSend c₁ (th.device d).index k) d k pin m.payload >>= _ = _
  rw [hcall, ok_bind]
  rw [hcheck, ok_bind]
  show writeHeader th c₂ d k pin r (noSend m isApp) >>= _ = _
  rw [hheader, ok_bind, rtsIsOnList_eq hq₂.rep, ok_bind, decide_eq_false hd, Bool.not_false,
    checkM_ok, ok_bind, hupdate]
  rfl

/-- With an empty list nothing is sent.  Else the first device is taken off, and the send handler of
its lowest flag is called, which is that of an output pin; the device goes to the end of the list if
it wants to send again, and the other devices are left alone. -/
theorem oneSendOpportunity (hasks : th.AsksForPins) (h : Reachable th c₀ c) :
    (c.rtsHead = none →
      softswitchOnSend th c m isApp = .ok (0, (c.tick th).emit .onSend, noSend m isApp)) ∧
    ∀ d, c.rtsHead = some d → ∃ q k pin, IsQueue c (d :: q) ∧ LowestBit (c.flags d) k ∧ k < 31 ∧
      (th.device d).vtable.outputPins[k]? = some pin ∧
      (∀ out, softswitchOnSend th c m isApp = .ok out →
        SendsOnce th c d q k pin (sendResult th c d pin m.payload) out) ∧
      (SendServicesReturn th c m d k pin →
        (th.build.asserts = true → th.sizeofPacketHeader ≤ pin.messageSize) →
        k < (th.device d).targets.length → ∃ out, softswitchOnSend th c m isApp = .ok out) := by
  obtain ⟨q, hq⟩ := h.isQueue
  constructor
  · intro hnone
    obtain rfl : q = [] := hq.rep.head_eq_none_iff.1 hnone
    have hq₀ : IsQueue ((c.tick th).emit .onSend) [] := hq.of_links_flags rfl rfl
    unfold softswitchOnSend
    dsimp only
    rw [softswitchPopRTS_nil th hq₀]
    rfl
  · intro d hd
    obtain ⟨q, rfl⟩ := hq.eq_cons hd
    have hwants : wantsSend (c.flags d) = true := hq.wantsSend_of_mem d List.mem_cons_self
    obtain ⟨k, hbit⟩ := rightMostOneFrom_of_wantsSend hwants
    have hlowest : LowestBit (c.flags d) k := by
      obtain ⟨j, hk, hj⟩ := rightMostOneFrom_lowest hbit
      obtain rfl : k = j := by omega
      exact hj
    have hk := hlowest.lt hwants
    have hpins : ∀ e, ∀ j < 31, (c.flags e).getLsbD j = true →
        j < (th.device e).vtable.outputPins.length :=
      h.answers (P := fun e f => ∀ j < 31, f.getLsbD j = true →
        j < (th.device e).vtable.outputPins.length) hasks
    have hpin := List.getElem?_eq_getElem (hpins d k hk hlowest.bit)
    refine ⟨q, k, _, hq, hlowest, hk, hpin, fun out hok => ?_, fun hreturn hsize htargets => ?_⟩
    · exact softswitchOnSend_sendsOnce hq hbit hpin hok
    · exact softswitchOnSend_returns hq hbit hpin hreturn hsize htargets

/-- Devices that ask for no more than a send from their pin and a computation. -/
def maskedVTable : DeviceTypeVTable flagsApp :=
  { flagsVTable with
    readyToSendHandler := fun _ _ s => ⟨⟨s, []⟩, BitVec.and s 0x80000001#32⟩ }

def maskedThread : PThread flagsApp 2 :=
  { flagsThread (defaultBuild true) with
    device := fun d => { (flagsThread (defaultBuild true)).device d with vtable := maskedVTable }
    devices_fit := flagsThread_fits }

/-- A mask leaves no more pins than it has bits. -/
theorem lt_of_and {s mask : BitVec 32} (hmask : ∀ k < 31, mask.getLsbD k = true → k < n)
    (hk : k < 31) (hbit : (BitVec.and s mask).getLsbD k = true) : k < n := by
  have hand : (s &&& mask).getLsbD k = true := hbit
  rw [BitVec.getLsbD_and, Bool.and_eq_true] at hand
  exact hmask k hk hand.2

/-- Of the pins only the first is asked for. -/
theorem masked_lt {s : BitVec 32} (hk : k < 31)
    (hbit : (BitVec.and s 0x80000001#32).getLsbD k = true) : k < 1 :=
  lt_of_and (by decide) hk hbit

theorem maskedThread_asksForPins : maskedThread.AsksForPins := fun _ _ _ hk hbit =>
  masked_lt hk hbit

/-- Both devices want to send and to compute. -/
def maskedContext : PThreadContext flagsApp 2 :=
  lastContext (softswitchInit maskedThread (flagsContext 0x80000001#32 0x80000001#32))

theorem oneSendOpportunity_masked : ∃ q k pin out, IsQueue maskedContext (0 :: q) ∧
    LowestBit 0x80000001#32 k ∧ k < 31 ∧
    softswitchOnSend maskedThread maskedContext (flagsMessage 0#16 0#32) false = .ok out ∧
    SendsOnce maskedThread maskedContext 0 q k pin
      (sendResult maskedThread maskedContext 0 pin (flagsMessage 0#16 0#32).payload) out := by
  have hreach : Reachable maskedThread (flagsContext 0x80000001#32 0x80000001#32) maskedContext :=
    .init rfl
  obtain ⟨q, k, pin, hq, hlowest, hk, hpin, hsends, hreturns⟩ :=
    (@oneSendOpportunity _ _ maskedThread _ maskedContext (flagsMessage 0#16 0#32) false
      maskedThread_asksForPins hreach).2 0 rfl
  obtain ⟨hlt, -⟩ := List.getElem?_eq_some_iff.1 hpin
  obtain rfl : k = 0 := Nat.lt_one_iff.1 hlt
  cases hpin
  have hservices : SendServicesReturn maskedThread maskedContext (flagsMessage 0#16 0#32) 0 0
      ⟨fun _ _ _ _ => ⟨⟨0#32, []⟩, true, 1#32⟩, 20, 0#32, false, 0#16⟩ :=
    fun c₁ _ => ⟨_, _, _, rfl, rfl⟩
  obtain ⟨out, hok⟩ := hreturns hservices (fun _ => by decide) (by decide)
  exact ⟨q, 0, _, out, hq, hlowest, hk, hok, hsends out hok⟩

end Softswitch
