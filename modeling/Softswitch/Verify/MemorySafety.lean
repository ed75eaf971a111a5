import Softswitch.Verify.Refinement
import Softswitch.Verify.SendOpportunity
import Softswitch.Verify.Trace
import Softswitch.Verify.Trades

/-!
# No bad memory access

The tables of a thread are read with indices from its own state (the flags of a device, the
tracking fields, the pointer into an address list) and from the messages that arrive.  Where the
tables are complete and the messages come from the threads of a well-placed graph, no step of the
main loop follows a null pointer or reads outside an array, with or without assertions.  Only a
message of an application pin must not be due (`Main.SendsApp`) in a build that reads the address
list for it (`PThread.readsForApp`).
-/

namespace Softswitch

open Outcome IntrusiveList Function

variable {A : AppTypes} {n : Nat} {α β : Type} {th : PThread A n} {c c' : PThreadContext A n}
  {s s' : Main A n} {i : LoopInput A} {w : WaitLocals} {d : Fin n} {q : List (Fin n)}
  {m : Message A}

/-- `x` follows no null pointer and reads nothing outside an array. -/
def Safe (x : Outcome A n α) : Prop := Sat x (fun _ => True) fun s => s.fault.isMemory = false

namespace Safe

theorem ok {a : α} : Safe (.ok a : Outcome A n α) := trivial

theorem bind {x : Outcome A n α} {f : α → Outcome A n β} (hx : Safe x)
    (hf : ∀ a, x = .ok a → Safe (f a)) : Safe (x >>= f) :=
  Sat.bind hx fun a ha _ => hf a ha

theorem of_eq {x : Outcome A n α} {a : α} (h : x = .ok a) : Safe x := h ▸ ok

theorem check {a : Assertion} {ok : Bool} : Safe (th.check c a ok) := by
  refine check_sat.mono (fun _ _ => trivial) ?_
  rintro s ⟨rfl, -⟩
  rfl

/-- `assert` of whether a device is listed: the walk along the list ends or goes round. -/
theorem checkM_onList {a : Assertion} {f : Bool → Bool} :
    Safe (th.checkM c a (rtsIsOnList c d >>= fun b => .ok (f b))) := by
  have hwalk : ∀ fuel p, Safe (rtsIsOnListFrom c d fuel p) := by
    intro fuel
    induction fuel with
    | zero => exact fun p => by cases p <;> trivial
    | succ fuel ih =>
      intro p
      cases p with
      | none => exact ok
      | some curr =>
        unfold rtsIsOnListFrom
        split
        · exact ok
        · exact ih _
  unfold PThread.checkM
  split
  · exact ((hwalk _ _).bind fun _ _ => ok).bind fun _ _ => check
  · exact ok

theorem checkOnList {a : Assertion} : Safe (checkOnList th c a d) := checkM_onList

/-- A loop whose body is safe and keeps an invariant. -/
theorem foldlM {σ ι : Type} {f : σ → ι → Outcome A n σ} {I : σ → Prop} {is : List ι}
    (hf : ∀ s i, I s → Safe (f s i)) (hI : ∀ s i s', I s → f s i = .ok s' → I s') {s : σ}
    (hs : I s) : Safe (is.foldlM f s) := by
  refine Sat.mono (Q := I) ?_ (fun _ _ => trivial) fun _ h => h
  refine Sat.foldlM (fun t i _ ht => ?_) hs
  have hend := hf t i ht
  cases hx : f t i with
  | ok t' => exact hI t i t' ht hx
  | error e =>
    rw [hx] at hend
    exact hend

end Safe

/-! ## Services -/

/-- The log of a handler finds the device and the pin. -/
theorem softswitchHandlerLogImpl_safe {level : Int} {pc msg : BitVec 32}
    {params : List (BitVec 32)} (ht : NamesHandler th c.toTracking) :
    Safe (softswitchHandlerLogImpl th c level pc msg params) := by
  obtain ⟨d, hd, hin, hout⟩ := ht
  have hpin : Safe (logPinName th c (th.device d)) := by
    unfold logPinName
    split
    · rename_i htype
      rw [List.getElem?_eq_getElem (hin htype)]
      exact Safe.ok
    · split
      · rename_i htype
        rw [List.getElem?_eq_getElem (hout htype)]
        exact Safe.ok
      · exact Safe.ok
  refine Safe.check.bind fun _ _ => Safe.check.bind fun _ _ => ?_
  split
  · exact Safe.ok
  · have hlt : c.currentDevice < n := hd ▸ d.isLt
    have hdev : (⟨c.currentDevice, hlt⟩ : Fin n) = d := Fin.ext hd
    rw [dif_pos hlt, hdev]
    exact hpin.bind fun _ _ => Safe.check.bind fun _ _ => Safe.ok

theorem drainHostBuffer_safe {fuel : Nat} : Safe (drainHostBuffer fuel c) := by
  induction fuel generalizing c with
  | zero =>
    unfold drainHostBuffer
    split
    · exact rfl
    · exact Safe.ok
  | succ fuel ih =>
    unfold drainHostBuffer
    split
    · exact ih
    · exact Safe.ok

theorem runCall_safe {call : HandlerCall} (ht : NamesHandler th c.toTracking) :
    Safe (runCall th c call) := by
  cases call with
  | handlerLog level pc msg params => exact softswitchHandlerLogImpl_safe ht
  | hostMsgBufferPush msg => exact Safe.ok
  | handlerExit code => exact drainHostBuffer_safe.bind fun _ _ => Safe.ok
  | assert ok => exact Safe.check.bind fun _ _ => Safe.ok

/-- The services of a handler are safe. -/
theorem runCalls_safe {calls : List HandlerCall} (ht : NamesHandler th c.toTracking) :
    Safe (runCalls th c calls) := by
  refine Safe.foldlM (I := fun c => NamesHandler th c.toTracking)
    (fun s call hs => runCall_safe hs) (fun s call s' hs hok => ?_) ht
  rw [(runCall_service.of_ok hok).frame.tracking]
  exact hs

/-! ## Readiness -/

theorem callReadyToSend_safe (ht : NamesHandler th c.toTracking) :
    Safe (callReadyToSend th c d) := by
  unfold callReadyToSend
  exact (runCalls_safe (c := c.setState d _) ht).bind fun _ _ => Safe.ok

/-- On a queue the links are followed only where they lead to a device. -/
theorem softswitchUpdateRTS_safe (hq : IsQueue c q) (ht : NamesHandler th c.toTracking) :
    Safe (softswitchUpdateRTS th c d) := by
  have hready : Safe (callReadyToSend th c d) := callReadyToSend_safe ht
  cases hr : callReadyToSend th c d with
  | error s =>
    rw [(softswitchUpdateRTS_error hq hr).1]
    rwa [hr] at hready
  | ok r =>
    by_cases hstops : th.build.asserts = true ∧ wantsSend (c.flags d) = true ∧
        wantsSend r.1 = false
    · obtain ⟨ha, hold, hnow⟩ := hstops
      rw [softswitchUpdateRTS_stops ha hq hr hold hnow]
      exact rfl
    · obtain ⟨c', hok⟩ := softswitchUpdateRTS_returns hq hr fun ha hold => by
        by_contra hnow
        exact hstops ⟨ha, hold, Bool.eq_false_iff.2 hnow⟩
      exact Safe.of_eq hok

/-! ## Receiving -/

/-- The device that a message is for has the pin, and the edge where there is edge data. -/
theorem receiveTarget_safe (hm : Deliverable th m) (hd : d.val = m.dest.device.toNat) :
    Safe (receiveTarget th c d m) := by
  obtain ⟨e, pin, ⟨he, -⟩, hpin, hedge⟩ := hm
  obtain rfl : d = e := Fin.ext (hd.trans he.symm)
  unfold receiveTarget
  refine Safe.check.bind fun _ _ => ?_
  rw [hpin]
  show Safe (if pin.propertiesSize.setWidth 32 ||| pin.stateSize.setWidth 32 = 0#32 then _ else _)
  split
  · exact Safe.ok
  · rename_i hdata
    obtain ⟨sources, hsources, edge, -, -, hfind⟩ := hedge hdata
    rw [hsources]
    refine Safe.bind Safe.ok fun _ h => ?_
    cases h
    rw [hfind c]
    exact Safe.bind Safe.ok fun _ _ => Safe.check.bind fun _ _ => Safe.check.bind fun _ _ => Safe.ok

theorem callReceive_safe {target : ReceiveTarget A}
    (hpin : (th.device d).vtable.inputPins[m.dest.pin.toNat]? = some target.pin) :
    Safe (callReceive th c d m target) := by
  have ht : NamesHandler th ⟨d, 1, m.dest.pin.toNat⟩ := .receive hpin
  have hstore : ∀ (c : PThreadContext A n) p σ,
      (storeEdgeState c p σ).toTracking = c.toTracking := by
    intro c p σ
    obtain ⟨e, he⟩ := storeEdgeState_eq (c := c) (p := p) (s := σ)
    rw [he]
  unfold callReceive
  refine Safe.bind (runCalls_safe ?_) fun _ _ => Safe.ok
  rw [hstore]
  exact ht

theorem softswitchOnReceive_safe (hm : Deliverable th m) (hq : IsQueue c q) :
    Safe (softswitchOnReceive th c m) := by
  obtain ⟨e, pin, ⟨he, hext⟩, -⟩ := id hm
  unfold softswitchOnReceive
  refine Safe.check.bind fun _ _ => Safe.check.bind fun _ _ => ?_
  have hlt : m.dest.device.toNat < n := he ▸ e.isLt
  have hdev : (⟨m.dest.device.toNat, hlt⟩ : Fin n) = e := Fin.ext he.symm
  rw [dif_pos hlt]
  rw [hdev, if_neg (by simpa using hext)]
  refine Safe.bind ?_ fun c₁ h₁ => Safe.checkOnList.bind fun _ _ => ?_
  · exact (receiveTarget_safe hm he).bind fun target htarget =>
      callReceive_safe (receiveTarget_pin htarget)
  · obtain ⟨target, htarget, hran⟩ := dispatchReceive_sat.of_ok h₁
    have hq₁ : IsQueue c₁ q := hran.keeps.isQueue (hq.of_links_flags rfl rfl)
    refine (softswitchUpdateRTS_safe hq₁ ?_).bind fun _ _ =>
      Safe.checkOnList.bind fun _ _ => Safe.ok
    rw [hran.tracking]
    exact .receive (receiveTarget_pin htarget)

/-! ## Tables -/

/-- The tables of a thread name what is there: a device knows its index and asks only for pins
that it has, and an output pin for devices has a list of targets. -/
structure Tables (th : PThread A n) : Prop where
  index : ∀ d, (th.device d).index = d
  asks : th.AsksForPins
  targets : ∀ d k pin, (th.device d).vtable.outputPins[k]? = some pin → pin.isApp = false →
    k < (th.device d).targets.length

/-- Such tables, where no pin is for the host in a build that logs its deliveries. -/
structure Complete (th : PThread A n) : Prop extends Tables th where
  logging : th.logs 3 = true → ∀ d, ∀ pin ∈ (th.device d).vtable.outputPins, pin.isApp = false

/-- A delivery reads the address list also for a message of an application pin. -/
def PThread.readsForApp (th : PThread A n) : Bool :=
  th.logs 3 || th.build.enableIntraThreadSend

/-- The message that is due is one of an application pin: one that is being sent, or else one
that the first device of the list is going to send. -/
def Main.SendsApp (th : PThread A n) (s : Main A n) : Prop :=
  ∃ w, s.pc = .wait w ∧ w.hostBufferEmpty = true ∧
    if s.currSendTodo = 0 then
      ∃ d k pin, s.ctxt.rtsHead = some d ∧ rightMostOneFrom 32 0 (s.ctxt.flags d) = some k ∧
        (th.device d).vtable.outputPins[k]? = some pin ∧ pin.isApp = true ∧
        (sendResult th s.ctxt d pin s.sendBuffer.payload).doSend = true
    else s.isApp = true

/-- The flags of a device are those of pins that it has. -/
def FlagsOfPins (th : PThread A n) (d : Fin n) (flags : BitVec 32) : Prop :=
  ∀ k < 31, flags.getLsbD k = true → k < (th.device d).vtable.outputPins.length

/-! ## Sending -/

theorem callSend_safe {k : Nat} {pin : OutputPinVTable A} {payload : A.Payload}
    (ht : NamesHandler th c.toTracking) : Safe (callSend th c d k pin payload) := by
  unfold callSend
  exact (runCalls_safe (c := ((c.tick th).enter .send d).setState d _) ht).bind fun _ _ => Safe.ok

theorem writeHeader_safe {k : Nat} {pin : OutputPinVTable A}
    {r : SendResult A.DevState A.Payload} {st : SendState A}
    (htargets : pin.isApp = false → k < (th.device d).targets.length) :
    Safe (writeHeader th c d k pin r st) := by
  unfold writeHeader
  split
  · split
    · exact Safe.ok
    · rename_i happ
      rw [List.getElem?_eq_getElem (htargets (by simpa using happ))]
      exact Safe.ok
  · exact Safe.ok

/-- The device at the head of the list asks for a pin that it has. -/
theorem softswitchOnSend_safe {isApp : Bool} (hth : Tables th) (hq : IsQueue c q)
    (hflags : ∀ d, FlagsOfPins th d (c.flags d)) : Safe (softswitchOnSend th c m isApp) := by
  have hq₀ : IsQueue ((c.tick th).emit .onSend) q := hq.of_links_flags rfl rfl
  obtain ⟨c₁, hpop, hlinks, hrep⟩ := softswitchPopRTS_ok th hq₀
  unfold softswitchOnSend
  dsimp only
  rw [hpop, ok_bind]
  cases q with
  | nil => exact Safe.ok
  | cons d q =>
    have hd : (c₁.devices d).rtsFlags = c.flags d := congrFun hlinks.flags_eq d
    have hwants : wantsSend (c.flags d) = true := hq.wantsSend_of_mem d List.mem_cons_self
    obtain ⟨k, hk⟩ := rightMostOneFrom_of_wantsSend hwants
    obtain ⟨j, rfl, hlowest⟩ := rightMostOneFrom_lowest hk
    rw [zero_add] at hk
    have hlt : j < (th.device d).vtable.outputPins.length :=
      hflags d j (hlowest.lt hwants) hlowest.bit
    dsimp only [List.head?_cons]
    rw [hd, rightMostOne_ok hk]
    refine Safe.check.bind fun _ _ => Safe.bind Safe.ok fun _ h => ?_
    cases h
    rw [List.getElem?_eq_getElem hlt]
    refine Safe.bind Safe.ok fun pin h => ?_
    obtain rfl := Except.ok.inj h
    have hpin := List.getElem?_eq_getElem hlt
    have htrack : NamesHandler th (trackSend c₁ (th.device d).index j).toTracking :=
      ⟨d, hth.index d, fun h => (by cases h), fun _ => hlt⟩
    refine (callSend_safe htrack).bind fun r hr => Safe.check.bind fun _ _ => ?_
    have hran := (callSend_sat.of_ok hr).2
    refine (writeHeader_safe fun happ => hth.targets d j _ hpin happ).bind fun s' _ => ?_
    have hq₂ : IsQueue (r.2.setRtsFlags d 0#32) q :=
      hq₀.popped (hrep.congr hran.keeps.links) (hran.keeps.flags.trans hlinks.flags_eq)
    refine Safe.checkM_onList.bind fun _ _ => Safe.bind (softswitchUpdateRTS_safe hq₂ ?_) fun _ _ =>
      Safe.ok
    have ht : (r.2.setRtsFlags d 0#32).toTracking = _ := hran.tracking
    rw [ht]
    exact htrack

/-! ## Idling -/

theorem softswitchOnIdle_safe (hq : IsQueue c q) (hs : SearchInv c)
    (ht : NamesHandler th c.toTracking) : Safe (softswitchOnIdle th c) := by
  by_cases hdone : n ≤ c.rtcChecked
  · exact Safe.of_eq (softswitchOnIdle_over hdone)
  have hlt : c.rtcChecked < n := Nat.lt_of_not_le hdone
  have ho : c.rtcOffset < n := hs.offset_lt (Nat.zero_lt_of_lt hlt)
  rcases idleSweep_chunk th hlt ho with ⟨k, d, -, hsweep⟩ | ⟨hno, -⟩
  · have hq₁ : IsQueue (swept c (k + 1)) q := hq.of_links_flags swept_keeps.1 swept_keeps.2
    unfold softswitchOnIdle
    rw [if_neg hdone, hsweep, ok_bind]
    refine Safe.bind (runCalls_safe ht) fun c₂ h₂ => Safe.checkOnList.bind fun _ _ => ?_
    have hstep := runCalls_service.of_ok h₂
    have hrun : ∀ σ, IsQueue (((swept c (k + 1)).enter .compute d).setState d σ) q :=
      fun _ => hq₁.of_links_flags setState_links setState_flags
    have hq₂ : IsQueue c₂ q := hstep.keepsRts.isQueue (hrun _)
    refine (softswitchUpdateRTS_safe hq₂ ?_).bind fun _ _ => Safe.ok
    rw [hstep.frame.tracking]
    exact ht
  · exact Safe.of_eq (softswitchOnIdle_noCompute hlt ho hno)

theorem hardwareIdleDevice_safe (hq : IsQueue c q) : Safe (hardwareIdleDevice th c d) := by
  have ht : NamesHandler th (c.track d 5).toTracking := .of_type (by decide) (by decide)
  unfold hardwareIdleDevice
  refine Safe.check.bind fun _ _ => Safe.checkM_onList.bind fun _ _ => ?_
  cases (th.device d).vtable.onHardwareIdleHandler with
  | none => exact Safe.ok
  | some handler =>
    refine Safe.bind (runCalls_safe ht) fun c₁ h₁ => ?_
    have hstep := runCalls_service.of_ok h₁
    have hrun : ∀ σ, IsQueue (((c.track d 5).enter .hardwareIdle d).setState d σ) q :=
      fun _ => hq.of_links_flags setState_links setState_flags
    have hq₁ : IsQueue c₁ q := hstep.keepsRts.isQueue (hrun _)
    refine softswitchUpdateRTS_safe hq₁ ?_
    rw [hstep.frame.tracking]
    exact ht

theorem softswitchOnHardwareIdle_safe (hq : IsQueue c q) (hempty : c.rtsHead = none) :
    Safe (softswitchOnHardwareIdle th c) := by
  obtain rfl : q = [] := hq.rep.head_eq_none_iff.1 hempty
  have hclear : IsQueue (clearRts c) [] := ⟨Rep.empty, hq.mem_iff⟩
  refine Safe.bind (Safe.foldlM (I := fun s => ∃ q, IsQueue s q) ?_ ?_ ⟨[], hclear⟩) fun _ _ =>
    Safe.ok
  · rintro s d ⟨q, hq⟩
    exact hardwareIdleDevice_safe hq
  · rintro s d s' ⟨q, hq⟩ hok
    exact (hardwareIdleDevice_sat.of_ok hok).isQueue hq

/-! ## The main loop -/

theorem loopTop_safe (hc : ThreadInv s.ctxt) (ht : NamesHandler th s.ctxt.toTracking) :
    Safe (loopTop th s i) := by
  obtain ⟨q, hq⟩ := hc.queue
  have hidle : Safe (softswitchOnIdle th (s.ctxt.tick th)) :=
    softswitchOnIdle_safe (hq.of_links_flags rfl rfl) (hc.search.keep ⟨rfl, rfl, rfl, rfl, id⟩) ht
  unfold loopTop
  dsimp only
  split
  · refine hidle.bind fun out _ => ?_
    split <;> exact Safe.ok
  · exact Safe.ok

theorem prepare_safe (hth : Tables th) (hq : IsQueue s.ctxt q)
    (hflags : ∀ d, FlagsOfPins th d (s.ctxt.flags d)) : Safe (prepare th s) := by
  unfold prepare
  split
  · exact (softswitchOnSend_safe hth hq hflags).bind fun _ _ => Safe.ok
  · exact Safe.ok

/-- A message of an application pin goes to the mailbox without a look at the address list. -/
theorem deliver_app_safe (happ : s.isApp = true) (hreads : th.readsForApp = false) :
    Safe (deliver th s true) := by
  unfold PThread.readsForApp at hreads
  rw [Bool.or_eq_false_iff] at hreads
  obtain ⟨hlog, hintra⟩ := hreads
  have hretarget : retarget s = .ok s := by
    rw [retarget_eq, if_pos happ]
  have hdirect : deliversDirectly th s true = .ok false := by
    rw [deliversDirectly_eq, hintra]
    rfl
  have hmail : Safe (mailboxDeliver th s) := by
    rw [mailboxDeliver_eq]
    rw [if_pos happ]
    exact Safe.ok
  rw [deliver_eq, hlog, hretarget]
  rw [ok_bind, hdirect]
  exact hmail.bind fun _ _ => Safe.ok

/-- For a message of a pin for devices the pointer is at a target, which takes the message. -/
theorem deliver_safe (hself : ∀ m, FromPin th ⟨th.myId, m⟩ → Deliverable th m)
    (hq : IsQueue s.ctxt q) (hs : AddressInv th s) (hpos : 0 < s.currSendTodo)
    (happ : th.readsForApp = true → s.isApp = false) : Safe (deliver th s true) := by
  cases hisApp : s.isApp with
  | true =>
    refine deliver_app_safe hisApp (Bool.eq_false_iff.2 fun hreads => ?_)
    rw [happ hreads] at hisApp
    cases hisApp
  | false =>
    obtain ⟨d, k, pin, hsending⟩ := hs hpos
    obtain ⟨p, hlist, addr, hget⟩ := hsending.pointsAt (hsending.isApp.symm.trans hisApp)
    rw [deliver_target hisApp hlist hget]
    split
    · rename_i hdirect
      obtain ⟨-, hthread⟩ := Bool.and_eq_true_iff.1 hdirect
      have hm : FromPin th ⟨addr.thread, (s.readdressed addr).sendBuffer⟩ :=
        hs.fromPin hpos hisApp hlist hget
      rw [beq_iff_eq.1 hthread] at hm
      refine Safe.bind ?_ fun _ _ => Safe.ok
      exact (softswitchOnReceive_safe (hself _ hm) hq).bind fun _ _ => Safe.ok
    · rw [mailboxDeliver_target hisApp hlist hget]
      exact Safe.ok

theorem Prepares.isQueue (h : Prepares th s s') (hq : IsQueue s.ctxt q) :
    ∃ q', IsQueue s'.ctxt q' := by
  cases h with
  | busy _ => exact ⟨q, hq⟩
  | @fresh out _ hsent =>
    obtain ⟨q', hq'⟩ := hsent.isQueue hq
    exact ⟨q', hq'.of_links_flags rfl rfl⟩

/-- Where no message of an application pin is due, none is delivered. -/
theorem Prepares.isApp (h : Prepares th s s') (hpc : s.pc = .wait w)
    (hempty : w.hostBufferEmpty = true) (happ : ¬s.SendsApp th) (hpos : 0 < s'.currSendTodo) :
    s'.isApp = false := by
  have hnot : ¬if s.currSendTodo = 0 then _ else _ := fun h => happ ⟨w, hpc, hempty, h⟩
  cases h with
  | busy htodo =>
    rw [if_neg htodo] at hnot
    exact Bool.eq_false_iff.2 hnot
  | @fresh out htodo hsent =>
    rw [if_pos htodo] at hnot
    rcases hsent with ⟨d, k, pin, r, hsent⟩ | ⟨-, -, hnone, -⟩
    · have hprepared := hsent.prepared
      unfold Prepared at hprepared
      cases hdo : r.doSend with
      | false =>
        rw [hdo, if_neg Bool.false_ne_true] at hprepared
        have htodo' : (s.prepared out).currSendTodo = 0 :=
          congrArg SendState.numTargets hprepared
        omega
      | true =>
        rw [hdo, if_pos rfl] at hprepared
        have hpin : pin.isApp = false := by
          rw [Bool.eq_false_iff]
          intro hpin
          refine hnot ⟨d, k, pin, hsent.head, hsent.pinIndex_eq, hsent.pin_eq, hpin, ?_⟩
          rw [← hdo, hsent.result_eq]
          rfl
        rw [hpin, if_neg Bool.false_ne_true] at hprepared
        obtain ⟨targets, -, hst⟩ := hprepared
        exact congrArg SendState.isApp hst
    · have htodo' : (s.prepared out).currSendTodo = 0 := congrArg SendState.numTargets hnone
      omega

theorem sendBranch_safe (hth : Tables th)
    (hself : ∀ m, FromPin th ⟨th.myId, m⟩ → Deliverable th m) (hq : IsQueue s.ctxt q)
    (hflags : ∀ d, FlagsOfPins th d (s.ctxt.flags d)) (hs : AddressInv th s) (hpc : s.pc = .wait w)
    (happ : th.readsForApp = true → ¬s.SendsApp th) : Safe (sendBranch th s w true i) := by
  refine Safe.check.bind fun _ _ => Safe.check.bind fun _ _ => ?_
  split
  · exact Safe.ok
  · rename_i hempty
    refine (prepare_safe hth hq hflags).bind fun s₁ h₁ => ?_
    have hprep := prepare_sat.of_ok h₁
    split
    · rename_i hpos
      obtain ⟨q₁, hq₁⟩ := hprep.isQueue hq
      exact deliver_safe hself hq₁ (hs.prepares hprep) hpos fun hreads =>
        hprep.isApp hpc (by simpa using hempty) (happ hreads) hpos
    · exact Safe.ok

theorem receiveBranch_safe (hm : Deliverable th i.message) (hq : IsQueue s.ctxt q) :
    Safe (receiveBranch th s i) := by
  refine Safe.check.bind fun _ _ => Safe.bind ?_ fun _ _ => Safe.ok
  exact softswitchOnReceive_safe hm (hq.of_links_flags rfl rfl)

theorem act_safe (hth : Tables th) (hself : ∀ m, FromPin th ⟨th.myId, m⟩ → Deliverable th m)
    (hq : IsQueue s.ctxt q) (hflags : ∀ d, FlagsOfPins th d (s.ctxt.flags d))
    (hs : AddressInv th s) (hpc : s.pc = .wait w)
    (happ : th.readsForApp = true → ¬s.SendsApp th)
    (hm : doRecv th w true i = true → Deliverable th i.message) : Safe (act th s w true i) := by
  unfold act
  unfold doRecv at hm
  split
  · rename_i hover
    rw [if_pos hover] at hm
    split
    · exact sendBranch_safe hth hself hq hflags hs hpc happ
    · rename_i hsend
      exact receiveBranch_safe (hm (by rw [Bool.eq_false_iff.2 hsend, Bool.not_false])) hq
  · rename_i hover
    rw [if_neg hover] at hm
    split
    · rename_i hrecv
      exact receiveBranch_safe (hm hrecv) hq
    · exact Safe.check.bind fun _ _ => sendBranch_safe hth hself hq hflags hs hpc happ

theorem makeAdequate_safe : Safe (makeAdequate c w) := by
  have hdrain : ∀ fuel (c : PThreadContext A n), Safe (drainToAdequate fuel c) := by
    intro fuel
    induction fuel with
    | zero => exact fun _ => rfl
    | succ fuel ih =>
      intro c
      unfold drainToAdequate
      dsimp only
      split
      · exact Safe.ok
      · exact ih _
  unfold makeAdequate
  split
  · exact Safe.ok
  · exact hdrain _ c

theorem waitPhase_safe : Safe (waitPhase th s w) := by
  unfold waitPhase
  dsimp only
  split
  · exact Safe.check.bind fun _ _ => Safe.ok
  · exact Safe.ok

/-- In a build without intra-thread sends, complete tables keep application pins from what reads
the address list. -/
theorem Complete.not_sendsApp (hth : Complete th)
    (hbuild : th.build.enableIntraThreadSend = false) (hs : AddressInv th s)
    (hreads : th.readsForApp = true) : ¬s.SendsApp th := by
  unfold PThread.readsForApp at hreads
  rw [hbuild, Bool.or_false] at hreads
  have hpin : ∀ {d : Fin n} {k : Nat} {pin : OutputPinVTable A},
      (th.device d).vtable.outputPins[k]? = some pin → pin.isApp = false :=
    fun hpin => hth.logging hreads _ _ (List.mem_of_getElem? hpin)
  rintro ⟨w, -, -, hdue⟩
  split at hdue
  · obtain ⟨d, k, pin, -, -, hget, happ, -⟩ := hdue
    rw [hpin hget] at happ
    cases happ
  · rename_i htodo
    obtain ⟨d, k, pin, hsending⟩ := hs (Nat.pos_of_ne_zero htodo)
    rw [hsending.isApp, hpin hsending.pin_eq] at hdue
    cases hdue

/-- The tracking fields and the flags lead to entries of the tables. -/
structure TableInv (th : PThread A n) (s : Main A n) : Prop where
  tracking : s.pc ≠ .parked → NamesHandler th s.ctxt.toTracking
  flags : s.pc ≠ .parked → ∀ d, FlagsOfPins th d (s.ctxt.flags d)

/-- What is due does not depend on the time. -/
theorem Undisturbed.sendsApp_iff (h : Undisturbed s.ctxt c) :
    Main.SendsApp th { s with ctxt := c } ↔ s.SendsApp th := by
  have hhead : c.rtsHead = s.ctxt.rtsHead := congrArg Links.head h.keeps.links
  have hresult : ∀ d pin payload,
      sendResult th c d pin payload = sendResult th s.ctxt d pin payload := by
    intro d pin payload
    have hstate : (c.devices d).state = (s.ctxt.devices d).state := congrFun h.states d
    unfold sendResult
    rw [hstate]
  unfold Main.SendsApp
  simp only [hhead, h.keeps.flags, hresult]

theorem wake_safe (hth : Tables th) (hself : ∀ m, FromPin th ⟨th.myId, m⟩ → Deliverable th m)
    (hmain : MainInv th s) (hs : TableInv th s) (hpc : s.pc = .wait w)
    (happ : th.readsForApp = true → ¬s.SendsApp th)
    (hm : (th.build.enableHardwareIdle && !w.wantToSend && i.doHardwareIdle) = false →
      doRecv th w true i = true → Deliverable th i.message) : Safe (wake th s w i) := by
  have hrunning : s.pc ≠ .parked := by simp [hpc]
  obtain ⟨q, hq⟩ := (hmain.idle.thread hrunning).queue
  unfold wake
  refine waitPhase_safe.bind fun s₁ h₁ => ?_
  obtain ⟨c₁, rfl, hwait, hbuffer⟩ := waitPhase_sat.of_ok h₁
  have hq₁ : IsQueue c₁ q := hwait.keeps.isQueue hq
  have hpending : c₁.hostPending = s.ctxt.hostPending := congrArg HostBuffer.hostPending hbuffer
  split
  · rename_i hcond
    have hwant : w.wantToSend = false := by
      cases h : w.wantToSend <;> simp_all
    have hempty : c₁.rtsHead = none :=
      (congrArg Links.head hwait.keeps.links).trans (hmain.idle.blocked w hpc hwant).1
    exact (softswitchOnHardwareIdle_safe hq₁ hempty).bind fun _ _ => Safe.ok
  · rename_i hcond
    refine makeAdequate_safe.bind fun c₂ h₂ => Safe.bind ?_ fun _ _ => Safe.ok
    have hadequate := (makeAdequate_sat (hwait.keeps.counted (hmain.host.counted hrunning))
      (fun h => hpending ▸ hmain.host.nonempty w hpc h)
      (fun h => hpending ▸ hmain.host.inadequate w hpc h)).of_ok h₂
    have hspent : Undisturbed s.ctxt c₂ := hwait.trans hadequate.1.undisturbed
    have haddress : AddressInv th { s with ctxt := c₂ } :=
      hmain.address.enters ⟨rfl, rfl, rfl, rfl, rfl⟩ (.of_eq hspent.sig)
    refine act_safe hth hself (hspent.keeps.isQueue hq) ?_ haddress hpc
      (fun hreads => hspent.sendsApp_iff.not.2 (happ hreads)) (hm (Bool.eq_false_iff.2 hcond))
    rw [show c₂.flags = s.ctxt.flags from hspent.keeps.flags]
    exact hs.flags hrunning

/-- A step of a thread that was rightly woken, to a message that it can deliver, is safe. -/
theorem mainStep_safe {released : Prop} (hth : Tables th)
    (hself : ∀ m, FromPin th ⟨th.myId, m⟩ → Deliverable th m) (hmain : MainInv th s)
    (hs : TableInv th s) (happ : th.readsForApp = true → ¬s.SendsApp th)
    (hwakes : s.Wakes th released i) (hm : i.canRecv = true → Deliverable th i.message) :
    Safe (mainStep th s i) := by
  unfold mainStep
  split
  · exact Safe.ok
  · rename_i hpc
    have hrunning : s.pc ≠ .parked := by simp [hpc]
    exact loopTop_safe (hmain.idle.thread hrunning) (hs.tracking hrunning)
  · rename_i w hpc
    exact wake_safe hth hself hmain hs hpc happ fun hidle hdo =>
      hm (doRecv_canRecv hpc hwakes hidle hdo)

/-! ## Runs -/

section Answers

variable {P : Fin n → BitVec 32 → Prop} (hanswer : ∀ d s, P d (readyResult th d s).flags)

include hanswer

theorem Sends.answers (h : Sends th s s') (hs : ∀ d, P d (s.ctxt.flags d)) :
    ∀ d, P d (s'.ctxt.flags d) := by
  have hprepares : ∀ {s₁}, Prepares th s s₁ → ∀ d, P d (s₁.ctxt.flags d) := by
    intro s₁ hprep
    cases hprep with
    | busy _ => exact hs
    | @fresh out _ hsent =>
      obtain ⟨length, c₁, st⟩ := out
      have h := Happened.answers (e := .send s.sendBuffer s.isApp) hanswer ⟨length, st, hsent⟩ hs
      exact h
  cases h with
  | host _ => exact hs
  | nothing hprep _ => exact hprepares hprep
  | @deliver s₁ _ hprep _ hdeliver =>
    have hs₁ := hprepares hprep
    cases hdeliver with
    | app _ => exact hs₁
    | target _ _ _ => exact hs₁
    | direct _ hretarget hrecv =>
      rw [nextTarget_ctxt]
      rw [← retarget_ctxt hretarget] at hs₁
      exact Happened.answers (e := .receive _) hanswer hrecv hs₁

/-- What holds of every answer of the readiness handlers holds of the flags after a step. -/
theorem Stepped.answers (h : Stepped th s i s') (hpc : s'.pc ≠ .parked)
    (hs : s.pc ≠ .parked → ∀ d, P d (s.ctxt.flags d)) : ∀ d, P d (s'.ctxt.flags d) := by
  have hkeep : ∀ {c}, s.pc ≠ .parked → Undisturbed s.ctxt c → ∀ d, P d (c.flags d) := by
    intro c hrunning hc
    rw [hc.keeps.flags]
    exact hs hrunning
  cases h with
  | parked _ => exact hs hpc
  | idle htop _ hidle =>
    have hs₀ : ∀ d, P d ((s.ctxt.tick th).flags d) := hs (by simp [htop])
    exact Happened.answers (e := .idle) hanswer ⟨_, hidle⟩ hs₀
  | searchOver htop _ _ _ hperf =>
    exact hkeep (by simp [htop]) ((Undisturbed.refl _).tick.trans hperf.undisturbed)
  | noIdle htop _ => exact hs (by simp [htop])
  | hardwareIdle hwait _ hc hidle =>
    exact Happened.answers (e := .hardwareIdle) hanswer hidle (hkeep (by simp [hwait]) hc)
  | @receive w c c' hwait _ hc hrecv =>
    have hc₀ := hkeep (by simp [hwait]) hc
    have hs₀ : ∀ d, P d ((c.emit (.mboxRecv i.message)).flags d) := hc₀
    exact Happened.answers (e := .receive i.message) hanswer hrecv hs₀
  | @send w c s₁ hwait hc hsend =>
    have hs₀ : ∀ d, P d (({ s with ctxt := c } : Main A n).ctxt.flags d) :=
      hkeep (by simp [hwait]) hc
    have h := hsend.answers hanswer hs₀
    exact h

end Answers

theorem TableInv.step (hth : Tables th) (hmain : MainInv th s) (hs : TableInv th s)
    (hstep : mainStep th s i = .ok s') : TableInv th s' := by
  have hstepped := (mainStep_sat hmain.host).of_ok hstep
  have hrunning : s'.pc ≠ .parked → s.pc ≠ .parked := by
    intro hpc hparked
    unfold mainStep at hstep
    rw [hparked] at hstep
    cases hstep
    exact hpc hparked
  have hcontinues := mainStep_continues.of_ok hstep
  exact ⟨fun hpc => hcontinues.tracking hth.index (hs.tracking (hrunning hpc)),
    fun hpc => hstepped.answers hth.asks hpc hs.flags⟩

/-! ## The start -/

theorem initDevice_safe (hq : InitQueue c d q) : Safe (initDevice th c d) := by
  have ht : NamesHandler th (c.track d 4).toTracking := .of_type (by decide) (by decide)
  unfold initDevice
  refine Safe.bind (runCalls_safe ht) fun c₁ h₁ => ?_
  have hstep := runCalls_service.of_ok h₁
  have ht₁ : NamesHandler th c₁.toTracking := by
    rw [hstep.frame.tracking]
    exact ht
  refine (callReadyToSend_safe ht₁).bind fun r hr => ?_
  obtain ⟨-, hready⟩ := callReadyToSend_sat.of_ok hr
  have hlinks : r.2.links = c.links := by
    rw [hready.links_eq, setState_links, hstep.links_eq, setState_links]
    rfl
  have hflags : r.2.flags = c.flags := by
    rw [hready.flags_eq, setState_flags, hstep.flags_eq, setState_flags]
    rfl
  dsimp only
  split
  · rename_i hwants
    have hd : d ∉ q := fun hd => Nat.lt_irrefl _ ((hq.mem_iff d).1 hd).1
    have hrep : Rep (r.2.setRtsFlags d r.1).links q :=
      hq.rep.congr (setRtsFlags_links.trans hlinks)
    have hlisted : ∀ e ∈ q, wantsSend ((r.2.setRtsFlags d r.1).flags e) = true := by
      intro e he
      have hed : e ≠ d := by
        rintro rfl
        exact hd he
      rw [setRtsFlags_flags, update_of_ne hed, hflags]
      exact ((hq.mem_iff e).1 he).2
    obtain ⟨c', hok⟩ := rtsAppend_ok th hrep hlisted hd (by
      rw [setRtsFlags_flags, update_self]
      exact hwants)
    exact Safe.of_eq hok
  · exact Safe.ok

/-- The start of a thread is safe. -/
theorem softswitchMain_safe {buf : Message A} : Safe (softswitchMain th c buf) := by
  have hinit : ∀ c : PThreadContext A n, Safe (softswitchInit th c) := by
    intro c
    refine Safe.check.bind fun _ _ => ?_
    have hloop : Sat ((List.finRange n).foldlM (initDevice th)
        (clearRts (zeroProfileCounters th c))) (fun s => ∃ q, InitQueue s n q)
        fun s => s.fault.isMemory = false := by
      refine Sat.foldlM_finRange (I := fun i s => ∃ q, InitQueue s i q) ?_
        ⟨[], Rep.empty, fun e => by simp⟩
      rintro d s ⟨q, hq⟩
      refine Sat.mono ((initDevice_safe hq).and
        (initDevice_sat.mono (fun _ h => hq.step h) fun _ _ => trivial)) ?_ ?_
      · exact fun s h => h.2
      · exact fun s h => h.1
    exact hloop.mono (fun _ _ => trivial) fun _ h => h
  unfold softswitchMain
  split
  · exact Safe.ok
  · exact (hinit _).bind fun _ _ => Safe.ok

theorem softswitchMain_tableInv {buf : Message A} (hth : Tables th)
    (hok : softswitchMain th c buf = .ok s) : TableInv th s := by
  have hstarted := softswitchMain_sat.of_ok hok
  have hanswers := hstarted.initialised
  unfold softswitchMain at hok
  split at hok
  · cases hok
    exact ⟨fun h => absurd rfl h, fun h => absurd rfl h⟩
  · rename_i hn
    obtain ⟨c₁, hinit, hret⟩ := bind_eq_ok.1 hok
    cases hret
    refine ⟨fun _ => ?_, fun _ d => ?_⟩
    · -- the last device to be initialised is there
      have hstep : ∀ (d : Fin n) (s : PThreadContext A n),
          (0 < d.val → NamesHandler th s.toTracking) → Sat (initDevice th s d)
            (fun s' => 0 < d.val + 1 → NamesHandler th s'.toTracking) (fun _ => True) := by
        intro d s _
        refine initDevice_sat.mono (fun s' h _ => ?_) fun _ _ => trivial
        rw [h.tracking]
        exact .of_type (by decide) (by decide)
      have hloop := (Sat.foldlM_finRange
        (I := fun i (s : PThreadContext A n) => 0 < i → NamesHandler th s.toTracking) hstep
        fun h => absurd h (Nat.lt_irrefl 0)).of_ok (softswitchInit_loop hinit)
      exact hloop (Nat.pos_of_ne_zero hn)
    · rw [hanswers.2 d]
      exact hth.asks d _

end Softswitch
