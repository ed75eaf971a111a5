import Softswitch.Lib.Noting
import Softswitch.Verify.FanOut

/-!
# Where the address list is dereferenced

`softswitch_main` dereferences `currSendAddressList` in four places (`AddressUse`), all of
them on its way through `deliver`.  For a message of an ordinary pin the pointer is then at
the first of the `currSendTodo` addresses that remain (`AtRemaining`).  For a message of an
application pin it is null: the two places that fill in the destination ask for `isApp`
first, but the log statement and the test for a target on the same thread do not.
-/

namespace Softswitch

open Outcome

variable {A : AppTypes} {n : Nat} {th : PThread A n} {c c' : PThreadContext A n}
  {s s' s₁ : Main A n} {i : LoopInput A} {l es : List (Event A n)} {d : Fin n} {pinIndex : Nat}
  {pin : OutputPinVTable A}

/-! ## Uses of the pointer -/

/-- Note the use and the pointer, and dereference it. -/
def Reader.recording : Reader A n (Noting (AddressUse × Option AddressPtr) (Stop A n)) where
  read u c p := do
    Noting.note (u, p)
    Noting.lift (derefAddress c p)
  call := Noting.lift

/-- The dereferences that the delivery makes until it ends or stops, each with the pointer. -/
def Main.addressUses (s : Main A n) (th : PThread A n) : List (AddressUse × Option AddressPtr) :=
  (deliverBy .recording th s true).outcome.2

/-- The send handlers that have returned. -/
def Event.sendReturn? : Event A n → Option (Fin n × Nat)
  | .sendReturn d pinIndex _ _ => some (d, pinIndex)
  | _ => none

/-- The pin that is being sent: the last one whose send handler has returned. -/
def lastSend (l : List (Event A n)) : Option (Fin n × Nat) :=
  (l.filterMap Event.sendReturn?).getLast?

/-- The pointer is at the first of the remaining entries of the target list of a pin. -/
def AtRemaining (th : PThread A n) (s : Main A n) (ptr : Option AddressPtr) (d : Fin n)
    (pinIndex : Nat) : Prop :=
  ∃ p targets, ptr = some p ∧ (th.device d).targets[pinIndex]? = some targets ∧
    p.base = targets.targets ∧ 0 < s.currSendTodo ∧ p.offset + s.currSendTodo = p.base.length

theorem Event.sendReturn?_of_isSending {e : Event A n} (h : e.isSending = false) :
    e.sendReturn? = none := by
  cases e with
  | sendReturn _ _ _ _ => cases h
  | _ => rfl

theorem lastSend_append (hes : ∀ e ∈ es, e.sendReturn? = none) :
    lastSend (l ++ es) = lastSend l := by
  have hnone : es.filterMap Event.sendReturn? = [] := List.filterMap_eq_nil_iff.2 hes
  unfold lastSend
  rw [List.filterMap_append, hnone, List.append_nil]

theorem lastSend_sendEvents {r : SendResult A.DevState A.Payload} :
    lastSend (l ++ sendEvents th d pinIndex r) = some (d, pinIndex) := by
  have hevents : (sendEvents th d pinIndex r).filterMap Event.sendReturn? = [(d, pinIndex)] := rfl
  unfold lastSend
  rw [List.filterMap_append, hevents, List.getLast?_concat]

theorem not_atRemaining : ¬AtRemaining th s none d pinIndex := by
  rintro ⟨p, targets, hp, -⟩
  cases hp

/-! ## The invariant -/

/-- A message of `pin` is being sent. -/
structure Sending (th : PThread A n) (s : Main A n) (d : Fin n) (pinIndex : Nat)
    (pin : OutputPinVTable A) : Prop where
  last : lastSend s.ctxt.sig = some (d, pinIndex)
  pin_eq : (th.device d).vtable.outputPins[pinIndex]? = some pin
  isApp : s.isApp = pin.isApp
  null : pin.isApp = true → s.currSendAddressList = none
  target : pin.isApp = false → AtRemaining th s s.currSendAddressList d pinIndex
  source : pin.isApp = false → s.sendBuffer.source = sendSource th d pinIndex pin

/-- The pointer is at an address. -/
theorem Sending.pointsAt (h : Sending th s d pinIndex pin) (happ : pin.isApp = false) :
    ∃ p, s.currSendAddressList = some p ∧ ∃ addr, p.get? = some addr := by
  obtain ⟨p, targets, hlist, -, -, hpos, hlength⟩ := h.target happ
  have hoffset : p.offset < p.base.length := by omega
  exact ⟨p, hlist, _, List.getElem?_eq_getElem hoffset⟩

/-- While there is something to do, a message is being sent. -/
def AddressInv (th : PThread A n) (s : Main A n) : Prop :=
  0 < s.currSendTodo → ∃ d pinIndex pin, Sending th s d pinIndex pin

namespace AddressInv

/-- The pointer is as it was, and no send handler has returned. -/
theorem others (h : AddressInv th s) (hlist : s'.currSendAddressList = s.currSendAddressList)
    (htodo : s'.currSendTodo = s.currSendTodo) (happ : s'.isApp = s.isApp)
    (hsource : s'.sendBuffer.source = s.sendBuffer.source)
    (hsig : s'.ctxt.sig = s.ctxt.sig ++ es) (hes : ∀ e ∈ es, e.sendReturn? = none) :
    AddressInv th s' := by
  intro hpos
  rw [htodo] at hpos
  obtain ⟨d, pinIndex, pin, h⟩ := h hpos
  refine ⟨d, pinIndex, pin, ?_, h.pin_eq, happ.trans h.isApp, fun hpin => ?_, fun hpin => ?_,
    fun hpin => hsource.trans (h.source hpin)⟩
  · rw [hsig, lastSend_append hes]
    exact h.last
  · exact hlist.trans (h.null hpin)
  · obtain ⟨p, targets, hp, hrest⟩ := h.target hpin
    refine ⟨p, targets, hlist.trans hp, ?_⟩
    rw [htodo]
    exact hrest

theorem enters (h : AddressInv th s) (hsame : SameSend s s')
    (hc : Records Event.isEnter s.ctxt s'.ctxt) : AddressInv th s' := by
  obtain ⟨es, hsig, hes⟩ := hc
  exact h.others hsame.list hsame.todo hsame.isApp (congrArg Message.source hsame.buffer) hsig
    fun e he =>
    Event.sendReturn?_of_isSending (Event.isSending_of_isEnter (hes e he))

/-- What `softswitch_onSend` leaves in the reference parameters. -/
theorem sent {out : Nat × PThreadContext A n × SendState A}
    (hsent : Sent th s.ctxt s.sendBuffer s.isApp out) : AddressInv th (s.prepared out) := by
  intro htodo
  rcases hsent with ⟨d, pinIndex, pin, r, hsent⟩ | ⟨-, -, hnone, -⟩
  · have hprepared := hsent.prepared
    unfold Prepared at hprepared
    have hlast : lastSend (s.prepared out).ctxt.sig = some (d, pinIndex) := by
      show lastSend out.2.1.sig = _
      rw [hsent.sig, lastSend_sendEvents]
    have hout : ∀ {st : SendState A}, out.2.2 = st →
        (s.prepared out).currSendTodo = st.numTargets ∧ (s.prepared out).isApp = st.isApp ∧
        (s.prepared out).currSendAddressList = st.pTargets ∧
        (s.prepared out).sendBuffer = st.message := by
      rintro st rfl
      exact ⟨rfl, rfl, rfl, rfl⟩
    cases hdo : r.doSend with
    | false =>
      rw [hdo, if_neg (by simp)] at hprepared
      have := (hout hprepared).1
      simp [noSend] at this
      omega
    | true =>
      rw [hdo, if_pos rfl] at hprepared
      cases happ : pin.isApp with
      | true =>
        rw [happ, if_pos rfl] at hprepared
        obtain ⟨-, hisApp, hlist, -⟩ := hout hprepared
        exact ⟨d, pinIndex, pin, hlast, hsent.pin_eq, hisApp.trans happ.symm, fun _ => hlist,
          fun h => by simp [happ] at h, fun h => by simp [happ] at h⟩
      | false =>
        rw [happ, if_neg (by simp)] at hprepared
        obtain ⟨targets, htargets, hst⟩ := hprepared
        obtain ⟨htodo', hisApp, hlist, hmessage⟩ := hout hst
        refine ⟨d, pinIndex, pin, hlast, hsent.pin_eq, hisApp.trans happ.symm,
          fun h => by simp [happ] at h, fun _ => ⟨_, targets, hlist, htargets, rfl, htodo, ?_⟩,
          fun _ => congrArg Message.source hmessage⟩
        rw [htodo']
        exact Nat.zero_add _
  · have htodo' : (s.prepared out).currSendTodo = 0 := congrArg SendState.numTargets hnone
    omega

theorem prepares (h : AddressInv th s) (hprep : Prepares th s s') : AddressInv th s' := by
  cases hprep with
  | busy _ => exact h
  | fresh _ hsent => exact sent hsent

/-- The pointer moves on with the count. -/
theorem next (h : AddressInv th s) : AddressInv th (nextTarget s) := by
  unfold nextTarget
  split
  · exact h
  · rename_i happ
    have happ : s.isApp = false := by simpa using happ
    intro hpos
    have hpos' : 1 < s.currSendTodo := Nat.lt_of_sub_pos hpos
    obtain ⟨d, pinIndex, pin, h⟩ := h (Nat.zero_lt_of_lt hpos')
    have hpin : pin.isApp = false := h.isApp.symm.trans happ
    obtain ⟨p, targets, hp, htargets, hbase, -, hlength⟩ := h.target hpin
    refine ⟨d, pinIndex, pin, h.last, h.pin_eq, h.isApp, fun hpin' => ?_, fun _ => ?_, h.source⟩
    · simp [hpin] at hpin'
    · refine ⟨p.succ, targets, congrArg (Option.map AddressPtr.succ) hp, htargets, hbase, hpos, ?_⟩
      show p.offset + 1 + (s.currSendTodo - 1) = p.base.length
      omega

end AddressInv

/-- Only the destination of the send buffer is written. -/
theorem retarget_address (h : retarget s = .ok s') :
    s'.currSendAddressList = s.currSendAddressList ∧ s'.currSendTodo = s.currSendTodo ∧
      s'.isApp = s.isApp ∧ s'.sendBuffer.source = s.sendBuffer.source := by
  rw [retarget_eq] at h
  split at h
  · cases h
    exact ⟨rfl, rfl, rfl, rfl⟩
  · obtain ⟨addr, -, hret⟩ := bind_eq_ok.1 h
    cases hret
    exact ⟨rfl, rfl, rfl, rfl⟩

namespace AddressInv

theorem delivers (h : AddressInv th s) (hdeliver : Delivers th s s') : AddressInv th s' := by
  cases hdeliver with
  | app happ => exact fun hpos => absurd hpos (Nat.lt_irrefl 0)
  | @target p addr happ hlist hget =>
    have hsent : AddressInv th { s with
        ctxt := mboxSent s.ctxt addr.thread s.currSize { s.sendBuffer with dest := addr }
        sendBuffer := { s.sendBuffer with dest := addr } } :=
      h.others rfl rfl rfl rfl mboxSent_sig (by simp [Event.sendReturn?])
    have hnext := hsent.next
    rw [nextTarget_target (by exact happ)] at hnext
    rw [hlist] at hnext
    exact hnext
  | @direct s₁ c hbuild hretarget hrecv =>
    obtain ⟨hlist, htodo, happ, hsource⟩ := retarget_address hretarget
    obtain ⟨es, hsig, hes⟩ := hrecv.notSending
    rw [retarget_ctxt hretarget] at hsig
    have hreceived : AddressInv th { s₁ with ctxt := c } :=
      h.others hlist htodo happ hsource hsig fun e he => Event.sendReturn?_of_isSending (hes e he)
    exact hreceived.next

theorem sends (h : AddressInv th s) (hsend : Sends th s s') : AddressInv th s' := by
  cases hsend with
  | host hpos =>
    have hsig : (hostMessageBufferPopSend th s.ctxt).sig = s.ctxt.sig ++ _ := sig_emit rfl
    exact h.others rfl rfl rfl rfl hsig (by simp [Event.sendReturn?])
  | nothing hprep _ => exact h.prepares hprep
  | deliver hprep _ hdeliver => exact (h.prepares hprep).delivers hdeliver

end AddressInv

/-- One step of the main loop. -/
theorem Stepped.addressInv (h : Stepped th s i s') (hs : AddressInv th s) :
    AddressInv th s' := by
  cases h with
  | parked _ => exact hs
  | idle _ _ hidle => exact hs.enters .of_update hidle.enters
  | searchOver _ _ _ _ hperf =>
    exact hs.enters hperf.sameSend (.of_eq hperf.undisturbed.sig)
  | noIdle _ _ => exact hs.enters .of_update (.of_eq rfl)
  | hardwareIdle _ _ hwait hidle =>
    exact hs.enters .of_update
      ((Records.of_eq hwait.sig).trans (softswitchOnHardwareIdle_enters hidle))
  | receive _ _ hwait hrecv =>
    obtain ⟨es, hsig, hes⟩ := hrecv.others
    rw [hwait.sig] at hsig
    exact hs.others rfl rfl rfl rfl hsig fun e he => Event.sendReturn?_of_isSending (hes e he)
  | @send w c s₁ hpc hwait hsend =>
    have hs₀ : AddressInv th { s with ctxt := c } :=
      hs.enters ⟨rfl, rfl, rfl, rfl, rfl⟩ (.of_eq hwait.sig)
    exact (hs₀.sends hsend).enters .of_update (.of_eq rfl)

theorem Started.addressInv {buf : Message A} (h : Started th c buf s) : AddressInv th s := by
  intro hpos
  cases h with
  | parked _ => exact absurd hpos (Nat.lt_irrefl 0)
  | running _ _ _ => exact absurd hpos (Nat.lt_irrefl 0)

theorem mainRun_addressInv {buf : Message A} {inputs : List (LoopInput A)}
    (hrun : mainRun th c buf inputs = .ok s) : HostInv s ∧ AddressInv th s :=
  mainRun_invariant (fun _ h => h.addressInv) (fun _ _ _ _ hs h => h.addressInv hs) hrun

/-! ## Where the message is delivered -/

/-- The step of the main loop delivers to a target of the message it is sending, and the
state of the thread is then `s₁`. -/
inductive DeliverCall (th : PThread A n) (s : Main A n) (i : LoopInput A) : Main A n → Prop
  | call {w : WaitLocals} {s₀ s₁ : Main A n} {c : PThreadContext A n} (hpc : s.pc = .wait w)
      (hwait : waitPhase th s w = .ok s₀)
      (hidle : (th.build.enableHardwareIdle && !w.wantToSend && i.doHardwareIdle) = false)
      (hspace : makeAdequate s₀.ctxt w = .ok c)
      (hsend : if th.build.enableSendOverRecv then i.canSend && w.wantToSend else !i.canRecv)
      (hcheck : th.build.asserts = true → i.canSend = true ∧ w.wantToSend = true)
      (hempty : w.hostBufferEmpty = true) (hprep : prepare th { s₀ with ctxt := c } = .ok s₁)
      (hpos : 0 < s₁.currSendTodo) : DeliverCall th s i s₁

namespace DeliverCall

/-- Where `act` prepares a message that has a target, it delivers to it. -/
theorem act_deliver {w : WaitLocals} (hsend : if th.build.enableSendOverRecv then
      i.canSend && w.wantToSend else !i.canRecv)
    (hcheck : th.build.asserts = true → i.canSend = true ∧ w.wantToSend = true)
    (hempty : w.hostBufferEmpty = true) (hprep : prepare th s = .ok s₁)
    (hpos : 0 < s₁.currSendTodo) : act th s w true i = deliver th s₁ true := by
  have hassert : ∀ {ok : Bool} {a}, (th.build.asserts = true → ok = true) →
      th.check s.ctxt a ok = .ok () := by
    intro ok a hok
    unfold PThread.check
    cases hasserts : th.build.asserts <;> simp_all
  have hbranch : sendBranch th s w true i = deliver th s₁ true := by
    unfold sendBranch
    rw [hassert fun h => (hcheck h).2, hassert fun h => (hcheck h).1]
    simp only [ok_bind, hempty, Bool.not_true, Bool.false_eq_true, if_false, hprep, if_pos hpos]
  unfold act
  split at hsend
  · rename_i hbuild
    rw [if_pos hbuild, if_pos hsend]
    exact hbranch
  · rename_i hbuild
    have hrecv : i.canRecv = false := by simpa using hsend
    have hboth : th.build.asserts = true → (i.canSend && w.wantToSend) = true := by
      intro h
      obtain ⟨hcan, hwant⟩ := hcheck h
      rw [hcan, hwant, Bool.and_self]
    rw [if_neg hbuild, hrecv, Bool.false_and, if_neg (by simp), hassert hboth, ok_bind]
    exact hbranch

/-- The step is the delivery. -/
theorem mainStep_eq (h : DeliverCall th s i s₁) :
    mainStep th s i = deliver th s₁ true >>= fun s' => .ok { s' with pc := .top } := by
  obtain ⟨hpc, hwait, hidle, hspace, hsend, hcheck, hempty, hprep, hpos⟩ := h
  unfold mainStep
  rw [hpc]
  dsimp only
  unfold wake
  rw [hwait, ok_bind, hidle, if_neg (by simp), hspace, ok_bind,
    act_deliver hsend hcheck hempty hprep hpos]
  rfl

theorem addressInv (h : DeliverCall th s i s₁) (hhost : HostInv s) (hs : AddressInv th s) :
    AddressInv th s₁ ∧ 0 < s₁.currSendTodo := by
  cases h with | @call w s₀ _ c₁ hpc hwait hidle hspace hsend hcheck hempty hprep hpos
  obtain ⟨c₀, rfl, hundisturbed, hbuffer⟩ := waitPhase_sat.of_ok hwait
  have hpending : c₀.hostPending = s.ctxt.hostPending := congrArg HostBuffer.hostPending hbuffer
  have hadequate := makeAdequate_sat
    (hundisturbed.keeps.counted (hhost.counted (by simp [hpc])))
    (fun h => hpending ▸ hhost.nonempty _ hpc h) (fun h => hpending ▸ hhost.inadequate _ hpc h)
  have hspent := hundisturbed.trans (hadequate.of_ok hspace).1.undisturbed
  have hs₀ : AddressInv th { s with ctxt := c₁ } :=
    hs.enters ⟨rfl, rfl, rfl, rfl, rfl⟩ (.of_eq hspent.sig)
  exact ⟨hs₀.prepares (prepare_sat.of_ok hprep), hpos⟩

end DeliverCall

/-! ## Delivering to a target -/

/-- The current target is written into the send buffer. -/
def Main.readdressed (s : Main A n) (addr : Address) : Main A n :=
  { s with sendBuffer := { s.sendBuffer with dest := addr } }

section
variable {p : AddressPtr} {addr : Address}

theorem derefAddress_target (hlist : s.currSendAddressList = some p)
    (hget : p.get? = some addr) : derefAddress c s.currSendAddressList = .ok addr := by
  rw [hlist]
  show c.deref .outOfBounds p.get? = .ok addr
  rw [hget]
  rfl

theorem retarget_target (happ : s.isApp = false) (hlist : s.currSendAddressList = some p)
    (hget : p.get? = some addr) : retarget s = .ok (s.readdressed addr) := by
  rw [retarget_eq, if_neg (by simp [happ]), derefAddress_target hlist hget]
  rfl

theorem deliversDirectly_target (hlist : s.currSendAddressList = some p)
    (hget : p.get? = some addr) : deliversDirectly th (s.readdressed addr) true =
      .ok (th.build.enableIntraThreadSend && addr.thread == th.myId) := by
  have hderef : derefAddress (s.readdressed addr).ctxt (s.readdressed addr).currSendAddressList =
      .ok addr := derefAddress_target hlist hget
  rw [deliversDirectly_eq, hderef]
  cases th.build.enableIntraThreadSend <;> simp

/-- A delivery through the mailbox. -/
theorem mailboxDeliver_target (happ : s.isApp = false) (hlist : s.currSendAddressList = some p)
    (hget : p.get? = some addr) :
    mailboxDeliver th (s.readdressed addr) = .ok { s.readdressed addr with
      ctxt := mboxSent s.ctxt addr.thread s.currSize (s.readdressed addr).sendBuffer } := by
  have hderef : ∀ c : PThreadContext A n,
      derefAddress c (s.readdressed addr).currSendAddressList = .ok addr :=
    fun c => derefAddress_target hlist hget
  have happ : (s.readdressed addr).isApp = false := happ
  rw [mailboxDeliver_eq]
  rw [if_neg (by simp [happ]), hderef]
  rfl

/-- Where the pointer is at a target, the message is delivered in one of two ways. -/
theorem deliver_target (happ : s.isApp = false) (hlist : s.currSendAddressList = some p)
    (hget : p.get? = some addr) : deliver th s true =
      (if th.build.enableIntraThreadSend && addr.thread == th.myId then
        directDeliver th (s.readdressed addr)
      else mailboxDeliver th (s.readdressed addr)) >>= fun s => .ok (nextTarget s) := by
  rw [deliver_eq, retarget_target happ hlist hget, derefAddress_target hlist hget]
  simp only [ok_bind, deliversDirectly_target hlist hget, ite_self]
  split
  · rfl
  · rfl

end

/-! ## What the delivery reads -/

section

open Noting

variable {u : AddressUse} {ptr : Option AddressPtr} {p : AddressPtr} {addr : Address}
  {adequate : Bool}

theorem recording_read : Takes (Reader.recording.read u c ptr) (derefAddress c ptr) [(u, ptr)] :=
  takes_note.bind takes_lift

theorem recording_call {x : Outcome A n (Main A n)} : Takes (Reader.recording.call x) x [] :=
  takes_lift

/-- Noting the dereferences changes nothing else. -/
theorem deliverBy_takes :
    ∃ l, Takes (deliverBy .recording th s adequate) (deliver th s adequate) l := by
  have hread : ∀ {u} {c : PThreadContext A n} {ptr},
      ∃ l, Takes (Reader.recording.read u c ptr) (derefAddress c ptr) l := ⟨_, recording_read⟩
  have hpure : ∀ {α : Type} {a : α}, ∃ l, Takes
      (pure a : Noting (AddressUse × Option AddressPtr) (Stop A n) α) (.ok a) l := ⟨_, takes_pure⟩
  have hretarget : ∃ l, Takes (retargetBy .recording s) (retarget s) l := by
    rw [retarget_eq]
    unfold retargetBy
    split
    · exact hpure
    · exact Takes.bind_exists hread fun _ => hpure
  have hdirect : ∀ s : Main A n, ∃ l, Takes (deliversDirectlyBy .recording th s adequate)
      (deliversDirectly th s adequate) l := by
    intro s
    rw [deliversDirectly_eq]
    unfold deliversDirectlyBy
    split
    · exact Takes.bind_exists hread fun _ => hpure
    · exact hpure
  have hmail : ∀ s : Main A n,
      ∃ l, Takes (mailboxDeliverBy .recording th s) (mailboxDeliver th s) l := by
    intro s
    rw [mailboxDeliver_eq]
    unfold mailboxDeliverBy
    dsimp only
    split
    · exact hpure
    · exact Takes.bind_exists hread fun _ => hpure
  have hrest : ∃ l, Takes (do
      let s ← retargetBy .recording s
      let direct ← deliversDirectlyBy .recording th s adequate
      let s ← if direct then Reader.recording.call (directDeliver th s)
        else mailboxDeliverBy .recording th s
      return nextTarget s) (do
      let s ← retarget s
      let direct ← deliversDirectly th s adequate
      let s ← if direct then directDeliver th s else mailboxDeliver th s
      return nextTarget s) l := by
    refine Takes.bind_exists hretarget fun s₁ => Takes.bind_exists (hdirect s₁) fun direct => ?_
    cases direct with
    | true => exact Takes.bind_exists ⟨_, recording_call⟩ fun _ => hpure
    | false => exact Takes.bind_exists (hmail s₁) fun _ => hpure
  rw [deliver_eq]
  unfold deliverBy
  split
  · exact Takes.bind_exists hread fun _ => hrest
  · exact hrest

theorem addressUses_erase :
    (deliverBy .recording th s true).outcome = (deliver th s true, s.addressUses th) := by
  have htakes : ∃ l, Takes (deliverBy .recording th s true) (deliver th s true) l :=
    deliverBy_takes
  obtain ⟨l, h⟩ := htakes
  have huses : s.addressUses th = l := congrArg Prod.snd h.outcome_eq
  rw [huses]
  exact h.outcome_eq

theorem addressUses_eq {x : Outcome A n (Main A n)} {l : List (AddressUse × Option AddressPtr)}
    (h : Takes (deliverBy .recording th s true) x l) :
    s.addressUses th = l ∧ deliver th s true = x := by
  have hboth := addressUses_erase.symm.trans h.outcome_eq
  exact ⟨congrArg Prod.snd hboth, congrArg Prod.fst hboth⟩

section Target

variable (hlist : s.currSendAddressList = some p) (hget : p.get? = some addr)
include hlist hget

theorem recording_read_target :
    Takes (Reader.recording.read u c s.currSendAddressList) (.ok addr) [(u, some p)] := by
  have hderef : derefAddress c s.currSendAddressList = .ok addr := derefAddress_target hlist hget
  rw [← hderef, ← hlist]
  exact recording_read

theorem retargetBy_target (happ : s.isApp = false) :
    Takes (retargetBy .recording s) (.ok (s.readdressed addr)) [(.destCopy, some p)] := by
  unfold retargetBy
  rw [if_neg (by simp [happ])]
  exact (recording_read_target hlist hget).bind takes_pure

theorem deliversDirectlyBy_target :
    Takes (deliversDirectlyBy .recording th s true)
      (.ok (th.build.enableIntraThreadSend && addr.thread == th.myId))
      (if th.build.enableIntraThreadSend then [(.intraThreadTest, some p)] else []) := by
  unfold deliversDirectlyBy
  cases th.build.enableIntraThreadSend with
  | true =>
    rw [if_pos rfl, if_pos rfl, Bool.true_and]
    have h := (recording_read_target (u := .intraThreadTest) (c := s.ctxt) hlist hget).map
      (f := fun addr => addr.thread == th.myId && true)
    rwa [ok_bind, Bool.and_true] at h
  | false => exact takes_pure

theorem mailboxDeliverBy_target (happ : s.isApp = false) :
    Takes (mailboxDeliverBy .recording th s)
      (.ok (mboxSendBuffer { s with ctxt := tinselMboxSetLen s.ctxt s.currSize } addr.thread))
      [(.mboxSend, some p)] := by
  unfold mailboxDeliverBy
  rw [if_neg (by simp [happ])]
  exact (recording_read_target hlist hget).bind takes_pure

/-- The dereferences for a message of an ordinary pin. -/
theorem addressUses_target (happ : s.isApp = false) : s.addressUses th =
    (if th.logs 3 then [(.log, some p)] else []) ++ ([(.destCopy, some p)] ++
      ((if th.build.enableIntraThreadSend then [(.intraThreadTest, some p)] else []) ++
        if th.build.enableIntraThreadSend && addr.thread == th.myId then []
        else [(.mboxSend, some p)])) := by
  have hlist₁ : (s.readdressed addr).currSendAddressList = some p := hlist
  have hretarget := retargetBy_target hlist hget happ
  have hdirect : Takes (deliversDirectlyBy .recording th (s.readdressed addr) true) _ _ :=
    deliversDirectlyBy_target hlist₁ hget
  have hrest : ∃ x, Takes (do
      let s ← retargetBy .recording s
      let direct ← deliversDirectlyBy .recording th s true
      let s ← if direct then Reader.recording.call (directDeliver th s)
        else mailboxDeliverBy .recording th s
      return nextTarget s) x ([(.destCopy, some p)] ++
        ((if th.build.enableIntraThreadSend then [(.intraThreadTest, some p)] else []) ++
          if th.build.enableIntraThreadSend && addr.thread == th.myId then []
          else [(.mboxSend, some p)])) := by
    cases hself : th.build.enableIntraThreadSend && addr.thread == th.myId with
    | true =>
      rw [hself] at hdirect
      exact ⟨_, hretarget.bind (hdirect.bind recording_call.map)⟩
    | false =>
      rw [hself] at hdirect
      exact ⟨_, hretarget.bind (hdirect.bind (mailboxDeliverBy_target hlist₁ hget happ).map)⟩
  obtain ⟨x, hrest⟩ := hrest
  refine (addressUses_eq (x := x) ?_).1
  unfold deliverBy
  cases hlog : th.logs 3 with
  | true => exact (recording_read_target hlist hget).bind hrest
  | false => exact hrest

end Target

variable (th) in
/-- For a message of an application pin the pointer is read by the log statement, or else by the
test for a target on this thread; there it is null, and the thread stops. -/
theorem addressUses_app (happ : s.isApp = true) (hnull : s.currSendAddressList = none) :
    s.addressUses th = (if th.logs 3 then [(.log, none)]
      else if th.build.enableIntraThreadSend then [(.intraThreadTest, none)] else []) ∧
    ((th.logs 3 || th.build.enableIntraThreadSend) = true →
      deliver th s true = s.ctxt.fail .nullDeref) := by
  have hread : ∀ {u} {c : PThreadContext A n},
      Takes (Reader.recording.read u c none) (c.fail .nullDeref) [(u, none)] := recording_read
  have hretarget : Takes (retargetBy .recording s) (.ok s) [] := by
    unfold retargetBy
    rw [if_pos happ]
    exact takes_pure
  cases hlog : th.logs 3 with
  | true =>
    have htakes : Takes (deliverBy .recording th s true) (s.ctxt.fail .nullDeref)
        [(.log, none)] := by
      unfold deliverBy
      rw [hlog, hnull]
      exact hread.stop
    exact ⟨(addressUses_eq htakes).1, fun _ => (addressUses_eq htakes).2⟩
  | false =>
    cases hintra : th.build.enableIntraThreadSend with
    | true =>
      have htakes : Takes (deliverBy .recording th s true) (s.ctxt.fail .nullDeref)
          [(.intraThreadTest, none)] := by
        unfold deliverBy
        rw [hlog]
        refine hretarget.bind (Takes.stop ?_)
        unfold deliversDirectlyBy
        rw [hintra, hnull]
        exact hread.stop
      exact ⟨(addressUses_eq htakes).1, fun _ => (addressUses_eq htakes).2⟩
    | false =>
      have hmail : Takes (mailboxDeliverBy .recording th s) (mailboxDeliver th s) [] := by
        rw [mailboxDeliver_eq]
        unfold mailboxDeliverBy
        rw [if_pos happ, if_pos happ]
        exact takes_pure
      have hdirect : Takes (deliversDirectlyBy .recording th s true) (.ok false) [] := by
        unfold deliversDirectlyBy
        rw [hintra]
        exact takes_pure
      have htakes : Takes (deliverBy .recording th s true)
          (mailboxDeliver th s >>= fun s => .ok (nextTarget s)) [] := by
        unfold deliverBy
        rw [hlog]
        exact hretarget.bind (hdirect.bind hmail.map)
      exact ⟨(addressUses_eq htakes).1, fun h => by cases h⟩

end

/-- Then the main loop does not come out of the step. -/
theorem DeliverCall.mainStep_stops (h : DeliverCall th s i s₁)
    (hstop : deliver th s₁ true = s₁.ctxt.fail .nullDeref) :
    mainStep th s i = s₁.ctxt.fail .nullDeref := by
  rw [h.mainStep_eq, hstop]
  rfl

/-- Wherever the main loop delivers, the message is that of the last send handler, and the
dereferences of the delivery find the pointer at the remaining targets of that pin, unless the
pin is an application pin and the build logs the delivery or has intra-thread sends; then one of
them finds a null pointer and the thread stops. -/
theorem addressUses_atRemaining_iff {buf : Message A} {inputs : List (LoopInput A)}
    (hrun : mainRun th c buf inputs = .ok s) (hcall : DeliverCall th s i s₁) :
    mainStep th s i = deliver th s₁ true >>= (fun s' => .ok { s' with pc := .top }) ∧
    (deliverBy .recording th s₁ true).outcome = (deliver th s₁ true, s₁.addressUses th) ∧
    ∃ d pinIndex pin, lastSend s₁.ctxt.sig = some (d, pinIndex) ∧
      (th.device d).vtable.outputPins[pinIndex]? = some pin ∧
      ((∀ use ∈ s₁.addressUses th, AtRemaining th s₁ use.2 d pinIndex) ↔
        pin.isApp = false ∨ th.logs 3 = false ∧ th.build.enableIntraThreadSend = false) ∧
      ∀ use ∈ s₁.addressUses th, ¬AtRemaining th s₁ use.2 d pinIndex →
        use.2 = none ∧ mainStep th s i = s₁.ctxt.fail .nullDeref := by
  obtain ⟨hhost, hinv⟩ := mainRun_addressInv hrun
  obtain ⟨hinv₁, hpos⟩ := hcall.addressInv hhost hinv
  obtain ⟨d, pinIndex, pin, h⟩ := hinv₁ hpos
  refine ⟨hcall.mainStep_eq, addressUses_erase, d, pinIndex, pin, h.last, h.pin_eq, ?_⟩
  cases happ : pin.isApp with
  | false =>
    obtain ⟨p, hlist, addr, hget⟩ := h.pointsAt happ
    have hall : ∀ use ∈ s₁.addressUses th, AtRemaining th s₁ use.2 d pinIndex := by
      intro use huse
      have hptr : use.2 = s₁.currSendAddressList := by
        rw [addressUses_target hlist hget (h.isApp.trans happ)] at huse
        rw [hlist]
        grind
      rw [hptr]
      exact h.target happ
    exact ⟨iff_of_true hall (.inl rfl), fun use huse hnot => absurd (hall use huse) hnot⟩
  | true =>
    obtain ⟨huses, hstop⟩ := addressUses_app th (h.isApp.trans happ) (h.null happ)
    rw [huses]
    cases hlog : th.logs 3 with
    | true =>
      rw [hlog] at hstop
      refine ⟨by simp [not_atRemaining], fun use huse _ => ⟨?_, hcall.mainStep_stops (hstop rfl)⟩⟩
      rw [List.eq_of_mem_singleton huse]
    | false =>
      cases hintra : th.build.enableIntraThreadSend with
      | true =>
        rw [hlog, hintra] at hstop
        refine ⟨by simp [not_atRemaining], fun use huse _ => ⟨?_, hcall.mainStep_stops (hstop rfl)⟩⟩
        rw [List.eq_of_mem_singleton huse]
      | false => exact ⟨by simp, by simp⟩

/-- Device 1 delivers to the first of its targets. -/
theorem addressUses_atRemaining_iff_first : ∃ s s₁,
    mainRun (flagsThread (defaultBuild true)) (flagsContext 0#32 1#32) (flagsMessage 0#16 0#32)
      [freeMailbox] = .ok s ∧
    DeliverCall (flagsThread (defaultBuild true)) s freeMailbox s₁ ∧
    (s₁.addressUses (flagsThread (defaultBuild true))).map Prod.fst = [.destCopy, .mboxSend] ∧
    ∀ use ∈ s₁.addressUses (flagsThread (defaultBuild true)),
      AtRemaining (flagsThread (defaultBuild true)) s₁ use.2 1 0 := by
  obtain ⟨s, s₁, hrun, hcall, hlast, huses⟩ : ∃ s s₁,
      mainRun (flagsThread (defaultBuild true)) (flagsContext 0#32 1#32)
        (flagsMessage 0#16 0#32) [freeMailbox] = .ok s ∧
      DeliverCall (flagsThread (defaultBuild true)) s freeMailbox s₁ ∧
      lastSend s₁.ctxt.sig = some (1, 0) ∧
      (s₁.addressUses (flagsThread (defaultBuild true))).map Prod.fst = [.destCopy, .mboxSend] :=
    ⟨_, _, rfl, .call rfl rfl rfl rfl rfl (fun _ => ⟨rfl, rfl⟩) rfl rfl (by decide), rfl, rfl⟩
  refine ⟨s, s₁, hrun, hcall, huses, ?_⟩
  obtain ⟨-, -, d, pinIndex, pin, hlast', -, hall, -⟩ := addressUses_atRemaining_iff hrun hcall
  cases hlast.symm.trans hlast'
  exact hall.2 (.inr ⟨rfl, rfl⟩)

/-- Devices that send to the host; of their pins and computations they ask for no more than what
they have. -/
def appVTable : DeviceTypeVTable flagsApp :=
  { flagsVTable with
    readyToSendHandler := fun _ _ s => ⟨⟨s, []⟩, BitVec.and s 0x80000001#32⟩
    outputPins := [⟨fun _ _ _ _ => ⟨⟨0#32, []⟩, true, 1#32⟩, 20, 0#32, true, 1#16⟩] }

/-- The thread of two devices, of another type and with a log level. -/
def typedThread (build : Build) (level : Int) (vtable : DeviceTypeVTable flagsApp) :
    PThread flagsApp 2 :=
  { flagsThread build with
    device := fun d => { (flagsThread build).device d with vtable := vtable }
    applLogLevel := level
    devices_fit := flagsThread_fits }

def appThread (build : Build) (level : Int) : PThread flagsApp 2 :=
  typedThread build level appVTable

def loggingBuild : Build := { defaultBuild true with logging := true }

def intraThreadBuild : Build := { defaultBuild true with enableIntraThreadSend := true }

/-- Device `d` sends to the host, and the pointer is null at the use `u`. -/
def DeliversNull (th : PThread flagsApp 2) (u : AddressUse) (d : Fin 2) : Prop :=
  ∃ s s₁, mainRun th (flagsContext 0#32 1#32) (flagsMessage 0#16 0#32) [freeMailbox] = .ok s ∧
    DeliverCall th s freeMailbox s₁ ∧ lastSend s₁.ctxt.sig = some (d, 0) ∧
    (u, none) ∈ s₁.addressUses th ∧ ¬AtRemaining th s₁ none d 0 ∧
    mainStep th s freeMailbox = s₁.ctxt.fail .nullDeref

/-- The message of an application pin is delivered through a null pointer. -/
theorem addressUses_app_nullDeref :
    DeliversNull (appThread loggingBuild 3) .log 1 ∧
    DeliversNull (appThread intraThreadBuild 0) .intraThreadTest 1 := by
  constructor
  · obtain ⟨s, s₁, hrun, hcall, hlast, huse, hstop⟩ : ∃ s s₁,
        mainRun (appThread loggingBuild 3) (flagsContext 0#32 1#32) (flagsMessage 0#16 0#32)
          [freeMailbox] = .ok s ∧
        DeliverCall (appThread loggingBuild 3) s freeMailbox s₁ ∧
        lastSend s₁.ctxt.sig = some (1, 0) ∧
        s₁.addressUses (appThread loggingBuild 3) = [(.log, none)] ∧
        mainStep (appThread loggingBuild 3) s freeMailbox = s₁.ctxt.fail .nullDeref :=
      ⟨_, _, rfl, .call rfl rfl rfl rfl rfl (fun _ => ⟨rfl, rfl⟩) rfl rfl (by decide), rfl,
        rfl, rfl⟩
    exact ⟨s, s₁, hrun, hcall, hlast, by rw [huse]; exact List.mem_singleton_self _,
      not_atRemaining, hstop⟩
  · obtain ⟨s, s₁, hrun, hcall, hlast, huse, hstop⟩ : ∃ s s₁,
        mainRun (appThread intraThreadBuild 0) (flagsContext 0#32 1#32) (flagsMessage 0#16 0#32)
          [freeMailbox] = .ok s ∧
        DeliverCall (appThread intraThreadBuild 0) s freeMailbox s₁ ∧
        lastSend s₁.ctxt.sig = some (1, 0) ∧
        s₁.addressUses (appThread intraThreadBuild 0) = [(.intraThreadTest, none)] ∧
        mainStep (appThread intraThreadBuild 0) s freeMailbox = s₁.ctxt.fail .nullDeref :=
      ⟨_, _, rfl, .call rfl rfl rfl rfl rfl (fun _ => ⟨rfl, rfl⟩) rfl rfl (by decide), rfl,
        rfl, rfl⟩
    exact ⟨s, s₁, hrun, hcall, hlast, by rw [huse]; exact List.mem_singleton_self _,
      not_atRemaining, hstop⟩

end Softswitch
