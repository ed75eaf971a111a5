import Softswitch.Verify.Fabric

/-!
# The network moves messages on

Between the mailbox of its sender and that of its receiver a message is moved on four times: it is
pulled, sent, received and pushed.  So what is left to be done can be counted (`transit`).  Where
calls return (`Live`), nothing but a mailbox without an empty slot holds a message up, or the
program stops.
-/

namespace Softswitch

open Outcome Monitor Datagrams Runs Pipe Function

variable {P : MboxParams} {n : Nat} {net : ThreadNet n} {i : Fin n} {e : FabricEvent P n}
  {es : List (FabricEvent P n)} {carrier : Carrier} {F F' : Fabric P net}
  {slots : Fin n → Fin P.msgsPerThread → MboxBuffer P} {buffer : Fin n → MboxBuffer P}
  {inside : net.State → Fin n → Fin n → List (List (BitVec 8))}

/-! ## Transit -/

/-- How often the messages at a mailbox are still to be moved on. -/
def MboxThread.transit (t : MboxThread P) : Nat :=
  (if t.mbox.shared.sendActive then 4 else 0) + 3 * t.sending.length + t.pushing.length

/-- How often the messages are still to be moved on. -/
def Fabric.transit (inside : net.State → Fin n → Fin n → List (List (BitVec 8)))
    (F : Fabric P net) : Nat :=
  ∑ i, (F.threads i).transit + 2 * held (inside F.state)

theorem Did.sendActive {m m' : TinselMbox P} {notify : Bool} {e : MboxEvent P}
    (h : Did m m' notify e) (hpull : netPulled [e] = []) (hsend : e.gives = false) :
    m'.sendActive = m.sendActive := by
  cases h with
  | send => cases hsend
  | pull => cases hpull
  | _ => rfl

theorem Did.sendActive_send {m m' : TinselMbox P} {notify : Bool} {e : MboxEvent P}
    (h : Did m m' notify e) (hsend : e.gives = true) :
    m.sendActive = false ∧ m'.sendActive = true := by
  cases h with
  | send _ hidle _ => exact ⟨hidle, rfl⟩
  | _ => cases hsend

theorem Did.sendActive_pull {m m' : TinselMbox P} {notify : Bool} {dstThreadId : BitVec 32}
    {byteLength : Nat} {data : List (BitVec 8)} (hinv : SlotsInv m)
    (h : Did m m' notify (.pull dstThreadId byteLength data)) :
    m.sendActive = true ∧ m'.sendActive = false := by
  cases h with
  | pull _ _ _ hi => exact ⟨((hinv.send_iff _).1 hi).1, rfl⟩

section Transit

variable {t : MboxThread P} {party : Party} {l : Option (MboxEvent P)}
  {g : Config (TinselMbox P) MboxWait Party} {outs : List Outgoing}
  {ins : List (List (BitVec 8))} {b : Fin P.msgsPerThread → MboxBuffer P}
  {ls : List (Option (MboxEvent P))}

/-- A step at a mailbox moves a message on, or is given one, or neither. -/
theorem LoopInv.transit_mbox (h : LoopInv i b ls outs ins t)
    (hstep : PartyStep (mboxOperations P) party (t.MayCall (threadId i) party) t.mbox l g) :
    (t.after party l g).transit + (if (FabricEvent.mbox i l).carries then 1 else 0) =
      t.transit + if (FabricEvent.mbox i l).gives then 4 else 0 := by
  have hdid : ∀ e, l = some e → ∃ notify, Did t.mbox.shared g.shared notify e := by
    rintro e rfl
    obtain ⟨notify, -, hdid⟩ := mbox_step_did h.run (hstep.step fun o ho => h.disciplined ho)
    exact ⟨notify, hdid⟩
  cases MboxThread.made_of_step h.waits hstep with
  | nothing =>
    have hafter : t.after party none g = { t with mbox := g } := by
      cases party <;> rfl
    rw [hafter]
    unfold MboxThread.transit
    rw [hstep.shared_eq]
    rfl
  | @software e hpush hpull hsend =>
    obtain ⟨notify, hdid⟩ := hdid e rfl
    have hcarries : (FabricEvent.mbox i (some e)).carries = false := by
      cases e with
      | push data => exact absurd rfl (hpush data)
      | pull dstThreadId byteLength data => exact absurd rfl (hpull dstThreadId byteLength data)
      | _ => rfl
    have hgives : (FabricEvent.mbox i (some e)).gives = e.gives := rfl
    unfold MboxThread.transit
    rw [hcarries, hgives]
    show (if g.shared.sendActive then 4 else 0) + 3 * t.sending.length + t.pushing.length + 0 = _
    cases hgive : e.gives with
    | true =>
      obtain ⟨hidle, hactive⟩ := hdid.sendActive_send hgive
      simp only [hidle, hactive, if_true, Bool.false_eq_true, if_false]
      omega
    | false =>
      rw [hdid.sendActive (netPulled_of_ne hpull) hgive]
      rfl
  | @push len hin =>
    obtain ⟨notify, hdid⟩ := hdid _ rfl
    have hactive := hdid.sendActive rfl rfl
    have hpushing : t.pushing.length = 1 := by
      unfold MboxThread.pushing
      rw [hin]
      rfl
    unfold MboxThread.transit
    rw [hpushing]
    show (if g.shared.sendActive then 4 else 0) + 3 * t.sending.length + 0 + 1 = _ + 0
    rw [hactive]
  | @pull dstThreadId byteLength data hout =>
    obtain ⟨notify, hdid⟩ := hdid _ rfl
    obtain ⟨hactive, hidle⟩ := hdid.sendActive_pull h.run.inv.1
    have hsending : t.sending.length = 0 := by
      unfold MboxThread.sending
      rw [hout]
      rfl
    unfold MboxThread.transit
    rw [hsending, hactive]
    show (if g.shared.sendActive then 4 else 0) + 3 * 1 + t.pushing.length + 1 =
      4 + 3 * 0 + t.pushing.length + 0
    simp only [hidle, Bool.false_eq_true, if_false]
    omega

end Transit

variable (inside F) in
/-- What a step at one thread changes. -/
theorem Fabric.transit_setThread (i : Fin n) (t : MboxThread P) (s : net.State) :
    transit inside { F.setThread i t with state := s } + (F.threads i).transit +
        2 * held (inside F.state) =
      F.transit inside + t.transit + 2 * held (inside s) := by
  have hchange := Tally.sum_change (fun j => (F.threads j).transit)
    (fun j => (update F.threads i t j).transit) i fun j hj => by rw [update_of_ne hj]
  rw [update_self] at hchange
  have hsum : transit inside { F.setThread i t with state := s } =
    ∑ j, (update F.threads i t j).transit + 2 * held (inside s) := rfl
  unfold transit at *
  omega

/-- Every step moves a message on, or is given one, or neither. -/
theorem FabricInv.transit_step (h : FabricInv inside slots es F)
    (hnet : InOrder net threadId inside) (hstep : Fabric.Step carrier F e F') :
    F'.transit inside + (if e.carries then 1 else 0) =
      F.transit inside + if e.gives then 4 else 0 := by
  cases hstep with
  | @bind i s hbound hbind =>
    have hsum := Fabric.transit_setThread F inside i { F.threads i with bound := true } s
    have hsame : MboxThread.transit { F.threads i with bound := true } =
      (F.threads i).transit := rfl
    rw [hsame, hnet.held_bind hbind] at hsum
    show _ + 0 = _ + 0
    omega
  | @mbox i party l m hbound hstep =>
    have hsum := Fabric.transit_setThread F inside i ((F.threads i).after party l m) F.state
    have hthread := (h.loops i).transit_mbox hstep
    have hsame : F.setThread i ((F.threads i).after party l m) =
      { F.setThread i ((F.threads i).after party l m) with state := F.state } := rfl
    rw [hsame]
    omega
  | @recvfrom i d s t hreceiving hrecvfrom hreceive =>
    obtain rfl : (F.threads i).received d.data = t :=
      Except.ok.inj ((LoopInv.receive_eq (h.headed_received hnet hrecvfrom)).symm.trans hreceive)
    have hsum := Fabric.transit_setThread F inside i ((F.threads i).received d.data) s
    have hheld := hnet.held_recvfrom hrecvfrom
    have hpushing : (F.threads i).pushing.length = 0 := by
      unfold MboxThread.pushing
      rw [hreceiving.2]
      rfl
    have hthread : ((F.threads i).received d.data).transit = (F.threads i).transit + 1 := by
      unfold MboxThread.transit
      rw [hpushing]
      rfl
    show _ + 1 = _ + 0
    omega
  | @sendto i dstThreadId byteLength data s hout hcheck hsendto =>
    have hsum := Fabric.transit_setThread F inside i (F.threads i).sent s
    have hheld := hnet.held_sendto hsendto
    have hsending : (F.threads i).sending.length = 1 := by
      unfold MboxThread.sending
      rw [hout]
      rfl
    have hthread : (F.threads i).sent.transit + 3 = (F.threads i).transit := by
      unfold MboxThread.transit
      rw [hsending]
      exact Nat.add_right_comm _ _ _
    show _ + 1 = _ + 0
    omega

/-- In a run so far, each message that software gave to its mailbox was moved on four times, less
what is still to be done. -/
theorem FabricRun.transit (hn : n ≤ 2 ^ 32) (hnet : InOrder net threadId inside)
    (hrun : FabricRun net carrier slots buffer es F) :
    es.countP FabricEvent.carries + F.transit inside = 4 * es.countP FabricEvent.gives := by
  have hall : FabricInv inside slots es F ∧
      es.countP FabricEvent.carries + F.transit inside = 4 * es.countP FabricEvent.gives := by
    refine Run.invariant (I := fun es F => FabricInv inside slots es F ∧
      es.countP FabricEvent.carries + F.transit inside = 4 * es.countP FabricEvent.gives) hrun
      ⟨.start hnet, ?_⟩ ?_
    · have hthreads : ∑ i, ((Fabric.start carrier slots buffer : Fabric P net).threads i).transit =
          0 := Finset.sum_eq_zero fun i _ => rfl
      have hheld : held (inside net.start) = 0 := held_nil hnet.start
      show 0 + (_ + 2 * held (inside net.start)) = 4 * 0
      rw [hthreads, hheld]
    · rintro es F e F' ⟨hinv, htransit⟩ hstep
      have hone := hinv.transit_step hnet hstep
      refine ⟨hinv.step hn hnet hstep, ?_⟩
      have hfour : (if e.gives = true then 4 else 0) = 4 * if e.gives = true then 1 else 0 := by
        split <;> rfl
      rw [List.countP_append, List.countP_append, List.countP_singleton, List.countP_singleton]
      omega
  exact hall.2

/-! ## Progress -/

section Progress

variable {t : MboxThread P} {b : Fin P.msgsPerThread → MboxBuffer P}
  {ls : List (Option (MboxEvent P))} {outs : List Outgoing} {ins : List (List (BitVec 8))}

/-- A call that can be made and would not wait, and the rest of one whose wait is over, end. -/
theorem LoopInv.exists_step (h : LoopInv i b ls outs ins t) (party : Party)
    (hcall : ∃ o, t.MayCall (threadId i) party o ∧ ∀ w, WaitsFor o w → t.mbox.shared.ready w = true)
    (hready : ∀ w, t.Awaits party w → t.mbox.shared.ready w = true) : ∃ e g,
      PartyStep (mboxOperations P) party (t.MayCall (threadId i) party) t.mbox (some e) g := by
  have hslots := h.run.inv.1
  refine exists_partyStep (fun _ => ?_) fun x hx => ?_
  · obtain ⟨o, ho, hwait⟩ := hcall
    cases hcall : t.mbox.shared.call o with
    | error fault => exact absurd ⟨hslots, h.disciplined ho⟩ (TinselMbox.call_sat.of_error hcall)
    | ok out =>
      cases out with
      | done m' notify e => exact ⟨o, m', notify, e, ho, hcall⟩
      | wait w =>
        have hnot := TinselMbox.call_not_ready hcall
        rw [hwait w (TinselMbox.call_reports.of_ok hcall)] at hnot
        cases hnot
  · have hover := hready x.wait (h.waits party x hx)
    refine ⟨hover, ?_⟩
    cases hresume : t.mbox.shared.resume x.wait with
    | error fault => exact absurd hslots ((TinselMbox.resume_sat hover).of_error hresume)
    | ok out => exact ⟨out, hresume⟩

/-- The outgoing thread can pull what was given. -/
theorem LoopInv.exists_pull (h : LoopInv i b ls outs ins t) (hout : t.outgoing = .netPullMessage)
    (hactive : t.mbox.shared.sendActive = true) : ∃ e g, e.carries = true ∧
      PartyStep (mboxOperations P) .outgoing (t.MayCall (threadId i) .outgoing) t.mbox (some e)
        g := by
  obtain ⟨e, g, hstep⟩ := h.exists_step .outgoing
    ⟨.pull true, ⟨hout, rfl⟩, fun w hw => by cases hw; exact hactive⟩
    fun w hw => by rw [hw.2]; exact hactive
  refine ⟨e, g, ?_, hstep⟩
  cases MboxThread.made_of_step h.waits hstep with
  | pull => rfl

/-- The incoming thread can push where a slot is empty. -/
theorem LoopInv.exists_push (h : LoopInv i b ls outs ins t) {len : Nat}
    (hin : t.incoming = .netPushMessage len) (hempty : 0 < t.mbox.shared.numSlotsEmpty) :
    ∃ e g, e.carries = true ∧
      PartyStep (mboxOperations P) .incoming (t.MayCall (threadId i) .incoming) t.mbox (some e)
        g := by
  obtain ⟨e, g, hstep⟩ := h.exists_step .incoming
    ⟨_, ⟨len, 0, hin, rfl⟩, fun w hw => by cases hw; exact decide_eq_true hempty⟩
    fun w hw => by
      obtain ⟨len, rand, -, rfl⟩ := hw
      exact decide_eq_true hempty
  refine ⟨e, g, ?_, hstep⟩
  cases MboxThread.made_of_step h.waits hstep with
  | push => rfl

end Progress

theorem MboxThread.transit_eq_zero {t : MboxThread P} (h : t.transit = 0) :
    t.mbox.shared.sendActive = false ∧ t.sending = [] ∧ t.pushing = [] := by
  unfold MboxThread.transit at h
  refine ⟨?_, List.length_eq_zero_iff.1 (by omega), List.length_eq_zero_iff.1 (by omega)⟩
  cases hactive : t.mbox.shared.sendActive with
  | false => rfl
  | true =>
    rw [hactive, if_pos rfl] at h
    omega

/-- Where nothing is left to be moved on, all messages have come in and were pushed. -/
theorem FabricInv.delivered (h : FabricInv inside slots es F) (hzero : F.transit inside = 0)
    (i j : Fin n) :
    (softwareGave (results (es.filterMap (atMbox i)))).2.filterMap (toThread j) =
      (es.filterMap (arrivedAt j)).filterMap (fromThread i) ∧
    (es.filterMap (arrivedAt j)).map Datagram.data =
      netPushed (results (es.filterMap (atMbox j))) := by
  have hthreads : ∑ i, (F.threads i).transit = 0 := by
    unfold Fabric.transit at hzero
    omega
  have hheld : held (inside F.state) = 0 := by
    unfold Fabric.transit at hzero
    omega
  have hall : ∀ i, (F.threads i).transit = 0 :=
    fun i => (Finset.sum_eq_zero_iff.1 hthreads) i (Finset.mem_univ i)
  obtain ⟨hidle, hsending, -⟩ := MboxThread.transit_eq_zero (hall i)
  obtain ⟨-, -, hpushing⟩ := MboxThread.transit_eq_zero (hall j)
  have hgiven := (h.loops i).run.gives.sent
  have hpulled := (h.loops i).pulled
  have hcarried := h.carried i j
  have hpushed := (h.loops j).pushed
  rw [pending_idle hidle, List.append_nil] at hgiven
  rw [hsending] at hpulled
  rw [eq_nil_of_held hheld] at hcarried
  rw [hpushing] at hpushed
  unfold Passes at hpulled hcarried hpushed
  rw [List.append_nil] at hpulled hcarried hpushed
  exact ⟨by rw [hgiven, hpulled, hcarried], hpushed⟩

/-- Where all loops are at their starts, and the network and the mailboxes have nothing to send,
nothing is left to be moved on. -/
theorem Fabric.transit_eq_zero (hreceiving : ∀ i, (F.threads i).incoming = .recvfrom)
    (hnone : ∀ i j, inside F.state i j = []) (hout : ∀ i, (F.threads i).outgoing = .netPullMessage)
    (hidle : ∀ i, (F.threads i).mbox.shared.sendActive = false) : F.transit inside = 0 := by
  have hthreads : ∑ i, (F.threads i).transit = 0 := by
    refine Finset.sum_eq_zero fun i _ => ?_
    unfold MboxThread.transit MboxThread.sending MboxThread.pushing
    rw [hidle i, hout i, hreceiving i]
    rfl
  unfold Fabric.transit
  rw [hthreads, held_nil hnone]

variable (carrier F) in
/-- The network can move a message on, or the program can stop. -/
def Fabric.Moves : Prop :=
  (∃ e F', e.carries = true ∧ Fabric.Step carrier F e F') ∨ ∃ f, F.Stops carrier f

/-- What is in the network can be received. -/
theorem FabricInv.moves_of_inside (h : FabricInv inside slots es F)
    (hnet : InOrder net threadId inside) (hlive : Live net inside) (hreceiving : F.Receiving j)
    (hij : inside F.state i j ≠ []) : F.Moves carrier := by
  obtain ⟨r, hrecvfrom⟩ := hlive.recvfrom hij
  cases r with
  | none => exact .inr ⟨_, .recvfrom hreceiving hrecvfrom⟩
  | some out =>
    have hd := h.headed_received hnet hrecvfrom
    exact .inl ⟨.recvfrom j out.1, _, rfl, .recvfrom hreceiving hrecvfrom (LoopInv.receive_eq hd)⟩

/-- What was pulled can be sent, if nothing else is in the network. -/
theorem Fabric.moves_of_sendto (hlive : Live net inside) (hreceiving : ∀ j, F.Receiving j)
    (hnone : ∀ i j, inside F.state i j = [])
    (hout : (F.threads i).outgoing = .sendto dstThreadId byteLength data) : F.Moves carrier := by
  cases hcheck : checkSendto P carrier dstThreadId byteLength with
  | error f => exact .inr ⟨f, .check hout hcheck⟩
  | ok _ =>
    obtain ⟨r, hsendto⟩ : ∃ r, net.sendto F.state F.Receiving i dstThreadId data r :=
      hlive.sendto hreceiving hnone
    cases r with
    | none => exact .inr ⟨_, .sendto hout hcheck hsendto⟩
    | some s =>
      exact .inl ⟨.sendto i dstThreadId byteLength data, _, rfl, .sendto hout hcheck hsendto⟩

/-- While a message is on its way and no mailbox without an empty slot holds it up, the network can
move a message on, or the program stops.  The message is looked for from its end: it is to be
pushed, or in the network, or to be sent, or to be pulled. -/
theorem FabricInv.moves (h : FabricInv inside slots es F) (hnet : InOrder net threadId inside)
    (hlive : Live net inside) (hbound : ∀ i, (F.threads i).bound = true) :
    F.transit inside = 0 ∨ F.Moves carrier ∨
      ∃ j len, (F.threads j).incoming = .netPushMessage len ∧
        (F.threads j).mbox.shared.numSlotsEmpty = 0 := by
  by_cases hpush : ∃ j len, (F.threads j).incoming = .netPushMessage len
  · obtain ⟨j, len, hin⟩ := hpush
    by_cases hempty : (F.threads j).mbox.shared.numSlotsEmpty = 0
    · exact .inr (.inr ⟨j, len, hin, hempty⟩)
    · obtain ⟨e, g, hcarries, hstep⟩ := (h.loops j).exists_push hin (Nat.pos_of_ne_zero hempty)
      exact .inr (.inl (.inl ⟨.mbox j (some e), _, hcarries, .mbox (hbound j) hstep⟩))
  have hreceiving : ∀ j, F.Receiving j := by
    intro j
    cases hj : (F.threads j).incoming with
    | recvfrom => exact ⟨hbound j, hj⟩
    | netPushMessage len => exact absurd ⟨j, len, hj⟩ hpush
  by_cases hinside : ∃ i j, inside F.state i j ≠ []
  · obtain ⟨i, j, hij⟩ := hinside
    exact .inr (.inl (h.moves_of_inside hnet hlive (hreceiving j) hij))
  have hnone : ∀ i j, inside F.state i j = [] :=
    fun i j => by_contra fun hij => hinside ⟨i, j, hij⟩
  by_cases hsend : ∃ i dstThreadId byteLength data,
    (F.threads i).outgoing = .sendto dstThreadId byteLength data
  · obtain ⟨i, dstThreadId, byteLength, data, hout⟩ := hsend
    exact .inr (.inl (Fabric.moves_of_sendto hlive hreceiving hnone hout))
  have hout : ∀ i, (F.threads i).outgoing = .netPullMessage := by
    intro i
    cases hi : (F.threads i).outgoing with
    | netPullMessage => rfl
    | sendto dstThreadId byteLength data =>
      exact absurd ⟨i, dstThreadId, byteLength, data, hi⟩ hsend
  by_cases hactive : ∃ i, (F.threads i).mbox.shared.sendActive = true
  · obtain ⟨i, hi⟩ := hactive
    obtain ⟨e, g, hcarries, hstep⟩ := (h.loops i).exists_pull (hout i) hi
    exact .inr (.inl (.inl ⟨.mbox i (some e), _, hcarries, .mbox (hbound i) hstep⟩))
  · exact .inl (Fabric.transit_eq_zero (fun j => (hreceiving j).2) hnone hout
      fun i => Bool.eq_false_iff.2 fun hi => hactive ⟨i, hi⟩)

/-- Each message that software gives to its mailbox is moved on four times at most, and where
nothing is left to be moved on all of them have come in, in order, and were pushed.  If calls
return (`Live`) and all sockets are bound, the network is held up by nothing but a mailbox without
an empty slot, or the program can stop. -/
theorem Fabric.network_moves (hn : n ≤ 2 ^ 32) (hnet : InOrder net threadId inside)
    (hrun : FabricRun net carrier slots buffer es F) :
    es.countP FabricEvent.carries + F.transit inside = 4 * es.countP FabricEvent.gives ∧
    (F.transit inside = 0 → ∀ i j,
      (softwareGave (results (es.filterMap (atMbox i)))).2.filterMap (toThread j) =
        (es.filterMap (arrivedAt j)).filterMap (fromThread i) ∧
      (es.filterMap (arrivedAt j)).map Datagram.data =
        netPushed (results (es.filterMap (atMbox j)))) ∧
    (Live net inside → (∀ i, (F.threads i).bound = true) → F.transit inside = 0 ∨
      (∃ e F', e.carries = true ∧ Fabric.Step carrier F e F') ∨
      (∃ f, F.Stops carrier f) ∨
      ∃ j len, (F.threads j).incoming = .netPushMessage len ∧
        (F.threads j).mbox.shared.numSlotsEmpty = 0) :=
  ⟨hrun.transit hn hnet, (hrun.inv hn hnet).delivered,
    fun hlive hbound => ((hrun.inv hn hnet).moves hnet hlive hbound).imp_right fun h =>
      h.elim (fun h => h.imp_right .inl) fun h => .inr (.inr h)⟩

/-- The message was moved on once, and can be moved on again. -/
theorem Fabric.network_moves_pulled : ∃ es, ∃ F : Fabric packetMbox packetSockets,
    FabricRun packetSockets packetUnix (fun _ _ _ => 0#8) (fun _ _ => 0#8) es F ∧
    4 * es.countP FabricEvent.gives = 1 + F.transit Sockets.inside ∧
    ((∃ e F', e.carries = true ∧ F.Step packetUnix e F') ∨ ∃ f, F.Stops packetUnix f) := by
  obtain ⟨es, s, hrun, -, hcarries⟩ := exists_pulled true
  obtain ⟨hmoves, -, hgoes⟩ := Fabric.network_moves (by decide) Sockets.inOrder hrun
  rw [hcarries] at hmoves
  refine ⟨es, _, hrun, hmoves.symm, ?_⟩
  rcases hgoes (Sockets.live Nat.one_pos) (Fin.forall_fin_two.2 ⟨rfl, rfl⟩) with
    hzero | hstep | hstop | ⟨j, len, hin, -⟩
  · rw [hzero] at hmoves
    omega
  · exact .inl hstep
  · exact .inr hstop
  · revert hin
    revert j
    exact Fin.forall_fin_two.2 ⟨nofun, nofun⟩

end Softswitch
