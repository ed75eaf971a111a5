import Softswitch.Lib.Pipe
import Softswitch.MboxThread
import Softswitch.Verify.MailboxMessages

/-!
# What the threads at the mailboxes do

The threads that connect the mailboxes keep to the discipline of the mailboxes as long as software
does: what one of them pushes is what another one has pulled, with a header that names the mailbox.
So no assertion fails, messages arrive in order, and nothing but a mailbox without an empty slot
holds them up.
-/

namespace Softswitch

open Outcome Monitor Datagrams Runs Pipe Function

variable {P : MboxParams} {n : Nat} {m m' : TinselMbox P} {i j : Fin n} {o : MboxCall P}
  {e : MboxEvent P} {w : MboxWait} {data : List (BitVec 8)} {buffer : MboxBuffer P}
  {carrier : Carrier}

/-! ## What is reported -/

/-- What an operation reports when it ends. -/
inductive Reports (m : TinselMbox P) : MboxCall P → MboxEvent P → Prop
  | canRecv {result : Bool} : Reports m .canRecv (.canRecv result)
  | recv {i : Fin P.msgsPerThread} {buffer : MboxBuffer P} : Reports m .recv (.recv i buffer)
  | alloc {i : Fin P.msgsPerThread} : Reports m (.alloc (some i)) (.alloc i)
  | canSend {result : Bool} : Reports m .canSend (.canSend result)
  | setLen {byteLength : Nat} : Reports m (.setLen byteLength) (.setLen byteLength)
  | send {address : BitVec 32} {i : Fin P.msgsPerThread} :
      Reports m (.send address (some i)) (.send address i (m.slots i).buffer)
  | woken {cond : BitVec 32} : Reports m (.waitUntil cond) .woken
  | pull {block : Bool} {threadId : BitVec 32} {byteLength : Nat} {data : List (BitVec 8)} :
      Reports m (.pull block) (.pull threadId byteLength data)
  | noPull : Reports m (.pull false) .noPull
  | push {dstThreadId : BitVec 32} {data : List (BitVec 8)} {block : Bool} {rand : Nat} :
      Reports m (.push dstThreadId data block rand) (.push data)
  | noPush {dstThreadId : BitVec 32} {data : List (BitVec 8)} {rand : Nat} :
      Reports m (.push dstThreadId data false rand) .noPush
  | write {i : Fin P.msgsPerThread} {buffer : MboxBuffer P} :
      Reports m (.write i buffer) (.write i buffer)

/-- What an operation waits for. -/
inductive WaitsFor : MboxCall P → MboxWait → Prop
  | wakeup {cond : BitVec 32} : WaitsFor (.waitUntil cond) (.wakeup cond)
  | pull : WaitsFor (.pull true) .pull
  | push {dstThreadId : BitVec 32} {data : List (BitVec 8)} {rand : Nat} :
      WaitsFor (.push dstThreadId data true rand) (.push data rand)

/-- What an operation reports when its wait is over. -/
inductive Resumed : MboxWait → MboxEvent P → Prop
  | wakeup {cond : BitVec 32} : Resumed (.wakeup cond) .woken
  | pull {threadId : BitVec 32} {byteLength : Nat} {data : List (BitVec 8)} :
      Resumed .pull (.pull threadId byteLength data)
  | push {data : List (BitVec 8)} {rand : Nat} : Resumed (.push data rand) (.push data)

namespace TinselMbox

theorem mboxRecv_reports : Sat m.mboxRecv (fun out => Reports m .recv out.2.2) fun _ => True := by
  unfold mboxRecv
  refine Sat.bind sat_true fun _ _ _ => Sat.bind sat_true fun _ _ _ => ?_
  split
  · trivial
  · exact Sat.bind sat_true fun _ _ _ => Sat.bind sat_true fun _ _ _ => .recv

theorem mboxAlloc_reports {p : Option (Fin P.msgsPerThread)} :
    Sat (m.mboxAlloc p) (fun out => Reports m (.alloc p) out.2.2) fun _ => True := by
  unfold mboxAlloc
  refine Sat.bind sat_true fun _ _ _ => ?_
  refine Sat.bind (findSlot_sat.mono (fun _ h => h) fun _ _ => trivial) fun i _ hp => ?_
  subst hp
  exact Sat.bind sat_true fun _ _ _ => Sat.bind sat_true fun _ _ _ => .alloc

theorem mboxCanSend_reports :
    Sat m.mboxCanSend (fun out => Reports m .canSend out.2.2) fun _ => True := by
  unfold mboxCanSend
  refine Sat.bind sat_true fun _ _ _ => ?_
  split
  · exact Sat.bind sat_true fun _ _ _ => Sat.bind sat_true fun _ _ _ => .canSend
  · exact .canSend

theorem mboxSend_reports {address : BitVec 32} {p : Option (Fin P.msgsPerThread)} :
    Sat (m.mboxSend address p) (fun out => Reports m (.send address p) out.2.2)
      fun _ => True := by
  unfold mboxSend
  refine Sat.bind sat_true fun _ _ _ => Sat.bind sat_true fun _ _ _ => ?_
  refine Sat.bind (findSlot_sat.mono (fun _ h => h) fun _ _ => trivial) fun i _ hp => ?_
  subst hp
  exact Sat.bind sat_true fun _ _ _ => Sat.bind sat_true fun _ _ _ => .send

theorem pullActive_reports (block : Bool) :
    Sat m.pullActive (fun out => Reports m (.pull block) out.2.2 ∧ Resumed .pull out.2.2)
      fun _ => True := by
  unfold pullActive
  refine Sat.bind sat_true fun _ _ _ => Sat.bind sat_true fun _ _ _ => ?_
  refine Sat.bind sat_true fun _ _ _ => Sat.bind sat_true fun _ _ _ => ?_
  refine Sat.bind sat_true fun _ _ _ => Sat.bind sat_true fun _ _ _ => ?_
  exact Sat.bind sat_true fun _ _ _ => ⟨.pull, .pull⟩

theorem pushEmpty_reports {rand : Nat} :
    Sat (m.pushEmpty data rand) (fun out => out.2.2 = .push data) fun _ => True := by
  unfold pushEmpty
  refine Sat.bind sat_true fun _ _ _ => Sat.bind sat_true fun _ _ _ => ?_
  exact Sat.bind sat_true fun _ _ _ => rfl

/-- An operation that ends reports its own event, and one that waits waits for its own condition. -/
theorem call_reports : Sat (m.call o)
    (fun
      | .done _ _ e => Reports m o e
      | .wait w => WaitsFor o w) fun _ => True := by
  cases o with
  | canRecv => exact .canRecv
  | recv => exact Sat.bind mboxRecv_reports fun _ _ h => h
  | alloc p => exact Sat.bind mboxAlloc_reports fun _ _ h => h
  | canSend => exact Sat.bind mboxCanSend_reports fun _ _ h => h
  | setLen byteLength =>
    refine Sat.bind (Sat.bind (R := fun _ => True) sat_true fun _ _ _ => ?_) fun _ _ h => h
    exact .setLen
  | send address p => exact Sat.bind mboxSend_reports fun _ _ h => h
  | waitUntil cond =>
    refine Sat.bind sat_true fun _ _ _ => ?_
    split
    · exact .woken
    · exact .wakeup
  | pull block =>
    show Sat (m.netPullMessage block) _ _
    unfold netPullMessage
    split
    · cases block with
      | true => exact .pull
      | false => exact .noPull
    · exact Sat.bind (pullActive_reports block) fun _ _ h => h.1
  | push dstThreadId data block rand =>
    show Sat (m.netPushMessage dstThreadId data block rand) _ _
    unfold netPushMessage
    refine Sat.bind sat_true fun _ _ _ => Sat.bind sat_true fun _ _ _ => ?_
    refine Sat.bind sat_true fun _ _ _ => ?_
    split
    · cases block with
      | true => exact .push
      | false => exact .noPush
    · refine Sat.bind pushEmpty_reports fun out _ h => ?_
      obtain ⟨m', notify, e⟩ := out
      cases h
      exact .push
  | write i buffer => exact .write

theorem resume_reports : Sat (m.resume w) (fun out => Resumed w out.2.2) fun _ => True := by
  cases w with
  | wakeup cond => exact .wakeup
  | pull => exact (pullActive_reports true).mono (fun _ h => h.2) fun _ h => h
  | push data rand =>
    refine pushEmpty_reports.mono (fun out h => ?_) fun _ h => h
    rw [h]
    exact .push

end TinselMbox

/-! ## Headers -/

theorem copyOut_length {len : Nat} (hlen : len ≤ P.bytesPerMsg) :
    (copyOut buffer len).length = len := by
  unfold copyOut
  rw [List.length_take, List.length_ofFn, min_eq_left hlen]

/-- What was copied in is copied out again. -/
theorem copyOut_copyIn (hfits : data.length ≤ P.bytesPerMsg) :
    copyOut (copyIn buffer data) data.length = data :=
  (List.prefix_iff_eq_take.1 (starts_copyIn hfits)).symm

theorem byteAt_copyIn {b : MboxBuffer P} {k len : Nat} (hk : k < len)
    (hlen : len ≤ P.bytesPerMsg) : byteAt (copyIn b (copyOut buffer len)) k = byteAt buffer k := by
  have hin : k < P.bytesPerMsg := by omega
  have hlength : k < (copyOut buffer len).length := by rwa [copyOut_length hlen]
  unfold byteAt copyIn
  rw [dif_pos hin, dif_pos hin, dif_pos hlength]
  simp [copyOut]

theorem wordAt_copyIn {b : MboxBuffer P} {k len : Nat} (hk : k + 4 ≤ len)
    (hlen : len ≤ P.bytesPerMsg) : wordAt (copyIn b (copyOut buffer len)) k = wordAt buffer k := by
  unfold wordAt
  rw [byteAt_copyIn (by omega) hlen, byteAt_copyIn (by omega) hlen, byteAt_copyIn (by omega) hlen,
    byteAt_copyIn (by omega) hlen]

/-- A message that fits into a buffer and has a header, with the threads it names. -/
structure Headed (P : MboxParams) (source dest : BitVec 32) (data : List (BitVec 8)) : Prop where
  fits : data.length ≤ P.bytesPerMsg
  dest : ∀ b : MboxBuffer P, destThread (copyIn b data) = dest
  source : ∀ b : MboxBuffer P, sourceThread (copyIn b data) = source

/-- The header of a buffer goes with its bytes. -/
theorem headed_copyOut (buffer : MboxBuffer P) {len : Nat} (hheader : sizeofPacket ≤ len)
    (hlen : len ≤ P.bytesPerMsg) :
    Headed P (sourceThread buffer) (destThread buffer) (copyOut buffer len) := by
  unfold sizeofPacket at hheader
  refine ⟨(copyOut_length hlen).trans_le hlen, fun b => ?_, fun b => ?_⟩
  · exact wordAt_copyIn (by omega) hlen
  · exact wordAt_copyIn (by omega) hlen

/-! ## The loops -/

namespace MboxThread

/-- The message that is to be sent. -/
def sending (t : MboxThread P) : List Outgoing :=
  match t.outgoing with
  | .netPullMessage => []
  | .sendto dstThreadId byteLength data => [(dstThreadId, byteLength, data)]

/-- The message that is to be pushed. -/
def pushing (t : MboxThread P) : List (List (BitVec 8)) :=
  match t.incoming with
  | .recvfrom => []
  | .netPushMessage len => [copyOut t.buffer len]

/-- What a thread waits for at the mailbox. -/
def Awaits (t : MboxThread P) : Party → MboxWait → Prop
  | .cpu, w => ∃ cond, w = .wakeup cond
  | .incoming, w => ∃ len rand, t.incoming = .netPushMessage len ∧
      w = .push (copyOut t.buffer len) rand
  | .outgoing, w => t.outgoing = .netPullMessage ∧ w = .pull

/-- What a thread has done in a step at the mailbox. -/
inductive Made (id : BitVec 32) (t : MboxThread P) : Party → Option (MboxEvent P) → Prop
  | nothing {party : Party} : Made id t party none
  | software {e : MboxEvent P} (hpush : ∀ data, e ≠ .push data)
      (hpull : ∀ dstThreadId byteLength data, e ≠ .pull dstThreadId byteLength data)
      (hsend : ∀ address i buffer, e = .send address i buffer →
        destThread buffer = address ∧ sourceThread buffer = id ∧
        ∀ len, t.mbox.shared.sendLength = some len → sizeofPacket ≤ len) :
      Made id t .cpu (some e)
  | push {len : Nat} (hin : t.incoming = .netPushMessage len) :
      Made id t .incoming (some (.push (copyOut t.buffer len)))
  | pull {dstThreadId : BitVec 32} {byteLength : Nat} {data : List (BitVec 8)}
      (hout : t.outgoing = .netPullMessage) :
      Made id t .outgoing (some (.pull dstThreadId byteLength data))

variable {id : BitVec 32} {t : MboxThread P} {party : Party} {l : Option (MboxEvent P)}
  {g : Config (TinselMbox P) MboxWait Party}

theorem made_of_reports (ho : t.MayCall id party o) (h : Reports t.mbox.shared o e) :
    Made id t party (some e) := by
  cases party with
  | incoming =>
    obtain ⟨len, rand, hin, rfl⟩ := ho
    cases h
    exact .push hin
  | outgoing =>
    obtain ⟨hout, rfl⟩ := ho
    cases h
    exact .pull hout
  | cpu =>
    cases h with
    | pull | noPull | push | noPush => exact ho.elim
    | send =>
      refine .software nofun nofun fun address i buffer heq => ?_
      cases heq
      exact ho.2 _ rfl
    | _ => exact .software nofun nofun nofun

theorem made_of_resumed (hw : t.Awaits party w) (h : Resumed w e) : Made id t party (some e) := by
  cases party with
  | cpu =>
    obtain ⟨cond, rfl⟩ := hw
    cases h
    exact .software nofun nofun nofun
  | incoming =>
    obtain ⟨len, rand, hin, rfl⟩ := hw
    cases h
    exact .push hin
  | outgoing =>
    obtain ⟨hout, rfl⟩ := hw
    cases h
    exact .pull hout

/-- A step at the mailbox is one that the loop of the thread makes. -/
theorem made_of_step (hwaits : ∀ party x, t.mbox.waiting party = some x → t.Awaits party x.wait)
    (hstep : PartyStep (mboxOperations P) party (t.MayCall id party) t.mbox l g) :
    Made id t party l := by
  cases hstep with
  | ends hi ho hcall => exact made_of_reports ho (TinselMbox.call_reports.of_ok hcall)
  | blocks | sleeps => exact .nothing
  | resumes hi hready hresume =>
    exact made_of_resumed (hwaits party _ hi) (TinselMbox.resume_reports.of_ok hresume)

theorem awaits_of_call (ho : t.MayCall id party o) (h : WaitsFor o w) : t.Awaits party w := by
  cases party with
  | cpu =>
    cases h with
    | wakeup => exact ⟨_, rfl⟩
    | pull | push => exact ho.elim
  | incoming =>
    obtain ⟨len, rand, hin, rfl⟩ := ho
    cases h
    exact ⟨len, rand, hin, rfl⟩
  | outgoing =>
    obtain ⟨hout, rfl⟩ := ho
    cases h
    exact ⟨hout, rfl⟩

/-- The threads wait for what their loops are at, also after a step. -/
theorem awaits_after (hwaits : ∀ party x, t.mbox.waiting party = some x → t.Awaits party x.wait)
    (hstep : PartyStep (mboxOperations P) party (t.MayCall id party) t.mbox l g)
    {party' : Party} {x : Waiter MboxWait} (hx : (t.after party l g).mbox.waiting party' = some x) :
    (t.after party l g).Awaits party' x.wait := by
  have hother : ∀ {party'} {x : Waiter MboxWait}, party' ≠ party →
      g.waiting party' = some x → t.Awaits party' x.wait := by
    intro party' x hne hx
    obtain ⟨y, hy, hwait⟩ := hstep.waiting_of_ne hne hx
    exact hwait ▸ hwaits party' y hy
  have hself : ∀ {x : Waiter MboxWait}, g.waiting party = some x →
      l = none ∧ t.Awaits party x.wait := by
    intro x hx
    obtain ⟨hnone, ⟨o, ho, hcall⟩ | ⟨y, hy, hwait⟩⟩ := hstep.waiting_self hx
    · exact ⟨hnone, awaits_of_call ho (TinselMbox.call_reports.of_ok hcall)⟩
    · exact ⟨hnone, hwait ▸ hwaits party y hy⟩
  cases made_of_step hwaits hstep with
  | nothing =>
    have hafter : t.after party none g = { t with mbox := g } := by
      cases party <;> rfl
    rw [hafter] at hx ⊢
    by_cases hparty : party' = party
    · subst hparty
      exact (hself hx).2
    · exact hother hparty hx
  | software =>
    cases party' with
    | cpu => exact absurd (hself hx).1 (by simp)
    | incoming => exact hother (by simp) hx
    | outgoing => exact hother (by simp) hx
  | push =>
    cases party' with
    | cpu => exact hother (by simp) hx
    | incoming => exact absurd (hself hx).1 (by simp)
    | outgoing => exact hother (by simp) hx
  | pull =>
    cases party' with
    | cpu => exact hother (by simp) hx
    | incoming => exact hother (by simp) hx
    | outgoing => exact absurd (hself hx).1 (by simp)

end MboxThread

/-! ## What a loop keeps -/

section Events

variable {es : List (MboxEvent P)}

theorem netPushed_snoc : netPushed (es ++ [e]) = netPushed es ++ netPushed [e] :=
  List.filterMap_append

theorem netPulled_snoc : netPulled (es ++ [e]) = netPulled es ++ netPulled [e] :=
  List.filterMap_append

theorem netPushed_of_ne (h : ∀ data, e ≠ .push data) : netPushed [e] = [] := by
  cases e with
  | push data => exact absurd rfl (h data)
  | _ => rfl

theorem netPulled_of_ne (h : ∀ dstThreadId byteLength data, e ≠ .pull dstThreadId byteLength data) :
    netPulled [e] = [] := by
  cases e with
  | pull threadId byteLength data => exact absurd rfl (h threadId byteLength data)
  | _ => rfl

/-- Only `mboxSend` gives a message. -/
theorem mem_softwareGave_snoc {x : Outgoing} (hx : x ∈ (softwareGave (es ++ [e])).2) :
    x ∈ (softwareGave es).2 ∨ ∃ address i buffer len, e = .send address i buffer ∧
      (softwareGave es).1 = some len ∧ x = (address, len, copyOut buffer len) := by
  rw [softwareGave_snoc] at hx
  cases e with
  | send address i buffer =>
    rcases List.mem_append.1 hx with hx | hx
    · exact .inl hx
    · cases hlen : (softwareGave es).1 with
      | none =>
        rw [hlen] at hx
        cases hx
      | some len =>
        rw [hlen] at hx
        exact .inr ⟨address, i, buffer, len, rfl, rfl, List.mem_singleton.1 hx⟩
  | _ => exact .inl hx

end Events

theorem MboxRun.myThreadId {ι : Type} [DecidableEq ι] {id : BitVec 32}
    {slots : Fin P.msgsPerThread → MboxBuffer P} {ls : List (Option (MboxEvent P))}
    {g : MboxConfig P ι} (hrun : MboxRun id slots ls g) : g.shared.myThreadId = id := by
  have hkeeps := keeps_of_did (P := P) (I := fun _ m => m.myThreadId = id)
    fun _ _ _ _ _ _ hid _ hdid => by cases hdid <;> exact hid
  exact (hkeeps.run ⟨init_slotsInv, rfl⟩ (fun i x hx => by cases hx) hrun).1.2

/-- What holds of thread `i` after the steps `ls` at its mailbox.  It has sent the messages `sent`
into the network, and `arrived` have come in. -/
structure LoopInv (i : Fin n) (slots : Fin P.msgsPerThread → MboxBuffer P)
    (ls : List (Option (MboxEvent P))) (sent : List Outgoing) (arrived : List (List (BitVec 8)))
    (t : MboxThread P) : Prop where
  run : MboxRun (threadId i) slots ls t.mbox
  waits : ∀ party x, t.mbox.waiting party = some x → t.Awaits party x.wait
  headed : ∀ m ∈ (softwareGave (results ls)).2, Headed P (threadId i) m.1 m.2.2 ∧
    m.2.1 = m.2.2.length
  incoming : ∀ len, t.incoming = .netPushMessage len →
    len ≤ P.bytesPerMsg ∧ destThread t.buffer = threadId i
  pulled : Passes (netPulled (results ls)) sent t.sending
  pushed : Passes arrived (netPushed (results ls)) t.pushing

namespace LoopInv

variable {slots : Fin P.msgsPerThread → MboxBuffer P} {ls : List (Option (MboxEvent P))}
  {outs : List Outgoing} {ins : List (List (BitVec 8))} {t t' : MboxThread P} {party : Party}
  {l : Option (MboxEvent P)} {g : Config (TinselMbox P) MboxWait Party}

/-- So the threads keep to the discipline of the mailbox. -/
theorem disciplined (h : LoopInv i slots ls outs ins t)
    (ho : t.MayCall (threadId i) party o) : Disciplined t.mbox.shared o := by
  cases party with
  | cpu =>
    cases o with
    | pull | push => exact ho.elim
    | send => exact ho.1
    | _ => exact ho
  | incoming =>
    obtain ⟨len, rand, hin, rfl⟩ := ho
    obtain ⟨hlen, hdest⟩ := h.incoming len hin
    exact ⟨hdest.trans h.run.myThreadId.symm, (copyOut_length hlen).trans_le hlen⟩
  | outgoing =>
    obtain ⟨-, rfl⟩ := ho
    trivial

theorem start (bound : Bool) (buffer : MboxBuffer P) :
    LoopInv i slots [] [] [] ⟨bound, Monitor.start (.init (threadId i) slots), buffer, .recvfrom,
      .netPullMessage⟩ where
  run := .nil
  waits _ _ hx := by cases hx
  headed _ hm := by cases hm
  incoming _ hin := by cases hin
  pulled := .empty
  pushed := .empty

theorem bind (h : LoopInv i slots ls outs ins t) :
    LoopInv i slots ls outs ins { t with bound := true } :=
  ⟨h.run, h.waits, h.headed, h.incoming, h.pulled, h.pushed⟩

/-- What software gives has a header. -/
theorem headed_snoc (h : LoopInv i slots ls outs ins t)
    (hsend : ∀ address k buffer, e = .send address k buffer →
      destThread buffer = address ∧ sourceThread buffer = threadId i ∧
      ∀ len, t.mbox.shared.sendLength = some len → sizeofPacket ≤ len) :
    ∀ m ∈ (softwareGave (results ls ++ [e])).2, Headed P (threadId i) m.1 m.2.2 ∧
      m.2.1 = m.2.2.length := by
  intro m hm
  obtain hm | ⟨address, k, buffer, len, rfl, hlen, rfl⟩ := mem_softwareGave_snoc hm
  · exact h.headed m hm
  · obtain ⟨hdest, hsource, hheader⟩ := hsend address k buffer rfl
    have hset : t.mbox.shared.sendLength = some len := h.run.gives.length.symm.trans hlen
    have hfits := h.run.inv.1.length_le len hset
    have hheaded := headed_copyOut buffer (hheader len hset) hfits
    rw [hdest, hsource] at hheaded
    exact ⟨hheaded, (copyOut_length hfits).symm⟩

/-- A step of one of the threads at the mailbox. -/
theorem mbox (h : LoopInv i slots ls outs ins t)
    (hstep : PartyStep (mboxOperations P) party (t.MayCall (threadId i) party) t.mbox l g) :
    LoopInv i slots (ls ++ [l]) outs ins (t.after party l g) := by
  have hrun : MboxRun (threadId i) slots (ls ++ [l]) g :=
    h.run.snoc (hstep.step fun o ho => h.disciplined ho)
  have hwaits : ∀ party' x, (t.after party l g).mbox.waiting party' = some x →
      (t.after party l g).Awaits party' x.wait :=
    fun _ _ => MboxThread.awaits_after h.waits hstep
  cases MboxThread.made_of_step h.waits hstep with
  | nothing =>
    have hafter : t.after party none g = { t with mbox := g } := by
      cases party <;> rfl
    have hresults : results (ls ++ [none]) = results ls := by simp
    rw [hafter] at hwaits ⊢
    refine ⟨hrun, hwaits, ?_, h.incoming, ?_, ?_⟩
    · rw [hresults]
      exact h.headed
    · rw [hresults]
      exact h.pulled
    · rw [hresults]
      exact h.pushed
  | @software e hpush hpull hsend =>
    have hresults : results (ls ++ [some e]) = results ls ++ [e] := results_snoc
    refine ⟨hrun, hwaits, ?_, h.incoming, ?_, ?_⟩
    · rw [hresults]
      exact h.headed_snoc hsend
    · rw [hresults, netPulled_snoc, netPulled_of_ne hpull, List.append_nil]
      exact h.pulled
    · rw [hresults, netPushed_snoc, netPushed_of_ne hpush, List.append_nil]
      exact h.pushed
  | @push len hin =>
    have hresults : results (ls ++ [some (.push (copyOut t.buffer len))]) =
      results ls ++ [.push (copyOut t.buffer len)] := results_snoc
    refine ⟨hrun, hwaits, ?_, nofun, ?_, ?_⟩
    · rw [hresults]
      exact h.headed_snoc fun _ _ _ heq => by cases heq
    · rw [hresults, netPulled_snoc, netPulled_of_ne (fun _ _ _ h => by cases h), List.append_nil]
      exact h.pulled
    · have hpushing : t.pushing = [copyOut t.buffer len] := by
        unfold MboxThread.pushing
        rw [hin]
      have hpushed := h.pushed
      rw [hpushing] at hpushed
      rw [hresults, netPushed_snoc]
      exact hpushed.take_all
  | @pull dstThreadId byteLength data hout =>
    have hresults : results (ls ++ [some (.pull dstThreadId byteLength data)]) =
      results ls ++ [.pull dstThreadId byteLength data] := results_snoc
    refine ⟨hrun, hwaits, ?_, h.incoming, ?_, ?_⟩
    · rw [hresults]
      exact h.headed_snoc fun _ _ _ heq => by cases heq
    · have hsending : t.sending = [] := by
        unfold MboxThread.sending
        rw [hout]
      have hpulled := h.pulled
      rw [hsending] at hpulled
      rw [hresults, netPulled_snoc]
      exact hpulled.put _
    · rw [hresults, netPushed_snoc, netPushed_of_ne (fun _ h => by cases h), List.append_nil]
      exact h.pushed

/-- What comes in is for this thread. -/
theorem receive_eq {d : ThreadDatagram n} (hd : Headed P (threadId d.source) (threadId i) d.data) :
    t.receive carrier d = .ok (t.received d.data) := by
  cases carrier with
  | unix addressLength =>
    unfold MboxThread.receive
    rw [List.take_of_length_le hd.fits]
  | mpi =>
    have hsource : sourceThread (t.received d.data).buffer = threadId d.source := hd.source _
    unfold MboxThread.receive
    rw [if_pos hd.fits, if_pos hsource]

/-- The message that came in is the one that is to be pushed. -/
theorem received {d : ThreadDatagram n} (h : LoopInv i slots ls outs ins t)
    (hd : Headed P (threadId d.source) (threadId i) d.data) (hin : t.incoming = .recvfrom) :
    LoopInv i slots ls outs (ins ++ [d.data]) (t.received d.data) where
  run := h.run
  waits party x hx := by
    have hwaits := h.waits party x hx
    cases party with
    | cpu => exact hwaits
    | incoming =>
      obtain ⟨len, rand, hpush, -⟩ := hwaits
      rw [hin] at hpush
      cases hpush
    | outgoing => exact hwaits
  headed := h.headed
  incoming len hlen := by
    cases hlen
    exact ⟨hd.fits, hd.dest _⟩
  pulled := h.pulled
  pushed := by
    have hnone : t.pushing = [] := by
      unfold MboxThread.pushing
      rw [hin]
    have hone : (t.received d.data).pushing = [d.data] := by
      show [copyOut (copyIn t.buffer d.data) d.data.length] = [d.data]
      rw [copyOut_copyIn hd.fits]
    have hpushed := h.pushed
    rw [hnone] at hpushed
    rw [hone]
    exact hpushed.put _

/-- The message is no longer with the outgoing thread. -/
theorem sent {dstThreadId : BitVec 32} {byteLength : Nat} {data : List (BitVec 8)}
    (h : LoopInv i slots ls outs ins t)
    (hout : t.outgoing = .sendto dstThreadId byteLength data) :
    LoopInv i slots ls (outs ++ [(dstThreadId, byteLength, data)]) ins t.sent where
  run := h.run
  waits party x hx := by
    have hwaits := h.waits party x hx
    cases party with
    | cpu => exact hwaits
    | incoming => exact hwaits
    | outgoing =>
      obtain ⟨hpull, -⟩ := hwaits
      rw [hout] at hpull
      cases hpull
  headed := h.headed
  incoming := h.incoming
  pulled := by
    have hone : t.sending = [(dstThreadId, byteLength, data)] := by
      unfold MboxThread.sending
      rw [hout]
    have hpulled := h.pulled
    rw [hone] at hpulled
    exact hpulled.take_all
  pushed := h.pushed

/-- What is to be sent was given by software. -/
theorem headed_sending {dstThreadId : BitVec 32} {byteLength : Nat} {data : List (BitVec 8)}
    (h : LoopInv i slots ls outs ins t)
    (hout : t.outgoing = .sendto dstThreadId byteLength data) :
    Headed P (threadId i) dstThreadId data ∧ byteLength = data.length := by
  have hone : t.sending = [(dstThreadId, byteLength, data)] := by
    unfold MboxThread.sending
    rw [hout]
  have hpulled : (dstThreadId, byteLength, data) ∈ netPulled (results ls) :=
    h.pulled.of_mem_inside (hone ▸ List.mem_singleton_self _)
  have hgave : Passes (softwareGave (results ls)).2 (netPulled (results ls))
    (pending t.mbox.shared) := h.run.gives.sent
  exact h.headed _ (hgave.of_mem hpulled)

end LoopInv

end Softswitch
