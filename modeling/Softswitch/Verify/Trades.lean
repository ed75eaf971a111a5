import Softswitch.Interconnect
import Softswitch.Verify.AddressList
import Softswitch.Verify.Delivery
import Softswitch.Verify.Termination

/-!
# What a step takes and gives

A step of a thread that its mailbox woke takes at most the message that it was woken for out of
its receive slots, and puts at most one message into its send slot, for the host or for a target
of one of its pins (`mainStep_trades`).  A thread goes on to its wait only when its compute search
is over, or when it can receive or send (`Stepped.waits`).
-/

namespace Softswitch

open Outcome

variable {A : AppTypes} {n : Nat} {th : PThread A n} {c c' : PThreadContext A n}
  {s s' : Main A n} {i : LoopInput A} {w : WaitLocals} {l es : List (Event A n)}
  {m : Message A} {x : Parcel A} {released : Prop}

/-! ## Messages and parcels -/

theorem taken_sig : taken c.sig = taken c.trace := by
  unfold taken PThreadContext.sig
  rw [List.filterMap_filter]
  refine congrFun (congrArg _ (funext fun e => ?_)) c.trace
  cases e <;> rfl

theorem given_sig : given c.sig = given c.trace := by
  unfold given PThreadContext.sig
  rw [List.filterMap_filter]
  refine congrFun (congrArg _ (funext fun e => ?_)) c.trace
  cases e <;> rfl

/-- The parcel is for the host, or it is a message from an output pin for one of its targets. -/
def Addressed (th : PThread A n) (x : Parcel A) : Prop :=
  x.dest = th.hostId ∨ ∃ m, FromPin th ⟨m.dest.thread, m⟩ ∧ x = .message m.dest.thread m

/-- A step takes `received` out of the receive slots and gives `sent` to the send slot, where
the mailbox has answered that it can. -/
structure Trades (th : PThread A n) (c : PThreadContext A n) (i : LoopInput A)
    (c' : PThreadContext A n) (received : List (Message A)) (sent : List (Parcel A)) : Prop where
  taken : taken c'.trace = taken c.trace ++ received
  given : given c'.trace = given c.trace ++ sent
  receives : received = [] ∨ i.canRecv = true ∧ received = [i.message]
  sends : sent = [] ∨ i.canSend = true ∧ ∃ x, sent = [x] ∧ Addressed th x

namespace Trades

theorem of_sig (hsig : c'.sig = c.sig ++ es)
    (hreceives : Softswitch.taken es = [] ∨ i.canRecv = true ∧ Softswitch.taken es = [i.message])
    (hsends : Softswitch.given es = [] ∨
      i.canSend = true ∧ ∃ x, Softswitch.given es = [x] ∧ Addressed th x) :
    Trades th c i c' (Softswitch.taken es) (Softswitch.given es) := by
  refine ⟨?_, ?_, hreceives, hsends⟩
  · rw [← taken_sig, hsig, ← taken_sig]
    exact List.filterMap_append
  · rw [← given_sig, hsig, ← given_sig]
    exact List.filterMap_append

/-- Handlers are entered, and nothing else. -/
theorem of_enters (h : Records Event.isEnter c c') : Trades th c i c' [] [] := by
  obtain ⟨es, hsig, hes⟩ := h
  have htaken : Softswitch.taken es = [] := by
    refine List.filterMap_eq_nil_iff.2 fun e he => ?_
    have := hes e he
    cases e <;> simp_all [Event.isEnter, Event.received]
  have hgiven : Softswitch.given es = [] := by
    refine List.filterMap_eq_nil_iff.2 fun e he => ?_
    have := hes e he
    cases e <;> simp_all [Event.isEnter, Event.parcel]
  have h : Trades th c i c' (Softswitch.taken es) (Softswitch.given es) :=
    .of_sig hsig (.inl htaken) (.inl hgiven)
  rwa [htaken, hgiven] at h

theorem of_eq (h : c'.sig = c.sig) : Trades th c i c' [] [] := .of_enters (.of_eq h)

/-- Nothing is traded at first. -/
theorem trans {c'' : PThreadContext A n} {received : List (Message A)} {sent : List (Parcel A)}
    (h₁ : Trades th c i c' [] []) (h₂ : Trades th c' i c'' received sent) :
    Trades th c i c'' received sent := by
  refine ⟨?_, ?_, h₂.receives, h₂.sends⟩
  · rw [h₂.taken, h₁.taken, List.append_nil]
  · rw [h₂.given, h₁.given, List.append_nil]

end Trades

/-- A receive that was not through the mailbox. -/
theorem Received.trades (h : Received th c m c') : Trades th c i c' [] [] := by
  rcases h with ⟨d, target, -, -, h⟩ | ⟨d, -, -, -, -, -, -, h⟩
  · exact .of_sig h.sig (.inl rfl) (.inl rfl)
  · exact .of_eq h

theorem Received.trades_mbox (hcan : i.canRecv = true)
    (h : Received th (c.emit (.mboxRecv i.message)) i.message c') :
    Trades th c i c' [i.message] [] := by
  have hemit : Trades th c i (c.emit (.mboxRecv i.message)) [i.message] [] :=
    .of_sig (sig_emit rfl) (.inr ⟨hcan, rfl⟩) (.inl rfl)
  have hrest : Trades th (c.emit (.mboxRecv i.message)) i c' [] [] := h.trades
  refine ⟨?_, ?_, hemit.receives, hemit.sends⟩
  · rw [hrest.taken, hemit.taken, List.append_nil]
  · rw [hrest.given, hemit.given, List.append_nil]

theorem Prepares.trades (h : Prepares th s s') : Trades th s.ctxt i s'.ctxt [] [] := by
  cases h with
  | busy _ => exact .of_eq rfl
  | @fresh out _ hsent =>
    have hout : Trades th s.ctxt i out.2.1 [] [] := by
      rcases hsent with ⟨d, pinIndex, pin, r, h⟩ | ⟨-, -, -, -, -, -, hsig⟩
      · exact .of_sig h.sig (.inl rfl) (.inl rfl)
      · exact .of_sig hsig (.inl rfl) (.inl rfl)
    exact ⟨hout.taken, hout.given, hout.receives, hout.sends⟩

/-- The current target and the send buffer make a message from an output pin. -/
theorem AddressInv.fromPin {p : AddressPtr} {addr : Address} (hs : AddressInv th s)
    (hpos : 0 < s.currSendTodo) (happ : s.isApp = false)
    (hlist : s.currSendAddressList = some p) (hget : p.get? = some addr) :
    FromPin th ⟨addr.thread, { s.sendBuffer with dest := addr }⟩ := by
  obtain ⟨d, pinIndex, pin, hsending⟩ := hs hpos
  have hpin : pin.isApp = false := hsending.isApp.symm.trans happ
  obtain ⟨p', targets, hp', htargets, hbase, -, -⟩ := hsending.target hpin
  obtain rfl : p = p' := Option.some.inj (hlist.symm.trans hp')
  refine .inr ⟨d, pinIndex, pin, targets, hsending.pin_eq, hpin, htargets, hsending.source hpin,
    ?_, rfl⟩
  rw [← hbase]
  exact List.mem_of_getElem? hget

/-- What is sent is addressed by the address list. -/
theorem Delivers.trades (h : Delivers th s s') (hcan : i.canSend = true)
    (hs : AddressInv th s) (hpos : 0 < s.currSendTodo) :
    ∃ sent, Trades th s.ctxt i s'.ctxt [] sent := by
  cases h with
  | app happ =>
    refine ⟨_, .of_sig mboxSent_sig (.inl rfl) (.inr ⟨hcan, _, rfl, .inl ?_⟩)⟩
    rfl
  | @target p addr happ hlist hget =>
    refine ⟨_, .of_sig mboxSent_sig (.inl rfl) (.inr ⟨hcan, _, rfl, .inr ?_⟩)⟩
    exact ⟨{ s.sendBuffer with dest := addr }, hs.fromPin hpos happ hlist hget, rfl⟩
  | direct _ hretarget hrecv =>
    refine ⟨[], ?_⟩
    rw [nextTarget_ctxt, ← retarget_ctxt hretarget]
    exact hrecv.trades

theorem Sends.trades (h : Sends th s s') (hcan : i.canSend = true) (hs : AddressInv th s) :
    ∃ sent, Trades th s.ctxt i s'.ctxt [] sent := by
  cases h with
  | host hpos =>
    have hsig : (hostMessageBufferPopSend th s.ctxt).sig = s.ctxt.sig ++ _ := sig_emit rfl
    exact ⟨_, .of_sig hsig (.inl rfl) (.inr ⟨hcan, _, rfl, .inl rfl⟩)⟩
  | nothing hprep _ => exact ⟨[], hprep.trades⟩
  | deliver hprep hpos hdeliver =>
    obtain ⟨sent, h⟩ := hdeliver.trades hcan (hs.prepares hprep) hpos
    exact ⟨sent, hprep.trades.trans h⟩

/-- The thread polls the mailbox before it receives or sends: the wait is over because it can
do one of the two, and it does what it can. -/
theorem doRecv_canRecv (hpc : s.pc = .wait w) (hwakes : s.Wakes th released i)
    (hidle : (th.build.enableHardwareIdle && !w.wantToSend && i.doHardwareIdle) = false)
    (hdo : doRecv th w true i = true) : i.canRecv = true := by
  unfold Main.Wakes at hwakes
  unfold doRecv at hdo
  rw [hpc] at hwakes
  split at hwakes <;> split at hdo <;> grind

theorem doRecv_canSend (hpc : s.pc = .wait w) (hwakes : s.Wakes th released i)
    (hidle : (th.build.enableHardwareIdle && !w.wantToSend && i.doHardwareIdle) = false)
    (hdo : doRecv th w true i = false) : i.canSend = true := by
  unfold Main.Wakes at hwakes
  unfold doRecv at hdo
  rw [hpc] at hwakes
  split at hwakes <;> split at hdo <;> grind

theorem Main.Wakes.mono {released' : Prop} (h : s.Wakes th released i)
    (hr : released → released') : s.Wakes th released' i := by
  unfold Main.Wakes at *
  cases hpc : s.pc with
  | parked =>
    rw [hpc] at h
    exact h.imp_right fun h => ⟨h.1, hr h.2⟩
  | top => trivial
  | wait w =>
    rw [hpc] at h
    dsimp only at h ⊢
    split
    · rename_i hwant
      rwa [if_pos hwant] at h
    · rename_i hwant
      rw [if_neg hwant] at h
      exact h.imp_right fun h => ⟨h.1, h.2.1, hr h.2.2⟩

theorem Wakened.trades (h : Wakened th s w i s') (hpc : s.pc = .wait w)
    (hwakes : s.Wakes th released i) (hs : AddressInv th s) :
    ∃ received sent, Trades th s.ctxt i s'.ctxt received sent := by
  cases h with
  | hardwareIdle _ hwait hidle =>
    have hrecords := (Records.of_eq hwait.sig).trans (softswitchOnHardwareIdle_enters hidle)
    exact ⟨[], [], .of_enters hrecords⟩
  | receive hidle hdo hwait hrecv =>
    have hcan := doRecv_canRecv hpc hwakes hidle hdo
    exact ⟨_, _, (Trades.of_eq hwait.sig).trans (hrecv.trades_mbox hcan)⟩
  | @send c s₁ hidle hdo hwait hsend =>
    have hcan := doRecv_canSend hpc hwakes hidle hdo
    have hs₀ : AddressInv th { s with ctxt := c } :=
      hs.enters ⟨rfl, rfl, rfl, rfl, rfl⟩ (.of_eq hwait.sig)
    obtain ⟨sent, h⟩ := hsend.trades hcan hs₀
    exact ⟨[], sent, (Trades.of_eq hwait.sig).trans h⟩

/-- A step up to the wait trades nothing. -/
theorem Stepped.trades_top (h : Stepped th s i s') (hpc : ∀ w, s.pc ≠ .wait w) :
    Trades th s.ctxt i s'.ctxt [] [] := by
  cases h with
  | parked _ => exact .of_eq rfl
  | idle _ _ hidle => exact .of_enters hidle.enters
  | searchOver _ _ _ _ hperf => exact .of_eq hperf.undisturbed.sig
  | noIdle _ _ => exact .of_eq rfl
  | hardwareIdle h _ _ _ => exact absurd h (hpc _)
  | receive h _ _ _ => exact absurd h (hpc _)
  | send h _ _ => exact absurd h (hpc _)

/-- One step of a thread that was rightly woken. -/
theorem mainStep_trades (hinv : HostInv s) (hs : AddressInv th s)
    (hwakes : s.Wakes th released i) (hstep : mainStep th s i = .ok s') :
    ∃ received sent, Trades th s.ctxt i s'.ctxt received sent := by
  cases hpc : s.pc with
  | wait w =>
    unfold mainStep at hstep
    rw [hpc] at hstep
    exact ((wake_sat hinv hpc).of_ok hstep).trades hpc hwakes hs
  | _ => exact ⟨[], [], ((mainStep_sat hinv).of_ok hstep).trades_top (by simp [hpc])⟩

/-! ## What waits -/

/-- A thread goes on to its wait with the compute search over, or with something to receive, or
wanting to send where it can. -/
theorem Stepped.waits (h : Stepped th s i s') (hpc : s'.pc = .wait w) : s.pc = .top ∧
    (n ≤ s'.ctxt.rtcChecked ∨ i.canRecv = true ∨ w.wantToSend = true ∧ i.canSend = true) := by
  cases h with
  | searchOver htop _ _ hover hperf =>
    have hchecked := hperf.undisturbed.keeps.rtcChecked
    exact ⟨htop, .inl (hover.trans hchecked.ge)⟩
  | noIdle htop hbusy =>
    cases hpc
    exact ⟨htop, .inr hbusy⟩
  | parked h => simp [h] at hpc
  | _ => cases hpc

/-- What is known of a single thread. -/
structure MainInv (th : PThread A n) (s : Main A n) : Prop where
  host : HostInv s
  idle : IdleInv s
  address : AddressInv th s
  parked : s.pc = .parked → n = 0 ∧ s.currSendTodo = 0

theorem Started.mainInv {buf : Message A} (hchecked : c.rtcChecked = 0) (hoffset : c.rtcOffset = 0)
    (h : Started th c buf s) : MainInv th s := by
  refine ⟨h.hostInv, h.idleInv hchecked hoffset, h.addressInv, fun hpc => ?_⟩
  cases h with
  | parked hn => exact ⟨hn, rfl⟩
  | running _ _ _ => cases hpc

theorem Stepped.mainInv (h : Stepped th s i s') (hs : MainInv th s) : MainInv th s' := by
  refine ⟨h.hostInv hs.host, h.idleInv hs.idle, h.addressInv hs.address, fun hpc => ?_⟩
  cases h with
  | parked _ => exact hs.parked hpc
  | _ => cases hpc

/-- A thread that does not want to send, and whose compute search is over, has nothing left to
do. -/
theorem MainInv.settled (h : MainInv th s) (hpc : s.pc = .wait w) (hwant : w.wantToSend = false)
    (hdone : n ≤ s.ctxt.rtcChecked) : s.currSendTodo = 0 ∧ ∀ d, s.ctxt.flags d = 0 := by
  obtain ⟨hhead, htodo⟩ := h.idle.blocked w hpc hwant
  have hthread := h.idle.thread (by simp [hpc])
  exact ⟨htodo, (hthread.flags_iff hhead).2 fun d => hthread.search.no_compute hdone d⟩

theorem Fills.cases {α : Type} {o slot : Option α} {sent : List α} (h : Fills o sent slot) :
    sent = [] ∧ slot = o ∨ ∃ x, o = none ∧ sent = [x] ∧ slot = some x := by
  cases h with
  | nothing => exact .inl ⟨rfl, rfl⟩
  | one => exact .inr ⟨_, rfl, rfl, rfl⟩

end Softswitch
