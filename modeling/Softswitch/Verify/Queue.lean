import Softswitch.Verify.Events

/-!
# The RTS list along a run

Every event keeps the RTS list a queue of the devices that want to send.  What an event
does to the queue is `requeue` for the device it handles; a send takes the first device
off before that.
-/

namespace Softswitch

open Outcome IntrusiveList Function

variable {A : AppTypes} {n : Nat} {th : PThread A n} {c₀ c c' : PThreadContext A n}
  {d : Fin n} {q : List (Fin n)} {m : Message A}

/-! ## What an event does to the queue -/

theorem Handled.isQueue {s : A.DevState} {t : Tracking} {es : List (Event A n)}
    (h : Handled th c d s t es c') (hq : IsQueue c q) :
    IsQueue c' (requeue q d (wantsSend (c.flags d)) (wantsSend (readyResult th d s).flags)) :=
  IsQueue.relinked hq.rep (fun e _ => hq.mem_iff e) (hq.mem_iff d) h.links h.flags

theorem Received.isQueue (h : Received th c m c') (hq : IsQueue c q) : ∃ q', IsQueue c' q' := by
  rcases h with ⟨d, target, -, -, h⟩ | ⟨d, -, -, -, h, -⟩
  · exact ⟨_, h.isQueue hq⟩
  · exact ⟨q, h.isQueue hq⟩

theorem SentFrom.isQueue {pinIndex size : Nat} {pin : OutputPinVTable A}
    {r : SendResult A.DevState A.Payload} {s s' : SendState A}
    (h : SentFrom th c d pinIndex pin r s size c' s') (hq : IsQueue c (d :: q)) :
    IsQueue c' (requeue q d false (wantsSend (readyResult th d r.state).flags)) := by
  have hnodup := List.nodup_cons.1 hq.rep.nodup
  have hmem : ∀ e, e ≠ d → (e ∈ q ↔ wantsSend (c.flags e) = true) := by
    intro e he
    rw [← hq.mem_iff e, List.mem_cons, or_iff_right he]
  refine ⟨(relink_rep hq.rep.popFront ?_).congr h.links, fun e => ?_⟩
  · simpa using hnodup.1
  · rw [mem_requeue hnodup.2 (by simpa using hnodup.1), h.flags]
    split
    · rename_i he
      rw [he, update_self]
    · rename_i he
      rw [update_of_ne he]
      exact hmem e he

theorem Sent.isQueue {isApp : Bool} {out : Nat × PThreadContext A n × SendState A}
    (h : Sent th c m isApp out) (hq : IsQueue c q) : ∃ q', IsQueue out.2.1 q' := by
  rcases h with ⟨d, pinIndex, pin, r, h⟩ | ⟨-, -, -, h, -⟩
  · obtain ⟨q', rfl⟩ := hq.eq_cons h.head
    exact ⟨_, h.isQueue hq⟩
  · exact ⟨q, h.isQueue hq⟩

theorem swept_keeps {k : Nat} : (swept c k).links = c.links ∧ (swept c k).flags = c.flags :=
  ⟨rfl, rfl⟩

theorem Idled.isQueue {out : Bool × PThreadContext A n} (h : Idled th c out) (hq : IsQueue c q) :
    ∃ q', IsQueue out.2 q' := by
  rcases h with ⟨-, rfl⟩ | ⟨-, -, -, rfl⟩ | ⟨-, -, k, d, -, -, h⟩
  · exact ⟨q, hq⟩
  · exact ⟨q, hq.of_links_flags swept_keeps.1 swept_keeps.2⟩
  · exact ⟨_, h.isQueue (hq.of_links_flags swept_keeps.1 swept_keeps.2)⟩

theorem HardwareIdled.isQueue (h : HardwareIdled th c d c') (hq : IsQueue c q) :
    ∃ q', IsQueue c' q' := by
  rcases h with rfl | ⟨_, -, h⟩
  · exact ⟨q, hq⟩
  · exact ⟨_, h.isQueue hq⟩

/-- `softswitch_on_hardware_idle` may forget the list where the list is empty. -/
theorem softswitchOnHardwareIdle_isQueue (hq : IsQueue c q) (hempty : c.rtsHead = none)
    (hok : softswitchOnHardwareIdle th c = .ok c') : ∃ q', IsQueue c' q' := by
  have hqnil : q = [] := hq.rep.head_eq_none_iff.1 hempty
  subst hqnil
  have hclear : IsQueue (clearRts c) [] := ⟨Rep.empty, hq.mem_iff⟩
  apply softswitchOnHardwareIdle_keeps (I := fun s => ∃ q', IsQueue s q') ⟨[], hclear⟩ _ _ hok
  · rintro d s s' ⟨q', hq'⟩ h
    exact h.isQueue hq'
  · rintro s ⟨q', hq'⟩
    exact ⟨q', hq'.of_links_flags rfl rfl⟩

/-! ## Initialisation -/

/-- The invariant of the loop of `softswitch_init`: the first `i` devices are as they are to
be, and the others are not on the list. -/
structure InitQueue (c : PThreadContext A n) (i : Nat) (q : List (Fin n)) : Prop where
  rep : Rep c.links q
  mem_iff : ∀ e : Fin n, e ∈ q ↔ e.val < i ∧ wantsSend (c.flags e) = true

theorem InitQueue.isQueue (h : InitQueue c n q) : IsQueue c q :=
  ⟨h.rep, fun e => by rw [h.mem_iff e, and_iff_right e.isLt]⟩

theorem InitQueue.step (hq : InitQueue c d.val q) (h : Initialised th c d c') :
    ∃ q', InitQueue c' (d.val + 1) q' := by
  have hd : d ∉ q := fun hd => (Nat.lt_irrefl _ ((hq.mem_iff d).1 hd).1)
  have hmem : ∀ e : Fin n, e ≠ d → (e ∈ q ↔ e.val < d.val + 1 ∧ wantsSend (c.flags e) = true) := by
    intro e he
    have hlt : e.val < d.val + 1 ↔ e.val < d.val := by
      have := Fin.val_ne_of_ne he
      omega
    rw [hq.mem_iff e, hlt]
  cases hw : wantsSend (initResult th c d).flags with
  | true =>
    refine ⟨q ++ [d], (hq.rep.pushBack hd).congr (by rw [h.links, if_pos hw]), fun e => ?_⟩
    rw [h.flags, List.mem_append, List.mem_singleton]
    by_cases he : e = d
    · simp [he, hw]
    · rw [update_of_ne he, or_iff_left he]
      exact hmem e he
  | false =>
    refine ⟨q, hq.rep.congr (by rw [h.links, hw]; rfl), fun e => ?_⟩
    rw [h.flags]
    by_cases he : e = d
    · simp [he, hw, hd]
    · rw [update_of_ne he]
      exact hmem e he

theorem softswitchInit_isQueue (hok : softswitchInit th c = .ok c') : ∃ q, IsQueue c' q := by
  have hclear : ∃ q, InitQueue (clearRts (zeroProfileCounters th c)) 0 q :=
    ⟨[], Rep.empty, fun e => by simp⟩
  have hstep : ∀ (d : Fin n) (s : PThreadContext A n), (∃ q, InitQueue s d q) →
      Sat (initDevice th s d) (fun s' => ∃ q, InitQueue s' (d + 1) q) (fun _ => True) := by
    rintro d s ⟨q, hq⟩
    exact initDevice_sat.mono (fun _ h => hq.step h) fun _ _ => trivial
  obtain ⟨q, hq⟩ := (Sat.foldlM_finRange (I := fun i s => ∃ q, InitQueue s i q) hstep
    hclear).of_ok (softswitchInit_loop hok)
  exact ⟨q, hq.isQueue⟩

/-! ## Runs -/

/-- `c` is reached from `c₀` by `softswitch_init` and events; hardware idle happens where
the list is empty. -/
inductive Reachable (th : PThread A n) (c₀ : PThreadContext A n) : PThreadContext A n → Prop
  | init {c : PThreadContext A n} (h : softswitchInit th c₀ = .ok c) : Reachable th c₀ c
  | step {c c' : PThreadContext A n} (hc : Reachable th c₀ c) (e : ThreadEvent A)
      (hidle : e = .hardwareIdle → c.rtsHead = none) (h : threadStep th c e = .ok c') :
      Reachable th c₀ c'

/-- A run without hardware idle. -/
theorem Reachable.of_run {events : List (ThreadEvent A)} (hevents : ∀ e ∈ events, e ≠ .hardwareIdle)
    (hrun : threadRun th c₀ events = .ok c) : Reachable th c₀ c := by
  obtain ⟨c₁, hinit, hlist⟩ := bind_eq_ok.1 hrun
  clear hrun
  induction events using List.reverseRecOn generalizing c with
  | nil =>
    cases hlist
    exact .init hinit
  | append_singleton events e ih =>
    rw [runList_snoc, bind_eq_ok] at hlist
    obtain ⟨c₂, hlist, hstep⟩ := hlist
    refine .step (ih (fun e' he' => hevents e' (List.mem_append_left _ he')) hlist) e ?_ hstep
    exact fun he => absurd he (hevents e (by simp))

/-- One event keeps the list a queue. -/
theorem threadStep_isQueue {e : ThreadEvent A} (hq : IsQueue c q)
    (hidle : e = .hardwareIdle → c.rtsHead = none) (hok : threadStep th c e = .ok c') :
    ∃ q', IsQueue c' q' := by
  have happened := threadStep_happened hok
  cases e with
  | receive message => exact Received.isQueue happened hq
  | send message isApp =>
    obtain ⟨size, s, h⟩ := happened
    exact h.isQueue hq
  | idle =>
    obtain ⟨more, h⟩ := happened
    exact h.isQueue hq
  | hardwareIdle => exact softswitchOnHardwareIdle_isQueue hq (hidle rfl) happened

theorem Reachable.isQueue (h : Reachable th c₀ c) : ∃ q, IsQueue c q := by
  induction h with
  | init h => exact softswitchInit_isQueue h
  | step _ e hidle h ih =>
    obtain ⟨q, hq⟩ := ih
    exact threadStep_isQueue hq hidle h

/-- In every reachable state the RTS list is a FIFO queue of the devices that want to send:
it is duplicate-free, `prev` mirrors `next`, `rtsTail` is its last element,
`softswitch_PopRTS` takes its first element off, and `softswitch_UpdateRTS` acts on it by
`requeue` (without assertions, whenever the readiness handler returns). -/
theorem rtsList_isFifoQueue (h : Reachable th c₀ c) : ∃ q, IsQueue c q ∧
    c.rtsTail = q.getLast? ∧ (c.rtsHead = none ↔ c.rtsTail = none) ∧
    (∃ c', softswitchPopRTS th c = .ok (q.head?, c') ∧ Rep c'.links q.tail ∧
      c'.flags = c.flags) ∧
    (∀ d c', softswitchUpdateRTS th c d = .ok c' → IsQueue c' (requeue q d
      (wantsSend (c.flags d)) (wantsSend (readyResult th d (c.states d)).flags))) ∧
    (th.build.asserts = false → ∀ d r, callReadyToSend th c d = .ok r →
      ∃ c', softswitchUpdateRTS th c d = .ok c') := by
  obtain ⟨q, hq⟩ := h.isQueue
  refine ⟨q, hq, hq.rep.tail_eq, ?_, ?_, ?_, ?_⟩
  · exact hq.rep.head_eq_none_iff.trans hq.rep.tail_eq_none_iff.symm
  · obtain ⟨c', hpop, hlinks, hrep⟩ := softswitchPopRTS_ok th hq
    exact ⟨c', hpop, hrep, hlinks.flags_eq⟩
  · exact fun d c' hok => softswitchUpdateRTS_queue hq hok
  · rintro ha d ⟨flags, c'⟩ hr
    exact softswitchUpdateRTS_returns hq hr fun ha' => by simp [ha] at ha'

/-! ## A thread of two devices -/

/-- Devices whose state is the flags they ask for. -/
def flagsApp : AppTypes where
  GraphProps := Unit
  DevProps := Unit
  DevState := BitVec 32
  EdgeProps := Unit
  EdgeState := Unit
  Payload := BitVec 32

/-- A message brings new flags, a send clears them, and a computation clears the bit that
asks for it. -/
def flagsVTable : DeviceTypeVTable flagsApp where
  initHandler _ _ s := ⟨s, []⟩
  readyToSendHandler _ _ s := ⟨⟨s, []⟩, s⟩
  outputPins := [⟨fun _ _ _ _ => ⟨⟨0#32, []⟩, true, 1#32⟩, 20, 0#32, false, 0#16⟩]
  inputPins := [⟨fun _ _ _ _ _ payload => ⟨⟨payload, []⟩, none⟩, 0#16, 0#16, 0#32⟩]
  computeHandler _ _ s := ⟨BitVec.and s 0x7FFFFFFF#32, []⟩
  onHardwareIdleHandler := none

/-- The address of the pin of a device. -/
def flagsAddress (device : BitVec 16) : Address := ⟨0#32, device, 0#8, 20#8⟩

theorem flagsThread_fits : 2 * sizeofDeviceContext ≤ 2 ^ 32 := by decide

/-- Device 0 sends to device 1 and device 1 to both. -/
def flagsThread (build : Build) : PThread flagsApp 2 where
  build := build
  myId := 0#32
  hostId := 4096#32
  clock k := k
  sizeofPacketHeader := 16
  sizeofHostMsg := 64
  hostMsgPayload := 13
  uninitHostMsg := ⟨flagsAddress 0#16, 0#16, List.replicate 13 0#32⟩
  uninitPin := 0#32
  threadId := 0#32
  graphProps := ()
  device d :=
    { vtable := flagsVTable
      properties := ()
      index := d
      targets := [⟨if d = 0 then [flagsAddress 1#16] else [flagsAddress 0#16, flagsAddress 1#16]⟩]
      sources := [⟨[]⟩]
      id := 0#32
      isExternal := 0#32 }
  applLogLevel := 0
  pointersAreRelative := false
  devices_fit := flagsThread_fits

/-- The thread before its initialisation; the devices are in the states `s₀` and `s₁`. -/
def flagsContext (s₀ s₁ : BitVec 32) : PThreadContext flagsApp 2 where
  toTracking := ⟨0, 0, 0⟩
  toHostBuffer := ⟨fun _ => ⟨flagsAddress 0#16, 0#16, []⟩, 0, 0, 0⟩
  toPerf := ⟨0, 0, 0, 0, 0, 0, 0, 0, 0, 0, 0⟩
  devices d := ⟨if d = 0 then s₀ else s₁, 0#32, none, none⟩
  lamport := 0#32
  rtsHead := none
  rtsTail := none
  rtcChecked := 0
  rtcOffset := 0
  currentSize := 0
  edgeState _ := ()
  mboxLen := 0
  trace := []

/-- A message of device 0 that brings `flags` to a device. -/
def flagsMessage (device : BitVec 16) (flags : BitVec 32) : Message flagsApp :=
  ⟨flagsAddress device, flagsAddress 0#16, 0#16, flags⟩

/-- The options of a default build, with or without assertions. -/
def defaultBuild (asserts : Bool) : Build where
  asserts := asserts
  logging := false
  maxLoggingLevel := 10
  maxSoftswitchLoggingLevel := 10
  enableIntraThreadSend := false
  enableSendOverRecv := false
  enableHardwareIdle := true
  enableProfile := none

/-- The initialised thread, with both devices ready to send. -/
def readyContext (asserts : Bool) : PThreadContext flagsApp 2 :=
  lastContext (softswitchInit (flagsThread (defaultBuild asserts)) (flagsContext 1#32 1#32))

theorem rtsList_isFifoQueue_readyContext : ∃ q, IsQueue (readyContext false) q ∧
    (readyContext false).rtsTail = q.getLast? := by
  have hreach : Reachable (flagsThread (defaultBuild false)) (flagsContext 1#32 1#32)
      (readyContext false) := .init rfl
  obtain ⟨q, hq, htail, -⟩ := rtsList_isFifoQueue hreach
  exact ⟨q, hq, htail⟩

example : (readyContext false).rtsHead = some 0 ∧ (readyContext false).rtsTail = some 1 := by
  decide

end Softswitch
