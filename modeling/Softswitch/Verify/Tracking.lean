import Softswitch.Verify.Queue

/-!
# The tracking fields

Every entry of a handler records the tracking fields as they are at that moment.  All
events but `softswitch_onIdle` set them, so a compute handler is entered with the fields of
the handler before it, and the other handlers with their own.
-/

namespace Softswitch

open Outcome Function

variable {A : AppTypes} {n : Nat} {th : PThread A n} {c₀ c c' : PThreadContext A n}
  {d : Fin n} {m : Message A}

/-- The values of `currentHandlerType` that are in use: 0 = None, 1 = Recv, 2 = Send, 4=Init,
5=HardwareIdle. -/
def handlerTypes : List Nat := [0, 1, 2, 4, 5]

/-- The handler type describes a handler of this kind; none of those in use is that of a
compute handler. -/
def HandlerKind.IsDescribedBy : HandlerKind → Nat → Prop
  | .init, t => t = 4
  | .receive, t => t = 1
  | .send, t => t = 2
  | .hardwareIdle, t => t = 5
  | .compute, t => t ∉ handlerTypes

/-- If a handler is entered, the tracking fields tell of its device and of its kind. -/
def Event.Tracked : Event A n → Prop
  | .enter kind d t => t.currentDevice = d ∧ kind.IsDescribedBy t.currentHandlerType
  | _ => True

/-- All handlers so far were entered with the right tracking fields. -/
def AllTracked (c : PThreadContext A n) : Prop := ∀ e ∈ c.sig, e.Tracked

theorem AllTracked.append {es : List (Event A n)} (h : AllTracked c) (hsig : c'.sig = c.sig ++ es)
    (hes : ∀ e ∈ es, e.Tracked) : AllTracked c' := by
  intro e he
  rw [hsig] at he
  rcases List.mem_append.1 he with he | he
  · exact h e he
  · exact hes e he

theorem AllTracked.same (h : AllTracked c) (hsig : c'.sig = c.sig) : AllTracked c' := by
  unfold AllTracked
  rw [hsig]
  exact h

/-! ## What the events record -/

theorem initEvents_tracked : ∀ e ∈ initEvents c d, e.Tracked := by
  simp [initEvents, Event.Tracked, HandlerKind.IsDescribedBy]

theorem receiveEvents_tracked {target : ReceiveTarget A} :
    ∀ e ∈ receiveEvents c d m target, e.Tracked := by
  simp [receiveEvents, Event.Tracked, HandlerKind.IsDescribedBy]

theorem sendEvents_tracked {pinIndex : Nat} {r : SendResult A.DevState A.Payload}
    (hindex : ∀ i, (th.device i).index = i) : ∀ e ∈ sendEvents th d pinIndex r, e.Tracked := by
  simp [sendEvents, Event.Tracked, HandlerKind.IsDescribedBy, hindex]

theorem hardwareIdleEvents_tracked : ∀ e ∈ hardwareIdleEvents c d, e.Tracked := by
  simp [hardwareIdleEvents, Event.Tracked, HandlerKind.IsDescribedBy]

/-- A compute handler is entered with a handler type in use, that of another event. -/
theorem compute_not_tracked (ht : c.currentHandlerType ∈ handlerTypes) :
    ¬(Event.enter .compute d c.toTracking : Event A n).Tracked :=
  fun h => h.2 ht

/-! ## One event -/

/-- `softswitch_onIdle` finds a device that wants to compute, and calls its handler. -/
def RunsCompute (c : PThreadContext A n) : ThreadEvent A → Prop
  | .idle => c.rtcChecked < n ∧ c.rtcOffset < n ∧ ∃ k d, FindsCompute c k d
  | _ => False

/-- The handlers so far were entered with the right tracking fields, and the handler type is
one in use. -/
structure TrackInv (c : PThreadContext A n) : Prop where
  tracked : AllTracked c
  handlerType : c.currentHandlerType ∈ handlerTypes

/-- A two-sided statement of `TrackInv`: where `x` stops, the handlers so far were entered
with the right tracking fields. -/
def TrackSat {α : Type} (x : Outcome A n α) (ctxt : α → PThreadContext A n) : Prop :=
  Sat x (fun a => TrackInv (ctxt a)) (fun s => AllTracked s.ctxt)

theorem Handled.trackInv {s : A.DevState} {t : Tracking} {es : List (Event A n)}
    (h : Handled th c d s t es c') (hc : AllTracked c) (hes : ∀ e ∈ es, e.Tracked)
    (ht : t.currentHandlerType ∈ handlerTypes) : TrackInv c' := by
  refine ⟨hc.append h.sig hes, ?_⟩
  rw [h.tracking]
  exact ht

theorem softswitchOnReceive_track (hc : TrackInv c) : TrackSat (softswitchOnReceive th c m) id := by
  refine softswitchOnReceive_sat.mono (fun c' h => ?_) fun s h => ?_
  · rcases h with ⟨d, target, -, -, h⟩ | ⟨d, -, -, -, -, -, htrack, hsig⟩
    · exact h.trackInv hc.tracked receiveEvents_tracked (by simp [handlerTypes])
    · refine ⟨hc.tracked.same hsig, ?_⟩
      rw [id, htrack]
      exact hc.handlerType
  · rcases h with h | ⟨d, target, h⟩
    · exact hc.tracked.same h
    · exact hc.tracked.append h receiveEvents_tracked

theorem softswitchOnSend_track {isApp : Bool} (hindex : ∀ i, (th.device i).index = i)
    (hc : TrackInv c) : TrackSat (softswitchOnSend th c m isApp) (·.2.1) := by
  have honSend : ∀ e ∈ [(.onSend : Event A n)], e.Tracked := by simp [Event.Tracked]
  refine softswitchOnSend_sat.mono (fun out h => ?_) fun s h => ?_
  · rcases h with ⟨d, pinIndex, pin, r, h⟩ | ⟨-, -, -, -, -, htrack, hsig⟩
    · refine ⟨hc.tracked.append h.sig (sendEvents_tracked hindex), ?_⟩
      rw [h.tracking]
      simp [handlerTypes]
    · refine ⟨hc.tracked.append hsig honSend, ?_⟩
      rw [htrack]
      exact hc.handlerType
  · rcases h with h | ⟨d, pinIndex, r, es, hes, h⟩
    · exact hc.tracked.append h honSend
    · exact hc.tracked.append h fun e he => sendEvents_tracked hindex e (hes.subset he)

theorem softswitchOnIdle_track (hc : TrackInv c) (hno : ¬RunsCompute c .idle) :
    TrackSat (softswitchOnIdle th c) (·.2) := by
  refine softswitchOnIdle_sat.mono (fun out h => ?_) fun s h => ?_
  · rcases h with ⟨-, rfl⟩ | ⟨-, -, -, rfl⟩ | ⟨hlt, ho, k, d, hfinds, -, -⟩
    · exact hc
    · exact ⟨hc.tracked, hc.handlerType⟩
    · exact absurd ⟨hlt, ho, k, d, hfinds⟩ hno
  · rcases h with h | ⟨hlt, ho, k, d, hfinds, -⟩
    · exact hc.tracked.same h
    · exact absurd ⟨hlt, ho, k, d, hfinds⟩ hno

theorem softswitchOnHardwareIdle_track (hc : TrackInv c) :
    TrackSat (softswitchOnHardwareIdle th c) id := by
  have hfold : TrackSat ((List.finRange n).foldlM (hardwareIdleDevice th) (clearRts c)) id := by
    have hclear : TrackInv (clearRts c) := ⟨hc.tracked, hc.handlerType⟩
    refine Sat.foldlM (fun s d _ hs => ?_) hclear
    refine hardwareIdleDevice_sat.mono (fun s' h => ?_) fun s' h => ?_
    · rcases h with rfl | ⟨_, -, h⟩
      · exact hs
      · exact h.trackInv hs.tracked hardwareIdleEvents_tracked (by simp [handlerTypes])
    · rcases h with h | h
      · exact hs.tracked.same h
      · exact hs.tracked.append h hardwareIdleEvents_tracked
  exact Sat.bind hfold fun c' _ h => ⟨h.tracked, by simp [handlerTypes]⟩

/-- An event that calls no compute handler. -/
theorem threadStep_track {e : ThreadEvent A} (hindex : ∀ i, (th.device i).index = i)
    (hc : TrackInv c) (hno : ¬RunsCompute c e) : TrackSat (threadStep th c e) id := by
  cases e with
  | receive message => exact softswitchOnReceive_track hc
  | send message isApp => exact Sat.bind (softswitchOnSend_track hindex hc) fun _ _ h => h
  | idle => exact Sat.bind (softswitchOnIdle_track hc hno) fun _ _ h => h
  | hardwareIdle => exact softswitchOnHardwareIdle_track hc

/-- An event that calls a compute handler enters it with the fields of the handler before. -/
theorem threadStep_not_tracked (th : PThread A n) {e : ThreadEvent A}
    (ht : c.currentHandlerType ∈ handlerTypes) (h : RunsCompute c e) :
    Sat (threadStep th c e) (fun c' => ¬AllTracked c') (fun s => ¬AllTracked s.ctxt) := by
  cases e with
  | idle =>
    obtain ⟨hlt, ho, k, d, hfinds⟩ := h
    have hnot : ∀ c' : PThreadContext A n, c'.sig = c.sig ++ [.enter .compute d c.toTracking] →
        ¬AllTracked c' := by
      intro c' hsig hall
      refine compute_not_tracked ht (hall (.enter .compute d c.toTracking) ?_)
      rw [hsig]
      exact List.mem_append_right _ (List.mem_singleton_self _)
    have hstep := (softswitchOnIdle_finds th hlt ho hfinds).mono
      (fun _ h => hnot _ h.2.sig) fun _ h => hnot _ h
    exact Sat.bind hstep fun _ _ h => h
  | receive _ => exact h.elim
  | send _ _ => exact h.elim
  | hardwareIdle => exact h.elim

/-! ## Runs -/

/-- Events only add to what is recorded. -/
def Grows (c c' : PThreadContext A n) : Prop := c.sig <+: c'.sig

theorem Grows.of_append {es : List (Event A n)} (h : c'.sig = c.sig ++ es) : Grows c c' :=
  ⟨es, h.symm⟩

theorem Grows.of_eq (h : c'.sig = c.sig) : Grows c c' := by
  unfold Grows
  rw [h]

theorem AllTracked.of_grows (h : AllTracked c') (hg : Grows c c') : AllTracked c :=
  fun e he => h e (hg.subset he)

theorem hardwareIdleDevice_grows :
    Sat (hardwareIdleDevice th c d) (Grows c) (fun s => Grows c s.ctxt) := by
  refine hardwareIdleDevice_sat.mono (fun c' h => ?_) fun s h => ?_
  · rcases h with rfl | ⟨_, -, h⟩
    · exact Grows.of_eq rfl
    · exact Grows.of_append h.sig
  · rcases h with h | h
    · exact Grows.of_eq h
    · exact Grows.of_append h

theorem threadStep_grows {e : ThreadEvent A} :
    Sat (threadStep th c e) (Grows c) (fun s => Grows c s.ctxt) := by
  cases e with
  | receive message =>
    refine softswitchOnReceive_sat.mono (fun c' h => ?_) fun s h => ?_
    · rcases h with ⟨_, _, -, -, h⟩ | ⟨_, -, -, -, -, -, -, hsig⟩
      · exact Grows.of_append h.sig
      · exact Grows.of_eq hsig
    · rcases h with h | ⟨_, _, h⟩
      · exact Grows.of_eq h
      · exact Grows.of_append h
  | send message isApp =>
    refine Sat.bind (softswitchOnSend_sat.mono (fun _ h => h) fun s h => ?_) fun out _ h => ?_
    · rcases h with h | ⟨_, _, _, _, -, h⟩
      · exact Grows.of_append h
      · exact Grows.of_append h
    · rcases h with ⟨_, _, _, _, h⟩ | ⟨-, -, -, -, -, -, hsig⟩
      · exact Grows.of_append h.sig
      · exact Grows.of_append hsig
  | idle =>
    refine Sat.bind (softswitchOnIdle_sat.mono (fun _ h => h) fun s h => ?_) fun out _ h => ?_
    · rcases h with h | ⟨-, -, _, _, -, h⟩
      · exact Grows.of_eq h
      · exact Grows.of_append h
    · rcases h with ⟨-, rfl⟩ | ⟨-, -, -, rfl⟩ | ⟨-, -, _, _, -, -, h⟩
      · exact Grows.of_eq rfl
      · exact Grows.of_eq rfl
      · exact Grows.of_append h.sig
  | hardwareIdle =>
    have hloop : Sat ((List.finRange n).foldlM (hardwareIdleDevice th) (clearRts c)) (Grows c)
        (fun s => Grows c s.ctxt) := by
      refine Sat.foldlM (fun s d _ hs => ?_) (Grows.of_eq rfl)
      exact hardwareIdleDevice_grows.mono (fun _ h => hs.trans h) fun _ h => hs.trans h
    exact Sat.bind hloop fun _ _ h => h

theorem runList_grows {events : List (ThreadEvent A)} :
    Grows c (lastContext (runList (threadStep th) c events)) := by
  refine lastContext_sat (Sat.foldlM (fun s e _ hs => ?_) (Grows.of_eq rfl))
  exact threadStep_grows.mono (fun _ h => hs.trans h) fun _ h => hs.trans h

theorem softswitchInit_track (hn : 0 < n) (hc : AllTracked c) :
    TrackSat (softswitchInit th c) id := by
  have hstep : ∀ (d : Fin n) (s : PThreadContext A n),
      (AllTracked s ∧ (0 < d.val → s.currentHandlerType = 4)) →
      Sat (initDevice th s d)
        (fun s' => AllTracked s' ∧ (0 < d.val + 1 → s'.currentHandlerType = 4))
        (fun s => AllTracked s.ctxt) := by
    intro d s hs
    refine initDevice_sat.mono (fun s' h => ⟨hs.1.append h.sig initEvents_tracked, fun _ => ?_⟩)
      fun s' h => hs.1.append h initEvents_tracked
    rw [h.tracking]
  have hclear : AllTracked (clearRts (zeroProfileCounters th c)) ∧
      (0 < 0 → (clearRts (zeroProfileCounters th c)).currentHandlerType = 4) :=
    ⟨hc, fun h => absurd h (Nat.lt_irrefl 0)⟩
  have hloop := Sat.foldlM_finRange
    (I := fun i s => AllTracked s ∧ (0 < i → s.currentHandlerType = 4)) hstep hclear
  unfold softswitchInit
  refine check_reads.then (E := AllTracked) hc fun _ _ => ?_
  exact hloop.mono (fun s h => ⟨h.1, by rw [id, h.2 hn]; simp [handlerTypes]⟩) fun _ h => h

theorem HandlerKind.IsDescribedBy.ne_zero {kind : HandlerKind} {t : Nat}
    (h : kind.IsDescribedBy t) : t ≠ 0 := by
  rintro rfl
  cases kind <;> simp [HandlerKind.IsDescribedBy, handlerTypes] at h

theorem mem_sig_enter {kind : HandlerKind} {t : Tracking} :
    Event.enter kind d t ∈ c.sig ↔ Event.enter kind d t ∈ c.trace := by
  simp [PThreadContext.sig, Event.isOutput]

theorem allTracked_iff : AllTracked c ↔ ∀ kind d t, Event.enter kind d t ∈ c.trace →
    t.currentDevice = d ∧ t.currentHandlerType ≠ 0 ∧ kind.IsDescribedBy t.currentHandlerType := by
  constructor
  · intro h kind d t he
    have ht := h _ (mem_sig_enter.2 he)
    exact ⟨ht.1, ht.2.ne_zero, ht.2⟩
  · intro h e he
    cases e with
    | enter kind d t => exact ⟨(h kind d t (mem_sig_enter.1 he)).1,
        (h kind d t (mem_sig_enter.1 he)).2.2⟩
    | _ => trivial

/-- A thread that never calls a compute handler keeps its tracking fields. -/
theorem threadRun_track (hn : 0 < n) (hindex : ∀ i, (th.device i).index = i)
    (hc : AllTracked c₀) {events : List (ThreadEvent A)}
    (hno : ∀ pre e post c, events = pre ++ e :: post → threadRun th c₀ pre = .ok c →
      ¬RunsCompute c e) : TrackSat (threadRun th c₀ events) id := by
  induction events using List.reverseRecOn with
  | nil => exact Sat.bind (softswitchInit_track hn hc) fun _ _ h => h
  | append_singleton events e ih =>
    have hsplit : threadRun th c₀ (events ++ [e]) =
        threadRun th c₀ events >>= fun c => threadStep th c e := by
      unfold threadRun
      rw [bind_assoc]
      congr 1
      funext c
      exact runList_snoc
    rw [hsplit]
    refine Sat.bind (ih fun pre e' post c hpre => ?_) fun c hrun hc => ?_
    · exact hno pre e' (post ++ [e]) c (by simp [hpre])
    · exact threadStep_track hindex hc (hno events e [] c rfl hrun)

/-- The first compute handler of a run is entered with the fields of another event. -/
theorem not_runsCompute_of_allTracked (hindex : ∀ i, (th.device i).index = i) (hc : AllTracked c₀)
    {events : List (ThreadEvent A)} (hall : AllTracked (lastContext (threadRun th c₀ events)))
    {pre : List (ThreadEvent A)} {e : ThreadEvent A} {post : List (ThreadEvent A)}
    (hsplit : events = pre ++ e :: post) (hpre : threadRun th c₀ pre = .ok c) :
    ¬RunsCompute c e := by
  induction hk : pre.length using Nat.strongRecOn generalizing pre e post c with
  | ind k ih =>
    intro hrun
    have hn : 0 < n := by
      cases e with
      | idle => exact Nat.zero_lt_of_lt hrun.1
      | _ => exact hrun.elim
    have hno : ∀ pre' e' post' c', pre = pre' ++ e' :: post' → threadRun th c₀ pre' = .ok c' →
        ¬RunsCompute c' e' := by
      rintro pre' e' post' c' rfl hpre'
      refine ih pre'.length ?_ (hsplit.trans (List.append_assoc _ _ _)) hpre' rfl
      rw [← hk]
      simp
    have hinv : TrackInv c := (threadRun_track hn hindex hc hno).of_ok hpre
    have hlast : lastContext (threadRun th c₀ events) =
        lastContext (threadStep th c e >>= fun t => runList (threadStep th) t post) := by
      obtain ⟨c₁, hinit, hpre⟩ := bind_eq_ok.1 hpre
      unfold threadRun
      rw [hsplit, hinit, ok_bind, runList_append, hpre, ok_bind, runList_cons]
    have hstep := threadStep_not_tracked th hinv.handlerType hrun
    rw [hlast] at hall
    cases hok : threadStep th c e with
    | ok t =>
      rw [hok, ok_bind] at hall
      exact hstep.of_ok hok (hall.of_grows runList_grows)
    | error s =>
      rw [hok, error_bind] at hall
      exact hstep.of_error hok hall

/-- Every handler of a run is entered with the right tracking fields, exactly if the run
calls no compute handler. -/
theorem handlers_tracked_iff (hindex : ∀ i, (th.device i).index = i) (hstart : c₀.trace = [])
    {events : List (ThreadEvent A)} :
    (∀ kind d t, Event.enter kind d t ∈ (lastContext (threadRun th c₀ events)).trace →
      t.currentDevice = d ∧ t.currentHandlerType ≠ 0 ∧
        kind.IsDescribedBy t.currentHandlerType) ↔
      ∀ pre e post c, events = pre ++ e :: post → threadRun th c₀ pre = .ok c →
        ¬RunsCompute c e := by
  have hc : AllTracked c₀ := by simp [AllTracked, PThreadContext.sig, hstart]
  rw [← allTracked_iff]
  constructor
  · intro hall pre e post c hsplit hpre
    exact not_runsCompute_of_allTracked hindex hc hall hsplit hpre
  · intro hno
    rcases Nat.eq_zero_or_pos n with rfl | hn
    · exact allTracked_iff.2 fun kind d => d.elim0
    · have h := threadRun_track hn hindex hc hno
      cases hrun : threadRun th c₀ events with
      | ok c => exact (h.of_ok hrun).tracked
      | error s => exact h.of_error hrun

/-- A run that calls the init handlers and a send handler. -/
theorem handlers_tracked_iff_send :
    (∃ c, threadRun (flagsThread (defaultBuild true)) (flagsContext 1#32 0#32)
      [.send (flagsMessage 0#16 0#32) false] = .ok c) ∧
    ∀ pre e post c, [ThreadEvent.send (flagsMessage 0#16 0#32) false] = pre ++ e :: post →
      threadRun (flagsThread (defaultBuild true)) (flagsContext 1#32 0#32) pre = .ok c →
      ¬RunsCompute c e := by
  have hindex : ∀ i, ((flagsThread (defaultBuild true)).device i).index = i := fun _ => rfl
  have hstart : (flagsContext 1#32 0#32).trace = [] := rfl
  refine ⟨⟨_, rfl⟩, ?_⟩
  apply (handlers_tracked_iff hindex hstart).1
  intro kind d t h
  have htrace : (lastContext (threadRun (flagsThread (defaultBuild true)) (flagsContext 1#32 0#32)
      [.send (flagsMessage 0#16 0#32) false])).trace =
      [.enter .init 0 ⟨0, 4, 0⟩, .enter .init 1 ⟨1, 4, 0⟩, .onSend, .enter .send 0 ⟨0, 2, 0⟩,
        .sendReturn 0 0 true 1#32] := rfl
  rw [htrace] at h
  simp only [List.mem_cons, Event.enter.injEq, reduceCtorEq, false_or, List.not_mem_nil,
    or_false] at h
  rcases h with ⟨rfl, rfl, rfl⟩ | ⟨rfl, rfl, rfl⟩ | ⟨rfl, rfl, rfl⟩ <;>
    simp [HandlerKind.IsDescribedBy]

/-- The first device wants to compute from the start: its handler is entered as if it were
the init handler of the second one. -/
theorem handlers_not_tracked :
    ¬∀ kind d t, Event.enter kind d t ∈ (lastContext (threadRun (flagsThread (defaultBuild true))
        (flagsContext 0x80000000#32 0#32) [.idle])).trace →
      t.currentDevice = d ∧ t.currentHandlerType ≠ 0 ∧
        kind.IsDescribedBy t.currentHandlerType := by
  intro h
  have hmem : Event.enter .compute 0 ⟨1, 4, 0⟩ ∈ (lastContext (threadRun
      (flagsThread (defaultBuild true)) (flagsContext 0x80000000#32 0#32) [.idle])).trace :=
    List.mem_iff_getElem?.2 ⟨2, rfl⟩
  have := (h _ _ _ hmem).1
  simp at this

end Softswitch
