import Softswitch.Verify.Queue

/-!
# The assertions of the RTS list

With assertions compiled in, `rts_remove` runs its first sanity check after
`softswitch_UpdateRTS` has overwritten the flags of the device that is to be removed.  The
device is still listed and has no output bit, so the check fails.  This is the only way
in which an assertion of the list fails (`DropsReady`).
-/

namespace Softswitch

open Outcome IntrusiveList Function

variable {A : AppTypes} {n : Nat} {α : Type} {th : PThread A n} {c₀ c c' : PThreadContext A n}
  {d : Fin n} {q : List (Fin n)} {m : Message A} {P : Prop}

/-- Where `x` stops on an assertion of the list, `P` holds. -/
def RtsStopOnly (P : Prop) (x : Outcome A n α) (Q : α → Prop) : Prop :=
  Sat x Q (fun s => s.fault.isRts = true → P)

theorem RtsStopOnly.bind {β : Type} {x : Outcome A n α} {f : α → Outcome A n β} {R : α → Prop}
    {Q : β → Prop} (hx : RtsStopOnly P x R)
    (hf : ∀ a, x = .ok a → R a → RtsStopOnly P (f a) Q) : RtsStopOnly P (x >>= f) Q :=
  Sat.bind hx hf

theorem RtsStopOnly.mono {P' : Prop} {x : Outcome A n α} {Q Q' : α → Prop}
    (h : RtsStopOnly P x Q) (hP : P → P') (hQ : ∀ a, Q a → Q' a) : RtsStopOnly P' x Q' :=
  Sat.mono h hQ fun _ hs hr => hP (hs hr)

/-- What never stops for the list. -/
theorem rtsStopOnly_of_isRts {x : Outcome A n α} {Q : α → Prop}
    (h : Sat x Q (fun s => s.fault.isRts = false)) : RtsStopOnly P x Q :=
  Sat.mono h (fun _ h => h) fun _ hs hr => by simp [hs] at hr

theorem check_rtsStopOnly {a : Assertion} {ok : Bool} (ha : a.isRts = false) :
    RtsStopOnly P (th.check c a ok) (fun _ => th.build.asserts = true → ok = true) := by
  refine rtsStopOnly_of_isRts (check_sat.mono (fun _ h => h) ?_)
  rintro s ⟨rfl, -⟩
  exact ha

theorem deref_rtsStopOnly {f : Fault} {o : Option α} (hf : f.isRts = false) :
    RtsStopOnly P (c.deref f o) (fun a => o = some a) := by
  cases o with
  | none => exact fun h => by simp [hf] at h
  | some a => rfl

/-! ## `softswitch_UpdateRTS` -/

/-- The device `d` is ready, and its readiness handler clears its output bits in the state
`s`. -/
def LosesReadiness (th : PThread A n) (c : PThreadContext A n) (d : Fin n) (s : A.DevState) :
    Prop :=
  wantsSend (c.flags d) = true ∧ wantsSend (readyResult th d s).flags = false

theorem softswitchUpdateRTS_rtsStopOnly (hq : IsQueue c q) :
    RtsStopOnly ((∃ r, callReadyToSend th c d = .ok r) ∧ LosesReadiness th c d (c.states d))
      (softswitchUpdateRTS th c d) (fun c' => ∃ q', IsQueue c' q') := by
  cases hr : callReadyToSend th c d with
  | error s =>
    obtain ⟨heq, hs⟩ := softswitchUpdateRTS_error hq hr
    rw [heq]
    exact fun h => by simp [hs] at h
  | ok r =>
    obtain ⟨flags, c₁⟩ := r
    obtain ⟨rfl, -⟩ := callReadyToSend_sat.of_ok hr
    by_cases hlose : LosesReadiness th c d (c.states d)
    · exact Sat.mono (softswitchUpdateRTS_sat.mono (fun _ h => h) fun _ _ => trivial)
        (fun c' h => ⟨_, IsQueue.relinked hq.rep (fun e _ => hq.mem_iff e) (hq.mem_iff d) h.2
          h.1.flags⟩) fun _ _ _ => ⟨⟨_, rfl⟩, hlose⟩
    · obtain ⟨c', hok⟩ := softswitchUpdateRTS_returns hq hr fun _ hold => by
        by_contra hnow
        exact hlose ⟨hold, by simpa using hnow⟩
      rw [hok]
      exact ⟨_, softswitchUpdateRTS_queue hq hok⟩

/-! ## The events -/

/-- A device on the list is handled by `e` and stops being ready: its receive or compute
handler is called and returns, and in the state it leaves the readiness handler returns
without an output bit. -/
def DropsReady (th : PThread A n) (c : PThreadContext A n) : ThreadEvent A → Prop
  | .receive m => ∃ d target c₁ r, Accepts th d m ∧
      th.sizeofPacketHeader ≤ m.source.size.toNat ∧
      receiveTarget th (c.tick th) d m = .ok target ∧
      callReceive th (c.tick th) d m target = .ok c₁ ∧ callReadyToSend th c₁ d = .ok r ∧
      LosesReadiness th c d (receiveResult th c d m target).state
  | .idle => c.rtcChecked < n ∧ c.rtcOffset < n ∧ ∃ k d c₁ r, FindsCompute c k d ∧
      callCompute th (swept c (k + 1)) d = .ok c₁ ∧ callReadyToSend th c₁ d = .ok r ∧
      LosesReadiness th c d (computeResult th c d).state
  | .send _ _ => False
  | .hardwareIdle => False

theorem Ran.losesReadiness {s : A.DevState} {t : Tracking} {es : List (Event A n)}
    (h : Ran c d s t es c') : LosesReadiness th c' d (c'.states d) ↔ LosesReadiness th c d s := by
  unfold LosesReadiness
  rw [h.keeps.flags, h.states, update_self]

/-- The end of an event: the handler of `d` ran, and then the readiness of `d` is
recomputed. -/
theorem Ran.updateRTS_rtsStopOnly {s : A.DevState} {t : Tracking} {es : List (Event A n)}
    (h : Ran c d s t es c') (hq : IsQueue c q) :
    RtsStopOnly ((∃ r, callReadyToSend th c' d = .ok r) ∧ LosesReadiness th c d s)
      (softswitchUpdateRTS th c' d) (fun c'' => ∃ q', IsQueue c'' q') :=
  (softswitchUpdateRTS_rtsStopOnly (h.keeps.isQueue hq)).mono
    (fun hs => ⟨hs.1, h.losesReadiness.1 hs.2⟩) fun _ h => h

theorem softswitchOnReceive_rtsStopOnly (ha : th.build.asserts = true) (hq : IsQueue c q) :
    RtsStopOnly (DropsReady th c (.receive m)) (softswitchOnReceive th c m)
      (fun c' => ∃ q', IsQueue c' q') := by
  have hq' : IsQueue (c.tick th) q := hq.of_links_flags rfl rfl
  unfold softswitchOnReceive
  refine (check_rtsStopOnly rfl).bind fun _ _ hsize => ?_
  refine (check_rtsStopOnly rfl).bind fun _ _ _ => ?_
  split
  · rename_i hd
    dsimp only
    split
    · refine (check_rtsStopOnly rfl).bind fun _ _ hext => ?_
      simpa using hext ha
    · rename_i hext
      refine RtsStopOnly.bind (rtsStopOnly_of_isRts (dispatchReceive_sat.mono (fun _ h => h)
        fun _ h => h.1)) fun c₁ hdispatch hran => ?_
      obtain ⟨target, htarget, hcall⟩ := bind_eq_ok.1 hdispatch
      obtain ⟨target', htarget', hran⟩ := hran
      obtain rfl : target = target' := by
        rw [htarget] at htarget'
        exact Except.ok.inj htarget'
      rw [(hran.keeps.isQueue hq').checkOnList, ok_bind]
      refine RtsStopOnly.bind ((hran.updateRTS_rtsStopOnly hq').mono ?_ fun _ h => h)
        fun c₂ _ hq₂ => ?_
      · rintro ⟨⟨r, hr⟩, hlose⟩
        exact ⟨⟨_, hd⟩, target, c₁, r, ⟨rfl, not_not.1 hext⟩, by simpa using hsize ha, htarget,
          hcall, hr, hlose⟩
      · obtain ⟨q₂, hq₂⟩ := hq₂
        rw [hq₂.checkOnList, ok_bind]
        exact ⟨q₂, hq₂.of_links_flags rfl rfl⟩
  · exact fun h => by cases h

/-- A receive that takes the last output bit of a device on the list stops. -/
theorem softswitchOnReceive_stops (ha : th.build.asserts = true) (hq : IsQueue c q)
    (h : DropsReady th c (.receive m)) :
    ∃ s, softswitchOnReceive th c m = .error s ∧ s.fault.isRts = true := by
  obtain ⟨d, target, c₁, ⟨flags, c₂⟩, ⟨hd, hext⟩, hsize, htarget, hcall, hr, hlose⟩ := h
  have hq' : IsQueue (c.tick th) q := hq.of_links_flags rfl rfl
  have hran := callReceive_sat.of_ok hcall
  have hq₁ : IsQueue c₁ q := hran.keeps.isQueue hq'
  obtain ⟨hflags, -⟩ := callReadyToSend_sat.of_ok hr
  have hlose₁ : LosesReadiness th c₁ d (c₁.states d) := hran.losesReadiness.2 hlose
  have hnow : wantsSend flags = false := (congrArg wantsSend hflags).trans hlose₁.2
  have hlt : m.dest.device.toNat < n := hd ▸ d.isLt
  have hd' : (⟨m.dest.device.toNat, hlt⟩ : Fin n) = d := Fin.ext hd.symm
  refine ⟨⟨.assertion .rtsSanity, storedFlags c₂ d flags⟩, ?_, rfl⟩
  unfold softswitchOnReceive
  dsimp only
  rw [decide_eq_true hsize, check_true, ok_bind, decide_eq_true hlt, check_true, ok_bind,
    dif_pos hlt]
  rw [hd', if_neg (not_not.2 hext)]
  unfold dispatchReceive
  rw [htarget, ok_bind, hcall, ok_bind, hq₁.checkOnList, ok_bind,
    softswitchUpdateRTS_stops ha hq₁ hr hlose₁.1 hnow, error_bind]

theorem softswitchOnIdle_rtsStopOnly (hq : IsQueue c q) :
    RtsStopOnly (DropsReady th c .idle) (softswitchOnIdle th c)
      (fun out => ∃ q', IsQueue out.2 q') := by
  have hswept : ∀ k, IsQueue (swept c k) q := fun k =>
    hq.of_links_flags swept_keeps.1 swept_keeps.2
  unfold softswitchOnIdle
  split
  · exact ⟨q, hq⟩
  · rename_i hdone
    by_cases ho : c.rtcOffset < n
    · rcases idleSweep_chunk th (by omega) ho with ⟨k, d, hfinds, heq⟩ | ⟨hno, heq⟩
      · rw [heq, ok_bind]
        refine RtsStopOnly.bind (rtsStopOnly_of_isRts (callCompute_sat.mono (fun _ h => h)
          fun _ h => h.1)) fun c₁ hcall hran => ?_
        rw [(hran.keeps.isQueue (hswept _)).checkOnList, ok_bind]
        refine RtsStopOnly.bind ((hran.updateRTS_rtsStopOnly (hswept _)).mono ?_ fun _ h => h)
          fun c₂ _ hq₂ => hq₂
        rintro ⟨⟨r, hr⟩, hlose⟩
        exact ⟨by omega, ho, k, d, c₁, r, hfinds, hcall, hr, hlose⟩
      · rw [heq, ok_bind]
        exact ⟨q, hswept _⟩
    · rw [idleSweep_outOfBounds ho]
      exact fun h => by cases h

/-- A computation that takes the last output bit of a device on the list stops. -/
theorem softswitchOnIdle_stops (ha : th.build.asserts = true) (hq : IsQueue c q)
    (h : DropsReady th c .idle) :
    ∃ s, softswitchOnIdle th c = .error s ∧ s.fault.isRts = true := by
  obtain ⟨hlt, ho, k, d, c₁, ⟨flags, c₂⟩, hfinds, hcall, hr, hlose⟩ := h
  have hswept : IsQueue (swept c (k + 1)) q := hq.of_links_flags swept_keeps.1 swept_keeps.2
  have hran := callCompute_sat.of_ok hcall
  have hq₁ : IsQueue c₁ q := hran.keeps.isQueue hswept
  obtain ⟨hflags, -⟩ := callReadyToSend_sat.of_ok hr
  have hlose₁ : LosesReadiness th c₁ d (c₁.states d) := hran.losesReadiness.2 hlose
  have hnow : wantsSend flags = false := (congrArg wantsSend hflags).trans hlose₁.2
  refine ⟨⟨.assertion .rtsSanity, storedFlags c₂ d flags⟩, ?_, rfl⟩
  unfold softswitchOnIdle
  rw [if_neg (by omega), idleSweep_of_finds th hlt ho hfinds, ok_bind]
  dsimp only
  rw [hcall, ok_bind, hq₁.checkOnList, ok_bind,
    softswitchUpdateRTS_stops ha hq₁ hr hlose₁.1 hnow, error_bind]

/-- The device that `softswitch_onSend` takes off the list has its flags cleared. -/
theorem IsQueue.popped (hq : IsQueue c (d :: q)) (hrep : Rep c'.links q)
    (hflags : c'.flags = c.flags) : IsQueue (c'.setRtsFlags d 0#32) q := by
  refine ⟨hrep.congr setRtsFlags_links, fun e => ?_⟩
  have hd : d ∉ q := (List.nodup_cons.1 hq.rep.nodup).1
  rw [setRtsFlags_flags, hflags]
  by_cases he : e = d
  · simp [he, hd]
  · rw [update_of_ne he, ← hq.mem_iff e, List.mem_cons, or_iff_right he]

/-- A send never stops on an assertion of the list: its device is off the list. -/
theorem softswitchOnSend_rtsStopOnly {isApp : Bool} (hq : IsQueue c q) :
    RtsStopOnly False (softswitchOnSend th c m isApp) (fun out => ∃ q', IsQueue out.2.1 q') := by
  have hq₀ : IsQueue ((c.tick th).emit .onSend) q := hq.of_links_flags rfl rfl
  obtain ⟨c₁, hpop, hlinks, hrep⟩ := softswitchPopRTS_ok th hq₀
  unfold softswitchOnSend
  dsimp only
  rw [hpop, ok_bind]
  cases q with
  | nil => exact ⟨[], hrep, fun e => by rw [hlinks.flags_eq]; exact hq₀.mem_iff e⟩
  | cons d q =>
    dsimp only [List.head?_cons]
    refine (check_rtsStopOnly rfl).bind fun _ _ _ => ?_
    refine RtsStopOnly.bind (R := fun _ => True) ?_ fun pinIndex _ _ => ?_
    · unfold rightMostOne
      exact (check_rtsStopOnly rfl).bind fun _ _ _ =>
        (deref_rtsStopOnly rfl).mono id fun _ _ => trivial
    refine (deref_rtsStopOnly rfl).bind fun pin _ _ => ?_
    refine RtsStopOnly.bind (rtsStopOnly_of_isRts (callSend_sat.mono (fun _ h => h)
      fun _ h => h.1)) fun p _ hp => ?_
    obtain ⟨r, c₂⟩ := p
    obtain ⟨-, hran⟩ := hp
    refine (check_rtsStopOnly rfl).bind fun _ _ _ => ?_
    refine RtsStopOnly.bind (R := fun _ => True) (rtsStopOnly_of_isRts (writeHeader_sat.mono
      (fun _ _ => trivial) ?_)) fun s' _ _ => ?_
    · rintro s rfl
      rfl
    have hq₂ : IsQueue (c₂.setRtsFlags d 0#32) q :=
      hq₀.popped (hrep.congr hran.keeps.links) (hran.keeps.flags.trans hlinks.flags_eq)
    have hd : d ∉ q := (List.nodup_cons.1 hq.rep.nodup).1
    rw [rtsIsOnList_eq hq₂.rep, ok_bind, decide_eq_false hd, Bool.not_false, checkM_ok, ok_bind]
    refine RtsStopOnly.bind ((softswitchUpdateRTS_rtsStopOnly hq₂).mono ?_ fun _ h => h)
      fun c₃ _ hq₃ => ?_
    · rintro ⟨-, hold, -⟩
      simp at hold
    · obtain ⟨q', hq'⟩ := hq₃
      exact ⟨q', hq'.of_links_flags rfl rfl⟩

/-- One event stops on an assertion of the list exactly if it takes the last output bit of a
device on the list. -/
theorem threadStep_stops_iff {e : ThreadEvent A} (ha : th.build.asserts = true)
    (hq : IsQueue c q) (he : e ≠ .hardwareIdle) :
    (∃ s, threadStep th c e = .error s ∧ s.fault.isRts = true) ↔ DropsReady th c e := by
  have honly : ∀ {P : Prop} {x : Outcome A n (PThreadContext A n)} {Q : PThreadContext A n → Prop},
      RtsStopOnly P x Q → (∃ s, x = .error s ∧ s.fault.isRts = true) → P := by
    rintro P x Q h ⟨s, rfl, hs⟩
    exact h hs
  cases e with
  | receive message =>
    exact ⟨honly (softswitchOnReceive_rtsStopOnly ha hq), softswitchOnReceive_stops ha hq⟩
  | send message isApp =>
    refine ⟨honly (RtsStopOnly.bind (Q := fun _ => True) (softswitchOnSend_rtsStopOnly hq)
      fun _ _ _ => trivial), ?_⟩
    exact fun h => h.elim
  | idle =>
    refine ⟨honly (RtsStopOnly.bind (Q := fun _ => True) (softswitchOnIdle_rtsStopOnly hq)
      fun _ _ _ => trivial), ?_⟩
    intro h
    obtain ⟨s, hs, hrts⟩ := softswitchOnIdle_stops ha hq h
    exact ⟨s, bind_eq_error.2 (.inl hs), hrts⟩
  | hardwareIdle => exact absurd rfl he

/-! ## Runs -/

/-- The initialisation appends devices that are ready and not on the list. -/
theorem initDevice_rtsStopOnly (hq : InitQueue c d.val q) :
    RtsStopOnly False (initDevice th c d) (fun c' => ∃ q', InitQueue c' (d.val + 1) q') := by
  suffices h : RtsStopOnly False (initDevice th c d) (fun _ => True) by
    cases hok : initDevice th c d with
    | ok c' => exact hq.step (initDevice_sat.of_ok hok)
    | error s => exact h.of_error hok
  have hd : d ∉ q := fun hd => Nat.lt_irrefl _ ((hq.mem_iff d).1 hd).1
  unfold initDevice
  refine RtsStopOnly.bind (rtsStopOnly_of_isRts (runCalls_service.mono (fun _ h => h)
    fun _ h => h.2)) fun c₁ _ h₁ => ?_
  refine RtsStopOnly.bind (rtsStopOnly_of_isRts (callReadyToSend_sat.mono (fun _ h => h)
    fun _ h => h.2)) fun p _ hp => ?_
  obtain ⟨flags, c₂⟩ := p
  obtain ⟨-, h₂⟩ := hp
  dsimp only
  split
  · rename_i hw
    have hrep : Rep (c₂.setRtsFlags d flags).links q := by
      refine hq.rep.congr ?_
      rw [setRtsFlags_links, h₂.links_eq, setState_links, h₁.links_eq, setState_links]
      rfl
    have hflags : (c₂.setRtsFlags d flags).flags = update c.flags d flags := by
      rw [setRtsFlags_flags, h₂.flags_eq, setState_flags, h₁.flags_eq, setState_flags]
      rfl
    obtain ⟨c₃, hok⟩ := rtsAppend_ok th hrep (fun e he => by
      have hed : e ≠ d := by
        rintro rfl
        exact hd he
      rw [hflags, update_of_ne hed]
      exact ((hq.mem_iff e).1 he).2) hd (by rwa [hflags, update_self])
    rw [hok]
    trivial
  · trivial

theorem softswitchInit_rtsStopOnly :
    RtsStopOnly False (softswitchInit th c) (fun _ => True) := by
  unfold softswitchInit
  refine (check_rtsStopOnly rfl).bind fun _ _ _ => ?_
  have hclear : ∃ q, InitQueue (clearRts (zeroProfileCounters th c)) 0 q :=
    ⟨[], Rep.empty, fun e => by simp⟩
  have hstep : ∀ (d : Fin n) (s : PThreadContext A n), (∃ q, InitQueue s d q) →
      Sat (initDevice th s d) (fun s' => ∃ q, InitQueue s' (d + 1) q)
        (fun s => s.fault.isRts = true → False) := by
    rintro d s ⟨q, hq⟩
    exact initDevice_rtsStopOnly hq
  exact Sat.mono (Sat.foldlM_finRange (I := fun i s => ∃ q, InitQueue s i q) hstep hclear)
    (fun _ _ => trivial) fun _ h => h

/-- Along a run of receives, sends and idles no assertion of the list fails, exactly if no
event on the way takes the last output bit of a device on the list. -/
theorem rtsAssertions_hold_iff (ha : th.build.asserts = true) {events : List (ThreadEvent A)}
    (hevents : ∀ e ∈ events, e ≠ .hardwareIdle) :
    (∀ s, threadRun th c₀ events = .error s → s.fault.isRts = false) ↔
      ∀ pre e post c, events = pre ++ e :: post → threadRun th c₀ pre = .ok c →
        ¬DropsReady th c e := by
  have hqueue : ∀ pre e post c, events = pre ++ e :: post → threadRun th c₀ pre = .ok c →
      e ≠ .hardwareIdle ∧ ∃ q, IsQueue c q := by
    rintro pre e post c rfl hpre
    refine ⟨hevents e (by simp), (Reachable.of_run (fun e' he' => ?_) hpre).isQueue⟩
    exact hevents e' (List.mem_append_left _ he')
  constructor
  · intro hrun pre e post c hsplit hpre hdrop
    obtain ⟨he, q, hq⟩ := hqueue pre e post c hsplit hpre
    obtain ⟨s, hs, hrts⟩ := (threadStep_stops_iff ha hq he).2 hdrop
    have hstop : threadRun th c₀ events = .error s := by
      obtain ⟨c₁, hc₁, hpre⟩ := bind_eq_ok.1 hpre
      unfold threadRun
      rw [hsplit, hc₁, ok_bind]
      exact runList_error_of_prefix hpre hs
    simp [hrun s hstop] at hrts
  · intro hno s hs
    by_contra hrts
    have hrts : s.fault.isRts = true := by simpa using hrts
    rcases bind_eq_error.1 hs with hs | ⟨c₁, hc₁, hs⟩
    · exact softswitchInit_rtsStopOnly.of_error hs hrts
    · obtain ⟨pre, e, post, c, hsplit, hpre, he⟩ := runList_error hs
      have hpre' : threadRun th c₀ pre = .ok c := by
        unfold threadRun
        rw [hc₁]
        exact hpre
      obtain ⟨hidle, q, hq⟩ := hqueue pre e post c hsplit hpre'
      exact hno pre e post c hsplit hpre' ((threadStep_stops_iff ha hq hidle).1 ⟨s, he, hrts⟩)

/-- A message that leaves the device ready. -/
theorem rtsAssertions_hold_iff_ready :
    (∃ c, threadRun (flagsThread (defaultBuild true)) (flagsContext 1#32 1#32)
      [.receive (flagsMessage 0#16 1#32)] = .ok c) ∧
    ∀ pre e post c, [ThreadEvent.receive (flagsMessage 0#16 1#32)] = pre ++ e :: post →
      threadRun (flagsThread (defaultBuild true)) (flagsContext 1#32 1#32) pre = .ok c →
      ¬DropsReady (flagsThread (defaultBuild true)) c e := by
  refine ⟨⟨_, rfl⟩, ?_⟩
  apply (rtsAssertions_hold_iff rfl (by simp)).1
  intro s hs
  cases hs

/-- A message without output bits for a device that is on the list. -/
theorem rtsAssertions_fail : ∃ s,
    threadRun (flagsThread (defaultBuild true)) (flagsContext 1#32 1#32)
    [.receive (flagsMessage 1#16 0#32)] = .error s ∧ s.fault = .assertion .rtsSanity :=
  ⟨_, rfl, rfl⟩

end Softswitch
