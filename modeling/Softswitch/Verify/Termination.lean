import Softswitch.Verify.MainIdle

/-!
# No endless loop in a step

With the assertions compiled out, a step of the main loop returns, or stops at a bad memory
access.  The walks along the RTS list are all in assertions; the loops that are left pop host
messages, for which the indices have to be right, or look for the lowest bit of the flags of
the device at the head of the RTS list, which wants to send.
-/

namespace Softswitch

open Outcome

variable {A : AppTypes} {n : Nat} {α β : Type} {th : PThread A n} {c c' : PThreadContext A n}
  {s s' : Main A n} {i : LoopInput A} {w : WaitLocals} {d : Fin n} {q : List (Fin n)}
  {m : Message A}

/-- An access through a null pointer, or outside an array. -/
def Fault.isMemory : Fault → Bool
  | .nullDeref | .outOfBounds => true
  | _ => false

/-- `x` returns, or stops at a bad memory access. -/
def Ends (x : Outcome A n α) : Prop := Sat x (fun _ => True) (fun s => s.fault.isMemory = true)

namespace Ends

/-- What returns has ended. -/
theorem ok {a : α} : Ends (.ok a : Outcome A n α) := trivial

/-- If both parts end, the whole does. -/
theorem bind {x : Outcome A n α} {f : α → Outcome A n β} (hx : Ends x)
    (hf : ∀ a, x = .ok a → Ends (f a)) : Ends (x >>= f) :=
  Sat.bind hx fun a ha _ => hf a ha

theorem deref {f : Fault} {o : Option α} (hf : f.isMemory = true) : Ends (c.deref f o) := by
  cases o with
  | none => exact hf
  | some a => trivial

/-- A loop whose body ends and keeps an invariant. -/
theorem foldlM {σ ι : Type} {f : σ → ι → Outcome A n σ} {I : σ → Prop} {is : List ι}
    (hf : ∀ s i, I s → Ends (f s i)) (hI : ∀ s i s', I s → f s i = .ok s' → I s') {s : σ}
    (hs : I s) : Ends (is.foldlM f s) := by
  refine Sat.mono (Q := I) ?_ (fun _ _ => trivial) fun _ h => h
  refine Sat.foldlM (fun t i _ ht => ?_) hs
  have hend := hf t i ht
  cases hx : f t i with
  | ok t' => exact hI t i t' ht hx
  | error e =>
    rw [hx] at hend
    exact hend

end Ends

/-! ## Services -/

section

variable (ha : th.build.asserts = false)

include ha

/-- Assertions are compiled out. -/
theorem check_ends {a : Assertion} {ok : Bool} : Ends (th.check c a ok) := by
  rw [check_of_noAsserts ha]
  exact .ok

theorem checkM_ends {a : Assertion} {x : Outcome A n Bool} : Ends (th.checkM c a x) := by
  rw [checkM_of_noAsserts ha]
  exact .ok

/-- With them goes the walk of `rts_sanity` along the list. -/
theorem rtsSanity_ends : Ends (rtsSanity th c) := by
  rw [rtsSanity_of_noAsserts ha]
  exact .ok

omit ha in
theorem logPinName_ends {dev : DeviceFixed A} : Ends (logPinName th c dev) :=
  logPinName_sat.mono (fun _ h => h) fun _ h => by rw [h]; rfl

/-- A log ends, or reads the name of its pin outside the table. -/
theorem softswitchHandlerLogImpl_ends {level : Int} {pc msg : BitVec 32}
    {params : List (BitVec 32)} : Ends (softswitchHandlerLogImpl th c level pc msg params) := by
  refine (check_ends ha).bind fun _ _ => (check_ends ha).bind fun _ _ => ?_
  split
  · exact .ok
  · split
    · exact logPinName_ends.bind fun pin _ => (check_ends ha).bind fun _ _ => .ok
    · exact rfl

omit ha in
/-- Every pop makes the host buffer smaller. -/
theorem hostMessageSlowPopSend_size (hc : c.Counted) (hsize : 0 < hostMsgBufferSize c) :
    hostMsgBufferSize (hostMessageSlowPopSend c) + 1 = hostMsgBufferSize c := by
  have hpop : (hostMessageSlowPopSend c).Counted := hc.pop (hc.pending_pos hsize)
  have hpending : (hostMessageSlowPopSend c).hostPending = c.hostPending - 1 := rfl
  rw [hpop.size_eq, hc.size_eq, hpending]
  rw [hc.size_eq] at hsize
  simp only [hostbufferSize] at *
  omega

omit ha in
/-- The buffer is drained in as many steps as it seems to hold messages. -/
theorem drainHostBuffer_ends {fuel : Nat} (hc : c.Counted) (hfuel : hostMsgBufferSize c ≤ fuel) :
    Ends (drainHostBuffer fuel c) := by
  induction fuel generalizing c with
  | zero =>
    unfold drainHostBuffer
    rw [if_neg (by omega)]
    exact .ok
  | succ fuel ih =>
    unfold drainHostBuffer
    split
    · rename_i hsize
      have hless := hostMessageSlowPopSend_size hc hsize
      exact ih (hc.pop (hc.pending_pos hsize)) (by omega)
    · exact .ok

omit ha in
theorem hostMsgBufferSize_le (hc : c.Counted) : hostMsgBufferSize c ≤ hostbufferSize := by
  rw [hc.size_eq]
  exact (Nat.mod_lt _ (by decide)).le

/-- A service that a handler calls ends. -/
theorem runCall_ends {call : HandlerCall} (hc : c.Counted) : Ends (runCall th c call) := by
  cases call with
  | handlerLog level pc msg params => exact softswitchHandlerLogImpl_ends ha
  | hostMsgBufferPush msg => exact .ok
  | handlerExit code =>
    exact (drainHostBuffer_ends hc (hostMsgBufferSize_le hc)).bind fun _ _ => .ok
  | assert ok => exact (check_ends ha).bind fun _ _ => .ok

/-- The services of a handler end. -/
theorem runCalls_ends {calls : List HandlerCall} (hc : c.Counted) : Ends (runCalls th c calls) := by
  refine Ends.foldlM (I := fun c => c.Counted) (fun s call hs => runCall_ends ha hs) ?_ hc
  exact fun s call s' hs hok => HostStep.counted (runCall_service.of_ok hok) hs

/-! ## Readiness -/

theorem callReadyToSend_ends (hc : c.Counted) : Ends (callReadyToSend th c d) := by
  unfold callReadyToSend
  refine Ends.bind ?_ fun _ _ => .ok
  exact runCalls_ends ha hc

theorem rtsAppend_ends : Ends (rtsAppend th c d) := by
  refine (rtsSanity_ends ha).bind fun _ _ => (checkM_ends ha).bind fun _ _ => ?_
  exact (rtsSanity_ends ha).bind fun _ _ => .ok

/-- Links that lead nowhere stop `rts_remove` at a bad access. -/
theorem rtsRemove_ends : Ends (rtsRemove th c d) := by
  have hnext : Ends (rtsRemoveNext c d) := by
    unfold rtsRemoveNext
    split
    · exact .ok
    · exact (Ends.deref rfl).bind fun _ _ => .ok
  have hprev : ∀ {c : PThreadContext A n}, Ends (rtsRemovePrev c d) := by
    intro c
    unfold rtsRemovePrev
    split
    · exact .ok
    · exact (Ends.deref rfl).bind fun _ _ => .ok
  refine (rtsSanity_ends ha).bind fun _ _ => (checkM_ends ha).bind fun _ _ => ?_
  refine (check_ends ha).bind fun _ _ => hnext.bind fun c₁ _ => hprev.bind fun c₂ _ => ?_
  exact (rtsSanity_ends ha).bind fun _ _ => .ok

theorem rtsStoreFlags_ends {flags : BitVec 32} : Ends (rtsStoreFlags th c d flags) := by
  rw [rtsStoreFlags_eq]
  refine (checkM_ends ha).bind fun _ _ => ?_
  split
  · exact .ok
  · split
    · exact rtsAppend_ends ha
    · exact rtsRemove_ends ha

/-- An update of the list ends. -/
theorem softswitchUpdateRTS_ends (hc : c.Counted) : Ends (softswitchUpdateRTS th c d) := by
  refine (rtsSanity_ends ha).bind fun _ _ => ?_
  exact (callReadyToSend_ends ha hc).bind fun r _ => rtsStoreFlags_ends ha

/-! ## Events -/

/-- The search halves what it looks at. -/
theorem findEdge_ends {bindings : List (InputPinBinding A)} :
    Ends (findEdge th c m bindings) := by
  have hnoEdge : Ends (onReceiveNoEdge th c m bindings) := by
    unfold onReceiveNoEdge
    rw [if_neg (by simp [ha])]
    exact .ok
  have hrest : Ends (do
      let edge ← c.deref .outOfBounds bindings[LowerBound.lowerBound (fun i =>
        (bindings[i]?).any fun a => cmpAddress a.source m.source) bindings.length]?
      th.check c .onReceiveNoEdge (sameAddress edge.source m.source)
      return edge) :=
    (Ends.deref rfl).bind fun _ _ => (check_ends ha).bind fun _ _ => .ok
  unfold findEdge
  dsimp only
  split
  · exact hrest
  · exact hnoEdge.bind fun _ _ => hrest

theorem receiveTarget_ends : Ends (receiveTarget th c d m) := by
  refine (check_ends ha).bind fun _ _ => (Ends.deref rfl).bind fun pin _ => ?_
  split
  · exact .ok
  · refine (Ends.deref rfl).bind fun _ _ => (findEdge_ends ha).bind fun _ _ => ?_
    exact (check_ends ha).bind fun _ _ => (check_ends ha).bind fun _ _ => .ok

theorem callReceive_ends {target : ReceiveTarget A} (hc : c.Counted) :
    Ends (callReceive th c d m target) := by
  unfold callReceive
  refine Ends.bind (runCalls_ends ha ?_) fun _ _ => .ok
  unfold storeEdgeState
  split <;> exact hc

/-- A receive ends, however the message is addressed. -/
theorem softswitchOnReceive_ends (hc : c.Counted) : Ends (softswitchOnReceive th c m) := by
  unfold softswitchOnReceive
  refine (check_ends ha).bind fun _ _ => (check_ends ha).bind fun _ _ => ?_
  dsimp only
  split
  · split
    · exact (check_ends ha).bind fun _ _ => .ok
    · refine Ends.bind ?_ fun c₁ h₁ => ?_
      · exact (receiveTarget_ends ha).bind fun target _ => callReceive_ends ha hc
      · obtain ⟨target, -, hran⟩ := dispatchReceive_sat.of_ok h₁
        refine (checkM_ends ha).bind fun _ _ => ?_
        refine (softswitchUpdateRTS_ends ha (hran.keeps.counted hc)).bind fun c₂ _ => ?_
        exact (checkM_ends ha).bind fun _ _ => .ok
  · exact rfl

omit ha in
/-- A word other than zero has a lowest bit. -/
theorem rightMostOneFrom_isSome {fuel k : Nat} {x : BitVec 32} (hx : x ≠ 0#32)
    (hfuel : x.toNat < 2 ^ fuel) : (rightMostOneFrom fuel k x).isSome = true := by
  induction fuel generalizing k x with
  | zero =>
    refine absurd (BitVec.eq_of_toNat_eq ?_) hx
    simpa using hfuel
  | succ fuel ih =>
    unfold rightMostOneFrom
    split
    · rename_i hlow
      have heven : x.toNat % 2 = 0 := by
        have := congrArg BitVec.toNat hlow
        simpa [Nat.and_one_is_mod] using this
      have hshift : (x >>> 1).toNat = x.toNat / 2 := by
        rw [BitVec.toNat_ushiftRight, Nat.shiftRight_one]
      refine ih (fun hzero => hx (BitVec.eq_of_toNat_eq ?_)) ?_
      · rw [hzero] at hshift
        simp at hshift ⊢
        omega
      · rw [hshift]
        omega
    · rfl

omit ha in
/-- A device that wants to send has a lowest ready pin. -/
theorem rightMostOneFrom_of_wantsSend {flags : BitVec 32} (hw : wantsSend flags = true) :
    ∃ k, rightMostOneFrom 32 0 flags = some k := by
  have hne : flags ≠ 0#32 := by
    rintro rfl
    simp at hw
  exact Option.isSome_iff_exists.1 (rightMostOneFrom_isSome hne flags.isLt)

omit ha in
theorem rightMostOne_ends {flags : BitVec 32} (hw : wantsSend flags = true) :
    Ends (rightMostOne th c flags) := by
  obtain ⟨k, hk⟩ := rightMostOneFrom_of_wantsSend hw
  rw [rightMostOne_ok hk]
  exact .ok

theorem callSend_ends {pinIndex : Nat} {pin : OutputPinVTable A} {payload : A.Payload}
    (hc : c.Counted) : Ends (callSend th c d pinIndex pin payload) := by
  unfold callSend
  refine Ends.bind ?_ fun _ _ => .ok
  exact runCalls_ends ha hc

/-- A send ends where the list holds devices that want to send. -/
theorem softswitchOnSend_ends {isApp : Bool} (hc : c.Counted) (hq : IsQueue c q) :
    Ends (softswitchOnSend th c m isApp) := by
  have hq₀ : IsQueue ((c.tick th).emit .onSend) q := hq.of_links_flags rfl rfl
  obtain ⟨c₁, hpop, hlinks, -⟩ := softswitchPopRTS_ok th hq₀
  have hc₁ : c₁.Counted := hlinks.frame.counted hc
  unfold softswitchOnSend
  dsimp only
  rw [hpop, ok_bind]
  cases hd : q.head? with
  | none => exact .ok
  | some d =>
    have hwants : wantsSend (c₁.devices d).rtsFlags = true := by
      have hflags : (c₁.devices d).rtsFlags = c.flags d := congrFun hlinks.flags_eq d
      rw [hflags]
      exact hq.wantsSend_of_mem d (List.mem_of_mem_head? hd)
    refine (check_ends ha).bind fun _ _ => (rightMostOne_ends hwants).bind fun pinIndex _ => ?_
    refine (Ends.deref rfl).bind fun pin _ => ?_
    refine Ends.bind (callSend_ends ha ?_) fun r hr => (check_ends ha).bind fun _ _ => ?_
    · exact hc₁
    have hr := (callSend_sat.of_ok hr).2.keeps.counted hc₁
    refine Ends.bind (writeHeader_sat.mono (fun _ _ => trivial) ?_) fun s' _ => ?_
    · rintro s rfl
      rfl
    · refine (checkM_ends ha).bind fun _ _ => Ends.bind ?_ fun _ _ => .ok
      exact softswitchUpdateRTS_ends ha hr

/-- The search is bounded by the number of devices. -/
theorem softswitchOnIdle_ends (hc : c.Counted) : Ends (softswitchOnIdle th c) := by
  by_cases hdone : n ≤ c.rtcChecked
  · rw [softswitchOnIdle_over hdone]
    exact .ok
  by_cases ho : c.rtcOffset < n
  · have hlt : c.rtcChecked < n := Nat.lt_of_not_le hdone
    rcases idleSweep_chunk th hlt ho with ⟨k, d, -, hsweep⟩ | ⟨hno, -⟩
    · unfold softswitchOnIdle
      rw [if_neg hdone, hsweep, ok_bind]
      refine Ends.bind (runCalls_ends ha ?_) fun c₁ h₁ => (checkM_ends ha).bind fun _ _ => ?_
      · exact hc
      · have hc₁ : c₁.Counted := HostStep.counted (runCalls_service.of_ok h₁) hc
        exact (softswitchUpdateRTS_ends ha hc₁).bind fun _ _ => .ok
    · rw [softswitchOnIdle_noCompute hlt ho hno]
      exact .ok
  · unfold softswitchOnIdle
    rw [if_neg hdone, idleSweep_outOfBounds ho]
    exact rfl

theorem hardwareIdleDevice_ends (hc : c.Counted) : Ends (hardwareIdleDevice th c d) := by
  refine (check_ends ha).bind fun _ _ => (checkM_ends ha).bind fun _ _ => ?_
  cases (th.device d).vtable.onHardwareIdleHandler with
  | none => exact .ok
  | some handler =>
    refine Ends.bind (runCalls_ends ha ?_) fun c₁ h₁ => ?_
    · exact hc
    · exact softswitchUpdateRTS_ends ha (HostStep.counted (runCalls_service.of_ok h₁) hc)

/-- The devices are gone through once. -/
theorem softswitchOnHardwareIdle_ends (hc : c.Counted) : Ends (softswitchOnHardwareIdle th c) := by
  refine Ends.bind (Ends.foldlM (I := fun c => c.Counted) ?_ ?_ hc) fun _ _ => .ok
  · exact fun s d hs => hardwareIdleDevice_ends ha hs
  · exact fun s d s' hs hok => (hardwareIdleDevice_sat.of_ok hok).counted hs

/-! ## The main loop -/

theorem loopTop_ends (hc : s.ctxt.Counted) : Ends (loopTop th s i) := by
  unfold loopTop
  dsimp only
  split
  · refine Ends.bind ?_ fun out _ => ?_
    · exact softswitchOnIdle_ends ha hc
    · split <;> exact .ok
  · exact .ok

theorem waitPhase_ends : Ends (waitPhase th s w) := by
  unfold waitPhase
  dsimp only
  split
  · exact (check_ends ha).bind fun _ _ => .ok
  · exact .ok

omit ha in
/-- The first or the second pop leaves space for the messages of a handler. -/
theorem drainToAdequate_ends {fuel : Nat} (hc : c.Counted) (hmany : 1 < c.hostPending) :
    Ends (drainToAdequate (fuel + 2) c) := by
  have hpop : (hostMessageSlowPopSend c).Counted := hc.pop (by omega)
  unfold drainToAdequate
  dsimp only
  split
  · exact .ok
  · rename_i hspace
    have hsize := hostMsgBufferSize_le hpop
    simp only [hostMsgBufferSpace, maxHostPerHandler, hostbufferSize] at hspace hsize
    have hless := hostMessageSlowPopSend_size hpop (by omega)
    have hlt : hostMsgBufferSize (hostMessageSlowPopSend c) < hostbufferSize := by
      rw [hpop.size_eq]
      exact Nat.mod_lt _ (by decide)
    unfold drainToAdequate
    rw [if_pos ?_]
    · exact .ok
    · simp only [hostMsgBufferSpace, maxHostPerHandler, hostbufferSize] at *
      omega

omit ha in
/-- The loop that makes space ends, since there is a message to send when it starts. -/
theorem makeAdequate_ends (hc : c.Counted)
    (hfew : w.adequateHostBufferSpace = false → 1 < c.hostPending) : Ends (makeAdequate c w) := by
  unfold makeAdequate
  split
  · exact .ok
  · rename_i hspace
    exact drainToAdequate_ends hc (hfew (by simpa using hspace))

omit ha in
theorem derefAddress_ends {p : Option AddressPtr} : Ends (derefAddress c p) :=
  (Ends.deref rfl).bind fun _ _ => Ends.deref rfl

omit ha in
theorem retarget_ends : Ends (retarget s) := by
  rw [retarget_eq]
  split
  · exact .ok
  · exact derefAddress_ends.bind fun _ _ => .ok

omit ha in
theorem mailboxDeliver_ends : Ends (mailboxDeliver th s) := by
  rw [mailboxDeliver_eq]
  dsimp only
  split
  · exact .ok
  · exact derefAddress_ends.bind fun _ _ => .ok

omit ha in
theorem deliversDirectly_ends {adequate : Bool} : Ends (deliversDirectly th s adequate) := by
  rw [deliversDirectly_eq]
  split
  · exact derefAddress_ends.bind fun _ _ => .ok
  · exact .ok

/-- A delivery ends, or reads its target at a bad address. -/
theorem deliver_ends {adequate : Bool} (hc : s.ctxt.Counted) : Ends (deliver th s adequate) := by
  have hrest : Ends (do
      let s ← retarget s
      let direct ← deliversDirectly th s adequate
      let s ← if direct then directDeliver th s else mailboxDeliver th s
      return nextTarget s) := by
    refine retarget_ends.bind fun s₁ h₁ => deliversDirectly_ends.bind fun direct _ => ?_
    have hc₁ : s₁.ctxt.Counted := retarget_ctxt h₁ ▸ hc
    cases direct with
    | true =>
      refine Ends.bind ?_ fun _ _ => .ok
      exact (softswitchOnReceive_ends ha hc₁).bind fun _ _ => .ok
    | false => exact mailboxDeliver_ends.bind fun _ _ => .ok
  rw [deliver_eq]
  split
  · exact derefAddress_ends.bind fun _ _ => hrest
  · exact hrest

/-- The devices in the list want to send, so that a new message finds its pin. -/
theorem prepare_ends (hc : s.ctxt.Counted) (hq : IsQueue s.ctxt q) : Ends (prepare th s) := by
  unfold prepare
  split
  · exact (softswitchOnSend_ends ha hc hq).bind fun _ _ => .ok
  · exact .ok

theorem sendBranch_ends {adequate : Bool} (hc : s.ctxt.Counted) (hq : IsQueue s.ctxt q) :
    Ends (sendBranch th s w adequate i) := by
  refine (check_ends ha).bind fun _ _ => (check_ends ha).bind fun _ _ => ?_
  split
  · exact .ok
  · refine (prepare_ends ha hc hq).bind fun s₁ h₁ => ?_
    split
    · exact deliver_ends ha ((prepare_sat.of_ok h₁).counted hc)
    · exact .ok

theorem receiveBranch_ends (hc : s.ctxt.Counted) : Ends (receiveBranch th s i) := by
  refine (check_ends ha).bind fun _ _ => Ends.bind ?_ fun _ _ => .ok
  exact softswitchOnReceive_ends ha hc

/-- Sending ends, and so does receiving. -/
theorem act_ends {adequate : Bool} (hc : s.ctxt.Counted) (hq : IsQueue s.ctxt q) :
    Ends (act th s w adequate i) := by
  unfold act
  split
  · split
    · exact sendBranch_ends ha hc hq
    · exact receiveBranch_ends ha hc
  · split
    · exact receiveBranch_ends ha hc
    · exact (check_ends ha).bind fun _ _ => sendBranch_ends ha hc hq

/-- The host buffer does hold the messages that are popped after the wait. -/
theorem wake_ends (hinv : HostInv s) (hpc : s.pc = .wait w) (hq : IsQueue s.ctxt q) :
    Ends (wake th s w i) := by
  have hc : s.ctxt.Counted := hinv.counted (by simp [hpc])
  unfold wake
  refine (waitPhase_ends ha).bind fun s₁ h₁ => ?_
  obtain ⟨c₁, rfl, hwait, hbuffer⟩ := waitPhase_sat.of_ok h₁
  have hc₁ : c₁.Counted := hwait.keeps.counted hc
  have hpending : c₁.hostPending = s.ctxt.hostPending := congrArg HostBuffer.hostPending hbuffer
  split
  · exact (softswitchOnHardwareIdle_ends ha hc₁).bind fun _ _ => .ok
  · have hfew : w.adequateHostBufferSpace = false → 1 < c₁.hostPending :=
      fun h => hpending ▸ hinv.inadequate w hpc h
    have hnonempty : w.hostBufferEmpty = false → 0 < c₁.hostPending :=
      fun h => hpending ▸ hinv.nonempty w hpc h
    refine (makeAdequate_ends hc₁ hfew).bind fun c₂ h₂ => ?_
    have hstep := ((makeAdequate_sat hc₁ hnonempty hfew).of_ok h₂).1
    have hq₂ : IsQueue c₂ q := (hwait.keeps.trans hstep.keepsRts).isQueue hq
    refine Ends.bind ?_ fun _ _ => .ok
    exact act_ends ha (hstep.counted hc₁) hq₂

/-- A step of the main loop ends. -/
theorem mainStep_ends (hinv : HostInv s) (hs : IdleInv s) : Ends (mainStep th s i) := by
  unfold mainStep
  split
  · exact .ok
  · rename_i hpc
    exact loopTop_ends ha (hinv.counted (by simp [hpc]))
  · rename_i w hpc
    obtain ⟨q, hq⟩ := (hs.thread (by simp [hpc])).queue
    exact wake_ends ha hinv hpc hq

end

end Softswitch
