import Softswitch.Main

/-!
# What the services of a handler leave alone

A handler service changes the host buffer and emits output (`HostStep`).  `sig` is the
part of the trace that is not output: handler entries, handler calls and mailbox traffic.
`Sat` statements here cover both ways a computation ends, since an assertion that fails
leaves its context behind.
-/

namespace Softswitch

open Outcome

variable {A : AppTypes} {n : Nat} {α : Type} {th : PThread A n} {c c' c'' : PThreadContext A n}

/-- Text for the host: it says nothing of messages between devices. -/
def Event.isOutput : Event A n → Bool
  | .uart _ | .softswitchLog _ _ | .strayStore _ => true
  | _ => false

/-- The trace without the output. -/
def PThreadContext.sig (c : PThreadContext A n) : List (Event A n) :=
  c.trace.filter fun e => !e.isOutput

/-- Events that are no outputs are kept. -/
theorem sig_emit {e : Event A n} (he : e.isOutput = false) :
    (c.emit e).sig = c.sig ++ [e] := by
  simp [PThreadContext.sig, PThreadContext.emit, he]

/-- The fault is one of the assertions of the RTS list. -/
def Fault.isRts : Fault → Bool
  | .assertion a => a.isRts
  | _ => false

/-! ## Checks -/

/-- An assertion that is compiled in stops where its condition fails, and only there. -/
theorem check_sat {a : Assertion} {ok : Bool} :
    Sat (th.check c a ok) (fun _ => th.build.asserts = true → ok = true)
      (fun s => s = ⟨.assertion a, c⟩ ∧ th.build.asserts = true ∧ ok = false) := by
  unfold PThread.check
  cases h : th.build.asserts <;> cases ok <;> simp [PThreadContext.fail]

theorem check_true {a : Assertion} : th.check c a true = .ok () := by
  simp [PThread.check]

/-- An assertion that is not compiled in checks nothing. -/
theorem check_of_noAsserts {a : Assertion} {ok : Bool} (h : th.build.asserts = false) :
    th.check c a ok = .ok () := by
  simp [PThread.check, h]

theorem checkM_ok {a : Assertion} : th.checkM c a (.ok true) = .ok () := by
  unfold PThread.checkM
  split
  · exact check_true
  · rfl

theorem checkM_of_noAsserts {a : Assertion} {m : Outcome A n Bool}
    (h : th.build.asserts = false) : th.checkM c a m = .ok () := by
  simp [PThread.checkM, h]

/-- `m` reads `c`: where it stops, it stops in `c`. -/
def Reads (c : PThreadContext A n) (m : Outcome A n α) : Prop :=
  Sat m (fun _ => True) (fun s => s.ctxt = c)

/-- Two parts that only read do so together. -/
theorem Reads.bind {β : Type} {m : Outcome A n α} {f : α → Outcome A n β} (hm : Reads c m)
    (hf : ∀ a, Reads c (f a)) : Reads c (m >>= f) :=
  Sat.bind hm fun a _ _ => hf a

/-- A computation that reads `c` adds only stops in `c` to what follows. -/
theorem Reads.then {β : Type} {m : Outcome A n α} {f : α → Outcome A n β} {Q : β → Prop}
    {E : PThreadContext A n → Prop} (hm : Reads c m) (hc : E c)
    (hf : ∀ a, m = .ok a → Sat (f a) Q (fun s => E s.ctxt)) :
    Sat (m >>= f) Q (fun s => E s.ctxt) := by
  refine Sat.bind (Sat.mono hm (fun _ h => h) ?_) fun a ha _ => hf a ha
  rintro s rfl
  exact hc

theorem check_reads {a : Assertion} {ok : Bool} : Reads c (th.check c a ok) := by
  refine check_sat.mono (fun _ _ => trivial) ?_
  rintro s ⟨rfl, -⟩
  rfl

theorem checkM_reads {a : Assertion} {m : Outcome A n Bool} (hm : Reads c m) :
    Reads c (th.checkM c a m) := by
  unfold PThread.checkM
  split
  · exact hm.bind fun _ => check_reads
  · trivial

/-- What was read was there. -/
theorem deref_eq_ok {f : Fault} {o : Option α} {a : α} (h : c.deref f o = .ok a) :
    o = some a := by
  cases o with
  | none => cases h
  | some a' =>
    cases h
    rfl

theorem deref_reads {f : Fault} {o : Option α} : Reads c (c.deref f o) := by
  cases o with
  | none => rfl
  | some a => trivial

/-- What holds where a computation ends and where it stops holds of the last context. -/
theorem lastContext_sat {x : Outcome A n (PThreadContext A n)} {P : PThreadContext A n → Prop}
    (h : Sat x P fun s => P s.ctxt) : P (lastContext x) := by
  cases x with
  | error s => exact h
  | ok c => exact h

/-! ## The indices of the host buffer -/

/-- The indices agree with the number of pending messages, as far as indices can. -/
structure HostBuffer.Counted (h : HostBuffer) : Prop where
  head_lt : h.hbufHead < hostbufferSize
  tail_eq : h.hbufTail = (h.hbufHead + h.hostPending) % hostbufferSize

/-- The next place in the buffer, around its end. -/
theorem wrapNext_eq {i : Nat} (hi : i < hostbufferSize) :
    wrapNext i = (i + 1) % hostbufferSize := by
  unfold wrapNext hostbufferSize at *
  split <;> omega

namespace HostBuffer.Counted

/-- What the two indices say the buffer holds is what it holds, but for a full one. -/
theorem size_eq (h : c.Counted) : hostMsgBufferSize c = c.hostPending % hostbufferSize := by
  obtain ⟨hhead, htail⟩ := h
  unfold hostMsgBufferSize
  simp only [hostbufferSize] at *
  split <;> omega

theorem pending_pos (h : c.Counted) (hsize : 0 < hostMsgBufferSize c) : 0 < c.hostPending := by
  rw [h.size_eq] at hsize
  simp only [hostbufferSize] at hsize
  omega

/-- A push takes one more place. -/
theorem push (h : c.Counted) (msg : HostMsg) : (hostMsgBufferPush c msg).Counted := by
  have htail : c.hbufTail < hostbufferSize := h.tail_eq ▸ Nat.mod_lt _ (by decide)
  refine ⟨h.head_lt, ?_⟩
  show wrapNext c.hbufTail = (c.hbufHead + (c.hostPending + 1)) % hostbufferSize
  rw [wrapNext_eq htail, h.tail_eq, Nat.mod_add_mod, Nat.add_assoc]

/-- A pop where there is something to pop. -/
theorem pop (h : c.Counted) (hpos : 0 < c.hostPending) :
    HostBuffer.Counted ⟨c.hostBuffer, wrapNext c.hbufHead, c.hbufTail, c.hostPending - 1⟩ := by
  have hnext := wrapNext_eq h.head_lt
  refine ⟨hnext ▸ Nat.mod_lt _ (by decide), ?_⟩
  show c.hbufTail = (wrapNext c.hbufHead + (c.hostPending - 1)) % hostbufferSize
  rw [hnext, Nat.mod_add_mod, h.tail_eq]
  congr 1
  omega

end HostBuffer.Counted

/-! ## Handler services -/

/-- `c'` differs from `c` in the host buffer, whose indices are still right, and by output. -/
def HostStep (c c' : PThreadContext A n) : Prop :=
  ∃ (h : HostBuffer) (es : List (Event A n)), (∀ e ∈ es, e.isOutput = true) ∧
    (c.Counted → h.Counted) ∧ c' = { c with toHostBuffer := h, trace := c.trace ++ es }

namespace HostStep

theorem refl (c : PThreadContext A n) : HostStep c c :=
  ⟨c.toHostBuffer, [], by simp, id, by simp⟩

theorem trans (h₁ : HostStep c c') (h₂ : HostStep c' c'') : HostStep c c'' := by
  obtain ⟨b₁, es₁, he₁, hb₁, rfl⟩ := h₁
  obtain ⟨b₂, es₂, he₂, hb₂, rfl⟩ := h₂
  refine ⟨b₂, es₁ ++ es₂, fun e he => ?_, fun h => hb₂ (hb₁ h), by simp⟩
  rcases List.mem_append.1 he with he | he
  · exact he₁ e he
  · exact he₂ e he

theorem sig_eq (h : HostStep c c') : c'.sig = c.sig := by
  obtain ⟨b, es, he, -, rfl⟩ := h
  have : es.filter (fun e => !e.isOutput) = [] := by
    simpa [List.filter_eq_nil_iff] using he
  simp [PThreadContext.sig, this]

theorem counted (h : HostStep c c') : c.Counted → c'.Counted := by
  obtain ⟨b, es, -, hb, rfl⟩ := h
  exact hb

theorem emit {e : Event A n} (he : e.isOutput = true) : HostStep c (c.emit e) :=
  ⟨c.toHostBuffer, [e], by simpa using he, id, rfl⟩

theorem push (msg : HostMsg) : HostStep c (hostMsgBufferPush c msg) :=
  ⟨_, [], by simp, fun h => h.push msg, by simp only [List.append_nil]; rfl⟩

/-- One message is sent to the host. -/
theorem slowPop (hpos : c.Counted → 0 < c.hostPending) : HostStep c (hostMessageSlowPopSend c) :=
  ⟨_, [.uart (c.hostBuffer c.hbufHead)], by simp [Event.isOutput], fun h => h.pop (hpos h), rfl⟩

/-- The buffer is never found full: that would be found empty. -/
theorem makeSpace : HostStep c (makeSpace c) := by
  unfold Softswitch.makeSpace
  split
  · rename_i h
    refine slowPop fun hc => ?_
    have hsize := hc.size_eq
    have : hostMsgBufferSize c < hostbufferSize := hsize ▸ Nat.mod_lt _ (by decide)
    unfold hostMsgBufferSpace at h
    omega
  · exact refl c

theorem storePayload {msg : HostMsg} {i : Nat} {v : BitVec 32} :
    HostStep c (storePayload c msg i v).1 := by
  unfold Softswitch.storePayload
  split
  · exact refl c
  · exact emit rfl

theorem logPeelParams {msg : HostMsg} {cnt : Nat} {params : List (BitVec 32)} :
    HostStep c (logPeelParams c msg cnt params).1 := by
  induction params generalizing c msg cnt with
  | nil => exact makeSpace.trans (emit rfl)
  | cons p params ih => exact storePayload.trans ih

/-- Writing the payload of a message changes nothing else. -/
theorem storeWords {msg : HostMsg} {i : Nat} {words : List (BitVec 32)} :
    HostStep c (storeWords c msg i words).1 := by
  induction words generalizing c msg i with
  | nil => exact refl c
  | cons w words ih => exact storePayload.trans ih

end HostStep

/-- What can be said of a service: it makes a `HostStep`, also where it stops, and the
assertions it makes are not about the RTS list. -/
def ServiceSat (c : PThreadContext A n) (m : Outcome A n (PThreadContext A n)) : Prop :=
  Sat m (HostStep c) (fun s => HostStep c s.ctxt ∧ s.fault.isRts = false)

/-- A service may check a condition of its own before it goes on. -/
theorem check_service {a : Assertion} {ok : Bool} {f : Unit → Outcome A n (PThreadContext A n)}
    (ha : a.isRts = false) (hstep : HostStep c c') (hf : ServiceSat c (f ())) :
    ServiceSat c (th.check c' a ok >>= f) := by
  refine Sat.bind (R := fun _ => True) (check_sat.mono (fun _ _ => trivial) ?_) fun _ _ _ => hf
  rintro s ⟨rfl, -⟩
  exact ⟨hstep, ha⟩

/-- Draining the buffer is a service. -/
theorem drainHostBuffer_service {fuel : Nat} : ServiceSat c (drainHostBuffer fuel c) := by
  induction fuel generalizing c with
  | zero =>
    unfold drainHostBuffer
    split
    · exact ⟨HostStep.refl c, rfl⟩
    · exact HostStep.refl c
  | succ fuel ih =>
    unfold drainHostBuffer
    split
    · rename_i hsize
      have hpop : HostStep c (hostMessageSlowPopSend c) :=
        HostStep.slowPop fun hc => hc.pending_pos hsize
      exact Sat.mono ih (fun _ h => hpop.trans h) fun _ h => ⟨hpop.trans h.1, h.2⟩
    · exact HostStep.refl c

theorem logPinName_sat {dev : DeviceFixed A} :
    Sat (logPinName th c dev) (fun _ => True) (fun s => s = ⟨.outOfBounds, c⟩) := by
  unfold logPinName
  split
  · cases dev.vtable.inputPins[c.currentPin]? <;> simp [PThreadContext.deref, PThreadContext.fail]
  · split
    · cases dev.vtable.outputPins[c.currentPin]? <;>
        simp [PThreadContext.deref, PThreadContext.fail]
    · trivial

/-- A log is one. -/
theorem softswitchHandlerLogImpl_service {level : Int} {pc msg : BitVec 32}
    {params : List (BitVec 32)} :
    ServiceSat c (softswitchHandlerLogImpl th c level pc msg params) := by
  refine check_service rfl (HostStep.refl c) (check_service rfl (HostStep.refl c) ?_)
  split
  · exact HostStep.refl c
  · split
    · refine Sat.bind (logPinName_sat.mono (fun _ h => h) ?_) fun pin _ _ => ?_
      · rintro s rfl
        exact ⟨HostStep.refl c, rfl⟩
      · exact check_service rfl HostStep.logPeelParams HostStep.logPeelParams
    · exact ⟨HostStep.refl c, rfl⟩

theorem softswitchHandlerExit_service {code : BitVec 32} :
    ServiceSat c (softswitchHandlerExit th c code) :=
  Sat.bind drainHostBuffer_service fun _ _ h => h.trans (HostStep.emit rfl)

theorem runCall_service {call : HandlerCall} : ServiceSat c (runCall th c call) := by
  cases call with
  | handlerLog level pc msg params => exact softswitchHandlerLogImpl_service
  | hostMsgBufferPush msg => exact HostStep.push msg
  | handlerExit code => exact softswitchHandlerExit_service
  | assert ok => exact check_service rfl (HostStep.refl c) (HostStep.refl c)

/-- The calls of a handler change nothing but what is for the host. -/
theorem runCalls_service {calls : List HandlerCall} : ServiceSat c (runCalls th c calls) := by
  refine Sat.foldlM (fun s call _ hs => ?_) (HostStep.refl c)
  exact Sat.mono runCall_service (fun _ h => hs.trans h) fun _ h => ⟨hs.trans h.1, h.2⟩

end Softswitch
