import Softswitch.Verify.MainLoop

/-!
# The fan-out of a message

A message that `softswitch_onSend` prepares is sent over many iterations of the main loop.
`FanOut l rest` follows the trace `l` and says which mailbox sends are still owed: a prepared
message adds its sends, a send takes the first one off, and `softswitch_onSend` is called
only where nothing is owed.  In the main loop what is owed is a function of the send state
(`Main.owed`).
-/

namespace Softswitch

open Outcome

variable {A : AppTypes} {n : Nat} {th : PThread A n} {c c' : PThreadContext A n}
  {s s' : Main A n} {i : LoopInput A} {l rest es : List (Event A n)} {e : Event A n}
  {d : Fin n} {pinIndex : Nat} {doSend : Bool} {payload : A.Payload}

/-! ## What a prepared message owes -/

/-- A send from the send buffer. -/
def Event.isMboxSend : Event A n → Bool
  | .mboxSend _ _ _ => true
  | _ => false

/-- A send, or a step of `softswitch_onSend`. -/
def Event.isSending : Event A n → Bool
  | .onSend | .sendReturn _ _ _ _ | .mboxSend _ _ _ => true
  | _ => false

/-- The message `m` goes to each of the targets in turn. -/
def fanOut (targets : List Address) (length : Nat) (m : Message A) : List (Event A n) :=
  targets.map fun addr => .mboxSend addr.thread length { m with dest := addr }

/-- The sends that pin `pinIndex` of `d` owes after its send handler returned `doSend` and
wrote `payload`. -/
inductive Expects (th : PThread A n) (d : Fin n) (pinIndex : Nat) :
    Bool → A.Payload → List (Event A n) → Prop
  | nothing {payload : A.Payload} : Expects th d pinIndex false payload []
  | app {payload : A.Payload} {pin : OutputPinVTable A} {m : Message A}
      (hpin : (th.device d).vtable.outputPins[pinIndex]? = some pin) (happ : pin.isApp = true)
      (hsource : m.source = sendSource th d pinIndex pin) (htype : m.type = pin.messageTypeNumid)
      (hpayload : m.payload = payload) :
      Expects th d pinIndex true payload [.mboxSend th.hostId 64 m]
  | targets {payload : A.Payload} {pin : OutputPinVTable A} {m : Message A}
      {targets : OutputPinTargets}
      (hpin : (th.device d).vtable.outputPins[pinIndex]? = some pin) (happ : pin.isApp = false)
      (htargets : (th.device d).targets[pinIndex]? = some targets)
      (hsource : m.source = sendSource th d pinIndex pin) (hpayload : m.payload = payload) :
      Expects th d pinIndex true payload (fanOut targets.targets pin.messageSize m)

theorem Expects.isMboxSend (h : Expects th d pinIndex doSend payload es) :
    ∀ e ∈ es, e.isMboxSend = true := by
  intro e he
  cases h with
  | nothing => simp at he
  | app _ _ _ _ _ =>
    obtain rfl := List.mem_singleton.1 he
    rfl
  | targets _ _ _ _ _ =>
    obtain ⟨addr, -, rfl⟩ := List.mem_map.1 he
    rfl

theorem Expects.nothing_eq (h : Expects th d pinIndex false payload es) : es = [] := by
  cases h
  rfl

/-! ## Traces -/

/-- The events of a call of `softswitch_onSend`. -/
def onSendEvents (th : PThread A n) (d : Fin n) (pinIndex : Nat) (doSend : Bool)
    (payload : A.Payload) : List (Event A n) :=
  [.onSend, .enter .send d ⟨(th.device d).index, 2, pinIndex⟩,
    .sendReturn d pinIndex doSend payload]

/-- After the trace `l` the sends `rest` are owed. -/
inductive FanOut (th : PThread A n) : List (Event A n) → List (Event A n) → Prop
  | nil : FanOut th [] []
  | other {l rest : List (Event A n)} {e : Event A n} (h : FanOut th l rest)
      (he : e.isSending = false) : FanOut th (l ++ [e]) rest
  | send {l rest : List (Event A n)} {e : Event A n} (h : FanOut th l (e :: rest)) :
      FanOut th (l ++ [e]) rest
  /-- There is no device to send from. -/
  | onSend {l : List (Event A n)} (h : FanOut th l []) : FanOut th (l ++ [.onSend]) []
  | prepare {l es : List (Event A n)} {d : Fin n} {pinIndex : Nat} {doSend : Bool}
      {payload : A.Payload} (h : FanOut th l [])
      (hes : Expects th d pinIndex doSend payload es) :
      FanOut th (l ++ onSendEvents th d pinIndex doSend payload) es

namespace FanOut

theorem others (h : FanOut th l rest) (hes : ∀ e ∈ es, e.isSending = false) :
    FanOut th (l ++ es) rest := by
  induction es generalizing l with
  | nil => simpa using h
  | cons e es ih =>
    have he : e.isSending = false := hes e List.mem_cons_self
    have hrest := ih (h.other he) fun e' he' => hes e' (List.mem_cons_of_mem e he')
    simpa using hrest

/-- What is owed are sends. -/
theorem isMboxSend (h : FanOut th l rest) : ∀ e ∈ rest, e.isMboxSend = true := by
  induction h with
  | nil => simp
  | other _ _ ih => exact ih
  | send _ ih => exact fun e he => ih e (List.mem_cons_of_mem _ he)
  | onSend _ ih => exact ih
  | prepare _ hes _ => exact hes.isMboxSend

end FanOut

/-- The last element of a list that is split somewhere. -/
theorem snoc_eq_split {α : Type*} {l pre mid : List α} {a b : α}
    (h : l ++ [a] = pre ++ b :: mid) :
    (mid = [] ∧ a = b ∧ l = pre) ∨ ∃ mid', mid = mid' ++ [a] ∧ l = pre ++ b :: mid' := by
  rcases List.eq_nil_or_concat mid with rfl | ⟨mid', x, rfl⟩
  · obtain ⟨hl, hab⟩ := List.append_inj' h rfl
    exact .inl ⟨rfl, (List.cons.inj hab).1, hl⟩
  · rw [List.concat_eq_append, ← List.cons_append, ← List.append_assoc] at h
    obtain ⟨hl, hax⟩ := List.append_inj' h rfl
    obtain rfl := (List.cons.inj hax).1
    exact .inr ⟨mid', List.concat_eq_append, hl⟩

namespace FanOut

variable {pre mid post : List (Event A n)}

/-- From the return of a send handler on, what is sent and what is owed together are what the
message is to owe, as long as `softswitch_onSend` is not called again. -/
theorem expects (h : FanOut th l rest)
    (hl : l = pre ++ .sendReturn d pinIndex doSend payload :: mid) (hmid : .onSend ∉ mid) :
    Expects th d pinIndex doSend payload (mid.filter Event.isMboxSend ++ rest) := by
  induction h generalizing pre mid with
  | nil => simp at hl
  | @other l rest e h he ih =>
    rcases snoc_eq_split hl with ⟨-, rfl, -⟩ | ⟨mid', rfl, hl'⟩
    · cases he
    · have hfilter : e.isMboxSend = false := by
        cases e with
        | mboxSend _ _ _ => cases he
        | _ => rfl
      rw [List.filter_append, List.filter_singleton, hfilter]
      simpa using ih hl' fun hm => hmid (List.mem_append_left _ hm)
  | @send l rest e h ih =>
    have he : e.isMboxSend = true := h.isMboxSend e List.mem_cons_self
    rcases snoc_eq_split hl with ⟨-, rfl, -⟩ | ⟨mid', rfl, hl'⟩
    · cases he
    · rw [List.filter_append, List.filter_singleton, he]
      simpa using ih hl' fun hm => hmid (List.mem_append_left _ hm)
  | onSend h ih =>
    rcases snoc_eq_split hl with ⟨-, h, -⟩ | ⟨mid', rfl, -⟩
    · cases h
    · simp at hmid
  | @prepare l es d' pinIndex' doSend' payload' h hes ih =>
    rw [onSendEvents, List.append_cons, List.append_cons] at hl
    rcases snoc_eq_split hl with ⟨rfl, heq, -⟩ | ⟨mid', rfl, hl'⟩
    · cases heq
      simpa using hes
    · rcases snoc_eq_split hl' with ⟨-, h, -⟩ | ⟨mid'', rfl, hl''⟩
      · cases h
      · rcases snoc_eq_split hl'' with ⟨-, h, -⟩ | ⟨mid₃, rfl, -⟩
        · cases h
        · simp at hmid

/-- Nothing is owed where `softswitch_onSend` is called. -/
theorem before_onSend (h : FanOut th l rest) (hl : l = pre ++ .onSend :: post) :
    FanOut th pre [] := by
  induction h generalizing post with
  | nil => simp at hl
  | other h he ih =>
    rcases snoc_eq_split hl with ⟨-, rfl, -⟩ | ⟨post', -, hl'⟩
    · cases he
    · exact ih hl'
  | send h ih =>
    rcases snoc_eq_split hl with ⟨-, rfl, -⟩ | ⟨post', -, hl'⟩
    · cases h.isMboxSend _ List.mem_cons_self
    · exact ih hl'
  | onSend h ih =>
    rcases snoc_eq_split hl with ⟨-, -, rfl⟩ | ⟨post', -, hl'⟩
    · exact h
    · exact ih hl'
  | prepare h hes ih =>
    rw [onSendEvents, List.append_cons, List.append_cons] at hl
    rcases snoc_eq_split hl with ⟨-, h, -⟩ | ⟨post₁, -, hl₁⟩
    · cases h
    · rcases snoc_eq_split hl₁ with ⟨-, h, -⟩ | ⟨post₂, -, hl₂⟩
      · cases h
      · rcases snoc_eq_split hl₂ with ⟨-, -, rfl⟩ | ⟨post₃, -, hl₃⟩
        · exact h
        · exact ih hl₃

/-- What is owed was asked for by the last call of `softswitch_onSend`. -/
theorem owed_prepared (h : FanOut th l rest) (howed : rest ≠ []) :
    ∃ pre d pinIndex payload mid, l = pre ++ .sendReturn d pinIndex true payload :: mid ∧
      .onSend ∉ mid := by
  induction h with
  | nil => exact absurd rfl howed
  | @other l rest e h he ih =>
    obtain ⟨pre, d, pinIndex, payload, mid, rfl, hmid⟩ := ih howed
    refine ⟨pre, d, pinIndex, payload, mid ++ [e], by simp, ?_⟩
    have hne : e ≠ .onSend := by
      rintro rfl
      cases he
    simp [hmid, hne.symm]
  | @send l rest e h ih =>
    obtain ⟨pre, d, pinIndex, payload, mid, rfl, hmid⟩ := ih (List.cons_ne_nil _ _)
    refine ⟨pre, d, pinIndex, payload, mid ++ [e], by simp, ?_⟩
    have hne : e ≠ .onSend := by
      rintro rfl
      cases h.isMboxSend _ List.mem_cons_self
    simp [hmid, hne.symm]
  | onSend h ih => exact absurd rfl howed
  | @prepare l es d pinIndex doSend payload h hes ih =>
    obtain rfl : doSend = true := by
      cases doSend with
      | true => rfl
      | false => exact absurd hes.nothing_eq howed
    exact ⟨l ++ [.onSend, .enter .send d ⟨(th.device d).index, 2, pinIndex⟩], d, pinIndex,
      payload, [], by simp [onSendEvents], List.not_mem_nil⟩

/-- What is sent was owed. -/
theorem before_send (h : FanOut th l rest) (hl : l = pre ++ e :: post)
    (he : e.isMboxSend = true) : ∃ rest', FanOut th pre (e :: rest') := by
  have hne : ∀ e', e'.isMboxSend = false → e' ≠ e := by
    rintro e' he' rfl
    simp [he] at he'
  induction h generalizing post with
  | nil => simp at hl
  | @other l rest e' h he' ih =>
    rcases snoc_eq_split hl with ⟨-, rfl, -⟩ | ⟨post', -, hl'⟩
    · cases e' <;> simp_all [Event.isSending, Event.isMboxSend]
    · exact ih hl'
  | @send l rest e' h ih =>
    rcases snoc_eq_split hl with ⟨-, rfl, rfl⟩ | ⟨post', -, hl'⟩
    · exact ⟨rest, h⟩
    · exact ih hl'
  | onSend h ih =>
    rcases snoc_eq_split hl with ⟨-, h, -⟩ | ⟨post', -, hl'⟩
    · exact absurd h (hne _ rfl)
    · exact ih hl'
  | prepare h hes ih =>
    rw [onSendEvents, List.append_cons, List.append_cons] at hl
    rcases snoc_eq_split hl with ⟨-, h, -⟩ | ⟨post₁, -, hl₁⟩
    · exact absurd h (hne _ rfl)
    · rcases snoc_eq_split hl₁ with ⟨-, h, -⟩ | ⟨post₂, -, hl₂⟩
      · exact absurd h (hne _ rfl)
      · rcases snoc_eq_split hl₂ with ⟨-, h, -⟩ | ⟨post₃, -, hl₃⟩
        · exact absurd h (hne _ rfl)
        · exact ih hl₃

end FanOut

/-! ## The main loop -/

/-- What the send state of the main loop owes. -/
def Main.owed (s : Main A n) (th : PThread A n) : List (Event A n) :=
  if s.isApp then List.replicate s.currSendTodo (.mboxSend th.hostId 64 s.sendBuffer)
  else match s.currSendAddressList with
    | none => []
    | some p => fanOut (p.base.drop p.offset) s.currSize s.sendBuffer

/-- The send state is the same. -/
structure SameSend (s s' : Main A n) : Prop where
  list : s'.currSendAddressList = s.currSendAddressList
  todo : s'.currSendTodo = s.currSendTodo
  size : s'.currSize = s.currSize
  isApp : s'.isApp = s.isApp
  buffer : s'.sendBuffer = s.sendBuffer

theorem SameSend.owed_eq (h : SameSend s s') : s'.owed th = s.owed th := by
  unfold Main.owed
  rw [h.list, h.todo, h.size, h.isApp, h.buffer]

theorem SameSend.of_update {pc : Pc} : SameSend s { s with ctxt := c, pc := pc } :=
  ⟨rfl, rfl, rfl, rfl, rfl⟩

theorem PerfmonIdled.sameSend {pc : Pc} (h : PerfmonIdled th { s with ctxt := c } s') :
    SameSend s { s' with pc := pc } := by
  have hlist := congrArg Main.currSendAddressList h.eq
  have htodo := congrArg Main.currSendTodo h.eq
  have hsize := congrArg Main.currSize h.eq
  have happ := congrArg Main.isApp h.eq
  have hbuffer := congrArg Main.sendBuffer h.eq
  exact ⟨hlist, htodo, hsize, happ, hbuffer⟩

/-- The trace and the send state agree. -/
structure FanOutInv (th : PThread A n) (s : Main A n) : Prop where
  law : FanOut th s.ctxt.sig (s.owed th)
  length : (s.owed th).length = s.currSendTodo
  app : s.isApp = true → s.currSendTodo ≤ 1

namespace FanOutInv

theorem nothing_owed (h : FanOutInv th s) (htodo : s.currSendTodo = 0) : s.owed th = [] :=
  List.eq_nil_of_length_eq_zero (h.length.trans htodo)

/-- Where the send state is as it was, and nothing that has to do with sending was recorded. -/
theorem others (h : FanOutInv th s) (hsame : SameSend s s')
    (hsig : s'.ctxt.sig = s.ctxt.sig ++ es) (hes : ∀ e ∈ es, e.isSending = false) :
    FanOutInv th s' := by
  refine ⟨?_, ?_, ?_⟩
  · rw [hsig, hsame.owed_eq]
    exact h.law.others hes
  · rw [hsame.owed_eq, hsame.todo]
    exact h.length
  · rw [hsame.isApp, hsame.todo]
    exact h.app

end FanOutInv

/-- The entry of a handler. -/
def Event.isEnter : Event A n → Bool
  | .enter _ _ _ => true
  | _ => false

theorem Event.isSending_of_isEnter (h : e.isEnter = true) : e.isSending = false := by
  cases e with
  | enter _ _ _ => rfl
  | _ => cases h

/-- All that was recorded are events that satisfy `p`. -/
def Records (p : Event A n → Bool) (c c' : PThreadContext A n) : Prop :=
  ∃ es, c'.sig = c.sig ++ es ∧ ∀ e ∈ es, p e = true

namespace Records

variable {p p' : Event A n → Bool}

theorem of_eq (h : c'.sig = c.sig) : Records p c c' := ⟨[], by simpa using h, by simp⟩

theorem trans {c'' : PThreadContext A n} (h₁ : Records p c c') (h₂ : Records p c' c'') :
    Records p c c'' := by
  obtain ⟨es₁, hsig₁, hes₁⟩ := h₁
  obtain ⟨es₂, hsig₂, hes₂⟩ := h₂
  refine ⟨es₁ ++ es₂, by rw [hsig₂, hsig₁, List.append_assoc], ?_⟩
  intro e he
  rcases List.mem_append.1 he with he | he
  · exact hes₁ e he
  · exact hes₂ e he

theorem mono (h : Records p c c') (hp : ∀ e, p e = true → p' e = true) : Records p' c c' := by
  obtain ⟨es, hsig, hes⟩ := h
  exact ⟨es, hsig, fun e he => hp e (hes e he)⟩

end Records

theorem Idled.enters {out : Bool × PThreadContext A n} (h : Idled th c out) :
    Records Event.isEnter c out.2 := by
  rcases h with ⟨-, rfl⟩ | ⟨-, -, -, rfl⟩ | ⟨-, -, k, d, -, -, h⟩
  · exact .of_eq rfl
  · exact .of_eq rfl
  · exact ⟨_, h.sig, by simp [Event.isEnter]⟩

theorem softswitchOnHardwareIdle_enters (hok : softswitchOnHardwareIdle th c = .ok c') :
    Records Event.isEnter c c' := by
  apply softswitchOnHardwareIdle_keeps (I := Records Event.isEnter c) (.of_eq rfl) _ _ hok
  · rintro d s s' hs (rfl | ⟨_, -, h⟩)
    · exact hs
    · exact hs.trans ⟨_, h.sig, by simp [hardwareIdleEvents, Event.isEnter]⟩
  · exact fun s hs => hs

theorem softswitchInit_enters (hok : softswitchInit th c = .ok c') :
    Records Event.isEnter c c' := by
  apply softswitchInit_keeps (I := Records Event.isEnter c) (.of_eq rfl) _ hok
  intro d s s' hs h
  exact hs.trans ⟨_, h.sig, by simp [initEvents, Event.isEnter]⟩

theorem FanOutInv.enters (h : FanOutInv th s) (hsame : SameSend s s')
    (hc : Records Event.isEnter s.ctxt s'.ctxt) : FanOutInv th s' := by
  obtain ⟨es, hsig, hes⟩ := hc
  exact h.others hsame hsig fun e he => Event.isSending_of_isEnter (hes e he)

/-- What `softswitch_onSend` prepares is what is owed from then on. -/
theorem Prepared.expects {pin : OutputPinVTable A} {r : SendResult A.DevState A.Payload}
    {s' : SendState A} (h : Prepared th d pinIndex pin r (noSend s.sendBuffer s.isApp) s')
    (hpin : (th.device d).vtable.outputPins[pinIndex]? = some pin)
    (out : Nat × PThreadContext A n × SendState A) (hsize : out.1 = pin.messageSize)
    (hout : out.2.2 = s') :
    Expects th d pinIndex r.doSend r.payload ((s.prepared out).owed th) ∧
      ((s.prepared out).owed th).length = s'.numTargets ∧
      (s'.isApp = true → s'.numTargets ≤ 1) := by
  obtain ⟨size, c, st⟩ := out
  obtain rfl : size = pin.messageSize := hsize
  obtain rfl : st = s' := hout
  unfold Prepared at h
  cases hsend : r.doSend with
  | false =>
    rw [hsend, if_neg (by simp)] at h
    subst h
    have howed : (s.prepared (pin.messageSize, c,
        { noSend s.sendBuffer s.isApp with
          message := { s.sendBuffer with payload := r.payload } })).owed th = [] := by
      unfold Main.owed
      split <;> rfl
    refine ⟨howed ▸ .nothing, ?_, fun _ => Nat.zero_le 1⟩
    exact congrArg List.length howed
  | true =>
    rw [hsend, if_pos rfl] at h
    cases happ : pin.isApp with
    | true =>
      rw [happ, if_pos rfl] at h
      subst h
      exact ⟨.app hpin happ rfl rfl rfl, rfl, fun _ => le_rfl⟩
    | false =>
      rw [happ, if_neg (by simp)] at h
      obtain ⟨targets, htargets, rfl⟩ := h
      refine ⟨.targets hpin happ htargets rfl rfl, ?_, fun h => by cases h⟩
      exact List.length_map _

/-- A call of `softswitch_onSend`. -/
theorem FanOutInv.sent {out : Nat × PThreadContext A n × SendState A} (h : FanOutInv th s)
    (htodo : s.currSendTodo = 0) (hsent : Sent th s.ctxt s.sendBuffer s.isApp out) :
    FanOutInv th (s.prepared out) := by
  have hlaw : FanOut th s.ctxt.sig [] := h.nothing_owed htodo ▸ h.law
  rcases hsent with ⟨d, pinIndex, pin, r, hsent⟩ | ⟨-, -, hnone, -, -, -, hsig⟩
  · obtain ⟨hexpects, hlength, happ⟩ :=
      hsent.prepared.expects hsent.pin_eq out hsent.size_eq rfl
    refine ⟨?_, hlength, happ⟩
    show FanOut th out.2.1.sig _
    rw [hsent.sig]
    exact hlaw.prepare hexpects
  · obtain ⟨size, c, st⟩ := out
    obtain rfl : st = noSend s.sendBuffer s.isApp := hnone
    have howed : (s.prepared (size, c, noSend s.sendBuffer s.isApp)).owed th = [] := by
      unfold Main.owed
      split <;> rfl
    refine ⟨?_, congrArg List.length howed, fun _ => Nat.zero_le 1⟩
    rw [howed]
    show FanOut th c.sig _
    rw [hsig]
    exact hlaw.onSend

theorem FanOutInv.prepares (h : FanOutInv th s) (hprep : Prepares th s s') :
    FanOutInv th s' := by
  cases hprep with
  | busy _ => exact h
  | fresh htodo hsent => exact h.sent htodo hsent

theorem mboxSent_sig {dest : BitVec 32} {length : Nat} {m : Message A} :
    (mboxSent c dest length m).sig = c.sig ++ [.mboxSend dest length m] := sig_emit rfl

/-- A mailbox send is the first one of those owed. -/
theorem FanOutInv.delivers_owed (h : FanOutInv th s)
    (hbuild : th.build.enableIntraThreadSend = false) (hsome : 0 < s.currSendTodo)
    (hdeliver : Delivers th s s') : ∃ dest length m,
      s'.ctxt = mboxSent s.ctxt dest length m ∧
      s.owed th = .mboxSend dest length m :: s'.owed th ∧
      s'.currSendTodo + 1 = s.currSendTodo ∧ (s'.isApp = true → s'.currSendTodo ≤ 1) := by
  cases hdeliver with
  | app happ =>
    have htodo : s.currSendTodo = 1 := le_antisymm (h.app happ) hsome
    refine ⟨th.hostId, 64, s.sendBuffer, rfl, ?_, htodo.symm, fun _ => Nat.zero_le 1⟩
    unfold Main.owed
    rw [if_pos happ, if_pos happ, htodo]
    rfl
  | @target p addr happ hlist hget =>
    obtain ⟨hlt, hget⟩ := List.getElem?_eq_some_iff.1 hget
    have hdrop : p.base.drop p.offset = addr :: p.base.drop (p.offset + 1) := by
      rw [← hget, List.drop_eq_getElem_cons hlt]
    have hnot : ¬s.isApp = true := by simp [happ]
    refine ⟨addr.thread, s.currSize, { s.sendBuffer with dest := addr }, rfl, ?_,
      Nat.sub_add_cancel hsome, fun h => absurd h hnot⟩
    unfold Main.owed
    rw [if_neg hnot, if_neg hnot, hlist]
    dsimp only
    rw [hdrop]
    rfl
  | direct h _ _ => simp [hbuild] at h

theorem FanOutInv.delivers (h : FanOutInv th s) (hbuild : th.build.enableIntraThreadSend = false)
    (hsome : 0 < s.currSendTodo) (hdeliver : Delivers th s s') : FanOutInv th s' := by
  obtain ⟨dest, length, m, hctxt, howed, htodo, happ⟩ := h.delivers_owed hbuild hsome hdeliver
  refine ⟨?_, ?_, happ⟩
  · rw [hctxt, mboxSent_sig]
    exact (howed ▸ h.law).send
  · have hlength := h.length
    rw [howed, List.length_cons] at hlength
    omega

theorem FanOutInv.sends (h : FanOutInv th s) (hbuild : th.build.enableIntraThreadSend = false)
    (hsend : Sends th s s') : FanOutInv th s' := by
  cases hsend with
  | host _ =>
    have hsig : (hostMessageBufferPopSend th s.ctxt).sig = s.ctxt.sig ++ _ := sig_emit rfl
    exact h.others ⟨rfl, rfl, rfl, rfl, rfl⟩ hsig (by simp [Event.isSending])
  | nothing hprep _ => exact h.prepares hprep
  | deliver hprep hsome hdeliver => exact (h.prepares hprep).delivers hbuild hsome hdeliver

/-- Receiving records nothing that has to do with sending. -/
theorem Received.notSending {m : Message A} (h : Received th c m c') :
    ∃ es, c'.sig = c.sig ++ es ∧ ∀ e ∈ es, e.isSending = false := by
  rcases h with ⟨d, target, -, -, h⟩ | ⟨d, -, -, -, -, -, -, h⟩
  · exact ⟨receiveEvents c d m target, h.sig, by simp [receiveEvents, Event.isSending]⟩
  · exact ⟨[], by simpa using h, by simp⟩

/-- The receive of a message, and nothing else. -/
theorem Received.others {m : Message A} (h : Received th (c.emit (.mboxRecv m)) m c') :
    ∃ es, c'.sig = c.sig ++ es ∧ ∀ e ∈ es, e.isSending = false := by
  have hemit : (c.emit (.mboxRecv m)).sig = c.sig ++ [.mboxRecv m] := sig_emit rfl
  obtain ⟨es, hsig, hes⟩ := h.notSending
  refine ⟨.mboxRecv m :: es, by rw [hsig, hemit, List.append_assoc, List.singleton_append], ?_⟩
  intro e he
  rcases List.mem_cons.1 he with rfl | he
  · rfl
  · exact hes e he

/-- One step keeps trace and send state in agreement. -/
theorem Stepped.fanOutInv (h : Stepped th s i s')
    (hbuild : th.build.enableIntraThreadSend = false) (hs : FanOutInv th s) :
    FanOutInv th s' := by
  cases h with
  | parked _ => exact hs
  | idle _ _ hidle => exact hs.enters .of_update hidle.enters
  | searchOver _ _ _ _ hperf =>
    exact hs.enters hperf.sameSend (.of_eq hperf.undisturbed.sig)
  | noIdle _ _ => exact hs.enters .of_update (.of_eq rfl)
  | hardwareIdle _ _ hwait hidle =>
    exact hs.enters .of_update
      ((Records.of_eq hwait.sig).trans (softswitchOnHardwareIdle_enters hidle))
  | receive _ _ hwait hrecv =>
    obtain ⟨es, hsig, hes⟩ := hrecv.others
    rw [hwait.sig] at hsig
    exact hs.others .of_update hsig hes
  | @send w c s₁ hpc hwait hsend =>
    have hs₀ : FanOutInv th { s with ctxt := c } :=
      hs.enters ⟨rfl, rfl, rfl, rfl, rfl⟩ (.of_eq hwait.sig)
    have hs₁ : FanOutInv th s₁ := hs₀.sends hbuild hsend
    exact ⟨hs₁.law, hs₁.length, hs₁.app⟩

theorem Started.fanOutInv {buf : Message A} (hstart : c.trace = []) (h : Started th c buf s) :
    FanOutInv th s := by
  have hsig : c.sig = [] := by simp [PThreadContext.sig, hstart]
  cases h with
  | parked _ =>
    refine ⟨?_, rfl, fun h => by cases h⟩
    rw [hsig]
    exact .nil
  | running _ hinit hmain =>
    obtain ⟨es, hsig', hes⟩ := softswitchInit_enters hinit
    refine ⟨?_, rfl, fun h => by cases h⟩
    have hall : _ = c.sig ++ es := hmain.sig.trans hsig'
    rw [hsig] at hall
    rw [hall]
    exact FanOut.nil.others fun e he => Event.isSending_of_isEnter (hes e he)

theorem mainRun_fanOutInv {buf : Message A} {inputs : List (LoopInput A)}
    (hbuild : th.build.enableIntraThreadSend = false) (hstart : c.trace = [])
    (hrun : mainRun th c buf inputs = .ok s) : FanOutInv th s :=
  (mainRun_invariant (fun _ h => h.fanOutInv hstart) (fun _ _ _ _ hs h => h.fanOutInv hbuild hs)
    hrun).2

/-- A send handler that returns owes certain mailbox sends (`Expects`).  Before the next call
of `softswitch_onSend` exactly these are made, in order; if there was no next call yet, those
that are missing are as many as `currSendTodo`.  Nothing else is sent from the send buffer. -/
theorem fanOut_exact {buf : Message A} {inputs : List (LoopInput A)}
    (hbuild : th.build.enableIntraThreadSend = false) (hstart : c.trace = [])
    (hrun : mainRun th c buf inputs = .ok s) :
    (∀ pre d pinIndex doSend payload mid post,
      s.ctxt.sig = pre ++ .sendReturn d pinIndex doSend payload :: (mid ++ .onSend :: post) →
      .onSend ∉ mid → Expects th d pinIndex doSend payload (mid.filter Event.isMboxSend)) ∧
    (∀ pre d pinIndex doSend payload mid,
      s.ctxt.sig = pre ++ .sendReturn d pinIndex doSend payload :: mid → .onSend ∉ mid →
      ∃ rest, rest.length = s.currSendTodo ∧
        Expects th d pinIndex doSend payload (mid.filter Event.isMboxSend ++ rest)) ∧
    (∀ pre e post, s.ctxt.sig = pre ++ e :: post → e.isMboxSend = true →
      ∃ pre' d pinIndex payload mid,
        pre = pre' ++ .sendReturn d pinIndex true payload :: mid ∧ .onSend ∉ mid) := by
  have hinv : FanOutInv th s := mainRun_fanOutInv hbuild hstart hrun
  refine ⟨?_, ?_, ?_⟩
  · intro pre d pinIndex doSend payload mid post hsig hmid
    have hsplit : s.ctxt.sig =
        (pre ++ .sendReturn d pinIndex doSend payload :: mid) ++ .onSend :: post := by
      rw [hsig, List.append_assoc]
      rfl
    have hbefore := hinv.law.before_onSend hsplit
    simpa using hbefore.expects rfl hmid
  · intro pre d pinIndex doSend payload mid hsig hmid
    exact ⟨s.owed th, hinv.length, hinv.law.expects hsig hmid⟩
  · intro pre e post hsig he
    obtain ⟨rest, hbefore⟩ := hinv.law.before_send hsig he
    exact hbefore.owed_prepared (List.cons_ne_nil _ _)

/-- The mailbox takes messages, and has none. -/
def freeMailbox : LoopInput flagsApp := ⟨false, true, false, flagsMessage 0#16 0#32⟩

/-- The message of device 1. -/
def flagsSend (device : BitVec 16) : Event flagsApp 2 :=
  .mboxSend 0#32 20 ⟨flagsAddress device, flagsAddress 1#16, 0#16, 1#32⟩

/-- Device 1 sends to both devices. -/
theorem fanOut_exact_two : ∃ s,
    mainRun (flagsThread (defaultBuild true)) (flagsContext 0#32 1#32) (flagsMessage 0#16 0#32)
      (List.replicate 4 freeMailbox) = .ok s ∧
    ∃ rest, rest.length = s.currSendTodo ∧ Expects (flagsThread (defaultBuild true)) 1 0 true 1#32
      ([flagsSend 0#16, flagsSend 1#16] ++ rest) := by
  have hbuild : (flagsThread (defaultBuild true)).build.enableIntraThreadSend = false := rfl
  have hstart : (flagsContext 0#32 1#32).trace = [] := rfl
  obtain ⟨s, hrun, hsig⟩ : ∃ s, mainRun (flagsThread (defaultBuild true))
      (flagsContext 0#32 1#32) (flagsMessage 0#16 0#32) (List.replicate 4 freeMailbox) = .ok s ∧
      s.ctxt.sig = [.enter .init 0 ⟨0, 4, 0⟩, .enter .init 1 ⟨1, 4, 0⟩, .onSend,
        .enter .send 1 ⟨1, 2, 0⟩] ++
        .sendReturn 1 0 true 1#32 :: [flagsSend 0#16, flagsSend 1#16] := ⟨_, rfl, rfl⟩
  refine ⟨s, hrun, ?_⟩
  exact (fanOut_exact hbuild hstart hrun).2.1 _ _ _ _ _ _ hsig (by simp [flagsSend])

end Softswitch
