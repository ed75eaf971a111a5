import Mathlib.Algebra.Order.Group.Multiset
import Softswitch.Verify.Mailbox

/-!
# The mailbox neither loses, duplicates nor corrupts messages

A message that was pushed is in a full slot until it is received, and the buffer of a slot
changes only where software writes to it or a message is pushed into it.  What is pulled is
what software gave to send, in order.
-/

namespace Softswitch

open Outcome Monitor Runs Function

variable {P : MboxParams} {ι : Type} [DecidableEq ι] {m m' : TinselMbox P}
  {i j : Fin P.msgsPerThread} {notify : Bool} {e : MboxEvent P} {es : List (MboxEvent P)}
  {data : List (BitVec 8)} {buffer : MboxBuffer P}

/-! ## What a run did -/

/-- The messages that were pushed. -/
def netPushed (es : List (MboxEvent P)) : List (List (BitVec 8)) :=
  es.filterMap fun
    | .push data => some data
    | _ => none

/-- The buffers that `mboxRecv` returned. -/
def softwareReceived (es : List (MboxEvent P)) : List (MboxBuffer P) :=
  es.filterMap fun
    | .recv _ buffer => some buffer
    | _ => none

/-- A message to send: its destination, its length and its bytes. -/
abbrev Outgoing := BitVec 32 × Nat × List (BitVec 8)

/-- What `netPullMessage` returned. -/
def netPulled (es : List (MboxEvent P)) : List Outgoing :=
  es.filterMap fun
    | .pull threadId byteLength data => some (threadId, byteLength, data)
    | _ => none

/-- The length that is set, and the messages given to `mboxSend` with the length that was set
then. -/
def givenStep (acc : Option Nat × List Outgoing) : MboxEvent P → Option Nat × List Outgoing
  | .setLen n => (some n, acc.2)
  | .send address _ buffer =>
    (acc.1, acc.2 ++ (acc.1.map fun n => (address, n, copyOut buffer n)).toList)
  | _ => acc

/-- What was given to `mboxSetLen` and `mboxSend`. -/
def softwareGave (es : List (MboxEvent P)) : Option Nat × List Outgoing :=
  es.foldl givenStep (none, [])

theorem softwareGave_snoc : softwareGave (es ++ [e]) = givenStep (softwareGave es) e :=
  List.foldl_concat ..

/-- What software last wrote to slot `i`, from `buffer` on. -/
def lastWritten (i : Fin P.msgsPerThread) (buffer : MboxBuffer P) (es : List (MboxEvent P)) :
    MboxBuffer P :=
  es.foldl (fun b e => match e with
    | .write j b' => if j = i then b' else b
    | _ => b) buffer

/-! ## Buffers -/

/-- The message is at the start of the buffer. -/
def Starts (data : List (BitVec 8)) (buffer : MboxBuffer P) : Prop := data <+: List.ofFn buffer

theorem starts_copyIn (h : data.length ≤ P.bytesPerMsg) : Starts data (copyIn buffer data) := by
  unfold Starts
  rw [List.prefix_iff_eq_take]
  apply List.ext_getElem
  · simpa using h
  · intro k hk _
    simp [copyIn, hk]

/-- The messages in full slots, where `held` says what is in a slot. -/
def inSlots (m : TinselMbox P) (held : Fin P.msgsPerThread → List (BitVec 8)) :
    Multiset (List (BitVec 8)) :=
  ∑ i, if (m.slots i).status = .hardwareFull then {held i} else 0

/-- A slot is written, and holds another message perhaps. -/
theorem inSlots_update {s : Slot P} (held held' : Fin P.msgsPerThread → List (BitVec 8))
    (hslots : m'.slots = update m.slots i s) (hheld : ∀ j, j ≠ i → held' j = held j) :
    inSlots m' held' + (if (m.slots i).status = .hardwareFull then {held i} else 0) =
      inSlots m held + if s.status = .hardwareFull then {held' i} else 0 := by
  have hchange := Tally.sum_change
    (fun j => if (m.slots j).status = .hardwareFull then ({held j} : Multiset _) else 0)
    (fun j => if (m'.slots j).status = .hardwareFull then ({held' j} : Multiset _) else 0)
    i fun j hj => by rw [hslots, update_of_ne hj, hheld j hj]
  have hself : m'.slots i = s := by rw [hslots, update_self]
  rw [hself] at hchange
  exact hchange

/-! ## Receiving -/

/-- What was pushed was received, or is in a full slot.  `recvd` are the messages received, in
order, and `held` those in the slots. -/
structure Holds (es : List (MboxEvent P)) (m : TinselMbox P) (recvd : List (List (BitVec 8)))
    (held : Fin P.msgsPerThread → List (BitVec 8)) : Prop where
  starts : List.Forall₂ Starts recvd (softwareReceived es)
  held_starts : ∀ i, (m.slots i).status = .hardwareFull → Starts (held i) (m.slots i).buffer
  pushed_eq : (netPushed es : Multiset (List (BitVec 8))) = recvd + inSlots m held

section Holds

variable {recvd : List (List (BitVec 8))} {held : Fin P.msgsPerThread → List (BitVec 8)}

/-- A slot that is not full is written, and is not full then. -/
theorem Holds.aside {s : Slot P} (h : Holds es m recvd held)
    (hslots : m'.slots = update m.slots i s) (hi : (m.slots i).status ≠ .hardwareFull)
    (hs : s.status ≠ .hardwareFull) (hreceived : softwareReceived (es ++ [e]) = softwareReceived es)
    (hpushed : netPushed (es ++ [e]) = netPushed es) : Holds (es ++ [e]) m' recvd held := by
  refine ⟨?_, fun j hj => ?_, ?_⟩
  · rw [hreceived]
    exact h.starts
  · have hji : j ≠ i := by
      rintro rfl
      rw [hslots, update_self] at hj
      exact hs hj
    rw [hslots, update_of_ne hji] at hj ⊢
    exact h.held_starts j hj
  · have hsame := inSlots_update held held hslots fun _ _ => rfl
    rw [if_neg hi, if_neg hs, add_zero, add_zero] at hsame
    rw [hpushed, hsame]
    exact h.pushed_eq

theorem Holds.same (h : Holds es m recvd held) (hslots : m'.slots = m.slots)
    (hreceived : softwareReceived (es ++ [e]) = softwareReceived es)
    (hpushed : netPushed (es ++ [e]) = netPushed es) :
    Holds (es ++ [e]) m' recvd held := by
  refine ⟨?_, fun j hj => ?_, ?_⟩
  · rw [hreceived]
    exact h.starts
  · rw [hslots] at hj ⊢
    exact h.held_starts j hj
  · unfold inSlots
    rw [hpushed, hslots]
    exact h.pushed_eq

theorem Holds.recv (h : Holds es m recvd held) (hi : (m.slots i).status = .hardwareFull) :
    Holds (es ++ [.recv i (m.slots i).buffer]) (m.takeFull i) (recvd ++ [held i]) held := by
  refine ⟨?_, fun j hj => ?_, ?_⟩
  · have hreceived : softwareReceived (es ++ [.recv i (m.slots i).buffer]) =
        softwareReceived es ++ [(m.slots i).buffer] := by simp [softwareReceived]
    rw [hreceived]
    exact List.rel_append h.starts (.cons (h.held_starts i hi) .nil)
  · have hji : j ≠ i := by
      rintro rfl
      simp [TinselMbox.takeFull, TinselMbox.setStatus] at hj
    have hslot : (m.takeFull i).slots j = m.slots j := update_of_ne hji ..
    rw [hslot] at hj ⊢
    exact h.held_starts j hj
  · have hslots : (m.takeFull i).slots = update m.slots i _ := rfl
    have hmove := inSlots_update held held hslots fun _ _ => rfl
    rw [if_pos hi, if_neg (by simp), add_zero] at hmove
    have hpushed : netPushed (es ++ [.recv i (m.slots i).buffer]) = netPushed es := by
      simp [netPushed]
    rw [hpushed, h.pushed_eq, ← hmove, ← Multiset.coe_add, Multiset.coe_singleton, add_assoc,
      add_comm (inSlots _ _)]

theorem Holds.push (h : Holds es m recvd held) (hi : (m.slots i).status = .hardwareEmpty)
    (hfits : data.length ≤ P.bytesPerMsg) :
    Holds (es ++ [.push data]) (m.fill i data) recvd (update held i data) := by
  refine ⟨?_, fun j hj => ?_, ?_⟩
  · have hreceived : softwareReceived (es ++ [.push data]) = softwareReceived es := by
      simp [softwareReceived]
    rw [hreceived]
    exact h.starts
  · by_cases hji : j = i
    · subst hji
      simp only [TinselMbox.fill, update_self]
      exact starts_copyIn hfits
    · have hslot : (m.fill i data).slots j = m.slots j := update_of_ne hji ..
      rw [hslot] at hj ⊢
      rw [update_of_ne hji]
      exact h.held_starts j hj
  · have hslots : (m.fill i data).slots = update m.slots i _ := rfl
    have hmove := inSlots_update held (update held i data) hslots fun j hj => update_of_ne hj ..
    rw [if_neg (by simp [hi]), if_pos rfl, update_self, add_zero] at hmove
    have hpushed : netPushed (es ++ [.push data]) = netPushed es ++ [data] := by simp [netPushed]
    rw [hpushed, ← Multiset.coe_add, h.pushed_eq, hmove, Multiset.coe_singleton, add_assoc]

/-- Every operation keeps hold of the messages. -/
theorem Holds.did (h : Holds es m recvd held) (hproper : Proper m e) (hdid : Did m m' notify e) :
    ∃ recvd' held', Holds (es ++ [e]) m' recvd' held' := by
  cases hdid with
  | canRecv | canSend | woken | noPull | noPush | setLen =>
    exact ⟨recvd, held, h.same rfl (by simp [softwareReceived]) (by simp [netPushed])⟩
  | recv hi hpos => exact ⟨_, _, h.recv hi⟩
  | alloc hi =>
    exact ⟨recvd, held, h.aside rfl (by simp [hi]) (by simp) (by simp [softwareReceived])
      (by simp [netPushed])⟩
  | send address hidle hi =>
    exact ⟨recvd, held, h.aside rfl (by simp [hi]) (by simp) (by simp [softwareReceived])
      (by simp [netPushed])⟩
  | pull hslot haddress hlength hi =>
    exact ⟨recvd, held, h.aside rfl (by simp [hi]) (by simp) (by simp [softwareReceived])
      (by simp [netPushed])⟩
  | push data hi => exact ⟨_, _, h.push hi hproper⟩
  | write i buffer =>
    have hi : (m.slots i).status = .softwareOwned := hproper
    exact ⟨recvd, held, h.aside rfl (by simp [hi]) (by simp [hi]) (by simp [softwareReceived])
      (by simp [netPushed])⟩

end Holds

/-! ## Received buffers -/

/-- Slot `i` is not with the network for messages that come in, and its buffer is what software
last wrote there. -/
structure Kept (i : Fin P.msgsPerThread) (buffer : MboxBuffer P) (es : List (MboxEvent P))
    (m : TinselMbox P) : Prop where
  status : (m.slots i).status = .softwareOwned ∨ (m.slots i).status = .hardwareSend
  buffer : (m.slots i).buffer = lastWritten i buffer es

theorem lastWritten_snoc (hwrite : ∀ b, e ≠ .write i b) :
    lastWritten i buffer (es ++ [e]) = lastWritten i buffer es := by
  unfold lastWritten
  rw [List.foldl_concat]
  cases e with
  | write j b =>
    have hji : j ≠ i := by
      rintro rfl
      exact hwrite b rfl
    exact if_neg hji
  | _ => rfl

namespace Kept

/-- A slot is written; of this one only the status. -/
theorem moved {s : Slot P} (h : Kept i buffer es m) (hslots : m'.slots = update m.slots j s)
    (hself : i = j → (s.status = .softwareOwned ∨ s.status = .hardwareSend) ∧
      s.buffer = (m.slots i).buffer) (hwrite : ∀ b, e ≠ .write i b) :
    Kept i buffer (es ++ [e]) m' := by
  have hlast : lastWritten i buffer (es ++ [e]) = lastWritten i buffer es :=
    lastWritten_snoc hwrite
  by_cases hij : i = j
  · obtain ⟨hstatus, hbuffer⟩ := hself hij
    subst hij
    have hs : m'.slots i = s := by rw [hslots, update_self]
    refine ⟨by rwa [hs], ?_⟩
    rw [hs, hbuffer, hlast]
    exact h.buffer
  · have hs : m'.slots i = m.slots i := by rw [hslots, update_of_ne hij]
    refine ⟨by rw [hs]; exact h.status, ?_⟩
    rw [hs, hlast]
    exact h.buffer

theorem same (h : Kept i buffer es m) (hslots : m'.slots = m.slots)
    (hwrite : ∀ b, e ≠ .write i b) : Kept i buffer (es ++ [e]) m' := by
  refine h.moved (j := i) (s := m.slots i) ?_ (fun _ => ⟨h.status, rfl⟩) hwrite
  rw [hslots, update_eq_self]

theorem write (h : Kept i buffer es m) {b : MboxBuffer P} :
    Kept i buffer (es ++ [.write j b]) (m.softwareWrite j b) := by
  by_cases hij : j = i
  · subst hij
    have hs : (m.softwareWrite j b).slots j = { m.slots j with buffer := b } := update_self ..
    refine ⟨by rw [hs]; exact h.status, ?_⟩
    rw [hs]
    unfold lastWritten
    rw [List.foldl_concat]
    exact (if_pos rfl).symm
  · apply h.moved (j := j) rfl
    · exact fun h => absurd h.symm hij
    · intro b' heq
      cases heq
      exact hij rfl

/-- As long as the slot is not given back, only software changes its buffer. -/
theorem did (h : Kept i buffer es m) (halloc : e ≠ .alloc i) (hdid : Did m m' notify e) :
    Kept i buffer (es ++ [e]) m' := by
  have hne : ∀ {j : Fin P.msgsPerThread} {status : MsgStatus}, (m.slots j).status = status →
      status ≠ .softwareOwned → status ≠ .hardwareSend → i ≠ j := by
    rintro j status hj howned hsend rfl
    rcases h.status with hi | hi
    · exact howned (hj.symm.trans hi)
    · exact hsend (hj.symm.trans hi)
  cases hdid with
  | canRecv | canSend | woken | noPull | noPush | setLen => exact h.same rfl (by simp)
  | recv hj hpos =>
    exact h.moved rfl (fun hij => absurd hij (hne hj (by simp) (by simp))) (by simp)
  | @alloc j hj =>
    refine h.moved (j := j) rfl (fun hij => ?_) (by simp)
    subst hij
    exact absurd rfl halloc
  | send address hidle hj =>
    refine h.moved rfl (fun hij => ?_) (by simp)
    subst hij
    exact ⟨.inr rfl, rfl⟩
  | pull hslot haddress hlength hj =>
    refine h.moved rfl (fun hij => ?_) (by simp)
    subst hij
    exact ⟨.inl rfl, rfl⟩
  | push data hj =>
    exact h.moved rfl (fun hij => absurd hij (hne hj (by simp) (by simp))) (by simp)
  | write j b => exact h.write

end Kept

/-! ## Sending -/

/-- The message that was given and is not yet pulled. -/
def pending (m : TinselMbox P) : List Outgoing :=
  if m.sendActive then
    match m.sendAddress, m.sendLength, m.sendSlot with
    | some address, some n, some i => [(address, n, copyOut (m.slots i).buffer n)]
    | _, _, _ => []
  else []

theorem pending_idle (h : m.sendActive = false) : pending m = [] := by simp [pending, h]

theorem pending_active {address : BitVec 32} {n : Nat} (h : m.sendActive = true)
    (haddress : m.sendAddress = some address) (hlength : m.sendLength = some n)
    (hslot : m.sendSlot = some i) :
    pending m = [(address, n, copyOut (m.slots i).buffer n)] := by
  simp [pending, h, haddress, hlength, hslot]

theorem pending_length_le : (pending m).length ≤ 1 := by
  unfold pending
  split
  · split <;> simp
  · simp

/-- What software gave was pulled, in order, but for the message that is pending. -/
structure Gives (es : List (MboxEvent P)) (m : TinselMbox P) : Prop where
  length : (softwareGave es).1 = m.sendLength
  sent : (softwareGave es).2 = netPulled es ++ pending m

namespace Gives

/-- Neither the registers nor the slot that is being sent change. -/
theorem aside (h : Gives es m) (hgave : softwareGave (es ++ [e]) = softwareGave es)
    (hpulled : netPulled (es ++ [e]) = netPulled es) (hactive : m'.sendActive = m.sendActive)
    (haddress : m'.sendAddress = m.sendAddress) (hlength : m'.sendLength = m.sendLength)
    (hslot : m'.sendSlot = m.sendSlot)
    (hbuffer : m.sendActive = true → ∀ i, m.sendSlot = some i →
      (m'.slots i).buffer = (m.slots i).buffer) : Gives (es ++ [e]) m' := by
  have hpending : pending m' = pending m := by
    cases hm : m.sendActive with
    | false => rw [pending_idle hm, pending_idle (hactive.trans hm)]
    | true =>
      unfold pending
      rw [hactive, haddress, hlength, hslot, hm]
      cases hs : m.sendSlot with
      | none => cases m.sendAddress <;> cases m.sendLength <;> rfl
      | some i => cases m.sendAddress <;> cases m.sendLength <;> simp [hbuffer hm i hs]
  refine ⟨?_, ?_⟩
  · rw [hgave, hlength]
    exact h.length
  · rw [hgave, hpulled, hpending]
    exact h.sent

/-- A slot is written that is not being sent, or only its status. -/
theorem moved {s : Slot P} (h : Gives es m) (hinv : SlotsInv m)
    (hgave : softwareGave (es ++ [e]) = softwareGave es)
    (hpulled : netPulled (es ++ [e]) = netPulled es) (hactive : m'.sendActive = m.sendActive)
    (haddress : m'.sendAddress = m.sendAddress) (hlength : m'.sendLength = m.sendLength)
    (hslot : m'.sendSlot = m.sendSlot) (hslots : m'.slots = update m.slots i s)
    (hi : (m.slots i).status ≠ .hardwareSend) : Gives (es ++ [e]) m' := by
  refine h.aside hgave hpulled hactive haddress hlength hslot fun hm j hj => ?_
  have hji : j ≠ i := by
    rintro rfl
    exact hi ((hinv.send_iff j).2 ⟨hm, hj⟩)
  rw [hslots, update_of_ne hji]

theorem setLen (h : Gives es m) {n : Nat} (hidle : m.sendActive = false) :
    Gives (es ++ [.setLen n]) { m with sendLength := some n } := by
  refine ⟨?_, ?_⟩
  · rw [softwareGave_snoc]
    rfl
  · have hpulled : netPulled (es ++ [.setLen n]) = netPulled es := by simp [netPulled]
    have hsent := h.sent
    rw [pending_idle hidle] at hsent
    rw [softwareGave_snoc, hpulled, pending_idle (m := { m with sendLength := some n }) hidle]
    exact hsent

theorem send (h : Gives es m) {address : BitVec 32} (hidle : m.sendActive = false)
    (hlength : m.sendLength ≠ none) :
    Gives (es ++ [.send address i (m.slots i).buffer]) (m.startSend address i) := by
  obtain ⟨n, hn⟩ := Option.ne_none_iff_exists'.1 hlength
  have hsame : ((m.startSend address i).slots i).buffer = (m.slots i).buffer := by
    simp [TinselMbox.startSend, TinselMbox.setStatus]
  have hpending := pending_active (m := m.startSend address i) rfl rfl hn rfl
  have hpulled : netPulled (es ++ [.send address i (m.slots i).buffer]) = netPulled es := by
    simp [netPulled]
  refine ⟨?_, ?_⟩
  · rw [softwareGave_snoc]
    exact h.length
  · rw [softwareGave_snoc, hpulled, hpending, hsame]
    show (softwareGave es).2 ++ _ = _
    rw [h.length, hn, h.sent, pending_idle hidle, List.append_nil]
    rfl

theorem pull (h : Gives es m) (hinv : SlotsInv m) {address : BitVec 32} {n : Nat}
    (hslot : m.sendSlot = some i) (haddress : m.sendAddress = some address)
    (hlength : m.sendLength = some n) (hi : (m.slots i).status = .hardwareSend) :
    Gives (es ++ [.pull address n (copyOut (m.slots i).buffer n)]) (m.endSend i) := by
  have hactive := ((hinv.send_iff i).1 hi).1
  refine ⟨?_, ?_⟩
  · rw [softwareGave_snoc]
    exact h.length
  · have hpulled : netPulled (es ++ [.pull address n (copyOut (m.slots i).buffer n)]) =
        netPulled es ++ [(address, n, copyOut (m.slots i).buffer n)] := by simp [netPulled]
    rw [softwareGave_snoc, hpulled, pending_idle (m := m.endSend i) rfl, List.append_nil]
    show (softwareGave es).2 = _
    rw [h.sent, pending_active hactive haddress hlength hslot]

theorem did (h : Gives es m) (hinv : SlotsInv m) (hproper : Proper m e)
    (hdid : Did m m' notify e) : Gives (es ++ [e]) m' := by
  cases hdid with
  | canRecv | canSend | woken | noPull | noPush =>
    exact h.aside softwareGave_snoc (by simp [netPulled]) rfl rfl rfl rfl fun _ _ _ => rfl
  | recv hi hpos =>
    exact h.moved hinv softwareGave_snoc (by simp [netPulled]) rfl rfl rfl rfl rfl (by simp [hi])
  | alloc hi =>
    exact h.moved hinv softwareGave_snoc (by simp [netPulled]) rfl rfl rfl rfl rfl (by simp [hi])
  | setLen n hidle => exact h.setLen hidle
  | send address hidle hi => exact h.send hidle hproper
  | pull hslot haddress hlength hi => exact h.pull hinv hslot haddress hlength hi
  | push data hi =>
    exact h.moved hinv softwareGave_snoc (by simp [netPulled]) rfl rfl rfl rfl rfl (by simp [hi])
  | write i buffer =>
    have hi : (m.slots i).status = .softwareOwned := hproper
    exact h.moved hinv softwareGave_snoc (by simp [netPulled]) rfl rfl rfl rfl rfl (by simp [hi])

end Gives

/-! ## Runs -/

section Run

variable {threadId : BitVec 32} {b : Fin P.msgsPerThread → MboxBuffer P}
  {ls ls' : List (Option (MboxEvent P))} {g g₁ g₂ : MboxConfig P ι}

theorem MboxRun.holds (hrun : MboxRun threadId b ls g) :
    ∃ recvd held, Holds (results ls) g.shared recvd held := by
  have hkeeps : Keeps (mboxOperations P) Disciplined
      (fun es m => SlotsInv m ∧ ∃ recvd held, Holds es m recvd held) (WaitFits P)
      (fun _ => False) := by
    apply keeps_of_did
    rintro es m m' notify e - ⟨recvd, held, h⟩ hproper hdid
    exact h.did hproper hdid
  have hstart : Holds [] (TinselMbox.init threadId b) [] fun _ => [] := by
    refine ⟨.nil, fun i hi => ?_, ?_⟩
    · cases hi
    · simp [netPushed, inSlots, TinselMbox.init]
  exact (hkeeps.run ⟨init_slotsInv, _, _, hstart⟩ (fun i x hx => by cases hx) hrun).1.2

theorem MboxRun.gives (hrun : MboxRun threadId b ls g) : Gives (results ls) g.shared := by
  have hkeeps : Keeps (mboxOperations P) Disciplined (fun es m => SlotsInv m ∧ Gives es m)
      (WaitFits P) (fun _ => False) := by
    apply keeps_of_did
    intro es m m' notify e hinv h hproper hdid
    exact h.did hinv hproper hdid
  exact (hkeeps.run ⟨init_slotsInv, rfl, rfl⟩ (fun i x hx => by cases hx) hrun).1.2

/-- An operation that ends in a run does what `Did` says. -/
theorem mbox_step_did (hrun : MboxRun threadId b ls g)
    (hstep : Step (mboxOperations P) Disciplined g (some e) g₁) :
    ∃ notify, Proper g.shared e ∧ Did g.shared g₁.shared notify e := by
  obtain ⟨-, hwaits⟩ := hrun.inv
  cases hstep with
  | ends hi ho hcall =>
    have h := TinselMbox.call_sat.of_ok hcall
    exact ⟨_, h.2 ho, h.1⟩
  | resumes hi hready hresume =>
    have h := (TinselMbox.resume_sat hready).of_ok hresume
    exact ⟨_, h.2 (hwaits _ _ hi), h.1⟩

/-- After `mboxRecv` has returned slot `i`, and until it is given back. -/
theorem MboxRun.kept (hrun : MboxRun threadId b ls g)
    (hrecv : Step (mboxOperations P) Disciplined g (some (.recv i buffer)) g₁)
    (hrun' : Run (Step (mboxOperations P) Disciplined) g₁ ls' g₂)
    (halloc : .alloc i ∉ results ls') : Kept i buffer (results ls') g₂.shared := by
  obtain ⟨hinv, hwaits⟩ := MboxRun.inv (hrun.snoc hrecv)
  obtain ⟨notify, -, hdid⟩ := mbox_step_did hrun hrecv
  have hkept : Kept i buffer [] g₁.shared := by
    generalize g₁.shared = m₁ at hdid
    cases hdid with
    | recv hi hpos =>
      refine ⟨.inl ?_, ?_⟩
      · simp [TinselMbox.takeFull, TinselMbox.setStatus]
      · simp [TinselMbox.takeFull, TinselMbox.setStatus, lastWritten]
  have hkeeps : Keeps (mboxOperations P) Disciplined
      (fun es m => SlotsInv m ∧ (.alloc i ∉ es → Kept i buffer es m)) (WaitFits P)
      (fun _ => False) := by
    apply keeps_of_did
    intro es m m' notify e hinv h hproper hdid hnot
    rw [List.mem_append, List.mem_singleton, not_or] at hnot
    exact (h hnot.1).did (Ne.symm hnot.2) hdid
  exact (hkeeps.run ⟨hinv, fun _ => hkept⟩ hwaits hrun').1.2 halloc

/-- Threads that use a mailbox as they should, in any number and interleaving: the messages
pushed are those received and those in full slots; a buffer that `mboxRecv` returned starts with
the message, and until the slot is given back only software changes it; and the messages pulled
are those given to `mboxSetLen` and `mboxSend`, in order, but for one that is pending at most. -/
theorem mailbox_messages (hrun : MboxRun threadId b ls g) :
    (∃ (recvd : List (List (BitVec 8))) (held : Fin P.msgsPerThread → List (BitVec 8)),
      List.Forall₂ Starts recvd (softwareReceived (results ls)) ∧
      (∀ i, (g.shared.slots i).status = .hardwareFull →
        Starts (held i) (g.shared.slots i).buffer) ∧
      (netPushed (results ls) : Multiset (List (BitVec 8))) =
        recvd + ∑ i, if (g.shared.slots i).status = .hardwareFull then {held i} else 0) ∧
    (∀ i buffer g₁ ls' g₂,
      Step (mboxOperations P) Disciplined g (some (.recv i buffer)) g₁ →
      Run (Step (mboxOperations P) Disciplined) g₁ ls' g₂ → .alloc i ∉ results ls' →
      (g₂.shared.slots i).buffer = lastWritten i buffer (results ls')) ∧
    (softwareGave (results ls)).2 = netPulled (results ls) ++ pending g.shared ∧
    (pending g.shared).length ≤ 1 := by
  refine ⟨?_, ?_, hrun.gives.sent, pending_length_le⟩
  · obtain ⟨recvd, held, h⟩ := hrun.holds
    exact ⟨recvd, held, h.starts, h.held_starts, h.pushed_eq⟩
  · intro i buffer g₁ ls' g₂ hrecv hrun' halloc
    exact (hrun.kept hrecv hrun' halloc).buffer

end Run

/-- A message was pushed into the slot. -/
def slotFilled : MboxConfig smallMbox Bool :=
  ⟨slotGiven.shared.fill smallSlot [1#8], notifyAll true (update slotGiven.waiting true none)⟩

theorem slotFilled_run : MboxRun 0#32 (fun _ _ => 0#8)
    [none, some (.alloc smallSlot), some (.push [1#8])] slotFilled := by
  have hstep : Step (mboxOperations smallMbox) Disciplined slotGiven (some (.push [1#8]))
      slotFilled := .resumes (i := true) (x := ⟨.push [1#8] 0, true⟩) rfl rfl rfl
  exact Run.snoc slotGiven_run hstep

/-- It is still there. -/
theorem mailbox_messages_slotFilled :
    ∃ (recvd : List (List (BitVec 8))) (held : Fin smallMbox.msgsPerThread → List (BitVec 8)),
      List.Forall₂ Starts recvd
        (softwareReceived (P := smallMbox) [.alloc smallSlot, .push [1#8]]) ∧
      ({[1#8]} : Multiset (List (BitVec 8))) = recvd + ∑ i,
        if (slotFilled.shared.slots i).status = .hardwareFull then {held i} else 0 := by
  obtain ⟨⟨recvd, held, hstarts, -, heq⟩, -⟩ := mailbox_messages slotFilled_run
  exact ⟨recvd, held, hstarts, heq⟩

end Softswitch
