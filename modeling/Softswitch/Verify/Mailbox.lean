import Softswitch.Lib.CyclicSweep
import Softswitch.Mailbox

/-!
# The slots and the registers of the mailbox agree

`m_numSlotsEmpty`, `m_numSlotsFull` and the send registers repeat what the slots say.  `Did`
says what each operation does, and every operation keeps `SlotsInv`; as long as software keeps
to its own slots, no assertion fails and both searches for a slot succeed.
-/

namespace Softswitch

open Outcome Monitor Runs Function

variable {P : MboxParams} {ι : Type} [DecidableEq ι] {m m' : TinselMbox P}
  {i j : Fin P.msgsPerThread} {notify : Bool} {e : MboxEvent P} {w : MboxWait}

/-! ## Checks and searches -/

theorem require_sat {a : MboxAssertion} {ok : Bool} :
    Sat (require a ok) (fun _ => ok = true) (fun _ => ok = false) := by
  unfold require
  cases ok <;> simp

theorem readRegister_sat {α : Type} {o : Option α} :
    Sat (readRegister o) (fun a => o = some a) (fun _ => o = none) := by
  cases o <;> rfl

namespace TinselMbox

/-- The counters are what `check_slots` counts. -/
structure Counted (m : TinselMbox P) : Prop where
  empty : m.countSlots .hardwareEmpty = m.numSlotsEmpty
  full : m.countSlots .hardwareFull = m.numSlotsFull

theorem checkSlots_sat : Sat m.checkSlots (fun _ => True) (fun _ => ¬m.Counted) := by
  unfold checkSlots
  refine Sat.bind (require_sat.mono (fun _ h => h) fun _ h hm => ?_) fun _ _ hempty => ?_
  · exact of_decide_eq_false h hm.empty
  · refine require_sat.mono (fun _ _ => trivial) fun _ h hm => ?_
    exact of_decide_eq_false h hm.full

theorem findSlot_sat {p : Option (Fin P.msgsPerThread)} :
    Sat (findSlot p) (fun i => p = some i) (fun _ => p = none) := by
  unfold findSlot
  cases hfind : (List.finRange P.msgsPerThread).find? fun i => some i == p with
  | some i =>
    have := List.find?_some hfind
    exact (beq_iff_eq.1 this).symm
  | none =>
    rw [List.find?_eq_none] at hfind
    cases p with
    | none => rfl
    | some i => simpa using hfind i (List.mem_finRange i)

theorem selectEmpty_status {is : List (Fin P.msgsPerThread)} {sel : Fin P.msgsPerThread}
    (h : ∃ i ∈ is, (m.slots i).status = .hardwareEmpty) :
    (m.slots (m.selectEmpty is sel)).status = .hardwareEmpty := by
  induction is generalizing sel with
  | nil =>
    obtain ⟨i, hi, -⟩ := h
    cases hi
  | cons i is ih =>
    unfold selectEmpty
    split
    · assumption
    · rename_i hne
      obtain ⟨j, hj, hempty⟩ := h
      rcases List.mem_cons.1 hj with rfl | hj
      · exact absurd hempty hne
      · exact ih ⟨j, hj, hempty⟩

/-- The search for an empty slot looks at every slot, wherever it starts. -/
theorem mem_slotsFrom {start : Nat} (hstart : start < P.msgsPerThread) :
    i ∈ slotsFrom (P := P) start := by
  obtain ⟨k, hk, hplace⟩ := CyclicSweep.PlacesAhead.of_lt hstart i
  unfold slotsFrom
  rw [List.mem_map]
  refine ⟨k, List.mem_range.2 hk, Fin.ext ?_⟩
  show (k + start) % P.msgsPerThread = i.val
  rw [hplace, Nat.add_comm]

/-! ## Counting slots -/

/-- One slot is written. -/
theorem countSlots_update {s : Slot P} (h : m'.slots = update m.slots i s) (status : MsgStatus) :
    m'.countSlots status + (if (m.slots i).status = status then 1 else 0) =
      m.countSlots status + if s.status = status then 1 else 0 := by
  unfold countSlots
  rw [h]
  exact Tally.tally_update i s

theorem countSlots_pos {status : MsgStatus} (h : (m.slots i).status = status) :
    0 < m.countSlots status := by
  by_contra hzero
  exact Tally.tally_eq_zero_iff.1 (Nat.eq_zero_of_not_pos hzero) i h

theorem exists_of_countSlots_pos {status : MsgStatus} (h : 0 < m.countSlots status) :
    ∃ i, (m.slots i).status = status :=
  Tally.exists_of_tally_pos h

/-- The counters follow a slot that is written. -/
theorem Counted.moved {s : Slot P} (h : m.Counted) (hslots : m'.slots = update m.slots i s)
    (hempty : m'.numSlotsEmpty + (if (m.slots i).status = .hardwareEmpty then 1 else 0) =
      m.numSlotsEmpty + if s.status = .hardwareEmpty then 1 else 0)
    (hfull : m'.numSlotsFull + (if (m.slots i).status = .hardwareFull then 1 else 0) =
      m.numSlotsFull + if s.status = .hardwareFull then 1 else 0) : m'.Counted := by
  have hcount := countSlots_update hslots
  constructor
  · have := hcount .hardwareEmpty
    rw [h.empty] at this
    omega
  · have := hcount .hardwareFull
    rw [h.full] at this
    omega

theorem Counted.full_pos (h : m.Counted) (hi : (m.slots i).status = .hardwareFull) :
    0 < m.numSlotsFull := by
  rw [← h.full]
  exact countSlots_pos hi

theorem Counted.empty_pos (h : m.Counted) (hi : (m.slots i).status = .hardwareEmpty) :
    0 < m.numSlotsEmpty := by
  rw [← h.empty]
  exact countSlots_pos hi

end TinselMbox

/-! ## The invariant -/

/-- The counters and the send registers say what the slots say. -/
structure SlotsInv (m : TinselMbox P) : Prop where
  counted : m.Counted
  send_iff : ∀ i, (m.slots i).status = .hardwareSend ↔ m.sendActive = true ∧ m.sendSlot = some i
  slot : m.sendActive = true → m.sendSlot ≠ none
  address : m.sendActive = true → m.sendAddress ≠ none
  length : m.sendActive = true → m.sendLength ≠ none
  length_le : ∀ n, m.sendLength = some n → n ≤ P.bytesPerMsg

namespace SlotsInv

open TinselMbox

/-- After a slot that is not being sent changes hands, and is not being sent then. -/
theorem send_update (h : SlotsInv m) {s : Slot P} (hi : (m.slots i).status ≠ .hardwareSend)
    (hs : s.status ≠ .hardwareSend) (j : Fin P.msgsPerThread) :
    (update m.slots i s j).status = .hardwareSend ↔ m.sendActive = true ∧ m.sendSlot = some j := by
  rw [← h.send_iff j]
  by_cases hij : j = i
  · subst hij
    rw [update_self]
    exact ⟨fun h => absurd h hs, fun h => absurd h hi⟩
  · rw [update_of_ne hij]

theorem takeFull (h : SlotsInv m) (hi : (m.slots i).status = .hardwareFull) :
    SlotsInv (m.takeFull i) := by
  have hpos := h.counted.full_pos hi
  refine ⟨h.counted.moved rfl ?_ ?_, h.send_update (by simp [hi]) (by simp), h.slot, h.address,
    h.length, h.length_le⟩
  · simp [hi, TinselMbox.takeFull, setStatus]
  · simp only [hi, TinselMbox.takeFull, if_true, reduceCtorEq, if_false]
    omega

theorem giveEmpty (h : SlotsInv m) (hi : (m.slots i).status = .softwareOwned) :
    SlotsInv (m.giveEmpty i) := by
  refine ⟨h.counted.moved rfl ?_ ?_, h.send_update (by simp [hi]) (by simp), h.slot, h.address,
    h.length, h.length_le⟩
  · simp [hi, TinselMbox.giveEmpty]
  · simp [hi, TinselMbox.giveEmpty, setStatus]

theorem fill (h : SlotsInv m) {data : List (BitVec 8)}
    (hi : (m.slots i).status = .hardwareEmpty) : SlotsInv (m.fill i data) := by
  have hpos := h.counted.empty_pos hi
  refine ⟨h.counted.moved rfl ?_ ?_, h.send_update (by simp [hi]) (by simp), h.slot, h.address,
    h.length, h.length_le⟩
  · simp only [hi, TinselMbox.fill, if_true, reduceCtorEq, if_false]
    omega
  · simp [hi, TinselMbox.fill]

theorem startSend (h : SlotsInv m) {address : BitVec 32} (hidle : m.sendActive = false)
    (hlength : m.sendLength ≠ none) (hi : (m.slots i).status = .softwareOwned) :
    SlotsInv (m.startSend address i) := by
  refine ⟨h.counted.moved rfl ?_ ?_, fun j => ?_, fun _ => by simp [TinselMbox.startSend],
    fun _ => by simp [TinselMbox.startSend], fun _ => hlength, h.length_le⟩
  · simp [hi, TinselMbox.startSend, setStatus]
  · simp [hi, TinselMbox.startSend, setStatus]
  · show (update m.slots i _ j).status = _ ↔ true = true ∧ some i = some j
    by_cases hij : j = i
    · subst hij
      simp
    · have hnone : (m.slots j).status ≠ .hardwareSend := by
        intro hj
        have := ((h.send_iff j).1 hj).1
        simp [hidle] at this
      simp [hij, hnone, Ne.symm hij]

theorem endSend (h : SlotsInv m) (hi : (m.slots i).status = .hardwareSend) :
    SlotsInv (m.endSend i) := by
  refine ⟨h.counted.moved rfl ?_ ?_, fun j => ?_, nofun, nofun, nofun, h.length_le⟩
  · simp [hi, TinselMbox.endSend, setStatus]
  · simp [hi, TinselMbox.endSend, setStatus]
  · show (update m.slots i _ j).status = _ ↔ false = true ∧ m.sendSlot = some j
    by_cases hij : j = i
    · subst hij
      simp
    · have hslot := ((h.send_iff i).1 hi).2
      have hnone : (m.slots j).status ≠ .hardwareSend := by
        intro hj
        have := hslot.symm.trans ((h.send_iff j).1 hj).2
        exact hij (Option.some.inj this).symm
      simp [hij, hnone]

theorem softwareWrite (h : SlotsInv m) {buffer : MboxBuffer P} :
    SlotsInv (m.softwareWrite i buffer) := by
  refine ⟨h.counted.moved (i := i) rfl rfl rfl, fun j => ?_, h.slot, h.address, h.length,
    h.length_le⟩
  refine Iff.trans ?_ (h.send_iff j)
  show (update m.slots i _ j).status = _ ↔ _
  by_cases hij : j = i
  · subst hij
    rw [update_self]
  · rw [update_of_ne hij]

theorem setLen (h : SlotsInv m) {n : Nat} (hn : n ≤ P.bytesPerMsg) :
    SlotsInv { m with sendLength := some n } := by
  refine ⟨⟨h.counted.empty, h.counted.full⟩, h.send_iff, h.slot, h.address, fun _ => by simp,
    fun k hk => ?_⟩
  cases hk
  exact hn

end SlotsInv

/-! ## What the operations do -/

/-- The step from `m` to `m'` that did `e`, and whether it called `notify_all`. -/
inductive Did (m : TinselMbox P) : TinselMbox P → Bool → MboxEvent P → Prop
  | canRecv : Did m m false (.canRecv (decide (0 < m.numSlotsFull)))
  | recv {i : Fin P.msgsPerThread} (hi : (m.slots i).status = .hardwareFull)
      (hpos : 0 < m.numSlotsFull) : Did m (m.takeFull i) false (.recv i (m.slots i).buffer)
  | alloc {i : Fin P.msgsPerThread} (hi : (m.slots i).status = .softwareOwned) :
      Did m (m.giveEmpty i) (m.numSlotsEmpty + 1 == 1) (.alloc i)
  | canSend : Did m m false (.canSend !m.sendActive)
  | setLen (n : Nat) (hidle : m.sendActive = false) :
      Did m { m with sendLength := some n } false (.setLen n)
  | send {i : Fin P.msgsPerThread} (address : BitVec 32) (hidle : m.sendActive = false)
      (hi : (m.slots i).status = .softwareOwned) :
      Did m (m.startSend address i) true (.send address i (m.slots i).buffer)
  | woken : Did m m false .woken
  | pull {i : Fin P.msgsPerThread} {address : BitVec 32} {length : Nat}
      (hslot : m.sendSlot = some i) (haddress : m.sendAddress = some address)
      (hlength : m.sendLength = some length) (hi : (m.slots i).status = .hardwareSend) :
      Did m (m.endSend i) true (.pull address length (copyOut (m.slots i).buffer length))
  | noPull : Did m m false .noPull
  | push {i : Fin P.msgsPerThread} (data : List (BitVec 8))
      (hi : (m.slots i).status = .hardwareEmpty) : Did m (m.fill i data) true (.push data)
  | noPush : Did m m false .noPush
  | write (i : Fin P.msgsPerThread) (buffer : MboxBuffer P) :
      Did m (m.softwareWrite i buffer) false (.write i buffer)

/-- How software uses a mailbox: it receives when `mboxCanRecv` holds, sends and sets lengths
when `mboxCanSend` does, has set a length that fits before it sends, and gives away and writes
only slots that it owns.  A message for the mailbox fits into a slot. -/
def Disciplined (m : TinselMbox P) : MboxCall P → Prop
  | .recv => 0 < m.numSlotsFull
  | .alloc p => ∃ i, p = some i ∧ (m.slots i).status = .softwareOwned
  | .setLen byteLength => m.sendActive = false ∧ byteLength ≤ P.bytesPerMsg
  | .send _ p => m.sendActive = false ∧ m.sendLength ≠ none ∧
      ∃ i, p = some i ∧ (m.slots i).status = .softwareOwned
  | .waitUntil cond => cond ≠ 0
  | .push dstThreadId data _ _ => dstThreadId = m.myThreadId ∧ data.length ≤ P.bytesPerMsg
  | .write i _ => (m.slots i).status = .softwareOwned
  | .canRecv | .canSend | .pull _ => True

/-- What the discipline says of an event. -/
def Proper (m : TinselMbox P) : MboxEvent P → Prop
  | .setLen n => n ≤ P.bytesPerMsg
  | .send _ _ _ => m.sendLength ≠ none
  | .push data => data.length ≤ P.bytesPerMsg
  | .write i _ => (m.slots i).status = .softwareOwned
  | _ => True

/-- What is waited for: a message that is to be pushed fits into a slot. -/
def WaitFits (P : MboxParams) : MboxWait → Prop
  | .push data _ => data.length ≤ P.bytesPerMsg
  | _ => True

theorem SlotsInv.did (h : SlotsInv m) (hproper : Proper m e) (hdid : Did m m' notify e) :
    SlotsInv m' := by
  cases hdid with
  | canRecv | canSend | woken | noPull | noPush => exact h
  | recv hi _ => exact h.takeFull hi
  | alloc hi => exact h.giveEmpty hi
  | setLen n _ => exact h.setLen hproper
  | send address hidle hi => exact h.startSend hidle hproper hi
  | pull _ _ _ hi => exact h.endSend hi
  | push data hi => exact h.fill hi
  | write i buffer => exact h.softwareWrite

namespace TinselMbox

theorem mboxRecv_sat : Sat m.mboxRecv (fun out => Did m out.1 out.2.1 out.2.2 ∧ Proper m out.2.2)
    (fun _ => ¬(SlotsInv m ∧ 0 < m.numSlotsFull)) := by
  unfold mboxRecv
  refine Sat.bind (checkSlots_sat.mono (fun _ h => h) fun _ h hm => h hm.1.counted) fun _ _ _ => ?_
  refine Sat.bind (require_sat.mono (fun _ h => h) fun _ h hm => ?_) fun _ _ hpos => ?_
  · exact of_decide_eq_false h hm.2
  cases hfind : (List.finRange P.msgsPerThread).find?
    fun i => (m.slots i).status = .hardwareFull with
  | none =>
    rintro ⟨hinv, hpos⟩
    rw [← hinv.counted.full] at hpos
    obtain ⟨i, hi⟩ := exists_of_countSlots_pos hpos
    rw [List.find?_eq_none] at hfind
    exact hfind i (List.mem_finRange i) (decide_eq_true hi)
  | some i =>
    have hi : (m.slots i).status = .hardwareFull := by simpa using List.find?_some hfind
    refine Sat.bind (require_sat.mono (fun _ h => h) fun _ h _ => ?_) fun _ _ _ => ?_
    · exact of_decide_eq_false h hi
    refine Sat.bind (checkSlots_sat.mono (fun _ h => h) fun _ h hm => ?_) fun _ _ _ => ?_
    · exact h (hm.1.takeFull hi).counted
    · exact ⟨.recv hi (of_decide_eq_true hpos), trivial⟩

theorem mboxAlloc_sat {p : Option (Fin P.msgsPerThread)} :
    Sat (m.mboxAlloc p) (fun out => Did m out.1 out.2.1 out.2.2 ∧ Proper m out.2.2)
      (fun _ => ¬(SlotsInv m ∧ ∃ i, p = some i ∧ (m.slots i).status = .softwareOwned)) := by
  unfold mboxAlloc
  refine Sat.bind (checkSlots_sat.mono (fun _ h => h) fun _ h hm => h hm.1.counted) fun _ _ _ => ?_
  refine Sat.bind (findSlot_sat.mono (fun _ h => h) fun _ h hm => ?_) fun i _ hp => ?_
  · obtain ⟨-, i, hi, -⟩ := hm
    rw [h] at hi
    cases hi
  subst hp
  refine Sat.bind (require_sat.mono (fun _ h => h) fun _ h hm => ?_) fun _ _ hi => ?_
  · obtain ⟨-, j, hj, howned⟩ := hm
    cases hj
    exact of_decide_eq_false h howned
  have hi : (m.slots i).status = .softwareOwned := of_decide_eq_true hi
  refine Sat.bind (checkSlots_sat.mono (fun _ h => h) fun _ h hm => ?_) fun _ _ _ => ?_
  · exact h (hm.1.giveEmpty hi).counted
  · exact ⟨.alloc hi, trivial⟩

theorem mboxCanSend_sat : Sat m.mboxCanSend
    (fun out => Did m out.1 out.2.1 out.2.2 ∧ Proper m out.2.2) (fun _ => ¬SlotsInv m) := by
  unfold mboxCanSend
  refine Sat.bind (checkSlots_sat.mono (fun _ h => h) fun _ h hm => h hm.counted) fun _ _ _ => ?_
  have hret : Did m m false (.canSend !m.sendActive) := .canSend
  cases hactive : m.sendActive with
  | false =>
    rw [hactive] at hret
    exact ⟨hret, trivial⟩
  | true =>
    rw [hactive] at hret
    refine Sat.bind (readRegister_sat.mono (fun _ h => h) fun _ h hm => ?_) fun i _ hi => ?_
    · exact hm.slot hactive h
    refine Sat.bind (require_sat.mono (fun _ h => h) fun _ h hm => ?_) fun _ _ _ => ⟨hret, trivial⟩
    exact of_decide_eq_false h ((hm.send_iff i).2 ⟨hactive, hi⟩)

theorem mboxSetLen_sat {n : Nat} : Sat (m.mboxSetLen n)
    (fun out => Did m out.1 out.2.1 out.2.2 ∧ (n ≤ P.bytesPerMsg → Proper m out.2.2))
    (fun _ => m.sendActive = true) := by
  unfold mboxSetLen
  refine Sat.bind (require_sat.mono (fun _ h => h) fun _ h => by simpa using h) fun _ _ h => ?_
  exact ⟨.setLen n (by simpa using h), id⟩

theorem mboxSend_sat {address : BitVec 32} {p : Option (Fin P.msgsPerThread)} :
    Sat (m.mboxSend address p)
      (fun out => Did m out.1 out.2.1 out.2.2 ∧ (m.sendLength ≠ none → Proper m out.2.2))
      (fun _ => ¬(SlotsInv m ∧ m.sendActive = false ∧ m.sendLength ≠ none ∧
        ∃ i, p = some i ∧ (m.slots i).status = .softwareOwned)) := by
  unfold mboxSend
  refine Sat.bind (require_sat.mono (fun _ h => h) fun _ h hm => ?_) fun _ _ hidle => ?_
  · rw [hm.2.1] at h
    cases h
  have hidle : m.sendActive = false := by simpa using hidle
  refine Sat.bind (checkSlots_sat.mono (fun _ h => h) fun _ h hm => h hm.1.counted) fun _ _ _ => ?_
  refine Sat.bind (findSlot_sat.mono (fun _ h => h) fun _ h hm => ?_) fun i _ hp => ?_
  · obtain ⟨-, -, -, i, hi, -⟩ := hm
    rw [h] at hi
    cases hi
  subst hp
  refine Sat.bind (require_sat.mono (fun _ h => h) fun _ h hm => ?_) fun _ _ hi => ?_
  · obtain ⟨-, -, -, j, hj, howned⟩ := hm
    cases hj
    exact of_decide_eq_false h howned
  have hi : (m.slots i).status = .softwareOwned := of_decide_eq_true hi
  refine Sat.bind (checkSlots_sat.mono (fun _ h => h) fun _ h hm => ?_) fun _ _ _ => ?_
  · exact h (hm.1.startSend hidle hm.2.2.1 hi).counted
  · exact ⟨.send address hidle hi, id⟩

theorem pullActive_sat : Sat m.pullActive
    (fun out => Did m out.1 out.2.1 out.2.2 ∧ Proper m out.2.2)
    (fun _ => ¬(SlotsInv m ∧ m.sendActive = true)) := by
  unfold pullActive
  refine Sat.bind (checkSlots_sat.mono (fun _ h => h) fun _ h hm => h hm.1.counted) fun _ _ _ => ?_
  refine Sat.bind (readRegister_sat.mono (fun _ h => h) fun _ h hm => ?_) fun length _ hlength => ?_
  · exact hm.1.length hm.2 h
  refine Sat.bind (require_sat.mono (fun _ h => h) fun _ h hm => ?_) fun _ _ _ => ?_
  · exact of_decide_eq_false h (hm.1.length_le length hlength)
  refine Sat.bind (readRegister_sat.mono (fun _ h => h) fun _ h hm => ?_) fun i _ hslot => ?_
  · exact hm.1.slot hm.2 h
  refine Sat.bind (require_sat.mono (fun _ h => h) fun _ h hm => ?_) fun _ _ hi => ?_
  · exact of_decide_eq_false h ((hm.1.send_iff i).2 ⟨hm.2, hslot⟩)
  have hi : (m.slots i).status = .hardwareSend := of_decide_eq_true hi
  refine Sat.bind (readRegister_sat.mono (fun _ h => h) fun _ h hm => ?_)
    fun address _ haddress => ?_
  · exact hm.1.address hm.2 h
  refine Sat.bind (checkSlots_sat.mono (fun _ h => h) fun _ h hm => ?_) fun _ _ _ => ?_
  · exact h (hm.1.endSend hi).counted
  · exact ⟨.pull hslot haddress hlength hi, trivial⟩

theorem pushEmpty_sat {data : List (BitVec 8)} {rand : Nat} : Sat (m.pushEmpty data rand)
    (fun out => Did m out.1 out.2.1 out.2.2 ∧
      (data.length ≤ P.bytesPerMsg → Proper m out.2.2))
    (fun _ => ¬(SlotsInv m ∧ 0 < m.numSlotsEmpty)) := by
  unfold pushEmpty
  refine Sat.bind (checkSlots_sat.mono (fun _ h => h) fun _ h hm => h hm.1.counted) fun _ _ _ => ?_
  refine Sat.bind (require_sat.mono (fun _ h => h) fun _ h hm => ?_) fun _ _ hsel => ?_
  · obtain ⟨hinv, hpos⟩ := hm
    rw [← hinv.counted.empty] at hpos
    obtain ⟨i, hi⟩ := exists_of_countSlots_pos hpos
    apply of_decide_eq_false h
    apply selectEmpty_status
    exact ⟨i, mem_slotsFrom (Nat.mod_lt _ P.msgsPerThread_pos), hi⟩
  have hsel := of_decide_eq_true hsel
  refine Sat.bind (checkSlots_sat.mono (fun _ h => h) fun _ h hm => ?_) fun _ _ _ => ?_
  · exact h (hm.1.fill hsel).counted
  · exact ⟨.push data hsel, id⟩

theorem ready_push {data : List (BitVec 8)} {rand : Nat} :
    m.ready (.push data rand) = decide (0 < m.numSlotsEmpty) := rfl

/-- What a call does: it ends, or it waits for what does not hold. -/
theorem call_sat {o : MboxCall P} : Sat (m.call o)
    (fun
      | .done m' notify e => Did m m' notify e ∧ (Disciplined m o → Proper m e)
      | .wait w => m.ready w = false ∧ WaitFits P w)
    (fun _ => ¬(SlotsInv m ∧ Disciplined m o)) := by
  cases o with
  | canRecv => exact ⟨.canRecv, fun _ => trivial⟩
  | recv =>
    refine Sat.bind (mboxRecv_sat.mono (fun _ h => h) fun _ h => h) fun out _ h => ?_
    exact ⟨h.1, fun _ => h.2⟩
  | alloc p =>
    refine Sat.bind (mboxAlloc_sat.mono (fun _ h => h) fun _ h => h) fun out _ h => ?_
    exact ⟨h.1, fun _ => h.2⟩
  | canSend =>
    refine Sat.bind (mboxCanSend_sat.mono (fun _ h => h) fun _ h hm => h hm.1) fun out _ h => ?_
    exact ⟨h.1, fun _ => h.2⟩
  | setLen n =>
    refine Sat.bind (mboxSetLen_sat.mono (fun _ h => h) fun _ h hm => ?_) fun out _ h => ?_
    · have := hm.2.1.symm.trans h
      cases this
    · exact ⟨h.1, fun hd => h.2 hd.2⟩
  | send address p =>
    refine Sat.bind (mboxSend_sat.mono (fun _ h => h) fun _ h => h) fun out _ h => ?_
    exact ⟨h.1, fun hd => h.2 hd.2.1⟩
  | waitUntil cond =>
    refine Sat.bind (require_sat.mono (fun _ h => h) fun _ h hm => ?_) fun _ _ _ => ?_
    · have hcond : cond ≠ 0 := hm.2
      exact hcond (by simpa using h)
    · cases hready : m.ready (.wakeup cond) with
      | true => exact ⟨.woken, fun _ => trivial⟩
      | false => exact ⟨hready, trivial⟩
  | pull block =>
    show Sat (m.netPullMessage block) _ _
    unfold netPullMessage
    cases hactive : m.sendActive with
    | false =>
      cases block with
      | true => exact ⟨hactive, trivial⟩
      | false => exact ⟨.noPull, fun _ => trivial⟩
    | true =>
      refine Sat.bind (pullActive_sat.mono (fun _ h => h) fun _ h hm => ?_) fun out _ h => ?_
      · exact h ⟨hm.1, hactive⟩
      · exact ⟨h.1, fun _ => h.2⟩
  | push dstThreadId data block rand =>
    show Sat (m.netPushMessage dstThreadId data block rand) _ _
    unfold netPushMessage
    refine Sat.bind (require_sat.mono (fun _ h => h) fun _ h hm => ?_) fun _ _ _ => ?_
    · simp [hm.2.1] at h
    refine Sat.bind (require_sat.mono (fun _ h => h) fun _ h hm => ?_) fun _ _ hfits => ?_
    · exact of_decide_eq_false h hm.2.2
    have hfits : data.length ≤ P.bytesPerMsg := of_decide_eq_true hfits
    refine Sat.bind (checkSlots_sat.mono (fun _ h => h) fun _ h hm => h hm.1.counted)
      fun _ _ _ => ?_
    by_cases hempty : m.numSlotsEmpty = 0
    · rw [if_pos hempty]
      cases block with
      | true => exact ⟨by rw [ready_push, hempty]; rfl, hfits⟩
      | false => exact ⟨.noPush, fun _ => trivial⟩
    · rw [if_neg hempty]
      refine Sat.bind (pushEmpty_sat.mono (fun _ h => h) fun _ h hm => ?_) fun out _ h => ?_
      · exact h ⟨hm.1, Nat.pos_of_ne_zero hempty⟩
      · exact ⟨h.1, fun _ => h.2 hfits⟩
  | write i buffer => exact ⟨.write i buffer, fun h => h⟩

/-- What a thread does when its wait is over. -/
theorem resume_sat (hready : m.ready w = true) : Sat (m.resume w)
    (fun out => Did m out.1 out.2.1 out.2.2 ∧ (WaitFits P w → Proper m out.2.2))
    (fun _ => ¬SlotsInv m) := by
  cases w with
  | wakeup cond => exact ⟨.woken, fun _ => trivial⟩
  | pull => exact pullActive_sat.mono (fun _ h => ⟨h.1, fun _ => h.2⟩) fun _ h hm => h ⟨hm, hready⟩
  | push data rand =>
    refine pushEmpty_sat.mono (fun _ h => h) fun _ h hm => ?_
    exact h ⟨hm, of_decide_eq_true hready⟩

theorem call_not_ready {o : MboxCall P} (h : m.call o = .ok (.wait w)) : m.ready w = false :=
  (call_sat.of_ok h).1

end TinselMbox

/-! ## Runs -/

/-- The mailbox as operations under a lock. -/
def mboxOperations (P : MboxParams) :
    Operations (TinselMbox P) (MboxCall P) MboxWait (MboxEvent P) MboxFault where
  call := TinselMbox.call
  ready := TinselMbox.ready
  resume := TinselMbox.resume
  not_ready := TinselMbox.call_not_ready

/-- The mailbox and the threads that wait at it. -/
abbrev MboxConfig (P : MboxParams) (ι : Type) := Config (TinselMbox P) MboxWait ι

/-- A run of threads that use a new mailbox as they should; the labels are the operations that
have ended. -/
def MboxRun (threadId : BitVec 32) (buffer : Fin P.msgsPerThread → MboxBuffer P)
    (ls : List (Option (MboxEvent P))) (g : MboxConfig P ι) : Prop :=
  Run (Step (mboxOperations P) Disciplined) (start (.init threadId buffer)) ls g

theorem init_slotsInv {threadId : BitVec 32} {buffer : Fin P.msgsPerThread → MboxBuffer P} :
    SlotsInv (TinselMbox.init threadId buffer) := by
  have hcount : ∀ status, MsgStatus.softwareOwned ≠ status →
      (TinselMbox.init threadId buffer).countSlots status = 0 :=
    fun status hne => Tally.tally_eq_zero_iff.2 fun _ => hne
  refine ⟨⟨hcount _ (by simp), hcount _ (by simp)⟩, fun i => ?_, nofun, nofun, nofun, nofun⟩
  simp [TinselMbox.init]

/-- What every operation keeps, of the slots and of the results so far. -/
theorem keeps_of_did {I : List (MboxEvent P) → TinselMbox P → Prop}
    (h : ∀ es m m' notify e, SlotsInv m → I es m → Proper m e → Did m m' notify e →
      I (es ++ [e]) m') :
    Keeps (mboxOperations P) Disciplined (fun es m => SlotsInv m ∧ I es m) (WaitFits P)
      (fun _ => False) where
  call es m o hm ho := by
    refine TinselMbox.call_sat.mono (fun out hout => ?_) fun _ h => h ⟨hm.1, ho⟩
    cases out with
    | done m' notify e =>
      have hproper := hout.2 ho
      exact ⟨hm.1.did hproper hout.1, h _ _ _ _ _ hm.1 hm.2 hproper hout.1⟩
    | wait w => exact hout.2
  resume es m w hm hw hready := by
    refine (TinselMbox.resume_sat hready).mono (fun out hout => ?_) fun _ h => h hm.1
    have hproper := hout.2 hw
    exact ⟨hm.1.did hproper hout.1, h _ _ _ _ _ hm.1 hm.2 hproper hout.1⟩

section Run

variable {threadId : BitVec 32} {buffer : Fin P.msgsPerThread → MboxBuffer P}
  {ls : List (Option (MboxEvent P))} {g : MboxConfig P ι}

theorem MboxRun.inv (hrun : MboxRun threadId buffer ls g) :
    SlotsInv g.shared ∧ ∀ i x, g.waiting i = some x → WaitFits P x.wait := by
  have hkeeps := keeps_of_did (P := P) (I := fun _ _ => True) fun _ _ _ _ _ _ _ _ _ => trivial
  obtain ⟨⟨hinv, -⟩, hwaits⟩ := hkeeps.run ⟨init_slotsInv, trivial⟩ (fun i x hx => by cases hx) hrun
  exact ⟨hinv, hwaits⟩

theorem SlotsInv.sendActive_iff (h : SlotsInv m) : m.sendActive = true ↔
    ∃ i, m.sendSlot = some i ∧ ∀ j, (m.slots j).status = .hardwareSend ↔ j = i := by
  constructor
  · intro hactive
    obtain ⟨i, hi⟩ := Option.ne_none_iff_exists'.1 (h.slot hactive)
    refine ⟨i, hi, fun j => ?_⟩
    rw [h.send_iff j, hi, Option.some.injEq]
    exact ⟨fun hj => hj.2.symm, fun hj => ⟨hactive, hj.symm⟩⟩
  · rintro ⟨i, -, hi⟩
    exact ((h.send_iff i).1 ((hi i).2 rfl)).1

/-- Threads that use a mailbox as they should, in any number and interleaving: the counters are
the numbers of empty and full slots, a send is active exactly where one slot is being sent and
it is `m_sendSlot`, and neither a call nor the rest of one that has waited stops, at an
assertion or at a search for a slot. -/
theorem mailbox_slots (hrun : MboxRun threadId buffer ls g) :
    g.shared.numSlotsEmpty = g.shared.countSlots .hardwareEmpty ∧
    g.shared.numSlotsFull = g.shared.countSlots .hardwareFull ∧
    (g.shared.sendActive = true ↔ ∃ i, g.shared.sendSlot = some i ∧
      ∀ j, (g.shared.slots j).status = .hardwareSend ↔ j = i) ∧
    (∀ o, Disciplined g.shared o → ∃ out, g.shared.call o = .ok out) ∧
    (∀ i x, g.waiting i = some x → g.shared.ready x.wait = true →
      ∃ out, g.shared.resume x.wait = .ok out) := by
  obtain ⟨hinv, -⟩ := hrun.inv
  refine ⟨hinv.counted.empty.symm, hinv.counted.full.symm, hinv.sendActive_iff, ?_, ?_⟩
  · intro o ho
    cases hcall : g.shared.call o with
    | ok out => exact ⟨out, rfl⟩
    | error fault => exact absurd ⟨hinv, ho⟩ (TinselMbox.call_sat.of_error hcall)
  · intro i x hx hready
    cases hresume : g.shared.resume x.wait with
    | ok out => exact ⟨out, rfl⟩
    | error fault => exact absurd hinv ((TinselMbox.resume_sat hready).of_error hresume)

end Run

/-- One slot of four bytes. -/
def smallMbox : MboxParams := ⟨0, 0, 0⟩

/-- The slot. -/
def smallSlot : Fin smallMbox.msgsPerThread := ⟨0, smallMbox.msgsPerThread_pos⟩

/-- The mailbox after `init`. -/
def smallInit : TinselMbox smallMbox := .init 0#32 fun _ _ => 0#8

/-- The slot is with software, and thread `true` waits until it can push a message. -/
def pushWaits : MboxConfig smallMbox Bool :=
  ⟨smallInit, update (fun _ => none) true (some ⟨.push [1#8] 0, false⟩)⟩

/-- Thread `false` has given the slot to the network. -/
def slotGiven : MboxConfig smallMbox Bool :=
  ⟨smallInit.giveEmpty smallSlot, notifyAll true pushWaits.waiting⟩

theorem pushWaits_run : MboxRun 0#32 (fun _ _ => 0#8) [none] pushWaits := by
  apply @Run.snoc _ _ _ _ [] none _ _ .nil
  apply Step.blocks (i := true) (o := .push 0#32 [1#8] true 0) rfl _ rfl
  exact ⟨rfl, by decide⟩

theorem slotGiven_run :
    MboxRun 0#32 (fun _ _ => 0#8) [none, some (.alloc smallSlot)] slotGiven := by
  apply @Run.snoc _ _ _ _ [none] (some (.alloc smallSlot)) _ _ pushWaits_run
  apply Step.ends (i := false) (o := .alloc (some smallSlot)) rfl _ rfl
  exact ⟨smallSlot, rfl, rfl⟩

/-- The thread that waited can push. -/
theorem mailbox_slots_slotGiven :
    slotGiven.shared.numSlotsEmpty = slotGiven.shared.countSlots .hardwareEmpty ∧
    ∃ out, slotGiven.shared.resume (.push [1#8] 0) = .ok out := by
  obtain ⟨hempty, -, -, -, hresume⟩ := mailbox_slots slotGiven_run
  have hready : slotGiven.shared.ready (.push [1#8] 0) = true := by decide
  exact ⟨hempty, hresume true ⟨.push [1#8] 0, true⟩ rfl hready⟩

/-! ## Wakeups -/

/-- An operation that does not notify makes no wait ready. -/
theorem Did.not_ready (h : Did m m' notify e) (hnotify : notify = false)
    (hready : m.ready w = false) : m'.ready w = false := by
  cases h with
  | canRecv | canSend | woken | noPull | noPush => exact hready
  | setLen => cases w <;> exact hready
  | write => cases w <;> exact hready
  | send => cases hnotify
  | pull => cases hnotify
  | push => cases hnotify
  | recv hi hpos =>
    cases w with
    | pull => exact hready
    | push => exact hready
    | wakeup cond =>
      have hless : 0 < m.numSlotsFull - 1 → 0 < m.numSlotsFull := by omega
      simp only [TinselMbox.ready, Bool.or_eq_false_iff, Bool.and_eq_false_iff] at hready ⊢
      refine hready.imp_right (Or.imp_right fun h => decide_eq_false fun hpos => ?_)
      exact of_decide_eq_false h (hless hpos)
  | alloc hi =>
    cases w with
    | pull => exact hready
    | wakeup cond => exact hready
    | push data rand =>
      -- a slot was empty already, or else the threads that wait for one are notified
      have hnone : ¬0 < m.numSlotsEmpty := of_decide_eq_false hready
      have hsome : m.numSlotsEmpty + 1 ≠ 1 := by simpa using hnotify
      omega

theorem mbox_notifies : Notifies (mboxOperations P) where
  call hcall hready := (TinselMbox.call_sat.of_ok hcall).1.not_ready rfl hready
  resume hv hresume hready := ((TinselMbox.resume_sat hv).of_ok hresume).1.not_ready rfl hready

/-- No wakeup is lost: however threads use a mailbox, where one has not been notified since it
last evaluated its predicate, that predicate does not hold. -/
theorem mailbox_noLostWakeup {threadId : BitVec 32} {buffer : Fin P.msgsPerThread → MboxBuffer P}
    {ls : List (Option (MboxEvent P))} {g : MboxConfig P ι}
    (hrun : Run (Step (mboxOperations P) fun _ _ => True) (start (.init threadId buffer)) ls g) :
    ∀ i x, g.waiting i = some x → x.notified = false → g.shared.ready x.wait = false :=
  mbox_notifies.run hrun

/-- Thread 0 waits for a slot, and thread 1 for a message to pull.  When thread 2 gives a slot, both
are notified, but thread 1 has looked, and sleeps again. -/
theorem mailbox_noLostWakeup_three : ∃ ls, ∃ g : MboxConfig smallMbox (Fin 3),
    Run (Step (mboxOperations smallMbox) fun _ _ => True) (start (.init 0#32 fun _ _ => 0#8)) ls g ∧
    g.waiting 0 = some ⟨.push [1#8] 0, true⟩ ∧ g.shared.ready (.push [1#8] 0) = true ∧
    g.waiting 1 = some ⟨.pull, false⟩ ∧ g.shared.ready .pull = false := by
  have h₀ : Run (Step (mboxOperations smallMbox) fun _ _ => True)
    (start (.init 0#32 fun _ _ => 0#8)) [] (start smallInit : MboxConfig smallMbox (Fin 3)) := .nil
  have h₁ := h₀.snoc (.blocks (i := 0) (o := .push 0#32 [1#8] true 0) rfl trivial rfl)
  have h₂ := h₁.snoc (.blocks (i := 1) (o := .pull true) rfl trivial rfl)
  have h₃ := h₂.snoc (.ends (i := 2) (o := .alloc (some smallSlot)) rfl trivial rfl)
  have h₄ := h₃.snoc (.sleeps (i := 1) (x := ⟨.pull, true⟩) rfl rfl)
  exact ⟨_, _, h₄, rfl, rfl, rfl, mailbox_noLostWakeup h₄ 1 ⟨.pull, false⟩ rfl rfl⟩

end Softswitch
