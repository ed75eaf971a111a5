import Mathlib.Data.Fintype.Card
import Softswitch.Lib.IntrusiveList
import Softswitch.Verify.Frame

/-!
# The RTS list is an intrusive list of the devices

The `prev` and `next` fields of the devices, with `rtsHead` and `rtsTail`, are the links
of an intrusive list (`PThreadContext.links`).  The operations of `softswitch_rts.cpp` are
the pointer operations of that list, and leave everything else alone (`LinksOnly`); the
sanity walk and the membership walk read the represented queue.
-/

namespace Softswitch

open Outcome IntrusiveList Function

variable {A : AppTypes} {n : Nat} {th : PThread A n} {c c' c'' : PThreadContext A n}
  {d : Fin n} {q xs ys : List (Fin n)}

namespace PThreadContext

/-- The links of the RTS list. -/
def links (c : PThreadContext A n) : Links (Fin n) where
  head := c.rtsHead
  tail := c.rtsTail
  next e := (c.devices e).next
  prev e := (c.devices e).prev

/-- The cached readiness of the devices. -/
def flags (c : PThreadContext A n) (e : Fin n) : BitVec 32 := (c.devices e).rtsFlags

/-- The states of the devices. -/
def states (c : PThreadContext A n) (e : Fin n) : A.DevState := (c.devices e).state

end PThreadContext

section Views

variable {p : Option (Fin n)} {f : BitVec 32} {s : A.DevState}

/-- Only the link that is written changes. -/
@[simp] theorem setNext_links : (c.setNext d p).links = c.links.setNext d p := by
  simp only [PThreadContext.setNext, PThreadContext.setDevice, PThreadContext.links,
    Links.setNext, Links.mk.injEq, true_and]
  constructor <;> funext e <;> by_cases h : e = d <;> simp [h]

@[simp] theorem setPrev_links : (c.setPrev d p).links = c.links.setPrev d p := by
  simp only [PThreadContext.setPrev, PThreadContext.setDevice, PThreadContext.links,
    Links.setPrev, Links.mk.injEq, true_and]
  constructor <;> funext e <;> by_cases h : e = d <;> simp [h]

@[simp] theorem setRtsFlags_links : (c.setRtsFlags d f).links = c.links := by
  simp only [PThreadContext.setRtsFlags, PThreadContext.setDevice, PThreadContext.links,
    Links.mk.injEq, true_and]
  constructor <;> funext e <;> by_cases h : e = d <;> simp [h]

@[simp] theorem setState_links : (c.setState d s).links = c.links := by
  simp only [PThreadContext.setState, PThreadContext.setDevice, PThreadContext.links,
    Links.mk.injEq, true_and]
  constructor <;> funext e <;> by_cases h : e = d <;> simp [h]

@[simp] theorem setNext_flags : (c.setNext d p).flags = c.flags := by
  funext e
  by_cases h : e = d <;>
    simp [PThreadContext.setNext, PThreadContext.setDevice, PThreadContext.flags, h]

@[simp] theorem setPrev_flags : (c.setPrev d p).flags = c.flags := by
  funext e
  by_cases h : e = d <;>
    simp [PThreadContext.setPrev, PThreadContext.setDevice, PThreadContext.flags, h]

@[simp] theorem setRtsFlags_flags : (c.setRtsFlags d f).flags = update c.flags d f := by
  funext e
  by_cases h : e = d <;>
    simp [PThreadContext.setRtsFlags, PThreadContext.setDevice, PThreadContext.flags, h]

@[simp] theorem setState_flags : (c.setState d s).flags = c.flags := by
  funext e
  by_cases h : e = d <;>
    simp [PThreadContext.setState, PThreadContext.setDevice, PThreadContext.flags, h]

@[simp] theorem setNext_states : (c.setNext d p).states = c.states := by
  funext e
  by_cases h : e = d <;>
    simp [PThreadContext.setNext, PThreadContext.setDevice, PThreadContext.states, h]

@[simp] theorem setPrev_states : (c.setPrev d p).states = c.states := by
  funext e
  by_cases h : e = d <;>
    simp [PThreadContext.setPrev, PThreadContext.setDevice, PThreadContext.states, h]

@[simp] theorem setRtsFlags_states : (c.setRtsFlags d f).states = c.states := by
  funext e
  by_cases h : e = d <;>
    simp [PThreadContext.setRtsFlags, PThreadContext.setDevice, PThreadContext.states, h]

@[simp] theorem setState_states : (c.setState d s).states = update c.states d s := by
  funext e
  by_cases h : e = d <;>
    simp [PThreadContext.setState, PThreadContext.setDevice, PThreadContext.states, h]

end Views

/-! ## Frames -/

/-- `c'` differs from `c` in the links of the RTS list only. -/
def LinksOnly (c c' : PThreadContext A n) : Prop :=
  ∃ (devs : Fin n → DeviceContext A n) (head tail : Option (Fin n)),
    c' = { c with devices := devs, rtsHead := head, rtsTail := tail } ∧
    c'.flags = c.flags ∧ c'.states = c.states

namespace LinksOnly

/-- Nothing has changed. -/
theorem refl (c : PThreadContext A n) : LinksOnly c c := ⟨_, _, _, rfl, rfl, rfl⟩

theorem trans (h₁ : LinksOnly c c') (h₂ : LinksOnly c' c'') : LinksOnly c c'' := by
  obtain ⟨_, _, _, rfl, hf₁, hs₁⟩ := h₁
  obtain ⟨_, _, _, rfl, hf₂, hs₂⟩ := h₂
  exact ⟨_, _, _, rfl, hf₂.trans hf₁, hs₂.trans hs₁⟩

theorem flags_eq (h : LinksOnly c c') : c'.flags = c.flags := by
  obtain ⟨_, _, _, _, h, _⟩ := h
  exact h

theorem states_eq (h : LinksOnly c c') : c'.states = c.states := by
  obtain ⟨_, _, _, _, _, h⟩ := h
  exact h

theorem setNext {p : Option (Fin n)} : LinksOnly c (c.setNext d p) :=
  ⟨_, _, _, rfl, setNext_flags, setNext_states⟩

theorem setPrev {p : Option (Fin n)} : LinksOnly c (c.setPrev d p) :=
  ⟨_, _, _, rfl, setPrev_flags, setPrev_states⟩

theorem setEnds {head tail : Option (Fin n)} :
    LinksOnly c { c with rtsHead := head, rtsTail := tail } :=
  ⟨_, _, _, rfl, rfl, rfl⟩

end LinksOnly

/-- What neither the bookkeeping of the RTS list nor a handler service changes. -/
structure Frame (c c' : PThreadContext A n) : Prop where
  tracking : c'.toTracking = c.toTracking
  perf : c'.toPerf = c.toPerf
  lamport : c'.lamport = c.lamport
  rtcOffset : c'.rtcOffset = c.rtcOffset
  currentSize : c'.currentSize = c.currentSize
  edgeState : c'.edgeState = c.edgeState
  mboxLen : c'.mboxLen = c.mboxLen
  counted : c.Counted → c'.Counted
  sig : c'.sig = c.sig

namespace Frame

theorem refl (c : PThreadContext A n) : Frame c c :=
  ⟨rfl, rfl, rfl, rfl, rfl, rfl, rfl, id, rfl⟩

theorem trans (h₁ : Frame c c') (h₂ : Frame c' c'') : Frame c c'' :=
  ⟨h₂.tracking.trans h₁.tracking, h₂.perf.trans h₁.perf, h₂.lamport.trans h₁.lamport,
    h₂.rtcOffset.trans h₁.rtcOffset, h₂.currentSize.trans h₁.currentSize,
    h₂.edgeState.trans h₁.edgeState, h₂.mboxLen.trans h₁.mboxLen,
    fun h => h₂.counted (h₁.counted h), h₂.sig.trans h₁.sig⟩

theorem setDevice {v : DeviceContext A n} : Frame c (c.setDevice d v) :=
  ⟨rfl, rfl, rfl, rfl, rfl, rfl, rfl, id, rfl⟩

end Frame

/-- The links are part of what a frame leaves open. -/
theorem LinksOnly.frame (h : LinksOnly c c') : Frame c c' := by
  obtain ⟨_, _, _, rfl, _, _⟩ := h
  exact ⟨rfl, rfl, rfl, rfl, rfl, rfl, rfl, id, rfl⟩

theorem LinksOnly.rtcChecked (h : LinksOnly c c') : c'.rtcChecked = c.rtcChecked := by
  obtain ⟨_, _, _, rfl, _, _⟩ := h
  rfl

/-- Messages to the host change no device. -/
theorem HostStep.frame (h : HostStep c c') : Frame c c' := by
  have hsig := h.sig_eq
  obtain ⟨_, _, _, hb, rfl⟩ := h
  exact ⟨rfl, rfl, rfl, rfl, rfl, rfl, rfl, hb, hsig⟩

/-- The list is not touched by messages to the host. -/
theorem HostStep.links_eq (h : HostStep c c') : c'.links = c.links := by
  obtain ⟨_, _, _, _, rfl⟩ := h
  rfl

theorem HostStep.flags_eq (h : HostStep c c') : c'.flags = c.flags := by
  obtain ⟨_, _, _, _, rfl⟩ := h
  rfl

theorem HostStep.states_eq (h : HostStep c c') : c'.states = c.states := by
  obtain ⟨_, _, _, _, rfl⟩ := h
  rfl

theorem HostStep.rtcChecked (h : HostStep c c') : c'.rtcChecked = c.rtcChecked := by
  obtain ⟨_, _, _, _, rfl⟩ := h
  rfl

/-! ## The walks -/

/-- The membership walk decides membership in the represented queue. -/
theorem rtsIsOnListFrom_eq {fuel : Nat} {p : Option (Fin n)} (hfuel : q.length ≤ fuel)
    (h : Seg c.links.next p q none) :
    rtsIsOnListFrom c d fuel p = .ok (decide (d ∈ q)) := by
  induction q generalizing fuel p with
  | nil =>
    obtain rfl : p = none := h
    unfold rtsIsOnListFrom
    rfl
  | cons k q ih =>
    obtain ⟨rfl, hq⟩ := h
    cases fuel with
    | zero => simp at hfuel
    | succ fuel =>
      unfold rtsIsOnListFrom
      split
      · rename_i hk
        simp [hk]
      · rename_i hk
        rw [show (c.devices k).next = c.links.next k from rfl,
          ih (Nat.le_of_succ_le_succ hfuel) hq]
        simp [Ne.symm hk]

/-- On a well-linked list, the walk answers whether the device is in it. -/
theorem rtsIsOnList_eq (h : Rep c.links q) : rtsIsOnList c d = .ok (decide (d ∈ q)) :=
  rtsIsOnListFrom_eq (by simpa using h.nodup.length_le_card) h.forward

/-- The walk can only fail by not ending. -/
theorem rtsIsOnListFrom_sat {fuel : Nat} {p : Option (Fin n)} :
    Sat (rtsIsOnListFrom c d fuel p) (fun _ => True) (fun s => s = ⟨.diverges, c⟩) := by
  induction fuel generalizing p with
  | zero => cases p <;> simp [rtsIsOnListFrom, PThreadContext.fail]
  | succ fuel ih =>
    cases p with
    | none => simp [rtsIsOnListFrom]
    | some k =>
      unfold rtsIsOnListFrom
      split
      · trivial
      · exact ih

/-- A device of the represented queue passes the two assertions on its neighbours. -/
theorem rtsSanityLinks_eq (h : Rep c.links (xs ++ d :: ys)) : rtsSanityLinks th c d = .ok () := by
  have hfirst : c.links.prev d = none → c.links.head = some d := by
    rw [h.prev_eq, List.getLast?_eq_none_iff, h.head_eq_some_iff]
    exact id
  have hlast : c.links.next d = none → c.links.tail = some d := by
    rw [h.next_eq, List.head?_eq_none_iff, h.tail_eq_some_iff]
    exact id
  have hprev := fun p (hp : c.links.prev d = some p) => h.next_of_prev hp
  have hnext := fun s (hs : c.links.next d = some s) => h.prev_of_next hs
  simp only [PThreadContext.links] at hfirst hlast hprev hnext
  unfold rtsSanityLinks
  cases hp : (c.devices d).prev with
  | none =>
    cases hs : (c.devices d).next with
    | none => simp [hfirst hp, hlast hs]
    | some s =>
      simp [hfirst hp, PThreadContext.deref, hnext s hs, check_true]
  | some p =>
    cases hs : (c.devices d).next with
    | none => simp [hlast hs, PThreadContext.deref, hprev p hp, check_true]
    | some s => simp [PThreadContext.deref, hprev p hp, hnext s hs, check_true]

/-- The walk along devices that all want to send finds nothing wrong. -/
theorem rtsSanityFrom_eq {fuel : Nat} (hfuel : ys.length ≤ fuel) (h : Rep c.links (xs ++ ys))
    (hf : ∀ e ∈ ys, wantsSend (c.flags e) = true) :
    rtsSanityFrom th c fuel ys.head? = .ok () := by
  induction ys generalizing xs fuel with
  | nil =>
    unfold rtsSanityFrom
    rfl
  | cons k ys ih =>
    cases fuel with
    | zero => simp at hfuel
    | succ fuel =>
      have hk : wantsSend (c.devices k).rtsFlags = true := hf k List.mem_cons_self
      have hn : (c.devices k).next = ys.head? := h.next_eq
      rw [List.head?_cons]
      unfold rtsSanityFrom
      rw [hk, check_true, ok_bind, rtsSanityLinks_eq h, ok_bind, hn]
      have h' : Rep c.links ((xs ++ [k]) ++ ys) := by simpa using h
      exact ih (Nat.le_of_succ_le_succ hfuel) h' fun e he => hf e (List.mem_cons_of_mem k he)

/-- The sanity checks pass where all listed devices want to send. -/
theorem rtsSanity_eq (h : Rep c.links q) (hf : ∀ e ∈ q, wantsSend (c.flags e) = true) :
    rtsSanity th c = .ok () := by
  unfold rtsSanity
  split
  · have hhead : c.rtsHead = q.head? := h.head_eq
    have htail : c.rtsTail.isSome = c.rtsHead.isSome := by
      rw [hhead, show c.rtsTail = q.getLast? from h.tail_eq]
      cases q <;> simp
    split
    · rename_i hsome
      have h₀ : Rep c.links ([] ++ q) := h
      rw [htail, hsome, check_true, ok_bind, hhead]
      exact rtsSanityFrom_eq (by simpa using h.nodup.length_le_card) h₀ hf
    · rename_i hnone
      have : c.rtsHead.isNone = true := by simpa using hnone
      rw [this, check_true]
  · rfl

/-- The sanity checks stop at a listed device that does not want to send. -/
theorem rtsSanityFrom_stops {fuel : Nat} (ha : th.build.asserts = true) (hfuel : ys.length ≤ fuel)
    (h : Rep c.links (xs ++ ys)) (hf : ∃ e ∈ ys, wantsSend (c.flags e) = false) :
    rtsSanityFrom th c fuel ys.head? = .error ⟨.assertion .rtsSanity, c⟩ := by
  induction ys generalizing xs fuel with
  | nil => simp at hf
  | cons k ys ih =>
    cases fuel with
    | zero => simp at hfuel
    | succ fuel =>
      have hn : (c.devices k).next = ys.head? := h.next_eq
      rw [List.head?_cons]
      unfold rtsSanityFrom
      cases hk : wantsSend (c.devices k).rtsFlags with
      | false => simp [PThread.check, ha, PThreadContext.fail]
      | true =>
        rw [check_true, ok_bind, rtsSanityLinks_eq h, ok_bind, hn]
        have h' : Rep c.links ((xs ++ [k]) ++ ys) := by simpa using h
        refine ih (Nat.le_of_succ_le_succ hfuel) h' ?_
        obtain ⟨e, he, hfe⟩ := hf
        rcases List.mem_cons.1 he with rfl | he
        · rw [show c.flags e = (c.devices e).rtsFlags from rfl, hk] at hfe
          cases hfe
        · exact ⟨e, he, hfe⟩

/-- A device in the list that does not want to send is found, if assertions are compiled in. -/
theorem rtsSanity_stops (ha : th.build.asserts = true) (h : Rep c.links q)
    (hf : ∃ e ∈ q, wantsSend (c.flags e) = false) :
    rtsSanity th c = .error ⟨.assertion .rtsSanity, c⟩ := by
  obtain ⟨e, he, -⟩ := id hf
  have hhead : c.rtsHead = q.head? := h.head_eq
  have htail : c.rtsTail = q.getLast? := h.tail_eq
  obtain ⟨k, ks, rfl⟩ := List.exists_cons_of_ne_nil (List.ne_nil_of_mem he)
  have h₀ : Rep c.links ([] ++ k :: ks) := h
  unfold rtsSanity
  rw [if_pos ha, hhead, htail]
  simp only [List.head?_cons, Option.isSome_some, if_true, List.getLast?_cons, check_true, ok_bind]
  exact rtsSanityFrom_stops ha (by simpa using h.nodup.length_le_card) h₀ hf

/-! ## The list operations -/

theorem rtsIsOnListFrom_reads {fuel : Nat} {p : Option (Fin n)} :
    Reads c (rtsIsOnListFrom c d fuel p) :=
  rtsIsOnListFrom_sat.mono (fun _ h => h) fun s h => by rw [h]

/-- Looking at the list changes nothing. -/
theorem rtsIsOnList_reads {f : Bool → Bool} :
    Reads c (rtsIsOnList c d >>= fun b => .ok (f b)) :=
  rtsIsOnListFrom_reads.bind fun _ => trivial

theorem rtsSanityLinks_reads : Reads c (rtsSanityLinks th c d) := by
  have hnext : Reads c (if (c.devices d).next.isNone && c.rtsTail == some d then pure () else do
      let s ← c.deref .nullDeref (c.devices d).next
      th.check c .rtsSanity ((c.devices s).prev == some d)) := by
    split
    · trivial
    · exact deref_reads.bind fun _ => check_reads
  unfold rtsSanityLinks
  dsimp only
  split
  · exact hnext
  · exact deref_reads.bind fun _ => check_reads.bind fun _ => hnext

theorem rtsSanityFrom_reads {fuel : Nat} {p : Option (Fin n)} :
    Reads c (rtsSanityFrom th c fuel p) := by
  induction fuel generalizing p with
  | zero =>
    cases p with
    | none => trivial
    | some k => rfl
  | succ fuel ih =>
    cases p with
    | none => trivial
    | some k =>
      unfold rtsSanityFrom
      exact check_reads.bind fun _ => rtsSanityLinks_reads.bind fun _ => ih

/-- The checks change nothing, whatever they find. -/
theorem rtsSanity_reads : Reads c (rtsSanity th c) := by
  unfold rtsSanity
  split
  · split
    · exact check_reads.bind fun _ => rtsSanityFrom_reads
    · exact check_reads
  · trivial

theorem setEnds_links {head tail : Option (Fin n)} :
    ({ c with rtsHead := head, rtsTail := tail } : PThreadContext A n).links =
      { c.links with head := head, tail := tail } := rfl

/-- The device is put behind the last one. -/
theorem rtsAppendLinks_spec :
    LinksOnly c (rtsAppendLinks c d) ∧ (rtsAppendLinks c d).links = c.links.pushBack d := by
  have hprep : ∀ p, LinksOnly c ((c.setPrev d p).setNext d none) :=
    fun p => LinksOnly.setPrev.trans LinksOnly.setNext
  unfold rtsAppendLinks Links.pushBack
  simp only [show c.links.tail = c.rtsTail from rfl,
    show ((c.setPrev d c.rtsTail).setNext d none).rtsTail = c.rtsTail from rfl]
  cases c.rtsTail with
  | none =>
    refine ⟨(hprep none).trans LinksOnly.setEnds, ?_⟩
    simp only [setEnds_links, setNext_links, setPrev_links]
  | some t =>
    dsimp only
    refine ⟨((hprep (some t)).trans LinksOnly.setNext).trans LinksOnly.setEnds, ?_⟩
    rw [← setPrev_links, ← setNext_links, ← setNext_links]
    rfl

/-- The first half of `rts_remove`: the neighbour behind is linked past the device. -/
theorem rtsRemoveNext_sat :
    Sat (rtsRemoveNext c d)
      (fun c' => LinksOnly c c' ∧ c'.links = c.links.dropNext d) (fun s => s.ctxt = c) := by
  unfold rtsRemoveNext Links.dropNext
  simp only [show c.links.head = c.rtsHead from rfl,
    show c.links.prev d = (c.devices d).prev from rfl,
    show c.links.next d = (c.devices d).next from rfl]
  split
  · exact ⟨LinksOnly.setEnds, rfl⟩
  · cases (c.devices d).prev with
    | none => rfl
    | some p => exact ⟨LinksOnly.setNext, setNext_links⟩

/-- The second half of `rts_remove`: the neighbour before is linked past the device. -/
theorem rtsRemovePrev_sat :
    Sat (rtsRemovePrev c d)
      (fun c' => LinksOnly c c' ∧ c'.links = c.links.dropPrev d) (fun s => s.ctxt = c) := by
  unfold rtsRemovePrev Links.dropPrev
  simp only [show c.links.tail = c.rtsTail from rfl,
    show c.links.prev d = (c.devices d).prev from rfl,
    show c.links.next d = (c.devices d).next from rfl]
  split
  · exact ⟨LinksOnly.setEnds, rfl⟩
  · cases (c.devices d).next with
    | none => rfl
    | some s => exact ⟨LinksOnly.setPrev, setPrev_links⟩

/-- The first device is taken off the list. -/
theorem rtsPopLinks_spec (hd : c.rtsHead = some d) :
    LinksOnly c (rtsPopLinks c d) ∧ (rtsPopLinks c d).links = c.links.popFront := by
  unfold rtsPopLinks Links.popFront
  simp only [show c.links.head = c.rtsHead from rfl, hd,
    show c.links.next d = (c.devices d).next from rfl]
  cases (c.devices d).next with
  | none => exact ⟨LinksOnly.setEnds, rfl⟩
  | some s =>
    refine ⟨LinksOnly.setPrev.trans LinksOnly.setEnds, ?_⟩
    dsimp only
    rw [← setPrev_links]
    rfl

/-- `rts_append` appends, and changes nothing but links even where it stops. -/
theorem rtsAppend_sat :
    Sat (rtsAppend th c d) (fun c' => LinksOnly c c' ∧ c'.links = c.links.pushBack d)
      (fun s => LinksOnly c s.ctxt) := by
  unfold rtsAppend
  refine rtsSanity_reads.then (E := LinksOnly c) (LinksOnly.refl c) fun _ _ => ?_
  refine (checkM_reads rtsIsOnList_reads).then (LinksOnly.refl c) fun _ _ => ?_
  exact rtsSanity_reads.then rtsAppendLinks_spec.1 fun _ _ => rtsAppendLinks_spec

/-- If it does not stop, `rts_remove` unlinks the device, and touches nothing else. -/
theorem rtsRemove_sat :
    Sat (rtsRemove th c d) (fun c' => LinksOnly c c' ∧ c'.links = c.links.unlink d)
      (fun s => LinksOnly c s.ctxt) := by
  unfold rtsRemove
  refine rtsSanity_reads.then (E := LinksOnly c) (LinksOnly.refl c) fun _ _ => ?_
  refine (checkM_reads rtsIsOnListFrom_reads).then (LinksOnly.refl c) fun _ _ => ?_
  refine check_reads.then (LinksOnly.refl c) fun _ _ => ?_
  refine Sat.bind (rtsRemoveNext_sat.mono (fun _ h => h) ?_) fun c₁ _ h₁ => ?_
  · rintro s rfl
    exact LinksOnly.refl s.ctxt
  refine Sat.bind (rtsRemovePrev_sat.mono (fun _ h => h) ?_) fun c₂ _ h₂ => ?_
  · rintro s rfl
    exact h₁.1
  refine rtsSanity_reads.then (h₁.1.trans h₂.1) fun _ _ => ?_
  refine ⟨h₁.1.trans h₂.1, ?_⟩
  rw [h₂.2, h₁.2]
  rfl

/-- If it does not stop, `rts_pop` returns the first device and takes it off the list. -/
theorem rtsPop_sat :
    Sat (rtsPop th c)
      (fun r => r.1 = c.rtsHead ∧ LinksOnly c r.2 ∧ r.2.links = c.links.popFront)
      (fun s => LinksOnly c s.ctxt) := by
  unfold rtsPop
  refine rtsSanity_reads.then (E := LinksOnly c) (LinksOnly.refl c) fun _ _ => ?_
  cases hh : c.rtsHead with
  | none =>
    refine rtsSanity_reads.then (LinksOnly.refl c) fun _ _ => ⟨rfl, LinksOnly.refl c, ?_⟩
    simp [Links.popFront, show c.links.head = c.rtsHead from rfl, hh]
  | some head =>
    refine check_reads.then (LinksOnly.refl c) fun _ _ => ?_
    have hspec := rtsPopLinks_spec hh
    exact rtsSanity_reads.then hspec.1 fun _ _ => ⟨rfl, hspec⟩

end Softswitch
