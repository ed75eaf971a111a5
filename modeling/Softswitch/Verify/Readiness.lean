import Mathlib.Data.List.Basic
import Softswitch.Verify.Rts

/-!
# The RTS list is the queue of the devices that want to send

`IsQueue c q` says that the RTS list of `c` represents `q` and holds the devices whose
cached flags have an output bit.  `softswitch_UpdateRTS` calls the readiness handler of a
device, stores the flags and relinks the device; on the queue this is `requeue`.
-/

namespace Softswitch

open Outcome IntrusiveList Function

variable {A : AppTypes} {n : Nat} {th : PThread A n} {c c' c'' : PThreadContext A n}
  {d : Fin n} {q : List (Fin n)} {flags : BitVec 32}

/-- The RTS list is the queue `q`, and `q` holds the devices that want to send. -/
structure IsQueue (c : PThreadContext A n) (q : List (Fin n)) : Prop where
  rep : Rep c.links q
  mem_iff : ∀ e, e ∈ q ↔ wantsSend (c.flags e) = true

namespace IsQueue

theorem of_links_flags (h : IsQueue c q) (hl : c'.links = c.links) (hf : c'.flags = c.flags) :
    IsQueue c' q :=
  ⟨h.rep.congr hl, fun e => by rw [hf]; exact h.mem_iff e⟩

theorem wantsSend_of_mem (h : IsQueue c q) : ∀ e ∈ q, wantsSend (c.flags e) = true :=
  fun e he => (h.mem_iff e).1 he

theorem rtsHead_eq (h : IsQueue c q) : c.rtsHead = q.head? := h.rep.head_eq

theorem eq_cons (h : IsQueue c q) (hd : c.rtsHead = some d) : ∃ q', q = d :: q' :=
  List.head?_eq_some_iff.1 (h.rtsHead_eq.symm.trans hd)

theorem sanity (h : IsQueue c q) : rtsSanity th c = .ok () :=
  rtsSanity_eq h.rep h.wantsSend_of_mem

/-- The list membership assertions hold. -/
theorem checkOnList (h : IsQueue c q) {a : Assertion} : checkOnList th c a d = .ok () := by
  have hmem : wantsSend (c.devices d).rtsFlags = decide (d ∈ q) := by
    rw [Bool.eq_iff_iff, decide_eq_true_iff]
    exact (h.mem_iff d).symm
  unfold Softswitch.checkOnList
  rw [rtsIsOnList_eq h.rep, ok_bind, hmem, beq_self_eq_true]
  exact checkM_ok

end IsQueue

theorem checkOnList_reads {a : Assertion} : Reads c (checkOnList th c a d) :=
  checkM_reads rtsIsOnList_reads

/-! ## The list operations on a queue -/

theorem rtsAppend_ok (th : PThread A n) (h : Rep c.links q)
    (hf : ∀ e ∈ q, wantsSend (c.flags e) = true) (hd : d ∉ q)
    (hdf : wantsSend (c.flags d) = true) : ∃ c', rtsAppend th c d = .ok c' := by
  have hspec := rtsAppendLinks_spec (c := c) (d := d)
  have hrep : Rep (rtsAppendLinks c d).links (q ++ [d]) := (h.pushBack hd).congr hspec.2
  have hsanity : rtsSanity th (rtsAppendLinks c d) = .ok () := by
    refine rtsSanity_eq hrep fun e he => ?_
    rw [hspec.1.flags_eq]
    rcases List.mem_append.1 he with he | he
    · exact hf e he
    · rw [List.mem_singleton.1 he]
      exact hdf
  refine ⟨rtsAppendLinks c d, ?_⟩
  unfold rtsAppend
  rw [rtsSanity_eq h hf, ok_bind, rtsIsOnList_eq h, ok_bind, decide_eq_false hd, Bool.not_false,
    checkM_ok, ok_bind]
  dsimp only
  rw [hsanity, ok_bind, pure_eq_ok]

/-- `rts_remove` finds the device it is to remove among the listed ones, and without output
bits: its first sanity check stops. -/
theorem rtsRemove_stops (ha : th.build.asserts = true) (h : Rep c.links q) (hd : d ∈ q)
    (hdf : wantsSend (c.flags d) = false) :
    rtsRemove th c d = .error ⟨.assertion .rtsSanity, c⟩ := by
  unfold rtsRemove
  rw [rtsSanity_stops ha h ⟨d, hd, hdf⟩, error_bind]

theorem rtsSanity_of_noAsserts (ha : th.build.asserts = false) : rtsSanity th c = .ok () := by
  simp [rtsSanity, ha]

/-- Without assertions `rts_remove` unlinks. -/
theorem rtsRemove_ok (ha : th.build.asserts = false) (h : Rep c.links q) (hd : d ∈ q) :
    ∃ c', rtsRemove th c d = .ok c' := by
  obtain ⟨xs, ys, rfl⟩ := List.append_of_mem hd
  have hnext : ∃ c₁, rtsRemoveNext c d = .ok c₁ := by
    unfold rtsRemoveNext
    split
    · exact ⟨_, rfl⟩
    · rename_i hne
      have hxs : xs ≠ [] := fun hxs => hne (h.head_eq_some_iff.2 hxs)
      obtain ⟨p, hp⟩ := Option.ne_none_iff_exists'.1 (mt List.getLast?_eq_none_iff.1 hxs)
      rw [show (c.devices d).prev = some p from h.prev_eq.trans hp]
      exact ⟨_, rfl⟩
  obtain ⟨c₁, hc₁⟩ := hnext
  have hspec := rtsRemoveNext_sat.of_ok hc₁
  have hprev : ∃ c₂, rtsRemovePrev c₁ d = .ok c₂ := by
    unfold rtsRemovePrev
    split
    · exact ⟨_, rfl⟩
    · rename_i hne
      have htail : c₁.rtsTail = c.rtsTail := by
        show c₁.links.tail = c.links.tail
        rw [hspec.2, Rep.dropNext_tail]
      have hself : c.links.prev d ≠ some d := by
        intro hp
        have hn := h.next_of_prev hp
        rw [h.next_eq, List.head?_eq_some_iff] at hn
        obtain ⟨zs, rfl⟩ := hn
        have hnodup := h.nodup
        simp [List.nodup_append] at hnodup
      have hys : ys ≠ [] := fun hys => hne (htail.trans (h.tail_eq_some_iff.2 hys))
      obtain ⟨s, hs⟩ := Option.ne_none_iff_exists'.1 (mt List.head?_eq_none_iff.1 hys)
      have hn : (c₁.devices d).next = some s := by
        show c₁.links.next d = some s
        rw [hspec.2, Rep.dropNext_next_self hself, h.next_eq, hs]
      rw [hn]
      exact ⟨_, rfl⟩
  obtain ⟨c₂, hc₂⟩ := hprev
  refine ⟨c₂, ?_⟩
  unfold rtsRemove
  rw [rtsSanity_of_noAsserts ha, ok_bind, checkM_of_noAsserts ha, ok_bind,
    check_of_noAsserts ha, ok_bind, hc₁, ok_bind, hc₂, ok_bind, rtsSanity_of_noAsserts ha,
    ok_bind, pure_eq_ok]

theorem softswitchPopRTS_nil (th : PThread A n) (h : IsQueue c []) :
    softswitchPopRTS th c = .ok (none, c) := by
  have hhead : c.rtsHead = none := h.rtsHead_eq
  unfold softswitchPopRTS rtsPop
  simp only [h.sanity, ok_bind, hhead, pure_eq_ok]

/-- `softswitch_PopRTS` takes the first device off. -/
theorem softswitchPopRTS_ok (th : PThread A n) (h : IsQueue c q) :
    ∃ c', softswitchPopRTS th c = .ok (q.head?, c') ∧ LinksOnly c c' ∧ Rep c'.links q.tail := by
  cases q with
  | nil => exact ⟨c, softswitchPopRTS_nil th h, LinksOnly.refl c, h.rep⟩
  | cons d q =>
    have hhead : c.rtsHead = some d := h.rtsHead_eq
    have hspec := rtsPopLinks_spec hhead
    have hrep : Rep (rtsPopLinks c d).links q := h.rep.popFront.congr hspec.2
    have hsanity : rtsSanity th (rtsPopLinks c d) = .ok () := by
      refine rtsSanity_eq hrep fun e he => ?_
      rw [hspec.1.flags_eq]
      exact h.wantsSend_of_mem e (List.mem_cons_of_mem d he)
    have hrep₀ : Rep c.links ([] ++ d :: q) := h.rep
    have hprev : (c.devices d).prev = none := hrep₀.prev_eq
    refine ⟨rtsPopLinks c d, ?_, hspec.1, hrep⟩
    unfold softswitchPopRTS rtsPop
    rw [h.sanity, ok_bind, hhead]
    dsimp only
    rw [hprev, Option.isNone_none, check_true, ok_bind, hsanity, ok_bind, pure_eq_ok,
      List.head?_cons]

/-! ## Calling the readiness handler -/

/-- What the readiness handler of `d` returns in the state `s`. -/
def readyResult (th : PThread A n) (d : Fin n) (s : A.DevState) : ReadyResult A.DevState :=
  (th.device d).vtable.readyToSendHandler th.graphProps (th.device d).properties s

theorem callReadyToSend_sat :
    Sat (callReadyToSend th c d)
      (fun r => r.1 = (readyResult th d (c.states d)).flags ∧
        HostStep (c.setState d (readyResult th d (c.states d)).state) r.2)
      (fun s => HostStep (c.setState d (readyResult th d (c.states d)).state) s.ctxt ∧
        s.fault.isRts = false) :=
  Sat.bind runCalls_service fun _ _ h => ⟨rfl, h⟩

/-! ## Relinking -/

/-- What storing new flags does to the links. -/
def relink (l : Links (Fin n)) (d : Fin n) (before now : Bool) : Links (Fin n) :=
  if before = now then l else if now then l.pushBack d else l.unlink d

/-- What storing new flags does to the queue: a device that becomes ready goes to the end,
one that stops being ready leaves, and otherwise the queue stays. -/
def requeue (q : List (Fin n)) (d : Fin n) (before now : Bool) : List (Fin n) :=
  if before = now then q else if now then q ++ [d] else q.erase d

theorem relink_rep {l : Links (Fin n)} {before now : Bool} (h : Rep l q)
    (hbefore : d ∈ q ↔ before = true) :
    Rep (relink l d before now) (requeue q d before now) := by
  unfold relink requeue
  split
  · exact h
  · rename_i hne
    cases now with
    | true =>
      have hd : d ∉ q := fun hd => hne (hbefore.1 hd)
      exact h.pushBack hd
    | false =>
      have hd : d ∈ q := hbefore.2 (by simpa using hne)
      obtain ⟨xs, ys, rfl⟩ := List.append_of_mem hd
      have hxs : d ∉ xs := by
        have hn := h.nodup
        rw [List.nodup_append] at hn
        exact fun hx => hn.2.2 d hx d List.mem_cons_self rfl
      rw [if_neg (by simp), if_neg (by simp), List.erase_append_right _ hxs, List.erase_cons_head]
      exact h.unlink

theorem mem_requeue {before now : Bool} {e : Fin n} (hq : q.Nodup)
    (hbefore : d ∈ q ↔ before = true) :
    e ∈ requeue q d before now ↔ if e = d then now = true else e ∈ q := by
  unfold requeue
  by_cases he : e = d
  · subst he
    rw [if_pos rfl]
    cases before <;> cases now <;> simp_all [hq.not_mem_erase]
  · rw [if_neg he]
    split
    · rfl
    · split
      · simp [he]
      · exact List.mem_erase_of_ne he

/-! ## Storing the flags -/

/-- What `softswitch_UpdateRTS` does to all but the links of the list, when the readiness
handler of `d` leaves the state `state` and returns the flags `now`. -/
structure Updated (c : PThreadContext A n) (d : Fin n) (state : A.DevState) (now : BitVec 32)
    (c' : PThreadContext A n) : Prop where
  frame : Frame c c'
  states : c'.states = update c.states d state
  flags : c'.flags = update c.flags d now
  rtcChecked : c'.rtcChecked = if wantsCompute now then 0 else c.rtcChecked

/-- The context before the list is edited. -/
def storedFlags (c : PThreadContext A n) (d : Fin n) (flags : BitVec 32) : PThreadContext A n :=
  (if wantsCompute flags then { c with rtcChecked := 0 } else c).setRtsFlags d flags

theorem storedFlags_links : (storedFlags c d flags).links = c.links := by
  unfold storedFlags
  rw [setRtsFlags_links]
  split <;> rfl

theorem storedFlags_flags : (storedFlags c d flags).flags = update c.flags d flags := by
  unfold storedFlags
  rw [setRtsFlags_flags]
  split <;> rfl

theorem storedFlags_states : (storedFlags c d flags).states = c.states := by
  unfold storedFlags
  rw [setRtsFlags_states]
  split <;> rfl

theorem storedFlags_rtcChecked :
    (storedFlags c d flags).rtcChecked = if wantsCompute flags then 0 else c.rtcChecked := by
  unfold storedFlags
  split <;> rfl

theorem storedFlags_frame : Frame c (storedFlags c d flags) := by
  unfold storedFlags
  split
  · exact ⟨rfl, rfl, rfl, rfl, rfl, rfl, rfl, id, rfl⟩
  · exact Frame.setDevice

/-- `rtsStoreFlags` with its early assignments made. -/
theorem rtsStoreFlags_eq :
    rtsStoreFlags th c d flags = (do
      let c₀ := if wantsCompute flags then { c with rtcChecked := 0 } else c
      th.checkM c₀ .updateRTSOnList
        (rtsIsOnList c₀ d >>= fun b => .ok (wantsSend (c.flags d) == b))
      if wantsSend (c.flags d) = wantsSend flags then .ok (storedFlags c d flags)
      else if wantsSend flags then rtsAppend th (storedFlags c d flags) d
      else rtsRemove th (storedFlags c d flags) d) := by
  have hdev : ((if wantsCompute flags then { c with rtcChecked := 0 } else c).devices d).rtsFlags =
      c.flags d := by
    split <;> rfl
  unfold rtsStoreFlags
  dsimp only
  rw [hdev]
  rfl

theorem rtsStoreFlags_sat :
    Sat (rtsStoreFlags th c d flags)
      (fun c' => LinksOnly (storedFlags c d flags) c' ∧
        c'.links = relink c.links d (wantsSend (c.flags d)) (wantsSend flags))
      (fun s => Frame c s.ctxt) := by
  rw [rtsStoreFlags_eq]
  refine (checkM_reads rtsIsOnList_reads).then (E := Frame c) ?_ fun _ _ => ?_
  · split
    · exact ⟨rfl, rfl, rfl, rfl, rfl, rfl, rfl, id, rfl⟩
    · exact Frame.refl c
  have hstop : ∀ s : Stop A n, LinksOnly (storedFlags c d flags) s.ctxt → Frame c s.ctxt :=
    fun s h => storedFlags_frame.trans h.frame
  unfold relink
  split
  · exact ⟨LinksOnly.refl _, storedFlags_links⟩
  · split
    · exact rtsAppend_sat.mono (fun c' h => ⟨h.1, h.2.trans (by rw [storedFlags_links])⟩) hstop
    · exact rtsRemove_sat.mono (fun c' h => ⟨h.1, h.2.trans (by rw [storedFlags_links])⟩) hstop

/-- `softswitch_UpdateRTS`, whatever the list looks like. -/
theorem softswitchUpdateRTS_sat :
    Sat (softswitchUpdateRTS th c d)
      (fun c' => Updated c d (readyResult th d (c.states d)).state
          (readyResult th d (c.states d)).flags c' ∧
        c'.links = relink c.links d (wantsSend (c.flags d))
          (wantsSend (readyResult th d (c.states d)).flags))
      (fun s => Frame c s.ctxt) := by
  have hset : Frame c (c.setState d (readyResult th d (c.states d)).state) := Frame.setDevice
  unfold softswitchUpdateRTS
  refine rtsSanity_reads.then (Frame.refl c) fun _ _ => ?_
  refine Sat.bind (callReadyToSend_sat.mono (fun _ h => h) ?_) fun r _ hr => ?_
  · exact fun s h => hset.trans h.1.frame
  obtain ⟨f, c₁⟩ := r
  obtain ⟨rfl, hstep⟩ := hr
  refine Sat.mono rtsStoreFlags_sat (fun c' h => ⟨⟨?_, ?_, ?_, ?_⟩, ?_⟩) ?_
  · exact ((hset.trans hstep.frame).trans storedFlags_frame).trans h.1.frame
  · rw [h.1.states_eq, storedFlags_states, hstep.states_eq, setState_states]
  · rw [h.1.flags_eq, storedFlags_flags, hstep.flags_eq, setState_flags]
  · rw [h.1.rtcChecked, storedFlags_rtcChecked, hstep.rtcChecked]
    rfl
  · rw [h.2, hstep.links_eq, hstep.flags_eq, setState_links, setState_flags]
  · exact fun s h => (hset.trans hstep.frame).trans h

/-! ## `softswitch_UpdateRTS` on a queue -/

theorem IsQueue.relinked {before now : BitVec 32} (h : Rep c.links q)
    (hmem : ∀ e, e ≠ d → (e ∈ q ↔ wantsSend (c.flags e) = true))
    (hd : d ∈ q ↔ wantsSend before = true)
    (hl : c'.links = relink c.links d (wantsSend before) (wantsSend now))
    (hf : c'.flags = update c.flags d now) :
    IsQueue c' (requeue q d (wantsSend before) (wantsSend now)) := by
  refine ⟨(relink_rep h hd).congr hl, fun e => ?_⟩
  rw [mem_requeue h.nodup hd, hf]
  split
  · rename_i he
    rw [he, update_self]
  · rename_i he
    rw [update_of_ne he]
    exact hmem e he

/-- `softswitch_UpdateRTS` is `requeue` on the queue. -/
theorem softswitchUpdateRTS_queue (h : IsQueue c q) (hok : softswitchUpdateRTS th c d = .ok c') :
    IsQueue c' (requeue q d (wantsSend (c.flags d))
      (wantsSend (readyResult th d (c.states d)).flags)) := by
  obtain ⟨hu, hl⟩ := softswitchUpdateRTS_sat.of_ok hok
  exact IsQueue.relinked h.rep (fun e _ => h.mem_iff e) (h.mem_iff d) hl hu.flags

/-- The flags, and the context the list is edited in. -/
theorem softswitchUpdateRTS_eq (h : IsQueue c q)
    (hr : callReadyToSend th c d = .ok (flags, c')) :
    IsQueue c' q ∧ softswitchUpdateRTS th c d = (
      if wantsSend (c.flags d) = wantsSend flags then .ok (storedFlags c' d flags)
      else if wantsSend flags then rtsAppend th (storedFlags c' d flags) d
      else rtsRemove th (storedFlags c' d flags) d) := by
  obtain ⟨-, hstep⟩ := callReadyToSend_sat.of_ok hr
  have hflags : c'.flags = c.flags := by
    rw [hstep.flags_eq, setState_flags]
  have h' : IsQueue c' q := by
    refine h.of_links_flags ?_ hflags
    rw [hstep.links_eq, setState_links]
  refine ⟨h', ?_⟩
  have hcheck : ∀ c₀ : PThreadContext A n, c₀.links = c'.links → c₀.flags = c'.flags →
      th.checkM c₀ .updateRTSOnList
        (rtsIsOnList c₀ d >>= fun b => .ok (wantsSend (c'.flags d) == b)) = .ok () := by
    intro c₀ hl hf
    rw [← hf]
    exact (h'.of_links_flags hl hf).checkOnList
  unfold softswitchUpdateRTS
  rw [h.sanity, ok_bind, hr, ok_bind]
  dsimp only
  rw [rtsStoreFlags_eq]
  dsimp only
  rw [hcheck _ (by split <;> rfl) (by split <;> rfl), ok_bind, hflags]

/-- `softswitch_UpdateRTS` returns, unless assertions are compiled in and the device stops
being ready. -/
theorem softswitchUpdateRTS_returns (h : IsQueue c q)
    (hr : callReadyToSend th c d = .ok (flags, c'))
    (hkeep : th.build.asserts = true → wantsSend (c.flags d) = true → wantsSend flags = true) :
    ∃ c'', softswitchUpdateRTS th c d = .ok c'' := by
  obtain ⟨h', heq⟩ := softswitchUpdateRTS_eq h hr
  obtain ⟨-, hstep⟩ := callReadyToSend_sat.of_ok hr
  have hrep : Rep (storedFlags c' d flags).links q := h'.rep.congr storedFlags_links
  have hd : d ∈ q ↔ wantsSend (c.flags d) = true := h.mem_iff d
  rw [heq]
  split
  · exact ⟨_, rfl⟩
  · rename_i hne
    split
    · rename_i hnow
      have hd' : d ∉ q := fun hm => hne ((hd.1 hm).trans hnow.symm)
      refine rtsAppend_ok th hrep (fun e he => ?_) hd' ?_
      · have hed : e ≠ d := by
          rintro rfl
          exact hd' he
        rw [storedFlags_flags, update_of_ne hed]
        exact h'.wantsSend_of_mem e he
      · rwa [storedFlags_flags, update_self]
    · rename_i hnow
      have hold : wantsSend (c.flags d) = true := by
        cases hb : wantsSend (c.flags d) with
        | true => rfl
        | false => exact absurd (hb.trans (Bool.eq_false_iff.2 hnow).symm) hne
      cases ha : th.build.asserts with
      | false => exact rtsRemove_ok ha hrep (hd.2 hold)
      | true => exact absurd (hkeep ha hold) hnow

/-- With assertions compiled in, a device that stops being ready stops the thread. -/
theorem softswitchUpdateRTS_stops (ha : th.build.asserts = true) (h : IsQueue c q)
    (hr : callReadyToSend th c d = .ok (flags, c')) (hold : wantsSend (c.flags d) = true)
    (hnow : wantsSend flags = false) :
    softswitchUpdateRTS th c d =
      .error ⟨.assertion .rtsSanity, storedFlags c' d flags⟩ := by
  obtain ⟨h', heq⟩ := softswitchUpdateRTS_eq h hr
  rw [heq, if_neg (by rw [hold, hnow]; decide), if_neg (by rw [hnow]; decide)]
  refine rtsRemove_stops ha (h'.rep.congr storedFlags_links) ((h.mem_iff d).2 hold) ?_
  rwa [storedFlags_flags, update_self]

/-- Where the readiness handler stops, no assertion of the list stops it. -/
theorem softswitchUpdateRTS_error (h : IsQueue c q) {s : Stop A n}
    (hr : callReadyToSend th c d = .error s) :
    softswitchUpdateRTS th c d = .error s ∧ s.fault.isRts = false := by
  refine ⟨?_, (callReadyToSend_sat.of_error hr).2⟩
  unfold softswitchUpdateRTS
  rw [h.sanity, ok_bind, hr, error_bind]

end Softswitch
