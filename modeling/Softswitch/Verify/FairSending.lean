import Softswitch.Lib.Runs
import Softswitch.Verify.Queue

/-!
# Sending is fair

A device waits on the RTS list behind some others.  No event puts a device before it: a
device that becomes ready goes to the end, also one that was popped and is ready again.
Each send pops one of those in front, and so the device is popped after at most as many
sends as there were devices in front of it.
-/

namespace Softswitch

open Outcome Runs Function

variable {A : AppTypes} {n : Nat} {th : PThread A n} {c₀ c c' : PThreadContext A n}
  {d e : Fin n} {xs ys : List (Fin n)} {m : Message A}

/-! ## Places in the queue -/

/-- `e` is on the RTS list, behind `xs`. -/
def Behind (c : PThreadContext A n) (e : Fin n) (xs : List (Fin n)) : Prop :=
  ∃ ys, IsQueue c (xs ++ e :: ys)

/-- `e` is on the RTS list at position `k`. -/
def AtPosition (c : PThreadContext A n) (e : Fin n) (k : Nat) : Prop :=
  ∃ q, IsQueue c q ∧ q[k]? = some e

theorem atPosition_iff {k : Nat} : AtPosition c e k ↔ ∃ xs, Behind c e xs ∧ xs.length = k := by
  constructor
  · rintro ⟨q, hq, hk⟩
    obtain ⟨hlt, rfl⟩ := List.getElem?_eq_some_iff.1 hk
    have hsplit : q = q.take k ++ q[k] :: q.drop (k + 1) := by
      rw [← List.drop_eq_getElem_cons, List.take_append_drop]
    refine ⟨q.take k, ⟨q.drop (k + 1), ?_⟩, ?_⟩
    · rw [← hsplit]
      exact hq
    · rw [List.length_take]
      omega
  · rintro ⟨xs, ⟨ys, hq⟩, rfl⟩
    exact ⟨_, hq, by simp⟩

theorem IsQueue.unique {q q' : List (Fin n)} (h : IsQueue c q) (h' : IsQueue c q') : q = q' :=
  h.rep.unique h'.rep

/-- A device has one position. -/
theorem AtPosition.unique {k k' : Nat} (h : AtPosition c e k) (h' : AtPosition c e k') :
    k = k' := by
  obtain ⟨q, hq, hk⟩ := h
  obtain ⟨q', hq', hk'⟩ := h'
  obtain rfl := hq.unique hq'
  obtain ⟨hlt, hget⟩ := List.getElem?_eq_some_iff.1 hk
  obtain ⟨hlt', hget'⟩ := List.getElem?_eq_some_iff.1 hk'
  apply (hq.rep.nodup.getElem_inj_iff).1
  rw [hget, hget']

namespace Behind

theorem wantsSend (h : Behind c e xs) : wantsSend (c.flags e) = true := by
  obtain ⟨ys, hq⟩ := h
  apply hq.wantsSend_of_mem
  simp

theorem rtsHead (h : Behind c e xs) : c.rtsHead = (xs ++ [e]).head? := by
  obtain ⟨ys, hq⟩ := h
  rw [hq.rtsHead_eq]
  cases xs <;> rfl

theorem nodup (h : Behind c e xs) : xs.Nodup := by
  obtain ⟨ys, hq⟩ := h
  exact (List.nodup_append.1 hq.rep.nodup).1

end Behind

/-- Storing new flags of a device puts no device before one that keeps wanting to send. -/
theorem requeue_behind {before now : Bool} (hkeep : d = e → before = now) :
    ∃ xs' ys', requeue (xs ++ e :: ys) d before now = xs' ++ e :: ys' ∧ xs'.Sublist xs := by
  unfold requeue
  split
  · exact ⟨xs, ys, rfl, List.Sublist.refl xs⟩
  · rename_i hne
    have hde : e ≠ d := fun h => hne (hkeep h.symm)
    split
    · exact ⟨xs, ys ++ [d], by simp, List.Sublist.refl xs⟩
    · by_cases hd : d ∈ xs
      · refine ⟨xs.erase d, ys, ?_, List.erase_sublist⟩
        rw [List.erase_append_left _ hd]
      · refine ⟨xs, ys.erase d, ?_, List.Sublist.refl xs⟩
        rw [List.erase_append_right _ hd, List.erase_cons_tail]
        simpa using hde

/-! ## Events -/

theorem Handled.behind {s : A.DevState} {t : Tracking} {es : List (Event A n)}
    (h : Handled th c d s t es c') (hc : Behind c e xs)
    (hwants : Softswitch.wantsSend (c'.flags e) = true) :
    ∃ xs', Behind c' e xs' ∧ xs'.Sublist xs := by
  have hbefore := hc.wantsSend
  obtain ⟨ys, hq⟩ := hc
  have hkeep : d = e → Softswitch.wantsSend (c.flags d) =
      Softswitch.wantsSend (readyResult th d s).flags := by
    rintro rfl
    rw [h.flags, update_self] at hwants
    rw [hbefore, hwants]
  obtain ⟨xs', ys', heq, hsub⟩ := requeue_behind hkeep
  refine ⟨xs', ⟨ys', ?_⟩, hsub⟩
  rw [← heq]
  exact h.isQueue hq

theorem KeepsRts.behind (h : KeepsRts c c') (hc : Behind c e xs) : Behind c' e xs := by
  obtain ⟨ys, hq⟩ := hc
  exact ⟨ys, h.isQueue hq⟩

/-- A send of another device pops the first device in front. -/
theorem SentFrom.behind {pinIndex size : Nat} {pin : OutputPinVTable A}
    {r : SendResult A.DevState A.Payload} {s s' : SendState A}
    (h : SentFrom th c d pinIndex pin r s size c' s') (hc : Behind c e xs) (hd : d ≠ e) :
    ∃ zs xs', xs = d :: zs ∧ Behind c' e xs' ∧ xs'.Sublist zs := by
  have hhead := hc.rtsHead.symm.trans h.head
  obtain ⟨ys, hq⟩ := hc
  cases xs with
  | nil =>
    have : e = d := Option.some.inj hhead
    exact absurd this.symm hd
  | cons x zs =>
    obtain rfl : x = d := Option.some.inj hhead
    obtain ⟨xs', ys', heq, hsub⟩ := @requeue_behind n x e zs ys false
      (Softswitch.wantsSend (readyResult th x r.state).flags) (fun h => absurd h hd)
    refine ⟨zs, xs', rfl, ⟨ys', ?_⟩, hsub⟩
    rw [← heq]
    exact h.isQueue hq

/-- The device that an event pops: a send pops the first device of the list. -/
def popOf (c : PThreadContext A n) : ThreadEvent A → Option (Fin n)
  | .send _ _ => c.rtsHead
  | _ => none

/-- A send that pops a device enters its send handler. -/
theorem popOf_enters {isApp : Bool} (hpop : popOf c (.send m isApp) = some d)
    (hok : threadStep th c (.send m isApp) = .ok c') :
    ∃ pinIndex r, c'.sig = c.sig ++ sendEvents th d pinIndex r := by
  have hhead : c.rtsHead = some d := hpop
  obtain ⟨size, s, h⟩ := threadStep_happened hok
  rcases h with ⟨d', pinIndex, pin, r, h⟩ | ⟨hnone, -⟩
  · obtain rfl : d' = d := Option.some.inj (h.head.symm.trans hhead)
    exact ⟨pinIndex, r, h.sig⟩
  · rw [hhead] at hnone
    cases hnone

def ThreadEvent.isSend : ThreadEvent A → Bool
  | .send _ _ => true
  | _ => false

/-- An event and the device it pops, which is not `e`; where the event recomputes the
readiness of `e`, an output bit stays set. -/
structure Waits (th : PThread A n) (e : Fin n) (c : PThreadContext A n)
    (t : ThreadEvent A × Option (Fin n)) (c' : PThreadContext A n) : Prop where
  step : threadStep th c t.1 = .ok c'
  idle : t.1 = .hardwareIdle → c.rtsHead = none
  popped : t.2 = popOf c t.1
  other : t.2 ≠ some e
  wants : wantsSend (c'.flags e) = true

/-- What happens in front of `e`: a send takes the first device off, and no event adds one. -/
theorem Waits.behind {t : ThreadEvent A × Option (Fin n)} (h : Waits th e c t c')
    (hc : Behind c e xs) :
    (t.1.isSend = false ∧ t.2 = none ∧ ∃ xs', Behind c' e xs' ∧ xs'.Sublist xs) ∨
    (t.1.isSend = true ∧ ∃ x zs xs', t.2 = some x ∧ xs = x :: zs ∧ Behind c' e xs' ∧
      xs'.Sublist zs) := by
  obtain ⟨event, p⟩ := t
  obtain ⟨hstep, hidle, hpopped, hother, hwants⟩ := h
  have happened := threadStep_happened hstep
  have hhead : c.rtsHead ≠ none := by
    rw [hc.rtsHead]
    cases xs <;> simp
  cases event with
  | receive m =>
    refine .inl ⟨rfl, hpopped, ?_⟩
    rcases happened with ⟨d, target, -, -, h⟩ | ⟨d, -, -, -, h, -⟩
    · exact h.behind hc hwants
    · exact ⟨xs, h.behind hc, List.Sublist.refl xs⟩
  | send m isApp =>
    obtain ⟨size, s, h⟩ := happened
    rcases h with ⟨d, pinIndex, pin, r, h⟩ | ⟨hnone, -⟩
    · have hp : p = some d := hpopped.trans h.head
      have hd : d ≠ e := fun hde => hother (hp.trans (congrArg some hde))
      obtain ⟨zs, xs', rfl, hc', hsub⟩ := h.behind hc hd
      exact .inr ⟨rfl, d, zs, xs', hp, rfl, hc', hsub⟩
    · exact absurd hnone hhead
  | idle =>
    refine .inl ⟨rfl, hpopped, ?_⟩
    obtain ⟨more, h⟩ := happened
    rcases h with ⟨-, h⟩ | ⟨-, -, -, h⟩ | ⟨-, -, k, d, -, -, h⟩
    · cases h
      exact ⟨xs, hc, List.Sublist.refl xs⟩
    · cases h
      obtain ⟨ys, hq⟩ := hc
      exact ⟨xs, ⟨ys, hq.of_links_flags rfl rfl⟩, List.Sublist.refl xs⟩
    · have hswept : Behind (swept c (k + 1)) e xs := by
        obtain ⟨ys, hq⟩ := hc
        exact ⟨ys, hq.of_links_flags rfl rfl⟩
      exact h.behind hswept hwants
  | hardwareIdle => exact absurd (hidle rfl) hhead

/-! ## Runs -/

/-- The devices that were popped. -/
def poppedBy (ts : List (ThreadEvent A × Option (Fin n))) : List (Fin n) := ts.filterMap Prod.snd

/-- How many sends there were. -/
def sends (ts : List (ThreadEvent A × Option (Fin n))) : Nat := ts.countP fun t => t.1.isSend

/-- `e` has waited for the events `ts` behind at first `k` devices. -/
structure Waited (e : Fin n) (k : Nat) (ts : List (ThreadEvent A × Option (Fin n)))
    (c : PThreadContext A n) (xs : List (Fin n)) : Prop where
  behind : Behind c e xs
  length_le : xs.length + sends ts ≤ k
  nodup : (poppedBy ts).Nodup
  gone : ∀ d ∈ poppedBy ts, d ∉ xs

theorem Waited.step {k : Nat} {ts : List (ThreadEvent A × Option (Fin n))}
    {t : ThreadEvent A × Option (Fin n)} (h : Waited e k ts c xs) (hstep : Waits th e c t c') :
    ∃ xs', Waited e k (ts ++ [t]) c' xs' := by
  have hlength := h.length_le
  rcases hstep.behind h.behind with ⟨hsend, hpop, xs', hc', hsub⟩ |
    ⟨hsend, x, zs, xs', hpop, rfl, hc', hsub⟩
  · have hpops : poppedBy (ts ++ [t]) = poppedBy ts := by simp [poppedBy, hpop]
    have hsends : sends (ts ++ [t]) = sends ts := by simp [sends, hsend]
    refine ⟨xs', hc', ?_, ?_, ?_⟩
    · have := hsub.length_le
      omega
    · rw [hpops]
      exact h.nodup
    · intro d hd hmem
      rw [hpops] at hd
      exact h.gone d hd (hsub.subset hmem)
  · have hpops : poppedBy (ts ++ [t]) = poppedBy ts ++ [x] := by simp [poppedBy, hpop]
    have hsends : sends (ts ++ [t]) = sends ts + 1 := by simp [sends, hsend]
    have hx : x ∉ poppedBy ts := fun hx => h.gone x hx List.mem_cons_self
    refine ⟨xs', hc', ?_, ?_, ?_⟩
    · have := hsub.length_le
      rw [List.length_cons] at hlength
      omega
    · rw [hpops, List.nodup_append]
      refine ⟨h.nodup, List.nodup_singleton x, fun a ha b hb => ?_⟩
      rw [List.mem_singleton.1 hb]
      rintro rfl
      exact hx ha
    · -- the device just popped was there once, and is not put back in front
      intro d hd hmem
      have hzs := hsub.subset hmem
      rw [hpops, List.mem_append, List.mem_singleton] at hd
      rcases hd with hd | rfl
      · exact h.gone d hd (List.mem_cons_of_mem x hzs)
      · exact (List.nodup_cons.1 h.behind.nodup).1 hzs

theorem waited_run {k : Nat} {ts : List (ThreadEvent A × Option (Fin n))} (hc : AtPosition c e k)
    (hrun : Run (Waits th e) c ts c') : ∃ xs, Waited e k ts c' xs := by
  obtain ⟨xs, hbehind, rfl⟩ := atPosition_iff.1 hc
  apply hrun.invariant (I := fun ts s => ∃ xs', Waited e xs.length ts s xs')
  · exact ⟨xs, hbehind, by simp [sends], by simp [poppedBy], by simp [poppedBy]⟩
  · rintro ts s t s' ⟨xs', h⟩ hstep
    exact h.step hstep

/-- In every reachable state, and for the device `e` at position `k` of the RTS list: along
every continuation that does not pop `e`, and in which an output bit of `e` stays set, no
device is popped twice, and there are at most `k` sends; the position of `e` has gone down by
the number of sends at least.  No further event lets it go up, and each pop of another device
lets it go down.  The send after `k` sends pops `e`. -/
theorem sending_isFair (hreach : Reachable th c₀ c) : ∃ q, IsQueue c q ∧
    ∀ k e, q[k]? = some e → ∀ ts c', Run (Waits th e) c ts c' →
      (poppedBy ts).Nodup ∧ ∃ k', AtPosition c' e k' ∧ k' + sends ts ≤ k ∧
        (∀ t c'', Waits th e c' t c'' → ∃ k'', AtPosition c'' e k'' ∧ k'' ≤ k' ∧
          (t.2 ≠ none → k'' < k')) ∧
        (sends ts = k → ∀ event : ThreadEvent A, event.isSend = true →
          popOf c' event = some e) := by
  obtain ⟨q, hq⟩ := hreach.isQueue
  refine ⟨q, hq, fun k e hk ts c' hrun => ?_⟩
  obtain ⟨xs, h⟩ := waited_run ⟨q, hq, hk⟩ hrun
  refine ⟨h.nodup, xs.length, atPosition_iff.2 ⟨xs, h.behind, rfl⟩, h.length_le, ?_, ?_⟩
  · intro t c'' hstep
    rcases hstep.behind h.behind with ⟨-, hpop, xs', hc'', hsub⟩ |
      ⟨-, x, zs, xs', -, rfl, hc'', hsub⟩
    · refine ⟨xs'.length, atPosition_iff.2 ⟨xs', hc'', rfl⟩, hsub.length_le, fun hne => ?_⟩
      exact absurd hpop hne
    · have hlt : xs'.length < (x :: zs).length := Nat.lt_succ_of_le hsub.length_le
      exact ⟨xs'.length, atPosition_iff.2 ⟨xs', hc'', rfl⟩, hlt.le, fun _ => hlt⟩
  · intro hsends event hsend
    have hlength := h.length_le
    have hnil : xs = [] := by
      apply List.eq_nil_of_length_eq_zero
      omega
    cases event with
    | send m isApp =>
      show c'.rtsHead = some e
      rw [h.behind.rtsHead, hnil]
      rfl
    | receive m => cases hsend
    | idle => cases hsend
    | hardwareIdle => cases hsend

/-- Both devices of the thread are ready: the one at position `k` is popped after `k` sends. -/
theorem sending_isFair_readyContext : ∃ q, IsQueue (readyContext false) q ∧
    ∀ k e, q[k]? = some e → ∀ ts c',
      Run (Waits (flagsThread (defaultBuild false)) e) (readyContext false) ts c' →
      sends ts ≤ k := by
  have hreach : Reachable (flagsThread (defaultBuild false)) (flagsContext 1#32 1#32)
      (readyContext false) := .init rfl
  obtain ⟨q, hq, h⟩ := sending_isFair hreach
  refine ⟨q, hq, fun k e hk ts c' hrun => ?_⟩
  obtain ⟨-, k', -, hle, -⟩ := h k e hk ts c' hrun
  omega

end Softswitch
