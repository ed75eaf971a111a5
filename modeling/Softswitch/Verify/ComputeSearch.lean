import Softswitch.Verify.Queue

/-!
# The compute search

`softswitch_onIdle` goes round the devices in chunks, and `rtcChecked` counts how many it
has passed since the last device asked to compute.  The devices it has passed do not want
to compute (`SearchInv`), whatever receives and sends do in between, since
`softswitch_UpdateRTS` resets the counter when a device asks to compute.
-/

namespace Softswitch

open Outcome CyclicSweep Function

variable {A : AppTypes} {n : Nat} {th : PThread A n} {c₀ c c' : PThreadContext A n}
  {d : Fin n} {m : Message A}

/-- The last `rtcChecked` devices before `rtcOffset` do not want to compute. -/
structure SearchInv (c : PThreadContext A n) : Prop where
  offset_lt : 0 < n → c.rtcOffset < n
  window : Window c.rtcOffset c.rtcChecked fun e => wantsCompute (c.flags e) = false

namespace SearchInv

/-- Once the search is over, no device wants to compute. -/
theorem no_compute (h : SearchInv c) (hdone : n ≤ c.rtcChecked) (e : Fin n) :
    wantsCompute (c.flags e) = false :=
  h.window.all (h.offset_lt (Nat.zero_lt_of_lt e.isLt)) hdone e

theorem keep (h : SearchInv c) (hk : KeepsRts c c') : SearchInv c' := by
  refine ⟨fun hn => hk.rtcOffset ▸ h.offset_lt hn, ?_⟩
  rw [hk.rtcOffset, hk.rtcChecked, hk.flags]
  exact h.window

end SearchInv

/-- New flags for `d`: if they ask to compute the search starts over, and otherwise `d` is one
more device that does not want to compute. -/
theorem Window.relabel {f : BitVec 32} {k : Nat} (h : Window c.rtcOffset k fun e =>
      e = d ∨ wantsCompute (c.flags e) = false) :
    Window c.rtcOffset (if wantsCompute f then 0 else k)
      fun e => wantsCompute (update c.flags d f e) = false := by
  split
  · exact Window.zero
  · rename_i hf
    refine h.imp fun e he => ?_
    by_cases hed : e = d
    · rw [hed, update_self]
      simpa using hf
    · rw [update_of_ne hed]
      exact he.resolve_left hed

theorem Handled.searchInv {s : A.DevState} {t : Tracking} {es : List (Event A n)}
    (h : Handled th c d s t es c') (hs : SearchInv c) : SearchInv c' := by
  refine ⟨fun hn => h.rtcOffset ▸ hs.offset_lt hn, ?_⟩
  rw [h.rtcOffset, h.rtcChecked, h.flags]
  exact Window.relabel (hs.window.imp fun _ => .inr)

theorem Received.searchInv (h : Received th c m c') (hs : SearchInv c) : SearchInv c' := by
  rcases h with ⟨d, target, -, -, h⟩ | ⟨d, -, -, -, h, -⟩
  · exact h.searchInv hs
  · exact hs.keep h

theorem Sent.searchInv {isApp : Bool} {out : Nat × PThreadContext A n × SendState A}
    (h : Sent th c m isApp out) (hs : SearchInv c) : SearchInv out.2.1 := by
  rcases h with ⟨d, pinIndex, pin, r, h⟩ | ⟨-, -, -, h, -⟩
  · refine ⟨fun hn => h.rtcOffset ▸ hs.offset_lt hn, ?_⟩
    rw [h.rtcOffset, h.rtcChecked, h.flags]
    exact Window.relabel (hs.window.imp fun _ => .inr)
  · exact hs.keep h

/-- A chunk in which nothing was found. -/
theorem SearchInv.swept {k : Nat} (hs : SearchInv c) (hn : 0 < n) (hno : NoCompute c k) :
    SearchInv (swept c k) :=
  ⟨fun hn => Nat.mod_lt _ hn, hs.window.advance (hs.offset_lt hn) hno⟩

theorem Idled.searchInv {out : Bool × PThreadContext A n} (h : Idled th c out)
    (hs : SearchInv c) : SearchInv out.2 := by
  rcases h with ⟨-, rfl⟩ | ⟨-, ho, hno, rfl⟩ | ⟨-, ho, k, d, hfinds, -, h⟩
  · exact hs
  · exact hs.swept (Nat.zero_lt_of_lt ho) hno
  · -- the device found is the last one looked at, and its flags are recomputed
    have hahead : Ahead c.rtcOffset (k + 1) fun e => e = d ∨ wantsCompute (c.flags e) = false :=
      (hfinds.first.imp fun _ => .inr).succ fun e he => .inl (Fin.ext (he.trans hfinds.place.symm))
    have hwindow := (hs.window.imp fun _ => .inr).advance ho hahead
    refine ⟨fun hn => ?_, ?_⟩
    · rw [h.rtcOffset]
      exact Nat.mod_lt _ hn
    · rw [h.rtcOffset, h.rtcChecked, h.flags]
      exact Window.relabel hwindow

theorem softswitchOnHardwareIdle_searchInv (hs : SearchInv c)
    (hok : softswitchOnHardwareIdle th c = .ok c') : SearchInv c' := by
  apply softswitchOnHardwareIdle_keeps (I := SearchInv) ⟨hs.offset_lt, hs.window⟩ _ _ hok
  · rintro d s s' hs (rfl | ⟨_, -, h⟩)
    · exact hs
    · exact h.searchInv hs
  · intro s hs
    exact ⟨hs.offset_lt, hs.window⟩

/-- One event, also a hardware idle on a list that is not empty. -/
theorem Happened.searchInv {e : ThreadEvent A} (h : Happened th c c' e) (hs : SearchInv c) :
    SearchInv c' := by
  cases e with
  | receive message => exact Received.searchInv h hs
  | send message isApp =>
    obtain ⟨size, s, h⟩ := h
    exact h.searchInv hs
  | idle =>
    obtain ⟨more, h⟩ := h
    exact h.searchInv hs
  | hardwareIdle => exact softswitchOnHardwareIdle_searchInv hs h

/-- The search stands at the first device after the initialisation. -/
theorem softswitchInit_searchInv (hchecked : c.rtcChecked = 0) (hoffset : c.rtcOffset = 0)
    (hok : softswitchInit th c = .ok c') : SearchInv c' := by
  have hzero : c'.rtcChecked = 0 ∧ c'.rtcOffset = 0 := by
    apply softswitchInit_keeps (I := fun s => s.rtcChecked = 0 ∧ s.rtcOffset = 0) _ _ hok
    · exact ⟨hchecked, hoffset⟩
    · exact fun d s s' hs h => ⟨h.rtcChecked.trans hs.1, h.rtcOffset.trans hs.2⟩
  refine ⟨fun hn => by rw [hzero.2]; exact hn, ?_⟩
  rw [hzero.1]
  exact Window.zero

theorem threadRun_searchInv {events : List (ThreadEvent A)} (hchecked : c₀.rtcChecked = 0)
    (hoffset : c₀.rtcOffset = 0) (hrun : threadRun th c₀ events = .ok c) : SearchInv c := by
  refine threadRun_keeps (fun s hinit => ?_) (fun s e s' hs h => ?_) hrun
  · exact softswitchInit_searchInv hchecked hoffset hinit
  · exact h.searchInv hs

/-! ## The search ends -/

/-- `k` calls of `softswitch_onIdle` lead from `c` to `c'`; each of them has returned true,
and none has run a handler. -/
inductive IdlesTo (th : PThread A n) : Nat → PThreadContext A n → PThreadContext A n → Prop
  | zero (c : PThreadContext A n) : IdlesTo th 0 c c
  | succ {k : Nat} {c c₁ c' : PThreadContext A n} (h : IdlesTo th k c c₁)
      (hidle : softswitchOnIdle th c₁ = .ok (true, c')) (hsig : c'.sig = c₁.sig) :
      IdlesTo th (k + 1) c c'

/-- `softswitch_onIdle` enters a compute handler. -/
def EntersCompute (th : PThread A n) (c : PThreadContext A n) : Prop :=
  ∃ d, Sat (softswitchOnIdle th c)
    (fun out => out.2.sig = c.sig ++ [.enter .compute d c.toTracking])
    (fun s => s.ctxt.sig = c.sig ++ [.enter .compute d c.toTracking])

/-- One call: the search is over, or a compute handler is entered, or the search moves on by
a chunk. -/
theorem idle_trichotomy (th : PThread A n) (hs : SearchInv c) :
    softswitchOnIdle th c = .ok (false, c) ∨ EntersCompute th c ∨
    (c.rtcChecked < n ∧ SearchInv (swept c idleSweepChunkSize) ∧
      softswitchOnIdle th c = .ok (true, swept c idleSweepChunkSize)) := by
  by_cases hdone : n ≤ c.rtcChecked
  · exact .inl (softswitchOnIdle_over hdone)
  have hlt : c.rtcChecked < n := by omega
  have hn : 0 < n := by omega
  have ho : c.rtcOffset < n := hs.offset_lt hn
  rcases idleSweep_chunk th hlt ho with ⟨k, d, hfinds, -⟩ | ⟨hno, -⟩
  · exact .inr (.inl ⟨d, (softswitchOnIdle_finds th hlt ho hfinds).mono (fun _ h => h.2.sig)
      fun _ h => h⟩)
  · exact .inr (.inr ⟨hlt, hs.swept hn hno, softswitchOnIdle_noCompute hlt ho hno⟩)

/-- Calls that find nothing move the search on by a chunk each. -/
theorem idles_chunks (th : PThread A n) (hs : SearchInv c) (k : Nat) :
    (∃ j c', j ≤ k ∧ IdlesTo th j c c' ∧
      (softswitchOnIdle th c' = .ok (false, c') ∨ EntersCompute th c')) ∨
    (∃ c', IdlesTo th (k + 1) c c' ∧ SearchInv c' ∧
      c'.rtcChecked = c.rtcChecked + (k + 1) * idleSweepChunkSize ∧
      k * idleSweepChunkSize < n) := by
  induction k with
  | zero =>
    rcases idle_trichotomy th hs with h | h | ⟨hlt, hs', h⟩
    · exact .inl ⟨0, c, le_refl 0, .zero c, .inl h⟩
    · exact .inl ⟨0, c, le_refl 0, .zero c, .inr h⟩
    · exact .inr ⟨_, .succ (.zero c) h rfl, hs', by simp [swept], by omega⟩
  | succ k ih =>
    rcases ih with ⟨j, c', hj, h⟩ | ⟨c', hto, hs', hchecked, -⟩
    · exact .inl ⟨j, c', Nat.le_succ_of_le hj, h⟩
    · rcases idle_trichotomy th hs' with h | h | ⟨hlt, hs'', h⟩
      · exact .inl ⟨k + 1, c', le_refl _, hto, .inl h⟩
      · exact .inl ⟨k + 1, c', le_refl _, hto, .inr h⟩
      · refine .inr ⟨_, .succ hto h rfl, hs'', ?_, by omega⟩
        show c'.rtcChecked + idleSweepChunkSize = _
        rw [hchecked, Nat.succ_mul (k + 1), Nat.add_assoc]

/-- In every reachable state `rtcOffset` is a device, the search is over exactly where
`softswitch_onIdle` returns false, and then no device wants to compute; and of calls of
`softswitch_onIdle` in a row, one of the first `⌈n / 32⌉ + 1` enters a compute handler or
returns false. -/
theorem computeSearch_completes {events : List (ThreadEvent A)} (hchecked : c₀.rtcChecked = 0)
    (hoffset : c₀.rtcOffset = 0) (hrun : threadRun th c₀ events = .ok c) :
    (0 < n → c.rtcOffset < n) ∧
    (n ≤ c.rtcChecked → ∀ e, wantsCompute (c.flags e) = false) ∧
    (∀ more c', softswitchOnIdle th c = .ok (more, c') → (more = false ↔ n ≤ c.rtcChecked)) ∧
    (∃ k c', k + 1 ≤ (n + 31) / 32 + 1 ∧ IdlesTo th k c c' ∧
      (softswitchOnIdle th c' = .ok (false, c') ∨ EntersCompute th c')) := by
  have hs : SearchInv c := threadRun_searchInv hchecked hoffset hrun
  refine ⟨hs.offset_lt, hs.no_compute, ?_, ?_⟩
  · intro more c' hok
    rcases softswitchOnIdle_sat.of_ok hok with ⟨hdone, h⟩ | ⟨hlt, -, -, h⟩ | ⟨hlt, -, _, _, -, h, -⟩
    · cases h
      simpa using hdone
    · cases h
      simpa using hlt
    · obtain rfl : more = true := h
      simpa using hlt
  · rcases idles_chunks th hs ((n + 31) / 32) with ⟨k, c', hk, hto, h⟩ | ⟨c', -, -, -, hlt⟩
    · exact ⟨k, c', by omega, hto, h⟩
    · have : (n + 31) / 32 * idleSweepChunkSize < n := hlt
      simp only [idleSweepChunkSize] at this
      omega

/-- The search of a thread whose devices do not ask to compute is over after one chunk. -/
theorem computeSearch_completes_readyContext :
    ∃ k c', k + 1 ≤ 2 ∧ IdlesTo (flagsThread (defaultBuild false)) k (readyContext false) c' ∧
      (softswitchOnIdle (flagsThread (defaultBuild false)) c' = .ok (false, c') ∨
        EntersCompute (flagsThread (defaultBuild false)) c') := by
  have hchecked : (flagsContext 1#32 1#32).rtcChecked = 0 := rfl
  have hoffset : (flagsContext 1#32 1#32).rtcOffset = 0 := rfl
  have hrun : threadRun (flagsThread (defaultBuild false)) (flagsContext 1#32 1#32) [] =
      .ok (readyContext false) := rfl
  exact (computeSearch_completes hchecked hoffset hrun).2.2.2

end Softswitch
