import Softswitch.Lib.Runs
import Softswitch.Verify.ComputeSearch

/-!
# Computing is fair

The compute search goes round the devices, and only `softswitch_onIdle` moves it.  It does
not pass a device that wants to compute without computing it, and so between two
computations of one device it computes each other one that wants to all along.
-/

namespace Softswitch

open Outcome CyclicSweep Runs Function

variable {A : AppTypes} {n : Nat} {th : PThread A n} {c₀ c c' : PThreadContext A n}
  {d e : Fin n} {m : Message A} {event : ThreadEvent A}

/-! ## What the search does in an event -/

/-- The device whose compute handler an event calls, and the number of positions that the
search looks at. -/
def searchOf (c : PThreadContext A n) : ThreadEvent A → Option (Fin n) × Nat
  | .idle =>
    if n ≤ c.rtcChecked then (none, 0)
    else match idleSweep idleSweepChunkSize c with
      | .ok (dev, c') => (dev, c'.rtcChecked - c.rtcChecked)
      | .error _ => (none, 0)
  | _ => (none, 0)

theorem searchOf_over (hdone : n ≤ c.rtcChecked) :
    searchOf c (.idle : ThreadEvent A) = (none, 0) := by
  unfold searchOf
  rw [if_pos hdone]

theorem searchOf_noCompute (th : PThread A n) (hlt : c.rtcChecked < n) (ho : c.rtcOffset < n)
    (hno : NoCompute c idleSweepChunkSize) :
    searchOf c (.idle : ThreadEvent A) = (none, idleSweepChunkSize) := by
  unfold searchOf
  rw [if_neg (by omega)]
  rcases idleSweep_chunk th hlt ho with ⟨k, d, hfinds, -⟩ | ⟨-, heq⟩
  · have := hno k hfinds.lt_chunk d hfinds.place
    simp [hfinds.wants] at this
  · simp [heq, swept]

theorem searchOf_finds (th : PThread A n) {k : Nat} (hlt : c.rtcChecked < n)
    (ho : c.rtcOffset < n) (hfinds : FindsCompute c k d) :
    searchOf c (.idle : ThreadEvent A) = (some d, k + 1) := by
  unfold searchOf
  rw [if_neg (by omega), idleSweep_of_finds th hlt ho hfinds]
  simp [swept]

/-- A device that wants to compute is not passed: the search stays before it, or ends there
and computes it. -/
theorem searchOf_notPassed (th : PThread A n) (event : ThreadEvent A) {j : Nat}
    (ho : c.rtcOffset < n) (hplace : PlacesAhead c.rtcOffset j e)
    (hwants : wantsCompute (c.flags e) = true) :
    (searchOf c event).2 ≤ j ∨ searchOf c event = (some e, j + 1) := by
  have hstop : ∀ k, NoCompute c k → k ≤ j := by
    intro k hno
    by_contra hlt
    have := hno j (by omega) e hplace.2
    simp [hwants] at this
  cases event with
  | receive m => exact .inl (Nat.zero_le j)
  | send m isApp => exact .inl (Nat.zero_le j)
  | hardwareIdle => exact .inl (Nat.zero_le j)
  | idle =>
    by_cases hdone : n ≤ c.rtcChecked
    · rw [searchOf_over hdone]
      exact .inl (Nat.zero_le j)
    have hlt : c.rtcChecked < n := by omega
    rcases idleSweep_chunk th hlt ho with ⟨k, d, hfinds, -⟩ | ⟨hno, -⟩
    · rw [searchOf_finds th hlt ho hfinds]
      have hk := hstop k hfinds.first
      by_cases hkj : k = j
      · subst hkj
        have hde : d = e := Fin.ext (hfinds.place.trans hplace.2.symm)
        rw [hde]
        exact .inr rfl
      · exact .inl (show k + 1 ≤ j by omega)
    · rw [searchOf_noCompute th hlt ho hno]
      exact .inl (hstop _ hno)

/-- Only idles move the search, by the number of positions they look at. -/
theorem threadStep_rtcOffset (ho : c.rtcOffset < n) (hok : threadStep th c event = .ok c') :
    c'.rtcOffset = (c.rtcOffset + (searchOf c event).2) % n := by
  have hstay : c.rtcOffset = (c.rtcOffset + 0) % n := (Nat.mod_eq_of_lt ho).symm
  have happened := threadStep_happened hok
  cases event with
  | receive m =>
    rcases happened with ⟨d, target, -, -, h⟩ | ⟨d, -, -, -, h, -⟩
    · exact h.rtcOffset.trans hstay
    · exact h.rtcOffset.trans hstay
  | send m isApp =>
    obtain ⟨size, s, h⟩ := happened
    rcases h with ⟨d, pinIndex, pin, r, h⟩ | ⟨-, -, -, h, -⟩
    · exact h.rtcOffset.trans hstay
    · exact h.rtcOffset.trans hstay
  | idle =>
    obtain ⟨more, h⟩ := happened
    rcases h with ⟨hdone, h⟩ | ⟨hlt, -, hno, h⟩ | ⟨hlt, -, k, d, hfinds, -, h⟩
    · cases h
      rw [searchOf_over hdone]
      exact hstay
    · cases h
      rw [searchOf_noCompute th hlt ho hno]
      rfl
    · rw [searchOf_finds th hlt ho hfinds]
      exact h.rtcOffset
  | hardwareIdle =>
    refine Eq.trans ?_ hstay
    apply softswitchOnHardwareIdle_keeps (I := fun s => s.rtcOffset = c.rtcOffset) rfl _ _ happened
    · rintro d s s' hs (rfl | ⟨_, -, h⟩)
      · exact hs
      · exact h.rtcOffset.trans hs
    · exact fun s hs => hs

/-- The device of `searchOf` is the one whose compute handler `softswitch_onIdle` enters. -/
theorem searchOf_enters (ho : c.rtcOffset < n) (hok : threadStep th c .idle = .ok c') :
    c'.sig = c.sig ++
      ((searchOf c (.idle : ThreadEvent A)).1.map
        fun d => .enter .compute d c.toTracking).toList := by
  obtain ⟨more, h⟩ := threadStep_happened hok
  rcases h with ⟨hdone, h⟩ | ⟨hlt, -, hno, h⟩ | ⟨hlt, -, k, d, hfinds, -, h⟩
  · cases h
    simp [searchOf_over hdone]
  · cases h
    rw [searchOf_noCompute th hlt ho hno]
    exact (List.append_nil _).symm
  · rw [searchOf_finds th hlt ho hfinds]
    exact h.sig

/-! ## Runs -/

/-- An event of a run, with the device it computes and the number of positions looked at. -/
structure Turn (A : AppTypes) (n : Nat) where
  event : ThreadEvent A
  computed : Option (Fin n)
  examined : Nat

/-- An event after which `e` wants to compute. -/
structure Wanting (th : PThread A n) (e : Fin n) (c : PThreadContext A n) (t : Turn A n)
    (c' : PThreadContext A n) : Prop where
  step : threadStep th c t.event = .ok c'
  search : searchOf c t.event = (t.computed, t.examined)
  wants : wantsCompute (c'.flags e) = true

/-- How many positions the search has looked at. -/
def examined (ts : List (Turn A n)) : Nat := (ts.map Turn.examined).sum

/-- `e` was `j` positions ahead of the search at `offset`, and is not passed in the events. -/
structure NotPassed (e : Fin n) (offset j : Nat) (ts : List (Turn A n))
    (c : PThreadContext A n) : Prop where
  wants : wantsCompute (c.flags e) = true
  offset_lt : c.rtcOffset < n
  rtcOffset : c.rtcOffset = (offset + examined ts) % n
  examined_le : examined ts ≤ j

theorem NotPassed.place {offset j : Nat} {ts : List (Turn A n)} (h : NotPassed e offset j ts c)
    (hplace : PlacesAhead offset j e) : PlacesAhead c.rtcOffset (j - examined ts) e := by
  rw [h.rtcOffset]
  exact hplace.advance h.examined_le

theorem NotPassed.step {offset j : Nat} {ts : List (Turn A n)} {t : Turn A n}
    (h : NotPassed e offset j ts c) (hplace : PlacesAhead offset j e) (hstep : Wanting th e c t c')
    (hne : t.computed ≠ some e) : NotPassed e offset j (ts ++ [t]) c' := by
  have hexamined : examined (ts ++ [t]) = examined ts + t.examined := by simp [examined]
  have hoffset := threadStep_rtcOffset h.offset_lt hstep.step
  have hle := h.examined_le
  rw [hstep.search] at hoffset
  have hnext : t.examined ≤ j - examined ts := by
    rcases searchOf_notPassed th t.event h.offset_lt (h.place hplace) h.wants with
      hle | heq
    · rw [hstep.search] at hle
      exact hle
    · rw [hstep.search] at heq
      exact absurd (congrArg Prod.fst heq) hne
  refine ⟨hstep.wants, ?_, ?_, by omega⟩
  · rw [hoffset]
    exact Nat.mod_lt _ (Nat.zero_lt_of_lt h.offset_lt)
  · rw [hoffset, hexamined, h.rtcOffset, Nat.mod_add_mod, Nat.add_assoc]

end Softswitch
