import Mathlib.Logic.Function.Basic
import Softswitch.Lib.Outcome
import Softswitch.Lib.Runs

/-!
# A lock with a condition variable

Parties call operations on a shared state under one lock.  An operation ends, and may
notify every party that waits; or it waits until the state is ready for it, which gives the
lock free.  A party that waits sleeps until it is notified, or wakes up for no reason; then
it looks at the state, and goes on with its operation or sleeps again.
-/

namespace Monitor

open Outcome Runs Function

variable {S O W R ε ι : Type*}

/-- What an operation comes to while it has the lock: it ends, in the state `s` and with the
result `r`, or it waits for `w` and has not changed the state. -/
inductive Section (S W R : Type*)
  | done (s : S) (notify : Bool) (r : R)
  | wait (w : W)

/-- Operations on a shared state.  `ready` is what a wait is for, and `resume` is the rest of
the operation. -/
structure Operations (S O W R ε : Type*) where
  call : S → O → Except ε (Section S W R)
  ready : S → W → Bool
  resume : S → W → Except ε (S × Bool × R)
  not_ready : ∀ {s o w}, call s o = .ok (.wait w) → ready s w = false

/-- What a party waits for, and whether it was notified since it last looked at the state. -/
structure Waiter (W : Type*) where
  wait : W
  notified : Bool

/-- The shared state and the parties that wait, with the lock free. -/
structure Config (S W ι : Type*) where
  shared : S
  waiting : ι → Option (Waiter W)

/-- Nobody waits. -/
def start (s : S) : Config S W ι := ⟨s, fun _ => none⟩

/-- `notify_all`, if asked for. -/
def notifyAll (notify : Bool) (waiting : ι → Option (Waiter W)) : ι → Option (Waiter W) :=
  fun i => (waiting i).map fun w => { w with notified := notify || w.notified }

variable [DecidableEq ι] {M : Operations S O W R ε} {allowed : S → O → Prop} {s s' : S} {o : O}
  {w : W} {notify : Bool} {r : R} {g g₀ g' : Config S W ι} {i : ι} {ls : List (Option R)}

/-- The steps of the parties; those that end an operation are labelled with its result. -/
inductive Step (M : Operations S O W R ε) (allowed : S → O → Prop) :
    Config S W ι → Option R → Config S W ι → Prop
  | ends {g : Config S W ι} {i : ι} {o : O} {s : S} {notify : Bool} {r : R}
      (hi : g.waiting i = none) (ho : allowed g.shared o)
      (hcall : M.call g.shared o = .ok (.done s notify r)) :
      Step M allowed g (some r) ⟨s, notifyAll notify g.waiting⟩
  | blocks {g : Config S W ι} {i : ι} {o : O} {w : W} (hi : g.waiting i = none)
      (ho : allowed g.shared o) (hcall : M.call g.shared o = .ok (.wait w)) :
      Step M allowed g none ⟨g.shared, update g.waiting i (some ⟨w, false⟩)⟩
  | sleeps {g : Config S W ι} {i : ι} {x : Waiter W} (hi : g.waiting i = some x)
      (hready : M.ready g.shared x.wait = false) :
      Step M allowed g none ⟨g.shared, update g.waiting i (some ⟨x.wait, false⟩)⟩
  | resumes {g : Config S W ι} {i : ι} {x : Waiter W} {s : S} {notify : Bool} {r : R}
      (hi : g.waiting i = some x) (hready : M.ready g.shared x.wait = true)
      (hresume : M.resume g.shared x.wait = .ok (s, notify, r)) :
      Step M allowed g (some r) ⟨s, notifyAll notify (update g.waiting i none)⟩

/-- The steps of party `i`, which may call the operations of `calls`. -/
inductive PartyStep (M : Operations S O W R ε) (i : ι) (calls : O → Prop) :
    Config S W ι → Option R → Config S W ι → Prop
  | ends {g : Config S W ι} {o : O} {s : S} {notify : Bool} {r : R} (hi : g.waiting i = none)
      (ho : calls o) (hcall : M.call g.shared o = .ok (.done s notify r)) :
      PartyStep M i calls g (some r) ⟨s, notifyAll notify g.waiting⟩
  | blocks {g : Config S W ι} {o : O} {w : W} (hi : g.waiting i = none) (ho : calls o)
      (hcall : M.call g.shared o = .ok (.wait w)) :
      PartyStep M i calls g none ⟨g.shared, update g.waiting i (some ⟨w, false⟩)⟩
  | sleeps {g : Config S W ι} {x : Waiter W} (hi : g.waiting i = some x)
      (hready : M.ready g.shared x.wait = false) :
      PartyStep M i calls g none ⟨g.shared, update g.waiting i (some ⟨x.wait, false⟩)⟩
  | resumes {g : Config S W ι} {x : Waiter W} {s : S} {notify : Bool} {r : R}
      (hi : g.waiting i = some x) (hready : M.ready g.shared x.wait = true)
      (hresume : M.resume g.shared x.wait = .ok (s, notify, r)) :
      PartyStep M i calls g (some r) ⟨s, notifyAll notify (update g.waiting i none)⟩

theorem PartyStep.step {calls : O → Prop} {l : Option R} (h : PartyStep M i calls g l g')
    (hcalls : ∀ o, calls o → allowed g.shared o) : Step M allowed g l g' := by
  cases h with
  | ends hi ho hcall => exact .ends hi (hcalls _ ho) hcall
  | blocks hi ho hcall => exact .blocks hi (hcalls _ ho) hcall
  | sleeps hi hready => exact .sleeps hi hready
  | resumes hi hready hresume => exact .resumes hi hready hresume

/-- The results of the operations that ended, in order. -/
def results (ls : List (Option R)) : List R := ls.filterMap id

@[simp] theorem results_snoc {l : Option R} : results (ls ++ [l]) = results ls ++ l.toList := by
  cases l <;> simp [results]

omit [DecidableEq ι] in
theorem notifyAll_eq_some {waiting : ι → Option (Waiter W)} {x : Waiter W}
    (h : notifyAll notify waiting i = some x) :
    ∃ y, waiting i = some y ∧ x.wait = y.wait ∧ x.notified = (notify || y.notified) := by
  unfold notifyAll at h
  obtain ⟨y, hy, rfl⟩ := Option.map_eq_some_iff.1 h
  exact ⟨y, hy, rfl, rfl⟩

/-! ## Invariants -/

/-- `I` speaks of the results so far and the state, and `J` of what a party waits for.  An
allowed operation that ends keeps `I`, one that waits does so for `J`; where it stops, `E`
says why. -/
structure Keeps (M : Operations S O W R ε) (allowed : S → O → Prop) (I : List R → S → Prop)
    (J : W → Prop) (E : ε → Prop) : Prop where
  call : ∀ rs s o, I rs s → allowed s o → Sat (M.call s o)
    (fun | .done s' _ r => I (rs ++ [r]) s' | .wait w => J w) E
  resume : ∀ rs s w, I rs s → J w → M.ready s w = true →
    Sat (M.resume s w) (fun out => I (rs ++ [out.2.2]) out.1) E

theorem Keeps.step {I : List R → S → Prop} {J : W → Prop} {E : ε → Prop} {l : Option R}
    (h : Keeps M allowed I J E) (hI : I (results ls) g.shared)
    (hJ : ∀ i x, g.waiting i = some x → J x.wait) (hstep : Step M allowed g l g') :
    I (results (ls ++ [l])) g'.shared ∧ ∀ i x, g'.waiting i = some x → J x.wait := by
  rw [results_snoc]
  cases hstep with
  | @ends j o s notify r hi ho hcall =>
    refine ⟨(h.call _ _ o hI ho).of_ok hcall, fun i x hx => ?_⟩
    obtain ⟨y, hy, hwait, -⟩ := notifyAll_eq_some hx
    rw [hwait]
    exact hJ i y hy
  | @blocks j o w hi ho hcall =>
    refine ⟨by simpa using hI, fun i x hx => ?_⟩
    by_cases hij : i = j
    · subst hij
      obtain rfl : ⟨w, false⟩ = x := by simpa using hx
      exact (h.call _ _ o hI ho).of_ok hcall
    · exact hJ i x (by simpa [hij] using hx)
  | @sleeps j y hj hready =>
    refine ⟨by simpa using hI, fun i x hx => ?_⟩
    by_cases hij : i = j
    · subst hij
      obtain rfl : ⟨y.wait, false⟩ = x := by simpa using hx
      exact hJ i y hj
    · exact hJ i x (by simpa [hij] using hx)
  | @resumes j y s notify r hj hready hresume =>
    refine ⟨(h.resume _ _ _ hI (hJ j y hj) hready).of_ok hresume, fun i x hx => ?_⟩
    obtain ⟨z, hz, hwait, -⟩ := notifyAll_eq_some hx
    rw [hwait]
    by_cases hij : i = j
    · subst hij
      simp at hz
    · exact hJ i z (by simpa [hij] using hz)

/-- What the operations keep holds along every run. -/
theorem Keeps.run {I : List R → S → Prop} {J : W → Prop} {E : ε → Prop}
    (h : Keeps M allowed I J E) (hI : I [] g₀.shared)
    (hJ : ∀ i x, g₀.waiting i = some x → J x.wait) (hrun : Run (Step M allowed) g₀ ls g) :
    I (results ls) g.shared ∧ ∀ i x, g.waiting i = some x → J x.wait := by
  apply hrun.invariant (I := fun ls g => I (results ls) g.shared ∧
    ∀ i x, g.waiting i = some x → J x.wait)
  · exact ⟨hI, hJ⟩
  · intro ls g l g' hg hstep
    exact h.step hg.1 hg.2 hstep

/-! ## Steps of one party -/

section PartyStep

variable {calls : O → Prop} {l : Option R}

/-- After a step of party `i` the others wait for what they waited for. -/
theorem PartyStep.waiting_of_ne (h : PartyStep M i calls g l g') {j : ι} {x : Waiter W} (hj : j ≠ i)
    (hx : g'.waiting j = some x) : ∃ y, g.waiting j = some y ∧ x.wait = y.wait := by
  cases h with
  | ends =>
    obtain ⟨y, hy, hwait, -⟩ := notifyAll_eq_some hx
    exact ⟨y, hy, hwait⟩
  | blocks => exact ⟨x, (update_of_ne hj ..).symm.trans hx, rfl⟩
  | sleeps => exact ⟨x, (update_of_ne hj ..).symm.trans hx, rfl⟩
  | resumes =>
    obtain ⟨y, hy, hwait, -⟩ := notifyAll_eq_some hx
    exact ⟨y, (update_of_ne hj ..).symm.trans hy, hwait⟩

/-- The party itself waits only where its operation did not end: for what a call of it came to, or
for what it waited for before. -/
theorem PartyStep.waiting_self (h : PartyStep M i calls g l g') {x : Waiter W}
    (hx : g'.waiting i = some x) :
    l = none ∧ ((∃ o, calls o ∧ M.call g.shared o = .ok (.wait x.wait)) ∨
      ∃ y, g.waiting i = some y ∧ x.wait = y.wait) := by
  cases h with
  | ends hi =>
    obtain ⟨y, hy, -⟩ := notifyAll_eq_some hx
    rw [hi] at hy
    cases hy
  | blocks hi ho hcall =>
    cases (update_self ..).symm.trans hx
    exact ⟨rfl, .inl ⟨_, ho, hcall⟩⟩
  | sleeps hi =>
    cases (update_self ..).symm.trans hx
    exact ⟨rfl, .inr ⟨_, hi, rfl⟩⟩
  | resumes =>
    obtain ⟨y, hy, -⟩ := notifyAll_eq_some hx
    cases (update_self ..).symm.trans hy

/-- Where a step ends no operation, the state is as it was. -/
theorem PartyStep.shared_eq (h : PartyStep M i calls g none g') : g'.shared = g.shared := by
  cases h with
  | blocks => rfl
  | sleeps => rfl

/-- A party whose call can end, or whose wait is over, has a step that ends its operation. -/
theorem exists_partyStep (hcall : g.waiting i = none →
      ∃ o s notify r, calls o ∧ M.call g.shared o = .ok (.done s notify r))
    (hresume : ∀ x, g.waiting i = some x → M.ready g.shared x.wait = true ∧
      ∃ out, M.resume g.shared x.wait = .ok out) : ∃ r g', PartyStep M i calls g (some r) g' := by
  cases hi : g.waiting i with
  | none =>
    obtain ⟨o, s, notify, r, ho, hdone⟩ := hcall hi
    exact ⟨r, _, .ends hi ho hdone⟩
  | some x =>
    obtain ⟨hready, ⟨s, notify, r⟩, hdone⟩ := hresume x hi
    exact ⟨r, _, .resumes hi hready hdone⟩

end PartyStep

/-! ## Wakeups -/

/-- An operation that makes the state ready for a wait notifies. -/
structure Notifies (M : Operations S O W R ε) : Prop where
  call : ∀ {s o s' r w}, M.call s o = .ok (.done s' false r) → M.ready s w = false →
    M.ready s' w = false
  resume : ∀ {s v s' r w}, M.ready s v = true → M.resume s v = .ok (s', false, r) →
    M.ready s w = false → M.ready s' w = false

/-- Nobody sleeps through: the state is not ready for a party that was not notified since it
last looked. -/
def NoLostWakeup (M : Operations S O W R ε) (g : Config S W ι) : Prop :=
  ∀ i x, g.waiting i = some x → x.notified = false → M.ready g.shared x.wait = false

theorem Notifies.step {l : Option R} (h : Notifies M) (hg : NoLostWakeup M g)
    (hstep : Step M allowed g l g') : NoLostWakeup M g' := by
  intro i x hx hnotified
  cases hstep with
  | @ends j o s notify r hi ho hcall =>
    obtain ⟨y, hy, hwait, hn⟩ := notifyAll_eq_some hx
    rw [hnotified, eq_comm, Bool.or_eq_false_iff] at hn
    obtain ⟨rfl, hn⟩ := hn
    rw [hwait]
    exact h.call hcall (hg i y hy hn)
  | @blocks j o w hi ho hcall =>
    by_cases hij : i = j
    · subst hij
      obtain rfl : ⟨w, false⟩ = x := by simpa using hx
      exact M.not_ready hcall
    · exact hg i x (by simpa [hij] using hx) hnotified
  | @sleeps j y hj hready =>
    by_cases hij : i = j
    · subst hij
      obtain rfl : ⟨y.wait, false⟩ = x := by simpa using hx
      exact hready
    · exact hg i x (by simpa [hij] using hx) hnotified
  | @resumes j y s notify r hj hready hresume =>
    obtain ⟨z, hz, hwait, hn⟩ := notifyAll_eq_some hx
    rw [hnotified, eq_comm, Bool.or_eq_false_iff] at hn
    obtain ⟨rfl, hn⟩ := hn
    rw [hwait]
    by_cases hij : i = j
    · subst hij
      simp at hz
    · exact h.resume hready hresume (hg i z (by simpa [hij] using hz) hn)

/-- Nobody sleeps through, in any run. -/
theorem Notifies.run (h : Notifies M)
    (hrun : Run (Step M allowed) (start s : Config S W ι) ls g) : NoLostWakeup M g := by
  apply hrun.invariant (I := fun _ g => NoLostWakeup M g)
  · intro i x hx
    cases hx
  · intro ls g l g' hg hstep
    exact h.step hg hstep

end Monitor
