import Mathlib.Logic.Basic
import Mathlib.Data.List.Basic

/-!
# Computations that end or stop

A computation `x : Except ε α` ends with a value or stops with an error, and the
error may carry the state the computation stopped in.  `Sat x Q E` is the
two-sided postcondition: a value satisfies `Q`, an error satisfies `E`.
`runList` runs a list of inputs through a step function.
-/

namespace Outcome

universe u v w

variable {ε : Type u} {α β σ : Type v} {ι : Type w}

@[simp] theorem ok_bind (a : α) (f : α → Except ε β) : (Except.ok a >>= f) = f a := rfl

@[simp] theorem error_bind (e : ε) (f : α → Except ε β) :
    (Except.error e >>= f) = Except.error e := rfl

@[simp] theorem pure_eq_ok (a : α) : (pure a : Except ε α) = .ok a := rfl

theorem bind_eq_ok {x : Except ε α} {f : α → Except ε β} {b : β} :
    (x >>= f) = .ok b ↔ ∃ a, x = .ok a ∧ f a = .ok b := by
  cases x with
  | error e => simp
  | ok a => simp

theorem bind_eq_error {x : Except ε α} {f : α → Except ε β} {e : ε} :
    (x >>= f) = .error e ↔ x = .error e ∨ ∃ a, x = .ok a ∧ f a = .error e := by
  cases x with
  | error e' => simp
  | ok a => simp

/-! ## Two-sided postconditions -/

/-- A value of `x` satisfies `Q`, an error of `x` satisfies `E`. -/
def Sat (x : Except ε α) (Q : α → Prop) (E : ε → Prop) : Prop :=
  match x with
  | .ok a => Q a
  | .error e => E e

@[simp] theorem sat_ok {a : α} {Q : α → Prop} {E : ε → Prop} :
    Sat (.ok a : Except ε α) Q E ↔ Q a := Iff.rfl

@[simp] theorem sat_error {e : ε} {Q : α → Prop} {E : ε → Prop} :
    Sat (.error e : Except ε α) Q E ↔ E e := Iff.rfl

theorem sat_true {x : Except ε α} : Sat x (fun _ => True) fun _ => True := by
  cases x <;> trivial

/-- A weaker postcondition holds as well. -/
theorem Sat.mono {x : Except ε α} {Q Q' : α → Prop} {E E' : ε → Prop} (h : Sat x Q E)
    (hQ : ∀ a, Q a → Q' a) (hE : ∀ e, E e → E' e) : Sat x Q' E' := by
  cases x with
  | error e => exact hE e h
  | ok a => exact hQ a h

theorem Sat.and {x : Except ε α} {Q Q' : α → Prop} {E E' : ε → Prop} (h : Sat x Q E)
    (h' : Sat x Q' E') : Sat x (fun a => Q a ∧ Q' a) (fun e => E e ∧ E' e) := by
  cases x with
  | error e => exact ⟨h, h'⟩
  | ok a => exact ⟨h, h'⟩

/-- The composition rule. -/
theorem Sat.bind {x : Except ε α} {f : α → Except ε β} {R : α → Prop} {Q : β → Prop}
    {E : ε → Prop} (hx : Sat x R E) (hf : ∀ a, x = .ok a → R a → Sat (f a) Q E) :
    Sat (x >>= f) Q E := by
  cases x with
  | error e => exact hx
  | ok a => exact hf a rfl hx

/-- The composition rule where nothing is said of the errors. -/
theorem Sat.bind_ok {x : Except ε α} {f : α → Except ε β} {Q : β → Prop}
    (hf : ∀ a, x = .ok a → Sat (f a) Q fun _ => True) : Sat (x >>= f) Q fun _ => True := by
  cases x with
  | error e => trivial
  | ok a => exact hf a rfl

theorem Sat.of_ok {x : Except ε α} {Q : α → Prop} {E : ε → Prop} {a : α} (h : Sat x Q E)
    (hx : x = .ok a) : Q a := by
  subst hx
  exact h

theorem Sat.of_error {x : Except ε α} {Q : α → Prop} {E : ε → Prop} {e : ε} (h : Sat x Q E)
    (hx : x = .error e) : E e := by
  subst hx
  exact h

/-- The loop rule: `I` holds before every iteration, and after the last one. -/
theorem Sat.foldlM {f : σ → ι → Except ε σ} {I : σ → Prop} {E : ε → Prop} {is : List ι}
    (hf : ∀ s, ∀ i ∈ is, I s → Sat (f s i) I E) {s : σ} (hs : I s) :
    Sat (is.foldlM f s) I E := by
  induction is generalizing s with
  | nil => exact hs
  | cons i is ih =>
    rw [List.foldlM_cons]
    refine Sat.bind (hf s i List.mem_cons_self hs) fun s' _ hs' => ?_
    exact ih (fun t j hj => hf t j (List.mem_cons_of_mem i hj)) hs'

/-- The loop rule, with an invariant that tells what the iterations so far were over. -/
theorem Sat.foldlM_prefix {f : σ → ι → Except ε σ} {I : List ι → σ → Prop} {E : ε → Prop}
    {is : List ι} (hf : ∀ pre i post s, is = pre ++ i :: post → I pre s →
      Sat (f s i) (I (pre ++ [i])) E) {s : σ} (hs : I [] s) : Sat (is.foldlM f s) (I is) E := by
  induction is generalizing s I with
  | nil => exact hs
  | cons i is ih =>
    rw [List.foldlM_cons]
    refine Sat.bind (hf [] i is s rfl hs) fun s' _ hs' => ?_
    have hf' : ∀ pre j post t, is = pre ++ j :: post → I (i :: pre) t →
        Sat (f t j) (I (i :: (pre ++ [j]))) E := by
      rintro pre j post t rfl ht
      exact hf (i :: pre) j post t rfl ht
    exact @ih (fun pre => I (i :: pre)) hf' s' hs'

/-- The rule for a loop over the indices below `n`. -/
theorem Sat.foldlM_finRange {n : Nat} {f : σ → Fin n → Except ε σ} {I : Nat → σ → Prop}
    {E : ε → Prop} (hf : ∀ (i : Fin n) s, I i s → Sat (f s i) (I (i + 1)) E) {s : σ}
    (hs : I 0 s) : Sat ((List.finRange n).foldlM f s) (I n) E := by
  have hloop : Sat ((List.finRange n).foldlM f s) (I (List.finRange n).length) E := by
    refine @Sat.foldlM_prefix _ _ _ f (fun pre => I pre.length) E _ ?_ s hs
    intro pre i post t heq ht
    have hi : (i : Nat) = pre.length := by
      have hget : (List.finRange n)[pre.length]? = some i := by
        rw [heq, List.getElem?_append_right (Nat.le_refl _)]
        simp
      rw [List.getElem?_eq_some_iff] at hget
      obtain ⟨hlt, hget⟩ := hget
      rw [← hget]
      simp
    rw [List.length_append, List.length_singleton, ← hi]
    rw [← hi] at ht
    exact hf i t ht
  simpa using hloop

/-! ## Two computations in step -/

/-- If `x` ends with a value, `y` ends with one that `R` relates to it. -/
def Matches {α' : Type v} (R : α → α' → Prop) (x : Except ε α) (y : Except ε α') : Prop :=
  ∀ a, x = .ok a → ∃ a', y = .ok a' ∧ R a a'

namespace Matches

variable {α' β' σ' : Type v} {R : α → α' → Prop} {S : β → β' → Prop} {x : Except ε α}
  {y : Except ε α'}

theorem ok {a : α} {a' : α'} (h : R a a') : Matches R (.ok a : Except ε α) (.ok a') := by
  intro b hb
  cases hb
  exact ⟨a', rfl, h⟩

theorem error {e : ε} : Matches R (.error e) y := by
  intro a h
  cases h

theorem bind {f : α → Except ε β} {g : α' → Except ε β'} (hx : Matches R x y)
    (hf : ∀ a a', R a a' → Matches S (f a) (g a')) : Matches S (x >>= f) (y >>= g) := by
  intro b hb
  obtain ⟨a, ha, hb⟩ := bind_eq_ok.1 hb
  obtain ⟨a', ha', hR⟩ := hx a ha
  obtain ⟨b', hb', hS⟩ := hf a a' hR b hb
  exact ⟨b', bind_eq_ok.2 ⟨a', ha', hb'⟩, hS⟩

theorem ite {p : Prop} [Decidable p] {x' : Except ε α} {y' : Except ε α'}
    (h : p → Matches R x y) (h' : ¬p → Matches R x' y') :
    Matches R (if p then x else x') (if p then y else y') := by
  split
  · rename_i hp
    exact h hp
  · rename_i hp
    exact h' hp

theorem mono {R' : α → α' → Prop} (h : Matches R x y) (hR : ∀ a a', R a a' → R' a a') :
    Matches R' x y := by
  intro a ha
  obtain ⟨a', ha', h⟩ := h a ha
  exact ⟨a', ha', hR a a' h⟩

/-- The values may be said to be those of the computations. -/
theorem with_ok (h : Matches R x y) :
    Matches (fun a a' => R a a' ∧ x = .ok a ∧ y = .ok a') x y := by
  intro a ha
  obtain ⟨a', ha', h⟩ := h a ha
  exact ⟨a', ha', h, ha, ha'⟩

/-- Two loops over the same elements. -/
theorem foldlM {f : σ → ι → Except ε σ} {g : σ' → ι → Except ε σ'} {R : σ → σ' → Prop}
    {is : List ι} (hf : ∀ s s' i, R s s' → Matches R (f s i) (g s' i)) {s : σ} {s' : σ'}
    (hs : R s s') : Matches R (is.foldlM f s) (is.foldlM g s') := by
  induction is generalizing s s' with
  | nil => exact ok hs
  | cons i is ih =>
    rw [List.foldlM_cons, List.foldlM_cons]
    exact bind (hf s s' i hs) fun _ _ h => ih h

end Matches

/-! ## Runs -/

/-- Take the inputs `is` in order from `s`. -/
def runList (step : σ → ι → Except ε σ) (s : σ) (is : List ι) : Except ε σ :=
  is.foldlM step s

variable {step : σ → ι → Except ε σ} {s s' : σ} {is is' : List ι} {i : ι}

@[simp] theorem runList_nil : runList step s [] = .ok s := rfl

theorem runList_cons : runList step s (i :: is) = step s i >>= fun t => runList step t is :=
  List.foldlM_cons

theorem runList_append :
    runList step s (is ++ is') = runList step s is >>= fun t => runList step t is' :=
  List.foldlM_append

theorem runList_snoc : runList step s (is ++ [i]) = runList step s is >>= fun t => step t i := by
  rw [runList_append]
  congr 1
  funext t
  rw [runList_cons]
  cases step t i <;> rfl

/-- What every step preserves holds at the end of every run. -/
theorem runList_invariant {I : σ → Prop} (hstep : ∀ s i s', I s → step s i = .ok s' → I s')
    (hs : I s) (h : runList step s is = .ok s') : I s' := by
  induction is generalizing s with
  | nil =>
    cases h
    exact hs
  | cons i is ih =>
    rw [runList_cons, bind_eq_ok] at h
    obtain ⟨t, hi, ht⟩ := h
    exact ih (hstep s i t hs hi) ht

/-- Where the same `m` inputs make a measure decrease until it is zero, they bring it to zero. -/
theorem runList_exhausts {I : σ → Prop} {μ : σ → Nat} {m : Nat}
    (hstep : ∀ s, I s → 0 < μ s → ∃ s', runList step s (List.replicate m i) = .ok s' ∧ I s' ∧
      μ s' < μ s) (hs : I s) :
    ∃ k s', k ≤ m * μ s ∧ runList step s (List.replicate k i) = .ok s' ∧ I s' ∧ μ s' = 0 := by
  induction hμ : μ s using Nat.strongRecOn generalizing s with
  | _ p ih =>
    rcases Nat.eq_zero_or_pos p with rfl | hpos
    · exact ⟨0, s, Nat.zero_le _, rfl, hs, hμ⟩
    obtain ⟨s₁, hrun₁, hs₁, hlt⟩ := hstep s hs (hμ ▸ hpos)
    obtain ⟨k, s₂, hk, hrun₂, hs₂, hzero⟩ := ih _ (hμ ▸ hlt) hs₁ rfl
    refine ⟨m + k, s₂, ?_, ?_, hs₂, hzero⟩
    · calc m + k ≤ m + m * μ s₁ := Nat.add_le_add_left hk m
        _ = m * (μ s₁ + 1) := by rw [Nat.mul_succ, Nat.add_comm]
        _ ≤ m * p := Nat.mul_le_mul_left m (hμ ▸ hlt)
    · rw [List.replicate_add, runList_append, hrun₁, ok_bind]
      exact hrun₂

/-- A run that stops has a longest prefix that ends, and stops at the next input. -/
theorem runList_error {e : ε} (h : runList step s is = .error e) :
    ∃ pre i post t, is = pre ++ i :: post ∧ runList step s pre = .ok t ∧ step t i = .error e := by
  induction is generalizing s with
  | nil => cases h
  | cons i is ih =>
    rw [runList_cons, bind_eq_error] at h
    rcases h with h | ⟨t, hi, ht⟩
    · exact ⟨[], i, is, s, rfl, rfl, h⟩
    · obtain ⟨pre, j, post, u, rfl, hpre, hj⟩ := ih ht
      refine ⟨i :: pre, j, post, u, rfl, ?_, hj⟩
      rw [runList_cons, hi]
      exact hpre

theorem runList_error_of_prefix {e : ε} {pre post : List ι} {t : σ}
    (hpre : runList step s pre = .ok t) (hi : step t i = .error e) :
    runList step s (pre ++ i :: post) = .error e := by
  rw [runList_append, hpre, ok_bind, runList_cons, hi, error_bind]

end Outcome
