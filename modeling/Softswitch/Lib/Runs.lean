import Mathlib.Logic.Function.Iterate
import Mathlib.Tactic.Choose

/-!
# Runs of a labelled transition system

A run lists its labels in order.  An invariant may speak of the labels so far; it is kept
along every run if every step keeps it.  Of some labels something is observed (`Performs`), and a
run without end is followed by arbitrarily long ones (`exists_length_ge`).  A system that can go on
wherever it is not at rest, but not for ever, comes to rest (`exists_rest`).
-/

namespace Runs

variable {S E O : Type _} {step : S → E → S → Prop} {s₀ s s' : S} {es es' : List E}

/-- The system goes from `s₀` to the last state with the labels in order. -/
inductive Run (step : S → E → S → Prop) (s₀ : S) : List E → S → Prop
  | nil : Run step s₀ [] s₀
  | snoc {es : List E} {e : E} {s s' : S} (h : Run step s₀ es s) (hstep : step s e s') :
      Run step s₀ (es ++ [e]) s'

namespace Run

/-- What holds at the start and is kept by every step holds along every run. -/
theorem invariant {I : List E → S → Prop} (h : Run step s₀ es s) (hstart : I [] s₀)
    (hstep : ∀ es s e s', I es s → step s e s' → I (es ++ [e]) s') : I es s := by
  induction h with
  | nil => exact hstart
  | snoc _ hs ih => exact hstep _ _ _ _ ih hs

theorem append (h : Run step s₀ es s) (h' : Run step s es' s') : Run step s₀ (es ++ es') s' := by
  induction h' with
  | nil => simpa using h
  | snoc _ hs ih =>
    rw [← List.append_assoc]
    exact ih.snoc hs

/-- If every step uses up one of `μ`, what is left of it and the length of a run add up to what
there was at the start. -/
theorem length_add {μ : S → Nat} {I : S → Prop} (h : Run step s₀ es s) (hstart : I s₀)
    (hstep : ∀ s e s', I s → step s e s' → I s' ∧ μ s' + 1 = μ s) : es.length + μ s = μ s₀ := by
  have hall : I s ∧ es.length + μ s = μ s₀ := by
    induction h with
    | nil => exact ⟨hstart, Nat.zero_add _⟩
    | snoc _ hs ih =>
      obtain ⟨hI, hone⟩ := hstep _ _ _ ih.1 hs
      refine ⟨hI, ?_⟩
      rw [List.length_append, List.length_singleton, ← ih.2]
      omega
  exact hall.2

end Run

/-- Some run goes from `s₀` to `s`, and `os` is what is observed of it. -/
def Performs (step : S → E → S → Prop) (observe : E → Option O) (os : List O) (s₀ s : S) : Prop :=
  ∃ es, Run step s₀ es s ∧ es.filterMap observe = os

namespace Performs

variable {observe : E → Option O} {os os' : List O}

theorem refl (s : S) : Performs step observe [] s s := ⟨[], .nil, rfl⟩

theorem single {e : E} (h : step s e s') : Performs step observe (observe e).toList s s' := by
  refine ⟨_, Run.nil.snoc h, ?_⟩
  cases hobserve : observe e with
  | none => exact List.filterMap_cons_none hobserve
  | some o => exact List.filterMap_cons_some hobserve

theorem trans {s'' : S} (h : Performs step observe os s s')
    (h' : Performs step observe os' s' s'') : Performs step observe (os ++ os') s s'' := by
  obtain ⟨es, h, rfl⟩ := h
  obtain ⟨es', h', rfl⟩ := h'
  exact ⟨es ++ es', h.append h', List.filterMap_append⟩

end Performs

/-- A run without end of one system is followed by arbitrarily long runs of another one, if a step
that is not followed by any step lowers a measure.  `R` relates the states of the first system to
the runs of the second. -/
theorem exists_length_ge {R : S → List E → Prop} {μ : S → Nat} {run : Nat → S}
    (hstart : ∃ es, R (run 0) es)
    (hstep : ∀ k es, R (run k) es →
      ∃ es', R (run (k + 1)) (es ++ es') ∧ (es' ≠ [] ∨ μ (run (k + 1)) < μ (run k)))
    (m : Nat) : ∃ k es, R (run k) es ∧ m ≤ es.length := by
  induction m with
  | zero =>
    obtain ⟨es, hes⟩ := hstart
    exact ⟨0, es, hes, Nat.zero_le _⟩
  | succ m ih =>
    obtain ⟨k, es, hes, hlength⟩ := ih
    -- by induction on what can still be lowered before a step is followed
    induction hμ : μ (run k) using Nat.strongRecOn generalizing k es with
    | _ n ihμ =>
      subst hμ
      obtain ⟨es', hes', hnew | hlower⟩ := hstep k es hes
      · refine ⟨k + 1, es ++ es', hes', ?_⟩
        have hpos := List.length_pos_iff.2 hnew
        rw [List.length_append]
        omega
      · refine ihμ _ hlower (k + 1) (es ++ es') hes' ?_ rfl
        rw [List.length_append]
        omega

/-- A system that can go on wherever it is not at rest, but not for ever, comes to rest from every
state that it reaches. -/
theorem exists_rest {Reached Active : S → Prop} {next : S → S → Prop} (hs : Reached s)
    (hkeep : ∀ s s', Reached s → next s s' → Reached s')
    (hgo : ∀ s, Reached s → Active s → ∃ s', next s s')
    (hends : ∀ run : Nat → S, Reached (run 0) → (∀ k, next (run k) (run (k + 1))) →
      ∃ k, ¬Active (run k)) : ∃ s, Reached s ∧ ¬Active s := by
  by_contra hnone
  have hactive : ∀ s, Reached s → Active s := fun s hs => by_contra fun h => hnone ⟨s, hs, h⟩
  have hsteps : ∀ s : {s // Reached s}, ∃ s' : {s // Reached s}, next s s' := by
    rintro ⟨s, hs⟩
    obtain ⟨s', hstep⟩ := hgo s hs (hactive s hs)
    exact ⟨⟨s', hkeep s s' hs hstep⟩, hstep⟩
  choose following hfollowing using hsteps
  let run (k : Nat) : S := (following^[k] ⟨s, hs⟩ : {s // Reached s})
  have hrun : ∀ k, next (run k) (run (k + 1)) := by
    intro k
    dsimp only [run]
    rw [Function.iterate_succ_apply']
    exact hfollowing _
  obtain ⟨k, hrest⟩ := hends run hs hrun
  exact hrest (hactive _ (following^[k] ⟨s, hs⟩).property)

end Runs
