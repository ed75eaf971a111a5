import Softswitch.Lib.Outcome

/-!
# Computations that take notes

A computation of `Noting τ ε` is one of `Except ε` that notes things of type `τ` on its way.
`Takes m x l` says that `m` ends or stops as `x` does, with the notes `l`: the notes are then
read off the very computation that is run, and taking them changes nothing else.
-/

namespace Outcome

/-- Computations that take notes; the notes remain when the computation stops. -/
abbrev Noting (τ : Type) (ε : Type) : Type → Type := ExceptT ε (StateM (List τ))

namespace Noting

variable {τ ε α β : Type} {m : Noting τ ε α} {x : Except ε α} {l l' : List τ}

def note (t : τ) : Noting τ ε Unit := modify (· ++ [t])

def lift (x : Except ε α) : Noting τ ε α := ExceptT.mk (pure x)

/-- How the computation ends, and its notes. -/
def outcome (m : Noting τ ε α) : Except ε α × List τ := m.run.run []

/-- `m` ends as `x` does, and adds `l` to the notes. -/
def Takes (m : Noting τ ε α) (x : Except ε α) (l : List τ) : Prop :=
  ∀ l₀, m.run.run l₀ = (x, l₀ ++ l)

theorem Takes.outcome_eq (h : Takes m x l) : m.outcome = (x, l) := h []

/-! ## The rules -/

theorem takes_pure {a : α} : Takes (pure a : Noting τ ε α) (.ok a) [] := by
  intro l₀
  rw [List.append_nil]
  rfl

theorem takes_lift : Takes (lift x : Noting τ ε α) x [] := by
  intro l₀
  rw [List.append_nil]
  rfl

theorem takes_note {t : τ} : Takes (note t : Noting τ ε Unit) (.ok ()) [t] := fun _ => rfl

/-- The notes of a composition are those of both computations. -/
theorem Takes.bind {f : α → Noting τ ε β} {a : α} {y : Except ε β} (hm : Takes m (.ok a) l)
    (hf : Takes (f a) y l') : Takes (m >>= f) y (l ++ l') := by
  intro l₀
  have hrun : (m >>= f).run.run l₀ = (f a).run.run (l₀ ++ l) := by
    show (ExceptT.bindCont f (m.run.run l₀).1).run (m.run.run l₀).2 = _
    rw [hm l₀]
    rfl
  rw [hrun, hf, List.append_assoc]

/-- Where the first computation stops, its notes are all. -/
theorem Takes.stop {f : α → Noting τ ε β} {e : ε} (hm : Takes m (.error e) l) :
    Takes (m >>= f) (.error e) l := by
  intro l₀
  show (ExceptT.bindCont f (m.run.run l₀).1).run (m.run.run l₀).2 = _
  rw [hm l₀]
  rfl

theorem Takes.map {f : α → β} (hm : Takes m x l) :
    Takes (m >>= fun a => pure (f a)) (x >>= fun a => .ok (f a)) l := by
  cases x with
  | error e => exact hm.stop
  | ok a =>
    rw [← List.append_nil l]
    exact hm.bind takes_pure

/-- Some notes or other are taken, next to a composition. -/
theorem Takes.bind_exists {f : α → Noting τ ε β} {g : α → Except ε β} (hm : ∃ l, Takes m x l)
    (hf : ∀ a, ∃ l, Takes (f a) (g a) l) : ∃ l, Takes (m >>= f) (x >>= g) l := by
  obtain ⟨l, hm⟩ := hm
  cases x with
  | error e => exact ⟨l, hm.stop⟩
  | ok a =>
    obtain ⟨l', hf⟩ := hf a
    exact ⟨l ++ l', hm.bind hf⟩

end Noting

end Outcome
