import Mathlib.Algebra.Order.Group.Multiset

/-!
# Messages in flight

A transport holds the messages that were sent and have not been received, in no order.  An
exchange takes some messages out and puts others in; nothing else happens to them.
-/

namespace Transport

variable {M : Type*} {flight flight' received sent : Multiset M}

/-- `received` is taken out of the messages in flight, and `sent` is put in. -/
def Exchange (flight received sent flight' : Multiset M) : Prop :=
  ∃ rest, flight = received + rest ∧ flight' = rest + sent

namespace Exchange

/-- What is in flight comes to what was sent less what was received. -/
theorem countP_eq (h : Exchange flight received sent flight') (P : M → Prop)
    [DecidablePred P] :
    flight'.countP P + received.countP P = flight.countP P + sent.countP P := by
  obtain ⟨rest, rfl, rfl⟩ := h
  rw [Multiset.countP_add, Multiset.countP_add]
  omega

/-- Without messages received or sent nothing changes. -/
theorem eq_of_nothing (h : Exchange flight 0 0 flight') : flight' = flight := by
  obtain ⟨rest, rfl, rfl⟩ := h
  rw [zero_add, add_zero]

theorem mem_of_mem_received (h : Exchange flight received sent flight') {x : M}
    (hx : x ∈ received) : x ∈ flight := by
  obtain ⟨rest, rfl, -⟩ := h
  exact Multiset.mem_add.2 (.inl hx)

/-- What holds of the messages in flight and of those that are sent holds of all that are in
flight afterwards. -/
theorem forall_mem (h : Exchange flight received sent flight') {P : M → Prop}
    (hflight : ∀ x ∈ flight, P x) (hsent : ∀ x ∈ sent, P x) : ∀ x ∈ flight', P x := by
  obtain ⟨rest, rfl, rfl⟩ := h
  intro x hx
  rcases Multiset.mem_add.1 hx with hx | hx
  · exact hflight x (Multiset.mem_add.2 (.inr hx))
  · exact hsent x hx

end Exchange

end Transport
