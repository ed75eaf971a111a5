/-!
# Channels that keep the order

What went into a channel has come out in order, but for what is inside.  Channels can be put one
after the other, and a part of the traffic can be looked at alone.
-/

namespace Pipe

variable {α β : Type _} {sent mid got inside inside' xs : List α}

/-- `sent` went in; `got` has come out of it, and `inside` has not. -/
def Passes (sent got inside : List α) : Prop := sent = got ++ inside

namespace Passes

theorem empty : Passes ([] : List α) [] [] := rfl

/-- What goes in is inside. -/
theorem put (h : Passes sent got inside) (xs : List α) :
    Passes (sent ++ xs) got (inside ++ xs) := by
  unfold Passes at *
  rw [h, List.append_assoc]

/-- What comes out was inside first. -/
theorem take (h : Passes sent got (xs ++ inside)) : Passes sent (got ++ xs) inside := by
  unfold Passes at *
  rw [h, List.append_assoc]

/-- All that is inside comes out. -/
theorem take_all (h : Passes sent got xs) : Passes sent (got ++ xs) [] := by
  unfold Passes at *
  rw [h, List.append_nil]

/-- What comes out of the first channel goes into the second one. -/
theorem trans (h : Passes sent mid inside) (h' : Passes mid got inside') :
    Passes sent got (inside' ++ inside) := by
  unfold Passes at *
  rw [h, h', List.append_assoc]

theorem filterMap (h : Passes sent got inside) (f : α → Option β) :
    Passes (sent.filterMap f) (got.filterMap f) (inside.filterMap f) := by
  unfold Passes at *
  rw [h, List.filterMap_append]

theorem of_mem (h : Passes sent got inside) {x : α} (hx : x ∈ got) : x ∈ sent := by
  rw [show sent = got ++ inside from h]
  exact List.mem_append_left _ hx

theorem of_mem_inside (h : Passes sent got inside) {x : α} (hx : x ∈ inside) : x ∈ sent := by
  rw [show sent = got ++ inside from h]
  exact List.mem_append_right _ hx

end Passes

end Pipe
