import Mathlib.Algebra.BigOperators.Group.Finset.Piecewise
import Mathlib.Data.Fintype.Basic

/-!
# Networks that carry datagrams

A network is known by what its calls can come to (`Net`).  Two things may be relied on: what one
party sends to another one is received in order (`InOrder`), and a call returns where there is
something to receive, or nothing in the way of a send (`Live`).  Sockets, each of which has one
queue for all that is sent to it (`Sockets`), and ranks, between any two of which there is a queue
(`Ranks`), have both.
-/

namespace Datagrams

open Function

variable {ι α M : Type}

/-- What comes in, and the party that sent it. -/
structure Datagram (ι M : Type) where
  source : ι
  data : M

/-- What the calls of a network can come to in a state; `none` is an error.  A party sends to an
address.  Whether the call returns may depend on who is receiving. -/
structure Net (ι α M : Type) where
  State : Type
  start : State
  bind : State → ι → Option State → Prop
  sendto : State → (receiving : ι → Prop) → ι → α → M → Option State → Prop
  recvfrom : State → ι → Option (Datagram ι M × State) → Prop

/-- A call returns where there is something to receive, and where nothing is in the network and
everybody receives. -/
structure Live (net : Net ι α M) (inside : net.State → ι → ι → List M) : Prop where
  recvfrom : ∀ {s i j}, inside s i j ≠ [] → ∃ r, net.recvfrom s j r
  sendto : ∀ {s receiving k a x}, (∀ j, receiving j) → (∀ i j, inside s i j = []) →
    ∃ r, net.sendto s receiving k a x r

variable [DecidableEq ι] {address : ι → α} {k l : ι} {x : M}

/-- What goes from `k` to `l`, seen from `i` to `j`. -/
def across (k l : ι) (x : M) (i j : ι) : List M := if i = k ∧ j = l then [x] else []

theorem across_self : across k l x k l = [x] := if_pos ⟨rfl, rfl⟩

theorem mem_across {i j : ι} {y : M} (h : y ∈ across k l x i j) : i = k ∧ j = l ∧ y = x := by
  unfold across at h
  split at h
  · rename_i hpair
    exact ⟨hpair.1, hpair.2, List.mem_singleton.1 h⟩
  · cases h

/-- What `i` has sent to `j` and `j` has not received is inside, in order. -/
structure InOrder (net : Net ι α M) (address : ι → α) (inside : net.State → ι → ι → List M) :
    Prop where
  start : ∀ i j, inside net.start i j = []
  bind : ∀ {s k s'}, net.bind s k (some s') → ∀ i j, inside s' i j = inside s i j
  sendto : ∀ {s receiving k a x s'}, net.sendto s receiving k a x (some s') →
    ∃ l, address l = a ∧ ∀ i j, inside s' i j = inside s i j ++ across k l x i j
  recvfrom : ∀ {s l d s'}, net.recvfrom s l (some (d, s')) →
    ∀ i j, inside s i j = across d.source l d.data i j ++ inside s' i j

/-! ## How much is inside -/

section Held

/-- How many datagrams there are. -/
def held {ι : Type} [Fintype ι] (lists : ι → ι → List M) : Nat := ∑ i, ∑ j, (lists i j).length

variable [Fintype ι]

omit [DecidableEq ι] in
theorem held_nil {lists : ι → ι → List M} (h : ∀ i j, lists i j = []) : held lists = 0 :=
  Finset.sum_eq_zero fun i _ => Finset.sum_eq_zero fun j _ => by rw [h, List.length_nil]

omit [DecidableEq ι] in
theorem eq_nil_of_held {lists : ι → ι → List M} (h : held lists = 0) (i j : ι) :
    lists i j = [] := by
  have hi := Finset.sum_eq_zero_iff.1 h i (Finset.mem_univ i)
  exact List.length_eq_zero_iff.1 (Finset.sum_eq_zero_iff.1 hi j (Finset.mem_univ j))

omit [DecidableEq ι] in
theorem held_append {lists lists' : ι → ι → List M} :
    held (fun i j => lists i j ++ lists' i j) = held lists + held lists' := by
  simp only [held, List.length_append, Finset.sum_add_distrib]

/-- A datagram between two parties is one. -/
theorem held_across : held (across k l x) = 1 := by
  have hrow : ∀ i, ∑ j, (across k l x i j).length = if i = k then 1 else 0 := by
    intro i
    by_cases hi : i = k
    · subst hi
      have hone : ∀ j, (across i l x i j).length = if j = l then 1 else 0 := by
        intro j
        by_cases hj : j = l <;> simp [across, hj]
      rw [Finset.sum_congr rfl fun j _ => hone j, Finset.sum_ite_eq' Finset.univ l, if_pos rfl,
        if_pos (Finset.mem_univ l)]
    · rw [if_neg hi]
      exact Finset.sum_eq_zero fun j _ => by simp [across, hi]
  unfold held
  rw [Finset.sum_congr rfl fun i _ => hrow i, Finset.sum_ite_eq' Finset.univ k,
    if_pos (Finset.mem_univ k)]

variable {net : Net ι α M} {inside : net.State → ι → ι → List M} {s s' : net.State} {a : α}
  {receiving : ι → Prop} {d : Datagram ι M}

theorem InOrder.held_bind (h : InOrder net address inside) (hbind : net.bind s k (some s')) :
    held (inside s') = held (inside s) := by
  rw [funext fun i => funext fun j => h.bind hbind i j]

/-- A send puts one datagram in. -/
theorem InOrder.held_sendto (h : InOrder net address inside)
    (hsend : net.sendto s receiving k a x (some s')) :
    held (inside s') = held (inside s) + 1 := by
  obtain ⟨l, -, hinside⟩ := h.sendto hsend
  rw [funext fun i => funext fun j => hinside i j, held_append, held_across]

/-- A receive takes one out. -/
theorem InOrder.held_recvfrom (h : InOrder net address inside)
    (hrecv : net.recvfrom s l (some (d, s'))) : held (inside s') + 1 = held (inside s) := by
  rw [funext fun i => funext fun j => h.recvfrom hrecv i j, held_append, held_across, add_comm]

end Held

/-! ## Sockets -/

/-- The sockets that are bound, and what is in their queues. -/
structure Sockets (ι M : Type) where
  bound : ι → Bool
  queue : ι → List (Datagram ι M)

namespace Sockets

variable {capacity : Nat}

/-- What is in the queue of `j` from `i`. -/
def inside (s : Sockets ι M) (i j : ι) : List M :=
  (s.queue j).filterMap fun d => if d.source = i then some d.data else none

/-- A queue holds `capacity` datagrams; a datagram for an address without a socket is refused. -/
def net (address : ι → α) (capacity : Nat) : Net ι α M where
  State := Sockets ι M
  start := ⟨fun _ => false, fun _ => []⟩
  bind s i r := r = some { s with bound := update s.bound i true }
  sendto s _ i a x r :=
    (∃ j, s.bound j = true ∧ address j = a ∧ (s.queue j).length < capacity ∧
      r = some { s with queue := update s.queue j (s.queue j ++ [⟨i, x⟩]) }) ∨
    (∀ j, s.bound j = true → address j ≠ a) ∧ r = none
  recvfrom s j r := ∃ d ds, s.queue j = d :: ds ∧
    r = some (d, { s with queue := update s.queue j ds })

theorem inOrder : InOrder (net (M := M) address capacity) address inside where
  start _ _ := rfl
  bind h i j := by
    cases h
    rfl
  sendto {s _ k a x s'} h := by
    rcases h with ⟨l, -, haddress, -, h⟩ | ⟨-, h⟩
    · cases h
      refine ⟨l, haddress, fun i j => ?_⟩
      unfold across inside
      by_cases hj : j = l
      · subst hj
        by_cases hk : k = i
        · simp [hk]
        · simp [hk, Ne.symm hk]
      · simp [hj]
    · cases h
  recvfrom {s l d s'} h i j := by
    obtain ⟨d', ds, hqueue, h⟩ := h
    cases h
    show (s.queue j).filterMap _ = _ ++ (update s.queue l ds j).filterMap _
    unfold across
    by_cases hj : j = l
    · subst hj
      rw [hqueue, update_self]
      by_cases hd : d.source = i
      · simp [hd]
      · simp [hd, Ne.symm hd]
    · simp [hj]

theorem live (hcapacity : 0 < capacity) : Live (net (M := M) address capacity) inside where
  recvfrom {s i j} h := by
    cases hqueue : s.queue j with
    | nil =>
      refine absurd ?_ h
      unfold inside
      rw [hqueue]
      rfl
    | cons d ds => exact ⟨_, d, ds, hqueue, rfl⟩
  sendto {s _ k a x} _ hempty := by
    by_cases hbound : ∃ j, s.bound j = true ∧ address j = a
    · obtain ⟨j, hj, haddress⟩ := hbound
      have hqueue : s.queue j = [] := by
        rw [List.eq_nil_iff_forall_not_mem]
        intro d hd
        have hinside : d.data ∈ inside s d.source j :=
          List.mem_filterMap.2 ⟨d, hd, if_pos rfl⟩
        rw [hempty] at hinside
        cases hinside
      refine ⟨_, .inl ⟨j, hj, haddress, ?_, rfl⟩⟩
      rw [hqueue]
      exact hcapacity
    · exact ⟨none, .inr ⟨fun j hj haddress => hbound ⟨j, hj, haddress⟩, rfl⟩⟩

end Sockets

/-! ## Ranks -/

namespace Ranks

/-- A message goes to a rank that receives, or waits in a buffer for `eager` of them.  Who receives
takes the next message of any rank. -/
def net (address : ι → α) (eager : Nat) : Net ι α M where
  State := ι → ι → List M
  start _ _ := []
  bind _ _ _ := False
  sendto s receiving i a x r :=
    (∃ j, address j = a ∧ (receiving j ∨ (s i j).length < eager) ∧
      r = some fun i' j' => s i' j' ++ across i j x i' j') ∨
    (∀ j, address j ≠ a) ∧ r = none
  recvfrom s j r := ∃ i x xs, s i j = x :: xs ∧
    r = some (⟨i, x⟩, fun i' j' => if i' = i ∧ j' = j then xs else s i' j')

variable {eager : Nat}

theorem inOrder : InOrder (net (M := M) address eager) address fun s => s where
  start _ _ := rfl
  bind h := h.elim
  sendto h := by
    rcases h with ⟨l, haddress, -, h⟩ | ⟨-, h⟩
    · cases h
      exact ⟨l, haddress, fun _ _ => rfl⟩
    · cases h
  recvfrom {s l d s'} h i j := by
    obtain ⟨k, x, xs, hqueue, h⟩ := h
    cases h
    show s i j = across k l x i j ++ if i = k ∧ j = l then xs else s i j
    unfold across
    by_cases hpair : i = k ∧ j = l
    · rw [if_pos hpair, if_pos hpair, hpair.1, hpair.2, hqueue]
      rfl
    · rw [if_neg hpair, if_neg hpair]
      rfl

theorem live : Live (net (M := M) address eager) fun s => s where
  recvfrom {s i j} h := by
    obtain ⟨x, xs, hqueue⟩ := List.exists_cons_of_ne_nil h
    exact ⟨_, i, x, xs, hqueue, rfl⟩
  sendto {s _ k a x} hreceiving _ := by
    by_cases hrank : ∃ j, address j = a
    · obtain ⟨j, haddress⟩ := hrank
      exact ⟨_, .inl ⟨j, haddress, .inl (hreceiving j), rfl⟩⟩
    · exact ⟨none, .inr ⟨fun j haddress => hrank ⟨j, haddress⟩, rfl⟩⟩

end Ranks

end Datagrams
