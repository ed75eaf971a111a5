import Softswitch.Interconnect
import Softswitch.Lib.Tally
import Softswitch.Verify.Trace

/-!
# The mailboxes carry the messages of the network

Threads that are connected by their mailboxes only do what the threads of a network do, with
what is in the slots of the mailboxes in flight (`Interconnect.Reachable.shown`).  A message
that the host was handed stays in flight: no thread takes it.
-/

namespace Softswitch

open Outcome Transport Function Tally

variable {A : AppTypes} {n : Nat} {ι : Type} {size : ι → Nat} {th : PThread A n}
  {ths : Threads A size} {slots : ι → Nat} {cs : (i : ι) → PThreadContext A (size i)}
  {buf : ι → Message A} {g g' : Interconnect A size} {N : Network A size} {k : ι}

/-! ## Packets in slots -/

/-- The packet of a parcel; messages of the host buffer are none. -/
def Parcel.packet : Parcel A → Option (Packet A)
  | .message dest m => some ⟨dest, m⟩
  | .hostMessage _ _ => none

theorem Parcel.packet_thread {x : Parcel A} {p : Packet A} (h : x.packet = some p) :
    p.thread = x.dest := by
  cases x with
  | message dest m =>
    cases h
    rfl
  | hostMessage _ _ => cases h

/-- What is in a receive slot of thread `i`. -/
def receivable (th : PThread A n) (ms : Multiset (Message A)) : Multiset (Packet A) :=
  ms.map fun m => ⟨th.myId, m⟩

/-- What was given to the send slot, or is in it. -/
def parcelPackets (xs : List (Parcel A)) : Multiset (Packet A) :=
  (xs.filterMap Parcel.packet : List (Packet A))

theorem sent_eq_parcel (e : Event A n) : e.sent = e.parcel.bind Parcel.packet := by
  cases e <;> rfl

theorem sentPackets_eq_given (es : List (Event A n)) :
    sentPackets es = parcelPackets (given es) := by
  unfold sentPackets parcelPackets given
  rw [List.filterMap_filterMap]
  congr 1
  exact congrFun (congrArg _ (funext sent_eq_parcel)) es

theorem receivedPackets_eq_taken (es : List (Event A n)) :
    receivedPackets th es = receivable th (taken es) := by
  unfold receivedPackets receivable taken
  rw [Multiset.map_coe, List.map_filterMap]

theorem Fills.packets_eq {o slot : Option (Parcel A)} {sent : List (Parcel A)}
    (h : Fills o sent slot) :
    parcelPackets slot.toList = parcelPackets o.toList + parcelPackets sent := by
  cases h with
  | nothing => exact (add_zero _).symm
  | one => exact (zero_add _).symm

/-! ## The network of the threads -/

section Fintype

variable [Fintype ι]

namespace Interconnect

/-- What is in the slots of the mailboxes. -/
def inSlots (ths : Threads A size) (g : Interconnect A size) : Multiset (Packet A) :=
  (∑ i, receivable (ths i) (g.recvSlots i)) + ∑ i, parcelPackets (g.sendSlot i).toList

/-- The threads are those of the network; in flight is what is in the slots, and what the host
was handed. -/
structure Shows (ths : Threads A size) (g : Interconnect A size) (N : Network A size) : Prop where
  main : N.main = g.main
  flight : ∃ toHost, (∀ x ∈ toHost, ∃ i, x.thread = (ths i).hostId) ∧
    N.flight = g.inSlots ths + toHost

theorem shows_start {main : (i : ι) → Main A (size i)} :
    Shows ths ⟨main, fun _ => 0, fun _ => none⟩ ⟨main, 0⟩ := by
  have hrecv : ∀ i, receivable (ths i) (0 : Multiset (Message A)) = 0 := fun _ => rfl
  have hsend : parcelPackets (none : Option (Parcel A)).toList = 0 := rfl
  refine ⟨rfl, 0, by simp, ?_⟩
  simp only [inSlots, hrecv, hsend, Finset.sum_const_zero, add_zero]

variable [DecidableEq ι]

/-- The messages that a thread receives leave its receive slots, and what it sends is in its send
slot afterwards. -/
theorem inSlots_step {rest : Multiset (Message A)} {slot : Option (Parcel A)}
    {main : (i : ι) → Main A (size i)} {es : List (Event A (size k))}
    (hrecv : g.recvSlots k = taken es + rest) (hsend : Fills (g.sendSlot k) (given es) slot) :
    ∃ others, g.inSlots ths = receivedPackets (ths k) es + others ∧
      inSlots ths ⟨main, update g.recvSlots k rest, update g.sendSlot k slot⟩ =
        others + sentPackets es := by
  have hrecvSum := sum_change (fun i => receivable (ths i) (g.recvSlots i))
    (fun i => receivable (ths i) (update g.recvSlots k rest i)) k fun j hj => by
      rw [update_of_ne hj]
  have hsendSum := sum_change (fun i => parcelPackets (g.sendSlot i).toList)
    (fun i => parcelPackets (update g.sendSlot k slot i).toList) k fun j hj => by
      rw [update_of_ne hj]
  have htaken : receivable (ths k) (g.recvSlots k) =
      receivedPackets (ths k) es + receivable (ths k) rest := by
    rw [hrecv, receivedPackets_eq_taken]
    exact Multiset.map_add _ _ _
  rw [update_self, htaken, ← add_assoc] at hrecvSum
  rw [update_self, hsend.packets_eq, ← add_assoc, add_right_comm] at hsendSum
  refine ⟨(∑ i, receivable (ths i) (update g.recvSlots k rest i)) +
    ∑ i, parcelPackets (g.sendSlot i).toList, ?_, ?_⟩
  · unfold inSlots
    rw [← add_right_cancel hrecvSum, ← add_assoc, add_comm (receivedPackets _ _)]
  · unfold inSlots
    rw [add_right_cancel hsendSum, ← sentPackets_eq_given, add_assoc]

/-- A step of a thread is one of the network. -/
theorem ThreadStep.network (h : g.ThreadStep ths k g') (hN : Shows ths g N) :
    ∃ N', Network.Step ths N N' ∧ Shows ths g' N' := by
  cases h with
  | @step input s received' sent rest slot hanswers hwakes hstep htaken hgiven hrecv hsend =>
    obtain ⟨main, flight⟩ := N
    obtain ⟨rfl, toHost, hhost, rfl⟩ := hN
    obtain ⟨⟨es, htrace⟩, -⟩ := mainStep_continues.of_ok hstep
    obtain rfl : received' = taken es := by
      rw [← htrace, taken, List.filterMap_append] at htaken
      exact (List.append_cancel_left htaken).symm
    obtain rfl : sent = given es := by
      rw [← htrace, given, List.filterMap_append] at hgiven
      exact (List.append_cancel_left hgiven).symm
    have hslots : ∃ others, g.inSlots ths = receivedPackets (ths k) es + others ∧
        inSlots ths ⟨update g.main k s, update g.recvSlots k rest, update g.sendSlot k slot⟩ =
          others + sentPackets es := inSlots_step hrecv hsend
    obtain ⟨others, hbefore, hafter⟩ := hslots
    refine ⟨⟨update g.main k s, others + toHost + sentPackets es⟩, .thread hstep htrace.symm ?_,
      rfl, toHost, hhost, ?_⟩
    · exact ⟨others + toHost, by rw [hbefore, add_assoc], rfl⟩
    · rw [hafter, add_right_comm]

/-- Handing a message to the host leaves it in flight, and moving one from a send slot to a
receive slot too. -/
theorem NetworkStep.shows (h : g.NetworkStep ths slots g') (hN : Shows ths g N) :
    Shows ths g' N := by
  obtain ⟨hmain, toHost, hhost, hflight⟩ := hN
  have hsendSum : ∀ i, (∑ j, parcelPackets (update g.sendSlot i none j).toList) +
      parcelPackets (g.sendSlot i).toList = ∑ j, parcelPackets (g.sendSlot j).toList := by
    intro i
    have hchange := sum_change (fun j => parcelPackets (g.sendSlot j).toList)
      (fun j => parcelPackets (update g.sendSlot i none j).toList) i fun j hj => by
        rw [update_of_ne hj]
    rw [update_self] at hchange
    exact hchange.trans (add_zero _)
  cases h with
  | @host i x hslot hdest =>
    refine ⟨hmain, parcelPackets [x] + toHost, ?_, ?_⟩
    · intro p hp
      rcases Multiset.mem_add.1 hp with hp | hp
      · obtain ⟨y, hy, hpacket⟩ := List.mem_filterMap.1 (Multiset.mem_coe.1 hp)
        obtain rfl := List.mem_singleton.1 hy
        exact ⟨i, (Parcel.packet_thread hpacket).trans hdest⟩
      · exact hhost p hp
    · have hsum := hsendSum i
      rw [hslot] at hsum
      rw [hflight]
      unfold inSlots
      rw [← hsum, Option.toList_some]
      ac_rfl
  | @thread i j m hslot hfree =>
    refine ⟨hmain, toHost, hhost, ?_⟩
    have hsum := hsendSum i
    have hrecvSum := sum_change (fun l => receivable (ths l) (g.recvSlots l))
      (fun l => receivable (ths l) (update g.recvSlots j (m ::ₘ g.recvSlots j) l)) j fun l hl => by
        rw [update_of_ne hl]
    have hcons : receivable (ths j) (m ::ₘ g.recvSlots j) =
        parcelPackets [.message (ths j).myId m] + receivable (ths j) (g.recvSlots j) :=
      Multiset.map_cons _ _ _
    rw [update_self, hcons, ← add_assoc] at hrecvSum
    rw [hslot, Option.toList_some] at hsum
    rw [hflight]
    unfold inSlots
    rw [← hsum, add_right_cancel hrecvSum]
    ac_rfl

/-- In every state that the threads reach with their mailboxes, they are in a state that the
threads of the network reach. -/
theorem Reachable.shown (h : Reachable ths slots cs buf g) :
    ∃ N, Network.Reachable ths cs buf N ∧ Shows ths g N := by
  induction h with
  | start h => exact ⟨_, .start h, shows_start⟩
  | thread _ hstep ih =>
    obtain ⟨N, hreach, hN⟩ := ih
    obtain ⟨N', hstep', hN'⟩ := hstep.network hN
    exact ⟨N', hreach.step hstep', hN'⟩
  | network _ hstep ih =>
    obtain ⟨N, hreach, hN⟩ := ih
    exact ⟨N, hreach, hstep.shows hN⟩

end Interconnect

end Fintype

end Softswitch
