import Mathlib.Data.Nat.Count
import Softswitch.Lib.Framing
import Softswitch.Uart
import Softswitch.Verify.HostTraffic

/-!
# What the host reads from the UART

However often the UART refuses a byte, the bytes it takes are the frames of the messages, as long as
it takes enough of them; and the host finds the messages again, the first ones at any time
(`uart_readsBack`).  The length of a frame is a byte: of a message of 256 bytes or more the
beginning is sent only.
-/

namespace Softswitch

variable {accepts : Nat → Bool} {fuel k : Nat} {x : BitVec 8} {xs ys : List (BitVec 8)}
  {u u' : Uart} {layout : HostMsg → Nat → BitVec 8} {sizeofHostMsg : Nat} {msgs : List HostMsg}

/-! ## One byte -/

/-- How often the UART takes a byte at the first `T` tries. -/
abbrev taking (accepts : Nat → Bool) (T : Nat) : Nat := Nat.count (accepts · = true) T

/-- Of the tries from `t` on, the `k`-th one is the first that is taken. -/
structure TakesAfter (accepts : Nat → Bool) (t k : Nat) : Prop where
  refused : ∀ j, j < k → accepts (t + j) = false
  taken : accepts (t + k) = true

theorem TakesAfter.taking_eq {t : Nat} (h : TakesAfter accepts t k) :
    taking accepts (t + (k + 1)) = taking accepts t + 1 := by
  have hnone : Nat.count (fun j => accepts (t + j) = true) k = 0 :=
    Nat.count_iff_forall_not.2 fun j hj => by simp [h.refused j hj]
  unfold taking
  rw [Nat.count_add, Nat.count_succ, if_pos h.taken, hnone]

theorem takesAfter_zero_iff {t : Nat} : TakesAfter accepts t 0 ↔ accepts t = true :=
  ⟨fun h => h.taken, fun h => ⟨fun j hj => absurd hj (Nat.not_lt_zero j), h⟩⟩

theorem takesAfter_succ_iff {t : Nat} :
    TakesAfter accepts t (k + 1) ↔ accepts t = false ∧ TakesAfter accepts (t + 1) k := by
  have hshift : ∀ j, t + 1 + j = t + (j + 1) := fun j => by omega
  constructor
  · intro h
    refine ⟨h.refused 0 (Nat.succ_pos k), fun j hj => ?_, ?_⟩
    · rw [hshift]
      exact h.refused (j + 1) (Nat.succ_lt_succ hj)
    · rw [hshift]
      exact h.taken
  · rintro ⟨hnow, h⟩
    refine ⟨fun j hj => ?_, ?_⟩
    · cases j with
      | zero => exact hnow
      | succ j =>
        rw [← hshift]
        exact h.refused j (Nat.lt_of_succ_lt_succ hj)
    · rw [← hshift]
      exact h.taken

/-- The loop ends with the first try that is taken, and the byte is sent once. -/
theorem tinselUARTPut_eq_some : tinselUARTPut accepts x fuel u = some u' ↔
    ∃ k < fuel, TakesAfter accepts u.tries k ∧ u' = ⟨u.sent ++ [x], u.tries + (k + 1)⟩ := by
  induction fuel generalizing u with
  | zero => simp [tinselUARTPut]
  | succ fuel ih =>
    unfold tinselUARTPut tinselUartTryPut
    cases hnow : accepts u.tries with
    | true =>
      simp only [if_true, Option.some.injEq]
      constructor
      · rintro rfl
        exact ⟨0, Nat.succ_pos fuel, takesAfter_zero_iff.2 hnow, rfl⟩
      · rintro ⟨k, -, htakes, rfl⟩
        cases k with
        | zero => rfl
        | succ k =>
          rw [takesAfter_succ_iff, hnow] at htakes
          cases htakes.1
    | false =>
      simp only [Bool.false_eq_true, if_false]
      rw [ih]
      have hshift : ∀ k, u.tries + 1 + (k + 1) = u.tries + (k + 1 + 1) := fun k => by omega
      constructor
      · rintro ⟨k, hk, htakes, rfl⟩
        refine ⟨k + 1, Nat.succ_lt_succ hk, takesAfter_succ_iff.2 ⟨hnow, htakes⟩, ?_⟩
        rw [← hshift]
      · rintro ⟨k, hk, htakes, rfl⟩
        cases k with
        | zero =>
          rw [takesAfter_zero_iff, hnow] at htakes
          cases htakes
        | succ k =>
          refine ⟨k, Nat.lt_of_succ_lt_succ hk, (takesAfter_succ_iff.1 htakes).2, ?_⟩
          rw [← hshift]

/-! ## One byte after the other -/

def putBytes (accepts : Nat → Bool) (fuel : Nat) (xs : List (BitVec 8)) (u : Uart) : Option Uart :=
  xs.foldlM (fun u x => tinselUARTPut accepts x fuel u) u

theorem putBytes_cons : putBytes accepts fuel (x :: xs) u =
    (tinselUARTPut accepts x fuel u).bind (putBytes accepts fuel xs) := List.foldlM_cons

theorem putBytes_append : putBytes accepts fuel (xs ++ ys) u =
    (putBytes accepts fuel xs u).bind (putBytes accepts fuel ys) := List.foldlM_append

/-- The bytes are sent once each and in order, and as many tries were taken. -/
theorem putBytes_sent (h : putBytes accepts fuel xs u = some u') :
    u'.sent = u.sent ++ xs ∧ taking accepts u'.tries = taking accepts u.tries + xs.length := by
  induction xs generalizing u with
  | nil =>
    obtain rfl := Option.some.inj h
    exact ⟨(List.append_nil _).symm, rfl⟩
  | cons x xs ih =>
    rw [putBytes_cons, Option.bind_eq_some_iff] at h
    obtain ⟨u₁, hput, hrest⟩ := h
    obtain ⟨k, -, htakes, rfl⟩ := tinselUARTPut_eq_some.1 hput
    obtain ⟨hsent, htaking⟩ := ih hrest
    refine ⟨?_, ?_⟩
    · rw [hsent, List.append_assoc]
      rfl
    · rw [htaking, htakes.taking_eq, List.length_cons]
      omega

/-- Where the UART takes enough bytes in the first `T` tries, `T` tries for each byte are enough. -/
theorem putBytes_ends {T : Nat} (h : taking accepts u.tries + xs.length ≤ taking accepts T) :
    ∃ u', putBytes accepts T xs u = some u' := by
  induction xs generalizing u with
  | nil => exact ⟨u, rfl⟩
  | cons x xs ih =>
    rw [List.length_cons] at h
    have hlt : u.tries < T := by
      by_contra hle
      have hmono : taking accepts T ≤ taking accepts u.tries :=
        Nat.count_monotone _ (Nat.le_of_not_lt hle)
      omega
    have hexists : ∃ k, accepts (u.tries + k) = true ∧ u.tries + k < T := by
      by_contra hnone
      rw [not_exists] at hnone
      have hzero : Nat.count (fun j => accepts (u.tries + j) = true) (T - u.tries) = 0 :=
        Nat.count_iff_forall_not.2 fun j hj htaken => hnone j ⟨htaken, by omega⟩
      have hsplit := Nat.count_add (accepts · = true) u.tries (T - u.tries)
      rw [hzero, Nat.add_sub_cancel' hlt.le] at hsplit
      unfold taking at h
      omega
    have hfind := Nat.find_spec hexists
    have htakes : TakesAfter accepts u.tries (Nat.find hexists) := by
      refine ⟨fun j hj => ?_, hfind.1⟩
      have hmin := Nat.find_min hexists hj
      rw [not_and_or, Bool.not_eq_true] at hmin
      exact hmin.resolve_right fun hge => hge (by omega)
    have hput : tinselUARTPut accepts x T u =
        some ⟨u.sent ++ [x], u.tries + (Nat.find hexists + 1)⟩ :=
      tinselUARTPut_eq_some.2 ⟨_, by omega, htakes, rfl⟩
    rw [putBytes_cons, hput, Option.bind_some]
    refine ih ?_
    rw [htakes.taking_eq]
    omega

theorem putBytes_ends_iff (hu : u.tries = 0) : (∃ fuel u', putBytes accepts fuel xs u = some u') ↔
    ∃ T, xs.length ≤ taking accepts T := by
  have hzero : taking accepts u.tries = 0 := by
    rw [hu]
    exact Nat.count_zero _
  constructor
  · rintro ⟨fuel, u', h⟩
    have htaking := (putBytes_sent h).2
    exact ⟨u'.tries, by omega⟩
  · rintro ⟨T, hT⟩
    exact ⟨T, putBytes_ends (by omega)⟩

/-! ## Messages -/

/-- The bytes of a message that are sent. -/
def sentBytes (layout : HostMsg → Nat → BitVec 8) (sizeofHostMsg : Nat) (msg : HostMsg) :
    List (BitVec 8) :=
  (List.range (sizeofHostMsg % 256)).map (layout msg)

/-- The frame of a message: its length, and the bytes that are sent. -/
def hostFrame (layout : HostMsg → Nat → BitVec 8) (sizeofHostMsg : Nat) (msg : HostMsg) :
    Framing.Frame (BitVec.toNat : BitVec 8 → Nat) where
  head := BitVec.ofNat 8 sizeofHostMsg
  body := sentBytes layout sizeofHostMsg msg
  length_eq := by
    unfold sentBytes
    rw [List.length_map, List.length_range, BitVec.toNat_ofNat]

theorem slowSend_eq {msg : HostMsg} : slowSend accepts fuel layout sizeofHostMsg u msg =
    putBytes accepts fuel (hostFrame layout sizeofHostMsg msg).symbols u := by
  show _ = putBytes accepts fuel (BitVec.ofNat 8 sizeofHostMsg ::
    (List.range (sizeofHostMsg % 256)).map (layout msg)) u
  unfold slowSend tinselUARTPutLengthPrefixedBytes
  rw [putBytes_cons, BitVec.toNat_ofNat]
  unfold putBytes
  congr 1
  funext u₁
  rw [List.foldlM_map]

theorem slowSends_eq : slowSends accepts fuel layout sizeofHostMsg msgs u =
    putBytes accepts fuel ((msgs.map (hostFrame layout sizeofHostMsg)).flatMap
      Framing.Frame.symbols) u := by
  induction msgs generalizing u with
  | nil => rfl
  | cons msg msgs ih =>
    rw [List.map_cons, List.flatMap_cons, putBytes_append, ← slowSend_eq]
    show (slowSend accepts fuel layout sizeofHostMsg u msg).bind
      (slowSends accepts fuel layout sizeofHostMsg msgs) = _
    congr 1
    funext u₁
    exact ih

theorem length_frames : ((msgs.map (hostFrame layout sizeofHostMsg)).flatMap
    Framing.Frame.symbols).length = msgs.length * (sizeofHostMsg % 256 + 1) := by
  induction msgs with
  | nil => exact (Nat.zero_mul _).symm
  | cons msg msgs ih =>
    have hframe : (hostFrame layout sizeofHostMsg msg).symbols.length =
        sizeofHostMsg % 256 + 1 := by
      show (sentBytes layout sizeofHostMsg msg).length + 1 = _
      unfold sentBytes
      rw [List.length_map, List.length_range]
    rw [List.map_cons, List.flatMap_cons, List.length_append, ih, hframe, List.length_cons,
      Nat.succ_mul, Nat.add_comm]

/-- A message is sent as a whole if its length is a byte. -/
theorem sentBytes_whole_iff :
    (∀ msg, sentBytes layout sizeofHostMsg msg = (List.range sizeofHostMsg).map (layout msg)) ↔
      sizeofHostMsg < 256 := by
  unfold sentBytes
  constructor
  · intro h
    have hlength := congrArg List.length (h someMsg)
    rw [List.length_map, List.length_range, List.length_map, List.length_range] at hlength
    rw [← hlength]
    exact Nat.mod_lt _ (by decide)
  · intro h msg
    rw [Nat.mod_eq_of_lt h]

/-- Whatever the UART refuses, host messages get over it one after the other exactly if it takes as
many bytes as their frames have; then the host reads these messages, and from the first bytes the
first messages.  They are whole if and only if `sizeof(hostMsg)` is less than 256. -/
theorem uart_readsBack (accepts : Nat → Bool) (layout : HostMsg → Nat → BitVec 8)
    (sizeofHostMsg : Nat) (msgs : List HostMsg) :
    ((∃ fuel u, slowSends accepts fuel layout sizeofHostMsg msgs ⟨[], 0⟩ = some u) ↔
      ∃ T, msgs.length * (sizeofHostMsg % 256 + 1) ≤ taking accepts T) ∧
    (∀ fuel u, slowSends accepts fuel layout sizeofHostMsg msgs ⟨[], 0⟩ = some u →
      Framing.read BitVec.toNat u.sent = ⟨msgs.map (sentBytes layout sizeofHostMsg), []⟩ ∧
      ∀ xs, xs <+: u.sent →
        (Framing.read BitVec.toNat xs).frames <+: msgs.map (sentBytes layout sizeofHostMsg)) ∧
    ((∀ msg, sentBytes layout sizeofHostMsg msg = (List.range sizeofHostMsg).map (layout msg)) ↔
      sizeofHostMsg < 256) := by
  have hbodies : (msgs.map (hostFrame layout sizeofHostMsg)).map Framing.Frame.body =
      msgs.map (sentBytes layout sizeofHostMsg) := List.map_map
  refine ⟨?_, ?_, sentBytes_whole_iff⟩
  · have hlength : ((msgs.map (hostFrame layout sizeofHostMsg)).flatMap
        Framing.Frame.symbols).length = msgs.length * (sizeofHostMsg % 256 + 1) := length_frames
    rw [← hlength]
    simp only [slowSends_eq]
    exact putBytes_ends_iff (u := ⟨[], 0⟩) rfl
  · intro fuel u h
    rw [slowSends_eq] at h
    have hsent := (putBytes_sent h).1
    rw [List.nil_append] at hsent
    rw [hsent, ← hbodies]
    exact ⟨Framing.read_frames _, fun xs hxs => Framing.read_prefix hxs⟩

/-- Two messages of three bytes, over a UART that takes every other byte. -/
example : (slowSends (fun k => k % 2 == 1) 2 (fun msg k => msg.type.setWidth 8 + BitVec.ofNat 8 k) 3
      [someMsg, someMsg] ⟨[], 0⟩).map (fun u => Framing.read BitVec.toNat u.sent) =
    some ⟨[[0xF0#8, 0xF1#8, 0xF2#8], [0xF0#8, 0xF1#8, 0xF2#8]], []⟩ := by decide

end Softswitch
