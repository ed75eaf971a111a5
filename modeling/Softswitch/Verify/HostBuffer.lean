import Softswitch.Lib.RingBuffer
import Softswitch.Verify.Queue

/-!
# The buffer of host messages

Head and tail are the only record of what is in the buffer, so 40 pending messages look
like none.  The guards of the callers let a batch fill the buffer completely.
-/

namespace Softswitch

open RingBuffer Function

variable {A : AppTypes} {n : Nat} {th : PThread A n} {c c' : PThreadContext A n}
  {msg : HostMsg} {q : List HostMsg}

/-- The host buffer as a ring. -/
def PThreadContext.ring (c : PThreadContext A n) : Buffer HostMsg where
  cells := c.hostBuffer
  head := c.hbufHead
  tail := c.hbufTail

theorem hostMsgBufferSize_eq : hostMsgBufferSize c = size hostbufferSize c.ring := rfl

/-! ## Operations -/

inductive HostOp where
  | push (msg : HostMsg)
  | popSend
  | slowPop

def hostStep (th : PThread A n) (c : PThreadContext A n) : HostOp → PThreadContext A n
  | .push msg => hostMsgBufferPush c msg
  | .popSend => hostMessageBufferPopSend th c
  | .slowPop => hostMessageSlowPopSend c

def hostRun (th : PThread A n) (c : PThreadContext A n) (ops : List HostOp) :
    PThreadContext A n :=
  ops.foldl (hostStep th) c

/-- The messages that are pushed, in order. -/
def pushed : List HostOp → List HostMsg
  | [] => []
  | .push msg :: ops => msg :: pushed ops
  | _ :: ops => pushed ops

/-- The number of pops. -/
def pops : List HostOp → Nat
  | [] => 0
  | .push _ :: ops => pops ops
  | _ :: ops => pops ops + 1

/-- The messages that have left the thread. -/
def outputs (trace : List (Event A n)) : List HostMsg :=
  trace.filterMap fun
    | .uart msg => some msg
    | .mboxSendExtra _ _ msg => some msg
    | _ => none

/-- Every batch of pushes is made where there is space for it, and every pop where there is
something to pop. -/
inductive Guarded (th : PThread A n) : PThreadContext A n → List HostOp → Prop
  | nil (c : PThreadContext A n) : Guarded th c []
  | batch {c : PThreadContext A n} {msgs : List HostMsg} {ops : List HostOp} (hne : msgs ≠ [])
      (hspace : msgs.length ≤ hostMsgBufferSpace c)
      (h : Guarded th (hostRun th c (msgs.map .push)) ops) :
      Guarded th c (msgs.map .push ++ ops)
  | popSend {c : PThreadContext A n} {ops : List HostOp} (hsize : 0 < hostMsgBufferSize c)
      (h : Guarded th (hostStep th c .popSend) ops) : Guarded th c (.popSend :: ops)
  | slowPop {c : PThreadContext A n} {ops : List HostOp} (hsize : 0 < hostMsgBufferSize c)
      (h : Guarded th (hostStep th c .slowPop) ops) : Guarded th c (.slowPop :: ops)

/-- After `ops` the buffer reports what it should: its size is pushes minus pops, and the
messages popped are the first ones pushed, in order. -/
structure Faithful (th : PThread A n) (c : PThreadContext A n) (ops : List HostOp) : Prop where
  size_eq : hostMsgBufferSize (hostRun th c ops) + pops ops = (pushed ops).length
  space_eq : hostMsgBufferSpace (hostRun th c ops) + (pushed ops).length =
    hostbufferSize + pops ops
  popped : outputs (hostRun th c ops).trace =
    outputs c.trace ++ (pushed ops).take (pops ops)

/-! ## Runs -/

theorem hostRun_snoc {ops : List HostOp} {op : HostOp} :
    hostRun th c (ops ++ [op]) = hostStep th (hostRun th c ops) op := by
  simp [hostRun]

theorem pushed_append {ops ops' : List HostOp} :
    pushed (ops ++ ops') = pushed ops ++ pushed ops' := by
  induction ops with
  | nil => rfl
  | cons op ops ih => cases op <;> simp [pushed, ih]

theorem pops_append {ops ops' : List HostOp} : pops (ops ++ ops') = pops ops + pops ops' := by
  induction ops with
  | nil => simp [pops]
  | cons op ops ih => cases op <;> simp [pops, ih] <;> omega

theorem outputs_append {t t' : List (Event A n)} : outputs (t ++ t') = outputs t ++ outputs t' :=
  List.filterMap_append

/-- Pops happen where the buffer reports something. -/
theorem Guarded.size_pos {ops pre post : List HostOp} {op : HostOp} (h : Guarded th c ops)
    (hsplit : ops = pre ++ op :: post) (hop : ∀ msg, op ≠ .push msg) :
    0 < hostMsgBufferSize (hostRun th c pre) := by
  induction h generalizing pre with
  | nil => simp at hsplit
  | @batch c msgs ops hne hspace h ih =>
    rcases List.append_eq_append_iff.1 hsplit with ⟨as, rfl, hops⟩ | ⟨bs, hbs, hops⟩
    · simpa [hostRun] using ih hops
    · cases bs with
      | nil =>
        rw [List.append_nil] at hbs
        rw [← hbs]
        exact @ih [] hops.symm
      | cons b bs =>
        have hb : b ∈ msgs.map HostOp.push := by
          rw [hbs]
          exact List.mem_append_right _ List.mem_cons_self
        obtain ⟨msg, -, rfl⟩ := List.mem_map.1 hb
        exact absurd (List.cons.inj hops).1 (hop msg)
  | popSend hsize h ih =>
    cases pre with
    | nil => exact hsize
    | cons op' pre =>
      obtain ⟨rfl, rfl⟩ := List.cons.inj hsplit
      exact ih rfl
  | slowPop hsize h ih =>
    cases pre with
    | nil => exact hsize
    | cons op' pre =>
      obtain ⟨rfl, rfl⟩ := List.cons.inj hsplit
      exact ih rfl

/-- The ring holds the messages pushed and not yet popped, and the others have left. -/
structure Pending (th : PThread A n) (c : PThreadContext A n) (ops : List HostOp) : Prop where
  rep : Rep hostbufferSize (hostRun th c ops).ring ((pushed ops).drop (pops ops))
  pops_le : pops ops ≤ (pushed ops).length
  popped : outputs (hostRun th c ops).trace =
    outputs c.trace ++ (pushed ops).take (pops ops)

namespace Pending

variable {ops : List HostOp} {op : HostOp}

theorem nil (hhead : c.hbufHead = 0) (htail : c.hbufTail = 0) : Pending th c [] where
  rep := by
    have : (hostRun th c []).ring = ⟨c.hostBuffer, 0, 0⟩ := by
      simp [hostRun, PThreadContext.ring, hhead, htail]
    rw [this]
    exact Rep.empty (by decide)
  pops_le := Nat.le_refl 0
  popped := by simp [hostRun, pops]

theorem push (h : Pending th c ops) (hfree : (pushed ops).length < pops ops + hostbufferSize) :
    Pending th c (ops ++ [.push msg]) where
  rep := by
    have hpops : pops (ops ++ [.push msg]) = pops ops := by simp [pops_append, pops]
    have hdrop : (pushed (ops ++ [.push msg])).drop (pops ops) =
        (pushed ops).drop (pops ops) ++ [msg] := by
      rw [pushed_append, List.drop_append_of_le_length h.pops_le]
      rfl
    rw [hpops, hdrop, hostRun_snoc]
    have := h.pops_le
    refine h.rep.push ?_
    rw [List.length_drop]
    omega
  pops_le := by
    have hpops : pops (ops ++ [.push msg]) = pops ops := by simp [pops_append, pops]
    rw [hpops, pushed_append, List.length_append]
    exact Nat.le_add_right_of_le h.pops_le
  popped := by
    have hpops : pops (ops ++ [.push msg]) = pops ops := by simp [pops_append, pops]
    rw [hpops, pushed_append, List.take_append_of_le_length h.pops_le, hostRun_snoc, ← h.popped]
    rfl

/-- A pop of either kind. -/
theorem pop (h : Pending th c ops) (hop : op = .popSend ∨ op = .slowPop)
    (hne : (pushed ops).drop (pops ops) ≠ []) : Pending th c (ops ++ [op]) := by
  obtain ⟨a, q, hq⟩ := List.exists_cons_of_ne_nil hne
  have hrep := h.rep
  rw [hq] at hrep
  have hget : (pushed ops)[pops ops]? = some a := by
    rw [← List.head?_drop, hq]
    rfl
  have hlt : pops ops < (pushed ops).length := (List.getElem?_eq_some_iff.1 hget).1
  have hpops : pops (ops ++ [op]) = pops ops + 1 := by
    rcases hop with rfl | rfl <;> simp [pops_append, pops]
  have hpushed : pushed (ops ++ [op]) = pushed ops := by
    rcases hop with rfl | rfl <;> simp [pushed_append, pushed]
  have hring : (hostStep th (hostRun th c ops) op).ring =
      ⟨(hostRun th c ops).ring.cells, next hostbufferSize (hostRun th c ops).ring.head,
        (hostRun th c ops).ring.tail⟩ := by
    rcases hop with rfl | rfl <;> rfl
  have hout : outputs (hostStep th (hostRun th c ops) op).trace =
      outputs (hostRun th c ops).trace ++ [a] := by
    have hfront : (hostRun th c ops).hostBuffer (hostRun th c ops).hbufHead = a := hrep.front
    rw [← hfront]
    rcases hop with rfl | rfl <;> exact outputs_append
  refine ⟨?_, ?_, ?_⟩
  · rw [hostRun_snoc, hring, hpops, hpushed, ← List.drop_drop, hq]
    exact hrep.pop
  · rw [hpops, hpushed]
    exact hlt
  · rw [hostRun_snoc, hout, h.popped, hpops, hpushed, List.take_add_one, hget, List.append_assoc]
    rfl

/-- The size is right, as long as the buffer is not full. -/
theorem size_eq (h : Pending th c ops) (hfree : (pushed ops).length < pops ops + hostbufferSize) :
    hostMsgBufferSize (hostRun th c ops) + pops ops = (pushed ops).length := by
  have := h.pops_le
  rw [hostMsgBufferSize_eq, h.rep.size_eq (by rw [List.length_drop]; omega), List.length_drop]
  omega

theorem faithful (h : Pending th c ops)
    (hfree : (pushed ops).length < pops ops + hostbufferSize) : Faithful th c ops where
  size_eq := h.size_eq hfree
  space_eq := by
    have := h.size_eq hfree
    unfold hostMsgBufferSpace
    omega
  popped := h.popped

end Pending

/-- One more operation of a guarded sequence, from a buffer that is not full. -/
theorem Pending.step {ops pre post : List HostOp} {op : HostOp} (hg : Guarded th c ops)
    (hsplit : ops = pre ++ op :: post) (h : Pending th c pre)
    (hfree : (pushed pre).length < pops pre + hostbufferSize) : Pending th c (pre ++ [op]) := by
  have hpop : (∀ msg, op ≠ .push msg) → (pushed pre).drop (pops pre) ≠ [] := by
    intro hop hnil
    have hsize := hg.size_pos hsplit hop
    have hlen := congrArg List.length hnil
    have := h.size_eq hfree
    rw [List.length_drop, List.length_nil] at hlen
    omega
  cases op with
  | push msg => exact h.push hfree
  | popSend => exact h.pop (.inl rfl) (hpop (by simp))
  | slowPop => exact h.pop (.inr rfl) (hpop (by simp))

/-- The buffer stays faithful to the messages pushed, exactly if it never holds as many
messages as it has cells. -/
theorem hostBuffer_faithful_iff {ops : List HostOp} (hhead : c.hbufHead = 0)
    (htail : c.hbufTail = 0) (hg : Guarded th c ops) :
    (∀ pre post, ops = pre ++ post → Faithful th c pre) ↔
      ∀ pre post, ops = pre ++ post → (pushed pre).length < pops pre + hostbufferSize := by
  constructor
  · -- where the buffer fills up it reports that it is empty
    intro hfaithful
    suffices h : ∀ pre post, ops = pre ++ post →
        Pending th c pre ∧ (pushed pre).length < pops pre + hostbufferSize from
      fun pre post hsplit => (h pre post hsplit).2
    intro pre
    induction pre using List.reverseRecOn with
    | nil => exact fun _ _ => ⟨Pending.nil hhead htail, by simp [pushed, pops, hostbufferSize]⟩
    | append_singleton pre op ih =>
      intro post hsplit
      rw [List.append_assoc, List.singleton_append] at hsplit
      obtain ⟨hpending, hfree⟩ := ih (op :: post) hsplit
      have hnext := Pending.step hg hsplit hpending hfree
      refine ⟨hnext, ?_⟩
      by_contra hfull
      have hlen := hnext.rep.length_le
      have hpops := hnext.pops_le
      have hsize := (hfaithful (pre ++ [op]) post (by simp [hsplit])).size_eq
      rw [List.length_drop] at hlen
      rw [hostMsgBufferSize_eq, hnext.rep.size_full (by rw [List.length_drop]; omega)] at hsize
      simp only [hostbufferSize] at hfull
      omega
  · intro hfree pre
    suffices h : ∀ post, ops = pre ++ post → Pending th c pre from
      fun post hsplit => (h post hsplit).faithful (hfree pre post hsplit)
    induction pre using List.reverseRecOn with
    | nil => exact fun _ _ => Pending.nil hhead htail
    | append_singleton pre op ih =>
      intro post hsplit
      rw [List.append_assoc, List.singleton_append] at hsplit
      exact Pending.step hg hsplit (ih (op :: post) hsplit) (hfree pre (op :: post) hsplit)

/-- A message to put into the buffer. -/
def someMsg : HostMsg := ⟨flagsAddress 0#16, 0xF0#16, []⟩

/-- A push and a pop. -/
theorem hostBuffer_faithful_iff_pushPop :
    Guarded (flagsThread (defaultBuild true)) (flagsContext 0#32 0#32)
      [.push someMsg, .slowPop] ∧
    ∀ pre post, [HostOp.push someMsg, .slowPop] = pre ++ post →
      Faithful (flagsThread (defaultBuild true)) (flagsContext 0#32 0#32) pre := by
  have hg : Guarded (flagsThread (defaultBuild true)) (flagsContext 0#32 0#32)
      ([someMsg].map .push ++ [.slowPop]) :=
    .batch (by simp) (by decide) (.slowPop (by decide) (.nil _))
  have hhead : (flagsContext 0#32 0#32).hbufHead = 0 := rfl
  refine ⟨hg, ?_⟩
  apply (hostBuffer_faithful_iff hhead rfl hg).2
  intro pre post h
  rcases pre with _ | ⟨a, _ | ⟨b, _ | ⟨e, pre⟩⟩⟩
  · decide
  · simp only [List.map_cons, List.map_nil, List.cons_append, List.cons.injEq] at h
    rw [← h.1]
    decide
  · simp only [List.map_cons, List.map_nil, List.cons_append, List.nil_append,
      List.cons.injEq] at h
    rw [← h.1, ← h.2.1]
    decide
  · simp at h

set_option maxRecDepth 4000 in
/-- A batch of 40 messages, for which there is space, leaves a buffer that looks empty. -/
theorem hostBuffer_not_faithful :
    Guarded (flagsThread (defaultBuild true)) (flagsContext 0#32 0#32)
      ((List.replicate 40 someMsg).map .push) ∧
    ¬Faithful (flagsThread (defaultBuild true)) (flagsContext 0#32 0#32)
      ((List.replicate 40 someMsg).map .push) := by
  constructor
  · rw [← List.append_nil ((List.replicate 40 someMsg).map HostOp.push)]
    exact .batch (by decide) (by decide) (.nil _)
  · exact fun h => absurd h.size_eq (by decide)

end Softswitch
