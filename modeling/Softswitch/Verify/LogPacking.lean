import Softswitch.Verify.Queue

/-!
# Packing the parameters of a log

Both log functions store the parameters one after the other, send the message, and then assert
that there was room for them.  Where there was, the message holds the parameters in order; where
there was not, the last parameters are stored outside the payload, and the message is sent all the
same (`logImpl_packs_iff`).
-/

namespace Softswitch

open Outcome

variable {A : AppTypes} {n : Nat} {th : PThread A n} {c c' : PThreadContext A n}
  {hmsg : HostMsg} {cnt : Nat} {v : BitVec 32} {params : List (BitVec 32)}

/-! ## Storing -/

/-- The stores of `k` words from word `i` on, all of them outside the payload. -/
def strayStores (c : PThreadContext A n) (i k : Nat) : PThreadContext A n :=
  { c with trace := c.trace ++ (List.range' i k).map .strayStore }

theorem storePayload_inside (h : cnt < hmsg.payload.length) :
    storePayload c hmsg cnt v = (c, { hmsg with payload := hmsg.payload.set cnt v }) := if_pos h

theorem storePayload_outside (h : hmsg.payload.length ≤ cnt) :
    storePayload c hmsg cnt v = (c.emit (.strayStore cnt), hmsg) := if_neg (Nat.not_lt.2 h)

theorem storeWords_cons (c : PThreadContext A n) (hmsg : HostMsg) (cnt : Nat) (v : BitVec 32)
    (params : List (BitVec 32)) : storeWords c hmsg cnt (v :: params) =
      storeWords (storePayload c hmsg cnt v).1 (storePayload c hmsg cnt v).2 (cnt + 1) params := rfl

/-- Words for which there is room replace those of the payload. -/
theorem storeWords_inside (h : cnt + params.length ≤ hmsg.payload.length) :
    storeWords c hmsg cnt params = (c, { hmsg with
      payload := hmsg.payload.take cnt ++ params ++ hmsg.payload.drop (cnt + params.length) }) := by
  induction params generalizing hmsg cnt with
  | nil => simp [storeWords]
  | cons p params ih =>
    rw [List.length_cons] at h
    rw [storeWords_cons, storePayload_inside (by omega)]
    rw [ih (by rw [List.length_set]; omega)]
    have htake : (hmsg.payload.set cnt p).take (cnt + 1) = hmsg.payload.take cnt ++ [p] := by
      rw [List.take_succ_eq_append_getElem (by rw [List.length_set]; omega),
        List.take_set_of_le (Nat.le_refl cnt), List.getElem_set_self]
    have hdrop : (hmsg.payload.set cnt p).drop (cnt + 1 + params.length) =
        hmsg.payload.drop (cnt + (params.length + 1)) := by
      rw [List.drop_set_of_lt (by omega), Nat.add_right_comm, Nat.add_assoc]
    rw [htake, hdrop, List.append_assoc _ [p]]
    rfl

/-- Words behind the payload. -/
theorem storeWords_outside (h : hmsg.payload.length ≤ cnt) :
    storeWords c hmsg cnt params = (strayStores c cnt params.length, hmsg) := by
  induction params generalizing c cnt with
  | nil => simp [storeWords, strayStores]
  | cons p params ih =>
    rw [storeWords_cons, storePayload_outside h]
    rw [ih (by omega)]
    simp [strayStores, PThreadContext.emit, List.range'_succ]

theorem storeWords_append (c : PThreadContext A n) (hmsg : HostMsg) (cnt : Nat)
    (params params' : List (BitVec 32)) : storeWords c hmsg cnt (params ++ params') =
      storeWords (storeWords c hmsg cnt params).1 (storeWords c hmsg cnt params).2
        (cnt + params.length) params' := by
  induction params generalizing c hmsg cnt with
  | nil => rfl
  | cons p params ih =>
    rw [List.cons_append, storeWords_cons, storeWords_cons, ih, List.length_cons, Nat.add_assoc,
      Nat.add_comm 1]

/-- Words for which there is not enough room fill the payload, and the others are stray. -/
theorem storeWords_oversize (hcnt : cnt ≤ hmsg.payload.length)
    (h : hmsg.payload.length < cnt + params.length) :
    storeWords c hmsg cnt params =
      (strayStores c hmsg.payload.length (cnt + params.length - hmsg.payload.length), { hmsg with
        payload := hmsg.payload.take cnt ++ params.take (hmsg.payload.length - cnt) }) := by
  let room := hmsg.payload.length - cnt
  have hroom : cnt + (params.take room).length = hmsg.payload.length := by
    rw [List.length_take]
    omega
  have hinside := storeWords_inside (c := c) hroom.le
  rw [hroom, List.drop_length, List.append_nil] at hinside
  have hlength : (hmsg.payload.take cnt ++ params.take room).length = hmsg.payload.length := by
    rw [List.length_append, List.length_take, Nat.min_eq_left hcnt, hroom]
  calc storeWords c hmsg cnt params
    _ = storeWords c hmsg cnt (params.take room ++ params.drop room) := by
        rw [List.take_append_drop]
    _ = _ := by
        rw [storeWords_append, hinside, hroom, storeWords_outside hlength.le, List.length_drop]
        congr 2
        omega

/-! ## Peeling -/

/-- The parameters are stored, and then the message is sent. -/
theorem logPeelParams_eq : logPeelParams c hmsg cnt params =
    (directHostMessageSlowSend (makeSpace (storeWords c hmsg cnt params).1)
      (storeWords c hmsg cnt params).2, cnt + params.length) := by
  induction params generalizing c hmsg cnt with
  | nil => rfl
  | cons p params ih =>
    unfold logPeelParams storeWords
    rw [ih, List.length_cons, Nat.add_assoc, Nat.add_comm 1]

theorem logPeelParamsSs_eq : logPeelParamsSs c hmsg cnt params =
    (directHostMessageSlowSend (storeWords c hmsg cnt params).1
      (storeWords c hmsg cnt params).2, cnt + params.length) := by
  induction params generalizing c hmsg cnt with
  | nil => rfl
  | cons p params ih =>
    unfold logPeelParamsSs storeWords
    rw [ih, List.length_cons, Nat.add_assoc, Nat.add_comm 1]

/-- While the indices are in the ring, there is space in it. -/
theorem makeSpace_eq (hhead : c.hbufHead < hostbufferSize) (htail : c.hbufTail < hostbufferSize) :
    makeSpace c = c := by
  have hsize : hostMsgBufferSize c < hostbufferSize := by
    unfold hostMsgBufferSize
    split <;> omega
  unfold makeSpace hostMsgBufferSpace
  rw [if_neg (by omega)]

/-! ## The log functions -/

/-- What a log function is to do with its parameters.  If there is room for them, it sends one
message and does nothing else; the message starts with the words of the caller, and the
parameters follow in order.  If there is not, the assertion `a` on the size fails, and nothing
has been stored outside the payload or sent. -/
structure Packs (th : PThread A n) (a : Assertion) (c : PThreadContext A n)
    (header params : List (BitVec 32)) (x : Outcome A n (PThreadContext A n)) : Prop where
  fits : 4 + params.length ≤ th.hostMsgPayload → ∃ msg : HostMsg, x = .ok (c.emit (.uart msg)) ∧
    msg.payload.length = th.hostMsgPayload ∧ msg.payload.take 4 = header ∧
    (msg.payload.drop 4).take params.length = params
  oversize : th.hostMsgPayload < 4 + params.length →
    ∃ c', x = .error ⟨.assertion a, c'⟩ ∧ c'.trace = c.trace

/-- Store the parameters, send, and check the size.  The context of the send is `space` of the
one behind the stores. -/
def packAndSend (th : PThread A n) (a : Assertion)
    (space : PThreadContext A n → PThreadContext A n) (c : PThreadContext A n) (hmsg : HostMsg)
    (params : List (BitVec 32)) : Outcome A n (PThreadContext A n) :=
  let r := storeWords c hmsg 4 params
  let sent := directHostMessageSlowSend (space r.1) r.2
  th.check sent a (decide (4 + params.length ≤ th.hostMsgPayload)) >>= fun _ => .ok sent

section Pack

variable {a : Assertion} {space : PThreadContext A n → PThreadContext A n}
  (hspace : ∀ c', c'.toHostBuffer = c.toHostBuffer → space c' = c')
  (hpayload : hmsg.payload.length = th.hostMsgPayload) (hheader : 4 ≤ th.hostMsgPayload)

include hspace hpayload

/-- Where there is room, the message is sent and nothing else happens. -/
theorem packAndSend_fits (h : 4 + params.length ≤ th.hostMsgPayload) :
    packAndSend th a space c hmsg params = .ok (c.emit (.uart { hmsg with
      payload := hmsg.payload.take 4 ++ params ++ hmsg.payload.drop (4 + params.length) })) := by
  have hstored : storeWords c hmsg 4 params = (c, _) :=
    storeWords_inside (h.trans_eq hpayload.symm)
  unfold packAndSend
  rw [hstored, decide_eq_true h]
  dsimp only
  rw [hspace c rfl, check_true]
  rfl

include hheader

/-- Where there is not, the stray stores and the message come before the assertion. -/
theorem packAndSend_oversize (h : th.hostMsgPayload < 4 + params.length) :
    ∃ msg, packAndSend th a space c hmsg params =
      th.check ((strayStores c th.hostMsgPayload
        (4 + params.length - th.hostMsgPayload)).emit (.uart msg)) a false >>= fun _ =>
          .ok ((strayStores c th.hostMsgPayload
            (4 + params.length - th.hostMsgPayload)).emit (.uart msg)) := by
  have hstored := storeWords_oversize (c := c) (hheader.trans_eq hpayload.symm) (hpayload ▸ h)
  refine ⟨{ hmsg with payload := hmsg.payload.take 4 ++ params.take (th.hostMsgPayload - 4) }, ?_⟩
  unfold packAndSend
  rw [hstored, decide_eq_false (Nat.not_le.2 h)]
  dsimp only
  have hstray := hspace (strayStores c hmsg.payload.length
    (4 + params.length - hmsg.payload.length)) rfl
  rw [hstray, hpayload]
  rfl

theorem packAndSend_packs_iff :
    Packs th a c (hmsg.payload.take 4) params (packAndSend th a space c hmsg params) ↔
      4 + params.length ≤ th.hostMsgPayload := by
  constructor
  · intro h
    by_contra hsize
    have hover : th.hostMsgPayload < 4 + params.length := Nat.lt_of_not_le hsize
    obtain ⟨c', hstop, htrace⟩ := h.oversize hover
    obtain ⟨msg, hsent⟩ := packAndSend_oversize hspace hpayload hheader (a := a) hover
    rw [hsent] at hstop
    rcases bind_eq_error.1 hstop with hcheck | ⟨_, -, hok⟩
    · obtain ⟨hctxt, -, -⟩ := check_sat.of_error hcheck
      obtain rfl : c' = _ := congrArg Stop.ctxt hctxt
      have hlength := congrArg List.length htrace
      simp [PThreadContext.emit, strayStores] at hlength
    · cases hok
  · intro hsize
    refine ⟨fun _ => ⟨_, packAndSend_fits hspace hpayload hsize, ?_, ?_, ?_⟩,
      fun hover => absurd hsize (Nat.not_le.2 hover)⟩
    · simp
      omega
    · rw [List.append_assoc, List.take_append_of_le_length (by simp; omega), List.take_take]
      rfl
    · have hlength : (hmsg.payload.take 4).length = 4 := by simp; omega
      rw [List.append_assoc, List.drop_left' hlength, List.take_left]

end Pack

/-- The caller's words are the first four of the payload. -/
theorem take_four {l : List (BitVec 32)} {w₀ w₁ w₂ w₃ : BitVec 32} (h : 4 ≤ l.length) :
    ((((l.set 0 w₀).set 1 w₁).set 2 w₂).set 3 w₃).take 4 = [w₀, w₁, w₂, w₃] := by
  match l, h with
  | _ :: _ :: _ :: _ :: _, _ => rfl

/-- The message of the softswitch before the parameters. -/
def softswitchLogMessage (th : PThread A n) (pc msg : BitVec 32) : HostMsg where
  source := { th.uninitHostMsg.source with thread := th.myId, device := 0xFFFF }
  type := 0xF0
  payload := (((th.uninitHostMsg.payload.set 0 msg).set 1 (pc <<< 8)).set 2 0).set 3 0

/-- The message of a handler of `dev` before the parameters. -/
def handlerLogMessage (th : PThread A n) (c : PThreadContext A n) (dev : DeviceFixed A)
    (pc msg pin : BitVec 32) : HostMsg where
  source := { th.uninitHostMsg.source with
    thread := th.myId
    device := BitVec.ofNat 16 dev.index }
  type := 0xF0
  payload := (((th.uninitHostMsg.payload.set 0 msg).set 1
    ((pc <<< 8) ||| BitVec.ofNat 32 c.currentHandlerType)).set 2 pin).set 3 dev.id

section LogImpl

variable {level : Int} {pc msg pin : BitVec 32}

theorem softswitchSoftswitchLogImpl_eq (hlevel : level ≤ th.applLogLevel) :
    softswitchSoftswitchLogImpl th c level pc msg params =
      packAndSend th .softswitchLogSize id c (softswitchLogMessage th pc msg) params := by
  unfold softswitchSoftswitchLogImpl packAndSend
  rw [if_neg (Int.not_lt.2 hlevel)]
  dsimp only
  rw [logPeelParamsSs_eq]
  rfl

/-- A handler may log, and its message is not filtered out. -/
theorem softswitchHandlerLogImpl_eq (hlevel : level ≤ th.applLogLevel)
    (htype : c.currentHandlerType ≠ 0) (hdev : c.currentDevice < n)
    (hpin : logPinName th c (th.device ⟨c.currentDevice, hdev⟩) = .ok pin) :
    softswitchHandlerLogImpl th c level pc msg params =
      packAndSend th .handlerLogSize makeSpace c
        (handlerLogMessage th c (th.device ⟨c.currentDevice, hdev⟩) pc msg pin) params := by
  have htype' : (c.currentHandlerType != 0) = true := bne_iff_ne.2 htype
  unfold softswitchHandlerLogImpl packAndSend
  rw [htype', decide_eq_true hdev, check_true, check_true]
  rw [ok_bind, ok_bind, if_neg (Int.not_lt.2 hlevel), dif_pos hdev]
  dsimp only
  rw [hpin, ok_bind, logPeelParams_eq]
  rfl

/-- Both log functions do what they are to do exactly where there is room for the parameters. -/
theorem logImpl_packs_iff (hpayload : th.uninitHostMsg.payload.length = th.hostMsgPayload)
    (hheader : 4 ≤ th.hostMsgPayload) (hhead : c.hbufHead < hostbufferSize)
    (htail : c.hbufTail < hostbufferSize) (hlevel : level ≤ th.applLogLevel)
    (htype : c.currentHandlerType ≠ 0) (hdev : c.currentDevice < n)
    (hpin : logPinName th c (th.device ⟨c.currentDevice, hdev⟩) = .ok pin) :
    (Packs th .handlerLogSize c
        [msg, (pc <<< 8) ||| BitVec.ofNat 32 c.currentHandlerType, pin,
          (th.device ⟨c.currentDevice, hdev⟩).id]
        params (softswitchHandlerLogImpl th c level pc msg params) ↔
      4 + params.length ≤ th.hostMsgPayload) ∧
    (Packs th .softswitchLogSize c [msg, pc <<< 8, 0, 0] params
        (softswitchSoftswitchLogImpl th c level pc msg params) ↔
      4 + params.length ≤ th.hostMsgPayload) := by
  have hroom : 4 ≤ th.uninitHostMsg.payload.length := hheader.trans_eq hpayload.symm
  constructor
  · let d := th.device ⟨c.currentDevice, hdev⟩
    have hfour : (handlerLogMessage th c d pc msg pin).payload.take 4 = _ := take_four hroom
    rw [softswitchHandlerLogImpl_eq hlevel htype hdev hpin, ← hfour]
    refine packAndSend_packs_iff (fun c' hc' => makeSpace_eq ?_ ?_) ?_ hheader
    · rw [hc']
      exact hhead
    · rw [hc']
      exact htail
    · simpa [handlerLogMessage] using hpayload
  · have hfour : (softswitchLogMessage th pc msg).payload.take 4 = _ := take_four hroom
    rw [softswitchSoftswitchLogImpl_eq hlevel, ← hfour]
    exact packAndSend_packs_iff (fun _ _ => rfl) (by simpa [softswitchLogMessage] using hpayload)
      hheader

end LogImpl

/-- The thread of two devices while the init handler of device 0 runs. -/
def initLogContext : PThreadContext flagsApp 2 := (flagsContext 1#32 0#32).track 0 4

/-- Two parameters. -/
theorem logImpl_packs_iff_two :
    Packs (flagsThread (defaultBuild true)) .handlerLogSize initLogContext
      [8#32, 0x704#32, 0#32, 0#32] [1#32, 2#32]
      (softswitchHandlerLogImpl (flagsThread (defaultBuild true)) initLogContext 0 7#32 8#32
        [1#32, 2#32]) := by
  have hpayload : (flagsThread (defaultBuild true)).uninitHostMsg.payload.length =
    (flagsThread (defaultBuild true)).hostMsgPayload := rfl
  have hdev : initLogContext.currentDevice < 2 := by decide
  have hpin : logPinName (flagsThread (defaultBuild true)) initLogContext
    ((flagsThread (defaultBuild true)).device ⟨initLogContext.currentDevice, hdev⟩) = .ok 0#32 :=
    rfl
  exact (@logImpl_packs_iff _ _ _ _ [1#32, 2#32] 0 7#32 8#32 _ hpayload (by decide) (by decide)
    (by decide) (by decide) (by decide) hdev hpin).1.2 (by decide)

/-- Ten parameters, where there is room for nine. -/
theorem handlerLog_stores_stray :
    ¬Packs (flagsThread (defaultBuild true)) .handlerLogSize initLogContext
      [8#32, 0x704#32, 0#32, 0#32] (List.replicate 10 0#32)
      (softswitchHandlerLogImpl (flagsThread (defaultBuild true)) initLogContext 0 7#32 8#32
        (List.replicate 10 0#32)) := by
  intro h
  obtain ⟨c', hstop, htrace⟩ := h.oversize (by decide)
  have hctxt : c'.trace = [.strayStore 13, .uart _] := congrArg (fun x => (lastContext x).trace)
    hstop.symm
  rw [hctxt] at htrace
  cases htrace

end Softswitch
