import Softswitch.Verify.MboxThread

/-!
# Messages between the mailboxes

A message that software gives to its mailbox is pulled, sent, received and pushed into the mailbox
of the thread that its header names.  At each of these places messages stay in order, if the network
keeps them in order between any two threads (`InOrder`).
-/

namespace Softswitch

open Outcome Monitor Datagrams Runs Pipe Function

variable {P : MboxParams} {n : Nat} {net : ThreadNet n} {i j k : Fin n} {e : FabricEvent P n}
  {es : List (FabricEvent P n)} {carrier : Carrier} {F F' : Fabric P net}
  {f : FabricFault} {slots : Fin n → Fin P.msgsPerThread → MboxBuffer P}
  {buffer : Fin n → MboxBuffer P} {inside : net.State → Fin n → Fin n → List (List (BitVec 8))}

/-! ## What a run did -/

/-- What was done at the mailbox of thread `i`. -/
def atMbox (i : Fin n) : FabricEvent P n → Option (Option (MboxEvent P))
  | .mbox k l => if k = i then some l else none
  | _ => none

/-- What thread `i` sent into the network. -/
def sentBy (i : Fin n) : FabricEvent P n → Option Outgoing
  | .sendto k dstThreadId byteLength data =>
    if k = i then some (dstThreadId, byteLength, data) else none
  | _ => none

/-- What came in from the network at thread `j`. -/
def arrivedAt (j : Fin n) : FabricEvent P n → Option (ThreadDatagram n)
  | .recvfrom k d => if k = j then some d else none
  | _ => none

/-- The messages for thread `j`. -/
def toThread (j : Fin n) (m : Outgoing) : Option (List (BitVec 8)) :=
  if m.1 = threadId j then some m.2.2 else none

/-- The messages from thread `i`. -/
def fromThread (i : Fin n) (d : ThreadDatagram n) : Option (List (BitVec 8)) :=
  if d.source = i then some d.data else none

/-- A message is pulled or pushed. -/
def MboxEvent.carries : MboxEvent P → Bool
  | .pull _ _ _ | .push _ => true
  | _ => false

/-- Software gives a message to its mailbox. -/
def MboxEvent.gives : MboxEvent P → Bool
  | .send _ _ _ => true
  | _ => false

/-- A message is moved on. -/
def FabricEvent.carries : FabricEvent P n → Bool
  | .recvfrom _ _ | .sendto _ _ _ _ => true
  | .mbox _ (some e) => e.carries
  | _ => false

def FabricEvent.gives : FabricEvent P n → Bool
  | .mbox _ (some e) => e.gives
  | _ => false

theorem filterMap_snoc {α β : Type} {xs : List α} {x : α} {f : α → Option β} :
    (xs ++ [x]).filterMap f = xs.filterMap f ++ (f x).toList := by
  rw [List.filterMap_append]
  cases hx : f x with
  | none => rw [List.filterMap_cons_none hx, List.filterMap_nil, Option.toList_none]
  | some y => rw [List.filterMap_cons_some hx, List.filterMap_nil, Option.toList_some]

theorem threadId_inj (hn : n ≤ 2 ^ 32) : threadId i = threadId j ↔ i = j := by
  refine ⟨fun h => Fin.ext ?_, fun h => h ▸ rfl⟩
  have hval := congrArg BitVec.toNat h
  unfold threadId at hval
  rwa [BitVec.toNat_ofNat, BitVec.toNat_ofNat, Nat.mod_eq_of_lt (i.isLt.trans_le hn),
    Nat.mod_eq_of_lt (j.isLt.trans_le hn)] at hval

/-- A message that is sent to thread `l` is for no other thread. -/
theorem sentBy_across (hn : n ≤ 2 ^ 32) {l : Fin n} {byteLength : Nat} {data : List (BitVec 8)} :
    (sentBy i (.sendto k (threadId l) byteLength data : FabricEvent P n)).toList.filterMap
      (toThread j) = across k l data i j := by
  unfold sentBy across
  by_cases hk : k = i
  · by_cases hl : l = j
    · simp [toThread, hk, hl]
    · have hne : threadId l ≠ threadId j := fun h => hl ((threadId_inj hn).1 h)
      simp [toThread, hne, Ne.symm hl]
  · simp [hk, Ne.symm hk]

theorem arrivedAt_across {d : ThreadDatagram n} :
    (arrivedAt j (.recvfrom k d : FabricEvent P n)).toList.filterMap (fromThread i) =
      across d.source k d.data i j := by
  unfold arrivedAt across
  by_cases hk : k = j
  · by_cases hi : d.source = i
    · simp [fromThread, hk, hi]
    · simp [fromThread, hk, hi, Ne.symm hi]
  · simp [hk, Ne.symm hk]

/-! ## The checks -/

theorem checkSendto_ok {dstThreadId : BitVec 32} {byteLength : Nat}
    (hfits : byteLength ≤ P.bytesPerMsg) :
    checkSendto P carrier dstThreadId byteLength = .ok () ↔
      carrier.tooLong dstThreadId = false := by
  unfold checkSendto
  rw [if_pos hfits]
  cases carrier.tooLong dstThreadId <;> simp

theorem checkSendto_error {dstThreadId : BitVec 32} {byteLength : Nat}
    (hfits : byteLength ≤ P.bytesPerMsg) :
    checkSendto P carrier dstThreadId byteLength = .error f ↔
      carrier.tooLong dstThreadId = true ∧ f = .address dstThreadId := by
  unfold checkSendto
  rw [if_pos hfits]
  cases carrier.tooLong dstThreadId <;> simp [eq_comm]

/-! ## The invariant -/

/-- What holds of thread `i` after the events `es`. -/
def LoopAfter (slots : Fin n → Fin P.msgsPerThread → MboxBuffer P) (es : List (FabricEvent P n))
    (i : Fin n) (t : MboxThread P) : Prop :=
  LoopInv i (slots i) (es.filterMap (atMbox i)) (es.filterMap (sentBy i))
    ((es.filterMap (arrivedAt i)).map Datagram.data) t

/-- What holds after the events `es`. -/
structure FabricInv (inside : net.State → Fin n → Fin n → List (List (BitVec 8)))
    (slots : Fin n → Fin P.msgsPerThread → MboxBuffer P) (es : List (FabricEvent P n))
    (F : Fabric P net) : Prop where
  loops : ∀ i, LoopAfter slots es i (F.threads i)
  headed : ∀ i j, ∀ data ∈ inside F.state i j, Headed P (threadId i) (threadId j) data
  carried : ∀ i j, Passes ((es.filterMap (sentBy i)).filterMap (toThread j))
    ((es.filterMap (arrivedAt j)).filterMap (fromThread i)) (inside F.state i j)

/-- The threads that an event does not concern. -/
theorem LoopAfter.other {t : MboxThread P} (h : LoopAfter slots es i t)
    (hmbox : atMbox i e = none) (hsent : sentBy i e = none) (harrived : arrivedAt i e = none) :
    LoopAfter slots (es ++ [e]) i t := by
  unfold LoopAfter
  rw [filterMap_snoc, filterMap_snoc, filterMap_snoc, hmbox, hsent, harrived, Option.toList_none,
    Option.toList_none, Option.toList_none, List.append_nil, List.append_nil, List.append_nil]
  exact h

theorem LoopAfter.update {t : MboxThread P} (hloops : ∀ i, LoopAfter slots es i (F.threads i))
    (hk : LoopAfter slots (es ++ [e]) k t)
    (hother : ∀ i, k ≠ i → atMbox i e = none ∧ sentBy i e = none ∧ arrivedAt i e = none)
    (i : Fin n) :
    LoopAfter slots (es ++ [e]) i (update F.threads k t i) := by
  by_cases hik : i = k
  · subst hik
    rwa [update_self]
  · obtain ⟨hmbox, hsent, harrived⟩ := hother i (Ne.symm hik)
    rw [update_of_ne hik]
    exact (hloops i).other hmbox hsent harrived

namespace FabricInv

theorem start (hnet : InOrder net threadId inside) :
    FabricInv inside slots [] (Fabric.start carrier slots buffer) where
  loops i := LoopInv.start _ (buffer i)
  headed i j data hdata := by
    have hempty : inside net.start i j = [] := hnet.start i j
    have hmem : data ∈ inside net.start i j := hdata
    rw [hempty] at hmem
    cases hmem
  carried i j := by
    have hempty : inside net.start i j = [] := hnet.start i j
    show Passes [] [] (inside net.start i j)
    rw [hempty]
    exact .empty

/-- What is inside stays there in a step that no message makes. -/
theorem of_inside (h : FabricInv inside slots es F)
    (hinside : ∀ i j, inside F'.state i j = inside F.state i j)
    (hloops : ∀ i, LoopAfter slots (es ++ [e]) i (F'.threads i))
    (hsent : ∀ i, sentBy i e = none) (harrived : ∀ j, arrivedAt j e = none) :
    FabricInv inside slots (es ++ [e]) F' where
  loops := hloops
  headed i j := by
    rw [hinside]
    exact h.headed i j
  carried i j := by
    rw [filterMap_snoc, filterMap_snoc, hsent, harrived, hinside, Option.toList_none,
      Option.toList_none, List.append_nil, List.append_nil]
    exact h.carried i j

theorem headed_received (h : FabricInv inside slots es F) (hnet : InOrder net threadId inside)
    {d : ThreadDatagram n} {s : net.State} (hrecvfrom : net.recvfrom F.state k (some (d, s))) :
    Headed P (threadId d.source) (threadId k) d.data := by
  refine h.headed d.source k d.data ?_
  rw [hnet.recvfrom hrecvfrom, across_self]
  exact List.mem_append_left _ (List.mem_singleton_self _)

theorem recvfrom (h : FabricInv inside slots es F) (hnet : InOrder net threadId inside)
    {d : ThreadDatagram n} {s : net.State} {t : MboxThread P} (hreceiving : F.Receiving k)
    (hrecvfrom : net.recvfrom F.state k (some (d, s)))
    (hreceive : (F.threads k).receive carrier d = .ok t) :
    FabricInv inside slots (es ++ [.recvfrom k d]) { F.setThread k t with state := s } := by
  have hd := h.headed_received hnet hrecvfrom
  have hinside := hnet.recvfrom hrecvfrom
  obtain rfl : (F.threads k).received d.data = t :=
    Except.ok.inj ((LoopInv.receive_eq hd).symm.trans hreceive)
  refine ⟨LoopAfter.update h.loops ?_ ?_, fun i j data hdata => ?_, fun i j => ?_⟩
  · have hreceived := (h.loops k).received hd hreceiving.2
    have hself : arrivedAt k (.recvfrom k d : FabricEvent P n) = some d := if_pos rfl
    unfold LoopAfter
    rw [filterMap_snoc, filterMap_snoc, filterMap_snoc, hself]
    simpa [atMbox, sentBy] using hreceived
  · exact fun i hne => ⟨rfl, rfl, if_neg hne⟩
  · refine h.headed i j data ?_
    rw [hinside]
    exact List.mem_append_right _ hdata
  · have hcarried := h.carried i j
    have hsent : sentBy i (.recvfrom k d : FabricEvent P n) = none := rfl
    rw [hinside] at hcarried
    rw [filterMap_snoc, filterMap_snoc, hsent, Option.toList_none, List.append_nil,
      List.filterMap_append, arrivedAt_across]
    exact hcarried.take

theorem sendto (hn : n ≤ 2 ^ 32) (h : FabricInv inside slots es F)
    (hnet : InOrder net threadId inside) {dstThreadId : BitVec 32} {byteLength : Nat}
    {data : List (BitVec 8)} {s : net.State}
    (hout : (F.threads k).outgoing = .sendto dstThreadId byteLength data)
    (hsendto : net.sendto F.state F.Receiving k dstThreadId data (some s)) :
    FabricInv inside slots (es ++ [.sendto k dstThreadId byteLength data])
      { F.setThread k (F.threads k).sent with state := s } := by
  obtain ⟨l, rfl, hinside⟩ := hnet.sendto hsendto
  have hself : sentBy k (.sendto k (threadId l) byteLength data : FabricEvent P n) =
      some (threadId l, byteLength, data) := if_pos rfl
  refine ⟨LoopAfter.update h.loops ?_ fun i hne => ⟨rfl, if_neg hne, rfl⟩, fun i j x hx => ?_,
    fun i j => ?_⟩
  · unfold LoopAfter
    rw [filterMap_snoc, filterMap_snoc, filterMap_snoc, hself]
    simpa [atMbox, arrivedAt] using (h.loops k).sent hout
  · rw [hinside] at hx
    rcases List.mem_append.1 hx with hx | hx
    · exact h.headed i j x hx
    · obtain ⟨rfl, rfl, rfl⟩ := mem_across hx
      exact ((h.loops i).headed_sending hout).1
  · have hnone : arrivedAt j (.sendto k (threadId l) byteLength data : FabricEvent P n) = none :=
      rfl
    rw [filterMap_snoc, filterMap_snoc, hnone, Option.toList_none, List.append_nil,
      List.filterMap_append, sentBy_across hn, hinside]
    exact (h.carried i j).put _

theorem step (hn : n ≤ 2 ^ 32) (hnet : InOrder net threadId inside)
    (h : FabricInv inside slots es F) (hstep : Fabric.Step carrier F e F') :
    FabricInv inside slots (es ++ [e]) F' := by
  cases hstep with
  | @bind i s hbound hbind =>
    refine h.of_inside (hnet.bind hbind) (LoopAfter.update h.loops ?_ fun _ _ => ⟨rfl, rfl, rfl⟩)
      (fun _ => rfl) fun _ => rfl
    exact LoopAfter.other (h.loops i).bind rfl rfl rfl
  | @mbox i party l m hbound hstep =>
    refine h.of_inside (fun _ _ => rfl) (LoopAfter.update h.loops ?_ ?_) (fun _ => rfl)
      fun _ => rfl
    · have hself : atMbox i (.mbox i l : FabricEvent P n) = some l := if_pos rfl
      unfold LoopAfter
      rw [filterMap_snoc, filterMap_snoc, filterMap_snoc, hself]
      simpa [sentBy, arrivedAt] using (h.loops i).mbox hstep
    · exact fun i' hne => ⟨if_neg hne, rfl, rfl⟩
  | recvfrom hreceiving hrecvfrom hreceive => exact h.recvfrom hnet hreceiving hrecvfrom hreceive
  | sendto hout hcheck hsendto => exact h.sendto hn hnet hout hsendto

end FabricInv

/-- A run of the threads, from before their sockets are bound; the labels are what happened. -/
def FabricRun (net : ThreadNet n) (carrier : Carrier)
    (slots : Fin n → Fin P.msgsPerThread → MboxBuffer P) (buffer : Fin n → MboxBuffer P)
    (es : List (FabricEvent P n)) (F : Fabric P net) : Prop :=
  Run (Fabric.Step carrier) (Fabric.start carrier slots buffer) es F

theorem FabricRun.inv (hn : n ≤ 2 ^ 32) (hnet : InOrder net threadId inside)
    (hrun : FabricRun net carrier slots buffer es F) : FabricInv inside slots es F :=
  Run.invariant (I := fun es F => FabricInv inside slots es F) hrun (.start hnet)
    fun _ _ _ _ h hstep => h.step hn hnet hstep

/-! ## Two threads -/

/-- A mailbox with one slot, which holds a header. -/
def packetMbox : MboxParams := ⟨0, 2, 0⟩

def packetSlot : Fin packetMbox.msgsPerThread := ⟨0, packetMbox.msgsPerThread_pos⟩

/-- The header of a message from thread 0 to thread 1. -/
def packetBuffer : MboxBuffer packetMbox := fun k => if k.val = 0 then 1#8 else 0#8

def packetData : List (BitVec 8) := copyOut packetBuffer 16

def packetInit : TinselMbox packetMbox := .init 0#32 fun _ _ => 0#8

def packetSet : TinselMbox packetMbox :=
  { packetInit.softwareWrite packetSlot packetBuffer with sendLength := some 16 }

def packetGiven : TinselMbox packetMbox := packetSet.startSend 1#32 packetSlot

/-- The mailbox of thread 1. -/
def secondInit : TinselMbox packetMbox := .init 1#32 fun _ _ => 0#8

/-- A thread whose loops are at their beginning. -/
def loopsAt (bound : Bool) (m : TinselMbox packetMbox) : MboxThread packetMbox :=
  ⟨bound, ⟨m, fun _ => none⟩, fun _ => 0#8, .recvfrom, .netPullMessage⟩

/-- The message is pulled. -/
def packetPulled : MboxThread packetMbox :=
  { loopsAt true (packetGiven.endSend packetSlot) with outgoing := .sendto 1#32 16 packetData }

/-- Thread 1 has an empty slot. -/
def packetAwaited : MboxThread packetMbox := loopsAt true (secondInit.giveEmpty packetSlot)

theorem packet_write : PartyStep (mboxOperations packetMbox) .cpu
    ((loopsAt true packetInit).MayCall 0#32 .cpu) (loopsAt true packetInit).mbox
    (some (.write packetSlot packetBuffer))
    (loopsAt true (packetInit.softwareWrite packetSlot packetBuffer)).mbox := by
  have ho : (loopsAt true packetInit).MayCall 0#32 .cpu (.write packetSlot packetBuffer) :=
    (rfl : MsgStatus.softwareOwned = .softwareOwned)
  exact .ends rfl ho rfl

theorem packet_setLen : PartyStep (mboxOperations packetMbox) .cpu
    ((loopsAt true (packetInit.softwareWrite packetSlot packetBuffer)).MayCall 0#32 .cpu)
    (loopsAt true (packetInit.softwareWrite packetSlot packetBuffer)).mbox
    (some (.setLen 16)) (loopsAt true packetSet).mbox := by
  have ho : (loopsAt true (packetInit.softwareWrite packetSlot packetBuffer)).MayCall 0#32 .cpu
    (.setLen 16) := ⟨rfl, by decide⟩
  exact .ends rfl ho rfl

theorem packet_send : PartyStep (mboxOperations packetMbox) .cpu
    ((loopsAt true packetSet).MayCall 0#32 .cpu) (loopsAt true packetSet).mbox
    (some (.send 1#32 packetSlot packetBuffer)) (loopsAt true packetGiven).mbox := by
  have ho : (loopsAt true packetSet).MayCall 0#32 .cpu (.send 1#32 (some packetSlot)) := by
    refine ⟨⟨rfl, Option.some_ne_none 16, packetSlot, rfl, rfl⟩, fun i hi => ?_⟩
    cases hi
    exact ⟨by decide, by decide, fun len hlen => by cases hlen; decide⟩
  exact .ends rfl ho rfl

theorem packet_pull : PartyStep (mboxOperations packetMbox) .outgoing
    ((loopsAt true packetGiven).MayCall 0#32 .outgoing) (loopsAt true packetGiven).mbox
    (some (.pull 1#32 16 packetData)) packetPulled.mbox := by
  have ho : (loopsAt true packetGiven).MayCall 0#32 .outgoing (.pull true) := ⟨rfl, rfl⟩
  exact .ends rfl ho rfl

theorem packet_alloc : PartyStep (mboxOperations packetMbox) .cpu
    ((loopsAt true secondInit).MayCall 1#32 .cpu) (loopsAt true secondInit).mbox
    (some (.alloc packetSlot)) packetAwaited.mbox := by
  have ho : (loopsAt true secondInit).MayCall 1#32 .cpu (.alloc (some packetSlot)) :=
    ⟨packetSlot, rfl, rfl⟩
  exact .ends rfl ho rfl

theorem packet_push : ∃ g, PartyStep (mboxOperations packetMbox) .incoming
    ((packetAwaited.received packetData).MayCall 1#32 .incoming)
    (packetAwaited.received packetData).mbox (some (.push packetData)) g := by
  have ho : (packetAwaited.received packetData).MayCall 1#32 .incoming
    (.push 1#32 packetData true 0) := ⟨16, 0, rfl, rfl⟩
  exact ⟨_, .ends rfl ho rfl⟩

section Packet

variable {net : ThreadNet 2} {s s' : net.State} {t t' u u' : MboxThread packetMbox}
  {es : List (FabricEvent packetMbox 2)}

/-- Two threads. -/
def fabricAt (net : ThreadNet 2) (t u : MboxThread packetMbox) (s : net.State) :
    Fabric packetMbox net :=
  ⟨fun i => if i.val = 0 then t else u, s⟩

theorem setFirst_fabricAt : (fabricAt net t u s).setThread 0 t' = fabricAt net t' u s := by
  unfold Fabric.setThread fabricAt
  congr 1
  funext i
  revert i
  exact Fin.forall_fin_two.2 ⟨rfl, rfl⟩

theorem setSecond_fabricAt : (fabricAt net t u s).setThread 1 u' = fabricAt net t u' s := by
  unfold Fabric.setThread fabricAt
  congr 1
  funext i
  revert i
  exact Fin.forall_fin_two.2 ⟨rfl, rfl⟩

/-- A run of the two threads, after which they are at `t` and `u`. -/
abbrev PacketRun (net : ThreadNet 2) (carrier : Carrier) (es : List (FabricEvent packetMbox 2))
    (t u : MboxThread packetMbox) (s : net.State) : Prop :=
  FabricRun net carrier (fun _ _ _ => 0#8) (fun _ _ => 0#8) es (fabricAt net t u s)

namespace PacketRun

theorem first {party : Party} {l : Option (MboxEvent packetMbox)}
    {g : Config (TinselMbox packetMbox) MboxWait Party} (h : PacketRun net carrier es t u s)
    (hbound : t.bound = true)
    (hstep : PartyStep (mboxOperations packetMbox) party (t.MayCall 0#32 party) t.mbox l g) :
    PacketRun net carrier (es ++ [.mbox 0 l]) (t.after party l g) u s := by
  have hmbox : Fabric.Step carrier (fabricAt net t u s) (.mbox 0 l)
      ((fabricAt net t u s).setThread 0 (t.after party l g)) :=
    @Fabric.Step.mbox _ _ net carrier (fabricAt net t u s) 0 party l g hbound hstep
  rw [setFirst_fabricAt] at hmbox
  exact h.snoc hmbox

theorem second {party : Party} {l : Option (MboxEvent packetMbox)}
    {g : Config (TinselMbox packetMbox) MboxWait Party} (h : PacketRun net carrier es t u s)
    (hbound : u.bound = true)
    (hstep : PartyStep (mboxOperations packetMbox) party (u.MayCall 1#32 party) u.mbox l g) :
    PacketRun net carrier (es ++ [.mbox 1 l]) t (u.after party l g) s := by
  have hmbox : Fabric.Step carrier (fabricAt net t u s) (.mbox 1 l)
      ((fabricAt net t u s).setThread 1 (u.after party l g)) :=
    @Fabric.Step.mbox _ _ net carrier (fabricAt net t u s) 1 party l g hbound hstep
  rw [setSecond_fabricAt] at hmbox
  exact h.snoc hmbox

theorem bindFirst (h : PacketRun net carrier es t u s) (hbound : t.bound = false)
    (hbind : net.bind s 0 (some s')) :
    PacketRun net carrier (es ++ [.bind 0]) { t with bound := true } u s' := by
  have hstep : Fabric.Step carrier (fabricAt net t u s) (.bind 0)
      { (fabricAt net t u s).setThread 0 { t with bound := true } with state := s' } :=
    @Fabric.Step.bind _ _ net carrier (fabricAt net t u s) 0 s' hbound hbind
  rw [setFirst_fabricAt] at hstep
  exact h.snoc hstep

theorem bindSecond (h : PacketRun net carrier es t u s) (hbound : u.bound = false)
    (hbind : net.bind s 1 (some s')) :
    PacketRun net carrier (es ++ [.bind 1]) t { u with bound := true } s' := by
  have hstep : Fabric.Step carrier (fabricAt net t u s) (.bind 1)
      { (fabricAt net t u s).setThread 1 { u with bound := true } with state := s' } :=
    @Fabric.Step.bind _ _ net carrier (fabricAt net t u s) 1 s' hbound hbind
  rw [setSecond_fabricAt] at hstep
  exact h.snoc hstep

/-- Thread 0 gives a message, which is pulled. -/
theorem pulled (h : PacketRun net carrier es (loopsAt true packetInit) u s) :
    PacketRun net carrier (es ++ [.mbox 0 (some (.write packetSlot packetBuffer))] ++
      [.mbox 0 (some (.setLen 16))] ++ [.mbox 0 (some (.send 1#32 packetSlot packetBuffer))] ++
      [.mbox 0 (some (.pull 1#32 16 packetData))]) packetPulled u s :=
  (((h.first rfl packet_write).first rfl packet_setLen).first rfl packet_send).first rfl
    packet_pull

/-- What was pulled goes to thread 1. -/
theorem crossed (h : PacketRun net .mpi es packetPulled packetAwaited s)
    (hsendto : net.sendto s (fabricAt net packetPulled packetAwaited s).Receiving 0 1#32 packetData
      (some s')) {s'' : net.State} (hrecvfrom : net.recvfrom s' 1 (some (⟨0, packetData⟩, s''))) :
    ∃ g, PacketRun net .mpi (es ++ [.sendto 0 1#32 16 packetData] ++
      [.recvfrom 1 ⟨0, packetData⟩] ++ [.mbox 1 (some (.push packetData))]) packetPulled.sent
      ((packetAwaited.received packetData).after .incoming (some (.push packetData)) g) s'' := by
  have hsend : Fabric.Step .mpi (fabricAt net packetPulled packetAwaited s)
      (.sendto 0 1#32 16 packetData)
      { (fabricAt net packetPulled packetAwaited s).setThread 0 packetPulled.sent with
        state := s' } :=
    @Fabric.Step.sendto _ _ net .mpi (fabricAt net packetPulled packetAwaited s) 0 1#32 16
      packetData s' rfl rfl hsendto
  rw [setFirst_fabricAt] at hsend
  have hreceive : packetAwaited.receive .mpi (⟨0, packetData⟩ : ThreadDatagram 2) =
      .ok (packetAwaited.received packetData) := by
    have hheaded : Headed packetMbox 0#32 1#32 packetData :=
      headed_copyOut packetBuffer (by decide) (by decide)
    exact LoopInv.receive_eq (i := (1 : Fin 2)) hheaded
  have hrecv : Fabric.Step .mpi (fabricAt net packetPulled.sent packetAwaited s')
      (.recvfrom 1 ⟨0, packetData⟩)
      { (fabricAt net packetPulled.sent packetAwaited s').setThread 1
        (packetAwaited.received packetData) with state := s'' } :=
    @Fabric.Step.recvfrom _ _ net .mpi (fabricAt net packetPulled.sent packetAwaited s') 1
      ⟨0, packetData⟩ s'' _ ⟨rfl, rfl⟩ hrecvfrom hreceive
  rw [setSecond_fabricAt] at hrecv
  obtain ⟨g, hpush⟩ := packet_push
  have hreceived : PacketRun net .mpi _ packetPulled.sent (packetAwaited.received packetData) s'' :=
    (h.snoc hsend).snoc hrecv
  exact ⟨g, hreceived.second rfl hpush⟩

end PacketRun

/-- The sockets of the two threads. -/
abbrev packetSockets : ThreadNet 2 := Sockets.net threadId 1

/-- The paths fit. -/
abbrev packetUnix : Carrier := .unix fun _ => 40

/-- The two threads as ranks; a message waits until it is received. -/
abbrev packetRanks : ThreadNet 2 := Ranks.net threadId 0

/-- Thread 0 has pulled a message for thread 1, whose socket may not be bound. -/
theorem exists_pulled (bound : Bool) : ∃ es s,
    PacketRun packetSockets packetUnix es packetPulled (loopsAt bound secondInit) s ∧
    s.bound 1 = bound ∧ es.countP FabricEvent.carries = 1 := by
  have hthreads : Fabric.start packetUnix (fun _ _ _ => 0#8) (fun _ _ => 0#8) =
      fabricAt packetSockets (loopsAt false packetInit) (loopsAt false secondInit)
        ⟨fun _ => false, fun _ => []⟩ := by
    unfold Fabric.start fabricAt
    congr 1
    funext i
    revert i
    exact Fin.forall_fin_two.2 ⟨rfl, rfl⟩
  have hstart : PacketRun packetSockets packetUnix [] (loopsAt false packetInit)
      (loopsAt false secondInit) ⟨fun _ => false, fun _ => []⟩ := by
    unfold PacketRun FabricRun
    rw [hthreads]
    exact .nil
  have hfirst := hstart.bindFirst rfl rfl
  cases bound with
  | false => exact ⟨_, _, PacketRun.pulled hfirst, rfl, rfl⟩
  | true => exact ⟨_, _, PacketRun.pulled (hfirst.bindSecond rfl rfl), rfl, rfl⟩

/-- The message goes from rank 0 to rank 1. -/
theorem exists_crossed : ∃ es u s, PacketRun packetRanks .mpi es packetPulled.sent u s ∧
    u.incoming = .recvfrom ∧ s 0 1 = [] ∧ es.filterMap (arrivedAt 1) = [⟨0, packetData⟩] := by
  have hthreads : Fabric.start .mpi (fun _ _ _ => 0#8) (fun _ _ => 0#8) =
      fabricAt packetRanks (loopsAt true packetInit) (loopsAt true secondInit) fun _ _ => [] := by
    unfold Fabric.start fabricAt
    congr 1
    funext i
    revert i
    exact Fin.forall_fin_two.2 ⟨rfl, rfl⟩
  have hstart : PacketRun packetRanks .mpi [] (loopsAt true packetInit) (loopsAt true secondInit)
      fun _ _ => [] := by
    unfold PacketRun FabricRun
    rw [hthreads]
    exact .nil
  have hpulled := (PacketRun.pulled hstart).second rfl packet_alloc
  obtain ⟨g, h⟩ := PacketRun.crossed hpulled (.inl ⟨1, rfl, .inl ⟨rfl, rfl⟩, rfl⟩)
    ⟨0, packetData, [], rfl, rfl⟩
  exact ⟨_, _, _, h, rfl, rfl, rfl⟩

end Packet

/-! ## Stops -/

/-- In every run the threads at the mailboxes stop the program, at an assertion or otherwise,
exactly where a call of the operating system or of MPI fails, or the path of a socket is too
long. -/
theorem Fabric.stops_iff (hn : n ≤ 2 ^ 32) (hnet : InOrder net threadId inside)
    (hrun : FabricRun net carrier slots buffer es F) :
    F.Stops carrier f ↔
      (∃ i, (F.threads i).bound = false ∧ net.bind F.state i none ∧ f = .bind) ∨
      (∃ i, F.Receiving i ∧ net.recvfrom F.state i none ∧ f = .recvfrom) ∨
      ∃ i dstThreadId byteLength data,
        (F.threads i).outgoing = .sendto dstThreadId byteLength data ∧
        (carrier.tooLong dstThreadId = true ∧ f = .address dstThreadId ∨
          carrier.tooLong dstThreadId = false ∧
            net.sendto F.state F.Receiving i dstThreadId data none ∧ f = .sendto dstThreadId) := by
  have hinv := hrun.inv hn hnet
  have hfits : ∀ {i dstThreadId byteLength data},
      (F.threads i).outgoing = .sendto dstThreadId byteLength data →
      byteLength ≤ P.bytesPerMsg := by
    intro i dstThreadId byteLength data hout
    obtain ⟨hheaded, hlength⟩ := (hinv.loops i).headed_sending hout
    exact hlength.trans_le hheaded.fits
  constructor
  · intro h
    cases h with
    | @call i party o f hbound hi ho hcall =>
      have hslots := (hinv.loops i).run.inv.1
      have hdisciplined := (hinv.loops i).disciplined ho
      exact absurd ⟨hslots, hdisciplined⟩ (TinselMbox.call_sat.of_error hcall)
    | @resume i party x f hi hready hresume =>
      exact absurd (hinv.loops i).run.inv.1 ((TinselMbox.resume_sat hready).of_error hresume)
    | @bind i hbound hbind => exact .inl ⟨i, hbound, hbind, rfl⟩
    | @receive i d s f hreceiving hrecvfrom hreceive =>
      have hd := hinv.headed_received hnet hrecvfrom
      cases (LoopInv.receive_eq hd).symm.trans hreceive
    | @recvfrom i hreceiving hrecvfrom => exact .inr (.inl ⟨i, hreceiving, hrecvfrom, rfl⟩)
    | @check i dstThreadId byteLength data f hout hcheck =>
      exact .inr (.inr ⟨i, dstThreadId, byteLength, data, hout,
        .inl ((checkSendto_error (hfits hout)).1 hcheck)⟩)
    | @sendto i dstThreadId byteLength data hout hcheck hsendto =>
      exact .inr (.inr ⟨i, dstThreadId, byteLength, data, hout,
        .inr ⟨(checkSendto_ok (hfits hout)).1 hcheck, hsendto, rfl⟩⟩)
  · rintro (⟨i, hbound, hbind, rfl⟩ | ⟨i, hreceiving, hrecvfrom, rfl⟩ |
      ⟨i, dstThreadId, byteLength, data, hout, hlong | ⟨hlong, hsendto, rfl⟩⟩)
    · exact .bind hbound hbind
    · exact .recvfrom hreceiving hrecvfrom
    · exact .check hout ((checkSendto_error (hfits hout)).2 hlong)
    · exact .sendto hout ((checkSendto_ok (hfits hout)).2 hlong) hsendto

/-- The program stops where thread 0 sends before the socket of thread 1 is bound. -/
theorem Fabric.stops_iff_unbound : ∃ es s,
    PacketRun packetSockets packetUnix es packetPulled (loopsAt false secondInit) s ∧
    (fabricAt packetSockets packetPulled (loopsAt false secondInit) s).Stops packetUnix
      (.sendto 1#32) := by
  obtain ⟨es, s, hrun, hbound, -⟩ := exists_pulled false
  have hrefused : ∀ j, s.bound j = true → threadId j ≠ 1#32 := by
    refine Fin.forall_fin_two.2 ⟨fun _ => by decide, fun h => ?_⟩
    rw [hbound] at h
    cases h
  have hstops := Fabric.stops_iff (f := .sendto 1#32) (by decide) Sockets.inOrder hrun
  exact ⟨es, s, hrun, hstops.2 (.inr (.inr ⟨0, 1#32, 16, packetData, rfl,
    .inr ⟨rfl, .inr ⟨hrefused, rfl⟩, rfl⟩⟩))⟩

/-! ## Messages -/

/-- What thread `i` gave to its mailbox for thread `j` is, in order, what came in at thread `j`,
what is in the network, what the outgoing thread holds, and what is not yet pulled.  What came in at
thread `j` is what was pushed, and what the incoming thread holds; and what was pushed was received,
or is in a full slot. -/
theorem Fabric.messages_in_order (hn : n ≤ 2 ^ 32) (hnet : InOrder net threadId inside)
    (hrun : FabricRun net carrier slots buffer es F) (i j : Fin n) :
    let given := (softwareGave (results (es.filterMap (atMbox i)))).2
    let arrived := es.filterMap (arrivedAt j)
    let pushed := netPushed (results (es.filterMap (atMbox j)))
    given.filterMap (toThread j) =
      arrived.filterMap (fromThread i) ++ inside F.state i j ++
        (F.threads i).sending.filterMap (toThread j) ++
        (pending (F.threads i).mbox.shared).filterMap (toThread j) ∧
    arrived.map Datagram.data = pushed ++ (F.threads j).pushing ∧
    ∃ (recvd : List (List (BitVec 8))) (held : Fin P.msgsPerThread → List (BitVec 8)),
      List.Forall₂ Starts recvd (softwareReceived (results (es.filterMap (atMbox j)))) ∧
      (pushed : Multiset (List (BitVec 8))) = recvd + inSlots (F.threads j).mbox.shared held := by
  have hinv := hrun.inv hn hnet
  obtain ⟨recvd, held, hholds⟩ := (hinv.loops j).run.holds
  refine ⟨?_, (hinv.loops j).pushed, recvd, held, hholds.starts, hholds.pushed_eq⟩
  have hgiven : Passes (softwareGave (results (es.filterMap (atMbox i)))).2
    (netPulled (results (es.filterMap (atMbox i)))) (pending (F.threads i).mbox.shared) :=
    (hinv.loops i).run.gives.sent
  have hsent := ((hgiven.trans (hinv.loops i).pulled).filterMap (toThread j)).trans
    (hinv.carried i j)
  rw [List.filterMap_append, ← List.append_assoc] at hsent
  simpa [Passes] using hsent

/-- What rank 0 gave is what was pushed at rank 1. -/
theorem Fabric.messages_in_order_crossed : ∃ es u s,
    PacketRun packetRanks .mpi es packetPulled.sent u s ∧
    (softwareGave (results (es.filterMap (atMbox 0)))).2.filterMap (toThread (1 : Fin 2)) =
      [packetData] ∧
    netPushed (results (es.filterMap (atMbox 1))) = [packetData] := by
  obtain ⟨es, u, s, hrun, hin, hinside, harrived⟩ := exists_crossed
  obtain ⟨hgiven, hpushed, -⟩ := Fabric.messages_in_order (by decide) Ranks.inOrder hrun 0 1
  have hpushing : ((fabricAt packetRanks packetPulled.sent u s).threads 1).pushing = [] := by
    show u.pushing = []
    unfold MboxThread.pushing
    rw [hin]
  have hnone : (fabricAt packetRanks packetPulled.sent u s).state 0 1 = [] := hinside
  rw [harrived, hnone] at hgiven
  rw [harrived, hpushing, List.append_nil] at hpushed
  exact ⟨es, u, s, hrun, hgiven, hpushed.symm⟩

end Softswitch
