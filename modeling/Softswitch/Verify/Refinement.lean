import Softswitch.Verify.MainIdle
import Softswitch.Verify.Placement

/-!
# A network of threads runs the graph

Threads that realise a graph only do what the graph can do: each step of a thread is a run of
the graph on the view of the network (`Network.Step.refines`), most often of no step or of
one, in which the same handlers are called in the same order.  What holds in every reachable state
of the graph thus holds in every state that the threads reach (`Network.Reachable.refines`).
-/

namespace Softswitch

open Outcome Transport Function Runs

variable {A : AppTypes} {n : Nat} {ι D : Type} {size : ι → Nat} {ths : Threads A size}
  {place : (Σ i, Fin (size i)) ≃ D} {G : Graph A D} {g g' : Network A size} {k : ι}
  {cs : (i : ι) → PThreadContext A (size i)} {buf : ι → Message A}
  {s s' : Main A (size k)} {d : Fin (size k)} {flight flight' : Multiset (Packet A)}

/-! ## The view -/

/-- What is known for the devices of the threads, for the devices of the graph. -/
def gather {α : Type} (place : (Σ i, Fin (size i)) ≃ D) (f : (i : ι) → Fin (size i) → α)
    (x : D) : α :=
  f (place.symm x).1 (place.symm x).2

section Gather

variable {α : Type} {f f' : (i : ι) → Fin (size i) → α}

theorem gather_place {i : ι} {d : Fin (size i)} : gather place f (place ⟨i, d⟩) = f i d := by
  unfold gather
  rw [place.symm_apply_apply]

/-- A change at one device of one thread is a change at one device of the graph. -/
theorem gather_update [DecidableEq D] {a : α} (hself : f' k = update (f k) d a)
    (hother : ∀ i, i ≠ k → f' i = f i) :
    gather place f' = update (gather place f) (place ⟨k, d⟩) a := by
  funext x
  obtain ⟨⟨i, e⟩, rfl⟩ := place.surjective x
  rw [gather_place]
  by_cases hx : (⟨i, e⟩ : Σ i, Fin (size i)) = ⟨k, d⟩
  · cases hx
    rw [update_self, hself, update_self]
  · rw [update_of_ne fun h => hx (place.injective h), gather_place]
    by_cases hi : i = k
    · subst hi
      have hne : e ≠ d := by
        rintro rfl
        exact hx rfl
      rw [hself, update_of_ne hne]
    · rw [hother i hi]

/-- A change at thread `k` is not seen where its devices are as before. -/
theorem gather_same [DecidableEq ι] (f : (i : ι) → Main A (size i) → Fin (size i) → α)
    (h : f k s' = f k s) : gather place (fun i => f i (update g.main k s' i)) =
      gather place fun i => f i (update g.main k s i) := by
  congr 1
  funext i
  by_cases hi : i = k
  · subst hi
    rw [update_self, update_self, h]
  · rw [update_of_ne hi, update_of_ne hi]

end Gather

/-- The messages that a thread owes. -/
noncomputable def owedMessages (ths : Threads A size) (place : (Σ i, Fin (size i)) ≃ D) (i : ι)
    (s : Main A (size i)) : Multiset (GraphMessage A D) :=
  (sentPackets (s.owed (ths i))).filterMap (graphMessage ths place)

theorem owedMessages_same (h : SameSend s s') :
    owedMessages ths place k s' = owedMessages ths place k s := by
  unfold owedMessages
  rw [h.owed_eq]

variable [Fintype ι] [DecidableEq ι]

/-- The network as a state of the graph. -/
noncomputable def Network.view (ths : Threads A size) (place : (Σ i, Fin (size i)) ≃ D)
    (g : Network A size) : GraphState A D where
  state := gather place fun i => (g.main i).ctxt.states
  flags := gather place fun i => (g.main i).ctxt.flags
  owed := ∑ i, owedMessages ths place i (g.main i)
  flight := g.flight.filterMap (graphMessage ths place)

/-- What the other threads owe. -/
noncomputable def owedByOthers (ths : Threads A size) (place : (Σ i, Fin (size i)) ≃ D)
    (g : Network A size) (k : ι) : Multiset (GraphMessage A D) :=
  ∑ i ∈ Finset.univ.erase k, owedMessages ths place i (g.main i)

/-- The view with thread `k` in state `s`. -/
noncomputable abbrev viewWith (ths : Threads A size) (place : (Σ i, Fin (size i)) ≃ D)
    (g : Network A size) (k : ι) (s : Main A (size k)) (flight : Multiset (Packet A)) :
    GraphState A D :=
  Network.view ths place ⟨update g.main k s, flight⟩

theorem viewWith_self : viewWith ths place g k (g.main k) g.flight = g.view ths place := by
  unfold viewWith
  rw [update_eq_self]

theorem viewWith_owed : (viewWith ths place g k s flight).owed =
    owedMessages ths place k s + owedByOthers ths place g k := by
  show ∑ i, owedMessages ths place i (update g.main k s i) = _
  rw [← Finset.add_sum_erase _ _ (Finset.mem_univ k), update_self]
  congr 1
  apply Finset.sum_congr rfl
  intro i hi
  rw [update_of_ne (Finset.ne_of_mem_erase hi)]

/-- A change that leaves the devices as they are. -/
theorem viewWith_devices (hstates : s'.ctxt.states = s.ctxt.states)
    (hflags : s'.ctxt.flags = s.ctxt.flags) : viewWith ths place g k s' flight' =
      { viewWith ths place g k s flight with
        owed := owedMessages ths place k s' + owedByOthers ths place g k
        flight := flight'.filterMap (graphMessage ths place) } :=
  GraphState.ext (gather_same (fun _ s => s.ctxt.states) hstates)
    (gather_same (fun _ s => s.ctxt.flags) hflags) viewWith_owed rfl

/-- A change that leaves the devices and what is owed as they are. -/
theorem viewWith_same (hstates : s'.ctxt.states = s.ctxt.states)
    (hflags : s'.ctxt.flags = s.ctxt.flags)
    (howed : owedMessages ths place k s' = owedMessages ths place k s)
    (hflight : flight'.filterMap (graphMessage ths place) =
      flight.filterMap (graphMessage ths place)) :
    viewWith ths place g k s' flight' = viewWith ths place g k s flight := by
  rw [viewWith_devices hstates hflags, howed, hflight, ← viewWith_owed]
  rfl

variable [DecidableEq D]

/-- A change by a handler of `d` that leaves `σ`. -/
theorem Realises.viewWith_settle (h : Realises ths place G) {σ : A.DevState}
    (hstates : s'.ctxt.states = update s.ctxt.states d (readyResult (ths k) d σ).state)
    (hflags : s'.ctxt.flags = update s.ctxt.flags d (readyResult (ths k) d σ).flags) :
    viewWith ths place g k s' flight' =
      { G.settle (viewWith ths place g k s flight) (place ⟨k, d⟩) σ with
        owed := owedMessages ths place k s' + owedByOthers ths place g k
        flight := flight'.filterMap (graphMessage ths place) } := by
  have hstate : gather place (fun i => (update g.main k s' i).ctxt.states) =
      update (gather place fun i => (update g.main k s i).ctxt.states) (place ⟨k, d⟩)
        (G.ready (place ⟨k, d⟩) σ).state := by
    apply gather_update
    · rw [update_self, update_self, hstates, h.ready_eq]
    · intro i hi
      rw [update_of_ne hi, update_of_ne hi]
  have hflag : gather place (fun i => (update g.main k s' i).ctxt.flags) =
      update (gather place fun i => (update g.main k s i).ctxt.flags) (place ⟨k, d⟩)
        (G.ready (place ⟨k, d⟩) σ).flags := by
    apply gather_update
    · rw [update_self, update_self, hflags, h.ready_eq]
    · intro i hi
      rw [update_of_ne hi, update_of_ne hi]
  exact GraphState.ext hstate hflag viewWith_owed rfl

theorem Realises.viewWith_settled (h : Realises ths place G) {σ : A.DevState}
    (hstates : s'.ctxt.states = update s.ctxt.states d (readyResult (ths k) d σ).state)
    (hflags : s'.ctxt.flags = update s.ctxt.flags d (readyResult (ths k) d σ).flags)
    (howed : owedMessages ths place k s' = owedMessages ths place k s) :
    viewWith ths place g k s' flight =
      G.settle (viewWith ths place g k s flight) (place ⟨k, d⟩) σ := by
  rw [h.viewWith_settle hstates hflags, howed, ← viewWith_owed]
  rfl

omit [DecidableEq D] in
theorem viewWith_state_place :
    (viewWith ths place g k s flight).state (place ⟨k, d⟩) = s.ctxt.states d := by
  have hplace : gather place (fun i => (update g.main k s i).ctxt.states) (place ⟨k, d⟩) =
      (update g.main k s k).ctxt.states d := gather_place
  rwa [update_self] at hplace

omit [DecidableEq D] in
theorem viewWith_flags_place :
    (viewWith ths place g k s flight).flags (place ⟨k, d⟩) = s.ctxt.flags d := by
  have hplace : gather place (fun i => (update g.main k s i).ctxt.flags) (place ⟨k, d⟩) =
      (update g.main k s k).ctxt.flags d := gather_place
  rwa [update_self] at hplace

/-! ## Handler calls -/

/-- What a handler was called for; the source of a message is known if it is a pin. -/
inductive Handling (A : AppTypes) (D : Type) where
  | send (d : D) (pinIndex : Nat) (doSend : Bool) (payload : A.Payload)
  | receive (source : Option (D × Nat)) (dest : D × Nat) (payload : A.Payload)
  | compute (d : D)
  | hardwareIdle (d : D)

/-- The device whose handler was called. -/
def Handling.device : Handling A D → D
  | .send d _ _ _ | .receive _ (d, _) _ | .compute d | .hardwareIdle d => d

/-- The call of a step of the graph; a message is forwarded without one. -/
def GraphEvent.handling : GraphEvent A D → Option (Handling A D)
  | .send d pinIndex doSend payload _ => some (.send d pinIndex doSend payload)
  | .forward _ => none
  | .receive m _ => some (.receive (some m.source) m.dest m.payload)
  | .compute d _ => some (.compute d)
  | .hardwareIdle d _ => some (.hardwareIdle d)

/-- The call that thread `k` records; the calls of the init handlers are not those of a step. -/
noncomputable def Event.handling (ths : Threads A size) (place : (Σ i, Fin (size i)) ≃ D) (k : ι) :
    Event A (size k) → Option (Handling A D)
  | .sendReturn d pin doSend payload => some (.send (place ⟨k, d⟩) pin doSend payload)
  | .receiveCall d pin source _ _ payload =>
    some (.receive (locate ths place source) (place ⟨k, d⟩, pin) payload)
  | .enter .compute d _ => some (.compute (place ⟨k, d⟩))
  | .enter .hardwareIdle d _ => some (.hardwareIdle (place ⟨k, d⟩))
  | _ => none

/-- The handler calls that thread `k` has recorded, in order. -/
noncomputable def handlings (ths : Threads A size) (place : (Σ i, Fin (size i)) ≃ D) (k : ι)
    (es : List (Event A (size k))) : List (Handling A D) :=
  es.filterMap (Event.handling ths place k)

omit [Fintype ι] [DecidableEq ι] [DecidableEq D] in
theorem handlings_append {es es' : List (Event A (size k))} :
    handlings ths place k (es ++ es') = handlings ths place k es ++ handlings ths place k es' :=
  List.filterMap_append

omit [Fintype ι] [DecidableEq ι] [DecidableEq D] in
theorem locate_of_graphMessage {x : Packet A} {gm : GraphMessage A D}
    (h : graphMessage ths place x = some gm) :
    locate ths place x.message.source = some gm.source := by
  unfold graphMessage at h
  obtain ⟨source, hsource, h⟩ := Option.bind_eq_some_iff.1 h
  obtain ⟨dest, -, rfl⟩ := Option.map_eq_some_iff.1 h
  exact hsource

/-! ## Following -/

/-- A run of the graph in which the handlers are called as in `es`. -/
abbrev Performed (ths : Threads A size) (place : (Σ i, Fin (size i)) ≃ D) (G : Graph A D) (k : ι)
    (es : List (Event A (size k))) : GraphState A D → GraphState A D → Prop :=
  Performs G.Step GraphEvent.handling (handlings ths place k es)

omit [Fintype ι] [DecidableEq ι] in
theorem performed_step {es : List (Event A (size k))} {e : GraphEvent A D}
    {v v' : GraphState A D} (hstep : G.Step v e v')
    (hcalls : handlings ths place k es = e.handling.toList) : Performed ths place G k es v v' := by
  unfold Performed
  rw [hcalls]
  exact .single hstep

/-- Whatever a change from `s` to `s'` takes out of flight and puts there, the graph follows. -/
def Follows (ths : Threads A size) (place : (Σ i, Fin (size i)) ≃ D) (G : Graph A D)
    (g : Network A size) (k : ι) (s s' : Main A (size k)) : Prop :=
  ∃ es, s'.ctxt.sig = s.ctxt.sig ++ es ∧ ∀ flight flight',
    (∀ x ∈ flight, ∃ j, FromPin (ths j) x) →
    Exchange flight (receivedPackets (ths k) es) (sentPackets es) flight' →
    Performed ths place G k es (viewWith ths place g k s flight)
      (viewWith ths place g k s' flight')

/-- A change that takes nothing out of flight and puts nothing there. -/
def FollowsLocally (ths : Threads A size) (place : (Σ i, Fin (size i)) ≃ D) (G : Graph A D)
    (g : Network A size) (k : ι) (s s' : Main A (size k)) : Prop :=
  ∃ es, s'.ctxt.sig = s.ctxt.sig ++ es ∧ (∀ e ∈ es, e.isLocal = true) ∧ ∀ flight,
    Performed ths place G k es (viewWith ths place g k s flight) (viewWith ths place g k s' flight)

namespace Follows

theorem refl (s : Main A (size k)) : Follows ths place G g k s s := by
  refine ⟨[], (List.append_nil _).symm, fun flight flight' _ hexchange => ?_⟩
  rw [hexchange.eq_of_nothing]
  exact .refl _

/-- First nothing is taken out of flight or put there. -/
theorem after_local {s₁ : Main A (size k)} (h : Follows ths place G g k s₁ s')
    (hlocal : FollowsLocally ths place G g k s s₁) : Follows ths place G g k s s' := by
  obtain ⟨es₁, hsig₁, hes₁, hperforms⟩ := hlocal
  obtain ⟨es, hsig, h⟩ := h
  have hreceived : receivedPackets (ths k) (es₁ ++ es) = receivedPackets (ths k) es := by
    rw [receivedPackets_append,
      receivedPackets_eq_zero fun e he => (Event.isLocal_iff.1 (hes₁ e he)).1, zero_add]
  have hsent : sentPackets (es₁ ++ es) = sentPackets es := by
    rw [sentPackets_append,
      sentPackets_eq_zero fun e he => (Event.isLocal_iff.1 (hes₁ e he)).2, zero_add]
  refine ⟨es₁ ++ es, ?_, fun flight flight' hfrom hexchange => ?_⟩
  · rw [hsig, hsig₁, List.append_assoc]
  · rw [hreceived, hsent] at hexchange
    have hall := (hperforms flight).trans (h flight flight' hfrom hexchange)
    rwa [← handlings_append] at hall

theorem of_local (hlocal : FollowsLocally ths place G g k s s') : Follows ths place G g k s s' :=
  (refl s').after_local hlocal

/-- First nothing happens that the graph knows of. -/
theorem after_undisturbed {s₁ : Main A (size k)} (h : Follows ths place G g k s₁ s')
    (hwait : Undisturbed s.ctxt s₁.ctxt) (hsame : SameSend s s₁) :
    Follows ths place G g k s s' := by
  refine h.after_local ⟨[], by rw [hwait.sig, List.append_nil], by simp, fun flight => ?_⟩
  rw [viewWith_same hwait.states hwait.keeps.flags (owedMessages_same hsame) rfl]
  exact .refl _

theorem set_pc {pc : Pc} (h : Follows ths place G g k s s') :
    Follows ths place G g k s { s' with pc := pc } := by
  obtain ⟨es, hsig, h⟩ := h
  refine ⟨es, hsig, fun flight flight' hfrom hexchange => ?_⟩
  have heq : viewWith ths place g k { s' with pc := pc } flight' =
      viewWith ths place g k s' flight' := viewWith_same rfl rfl rfl rfl
  rw [heq]
  exact h flight flight' hfrom hexchange

end Follows

/-! ## Idling -/

/-- A compute handler runs, or nothing happens. -/
theorem Realises.idle (h : Realises ths place G) {c : PThreadContext A (size k)} {b : Bool}
    {pc : Pc} (hidle : Idled (ths k) (s.ctxt.tick (ths k)) (b, c)) :
    FollowsLocally ths place G g k s { s with ctxt := c, pc := pc } := by
  have hsame : c.states = s.ctxt.states → c.flags = s.ctxt.flags → c.sig = s.ctxt.sig →
      FollowsLocally ths place G g k s { s with ctxt := c, pc := pc } := by
    intro hstates hflags hsig
    refine ⟨[], hsig.trans (List.append_nil _).symm, by simp, fun flight => ?_⟩
    have heq : viewWith ths place g k { s with ctxt := c, pc := pc } flight =
        viewWith ths place g k s flight := viewWith_same hstates hflags rfl rfl
    rw [heq]
    exact .refl _
  rcases hidle with ⟨-, hout⟩ | ⟨-, -, -, hout⟩ | ⟨-, -, j, d, hfinds, -, hhandled⟩
  · cases hout
    exact hsame rfl rfl rfl
  · cases hout
    exact hsame rfl rfl rfl
  · refine ⟨_, hhandled.sig, by simp [Event.isLocal, Event.isReceiving, Event.isMboxSend],
      fun flight => ?_⟩
    have heq : viewWith ths place g k { s with ctxt := c, pc := pc } flight = _ :=
      h.viewWith_settled hhandled.states hhandled.flags rfl
    rw [heq]
    refine performed_step (Graph.Step.compute ?_ ?_) rfl
    · rw [viewWith_flags_place]
      exact hfinds.wants
    · rw [viewWith_state_place, ← h.vtable, ← h.graphProps, ← h.properties]
      rfl

/-- The hardware idle handlers run, of one device after the other. -/
theorem Realises.hardwareIdle (h : Realises ths place G) {c c' : PThreadContext A (size k)}
    {pc : Pc} (hwait : Undisturbed s.ctxt c)
    (hidle : softswitchOnHardwareIdle (ths k) c = .ok c') :
    FollowsLocally ths place G g k s { s with ctxt := c', pc := pc } := by
  have hall : FollowsLocally ths place G g k s { s with ctxt := c' } := by
    refine softswitchOnHardwareIdle_keeps
      (I := fun c₁ => FollowsLocally ths place G g k s { s with ctxt := c₁ }) ?_ ?_ ?_ hidle
    · refine ⟨[], hwait.sig.trans (List.append_nil _).symm, by simp, fun flight => ?_⟩
      have heq : viewWith ths place g k { s with ctxt := clearRts c } flight =
          viewWith ths place g k s flight := viewWith_same hwait.states hwait.keeps.flags rfl rfl
      rw [heq]
      exact .refl _
    · rintro d c₁ c₂ ⟨es, hsig, hes, hc₁⟩ (rfl | ⟨handler, hhandler, hhandled⟩)
      · exact ⟨es, hsig, hes, hc₁⟩
      · refine ⟨es ++ hardwareIdleEvents c₁ d, ?_, ?_, fun flight => ?_⟩
        · rw [hhandled.sig, hsig, List.append_assoc]
        · simpa [or_imp, forall_and, hardwareIdleEvents, Event.isLocal, Event.isReceiving,
            Event.isMboxSend] using hes
        · have heq : viewWith ths place g k { s with ctxt := c₂ } flight =
              G.settle (viewWith ths place g k { s with ctxt := c₁ } flight) (place ⟨k, d⟩) _ :=
            h.viewWith_settled hhandled.states hhandled.flags rfl
          rw [h.vtable] at hhandler
          have hnext : Performed ths place G k (hardwareIdleEvents c₁ d)
              (viewWith ths place g k { s with ctxt := c₁ } flight)
              (viewWith ths place g k { s with ctxt := c₂ } flight) := by
            rw [heq]
            refine performed_step (Graph.Step.hardwareIdle hhandler ?_) rfl
            rw [viewWith_state_place, ← h.graphProps, ← h.properties]
            rfl
          unfold Performed
          rw [handlings_append]
          exact (hc₁ flight).trans hnext
    · rintro c₁ ⟨es, hsig, hes, hc₁⟩
      refine ⟨es, hsig, hes, fun flight => ?_⟩
      have heq : viewWith ths place g k
          { s with ctxt := { c₁ with currentHandlerType := 0 } } flight =
          viewWith ths place g k { s with ctxt := c₁ } flight := viewWith_same rfl rfl rfl rfl
      rw [heq]
      exact hc₁ flight
  obtain ⟨es, hsig, hes, hperforms⟩ := hall
  refine ⟨es, hsig, hes, fun flight => ?_⟩
  have heq : viewWith ths place g k { s with ctxt := c', pc := pc } flight =
      viewWith ths place g k { s with ctxt := c' } flight := viewWith_same rfl rfl rfl rfl
  rw [heq]
  exact hperforms flight

/-! ## Receiving -/

/-- A message that was in flight is received. -/
theorem Realises.receive (h : Realises ths place G) {c c' : PThreadContext A (size k)} {pc : Pc}
    {m : Message A} {j : ι} {target : ReceiveTarget A}
    (hfrom : FromPin (ths j) ⟨(ths k).myId, m⟩) (hwait : Undisturbed s.ctxt c)
    (hd : Accepts (ths k) d m)
    (htarget : receiveTarget (ths k) ((c.emit (.mboxRecv m)).tick (ths k)) d m = .ok target)
    (hhandled : Handled (ths k) (c.emit (.mboxRecv m)) d
      (receiveResult (ths k) (c.emit (.mboxRecv m)) d m target).state ⟨d, 1, m.dest.pin.toNat⟩
      (receiveEvents (c.emit (.mboxRecv m)) d m target) c')
    (hflight : flight = ⟨(ths k).myId, m⟩ ::ₘ flight') :
    Performed ths place G k (receiveEvents (c.emit (.mboxRecv m)) d m target)
      (viewWith ths place g k s flight)
      (viewWith ths place g k { s with ctxt := c', pc := pc } flight') := by
  obtain ⟨⟨source, dest, payload⟩, hgm, rfl, rfl, hpin, hedge⟩ := h.received hfrom hd htarget
  have hview : (viewWith ths place g k s flight).flight =
      ⟨source, (place ⟨k, d⟩, m.dest.pin.toNat), m.payload⟩ ::ₘ
        flight'.filterMap (graphMessage ths place) := by
    show flight.filterMap (graphMessage ths place) = _
    rw [hflight, Multiset.filterMap_cons_some _ _ _ hgm]
  have hstates := hhandled.states
  have hflags := hhandled.flags
  have hcs : (c.emit (.mboxRecv m)).states = s.ctxt.states := hwait.states
  have hcf : (c.emit (.mboxRecv m)).flags = s.ctxt.flags := hwait.keeps.flags
  rw [hcs] at hstates
  rw [hcf] at hflags
  have heq : viewWith ths place g k { s with ctxt := c', pc := pc } flight' =
      { G.settle (viewWith ths place g k s flight) (place ⟨k, d⟩)
          (receiveResult (ths k) (c.emit (.mboxRecv m)) d m target).state with
        owed := owedMessages ths place k s + owedByOthers ths place g k
        flight := flight'.filterMap (graphMessage ths place) } :=
    h.viewWith_settle hstates hflags
  rw [← viewWith_owed] at heq
  rw [heq]
  have hstate : (c.emit (.mboxRecv m)).states d = s.ctxt.states d := congrFun hcs d
  have hr : G.receiveResult (viewWith ths place g k s flight)
      ⟨source, (place ⟨k, d⟩, m.dest.pin.toNat), m.payload⟩ target.pin
      (target.eState.map (c.emit (.mboxRecv m)).edgeState) =
      receiveResult (ths k) (c.emit (.mboxRecv m)) d m target := by
    unfold Graph.receiveResult receiveResult
    rw [viewWith_state_place, hedge, ← h.graphProps, ← h.properties, ← hstate]
    rfl
  have hcall : handlings ths place k (receiveEvents (c.emit (.mboxRecv m)) d m target) =
      [.receive (some source) (place ⟨k, d⟩, m.dest.pin.toNat) m.payload] := by
    rw [← locate_of_graphMessage hgm]
    rfl
  exact performed_step (Graph.Step.receive hview hpin hr) hcall

/-! ## Sending -/

/-- A device that is ready sends. -/
theorem Realises.sent {out : Nat × PThreadContext A (size k) × SendState A} {pinIndex : Nat}
    {pin : OutputPinVTable A} {r : SendResult A.DevState A.Payload} (h : Realises ths place G)
    (hnothing : owedMessages ths place k s = 0) (hqueue : ∃ q, IsQueue s.ctxt q)
    (hsent : SentFrom (ths k) s.ctxt d pinIndex pin r (noSend s.sendBuffer s.isApp) out.1 out.2.1
      out.2.2) :
    Performed ths place G k (sendEvents (ths k) d pinIndex r) (viewWith ths place g k s flight)
      (viewWith ths place g k (s.prepared out) flight) := by
  obtain ⟨hexpects, -, -⟩ := hsent.prepared.expects hsent.pin_eq out hsent.size_eq rfl
  have howed := h.expected hsent.pin_eq hexpects
  have heq : viewWith ths place g k (s.prepared out) flight =
      { G.settle (viewWith ths place g k s flight) (place ⟨k, d⟩) r.state with
        owed := owedMessages ths place k (s.prepared out) + owedByOthers ths place g k
        flight := flight.filterMap (graphMessage ths place) } :=
    h.viewWith_settle hsent.states hsent.flags
  have hbefore : (viewWith ths place g k s flight).owed = owedByOthers ths place g k := by
    rw [viewWith_owed, hnothing, zero_add]
  unfold owedMessages at heq
  rw [howed, ← hbefore, add_comm] at heq
  rw [heq]
  obtain ⟨q, hq⟩ := hqueue
  have hready : wantsSend (s.ctxt.flags d) = true := by
    apply hq.wantsSend_of_mem
    have hhead := hq.rtsHead_eq.symm.trans hsent.head
    exact List.mem_of_mem_head? hhead
  have hpin := hsent.pin_eq
  rw [h.vtable] at hpin
  have hr : G.sendResult (viewWith ths place g k s flight) (place ⟨k, d⟩) pin
      s.sendBuffer.payload = r := by
    rw [hsent.result_eq]
    unfold Graph.sendResult sendResult
    rw [viewWith_state_place, ← h.graphProps, ← h.properties]
    rfl
  refine performed_step (Graph.Step.send ?_ ?_ hpin hr) rfl
  · rw [viewWith_flags_place]
    exact hready
  · rw [viewWith_flags_place]
    exact hsent.pinIndex_eq

/-- A device that is ready sends, or nothing happens. -/
theorem Realises.prepares (h : Realises ths place G) (hinv : FanOutInv (ths k) s)
    (hqueue : ∃ q, IsQueue s.ctxt q) (hprep : Prepares (ths k) s s') :
    FollowsLocally ths place G g k s s' := by
  cases hprep with
  | busy _ => exact ⟨[], (List.append_nil _).symm, by simp, fun _ => .refl _⟩
  | @fresh out htodo hsent =>
    have hnothing : owedMessages ths place k s = 0 := by
      unfold owedMessages
      rw [hinv.nothing_owed htodo]
      rfl
    rcases hsent with ⟨d, pinIndex, pin, r, hsent⟩ | ⟨-, -, hnone, hkeeps, hstates, -, hsig⟩
    · exact ⟨_, hsent.sig, by simp [sendEvents, Event.isLocal, Event.isReceiving, Event.isMboxSend],
        fun _ => h.sent hnothing hqueue hsent⟩
    · obtain ⟨length, c, st⟩ := out
      obtain rfl : st = noSend s.sendBuffer s.isApp := hnone
      have howed : owedMessages ths place k (s.prepared (length, c, noSend s.sendBuffer s.isApp)) =
          owedMessages ths place k s := by
        rw [hnothing]
        unfold owedMessages Main.owed
        split <;> rfl
      refine ⟨_, hsig, by simp [Event.isLocal, Event.isReceiving, Event.isMboxSend],
        fun flight => ?_⟩
      have heq : viewWith ths place g k (s.prepared (length, c, noSend s.sendBuffer s.isApp))
          flight = viewWith ths place g k s flight := viewWith_same hstates hkeeps.flags howed rfl
      rw [heq]
      exact .refl _

/-- The first message that is owed is in flight. -/
theorem Realises.delivers (h : Realises ths place G) (hinv : FanOutInv (ths k) s)
    (hsome : 0 < s.currSendTodo) (hdeliver : Delivers (ths k) s s') :
    Follows ths place G g k s s' := by
  obtain ⟨dest, length, m, hctxt, howed, -, -⟩ :=
    hinv.delivers_owed (h.placed.build k) hsome hdeliver
  have hsig : s'.ctxt.sig = s.ctxt.sig ++ [.mboxSend dest length m] := by
    rw [hctxt, mboxSent_sig]
  refine ⟨_, hsig, fun flight flight' _ hexchange => ?_⟩
  obtain ⟨rest, rfl, rfl⟩ := hexchange
  have hsent : sentPackets [(.mboxSend dest length m : Event A (size k))] = {⟨dest, m⟩} := rfl
  have hreceived : receivedPackets (ths k) [.mboxSend dest length m] = 0 := rfl
  rw [hsent, hreceived, zero_add, add_comm rest, Multiset.singleton_add]
  have hstates : s'.ctxt.states = s.ctxt.states := by
    rw [hctxt]
    rfl
  have hflags : s'.ctxt.flags = s.ctxt.flags := by
    rw [hctxt]
    rfl
  have hcons : sentPackets (s.owed (ths k)) = ⟨dest, m⟩ ::ₘ sentPackets (s'.owed (ths k)) := by
    rw [howed]
    rfl
  cases hgm : graphMessage ths place (⟨dest, m⟩ : Packet A) with
  | none =>
    have hsame : owedMessages ths place k s' = owedMessages ths place k s := by
      unfold owedMessages
      rw [hcons, Multiset.filterMap_cons_none _ _ hgm]
    rw [viewWith_same hstates hflags hsame (Multiset.filterMap_cons_none _ _ hgm)]
    exact .refl _
  | some gm =>
    have hfirst : owedMessages ths place k s = gm ::ₘ owedMessages ths place k s' := by
      unfold owedMessages
      rw [hcons, Multiset.filterMap_cons_some _ _ _ hgm]
    rw [viewWith_devices hstates hflags,
      Multiset.filterMap_cons_some _ _ _ hgm]
    refine performed_step (Graph.Step.forward (m := gm) ?_) rfl
    rw [viewWith_owed, hfirst, Multiset.cons_add]

/-! ## Steps -/

theorem Realises.receives (h : Realises ths place G) {c c' : PThreadContext A (size k)}
    {pc : Pc} {m : Message A} (hwait : Undisturbed s.ctxt c)
    (hrecv : Received (ths k) (c.emit (.mboxRecv m)) m c') :
    Follows ths place G g k s { s with ctxt := c', pc := pc } := by
  have hemit : (c.emit (.mboxRecv m)).sig = s.ctxt.sig ++ [.mboxRecv m] := by
    rw [sig_emit rfl, hwait.sig]
  rcases hrecv with ⟨d, target, hd, htarget, hhandled⟩ | ⟨d, hd, hext, -, -, -, -, hsig⟩
  · refine ⟨.mboxRecv m :: receiveEvents (c.emit (.mboxRecv m)) d m target, ?_, ?_⟩
    · rw [hhandled.sig, hemit, List.append_assoc]
      rfl
    · rintro flight flight' hfrom ⟨rest, hflight, hflight'⟩
      have hrest : flight' = rest := hflight'.trans (add_zero rest)
      have hcons : flight = ⟨(ths k).myId, m⟩ ::ₘ flight' := by
        rw [hflight, hrest]
        exact Multiset.singleton_add _ _
      obtain ⟨j, hj⟩ := hfrom ⟨(ths k).myId, m⟩ (hcons ▸ Multiset.mem_cons_self _ _)
      exact h.receive hj hwait hd htarget hhandled hcons
  · refine ⟨[.mboxRecv m], hsig.trans hemit, ?_⟩
    rintro flight flight' hfrom ⟨rest, hflight, -⟩
    have hmem : (⟨(ths k).myId, m⟩ : Packet A) ∈ flight := by
      rw [hflight]
      exact Multiset.mem_add.2 (.inl (Multiset.mem_singleton_self _))
    obtain ⟨j, hj⟩ := hfrom _ hmem
    obtain ⟨-, -, e, pin, he, hexternal, -⟩ := h.placed.admits hj rfl
    obtain rfl : d = e := Fin.ext (hd.trans he.symm)
    simp [hexternal] at hext

theorem Realises.sends (h : Realises ths place G) (hinv : FanOutInv (ths k) s)
    (hqueue : ∃ q, IsQueue s.ctxt q) (hsend : Sends (ths k) s s') :
    Follows ths place G g k s s' := by
  cases hsend with
  | host _ =>
    have hsig : (hostMessageBufferPopSend (ths k) s.ctxt).sig = s.ctxt.sig ++ _ := sig_emit rfl
    refine .of_local ⟨_, hsig, by simp [Event.isLocal, Event.isReceiving, Event.isMboxSend],
      fun flight => ?_⟩
    have heq : viewWith ths place g k
        { s with ctxt := hostMessageBufferPopSend (ths k) s.ctxt } flight =
        viewWith ths place g k s flight := viewWith_same rfl rfl rfl rfl
    rw [heq]
    exact .refl _
  | nothing hprep _ => exact .of_local (h.prepares hinv hqueue hprep)
  | deliver hprep hsome hdeliver =>
    have hfollows := h.delivers (g := g) (hinv.prepares hprep) hsome hdeliver
    exact hfollows.after_local (h.prepares hinv hqueue hprep)

/-- The graph follows every step of a thread. -/
theorem Realises.stepped (h : Realises ths place G) {i : LoopInput A} (hinv : FanOutInv (ths k) s)
    (hidle : IdleInv s) (hstep : Stepped (ths k) s i s') : Follows ths place G g k s s' := by
  cases hstep with
  | parked _ => exact .refl _
  | idle _ _ hidled => exact .of_local (h.idle hidled)
  | searchOver _ _ _ _ hperf =>
    exact (Follows.refl _).after_undisturbed ((Undisturbed.refl _).tick.trans hperf.undisturbed)
      hperf.sameSend
  | noIdle _ _ => exact (Follows.refl _).after_undisturbed (Undisturbed.refl _).tick .of_update
  | hardwareIdle _ _ hwait hidled => exact .of_local (h.hardwareIdle hwait hidled)
  | receive _ _ hwait hrecv => exact h.receives hwait hrecv
  | @send w c s₁ hpc hwait hsend =>
    have hinv' : FanOutInv (ths k) { s with ctxt := c } :=
      hinv.enters ⟨rfl, rfl, rfl, rfl, rfl⟩ (.of_eq hwait.sig)
    have hthread := (hidle.thread (by simp [hpc])).keep hwait.keeps
    have hsends := h.sends (g := g) hinv' hthread.queue hsend
    exact (hsends.after_undisturbed hwait ⟨rfl, rfl, rfl, rfl, rfl⟩).set_pc

/-! ## The start -/

section Init

variable {n : Nat} {th : PThread A n} {c : PThreadContext A n}

theorem Started.currSendTodo {buf : Message A} {s : Main A n} (h : Started th c buf s) :
    s.currSendTodo = 0 := by
  cases h with
  | parked _ => rfl
  | running _ _ _ => rfl

theorem Started.initialised {buf : Message A} {s : Main A n} (h : Started th c buf s) :
    (∀ d, s.ctxt.states d = (readyResult th d (initState th c d)).state) ∧
      ∀ d, s.ctxt.flags d = (readyResult th d (initState th c d)).flags := by
  cases h with
  | parked hn =>
    subst hn
    exact ⟨fun d => d.elim0, fun d => d.elim0⟩
  | running _ hinit hmain =>
    have hdone := softswitchInit_initialised hinit
    refine ⟨fun d => ?_, fun d => ?_⟩
    · exact (congrFun hmain.states d).trans (hdone.states d d.isLt)
    · exact (congrFun hmain.keeps.flags d).trans (hdone.flags d d.isLt)

end Init

omit [DecidableEq ι] [DecidableEq D] in
/-- Threads that have been started are at the start of the graph. -/
theorem Realises.view_start (h : Realises ths place G) (hstart : ∀ i, (cs i).trace = [])
    {main : (i : ι) → Main A (size i)}
    (hmain : ∀ i, softswitchMain (ths i) (cs i) (buf i) = .ok (main i)) :
    Network.view ths place ⟨main, 0⟩ =
      G.start (gather place fun i d => initState (ths i) (cs i) d) := by
  have hstarted : ∀ i, Started (ths i) (cs i) (buf i) (main i) :=
    fun i => softswitchMain_sat.of_ok (hmain i)
  refine GraphState.ext ?_ ?_ ?_ rfl
  · funext x
    obtain ⟨⟨i, d⟩, rfl⟩ := place.surjective x
    show gather place (fun i => (main i).ctxt.states) _ = (G.ready _ (gather place _ _)).state
    rw [gather_place, gather_place, (hstarted i).initialised.1 d, h.ready_eq]
  · funext x
    obtain ⟨⟨i, d⟩, rfl⟩ := place.surjective x
    show gather place (fun i => (main i).ctxt.flags) _ = (G.ready _ (gather place _ _)).flags
    rw [gather_place, gather_place, (hstarted i).initialised.2 d, h.ready_eq]
  · apply Finset.sum_eq_zero
    intro i _
    have htodo : (main i).currSendTodo = 0 := (hstarted i).currSendTodo
    unfold owedMessages
    rw [((hstarted i).fanOutInv (hstart i)).nothing_owed htodo]
    rfl

omit [DecidableEq ι] [DecidableEq D] in
/-- Where no thread has work and nothing is in flight, the graph is quiescent. -/
theorem Network.view_quiescent (hwork : ∀ i, NoWork (g.main i))
    (hfan : ∀ i, FanOutInv (ths i) (g.main i)) (hflight : g.flight = 0) :
    (g.view ths place).Quiescent := by
  refine ⟨?_, ?_, fun x => ?_⟩
  · apply Finset.sum_eq_zero
    intro i _
    unfold owedMessages
    rw [(hfan i).nothing_owed (hwork i).todo]
    rfl
  · show g.flight.filterMap _ = 0
    rw [hflight]
    rfl
  · obtain ⟨⟨i, d⟩, rfl⟩ := place.surjective x
    show wantsSend (gather place (fun i => (g.main i).ctxt.flags) _) = false
    rw [gather_place, (hwork i).flags d]
    exact wantsSend_zero

/-! ## Runs -/

/-- The graph follows every step of the network, which is one of a thread, and the handlers that
the thread calls are called. -/
theorem Network.Step.refines (h : Realises ths place G)
    (hhost : ∀ i, HostInv (g.main i)) (hfan : ∀ i, FanOutInv (ths i) (g.main i))
    (hfrom : ∀ x ∈ g.flight, ∃ i, FromPin (ths i) x) (hidle : ∀ i, IdleInv (g.main i))
    (hstep : Network.Step ths g g') :
    (∃ k es, (g'.main k).ctxt.sig = (g.main k).ctxt.sig ++ es ∧
      (∀ i, i ≠ k → g'.main i = g.main i) ∧
      Performed ths place G k es (g.view ths place) (g'.view ths place)) ∧
    ∀ i, IdleInv (g'.main i) := by
  obtain ⟨k, input, s, es, flight, hstepped, hsig, hexchange, rfl⟩ := hstep.stepped hhost
  constructor
  · obtain ⟨es', hsig', hfollows⟩ := h.stepped (g := g) (hfan k) (hidle k) hstepped
    obtain rfl : es' = es := List.append_cancel_left (hsig'.symm.trans hsig)
    refine ⟨k, es', ?_, fun i hi => update_of_ne hi _ _, ?_⟩
    · dsimp only
      rwa [update_self]
    · rw [← viewWith_self (k := k)]
      exact hfollows g.flight flight hfrom hexchange
  · intro i
    by_cases hi : i = k
    · subst hi
      simpa using hstepped.idleInv (hidle i)
    · simpa [hi] using hidle i

/-- The device is on thread `i`. -/
def Handling.On (place : (Σ i, Fin (size i)) ≃ D) (i : ι) (x : Handling A D) : Bool :=
  (place.symm x.device).1 = i

omit [Fintype ι] [DecidableEq D] in
/-- A thread calls the handlers of its own devices. -/
theorem handlings_on {es : List (Event A (size k))} {i : ι} {x : Handling A D}
    (hx : x ∈ handlings ths place k es) : x.On place i = decide (i = k) := by
  obtain ⟨e, -, he⟩ := List.mem_filterMap.1 hx
  obtain ⟨d, hd⟩ : ∃ d, x.device = place ⟨k, d⟩ := by
    unfold Event.handling at he
    split at he <;> cases he <;> exact ⟨_, rfl⟩
  unfold Handling.On
  rw [hd, place.symm_apply_apply]
  exact decide_eq_decide.2 eq_comm

/-- The run of the graph calls the handlers of each thread in the order in which the thread does. -/
def SameCalls (ths : Threads A size) (place : (Σ i, Fin (size i)) ≃ D)
    (main : (i : ι) → Main A (size i)) (es : List (GraphEvent A D)) : Prop :=
  ∀ i, (es.filterMap GraphEvent.handling).filter (·.On place i) =
    handlings ths place i (main i).ctxt.sig

omit [Fintype ι] [DecidableEq D] in
theorem SameCalls.step {main main' : (i : ι) → Main A (size i)} {es : List (Event A (size k))}
    {ges ges' : List (GraphEvent A D)} (h : SameCalls ths place main ges)
    (hsig : (main' k).ctxt.sig = (main k).ctxt.sig ++ es) (hother : ∀ i, i ≠ k → main' i = main i)
    (hcalls : ges'.filterMap GraphEvent.handling = handlings ths place k es) :
    SameCalls ths place main' (ges ++ ges') := by
  intro i
  rw [List.filterMap_append, List.filter_append, h i, hcalls]
  by_cases hi : i = k
  · subst hi
    rw [hsig, handlings_append, List.filter_eq_self.2 fun x hx => ?_]
    rw [handlings_on hx]
    exact decide_eq_true rfl
  · rw [hother i hi, List.filter_eq_nil_iff.2 fun x hx => ?_, List.append_nil]
    rw [handlings_on hx]
    simpa using hi

omit [Fintype ι] [DecidableEq ι] [DecidableEq D] in
/-- The init handlers do not count. -/
theorem Started.handlings_eq_nil {c : PThreadContext A (size k)} {buf : Message A}
    (hstart : c.trace = []) (h : Started (ths k) c buf s) :
    handlings ths place k s.ctxt.sig = [] := by
  have hnil : handlings ths place k c.sig = [] := by
    unfold PThreadContext.sig
    rw [hstart]
    rfl
  cases h with
  | parked _ => exact hnil
  | running _ hinit hmain =>
    rw [hmain.sig]
    refine softswitchInit_keeps (I := fun c => handlings ths place k c.sig = []) ?_ ?_ hinit
    · exact hnil
    · intro d c₁ c₂ hc₁ hd
      rw [hd.sig, handlings_append, hc₁]
      rfl

/-- In every state that the threads reach, the graph is in a state that it reaches by the same
calls of handlers. -/
theorem Network.Reachable.refines (h : Realises ths place G) (hstart : ∀ i, (cs i).trace = [])
    (hchecked : ∀ i, (cs i).rtcChecked = 0) (hoffset : ∀ i, (cs i).rtcOffset = 0)
    (hreach : Network.Reachable ths cs buf g) :
    ∃ es, G.HasRun (gather place fun i d => initState (ths i) (cs i) d) es (g.view ths place) ∧
      SameCalls ths place g.main es := by
  classical
  have hall : (∃ es, G.HasRun (gather place fun i d => initState (ths i) (cs i) d) es
      (g.view ths place) ∧ SameCalls ths place g.main es) ∧ ∀ i, IdleInv (g.main i) := by
    induction hreach with
    | @start main hmain =>
      have hstarted : ∀ i, Started (ths i) (cs i) (buf i) (main i) :=
        fun i => softswitchMain_sat.of_ok (hmain i)
      rw [h.view_start hstart hmain]
      exact ⟨⟨[], .nil, fun i => ((hstarted i).handlings_eq_nil (hstart i)).symm⟩,
        fun i => (hstarted i).idleInv (hchecked i) (hoffset i)⟩
    | step hreach hstep ih =>
      have hinv := hreach.networkInv h.placed hstart
      obtain ⟨⟨es, hrun, hcalls⟩, hidle⟩ := ih
      obtain ⟨⟨k, es', hsig, hother, ges, hrun', hcalls'⟩, hidle'⟩ :=
        hstep.refines h hinv.host hinv.fanOut hinv.fromPin hidle
      exact ⟨⟨es ++ ges, hrun.append hrun', hcalls.step hsig hother hcalls'⟩, hidle'⟩
  exact hall.1

/-! ## Deployments -/

/-- Threads that realise a graph whose init handlers leave the devices as they are, before they
are started. -/
structure Deployed (ths : Threads A size) (place : (Σ i, Fin (size i)) ≃ D)
    (cs : (i : ι) → PThreadContext A (size i)) (G : Graph A D) : Prop where
  realises : Realises ths place G
  initHandler : ∀ x gProps props σ, ((G.vtable x).initHandler gProps props σ).state = σ
  trace : ∀ i, (cs i).trace = []
  rtcChecked : ∀ i, (cs i).rtcChecked = 0
  rtcOffset : ∀ i, (cs i).rtcOffset = 0

namespace Deployed

/-- In every state that the threads reach, the graph is in a state that it reaches, by the same
calls of handlers, from the states that its devices have before the start. -/
theorem hasRun_calls (h : Deployed ths place cs G) (hreach : Network.Reachable ths cs buf g) :
    ∃ es, G.HasRun (gather place fun i => (cs i).states) es (g.view ths place) ∧
      SameCalls ths place g.main es := by
  have hinit : (fun i d => initState (ths i) (cs i) d) = fun i => (cs i).states := by
    funext i d
    unfold initState
    rw [h.realises.vtable]
    exact h.initHandler _ _ _ _
  obtain ⟨es, hrun, hcalls⟩ := hreach.refines h.realises h.trace h.rtcChecked h.rtcOffset
  rw [hinit] at hrun
  exact ⟨es, hrun, hcalls⟩

theorem hasRun (h : Deployed ths place cs G) (hreach : Network.Reachable ths cs buf g) :
    ∃ es, G.HasRun (gather place fun i => (cs i).states) es (g.view ths place) := by
  obtain ⟨es, hrun, -⟩ := h.hasRun_calls hreach
  exact ⟨es, hrun⟩

omit [DecidableEq D] in
/-- Where no thread has work and nothing is in flight, the graph is quiescent. -/
theorem quiescent (h : Deployed ths place cs G) (hreach : Network.Reachable ths cs buf g)
    (hwork : ∀ i, NoWork (g.main i)) (hflight : g.flight = 0) :
    (g.view ths place).Quiescent := by
  classical
  exact Network.view_quiescent hwork (hreach.networkInv h.realises.placed h.trace).fanOut hflight

end Deployed

end Softswitch
