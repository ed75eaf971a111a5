import Mathlib.Data.Fintype.Option
import Softswitch.Verify.BarrierThreads
import Softswitch.Verify.SoundRuns

/-!
# The applications on threads with mailboxes

However the devices of an application are placed on threads, whatever the sizes of the mailboxes and
in whatever order the threads run and the network delivers: the barrier and the edge property
application come to rest, with all of their work done (`Barrier.Deploys.finishes`,
`EdgeProps.gathers_all`), and the token of the ring travels on for ever (`Ring.travels`).
-/

namespace Softswitch

open Function

/-! ## Other builds -/

section Rebuild

variable {A : AppTypes} {n : Nat} {ι D : Type} {size : ι → Nat} {ths : Threads A size}
  {place : (Σ i, Fin (size i)) ≃ D} {G : Graph A D} {b : Build}

/-- The thread, built otherwise. -/
def PThread.rebuild (th : PThread A n) (b : Build) : PThread A n :=
  { th with build := b, devices_fit := th.devices_fit }

/-- What a graph is realised by does not depend on the build. -/
theorem Realises.rebuild (h : Realises ths place G) (hb : b.enableIntraThreadSend = false) :
    Realises (fun i => (ths i).rebuild b) place G where
  placed :=
    { build := fun _ => hb
      fits := fun i => ⟨(h.placed.fits i).index, (h.placed.fits i).devices, (h.placed.fits i).pins⟩
      threadId := h.placed.threadId
      myId_inj := h.placed.myId_inj
      host := h.placed.host
      target := h.placed.target }
  graphProps := h.graphProps
  vtable := h.vtable
  properties := h.properties
  targets := h.targets
  noData := h.noData
  edges := h.edges

end Rebuild

/-! ## The barrier -/

namespace Barrier

section Threads

variable {P : Platform} {N : Nat} {maxTime : BitVec 32} {ι : Type} {size : ι → Nat} [Fintype ι]
  [DecidableEq ι] {ths : Threads app size} {place : (Σ i, Fin (size i)) ≃ Device N}
  {cs : (i : ι) → PThreadContext app (size i)} {buf : ι → Message app} {slots : ι → Nat}
  {g : Interconnect app size}

namespace Deploys

/-- When nothing is left to do, all devices are done. -/
theorem complete_at_rest (h : Deploys ths place cs P maxTime)
    (hreach : Interconnect.Reachable ths slots cs buf g) (hrest : ¬g.Active) {i : ι}
    {d : Fin (size i)} :
    (∀ a, place ⟨i, d⟩ = .dev a → ((g.main i).ctxt.states d).t = maxTime ∧
      ((g.main i).ctxt.states d).halted = true) ∧
    (place ⟨i, d⟩ = .halt → ((g.main i).ctxt.states d).seen = BitVec.ofNat 32 N) := by
  obtain ⟨es, hrun, -⟩ := hreach.hasRun h.deployed
  have hquiescent : (g.view ths place).Quiescent :=
    hreach.quiescent h.realises.placed h.trace hrest
  obtain ⟨hdev, hhalt⟩ := (run_inv h.count h.initial hrun).complete h.count hquiescent
  constructor
  · intro a hplace
    have ha := hdev a
    have hview : dev (g.view ths place) a = ((g.main i).ctxt.states d).toDevState :=
      dev_view hplace
    rwa [hview] at ha
  · intro hplace
    rw [← hhalt]
    show _ = (gather place (fun i => (g.main i).ctxt.states) .halt).seen
    rw [← hplace, gather_place]

/-- The barrier on threads with mailboxes: the threads can go on as long as something is left to do,
but not for ever; and when nothing is left to do, every device is halted at `maxTime`, and the halt
device has counted them all. -/
theorem finishes (h : Deploys ths place cs P maxTime) (hw : Wired ths slots)
    (hth : ∀ i, Complete (ths i)) (hprofile : ∀ i, (ths i).build.enableProfile = none) :
    (∀ g, Interconnect.Reachable ths slots cs buf g → g.Active → ∃ g', g.SoundStep ths slots g') ∧
    (∀ run : Nat → Interconnect app size, Interconnect.Reachable ths slots cs buf (run 0) →
      (∀ k, (run k).SoundStep ths slots (run (k + 1))) → ∃ k, ¬(run k).Active) ∧
    ∀ g, Interconnect.Reachable ths slots cs buf g → ¬g.Active → ∀ i d,
      (∀ a, place ⟨i, d⟩ = .dev a → ((g.main i).ctxt.states d).t = maxTime ∧
        ((g.main i).ctxt.states d).halted = true) ∧
      (place ⟨i, d⟩ = .halt → ((g.main i).ctxt.states d).seen = BitVec.ofNat 32 N) := by
  have hbound : ∀ es v, (graph P N maxTime).HasRun (gather place fun i => (cs i).states) es v →
      es.length ≤ N * (maxTime.toNat * (2 * N + 1) + 3) := fun es v hrun =>
    (Nat.le_add_right _ _).trans (length_add_left h.count h.initial hrun).le
  refine ⟨fun g hreach => hreach.exists_soundStep hw (h.deployed.installed hth), ?_,
    fun g hreach hrest i d => h.complete_at_rest hreach hrest⟩
  intro run hstart hrun
  exact Interconnect.exists_not_active hth h.deployed hprofile hbound hstart hrun

end Deploys

end Threads

section OnePerThread

variable {N : Nat} {maxTime : BitVec 32} {x : Device N}

/-- One device a thread, without logs and without assertions. -/
def oneThreads (N : Nat) (maxTime : BitVec 32) (x : Device N) : PThread app 1 :=
  (oneThread quiet N maxTime x).rebuild (defaultBuild false)

theorem oneThreads_deploys (hN : N + 1 < 2 ^ 32) :
    Deploys (oneThreads N maxTime) (onePlace N) (oneContext N) quiet maxTime where
  count := by omega
  realises := (oneRealises hN).rebuild rfl
  initial := initialState_initial
  trace _ := rfl
  rtcChecked _ := rfl
  rtcOffset _ := rfl

theorem oneThreads_wired (hN : N + 1 < 2 ^ 32) : Wired (oneThreads N maxTime) fun _ => 1 where
  asserts _ := rfl
  slots_pos _ := Nat.one_pos
  myId_inj _ _ h := ofNat_threadOf_inj hN h
  host := (oneThreads_deploys hN).realises.placed.host
  target x d targets htargets addr haddr := by
    obtain ⟨y, rfl⟩ := mem_outputTargets htargets haddr
    exact ⟨y, rfl, Nat.one_pos⟩

theorem oneThreads_complete (x : Device N) : Complete (oneThreads N maxTime x) where
  index d := by
    rw [Subsingleton.elim d 0]
    rfl
  asks d σ k hk hbit := by
    cases x with
    | dev i =>
      have hflags : (devReadyToSendHandler ⟨maxTime, BitVec.ofNat 32 N⟩ σ.toDevState).getLsbD k =
          true := hbit
      have htwo : ∀ k < 31, (1#32).getLsbD k = true ∨ (2#32).getLsbD k = true → k < 2 := by decide
      rcases devReadyToSendHandler_cases ⟨maxTime, BitVec.ofNat 32 N⟩ σ.toDevState with
        ⟨-, -, h⟩ | ⟨-, -, h⟩ | ⟨-, -, h⟩
      · rw [h] at hflags
        exact htwo k hk (.inl hflags)
      · rw [h] at hflags
        exact htwo k hk (.inr hflags)
      · rw [h, BitVec.getLsbD_zero] at hflags
        cases hflags
    | halt =>
      have hflags : (0#32).getLsbD k = true := hbit
      rw [BitVec.getLsbD_zero] at hflags
      cases hflags
  targets d k pin hpin _ := by
    cases x with
    | dev i => exact (List.getElem?_eq_some_iff.1 hpin).1
    | halt => cases hpin
  logging h := by cases h

instance : Fintype (Device N) :=
  .ofSurjective (fun o : Option (Fin N) => o.elim .halt .dev) fun x => by
    cases x with
    | dev i => exact ⟨some i, rfl⟩
    | halt => exact ⟨none, rfl⟩

/-- The send buffers before the start. -/
def oneBuffer (x : Device N) : Message app := ⟨inputAddress x, inputAddress x, 0#16, 0#32⟩

/-- The states of a barrier of two devices and the halt device, with one tick to make. -/
abbrev OneReachable : Interconnect app (fun _ : Device 2 => 1) → Prop :=
  Interconnect.Reachable (oneThreads 2 1#32) (fun _ => 1) (oneContext 2) oneBuffer

/-- They come to rest, with their work done. -/
theorem finishes_one : ∃ g, OneReachable g ∧ ¬g.Active ∧
    (∀ a, ((g.main (.dev a)).ctxt.states 0).t = 1#32 ∧
      ((g.main (.dev a)).ctxt.states 0).halted = true) ∧
    ((g.main .halt).ctxt.states 0).seen = 2#32 := by
  have hmain : ∀ x : Device 2, ∃ s, softswitchMain (oneThreads 2 1#32 x) (oneContext 2 x)
      (oneBuffer x) = .ok s := by
    rintro (i | _)
    · revert i
      exact Fin.forall_fin_two.2 ⟨⟨_, rfl⟩, ⟨_, rfl⟩⟩
    · exact ⟨_, rfl⟩
  choose main hmain using hmain
  have hN : 2 + 1 < 2 ^ 32 := by decide
  obtain ⟨hgo, hends, hdone⟩ : (∀ g, OneReachable g → g.Active →
      ∃ g', g.SoundStep (oneThreads 2 1#32) (fun _ => 1) g') ∧ _ ∧ _ :=
    (oneThreads_deploys hN).finishes (oneThreads_wired hN) oneThreads_complete fun _ => rfl
  have hstart : OneReachable ⟨main, fun _ => 0, fun _ => none⟩ := .start hmain
  obtain ⟨g, hreach, hrest⟩ :=
    Runs.exists_rest hstart (fun _ _ hreach hstep => hstep.reachable hreach) hgo hends
  exact ⟨g, hreach, hrest, fun a => (hdone g hreach hrest (.dev a) 0).1 a rfl,
    (hdone g hreach hrest .halt 0).2 rfl⟩

end OnePerThread

end Barrier

/-! ## The edge property application -/

namespace EdgeProps

variable {P : Barrier.Platform} {n : Nat} {S : Sources n} {ι : Type} {size : ι → Nat} [Fintype ι]
  [DecidableEq ι] {ths : Threads app size} {place : (Σ i, Fin (size i)) ≃ Device n}
  {cs : (i : ι) → PThreadContext app (size i)} {buf : ι → Message app} {slots : ι → Nat}
  {g : Interconnect app size}

/-- When nothing is left to do, the inner device has the bits of all outer devices. -/
theorem complete_at_rest (h : Deployed ths place cs (graph P n S.edges))
    (hinit : Initial (gather place fun i => (cs i).states)) (hn : n ≤ 31)
    (hreach : Interconnect.Reachable ths slots cs buf g) (hrest : ¬g.Active) {i : ι}
    {d : Fin (size i)} (hplace : place ⟨i, d⟩ = .inner) :
    allReceived ⟨BitVec.ofNat 32 n⟩ ((g.main i).ctxt.states d).acc = true := by
  obtain ⟨es, hrun, -⟩ := hreach.hasRun h
  have hinv : Inv es (g.view ths place) := run_inv hinit hrun
  have hquiescent : (g.view ths place).Quiescent :=
    hreach.quiescent h.realises.placed h.trace hrest
  have hview : inner (g.view ths place) = ((g.main i).ctxt.states d).toInnerState := by
    show (gather place (fun i => (g.main i).ctxt.states) .inner).toInnerState = _
    rw [← hplace, gather_place]
  have hacc := hinv.acc
  rw [hview] at hacc
  rw [hacc, allReceived_union hn]
  exact hinv.ticked_of_quiescent hquiescent

/-- The edge property application on threads with mailboxes: the threads can go on as long as
something is left to do, but not for ever; and when nothing is left to do, the inner device has
gathered the bits of all outer devices. -/
theorem gathers_all (h : Deployed ths place cs (graph P n S.edges))
    (hinit : Initial (gather place fun i => (cs i).states)) (hn : n ≤ 31) (hw : Wired ths slots)
    (hth : ∀ i, Complete (ths i)) (hprofile : ∀ i, (ths i).build.enableProfile = none) :
    (∀ g, Interconnect.Reachable ths slots cs buf g → g.Active → ∃ g', g.SoundStep ths slots g') ∧
    (∀ run : Nat → Interconnect app size, Interconnect.Reachable ths slots cs buf (run 0) →
      (∀ k, (run k).SoundStep ths slots (run (k + 1))) → ∃ k, ¬(run k).Active) ∧
    ∀ g, Interconnect.Reachable ths slots cs buf g → ¬g.Active → ∀ i d, place ⟨i, d⟩ = .inner →
      allReceived ⟨BitVec.ofNat 32 n⟩ ((g.main i).ctxt.states d).acc = true := by
  have hbound : ∀ es v, (graph P n S.edges).HasRun (gather place fun i => (cs i).states) es v →
      es.length ≤ 3 * n := fun es v hrun =>
    (Nat.le_add_right _ _).trans (length_add_left hinit hrun).le
  refine ⟨fun g hreach => hreach.exists_soundStep hw (h.installed hth), ?_,
    fun g hreach hrest i d => complete_at_rest h hinit hn hreach hrest⟩
  intro run hstart hrun
  exact Interconnect.exists_not_active hth h hprofile hbound hstart hrun

/-- The shipped instance comes to rest, and its inner device has then gathered all bits. -/
theorem gathers_all_dev4 : ∃ g, EdgeReachable g ∧ ¬g.Active ∧
    allReceived ⟨3#32⟩ ((g.main ()).ctxt.states 3).acc = true := by
  obtain ⟨main, hmain⟩ := edgeThreads_start
  obtain ⟨hgo, hends, hdone⟩ : (∀ g, EdgeReachable g → g.Active →
      ∃ g', g.SoundStep edgeThreads (fun _ => 1) g') ∧ _ ∧ _ :=
    gathers_all (dev4Deployed rfl) dev4Initial (by decide) edgeThreads_wired dev4Complete
      fun _ => rfl
  have hstart : EdgeReachable ⟨main, fun _ => 0, fun _ => none⟩ := .start hmain
  obtain ⟨g, hreach, hrest⟩ :=
    Runs.exists_rest hstart (fun _ _ hreach hstep => hstep.reachable hreach) hgo hends
  exact ⟨g, hreach, hrest, hdone g hreach hrest () 3 rfl⟩

end EdgeProps

/-! ## The ring -/

namespace Ring

variable {P : Barrier.Platform} {N : Nat} {increment c₀ : BitVec 32} {ι : Type} {size : ι → Nat}
  [Fintype ι] [DecidableEq ι] {ths : Threads app size} {place : (Σ i, Fin (size i)) ≃ Fin N}
  {cs : (i : ι) → PThreadContext app (size i)} {buf : ι → Message app} {slots : ι → Nat}
  {g : Interconnect app size}

/-- There is always something left to do for the token. -/
theorem active_of_reachable (h : Deployed ths place cs (graph P N increment))
    (hinit : Initial c₀ (gather place fun i => (cs i).states))
    (hcount : ∀ k, tokenCount increment c₀ k ≠ 0#32)
    (hreach : Interconnect.Reachable ths slots cs buf g) : g.Active := by
  by_contra hrest
  obtain ⟨es, hrun, -⟩ := hreach.hasRun h
  exact (run_inv hinit hrun).not_quiescent (hcount _)
    (hreach.quiescent h.realises.placed h.trace hrest)

/-- The ring on threads with mailboxes, if no multiple of the increment takes the count to 0: there
is exactly one token, the threads can always go on, and as they do, the token makes any number of
hops. -/
theorem travels (h : Deployed ths place cs (graph P N increment))
    (hinit : Initial c₀ (gather place fun i => (cs i).states))
    (hcount : ∀ k, tokenCount increment c₀ k ≠ 0#32) (hw : Wired ths slots)
    (hth : ∀ i, Complete (ths i)) (hprofile : ∀ i, (ths i).build.enableProfile = none) :
    (∀ g, Interconnect.Reachable ths slots cs buf g →
      holding (g.view ths place) + (g.view ths place).pending.card = 1 ∧
      ∃ g', g.SoundStep ths slots g') ∧
    ∀ run : Nat → Interconnect app size, Interconnect.Reachable ths slots cs buf (run 0) →
      (∀ k, (run k).SoundStep ths slots (run (k + 1))) → ∀ m, ∃ k es,
        Interconnect.IsHistory ths place cs (graph P N increment) (run k) es ∧ m ≤ hops es := by
  have hactive : ∀ g, Interconnect.Reachable ths slots cs buf g → g.Active :=
    fun g hreach => active_of_reachable h hinit hcount hreach
  refine ⟨fun g hreach => ?_, fun run hstart hrun m => ?_⟩
  · obtain ⟨es, hes, -⟩ := hreach.hasRun h
    exact ⟨(run_inv hinit hes).one (hcount _),
      hreach.exists_soundStep hw (h.installed hth) (hactive g hreach)⟩
  · obtain ⟨k, es, hhistory, hlength⟩ :=
      Interconnect.exists_history_ge hth h hprofile hstart hrun
        (fun k => hactive _ (Interconnect.reachable_of_soundSteps hstart hrun k)) (3 * m + 2)
    have hle := length_le hinit hcount hhistory.1
    exact ⟨k, es, hhistory, by omega⟩

/-- The shipped ring of two devices can go on after the start. -/
theorem travels_dev2 : ∃ g : Interconnect app fun _ : Fin 2 => 1,
    Interconnect.Reachable ringThreads (fun _ => 1) dev2Threads2Context dev2Buffer g ∧
    holding (g.view ringThreads dev2Place) + (g.view ringThreads dev2Place).pending.card = 1 ∧
    ∃ g', g.SoundStep ringThreads (fun _ => 1) g' := by
  obtain ⟨main, hmain, -, -⟩ := ringThreads_start
  have hstart : Interconnect.Reachable ringThreads (fun _ => 1) dev2Threads2Context dev2Buffer
      ⟨main, fun _ => 0, fun _ => none⟩ := .start hmain
  exact ⟨_, hstart, (travels (dev2Deployed rfl) dev2Initial (fun _ => odd_ne_zero)
    ringThreads_wired dev2Complete fun _ => rfl).1 _ hstart⟩

end Ring

end Softswitch
