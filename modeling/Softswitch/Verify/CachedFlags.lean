import Softswitch.Verify.Queue

/-!
# The cached flags are what the readiness handlers return

`rtsFlags` caches the answer of the readiness handler, and each event refreshes it for the
device whose state it changes.  Where the readiness handlers do not change the state of
their device, no cached answer is ever stale: this is the law that `validate_rts` checks.
-/

namespace Softswitch

open Outcome Function

variable {A : AppTypes} {n : Nat} {th : PThread A n} {c₀ c c' : PThreadContext A n}

/-- The readiness handlers only look at the state of their device. -/
def PThread.PureReadiness (th : PThread A n) : Prop := ∀ d s, (readyResult th d s).state = s

/-- The flags of every device are the answer of its readiness handler. -/
def FreshFlags (th : PThread A n) (c : PThreadContext A n) : Prop :=
  ∀ d, c.flags d = (readyResult th d (c.states d)).flags

/-- The flags of one device are recomputed from the state that its readiness handler is
given. -/
theorem Happened.freshFlags {e : ThreadEvent A} (hpure : th.PureReadiness)
    (h : Happened th c c' e) (hc : FreshFlags th c) : FreshFlags th c' := by
  refine h.keeps (I := fun states flags => ∀ d, flags d = (readyResult th d (states d)).flags)
    (fun states flags d s hfresh e => ?_) hc
  by_cases he : e = d
  · subst he
    rw [update_self, update_self, hpure e s]
  · rw [update_of_ne he, update_of_ne he]
    exact hfresh e

theorem softswitchInit_freshFlags (hpure : th.PureReadiness) (hok : softswitchInit th c = .ok c') :
    FreshFlags th c' := by
  have h := softswitchInit_initialised hok
  intro d
  rw [h.flags d d.isLt, h.states d d.isLt, hpure d]

/-! ## Runs -/

/-- After `softswitch_init` and any events, in any order, the cached flags of every device are
what its readiness handler returns: the law that `validate_rts` checks. -/
theorem cachedFlags_fresh {events : List (ThreadEvent A)} (hpure : th.PureReadiness)
    (hrun : threadRun th c₀ events = .ok c) :
    ∀ d, (c.devices d).rtsFlags = (readyResult th d (c.devices d).state).flags := by
  have hfresh : FreshFlags th c := by
    refine threadRun_keeps (fun s hs => ?_) (fun s e s' hs h => ?_) hrun
    · exact softswitchInit_freshFlags hpure hs
    · exact h.freshFlags hpure hs
  exact hfresh

/-- A message to device 1, a send, an idle and a hardware idle. -/
def flagsEvents : List (ThreadEvent flagsApp) :=
  [.receive (flagsMessage 1#16 0x80000001#32), .send (flagsMessage 0#16 0#32) false, .idle,
    .hardwareIdle]

theorem flagsThread_pureReadiness (build : Build) : (flagsThread build).PureReadiness :=
  fun _ _ => rfl

/-- The context after these events. -/
def flagsEventsContext : PThreadContext flagsApp 2 :=
  lastContext (threadRun (flagsThread (defaultBuild false)) (flagsContext 1#32 1#32) flagsEvents)

theorem cachedFlags_fresh_flagsEvents : (flagsEventsContext.devices 1).rtsFlags =
    (readyResult (flagsThread (defaultBuild false)) 1 (flagsEventsContext.devices 1).state).flags :=
  have hrun : threadRun (flagsThread (defaultBuild false)) (flagsContext 1#32 1#32) flagsEvents =
      .ok flagsEventsContext := rfl
  cachedFlags_fresh (flagsThread_pureReadiness _) hrun 1

end Softswitch
