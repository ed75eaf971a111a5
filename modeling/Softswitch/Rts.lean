import Softswitch.HostMessaging

/-!
# The ready-to-send list

`softswitch_rts.cpp`.  The walks along the list take at most `n` steps: a walk that is
still on a device after `n` of them has met a device twice and goes round for ever.
-/

namespace Softswitch

variable {A : AppTypes} {n : Nat}

/-- `(flags & 0x7FFFFFFF) != 0`: an output pin wants to send. -/
def wantsSend (flags : BitVec 32) : Bool := flags &&& 0x7FFFFFFF#32 != 0

/-- `flags & 0x80000000`: the device wants to compute. -/
def wantsCompute (flags : BitVec 32) : Bool := flags &&& 0x80000000#32 != 0

/-! ## Walks -/

def rtsIsOnListFrom (c : PThreadContext A n) (d : Fin n) :
    Nat → Option (Fin n) → Outcome A n Bool
  | _, none => .ok false
  | 0, some _ => c.fail .diverges
  | fuel + 1, some curr =>
    if curr = d then .ok true else rtsIsOnListFrom c d fuel (c.devices curr).next

def rtsIsOnList (c : PThreadContext A n) (d : Fin n) : Outcome A n Bool :=
  rtsIsOnListFrom c d n c.rtsHead

/-- The two assertions that the neighbours of `curr` point back at it. -/
def rtsSanityLinks (th : PThread A n) (c : PThreadContext A n) (curr : Fin n) :
    Outcome A n Unit := do
  if (c.devices curr).prev.isNone && c.rtsHead == some curr then pure () else
    let p ← c.deref .nullDeref (c.devices curr).prev
    th.check c .rtsSanity ((c.devices p).next == some curr)
  if (c.devices curr).next.isNone && c.rtsTail == some curr then pure () else
    let s ← c.deref .nullDeref (c.devices curr).next
    th.check c .rtsSanity ((c.devices s).prev == some curr)

def rtsSanityFrom (th : PThread A n) (c : PThreadContext A n) :
    Nat → Option (Fin n) → Outcome A n Unit
  | _, none => .ok ()
  | 0, some _ => c.fail .diverges
  | fuel + 1, some curr => do
    th.check c .rtsSanity (wantsSend (c.devices curr).rtsFlags)
    rtsSanityLinks th c curr
    rtsSanityFrom th c fuel (c.devices curr).next

/-- Compiled out with the assertions. -/
def rtsSanity (th : PThread A n) (c : PThreadContext A n) : Outcome A n Unit :=
  if th.build.asserts then
    if c.rtsHead.isSome then do
      th.check c .rtsSanity c.rtsTail.isSome
      rtsSanityFrom th c n c.rtsHead
    else th.check c .rtsSanity c.rtsHead.isNone
  else .ok ()

/-! ## The list operations -/

/-- The pointer writes of `rts_append`. -/
def rtsAppendLinks (c : PThreadContext A n) (d : Fin n) : PThreadContext A n :=
  let c := c.setPrev d c.rtsTail
  let c := c.setNext d none
  let c := match c.rtsTail with
    | none => { c with rtsHead := some d }
    | some t => c.setNext t (some d)
  { c with rtsTail := some d }

def rtsAppend (th : PThread A n) (c : PThreadContext A n) (d : Fin n) :
    Outcome A n (PThreadContext A n) := do
  rtsSanity th c
  th.checkM c .rtsAppendOnList (rtsIsOnList c d >>= fun b => .ok !b)
  let c := rtsAppendLinks c d
  rtsSanity th c
  return c

/-- The pointer writes of `rts_remove` at the head side. -/
def rtsRemoveNext (c : PThreadContext A n) (d : Fin n) : Outcome A n (PThreadContext A n) :=
  if c.rtsHead = some d then .ok { c with rtsHead := (c.devices d).next }
  else do
    let p ← c.deref .nullDeref (c.devices d).prev
    return c.setNext p (c.devices d).next

/-- The pointer writes of `rts_remove` at the tail side. -/
def rtsRemovePrev (c : PThreadContext A n) (d : Fin n) : Outcome A n (PThreadContext A n) :=
  if c.rtsTail = some d then .ok { c with rtsTail := (c.devices d).prev }
  else do
    let s ← c.deref .nullDeref (c.devices d).next
    return c.setPrev s (c.devices d).prev

def rtsRemove (th : PThread A n) (c : PThreadContext A n) (d : Fin n) :
    Outcome A n (PThreadContext A n) := do
  rtsSanity th c
  th.checkM c .rtsRemoveOnList (rtsIsOnList c d)
  th.check c .rtsRemoveHead c.rtsHead.isSome
  let c ← rtsRemoveNext c d
  let c ← rtsRemovePrev c d
  rtsSanity th c
  return c

/-- The pointer writes of `rts_pop`. -/
def rtsPopLinks (c : PThreadContext A n) (head : Fin n) : PThreadContext A n :=
  let next := (c.devices head).next
  let c := match next with
    | none => { c with rtsTail := none }
    | some s => c.setPrev s none
  { c with rtsHead := next }

def rtsPop (th : PThread A n) (c : PThreadContext A n) :
    Outcome A n (Option (Fin n) × PThreadContext A n) := do
  rtsSanity th c
  match c.rtsHead with
  | none =>
    rtsSanity th c
    return (none, c)
  | some head =>
    th.check c .rtsPopPrev (c.devices head).prev.isNone
    let c := rtsPopLinks c head
    rtsSanity th c
    return (some head, c)

/-! ## Readiness -/

/-- Call the `readyToSendHandler` of `d`. -/
def callReadyToSend (th : PThread A n) (c : PThreadContext A n) (d : Fin n) :
    Outcome A n (BitVec 32 × PThreadContext A n) := do
  let r := (th.device d).vtable.readyToSendHandler th.graphProps (th.device d).properties
    (c.devices d).state
  let c ← runCalls th (c.setState d r.state) r.calls
  return (r.flags, c)

/-- Store the new flags of `d`, and link it in or take it out. -/
def rtsStoreFlags (th : PThread A n) (c : PThreadContext A n) (d : Fin n)
    (flags : BitVec 32) : Outcome A n (PThreadContext A n) := do
  let c := if wantsCompute flags then { c with rtcChecked := 0 } else c
  let anyReadyPrev := wantsSend (c.devices d).rtsFlags
  let anyReadyNow := wantsSend flags
  th.checkM c .updateRTSOnList (rtsIsOnList c d >>= fun b => .ok (anyReadyPrev == b))
  let c := c.setRtsFlags d flags
  if anyReadyPrev = anyReadyNow then return c
  else if anyReadyNow then rtsAppend th c d
  else rtsRemove th c d

def softswitchUpdateRTS (th : PThread A n) (c : PThreadContext A n) (d : Fin n) :
    Outcome A n (PThreadContext A n) := do
  rtsSanity th c
  let (flags, c) ← callReadyToSend th c d
  rtsStoreFlags th c d flags

def softswitchPopRTS (th : PThread A n) (c : PThreadContext A n) :
    Outcome A n (Option (Fin n) × PThreadContext A n) :=
  rtsPop th c

def softswitchIsRTSReady (c : PThreadContext A n) : Bool :=
  c.rtsHead.isSome

end Softswitch
