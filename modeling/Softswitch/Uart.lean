import Softswitch.Basic

/-!
# The UART

`tinsel_UARTPut` and `tinsel_UARTPutLengthPrefixedBytes` of `softswitch_hostmessaging.cpp`, over
which host messages go that cannot wait for the mailbox.  The loop of `tinsel_UartTryPut` in
`true_tinsel.cpp` is the first one again.
-/

namespace Softswitch

/-- The bytes that the UART has taken, and how often it was asked to take one. -/
structure Uart where
  sent : List (BitVec 8)
  tries : Nat
deriving DecidableEq

/-- `accepts k` says whether the UART takes a byte when it is asked for the `k`-th time. -/
def tinselUartTryPut (accepts : Nat → Bool) (x : BitVec 8) (u : Uart) : Bool × Uart :=
  (accepts u.tries, ⟨if accepts u.tries then u.sent ++ [x] else u.sent, u.tries + 1⟩)

/-- `while(!tinselUartTryPut(x)) { }`, for as many tries as there is fuel. -/
def tinselUARTPut (accepts : Nat → Bool) (x : BitVec 8) : Nat → Uart → Option Uart
  | 0, _ => none
  | fuel + 1, u =>
    let r := tinselUartTryPut accepts x u
    if r.1 then some r.2 else tinselUARTPut accepts x fuel r.2

/-- The bytes are those in memory from the pointer on. -/
def tinselUARTPutLengthPrefixedBytes (accepts : Nat → Bool) (fuel : Nat)
    (bytes : Nat → BitVec 8) (num : BitVec 8) (u : Uart) : Option Uart := do
  let u ← tinselUARTPut accepts num fuel u
  (List.range num.toNat).foldlM (fun u i => tinselUARTPut accepts (bytes i) fuel u) u

/-- What `hostMessageSlowPopSend` and `directHostMessageSlowSend` do with a message; `layout` is how
it lies in memory.  `sizeof(hostMsg)` is converted to an `uint8_t`. -/
def slowSend (accepts : Nat → Bool) (fuel : Nat) (layout : HostMsg → Nat → BitVec 8)
    (sizeofHostMsg : Nat) (u : Uart) (msg : HostMsg) : Option Uart :=
  tinselUARTPutLengthPrefixedBytes accepts fuel (layout msg) (BitVec.ofNat 8 sizeofHostMsg) u

/-- One message after the other. -/
def slowSends (accepts : Nat → Bool) (fuel : Nat) (layout : HostMsg → Nat → BitVec 8)
    (sizeofHostMsg : Nat) (msgs : List HostMsg) (u : Uart) : Option Uart :=
  msgs.foldlM (slowSend accepts fuel layout sizeofHostMsg) u

end Softswitch
