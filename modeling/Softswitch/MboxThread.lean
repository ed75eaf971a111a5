import Softswitch.Lib.Datagrams
import Softswitch.Verify.Mailbox

/-!
# Mailboxes connected by a network

`mbox_thread` of `tinsel_on_unix.cpp` and `tinsel_on_mpi.cpp`, with which the threads of an
application run on a host.  Each of them has a mailbox, and two more threads at it: one pushes into
the mailbox what comes in from the network, the other one pulls what is to be sent.  The sockets,
or MPI, are a parameter.  The log is left out.
-/

namespace Softswitch

open Monitor Datagrams Function

/-- The two programs.  On Unix, `addressLength` is what `snprintf` returns for the path of the
socket of a thread. -/
inductive Carrier where
  | unix (addressLength : BitVec 32 → Int)
  | mpi

/-- `107 <= snprintf(srcAddr.sun_path, 107, addrTemplate, dstThreadId)` -/
def Carrier.tooLong : Carrier → BitVec 32 → Bool
  | .unix addressLength, dstThreadId => decide (107 ≤ addressLength dstThreadId)
  | .mpi, _ => false

/-- What `bind`, `sendto` and `recvfrom` of the sockets come to, or `MPI_Send` and `MPI_Recv`.  An
error is whatever makes the program exit: also no socket, or a length other than that of the message
from `sendto`. -/
abbrev ThreadNet (n : Nat) := Net (Fin n) (BitVec 32) (List (BitVec 8))

/-- A message that has come in, with the thread it comes from. -/
abbrev ThreadDatagram (n : Nat) := Datagram (Fin n) (List (BitVec 8))

variable {P : MboxParams} {n : Nat}

/-! ## The header -/

/-- Byte `k` of a buffer. -/
def byteAt (buffer : MboxBuffer P) (k : Nat) : BitVec 8 :=
  if h : k < P.bytesPerMsg then buffer ⟨k, h⟩ else 0#8

/-- A `uint32_t` of a buffer. -/
def wordAt (buffer : MboxBuffer P) (k : Nat) : BitVec 32 :=
  byteAt buffer (k + 3) ++ byteAt buffer (k + 2) ++ byteAt buffer (k + 1) ++ byteAt buffer k

/-- `sizeof(packet_t)`: the addresses of the destination and of the source, each with its thread
first. -/
def sizeofPacket : Nat := 16

/-- `((packet_t*)buffer)->dest.thread` -/
def destThread (buffer : MboxBuffer P) : BitVec 32 := wordAt buffer 0

/-- `((packet_t*)buffer)->source.thread` -/
def sourceThread (buffer : MboxBuffer P) : BitVec 32 := wordAt buffer 8

/-! ## The threads -/

/-- The threads at a mailbox. -/
inductive Party where
  | cpu
  | incoming
  | outgoing
deriving DecidableEq

/-- Where the loop of the incoming thread is. -/
inductive Incoming where
  | recvfrom
  | netPushMessage (len : Nat)

/-- Where the loop of the outgoing thread is. -/
inductive OutgoingLoop where
  | netPullMessage
  | sendto (dstThreadId : BitVec 32) (byteLength : Nat) (data : List (BitVec 8))

/-- The state of `mbox_thread`: whether its socket is bound, the mailbox, the buffer of the incoming
thread, and the two loops. -/
structure MboxThread (P : MboxParams) where
  bound : Bool
  mbox : Config (TinselMbox P) MboxWait Party
  buffer : MboxBuffer P
  incoming : Incoming
  outgoing : OutgoingLoop

/-- The threads and the network. -/
structure Fabric (P : MboxParams) {n : Nat} (net : ThreadNet n) where
  threads : Fin n → MboxThread P
  state : net.State

/-- Why the program stops: an assertion of a mailbox, `assert(byteLength <= 4*WordsPerMsg)` or
`assert((int)srcThreadId == status.MPI_SOURCE)`, or `exit(1)`: after `socket` or `bind`, after
`recvfrom` or `MPI_Recv`, before `sendto` because of the path, or after `sendto` or `MPI_Send`. -/
inductive FabricFault where
  | mbox (f : MboxFault)
  | byteLength
  | mpiSource
  | bind
  | recvfrom
  | address (dstThreadId : BitVec 32)
  | sendto (dstThreadId : BitVec 32)
deriving DecidableEq

/-- The threads are numbered. -/
def threadId (i : Fin n) : BitVec 32 := BitVec.ofNat 32 i

namespace MboxThread

/-- A message is in the buffer. -/
def received (t : MboxThread P) (data : List (BitVec 8)) : MboxThread P :=
  { t with buffer := copyIn t.buffer data, incoming := .netPushMessage data.length }

/-- `recvfrom` cuts off what does not fit into the buffer; `MPI_Recv` fails then. -/
def receive (carrier : Carrier) (t : MboxThread P) (d : ThreadDatagram n) :
    Except FabricFault (MboxThread P) :=
  match carrier with
  | .unix _ => .ok (t.received (d.data.take P.bytesPerMsg))
  | .mpi =>
    if d.data.length ≤ P.bytesPerMsg then
      if sourceThread (t.received d.data).buffer = threadId d.source then
        .ok (t.received d.data)
      else .error .mpiSource
    else .error .recvfrom

/-- The message is out. -/
def sent (t : MboxThread P) : MboxThread P := { t with outgoing := .netPullMessage }

/-- What becomes of the loops when a thread has made a step at the mailbox. -/
def after (t : MboxThread P) (party : Party) (l : Option (MboxEvent P))
    (mbox : Config (TinselMbox P) MboxWait Party) : MboxThread P :=
  match party, l with
  | .incoming, some (.push _) => { t with mbox := mbox, incoming := .recvfrom }
  | .outgoing, some (.pull dstThreadId byteLength data) =>
    { t with mbox := mbox, outgoing := .sendto dstThreadId byteLength data }
  | _, _ => { t with mbox := mbox }

end MboxThread

/-- What the outgoing thread checks between `netPullMessage` and `sendto`. -/
def checkSendto (P : MboxParams) (carrier : Carrier) (dstThreadId : BitVec 32) (byteLength : Nat) :
    Except FabricFault Unit :=
  if byteLength ≤ P.bytesPerMsg then
    if carrier.tooLong dstThreadId then .error (.address dstThreadId) else .ok ()
  else .error .byteLength

namespace Fabric

variable {net : ThreadNet n}

def setThread (F : Fabric P net) (i : Fin n) (t : MboxThread P) : Fabric P net :=
  { F with threads := update F.threads i t }

/-- The incoming thread of `j` is in `recvfrom`. -/
def Receiving (F : Fabric P net) (j : Fin n) : Prop :=
  (F.threads j).bound = true ∧ (F.threads j).incoming = .recvfrom

/-- Before the sockets are bound.  With MPI there are none. -/
def start (carrier : Carrier) (slots : Fin n → Fin P.msgsPerThread → MboxBuffer P)
    (buffer : Fin n → MboxBuffer P) : Fabric P net where
  threads i :=
    { bound := match carrier with
        | .unix _ => false
        | .mpi => true
      mbox := Monitor.start (.init (threadId i) (slots i))
      buffer := buffer i
      incoming := .recvfrom
      outgoing := .netPullMessage }
  state := net.start

end Fabric

/-! ## Steps -/

/-- The software of a thread keeps to the discipline of its mailbox, and what it sends has a header
that names the thread it is for and its own. -/
def SoftwareCall (id : BitVec 32) (m : TinselMbox P) : MboxCall P → Prop
  | .pull _ | .push _ _ _ _ => False
  | .send address p => Disciplined m (.send address p) ∧ ∀ i, p = some i →
      destThread (m.slots i).buffer = address ∧ sourceThread (m.slots i).buffer = id ∧
      ∀ len, m.sendLength = some len → sizeofPacket ≤ len
  | o => Disciplined m o

/-- What a thread may call. -/
def MboxThread.MayCall (id : BitVec 32) (t : MboxThread P) : Party → MboxCall P → Prop
  | .cpu, o => SoftwareCall id t.mbox.shared o
  | .incoming, o => ∃ len rand, t.incoming = .netPushMessage len ∧
      o = .push (destThread t.buffer) (copyOut t.buffer len) true rand
  | .outgoing, o => t.outgoing = .netPullMessage ∧ o = .pull true

/-- What happens in a step. -/
inductive FabricEvent (P : MboxParams) (n : Nat) where
  | bind (i : Fin n)
  | mbox (i : Fin n) (e : Option (MboxEvent P))
  | recvfrom (i : Fin n) (d : ThreadDatagram n)
  | sendto (i : Fin n) (dstThreadId : BitVec 32) (byteLength : Nat) (data : List (BitVec 8))

namespace Fabric

variable {net : ThreadNet n}

inductive Step (carrier : Carrier) : Fabric P net → FabricEvent P n → Fabric P net → Prop
  | bind {F : Fabric P net} {i : Fin n} {s : net.State} (hbound : (F.threads i).bound = false)
      (hbind : net.bind F.state i (some s)) :
      Step carrier F (.bind i) { F.setThread i { F.threads i with bound := true } with state := s }
  | mbox {F : Fabric P net} {i : Fin n} {party : Party} {l : Option (MboxEvent P)}
      {m : Config (TinselMbox P) MboxWait Party} (hbound : (F.threads i).bound = true)
      (hstep : PartyStep (mboxOperations P) party ((F.threads i).MayCall (threadId i) party)
        (F.threads i).mbox l m) :
      Step carrier F (.mbox i l) (F.setThread i ((F.threads i).after party l m))
  | recvfrom {F : Fabric P net} {i : Fin n} {d : ThreadDatagram n} {s : net.State}
      {t : MboxThread P} (hreceiving : F.Receiving i)
      (hrecvfrom : net.recvfrom F.state i (some (d, s)))
      (hreceive : (F.threads i).receive carrier d = .ok t) :
      Step carrier F (.recvfrom i d) { F.setThread i t with state := s }
  | sendto {F : Fabric P net} {i : Fin n} {dstThreadId : BitVec 32} {byteLength : Nat}
      {data : List (BitVec 8)} {s : net.State}
      (hout : (F.threads i).outgoing = .sendto dstThreadId byteLength data)
      (hcheck : checkSendto P carrier dstThreadId byteLength = .ok ())
      (hsendto : net.sendto F.state F.Receiving i dstThreadId data (some s)) :
      Step carrier F (.sendto i dstThreadId byteLength data)
        { F.setThread i (F.threads i).sent with state := s }

/-- The program can stop at the next step. -/
inductive Stops (carrier : Carrier) (F : Fabric P net) : FabricFault → Prop
  | call {i : Fin n} {party : Party} {o : MboxCall P} {f : MboxFault}
      (hbound : (F.threads i).bound = true) (hi : (F.threads i).mbox.waiting party = none)
      (ho : (F.threads i).MayCall (threadId i) party o)
      (hcall : (F.threads i).mbox.shared.call o = .error f) : Stops carrier F (.mbox f)
  | resume {i : Fin n} {party : Party} {x : Waiter MboxWait} {f : MboxFault}
      (hi : (F.threads i).mbox.waiting party = some x)
      (hready : (F.threads i).mbox.shared.ready x.wait = true)
      (hresume : (F.threads i).mbox.shared.resume x.wait = .error f) : Stops carrier F (.mbox f)
  | bind {i : Fin n} (hbound : (F.threads i).bound = false) (hbind : net.bind F.state i none) :
      Stops carrier F .bind
  | receive {i : Fin n} {d : ThreadDatagram n} {s : net.State} {f : FabricFault}
      (hreceiving : F.Receiving i) (hrecvfrom : net.recvfrom F.state i (some (d, s)))
      (hreceive : (F.threads i).receive carrier d = .error f) : Stops carrier F f
  | recvfrom {i : Fin n} (hreceiving : F.Receiving i) (hrecvfrom : net.recvfrom F.state i none) :
      Stops carrier F .recvfrom
  | check {i : Fin n} {dstThreadId : BitVec 32} {byteLength : Nat} {data : List (BitVec 8)}
      {f : FabricFault} (hout : (F.threads i).outgoing = .sendto dstThreadId byteLength data)
      (hcheck : checkSendto P carrier dstThreadId byteLength = .error f) : Stops carrier F f
  | sendto {i : Fin n} {dstThreadId : BitVec 32} {byteLength : Nat} {data : List (BitVec 8)}
      (hout : (F.threads i).outgoing = .sendto dstThreadId byteLength data)
      (hcheck : checkSendto P carrier dstThreadId byteLength = .ok ())
      (hsendto : net.sendto F.state F.Receiving i dstThreadId data none) :
      Stops carrier F (.sendto dstThreadId)

end Fabric

end Softswitch
