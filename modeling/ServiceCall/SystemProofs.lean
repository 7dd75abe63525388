import Mathlib.Data.List.AList
import ServiceCall.HeapProofs
import ServiceCall.MessageProofs
import ServiceCall.ThreadProofs

/-! # The process, the kernel and the operations between them

    What the code of the library does is made of operations: on the heap of the
    process, on its handles and the ports of the kernel, on the shared list of
    client ids, on the memory of its caller.  This file has the state these
    operations act on and what each of them does to it.

    Everything the system decides is a `Choice`: whether a system call succeeds,
    which handle value or address is new, what fresh memory contains, what the
    service routine does next.  An operation to which no choice fits cannot be
    taken: it waits, or it ends the process.

    The fields `sent`, `closed`, `closes`, `lastPort`, `phase`, `services`,
    `inFlight`, `marked` and `history` only record what happened. -/

namespace ScSystem

open LinearMemory OwnedHeap OpProg ThreadSys ScParameter LpcMessage

abbrev HANDLE := Nat
abbrev LPVOID := ULONG64
abbrev WCHAR := UInt16

/-! ## Blocks of the heap -/

/-- `_SERVICE_ROUTINE` -/
structure ServiceRoutine where
  hPort          : HANDLE
  hServerPort    : HANDLE
  hClientProcess : HANDLE
  lm             : LPVOID
  lpRoutine      : LPVOID
  lpParameters   : LPVOID
  closeEvent     : Bool
deriving DecidableEq, Repr

/-- `_SERVICE_ROUTINE(hPort, lpRoutine, lpParameters)` -/
def ServiceRoutine.new (hPort : HANDLE) (lpRoutine lpParameters : LPVOID) :
    ServiceRoutine where
  hPort := hPort
  hServerPort := 0
  hClientProcess := 0
  lm := 0
  lpRoutine := lpRoutine
  lpParameters := lpParameters
  closeEvent := false

inductive Kind where
  | routine
  | parameters
  | message
  | buffer
deriving DecidableEq

/-- A block with its content.  A list of parameters is measured in entries;
    the bytes of a message go on behind its end as they happen to lie there. -/
inductive Block where
  | routine (r : ServiceRoutine)
  | parameters (p : ServiceRoutineParameter)
  | message (lm : Nat → BYTE) (size : Nat)
  | buffer (bytes : List BYTE)

namespace Block

def kind : Block → Kind
  | routine _ => .routine
  | parameters _ => .parameters
  | message .. => .message
  | buffer _ => .buffer

def size : Block → Nat
  | routine _ => 1
  | parameters p => p.dwParameters
  | message _ size => size
  | buffer bytes => bytes.length

/-- The block but for the flag that `ScUnregisterServiceRoutine` sets. -/
def forget : Block → Block
  | routine r => routine { r with closeEvent := false }
  | b => b

@[simp] theorem kind_forget (b : Block) : b.forget.kind = b.kind := by
  cases b <;> rfl

end Block

/-- The blocks of the service process, at addresses that a pointer can hold; the
    flag `CloseEvent` of a descriptor may be changed by a thread that does not
    hold it. -/
def layout (b : Build) : Layout LPVOID Block Kind where
  address a := b.toPointer a == a
  kind := Block.kind
  size := Block.size
  eqv b₁ b₂ := b₁.forget = b₂.forget
  refl _ := rfl
  trans h₁ h₂ := h₁.trans h₂
  kind_eq {b₁ b₂} h := by rw [← b₁.kind_forget, ← b₂.kind_forget, h]

/-! ## Labels, calls and notes -/

/-- A call of the library by a thread of the application; a name is `none` when
    the pointer to it cannot be read. -/
inductive Call where
  | register (hServiceRoutine lpServiceRoutine lpParameters : LPVOID)
      (lpRoutineName : Option (List WCHAR))
  | unregister (hServiceRoutine : LPVOID)
  | clientId
deriving DecidableEq

/-- Where a thread may go on: the loop of `WaitThread`, the parts of
    `WorkerThread` around the routine, and the calls an application thread has
    yet to make. -/
inductive Label where
  | waitThread (lpService : LPVOID)
  | waitLoop (lpService lm : LPVOID)
  | workerThread (lpService : LPVOID)
  | routine (lpService lpMappedParam : LPVOID) (dwThread : Nat)
      (buffers : List LPVOID)
  | workerReturn (lpService lpMappedParam : LPVOID) (dwThread : Nat)
      (status : NTSTATUS)
  | app (calls : List Call)

/-- What a service routine does next: it writes a byte through one of its
    pointers, asks for its client, or returns. -/
inductive RoutineAct where
  | write (i k : Nat) (v : BYTE)
  | clientId
  | ret (status : NTSTATUS)

/-- Moments that a history records. -/
inductive Note where
  | called (c : Call)
  | returned (c : Call) (status : NTSTATUS)
  | invoked (lpRoutine : LPVOID) (args : List ULONG64)
  | mapFailed (tmp : LPVOID) (i : Nat)
  | clientId (status : NTSTATUS) (hProcess : HANDLE)
deriving DecidableEq

/-! ## The kernel -/

/-- What a handle of the process refers to. -/
inductive KObject where
  | connectionPort (p : Nat)
  | communicationPort (p : Nat) (client : ClientId)
  | clientPort
  | process (pid : Nat)
  | thread (n : Nat)
deriving DecidableEq

/-- The memory of a process. -/
structure VirtualMemory where
  byte     : Nat → BYTE
  readable : Nat → Bool
  writable : Nat → Bool

/-- A `UNICODE_STRING`: which buffer it has and what it says, or nothing when
    it was never initialised. -/
abbrev UnicodeString := Option (Nat × List WCHAR)

structure Lpc (b : Build) where
  handles  : AList (fun _ : HANDLE => KObject)
  ports    : Nat
  queue    : Nat → List (Message b)
  /-- connection requests that were taken and not answered yet -/
  pending  : List (Nat × Message b)
  connected : List ClientId
  replies  : List (ClientId × (Nat → BYTE))
  memory   : Nat → VirtualMemory
  /-- the process of the library -/
  self     : Nat
  sent     : List (Message b)
  /-- the ports whose connection port was closed -/
  closed   : List Nat
  /-- which thread closed which handle -/
  closes   : List (Nat × HANDLE)
  /-- the port a thread has created and not handed to a listener or closed yet,
      with its handle -/
  lastPort : Nat → Option (Nat × HANDLE)

/-- Calls into the kernel. -/
inductive KernelOp where
  | ntCreatePort (us : UnicodeString) (maxConnectInfoLength maxDataLength : Nat)
  | ntListenPort (h : HANDLE)
  | openProcess (pid : Nat)
  | ntAcceptConnectPort (client : ClientId) (messageId : Nat) (accept : Bool)
  | ntCompleteConnectPort (h : HANDLE)
  | ntReplyWaitReceivePort (h : HANDLE)
  | ntReplyWaitReplyPort (h : HANDLE) (lm : Nat → BYTE)
  | ntReadVirtualMemory (h : HANDLE) (a n : Nat)
  | ntWriteVirtualMemory (h : HANDLE) (a : Nat) (bytes : List BYTE)
  | ntClose (h : HANDLE)
  | getProcessId (h : HANDLE)
  | ntConnectPort (us : UnicodeString) (info : List BYTE)
  | ntRequestWaitReplyPort (h : HANDLE) (lm : Nat → BYTE)
  | ntReplyPort (h : HANDLE) (lm : Nat → BYTE)

@[reducible] def KernelOp.Ret (b : Build) : KernelOp → Type
  | .ntCreatePort .. => NTSTATUS × HANDLE
  | .ntListenPort _ => NTSTATUS × Option (Message b)
  | .openProcess _ => HANDLE
  | .ntAcceptConnectPort .. => NTSTATUS × HANDLE
  | .ntCompleteConnectPort _ => NTSTATUS
  | .ntReplyWaitReceivePort _ => NTSTATUS × Option (Message b)
  | .ntReplyWaitReplyPort .. => NTSTATUS × Option (Message b)
  | .ntReadVirtualMemory .. => NTSTATUS × List BYTE
  | .ntWriteVirtualMemory .. => NTSTATUS
  | .ntClose _ => NTSTATUS
  | .getProcessId _ => Nat
  | .ntConnectPort .. => NTSTATUS × HANDLE × Nat
  | .ntRequestWaitReplyPort .. => NTSTATUS × Option (Message b)
  | .ntReplyPort .. => NTSTATUS

/-- What the system may decide. -/
inductive Choice (b : Build) where
  | ok
  | fail (status : NTSTATUS)
  | handle (h : HANDLE)
  | thread (h : HANDLE) (tid : Nat)
  | fresh (a : LPVOID) (block : Block)
  | take (keep : Bool)
  | reply (status : NTSTATUS) (m : Option (Message b))
  | connect (status : NTSTATUS) (h : HANDLE) (length : Nat)
  | act (a : RoutineAct)
  | flag (v : Bool)
  | send (p : Nat) (m : Message b)
  | setCloseEvent (a : LPVOID)
  | poke (pid a : Nat) (v : BYTE)

/-- The port whose queue a handle gives access to: a communication port shares
    the queue of the connection port it came from. -/
def KObject.portOf : KObject → Option Nat
  | connectionPort p => some p
  | communicationPort p _ => some p
  | _ => none

namespace Lpc

variable {b : Build}

/-- The port a handle gives access to. -/
def portOf (k : Lpc b) (h : HANDLE) : Option Nat :=
  (k.handles.lookup h).bind KObject.portOf

/-- The process a handle was opened for. -/
def processOf (k : Lpc b) (h : HANDLE) : Option Nat :=
  match k.handles.lookup h with
  | some (.process pid) => some pid
  | _ => none

def isConnectionRequest (m : Message b) : Bool := m.type == LPC_CONNECTION_REQUEST

/-- Give out a new handle: one that is not null and not open. -/
def newHandle (k : Lpc b) (h : HANDLE) (o : KObject) : Option (Lpc b) :=
  if h ≠ 0 ∧ k.handles.lookup h = none then
    some { k with handles := k.handles.insert h o }
  else none

/-- Thread `t` created the next port and got the handle `h` for it. -/
def portCreated (k : Lpc b) (t : Nat) (h : HANDLE) : Lpc b :=
  { k with ports := k.ports + 1
           lastPort := Function.update k.lastPort t (some (k.ports, h)) }

/-- A message arrives at a port. -/
def enqueue (k : Lpc b) (p : Nat) (m : Message b) : Lpc b :=
  { k with queue := Function.update k.queue p (k.queue p ++ [m]),
           sent := m :: k.sent }

/-- A message is taken from the queue of a port, which is left with `rest`; a
    connection request waits for its answer from then on. -/
def took (k : Lpc b) (p : Nat) (m : Message b) (rest : List (Message b)) : Lpc b :=
  { k with queue := Function.update k.queue p rest,
           pending := if isConnectionRequest m then (p, m) :: k.pending
             else k.pending }

/-- All bytes of a range can be accessed. -/
def accessible (ok : Nat → Bool) (a n : Nat) : Bool :=
  (List.range n).all fun i => ok (a + i)

/-- The memory of process `pid` with bytes written from address `a` on. -/
def writeMemory (k : Lpc b) (pid a : Nat) (bytes : List BYTE) : Lpc b :=
  let m : VirtualMemory :=
    { k.memory pid with byte := overlay (k.memory pid).byte a bytes }
  { k with memory := Function.update k.memory pid m }

/-- The addresses that the process itself can read. -/
def pages (k : Lpc b) : Nat → Bool := (k.memory k.self).readable

/-- Which addresses of the process itself can be written. -/
def writablePages (k : Lpc b) : Nat → Bool := (k.memory k.self).writable

/-- What the process may do with its addresses. -/
def access (k : Lpc b) : (Nat → Bool) × (Nat → Bool) := (k.pages, k.writablePages)

/-- Writing changes no address into one that can be accessed. -/
theorem access_writeMemory (k : Lpc b) (pid a : Nat) (bytes : List BYTE) :
    (k.writeMemory pid a bytes).access = k.access := by
  show ((Function.update k.memory pid _ k.self).readable,
    (Function.update k.memory pid _ k.self).writable) = _
  by_cases h : k.self = pid
  · rw [h, Function.update_self]
    subst h
    rfl
  · rw [Function.update_of_ne h]
    rfl

theorem pages_writeMemory (k : Lpc b) (pid a : Nat) (bytes : List BYTE) :
    (k.writeMemory pid a bytes).pages = k.pages :=
  congrArg Prod.fst (k.access_writeMemory pid a bytes)

/-- Closing a handle.  With the connection port its queue goes away. -/
def close (k : Lpc b) (t : Nat) (h : HANDLE) (o : KObject) : Lpc b :=
  let k := { k with handles := k.handles.erase h
                    closes := (t, h) :: k.closes
                    lastPort := Function.update k.lastPort t
                      ((k.lastPort t).filter fun x => x.2 != h) }
  match o with
  | .connectionPort p =>
      { k with closed := p :: k.closed
               queue := Function.update k.queue p [] }
  | _ => k

/-- The effect of a kernel call of thread `t`. -/
def exec (t : Nat) : (o : KernelOp) → Choice b → Lpc b → Option (o.Ret b × Lpc b)
  | .ntCreatePort .., .handle h, k =>
      (k.newHandle h (.connectionPort k.ports)).map fun k =>
        ((STATUS_SUCCESS, h), k.portCreated t h)
  | .ntCreatePort .., .fail st, k => if ntSuccess st then none else some ((st, 0), k)
  | .ntListenPort h, .take keep, k =>
      (k.portOf h).bind fun p =>
        match (k.queue p).dropWhile (fun m => !isConnectionRequest m) with
        | m :: rest =>
            let before := (k.queue p).takeWhile fun m => !isConnectionRequest m
            some ((STATUS_SUCCESS, some m),
              k.took p m (if keep then before ++ rest else rest))
        | [] => none
  | .ntListenPort _, .fail st, k => if ntSuccess st then none else some ((st, none), k)
  | .openProcess pid, .handle h, k => (k.newHandle h (.process pid)).map fun k => (h, k)
  | .openProcess _, .fail _, k => some ((0 : Nat), k)
  | .ntAcceptConnectPort client messageId true, .handle h, k =>
      (k.pending.find? fun x => x.2.sender = client
          ∧ LpcMessage.messageId b x.2.image = messageId).bind fun x =>
        (k.newHandle h (.communicationPort x.1 client)).map fun k =>
          ((STATUS_SUCCESS, h), { k with pending := k.pending.filter (· ≠ x) })
  | .ntAcceptConnectPort client messageId false, .ok, k =>
      let rest := k.pending.filter fun x =>
        ¬ (x.2.sender = client ∧ LpcMessage.messageId b x.2.image = messageId)
      some ((STATUS_SUCCESS, (0 : Nat)), { k with pending := rest })
  | .ntAcceptConnectPort .., .fail st, k =>
      if ntSuccess st then none else some ((st, (0 : Nat)), k)
  | .ntCompleteConnectPort h, .ok, k =>
      match k.handles.lookup h with
      | some (.communicationPort _ client) =>
          some (STATUS_SUCCESS, { k with connected := client :: k.connected })
      | _ => none
  | .ntCompleteConnectPort _, .fail st, k => if ntSuccess st then none else some (st, k)
  | .ntReplyWaitReceivePort h, .ok, k =>
      (k.portOf h).bind fun p =>
        match k.queue p with
        | m :: rest => some ((STATUS_SUCCESS, some m), k.took p m rest)
        | [] => none
  | .ntReplyWaitReceivePort _, .fail st, k =>
      if ntSuccess st then none else some ((st, none), k)
  | .ntReplyWaitReplyPort h lm, .reply st m, k =>
      match k.handles.lookup h with
      | some (.communicationPort _ client) =>
          some ((st, m), { k with replies := (client, lm) :: k.replies })
      | _ => none
  | .ntReplyWaitReplyPort .., .fail st, k =>
      if ntSuccess st then none else some ((st, none), k)
  | .ntReadVirtualMemory h a n, .ok, k =>
      (k.processOf h).bind fun pid =>
        if accessible (k.memory pid).readable a n then
          some ((STATUS_SUCCESS, slice (k.memory pid).byte a n), k)
        else none
  | .ntReadVirtualMemory .., .fail st, k =>
      if ntSuccess st then none else some ((st, []), k)
  | .ntWriteVirtualMemory h a bytes, .ok, k =>
      (k.processOf h).bind fun pid =>
        if accessible (k.memory pid).writable a bytes.length then
          some (STATUS_SUCCESS, k.writeMemory pid a bytes)
        else none
  | .ntWriteVirtualMemory .., .fail st, k => if ntSuccess st then none else some (st, k)
  | .ntClose h, .ok, k =>
      (k.handles.lookup h).map fun o => (STATUS_SUCCESS, k.close t h o)
  | .ntClose _, .fail st, k => if ntSuccess st then none else some (st, k)
  | .getProcessId h, _, k => some ((k.processOf h).getD 0, k)
  | .ntConnectPort .., .connect st h length, k =>
      if st = STATUS_SUCCESS then
        (k.newHandle h .clientPort).map fun k => ((st, h, length), k)
      else some ((st, 0, length), k)
  | .ntRequestWaitReplyPort .., .reply st m, k => some ((st, m), k)
  | .ntReplyPort .., .ok, k => some (STATUS_SUCCESS, k)
  | .ntReplyPort .., .fail st, k => if ntSuccess st then none else some (st, k)
  | _, _, _ => none

/-- A new handle was given out. -/
def opened (k : Lpc b) (h : HANDLE) (o : KObject) : Lpc b :=
  { k with handles := k.handles.insert h o }

theorem newHandle_eq_some {k k' : Lpc b} {h : HANDLE} {o : KObject}
    (hx : k.newHandle h o = some k') :
    (h ≠ 0 ∧ k.handles.lookup h = none) ∧ k' = k.opened h o := by
  unfold newHandle at hx
  split at hx
  · next hc => exact ⟨hc, (Option.some.inj hx).symm⟩
  · exact nomatch hx

/-- Everything a kernel call of thread `t` may do, with what it gives back. -/
inductive Effect (t : Nat) (k : Lpc b) : (o : KernelOp) → o.Ret b → Lpc b → Prop where
  | created {us m₁ m₂} {h : HANDLE} (hnew : h ≠ 0 ∧ k.handles.lookup h = none) :
      Effect t k (.ntCreatePort us m₁ m₂) (STATUS_SUCCESS, h)
        ((k.opened h (.connectionPort k.ports)).portCreated t h)
  | notCreated {us m₁ m₂ st} (hst : ntSuccess st = false) :
      Effect t k (.ntCreatePort us m₁ m₂) (st, 0) k
  | listened {h p pre m post rest} (hp : k.portOf h = some p)
      (hq : k.queue p = pre ++ m :: post) (hm : isConnectionRequest m = true)
      (hrest : rest = pre ++ post ∨ rest = post) :
      Effect t k (.ntListenPort h) (STATUS_SUCCESS, some m) (k.took p m rest)
  | notListened {h st} (hst : ntSuccess st = false) :
      Effect t k (.ntListenPort h) (st, none) k
  | openedProcess {pid} {h : HANDLE} (hnew : h ≠ 0 ∧ k.handles.lookup h = none) :
      Effect t k (.openProcess pid) h (k.opened h (.process pid))
  | notOpened {pid} : Effect t k (.openProcess pid) (0 : Nat) k
  | accepted {client id p m pending} {h : HANDLE} (hm : (p, m) ∈ k.pending)
      (hs : m.sender = client) (hnew : h ≠ 0 ∧ k.handles.lookup h = none) :
      Effect t k (.ntAcceptConnectPort client id true) (STATUS_SUCCESS, h)
        { k.opened h (.communicationPort p client) with pending := pending }
  | refused {client id pending} :
      Effect t k (.ntAcceptConnectPort client id false) (STATUS_SUCCESS, (0 : Nat))
        { k with pending := pending }
  | notAccepted {client id accept st} (hst : ntSuccess st = false) :
      Effect t k (.ntAcceptConnectPort client id accept) (st, (0 : Nat)) k
  | completed {h client} :
      Effect t k (.ntCompleteConnectPort h) STATUS_SUCCESS
        { k with connected := client :: k.connected }
  | notCompleted {h st} (hst : ntSuccess st = false) :
      Effect t k (.ntCompleteConnectPort h) st k
  | received {h p m rest} (hp : k.portOf h = some p) (hq : k.queue p = m :: rest) :
      Effect t k (.ntReplyWaitReceivePort h) (STATUS_SUCCESS, some m) (k.took p m rest)
  | notReceived {h st} (hst : ntSuccess st = false) :
      Effect t k (.ntReplyWaitReceivePort h) (st, none) k
  | replied {h lm st m client} :
      Effect t k (.ntReplyWaitReplyPort h lm) (st, m)
        { k with replies := (client, lm) :: k.replies }
  | notReplied {h lm st} (hst : ntSuccess st = false) :
      Effect t k (.ntReplyWaitReplyPort h lm) (st, none) k
  | read {h a n pid} (hp : k.processOf h = some pid)
      (hacc : accessible (k.memory pid).readable a n = true) :
      Effect t k (.ntReadVirtualMemory h a n)
        (STATUS_SUCCESS, slice (k.memory pid).byte a n) k
  | notRead {h a n st} (hst : ntSuccess st = false) :
      Effect t k (.ntReadVirtualMemory h a n) (st, []) k
  | wrote {h a bytes pid} (hp : k.processOf h = some pid)
      (hacc : accessible (k.memory pid).writable a bytes.length = true) :
      Effect t k (.ntWriteVirtualMemory h a bytes) STATUS_SUCCESS
        (k.writeMemory pid a bytes)
  | notWritten {h a bytes st} (hst : ntSuccess st = false) :
      Effect t k (.ntWriteVirtualMemory h a bytes) st k
  | closed {h obj} (hl : k.handles.lookup h = some obj) :
      Effect t k (.ntClose h) STATUS_SUCCESS (k.close t h obj)
  | notClosed {h st} (hst : ntSuccess st = false) : Effect t k (.ntClose h) st k
  | processId {h} : Effect t k (.getProcessId h) ((k.processOf h).getD 0) k
  | connectedTo {us info length} {h : HANDLE}
      (hnew : h ≠ 0 ∧ k.handles.lookup h = none) :
      Effect t k (.ntConnectPort us info) (STATUS_SUCCESS, h, length)
        (k.opened h .clientPort)
  | notConnected {us info st length} (hst : st ≠ STATUS_SUCCESS) :
      Effect t k (.ntConnectPort us info) (st, 0, length) k
  | requested {h lm st m} : Effect t k (.ntRequestWaitReplyPort h lm) (st, m) k
  | answered {h lm st} : Effect t k (.ntReplyPort h lm) st k

/-- A call that fails does nothing. -/
theorem fail_eq_some {α : Type} {st : NTSTATUS} {k k' : Lpc b} {x y : α}
    (hx : (if ntSuccess st = true then none else some (x, k)) = some (y, k')) :
    ntSuccess st = false ∧ x = y ∧ k' = k := by
  split at hx
  · exact nomatch hx
  · next h =>
      obtain ⟨rfl, rfl⟩ := Prod.mk.inj (Option.some.inj hx)
      exact ⟨by simpa using h, rfl, rfl⟩

/-- The queue up to the first connection request. -/
theorem queue_split {q : List (Message b)} {m : Message b} {rest : List (Message b)}
    (h : q.dropWhile (fun m => !isConnectionRequest m) = m :: rest) :
    q = q.takeWhile (fun m => !isConnectionRequest m) ++ m :: rest
      ∧ isConnectionRequest m = true := by
  constructor
  · rw [← h]
    exact (List.takeWhile_append_dropWhile ..).symm
  · have := List.head_dropWhile_not (fun m => !isConnectionRequest m) (l := q)
      (by rw [h]; simp)
    simpa [h] using this

/-- **WHAT A KERNEL CALL DOES** is one of its effects. -/
theorem exec_effect {t : Nat} {o : KernelOp} {c : Choice b} {k k' : Lpc b} {r : o.Ret b}
    (hx : exec t o c k = some (r, k')) : Effect t k o r k' := by
  cases o with
  | ntCreatePort us m₁ m₂ =>
      cases c with
      | fail st =>
          obtain ⟨hst, rfl, rfl⟩ := fail_eq_some hx
          exact .notCreated hst
      | handle h =>
          obtain ⟨k₁, hk₁, he⟩ := Option.map_eq_some_iff.mp hx
          obtain ⟨hnew, rfl⟩ := newHandle_eq_some hk₁
          obtain ⟨rfl, rfl⟩ := Prod.mk.inj he
          exact .created hnew
      | _ => exact nomatch hx
  | ntListenPort h =>
      cases c with
      | fail st =>
          obtain ⟨hst, rfl, rfl⟩ := fail_eq_some hx
          exact .notListened hst
      | take keep =>
          obtain ⟨p, hp, hx⟩ := Option.bind_eq_some_iff.mp hx
          split at hx
          -- what stood before the request stays in the queue
          · next m rest hd =>
              obtain ⟨rfl, rfl⟩ := Prod.mk.inj (Option.some.inj hx)
              obtain ⟨hq, hm⟩ := queue_split hd
              refine .listened hp hq hm ?_
              cases keep with
              | true => exact Or.inl rfl
              | false => exact Or.inr rfl
          · exact nomatch hx
      | _ => exact nomatch hx
  | openProcess pid =>
      cases c with
      | fail st =>
          obtain ⟨rfl, rfl⟩ := Prod.mk.inj (Option.some.inj hx)
          exact .notOpened
      | handle h =>
          obtain ⟨k₁, hk₁, he⟩ := Option.map_eq_some_iff.mp hx
          obtain ⟨hnew, rfl⟩ := newHandle_eq_some hk₁
          obtain ⟨rfl, rfl⟩ := Prod.mk.inj he
          exact .openedProcess hnew
      | _ => exact nomatch hx
  | ntAcceptConnectPort client id accept =>
      cases c with
      | fail st =>
          obtain ⟨hst, rfl, rfl⟩ : ntSuccess st = false ∧ (st, (0 : Nat)) = r ∧ k' = k := by
            cases accept <;> exact fail_eq_some hx
          exact .notAccepted hst
      | ok =>
          cases accept with
          | true => exact nomatch hx
          | false =>
              obtain ⟨rfl, rfl⟩ := Prod.mk.inj (Option.some.inj hx)
              exact .refused
      | handle h =>
          cases accept with
          | true =>
              obtain ⟨⟨p, m⟩, hf, hx⟩ := Option.bind_eq_some_iff.mp hx
              obtain ⟨k₁, hk₁, he⟩ := Option.map_eq_some_iff.mp hx
              obtain ⟨hnew, rfl⟩ := newHandle_eq_some hk₁
              obtain ⟨rfl, rfl⟩ := Prod.mk.inj he
              -- what is answered is a request that was taken
              have hs := List.find?_some hf
              rw [decide_eq_true_eq] at hs
              exact .accepted (List.mem_of_find?_eq_some hf) hs.1 hnew
          | false => exact nomatch hx
      | _ => cases accept <;> exact nomatch hx
  | ntCompleteConnectPort h =>
      cases c with
      | fail st =>
          obtain ⟨hst, rfl, rfl⟩ := fail_eq_some hx
          exact .notCompleted hst
      | ok =>
          simp only [exec] at hx
          split at hx
          · obtain ⟨rfl, rfl⟩ := Prod.mk.inj (Option.some.inj hx)
            exact .completed
          · exact nomatch hx
      | _ => exact nomatch hx
  | ntReplyWaitReceivePort h =>
      cases c with
      | fail st =>
          obtain ⟨hst, rfl, rfl⟩ := fail_eq_some hx
          exact .notReceived hst
      | ok =>
          obtain ⟨p, hp, hx⟩ := Option.bind_eq_some_iff.mp hx
          split at hx
          · next m rest hq =>
              obtain ⟨rfl, rfl⟩ := Prod.mk.inj (Option.some.inj hx)
              exact .received hp hq
          · exact nomatch hx
      | _ => exact nomatch hx
  | ntReplyWaitReplyPort h lm =>
      cases c with
      | fail st =>
          obtain ⟨hst, rfl, rfl⟩ := fail_eq_some hx
          exact .notReplied hst
      | reply st m =>
          simp only [exec] at hx
          split at hx
          · obtain ⟨rfl, rfl⟩ := Prod.mk.inj (Option.some.inj hx)
            exact .replied
          · exact nomatch hx
      | _ => exact nomatch hx
  | ntReadVirtualMemory h a n =>
      cases c with
      | fail st =>
          obtain ⟨hst, rfl, rfl⟩ := fail_eq_some hx
          exact .notRead hst
      | ok =>
          obtain ⟨pid, hp, hx⟩ := Option.bind_eq_some_iff.mp hx
          split at hx
          · next hacc =>
              obtain ⟨rfl, rfl⟩ := Prod.mk.inj (Option.some.inj hx)
              exact .read hp hacc
          · exact nomatch hx
      | _ => exact nomatch hx
  | ntWriteVirtualMemory h a bytes =>
      cases c with
      | fail st =>
          obtain ⟨hst, rfl, rfl⟩ := fail_eq_some hx
          exact .notWritten hst
      | ok =>
          obtain ⟨pid, hp, hx⟩ := Option.bind_eq_some_iff.mp hx
          split at hx
          · next hacc =>
              obtain ⟨rfl, rfl⟩ := Prod.mk.inj (Option.some.inj hx)
              exact .wrote hp hacc
          · exact nomatch hx
      | _ => exact nomatch hx
  | ntClose h =>
      cases c with
      | fail st =>
          obtain ⟨hst, rfl, rfl⟩ := fail_eq_some hx
          exact .notClosed hst
      | ok =>
          obtain ⟨obj, hl, he⟩ := Option.map_eq_some_iff.mp hx
          obtain ⟨rfl, rfl⟩ := Prod.mk.inj he
          exact .closed hl
      | _ => exact nomatch hx
  | getProcessId h =>
      obtain ⟨rfl, rfl⟩ := Prod.mk.inj (Option.some.inj hx)
      exact .processId
  | ntConnectPort us info =>
      cases c with
      | connect st h length =>
          simp only [exec] at hx
          split at hx
          · next hst =>
              obtain ⟨k₁, hk₁, he⟩ := Option.map_eq_some_iff.mp hx
              obtain ⟨hnew, rfl⟩ := newHandle_eq_some hk₁
              obtain ⟨rfl, rfl⟩ := Prod.mk.inj he
              rw [hst]
              exact .connectedTo hnew
          · next hst =>
              obtain ⟨rfl, rfl⟩ := Prod.mk.inj (Option.some.inj hx)
              exact .notConnected hst
      | _ => exact nomatch hx
  | ntRequestWaitReplyPort h lm =>
      cases c with
      | reply st m =>
          obtain ⟨rfl, rfl⟩ := Prod.mk.inj (Option.some.inj hx)
          exact .requested
      | _ => exact nomatch hx
  | ntReplyPort h lm =>
      cases c with
      | ok =>
          obtain ⟨rfl, rfl⟩ := Prod.mk.inj (Option.some.inj hx)
          exact .answered
      | fail st =>
          obtain ⟨-, rfl, rfl⟩ := fail_eq_some hx
          exact .answered
      | _ => exact nomatch hx

@[simp] theorem close_closes (k : Lpc b) (t : Nat) (h : HANDLE) (o : KObject) :
    (k.close t h o).closes = (t, h) :: k.closes := by
  cases o <;> rfl

/-- The handle a call gives out, and what it refers to. -/
def Gives (k : Lpc b) : (o : KernelOp) → o.Ret b → HANDLE → KObject → Prop
  | .ntCreatePort .., r, h, x => h = r.2 ∧ x = .connectionPort k.ports
  | .openProcess pid, r, h, x => h = r ∧ x = .process pid
  | .ntAcceptConnectPort client _ true, r, h, x =>
      h = r.2 ∧ ∃ y ∈ k.pending, x = .communicationPort y.1 client
  | .ntConnectPort .., r, h, x => h = r.2.1 ∧ x = .clientPort
  | _, _, _, _ => False

theorem lookup_opened (k : Lpc b) (h h' : HANDLE) (x : KObject) :
    (k.opened h x).handles.lookup h' = if h' = h then some x else k.handles.lookup h' := by
  show (k.handles.insert h x).lookup h' = _
  split
  · next heq =>
      rw [heq]
      exact AList.lookup_insert ..
  · next hne => exact AList.lookup_insert_ne hne

theorem lookup_close (k : Lpc b) (t : Nat) (h h' : HANDLE) (x : KObject) :
    (k.close t h x).handles.lookup h' = if h' = h then none else k.handles.lookup h' := by
  have hclose : (k.close t h x).handles = k.handles.erase h := by cases x <;> rfl
  rw [hclose]
  split
  · next heq =>
      rw [heq]
      exact AList.lookup_erase ..
  · next hne => exact AList.lookup_erase_ne hne

/-- **WHAT HAPPENS TO A HANDLE**: nothing, or it is given out anew, or closed. -/
theorem Effect.lookup {t : Nat} {k k' : Lpc b} {o : KernelOp} {r : o.Ret b}
    (E : Effect t k o r k') (h : HANDLE) :
    k'.handles.lookup h = k.handles.lookup h ∨
    (h ≠ 0 ∧ k.handles.lookup h = none
      ∧ ∃ x, k'.handles.lookup h = some x ∧ Gives k o r h x) ∨
    (o = .ntClose h ∧ k'.handles.lookup h = none) := by
  have given : ∀ {k₁ : Lpc b} {h₁ : HANDLE} {x : KObject},
      h₁ ≠ 0 ∧ k.handles.lookup h₁ = none → Gives k o r h₁ x →
      k₁.handles = (k.opened h₁ x).handles →
      k₁.handles.lookup h = k.handles.lookup h ∨
      (h ≠ 0 ∧ k.handles.lookup h = none
        ∧ ∃ x, k₁.handles.lookup h = some x ∧ Gives k o r h x) ∨
      (o = .ntClose h ∧ k₁.handles.lookup h = none) := by
    intro k₁ h₁ x hnew hgives hk₁
    rw [hk₁, lookup_opened]
    by_cases hh : h = h₁
    · subst hh
      rw [if_pos rfl]
      exact Or.inr (Or.inl ⟨hnew.1, hnew.2, x, rfl, hgives⟩)
    · rw [if_neg hh]
      exact Or.inl rfl
  cases E with
  | created hnew => exact given hnew ⟨rfl, rfl⟩ rfl
  | openedProcess hnew => exact given hnew ⟨rfl, rfl⟩ rfl
  | accepted hm hs hnew => exact given hnew ⟨rfl, _, hm, rfl⟩ rfl
  | connectedTo hnew => exact given hnew ⟨rfl, rfl⟩ rfl
  | @closed h₁ x hl =>
      rw [lookup_close]
      by_cases hh : h = h₁
      · rw [if_pos hh, hh]
        exact Or.inr (Or.inr ⟨rfl, rfl⟩)
      · rw [if_neg hh]
        exact Or.inl rfl
  | _ => exact Or.inl rfl

/-- Only the environment adds to a queue. -/
theorem Effect.mem_queue {t : Nat} {k k' : Lpc b} {o : KernelOp} {r : o.Ret b} {q : Nat}
    {m : Message b} (E : Effect t k o r k') (hmem : m ∈ k'.queue q) : m ∈ k.queue q := by
  have hupdate : ∀ {p rest}, (∀ m ∈ rest, m ∈ k.queue p) →
      m ∈ Function.update k.queue p rest q → m ∈ k.queue q := by
    intro p rest hrest hmem
    by_cases hq : q = p
    · subst hq
      rw [Function.update_self] at hmem
      exact hrest m hmem
    · rwa [Function.update_of_ne hq] at hmem
  cases E with
  | listened hp hq hm hrest =>
      refine hupdate ?_ hmem
      intro m' hm'
      rw [hq]
      rcases hrest with rfl | rfl
      · rcases List.mem_append.mp hm' with h | h
        · exact List.mem_append_left _ h
        · exact List.mem_append_right _ (List.mem_cons_of_mem _ h)
      · exact List.mem_append_right _ (List.mem_cons_of_mem _ hm')
  | received hp hq =>
      refine hupdate ?_ hmem
      intro m' hm'
      rw [hq]
      exact List.mem_cons_of_mem _ hm'
  | @closed h x hl =>
      cases x with
      | connectionPort p => exact hupdate (fun m h => absurd h List.not_mem_nil) hmem
      | _ => exact hmem
  | _ => exact hmem

/-- Only closing the handle of a connection port closes a port. -/
theorem Effect.ports {t : Nat} {k k' : Lpc b} {o : KernelOp} {r : o.Ret b}
    (E : Effect t k o r k') : k'.closed = k.closed ∨
      ∃ h p, o = .ntClose h ∧ k.handles.lookup h = some (.connectionPort p)
        ∧ k'.closed = p :: k.closed := by
  cases E with
  | @closed h x hl =>
      cases x with
      | connectionPort p => exact Or.inr ⟨h, p, rfl, hl, rfl⟩
      | _ => exact Or.inl rfl
  | _ => exact Or.inl rfl

/-- No call changes which addresses can be accessed. -/
theorem Effect.access {t : Nat} {k k' : Lpc b} {o : KernelOp} {r : o.Ret b}
    (E : Effect t k o r k') : k'.access = k.access := by
  cases E with
  | wrote hp hacc => exact access_writeMemory ..
  | @closed h x hl => cases x <;> rfl
  | _ => rfl

/-- Only `NtClose` closes handles. -/
theorem Effect.closes {t : Nat} {k k' : Lpc b} {o : KernelOp} {r : o.Ret b}
    (E : Effect t k o r k') :
    k'.closes = k.closes ∨ ∃ h, o = .ntClose h ∧ k'.closes = (t, h) :: k.closes := by
  cases E with
  | closed hl => exact Or.inr ⟨_, rfl, close_closes ..⟩
  | _ => exact Or.inl rfl

end Lpc

/-! ## The list of client ids -/

/-- Where a worker stands with respect to the list. -/
inductive Phase where
  | before
  | between (hClientProcess : HANDLE)
  | after
deriving DecidableEq

/-- `SYSTEM_INFO::wProcessorArchitecture` -/
inductive Architecture where
  | intel
  | amd64
  | other
deriving DecidableEq

/-- `RtlSystemLpcMessageLength` -/
def rtlSystemLpcMessageLength : Architecture → Nat
  | .intel => 24
  | .amd64 => 40
  | .other => 0

/-- The host of a build. -/
def hostArchitecture : Build → Architecture
  | .x86 => .intel
  | .x64 => .amd64

/-- On the host of a build the header is as long as the library takes it to be. -/
theorem rtlSystemLpcMessageLength_host (b : Build) :
    rtlSystemLpcMessageLength (hostArchitecture b) = b.portMessageSize := by
  cases b <;> rfl

/-- The statics of the library, the critical section and the threads. -/
structure Ids where
  architecture           : Architecture
  lpCriticalSection      : Bool
  clientIdListNew        : Bool
  systemLpcMessageLength : Nat
  /-- the thread in the critical section, once for each time it entered -/
  owner                  : List Nat
  clientIdList           : List (HANDLE × Nat)
  tid                    : Nat → Nat
  exited                 : Nat → Bool
  phase                  : Nat → Phase

inductive IdOp where
  | getNativeSystemInfo
  | lpCriticalSection
  | clientIdListNew
  | systemLpcMessageLength
  | initializeCriticalSection
  | newClientIdList
  | setSystemLpcMessageLength (n : Nat)
  | uniqueThread
  | enterCriticalSection
  | leaveCriticalSection
  | size
  | at (i : Nat)
  | pushBack (h : HANDLE) (dwThread : Nat)
  | erase (i : Nat)
  | exitThread

@[reducible] def IdOp.Ret : IdOp → Type
  | .getNativeSystemInfo => Architecture
  | .lpCriticalSection => Bool
  | .clientIdListNew => Bool
  | .systemLpcMessageLength => Nat
  | .uniqueThread => Nat
  | .size => Nat
  | .at _ => HANDLE × Nat
  | _ => Unit

namespace Ids

/-- The effect of such an operation of thread `t`.  Entering an occupied
    critical section waits; an index outside the list ends the process. -/
def exec (t : Nat) : (o : IdOp) → Ids → Option (o.Ret × Ids)
  | .getNativeSystemInfo, s => some (s.architecture, s)
  | .lpCriticalSection, s => some (s.lpCriticalSection, s)
  | .clientIdListNew, s => some (s.clientIdListNew, s)
  | .systemLpcMessageLength, s => some (s.systemLpcMessageLength, s)
  | .initializeCriticalSection, s =>
      some ((), { s with lpCriticalSection := true, owner := [] })
  | .newClientIdList, s => some ((), { s with clientIdListNew := true, clientIdList := [] })
  | .setSystemLpcMessageLength n, s => some ((), { s with systemLpcMessageLength := n })
  | .uniqueThread, s => some (s.tid t, s)
  | .enterCriticalSection, s =>
      if s.lpCriticalSection ∧ ∀ u ∈ s.owner, u = t then
        some ((), { s with owner := t :: s.owner })
      else none
  | .leaveCriticalSection, s => some ((), { s with owner := s.owner.tail })
  | .size, s => some (s.clientIdList.length, s)
  | .at i, s => s.clientIdList[i]?.map fun e => (e, s)
  | .pushBack h dwThread, s =>
      some ((), { s with clientIdList := s.clientIdList ++ [(h, dwThread)],
                         phase := Function.update s.phase t (.between h) })
  | .erase i, s =>
      if i < s.clientIdList.length then
        some ((), { s with clientIdList := s.clientIdList.eraseIdx i,
                           phase := Function.update s.phase t .after })
      else none
  | .exitThread, s => some ((), { s with exited := Function.update s.exited t true })

end Ids

/-! ## The caller's memory, strings and everything else -/

structure Api where
  strings    : List Nat
  nextString : Nat
  strayFrees : Nat
  history    : List (Nat × Note)

inductive ApiOp where
  | sleep
  | isBadReadPtr (a n : Nat)
  | isBadWritePtr (a n : Nat)
  | loadOwn (a n : Nat)
  | storeOwn (a : Nat) (bytes : List BYTE)
  | rtlCreateUnicodeString (name : List WCHAR)
  | rtlFreeUnicodeString (us : UnicodeString)
  | routineAct
  | note (n : Note)

@[reducible] def ApiOp.Ret : ApiOp → Type
  | .isBadReadPtr .. => Bool
  | .isBadWritePtr .. => Bool
  | .loadOwn .. => List BYTE
  | .rtlCreateUnicodeString _ => UnicodeString
  | .routineAct => RoutineAct
  | _ => Unit

/-- The effect of such an operation; the caller's memory is that of the process
    itself. -/
def Api.exec {b : Build} (t : Nat) :
    (o : ApiOp) → Choice b → Api → Lpc b → Option (o.Ret × Api × Lpc b)
  | .sleep, _, s, k => some ((), s, k)
  | .isBadReadPtr a n, _, s, k =>
      some (!Lpc.accessible (k.memory k.self).readable a n, s, k)
  | .isBadWritePtr a n, _, s, k =>
      some (!Lpc.accessible (k.memory k.self).writable a n, s, k)
  | .loadOwn a n, _, s, k =>
      if Lpc.accessible (k.memory k.self).readable a n then
        some (slice (k.memory k.self).byte a n, s, k)
      else none
  | .storeOwn a bytes, _, s, k =>
      if Lpc.accessible (k.memory k.self).writable a bytes.length then
        some ((), s, k.writeMemory k.self a bytes)
      else none
  | .rtlCreateUnicodeString name, .ok, s, k =>
      -- the name and its terminator have to fit a 16-bit byte count
      if 2 * (name.length + 1) ≤ 0xFFFE then
        some (some (s.nextString, name),
          { s with strings := s.nextString :: s.strings,
                   nextString := s.nextString + 1 }, k)
      else none
  | .rtlCreateUnicodeString _, .fail _, s, k => some (none, s, k)
  | .rtlFreeUnicodeString us, _, s, k =>
      match us with
      | some (i, _) =>
          if i ∈ s.strings then some ((), { s with strings := s.strings.erase i }, k)
          else some ((), { s with strayFrees := s.strayFrees + 1 }, k)
      | none => some ((), { s with strayFrees := s.strayFrees + 1 }, k)
  | .routineAct, .act a, s, k => some (a, s, k)
  | .note n, _, s, k => some ((), { s with history := (t, n) :: s.history }, k)
  | _, _, _, _ => none

/-! ## The whole -/

/-- What a listener was started with. -/
structure Service where
  port         : Nat
  hPort        : HANDLE
  lpRoutine    : LPVOID
  lpParameters : ServiceRoutineParameter

structure World (b : Build) where
  heap     : Heap LPVOID Block
  lpc      : Lpc b
  ids      : Ids
  api      : Api
  services : Nat → Option Service
  /-- the thread has taken a connection that it may still start a worker for -/
  inFlight : Nat → Bool
  /-- the descriptor a thread has set the flag of and not read yet -/
  marked   : Nat → Option LPVOID

inductive Op where
  | heap (o : HeapOp LPVOID Block Kind)
  | kernel (o : KernelOp)
  | id (o : IdOp)
  | api (o : ApiOp)
  | loadCloseEvent (lpService : LPVOID)
  | setCloseEvent (lpService : LPVOID)
  | createThread (l : Label)

@[reducible] def Op.Ret (b : Build) : Op → Type
  | .heap o => o.Ret
  | .kernel o => o.Ret b
  | .id o => o.Ret
  | .api o => o.Ret
  | .loadCloseEvent _ => Bool
  | .setCloseEvent _ => Unit
  | .createThread _ => HANDLE

abbrev Code (b : Build) (α : Type) := Prog Op (Op.Ret b) α

/-- The memory a choice supplies. -/
def Choice.memory {b : Build} : Choice b → Option (LPVOID × Block)
  | .fresh a block => some (a, block)
  | _ => none

/-- The descriptor at an address. -/
def routineAt (h : Heap LPVOID Block) (a : LPVOID) : Option ServiceRoutine :=
  match h.cells a with
  | some (.routine r) => some r
  | _ => none

/-- The descriptor `r` at `a` gets its flag set. -/
def mark (h : Heap LPVOID Block) (a : LPVOID) (r : ServiceRoutine) : Heap LPVOID Block :=
  h.set a (some (.routine { r with closeEvent := true }))

theorem routineAt_mark (h : Heap LPVOID Block) (a : LPVOID) (r : ServiceRoutine) :
    (mark h a r).cells a = some (.routine { r with closeEvent := true }) := Heap.set_self ..

theorem routineAt_eq_some {h : Heap LPVOID Block} {a : LPVOID} {r : ServiceRoutine} :
    routineAt h a = some r ↔ h.cells a = some (.routine r) := by
  unfold routineAt
  split
  · next x hx =>
      rw [hx]
      exact ⟨fun h => congrArg (fun x => some (Block.routine x)) (Option.some.inj h),
        fun h => congrArg some (Block.routine.inj (Option.some.inj h))⟩
  · next hx =>
      constructor
      · intro h
        cases h
      · intro h
        exact absurd h (hx r)

/-- The list at an address. -/
def parametersAt (h : Heap LPVOID Block) (a : LPVOID) : Option ServiceRoutineParameter :=
  match h.cells a with
  | some (.parameters p) => some p
  | _ => none

theorem parametersAt_eq_some {h : Heap LPVOID Block} {a : LPVOID}
    {p : ServiceRoutineParameter} :
    parametersAt h a = some p ↔ h.cells a = some (.parameters p) := by
  unfold parametersAt
  split
  · next x hx =>
      rw [hx]
      exact ⟨fun h => congrArg (fun x => some (Block.parameters x)) (Option.some.inj h),
        fun h => congrArg some (Block.parameters.inj (Option.some.inj h))⟩
  · next hx =>
      constructor
      · intro h
        cases h
      · intro h
        exact absurd h (hx p)

/-- The blocks that a thread started at `l` is given, when these are the blocks
    there are. -/
def Label.given (cells : LPVOID → Option Block) : Label → List LPVOID
  | .waitThread d =>
      match cells d with
      | some (.routine r) => [d, r.lpParameters]
      | _ => [d]
  | .workerThread p =>
      match cells p with
      | some (.routine r) => [p, r.lm, r.lpParameters]
      | _ => [p]
  | _ => []

/-- What a thread started at `l` by thread `t` serves. -/
def Label.service {b : Build} (w : World b) (t : Nat) : Label → Option Service
  | .waitThread d => do
      let r ← routineAt w.heap d
      let p ← parametersAt w.heap r.lpParameters
      let x ← w.lpc.lastPort t
      return ⟨x.1, r.hPort, r.lpRoutine, p⟩
  | _ => none

/-- What is left of the port a thread has created once it starts a thread at `l`:
    a listener takes it over. -/
def Label.keeps : Label → Option (Nat × HANDLE) → Option (Nat × HANDLE)
  | .waitThread _, _ => none
  | _, x => x

/-- Thread `n` starts at `l`, with a handle and an id of its own. -/
def World.createThread {b : Build} (w : World b) (t n : Nat) (l : Label) (h : HANDLE)
    (tid : Nat) : Option (World b) :=
  if ∀ u < n, w.ids.exited u = false → w.ids.tid u ≠ tid then
    (w.lpc.newHandle h (.thread n)).map fun k =>
      { w with
        heap := w.heap.handOver n fun a => a ∈ l.given w.heap.cells
        lpc := { k with lastPort := Function.update k.lastPort t (l.keeps (k.lastPort t)) }
        ids := { w.ids with tid := Function.update w.ids.tid n tid,
                            exited := Function.update w.ids.exited n false,
                            phase := Function.update w.ids.phase n .before }
        services := Function.update w.services n (l.service w t)
        inFlight := Function.update w.inFlight t false }
  else none

/-- Whether thread `t` may still start a worker for a connection after a call. -/
def flight {b : Build} (t : Nat) (f : Nat → Bool) : (o : KernelOp) → o.Ret b → Nat → Bool
  | .ntListenPort _, r => Function.update f t (ntSuccess r.1)
  | .ntAcceptConnectPort _ _ accept, r =>
      Function.update f t (f t && accept && ntSuccess r.1)
  | .ntCompleteConnectPort _, r => Function.update f t (f t && ntSuccess r)
  | .ntReplyWaitReceivePort _, r => Function.update f t (f t && ntSuccess r.1)
  | _, _ => f

/-- The descriptor a thread has marked is no longer so once it has read it. -/
def unmark (m : Option LPVOID) : HeapOp LPVOID Block Kind → Option LPVOID
  | .load a _ => m.filter (· ≠ a)
  | _ => m

/-- The effect of an operation of thread `t` while `n` threads exist. -/
def exec {b : Build} (t n : Nat) : (o : Op) → Choice b → World b →
    Option (o.Ret b × World b × Option Label)
  | .heap o, c, w =>
      (OwnedHeap.exec (layout b) t o c.memory w.heap).map fun x =>
        (x.1, { w with heap := x.2,
                       marked := Function.update w.marked t (unmark (w.marked t) o) }, none)
  | .kernel o, c, w =>
      (Lpc.exec t o c w.lpc).map fun x =>
        (x.1, { w with lpc := x.2, inFlight := flight t w.inFlight o x.1 }, none)
  | .id o, _, w => (Ids.exec t o w.ids).map fun x => (x.1, { w with ids := x.2 }, none)
  | .api o, c, w =>
      (Api.exec t o c w.api w.lpc).map fun x =>
        (x.1, { w with api := x.2.1, lpc := x.2.2 }, none)
  | .loadCloseEvent a, c, w =>
      if a = 0 then none
      else match routineAt w.heap a, c with
        | some r, _ => some (r.closeEvent, w, none)
        | none, .flag v => some (v, { w with heap := w.heap.fault t a }, none)
        | none, _ => none
  | .setCloseEvent a, _, w =>
      if a = 0 then none
      else match routineAt w.heap a with
        | some r =>
            some ((), { w with heap := mark w.heap a r,
                               marked := Function.update w.marked t (some a) }, none)
        | none =>
            some ((), { w with heap := w.heap.fault t a,
                               marked := Function.update w.marked t (some a) }, none)
  | .createThread l, .thread h tid, w =>
      (w.createThread t n l h tid).map fun w => (h, w, some l)
  | .createThread _, .fail _, w =>
      some ((0 : Nat), { w with inFlight := Function.update w.inFlight t false }, none)
  | .createThread _, _, _ => none

/-- What happens outside the process: a client sends a message to a port, which
    has to be open for a connection request; a descriptor is marked; the memory
    of a process changes. -/
def env {b : Build} : Choice b → World b → Option (World b)
  | .send p m, w =>
      if p < w.lpc.ports ∧ (p ∈ w.lpc.closed → Lpc.isConnectionRequest m = false) then
        some { w with lpc := w.lpc.enqueue p m }
      else none
  | .setCloseEvent a, w =>
      (routineAt w.heap a).map fun r => { w with heap := mark w.heap a r }
  | .poke pid a v, w => some { w with lpc := w.lpc.writeMemory pid a [v] }
  | _, _ => none

/-- The process after `ScInitializeService`, before it registers anything: an
    empty heap, no handles, no ports. -/
def World.initialized (b : Build) : World b where
  heap := ⟨fun _ => none, fun _ => 0, []⟩
  lpc :=
    { handles := ∅
      ports := 0
      queue := fun _ => []
      pending := []
      connected := []
      replies := []
      memory := fun _ => ⟨fun _ => 0, fun _ => true, fun _ => true⟩
      self := 0
      sent := []
      closed := []
      closes := []
      lastPort := fun _ => none }
  ids :=
    { architecture := hostArchitecture b
      lpCriticalSection := true
      clientIdListNew := true
      systemLpcMessageLength := rtlSystemLpcMessageLength (hostArchitecture b)
      owner := []
      clientIdList := []
      tid := fun t => t
      exited := fun _ => false
      phase := fun _ => .before }
  api := ⟨[], 0, 0, []⟩
  services := fun _ => none
  inFlight := fun _ => false
  marked := fun _ => none

/-- The same with blocks at some addresses. -/
def World.withBlocks {b : Build} (w : World b) (blocks : List (LPVOID × Block)) :
    World b :=
  let cells a := (blocks.find? fun x => x.1 = a).map Prod.snd
  { w with heap := { w.heap with cells := cells } }

/-! ## What operations leave alone -/

section Frames

variable {b : Build} {t n : Nat} {c : Choice b} {w w' : World b} {sp : Option Label}

theorem exec_heap {o : HeapOp LPVOID Block Kind} {r : o.Ret}
    (hx : exec t n (.heap o) c w = some (r, w', sp)) :
    ∃ h, OwnedHeap.exec (layout b) t o c.memory w.heap = some (r, h)
      ∧ w' = { w with heap := h,
                      marked := Function.update w.marked t (unmark (w.marked t) o) }
      ∧ sp = none := by
  obtain ⟨x, hx', he⟩ := Option.map_eq_some_iff.mp hx
  obtain ⟨rfl, he'⟩ := Prod.mk.inj he
  obtain ⟨rfl, rfl⟩ := Prod.mk.inj he'
  exact ⟨x.2, hx', rfl, rfl⟩

theorem exec_kernel {o : KernelOp} {r : o.Ret b}
    (hx : exec t n (.kernel o) c w = some (r, w', sp)) :
    ∃ k, w.lpc.Effect t o r k
      ∧ w' = { w with lpc := k, inFlight := flight t w.inFlight o r } ∧ sp = none := by
  obtain ⟨x, hx', he⟩ := Option.map_eq_some_iff.mp hx
  obtain ⟨rfl, he'⟩ := Prod.mk.inj he
  obtain ⟨rfl, rfl⟩ := Prod.mk.inj he'
  exact ⟨x.2, Lpc.exec_effect hx', rfl, rfl⟩

theorem exec_id {o : IdOp} {r : o.Ret} (hx : exec t n (.id o) c w = some (r, w', sp)) :
    ∃ s, Ids.exec t o w.ids = some (r, s) ∧ w' = { w with ids := s } ∧ sp = none := by
  obtain ⟨x, hx', he⟩ := Option.map_eq_some_iff.mp hx
  obtain ⟨rfl, he'⟩ := Prod.mk.inj he
  obtain ⟨rfl, rfl⟩ := Prod.mk.inj he'
  exact ⟨x.2, hx', rfl, rfl⟩

/-- An operation of the last kind changes the memory of processes at most, and is
    recorded when it is a note. -/
theorem api_effect {o : ApiOp} {r : o.Ret} {a a' : Api} {k k' : Lpc b}
    (hr : Api.exec t o c a k = some (r, a', k')) :
    (∃ m, k' = { k with memory := m }) ∧ k'.access = k.access ∧
    ((a'.history = a.history ∧ ∀ x, o ≠ .note x) ∨
      ∃ x, o = .note x ∧ a'.history = (t, x) :: a.history) := by
  cases o with
  | storeOwn x bytes =>
      simp only [Api.exec] at hr
      split at hr
      · obtain ⟨-, hk⟩ := Prod.mk.inj (Option.some.inj hr)
        obtain ⟨rfl, rfl⟩ := Prod.mk.inj hk
        exact ⟨⟨_, rfl⟩, k.access_writeMemory .., Or.inl ⟨rfl, fun x h => nomatch h⟩⟩
      · exact nomatch hr
  | loadOwn x m =>
      simp only [Api.exec] at hr
      split at hr
      · obtain ⟨-, hk⟩ := Prod.mk.inj (Option.some.inj hr)
        obtain ⟨rfl, rfl⟩ := Prod.mk.inj hk
        exact ⟨⟨_, rfl⟩, rfl, Or.inl ⟨rfl, fun x h => nomatch h⟩⟩
      · exact nomatch hr
  | rtlCreateUnicodeString name =>
      cases c with
      | ok =>
          simp only [Api.exec] at hr
          split at hr
          · obtain ⟨-, hk⟩ := Prod.mk.inj (Option.some.inj hr)
            obtain ⟨rfl, rfl⟩ := Prod.mk.inj hk
            exact ⟨⟨_, rfl⟩, rfl, Or.inl ⟨rfl, fun x h => nomatch h⟩⟩
          · exact nomatch hr
      | fail st =>
          obtain ⟨-, hk⟩ := Prod.mk.inj (Option.some.inj hr)
          obtain ⟨rfl, rfl⟩ := Prod.mk.inj hk
          exact ⟨⟨_, rfl⟩, rfl, Or.inl ⟨rfl, fun x h => nomatch h⟩⟩
      | _ => exact nomatch hr
  | rtlFreeUnicodeString us =>
      cases us with
      | none =>
          obtain ⟨-, hk⟩ := Prod.mk.inj (Option.some.inj hr)
          obtain ⟨rfl, rfl⟩ := Prod.mk.inj hk
          exact ⟨⟨_, rfl⟩, rfl, Or.inl ⟨rfl, fun x h => nomatch h⟩⟩
      | some u =>
          simp only [Api.exec] at hr
          split at hr
          · obtain ⟨-, hk⟩ := Prod.mk.inj (Option.some.inj hr)
            obtain ⟨rfl, rfl⟩ := Prod.mk.inj hk
            exact ⟨⟨_, rfl⟩, rfl, Or.inl ⟨rfl, fun x h => nomatch h⟩⟩
          · obtain ⟨-, hk⟩ := Prod.mk.inj (Option.some.inj hr)
            obtain ⟨rfl, rfl⟩ := Prod.mk.inj hk
            exact ⟨⟨_, rfl⟩, rfl, Or.inl ⟨rfl, fun x h => nomatch h⟩⟩
  | routineAct =>
      cases c with
      | act a =>
          obtain ⟨-, hk⟩ := Prod.mk.inj (Option.some.inj hr)
          obtain ⟨rfl, rfl⟩ := Prod.mk.inj hk
          exact ⟨⟨_, rfl⟩, rfl, Or.inl ⟨rfl, fun x h => nomatch h⟩⟩
      | _ => exact nomatch hr
  | note x =>
      obtain ⟨-, hk⟩ := Prod.mk.inj (Option.some.inj hr)
      obtain ⟨rfl, rfl⟩ := Prod.mk.inj hk
      exact ⟨⟨_, rfl⟩, rfl, Or.inr ⟨x, rfl, rfl⟩⟩
  | _ =>
      obtain ⟨-, hk⟩ := Prod.mk.inj (Option.some.inj hr)
      obtain ⟨rfl, rfl⟩ := Prod.mk.inj hk
      exact ⟨⟨_, rfl⟩, rfl, Or.inl ⟨rfl, fun x h => nomatch h⟩⟩

theorem exec_api {o : ApiOp} {r : o.Ret} (hx : exec t n (.api o) c w = some (r, w', sp)) :
    (∃ a m, w' = { w with api := a, lpc := { w.lpc with memory := m } }) ∧ sp = none := by
  obtain ⟨⟨r', a, k⟩, hr, he⟩ := Option.map_eq_some_iff.mp hx
  obtain ⟨-, he'⟩ := Prod.mk.inj he
  obtain ⟨rfl, rfl⟩ := Prod.mk.inj he'
  obtain ⟨⟨m, rfl⟩, -⟩ := api_effect hr
  exact ⟨⟨a, m, rfl⟩, rfl⟩

theorem exec_loadCloseEvent {a : LPVOID} {r : Bool}
    (hx : exec t n (.loadCloseEvent a) c w = some (r, w', sp)) :
    a ≠ 0 ∧ sp = none ∧
      ((∃ d, routineAt w.heap a = some d ∧ r = d.closeEvent ∧ w' = w) ∨
      (routineAt w.heap a = none ∧ w' = { w with heap := w.heap.fault t a })) := by
  simp only [exec] at hx
  split at hx
  · exact nomatch hx
  · next h0 =>
      refine ⟨h0, ?_⟩
      split at hx
      · next d hd =>
          obtain ⟨rfl, he⟩ := Prod.mk.inj (Option.some.inj hx)
          obtain ⟨rfl, rfl⟩ := Prod.mk.inj he
          exact ⟨rfl, Or.inl ⟨d, hd, rfl, rfl⟩⟩
      · next hd =>
          obtain ⟨rfl, he⟩ := Prod.mk.inj (Option.some.inj hx)
          obtain ⟨rfl, rfl⟩ := Prod.mk.inj he
          exact ⟨rfl, Or.inr ⟨hd, rfl⟩⟩
      · exact nomatch hx

theorem exec_setCloseEvent {a : LPVOID} {r : Unit}
    (hx : exec t n (.setCloseEvent a) c w = some (r, w', sp)) :
    a ≠ 0 ∧ sp = none ∧
      ((∃ d, routineAt w.heap a = some d
        ∧ w' = { w with heap := mark w.heap a d,
                        marked := Function.update w.marked t (some a) }) ∨
      (routineAt w.heap a = none
        ∧ w' = { w with heap := w.heap.fault t a,
                        marked := Function.update w.marked t (some a) })) := by
  simp only [exec] at hx
  split at hx
  · exact nomatch hx
  · next h0 =>
      refine ⟨h0, ?_⟩
      split at hx
      · next d hd =>
          obtain ⟨-, he⟩ := Prod.mk.inj (Option.some.inj hx)
          obtain ⟨rfl, rfl⟩ := Prod.mk.inj he
          exact ⟨rfl, Or.inl ⟨d, hd, rfl⟩⟩
      · next hd =>
          obtain ⟨-, he⟩ := Prod.mk.inj (Option.some.inj hx)
          obtain ⟨rfl, rfl⟩ := Prod.mk.inj he
          exact ⟨rfl, Or.inr ⟨hd, rfl⟩⟩

/-- A thread is created with a new handle and an id no living thread has, or not
    at all. -/
theorem exec_createThread {l : Label} {r : HANDLE}
    (hx : exec t n (.createThread l) c w = some (r, w', sp)) :
    (r = 0 ∧ w' = { w with inFlight := Function.update w.inFlight t false } ∧ sp = none) ∨
    (∃ tid, sp = some l ∧ (r ≠ 0 ∧ w.lpc.handles.lookup r = none)
      ∧ (∀ u < n, w.ids.exited u = false → w.ids.tid u ≠ tid)
      ∧ w' = { w with
          heap := w.heap.handOver n fun a => a ∈ l.given w.heap.cells
          lpc := { w.lpc.opened r (.thread n) with
            lastPort := Function.update w.lpc.lastPort t (l.keeps (w.lpc.lastPort t)) }
          ids := { w.ids with tid := Function.update w.ids.tid n tid,
                              exited := Function.update w.ids.exited n false,
                              phase := Function.update w.ids.phase n .before }
          services := Function.update w.services n (l.service w t)
          inFlight := Function.update w.inFlight t false }) := by
  cases c with
  | thread h tid =>
      obtain ⟨w₁, hw, he⟩ := Option.map_eq_some_iff.mp hx
      obtain ⟨rfl, he'⟩ := Prod.mk.inj he
      obtain ⟨rfl, rfl⟩ := Prod.mk.inj he'
      simp only [World.createThread] at hw
      split at hw
      · next hfree =>
          obtain ⟨k, hk, rfl⟩ := Option.map_eq_some_iff.mp hw
          obtain ⟨hnew, rfl⟩ := Lpc.newHandle_eq_some hk
          exact Or.inr ⟨tid, rfl, hnew, hfree, rfl⟩
      · exact nomatch hw
  | fail st =>
      obtain ⟨rfl, he⟩ := Prod.mk.inj (Option.some.inj hx)
      obtain ⟨rfl, rfl⟩ := Prod.mk.inj he
      exact Or.inl ⟨rfl, rfl, rfl⟩
  | _ => exact nomatch hx

/-- The handle an operation gives out while `n` threads exist, and what it refers to. -/
def Grants (w : World b) (n : Nat) : (o : Op) → Op.Ret b o → HANDLE → KObject → Prop
  | .kernel o, r, h, x => w.lpc.Gives o r h x
  | .createThread _, r, h, x => h = r ∧ x = .thread n
  | _, _, _, _ => False

/-- **WHAT HAPPENS TO A HANDLE** in an operation: nothing, or it is given out anew, or
    closed. -/
theorem exec_lookup {o : Op} {r : Op.Ret b o} (hx : exec t n o c w = some (r, w', sp))
    (h : HANDLE) :
    w'.lpc.handles.lookup h = w.lpc.handles.lookup h ∨
    (h ≠ 0 ∧ w.lpc.handles.lookup h = none
      ∧ ∃ x, w'.lpc.handles.lookup h = some x ∧ Grants w n o r h x) ∨
    (o = .kernel (.ntClose h) ∧ w'.lpc.handles.lookup h = none) := by
  cases o with
  | heap o =>
      obtain ⟨h, -, rfl, -⟩ := exec_heap hx
      exact Or.inl rfl
  | kernel o =>
      obtain ⟨k, E, rfl, -⟩ := exec_kernel hx
      rcases E.lookup h with he | ⟨h0, hnone, x, hx, hg⟩ | ⟨rfl, hnone⟩
      · exact Or.inl he
      · exact Or.inr (Or.inl ⟨h0, hnone, x, hx, hg⟩)
      · exact Or.inr (Or.inr ⟨rfl, hnone⟩)
  | id o =>
      obtain ⟨s, -, rfl, -⟩ := exec_id hx
      exact Or.inl rfl
  | api o =>
      obtain ⟨⟨a, m, rfl⟩, -⟩ := exec_api hx
      exact Or.inl rfl
  | loadCloseEvent a =>
      obtain ⟨-, -, ⟨d, -, -, rfl⟩ | ⟨-, rfl⟩⟩ := exec_loadCloseEvent hx
      · exact Or.inl rfl
      · exact Or.inl rfl
  | setCloseEvent a =>
      obtain ⟨-, -, ⟨d, -, rfl⟩ | ⟨-, rfl⟩⟩ := exec_setCloseEvent hx
      · exact Or.inl rfl
      · exact Or.inl rfl
  | createThread l =>
      rcases exec_createThread hx with ⟨-, rfl, -⟩ | ⟨tid, -, hnew, -, rfl⟩
      · exact Or.inl rfl
      · have hl := w.lpc.lookup_opened r h (.thread n)
        by_cases hh : h = r
        · subst hh
          rw [if_pos rfl] at hl
          exact Or.inr (Or.inl ⟨hnew.1, hnew.2, _, hl, rfl, rfl⟩)
        · rw [if_neg hh] at hl
          exact Or.inl hl

/-- Only closing the handle of a connection port closes a port. -/
theorem exec_closed {o : Op} {r : Op.Ret b o} (hx : exec t n o c w = some (r, w', sp)) :
    w'.lpc.closed = w.lpc.closed ∨
      ∃ h p, o = .kernel (.ntClose h) ∧ w.lpc.handles.lookup h = some (.connectionPort p)
        ∧ w'.lpc.closed = p :: w.lpc.closed := by
  cases o with
  | heap o =>
      obtain ⟨h, -, rfl, -⟩ := exec_heap hx
      exact Or.inl rfl
  | kernel o =>
      obtain ⟨k, E, rfl, -⟩ := exec_kernel hx
      rcases E.ports with he | ⟨h, p, rfl, hl, he⟩
      · exact Or.inl he
      · exact Or.inr ⟨h, p, rfl, hl, he⟩
  | id o =>
      obtain ⟨s, -, rfl, -⟩ := exec_id hx
      exact Or.inl rfl
  | api o =>
      obtain ⟨⟨a, m, rfl⟩, -⟩ := exec_api hx
      exact Or.inl rfl
  | loadCloseEvent a =>
      obtain ⟨-, -, ⟨d, -, -, rfl⟩ | ⟨-, rfl⟩⟩ := exec_loadCloseEvent hx
      · exact Or.inl rfl
      · exact Or.inl rfl
  | setCloseEvent a =>
      obtain ⟨-, -, ⟨d, -, rfl⟩ | ⟨-, rfl⟩⟩ := exec_setCloseEvent hx
      · exact Or.inl rfl
      · exact Or.inl rfl
  | createThread l =>
      rcases exec_createThread hx with ⟨-, rfl, -⟩ | ⟨tid, -, -, -, rfl⟩
      · exact Or.inl rfl
      · exact Or.inl rfl

/-- Only the environment adds to a queue. -/
theorem exec_queue {o : Op} {r : Op.Ret b o} (hx : exec t n o c w = some (r, w', sp)) {q : Nat}
    {m : Message b} (hmem : m ∈ w'.lpc.queue q) : m ∈ w.lpc.queue q := by
  cases o with
  | heap o =>
      obtain ⟨h, -, rfl, -⟩ := exec_heap hx
      exact hmem
  | kernel o =>
      obtain ⟨k, E, rfl, -⟩ := exec_kernel hx
      exact E.mem_queue hmem
  | id o =>
      obtain ⟨s, -, rfl, -⟩ := exec_id hx
      exact hmem
  | api o =>
      obtain ⟨⟨a, m, rfl⟩, -⟩ := exec_api hx
      exact hmem
  | loadCloseEvent a =>
      obtain ⟨-, -, ⟨d, -, -, rfl⟩ | ⟨-, rfl⟩⟩ := exec_loadCloseEvent hx <;> exact hmem
  | setCloseEvent a =>
      obtain ⟨-, -, ⟨d, -, rfl⟩ | ⟨-, rfl⟩⟩ := exec_setCloseEvent hx <;> exact hmem
  | createThread l =>
      rcases exec_createThread hx with ⟨-, rfl, -⟩ | ⟨tid, -, -, -, rfl⟩ <;> exact hmem

/-- Only notes are recorded. -/
theorem exec_history {o : Op} {r : Op.Ret b o} (hx : exec t n o c w = some (r, w', sp)) :
    (w'.api.history = w.api.history ∧ ∀ x, o ≠ .api (.note x)) ∨
      ∃ x, o = .api (.note x) ∧ w'.api.history = (t, x) :: w.api.history := by
  cases o with
  | heap o =>
      obtain ⟨h, -, rfl, -⟩ := exec_heap hx
      exact Or.inl ⟨rfl, fun x h => nomatch h⟩
  | kernel o =>
      obtain ⟨k, -, rfl, -⟩ := exec_kernel hx
      exact Or.inl ⟨rfl, fun x h => nomatch h⟩
  | id o =>
      obtain ⟨s, -, rfl, -⟩ := exec_id hx
      exact Or.inl ⟨rfl, fun x h => nomatch h⟩
  | api o =>
      obtain ⟨⟨r', a, k⟩, hr, he⟩ := Option.map_eq_some_iff.mp hx
      obtain ⟨-, he'⟩ := Prod.mk.inj he
      obtain ⟨rfl, -⟩ := Prod.mk.inj he'
      rcases (api_effect hr).2.2 with ⟨hh, hne⟩ | ⟨x, rfl, hh⟩
      · refine Or.inl ⟨hh, ?_⟩
        rintro x ⟨rfl⟩
        exact hne x rfl
      · exact Or.inr ⟨x, rfl, hh⟩
  | loadCloseEvent a =>
      obtain ⟨-, -, ⟨d, -, -, rfl⟩ | ⟨-, rfl⟩⟩ := exec_loadCloseEvent hx
      · exact Or.inl ⟨rfl, fun x h => nomatch h⟩
      · exact Or.inl ⟨rfl, fun x h => nomatch h⟩
  | setCloseEvent a =>
      obtain ⟨-, -, ⟨d, -, rfl⟩ | ⟨-, rfl⟩⟩ := exec_setCloseEvent hx
      · exact Or.inl ⟨rfl, fun x h => nomatch h⟩
      · exact Or.inl ⟨rfl, fun x h => nomatch h⟩
  | createThread l =>
      rcases exec_createThread hx with ⟨-, rfl, -⟩ | ⟨tid, -, -, -, rfl⟩
      · exact Or.inl ⟨rfl, fun x h => nomatch h⟩
      · exact Or.inl ⟨rfl, fun x h => nomatch h⟩

/-- No operation changes which addresses can be accessed. -/
theorem exec_access {o : Op} {r : Op.Ret b o} (hx : exec t n o c w = some (r, w', sp)) :
    w'.lpc.access = w.lpc.access := by
  cases o with
  | heap o =>
      obtain ⟨h, -, rfl, -⟩ := exec_heap hx
      rfl
  | kernel o =>
      obtain ⟨k, E, rfl, -⟩ := exec_kernel hx
      exact E.access
  | id o =>
      obtain ⟨s, -, rfl, -⟩ := exec_id hx
      rfl
  | api o =>
      obtain ⟨⟨r', a, k⟩, hr, he⟩ := Option.map_eq_some_iff.mp hx
      obtain ⟨-, he'⟩ := Prod.mk.inj he
      obtain ⟨rfl, -⟩ := Prod.mk.inj he'
      exact (api_effect hr).2.1
  | loadCloseEvent a =>
      obtain ⟨-, -, ⟨d, -, -, rfl⟩ | ⟨-, rfl⟩⟩ := exec_loadCloseEvent hx
      · rfl
      · rfl
  | setCloseEvent a =>
      obtain ⟨-, -, ⟨d, -, rfl⟩ | ⟨-, rfl⟩⟩ := exec_setCloseEvent hx
      · rfl
      · rfl
  | createThread l =>
      rcases exec_createThread hx with ⟨-, rfl, -⟩ | ⟨tid, -, -, -, rfl⟩
      · rfl
      · rfl

theorem exec_pages {o : Op} {r : Op.Ret b o} (hx : exec t n o c w = some (r, w', sp)) :
    w'.lpc.pages = w.lpc.pages := congrArg Prod.fst (exec_access hx)

/-- A thread marks descriptors for itself. -/
theorem exec_marked {o : Op} {r : Op.Ret b o} (hx : exec t n o c w = some (r, w', sp))
    {u : Nat} (hu : u ≠ t) : w'.marked u = w.marked u := by
  cases o with
  | heap o =>
      obtain ⟨h, -, rfl, -⟩ := exec_heap hx
      exact Function.update_of_ne hu ..
  | kernel o =>
      obtain ⟨k, -, rfl, -⟩ := exec_kernel hx
      rfl
  | id o =>
      obtain ⟨s, -, rfl, -⟩ := exec_id hx
      rfl
  | api o =>
      obtain ⟨⟨a, m, rfl⟩, -⟩ := exec_api hx
      rfl
  | loadCloseEvent a =>
      obtain ⟨-, -, ⟨d, -, -, rfl⟩ | ⟨-, rfl⟩⟩ := exec_loadCloseEvent hx
      · rfl
      · rfl
  | setCloseEvent a =>
      obtain ⟨-, -, ⟨d, -, rfl⟩ | ⟨-, rfl⟩⟩ := exec_setCloseEvent hx
      · exact Function.update_of_ne hu ..
      · exact Function.update_of_ne hu ..
  | createThread l =>
      rcases exec_createThread hx with ⟨-, rfl, -⟩ | ⟨tid, -, -, -, rfl⟩
      · rfl
      · rfl

/-- Everything the environment does. -/
theorem env_cases (he : env c w = some w') :
    (∃ p m, c = .send p m ∧ p < w.lpc.ports
      ∧ (p ∈ w.lpc.closed → Lpc.isConnectionRequest m = false)
      ∧ w' = { w with lpc := w.lpc.enqueue p m }) ∨
    (∃ a d, c = .setCloseEvent a ∧ routineAt w.heap a = some d
      ∧ w' = { w with heap := mark w.heap a d }) ∨
    (∃ pid a v, c = .poke pid a v ∧ w' = { w with lpc := w.lpc.writeMemory pid a [v] }) := by
  cases c with
  | send p m =>
      simp only [env] at he
      split at he
      · next hc => exact Or.inl ⟨p, m, rfl, hc.1, hc.2, (Option.some.inj he).symm⟩
      · exact nomatch he
  | setCloseEvent a =>
      obtain ⟨d, hd, rfl⟩ := Option.map_eq_some_iff.mp he
      exact Or.inr (Or.inl ⟨a, d, rfl, hd, rfl⟩)
  | poke pid a v => exact Or.inr (Or.inr ⟨pid, a, v, rfl, (Option.some.inj he).symm⟩)
  | _ => exact nomatch he

end Frames

end ScSystem
