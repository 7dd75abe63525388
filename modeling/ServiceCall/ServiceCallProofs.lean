import ServiceCall.SystemProofs

/-! # The code of the library

    Every function of the library as a program over the operations of
    `ScSystem`, in the order of its statements: each access to a block that is
    not a local variable is an operation of its own, conditions are evaluated
    as far as `&&` and `||` evaluate them, and loops run over their index.  A
    thread's program ends at a label where the thread goes on.

    `new` without `nothrow` ends the process when it fails, so it returns an
    address that is not null. -/

namespace ScServiceCall

open LinearMemory OwnedHeap OpProg ThreadSys ScParameter LpcMessage ScSystem

variable {b : Build}

/-! ## Operations -/

section Operations

abbrev load (a : LPVOID) (k : Kind) : Code b Block := Prog.op (Op.heap (.load a k))
abbrev store (a : LPVOID) (x : Block) : Code b Unit := Prog.op (Op.heap (.store a x))
abbrev alloc (k : Kind) (n : Nat) : Code b LPVOID := Prog.op (Op.heap (.alloc k n))
abbrev allocNothrow (k : Kind) (n : Nat) : Code b LPVOID :=
  Prog.op (Op.heap (.allocNothrow k n))
abbrev free (a : LPVOID) : Code b Unit := Prog.op (Op.heap (.free a))
abbrev loadCloseEvent (a : LPVOID) : Code b Bool := Prog.op (Op.loadCloseEvent a)
abbrev setCloseEvent (a : LPVOID) : Code b Unit := Prog.op (Op.setCloseEvent a)
abbrev createThread (l : Label) : Code b HANDLE := Prog.op (Op.createThread l)

abbrev ntCreatePort (us : UnicodeString) (maxConnectInfoLength maxDataLength : Nat) :
    Code b (NTSTATUS × HANDLE) :=
  Prog.op (Op.kernel (.ntCreatePort us maxConnectInfoLength maxDataLength))
abbrev ntListenPort (h : HANDLE) : Code b (NTSTATUS × Option (Message b)) :=
  Prog.op (Op.kernel (.ntListenPort h))
abbrev openProcess (pid : Nat) : Code b HANDLE := Prog.op (Op.kernel (.openProcess pid))
abbrev ntAcceptConnectPort (client : ClientId) (messageId : Nat) (accept : Bool) :
    Code b (NTSTATUS × HANDLE) :=
  Prog.op (Op.kernel (.ntAcceptConnectPort client messageId accept))
abbrev ntCompleteConnectPort (h : HANDLE) : Code b NTSTATUS :=
  Prog.op (Op.kernel (.ntCompleteConnectPort h))
abbrev ntReplyWaitReceivePort (h : HANDLE) : Code b (NTSTATUS × Option (Message b)) :=
  Prog.op (Op.kernel (.ntReplyWaitReceivePort h))
abbrev ntReplyWaitReplyPort (h : HANDLE) (lm : Nat → BYTE) :
    Code b (NTSTATUS × Option (Message b)) :=
  Prog.op (Op.kernel (.ntReplyWaitReplyPort h lm))
abbrev ntReadVirtualMemory (h : HANDLE) (a n : Nat) : Code b (NTSTATUS × List BYTE) :=
  Prog.op (Op.kernel (.ntReadVirtualMemory h a n))
abbrev ntWriteVirtualMemory (h : HANDLE) (a : Nat) (bytes : List BYTE) :
    Code b NTSTATUS :=
  Prog.op (Op.kernel (.ntWriteVirtualMemory h a bytes))
abbrev ntClose (h : HANDLE) : Code b NTSTATUS := Prog.op (Op.kernel (.ntClose h))
abbrev getProcessId (h : HANDLE) : Code b Nat := Prog.op (Op.kernel (.getProcessId h))
abbrev ntConnectPort (us : UnicodeString) (info : List BYTE) :
    Code b (NTSTATUS × HANDLE × Nat) :=
  Prog.op (Op.kernel (.ntConnectPort us info))
abbrev ntRequestWaitReplyPort (h : HANDLE) (lm : Nat → BYTE) :
    Code b (NTSTATUS × Option (Message b)) :=
  Prog.op (Op.kernel (.ntRequestWaitReplyPort h lm))
abbrev ntReplyPort (h : HANDLE) (lm : Nat → BYTE) : Code b NTSTATUS :=
  Prog.op (Op.kernel (.ntReplyPort h lm))

abbrev getNativeSystemInfo : Code b Architecture := Prog.op (Op.id .getNativeSystemInfo)
abbrev lpCriticalSection : Code b Bool := Prog.op (Op.id .lpCriticalSection)
abbrev clientIdListNew : Code b Bool := Prog.op (Op.id .clientIdListNew)
abbrev systemLpcMessageLength : Code b Nat := Prog.op (Op.id .systemLpcMessageLength)
abbrev setSystemLpcMessageLength (n : Nat) : Code b Unit :=
  Prog.op (Op.id (.setSystemLpcMessageLength n))
abbrev initializeCriticalSection : Code b Unit := Prog.op (Op.id .initializeCriticalSection)
abbrev newClientIdList : Code b Unit := Prog.op (Op.id .newClientIdList)
abbrev uniqueThread : Code b Nat := Prog.op (Op.id .uniqueThread)
abbrev enterCriticalSection : Code b Unit := Prog.op (Op.id .enterCriticalSection)
abbrev leaveCriticalSection : Code b Unit := Prog.op (Op.id .leaveCriticalSection)
abbrev listSize : Code b Nat := Prog.op (Op.id .size)
abbrev listAt (i : Nat) : Code b (HANDLE × Nat) := Prog.op (Op.id (.at i))
abbrev pushBack (h : HANDLE) (dwThread : Nat) : Code b Unit :=
  Prog.op (Op.id (.pushBack h dwThread))
abbrev erase (i : Nat) : Code b Unit := Prog.op (Op.id (.erase i))
abbrev exitThread : Code b Unit := Prog.op (Op.id .exitThread)

abbrev sleep : Code b Unit := Prog.op (Op.api .sleep)
abbrev isBadReadPtr (a : LPVOID) (n : Nat) : Code b Bool :=
  Prog.op (Op.api (.isBadReadPtr a.toNat n))
abbrev isBadWritePtr (a : LPVOID) (n : Nat) : Code b Bool :=
  Prog.op (Op.api (.isBadWritePtr a.toNat n))
abbrev loadOwn (a n : Nat) : Code b (List BYTE) := Prog.op (Op.api (.loadOwn a n))
abbrev storeOwn (a : LPVOID) (bytes : List BYTE) : Code b Unit :=
  Prog.op (Op.api (.storeOwn a.toNat bytes))
abbrev rtlCreateUnicodeString (name : List WCHAR) : Code b UnicodeString :=
  Prog.op (Op.api (.rtlCreateUnicodeString name))
abbrev rtlFreeUnicodeString (us : UnicodeString) : Code b Unit :=
  Prog.op (Op.api (.rtlFreeUnicodeString us))
abbrev routineAct : Code b RoutineAct := Prog.op (Op.api .routineAct)
abbrev note (n : Note) : Code b Unit := Prog.op (Op.api (.note n))

/-- `x || y` -/
def orElse (x y : Code b Bool) : Code b Bool := do
  if ← x then return true else y

/-! ### Blocks by kind -/

/-- The descriptor a block holds; only used on blocks of that kind. -/
def asRoutine : Block → ServiceRoutine
  | .routine r => r
  | _ => .new 0 0 0

def asParameters : Block → ServiceRoutineParameter
  | .parameters p => p
  | _ => ⟨[]⟩

def asMessage : Block → Nat → BYTE
  | .message lm _ => lm
  | _ => fun _ => 0

def asBuffer : Block → List BYTE
  | .buffer bytes => bytes
  | _ => []

/-- A message with its bytes changed. -/
def mapMessage (f : (Nat → BYTE) → Nat → BYTE) : Block → Block
  | .message lm n => .message (f lm) n
  | x => x

def loadRoutine (a : LPVOID) : Code b ServiceRoutine := do
  return asRoutine (← load a .routine)

def loadParameters (a : LPVOID) : Code b ServiceRoutineParameter := do
  return asParameters (← load a .parameters)

def loadMessage (a : LPVOID) : Code b (Nat → BYTE) := do
  return asMessage (← load a .message)

def loadBuffer (a : LPVOID) : Code b (List BYTE) := do
  return asBuffer (← load a .buffer)

/-- Change a descriptor of its own. -/
def modifyRoutine (a : LPVOID) (f : ServiceRoutine → ServiceRoutine) : Code b Unit := do
  let r ← loadRoutine a
  store a (.routine (f r))

/-- Change a message of its own. -/
def modifyMessage (a : LPVOID) (f : (Nat → BYTE) → Nat → BYTE) : Code b Unit := do
  let x ← load a .message
  store a (mapMessage f x)

/-- `lpParameters->Parameters[i] = e` -/
def storeEntry (a : LPVOID) (i : Nat) (e : ServiceParameterBlob) : Code b Unit := do
  let p ← loadParameters a
  store a (.parameters ⟨p.parameters.set i e⟩)

/-- `new SERVICE_ROUTINE(..)` -/
def newRoutine (r : ServiceRoutine) : Code b LPVOID := do
  let a ← alloc .routine 1
  store a (.routine r)
  return a

/-- A call that writes the message it receives into `lm`. -/
def receiveInto (lm : LPVOID) (x : NTSTATUS × Option (Message b)) :
    Code b NTSTATUS := do
  match x.2 with
  | some m =>
      modifyMessage lm (deliver · m)
      return x.1
  | none => return x.1

end Operations

/-! ## Capturing -/

/-- Where a list is read from: the memory of the caller, or a message. -/
inductive ListAddress where
  | own (a : LPVOID)
  | message (lm : LPVOID) (offset : Nat)

/-- `n` bytes of a list, from its byte `off` on. -/
def readBytes (lpParameters : ListAddress) (off n : Nat) : Code b (Nat → BYTE) :=
  match lpParameters with
  | .own a => do
      let bytes ← loadOwn (a.toNat + off) n
      return fun k => bytes.getD k 0
  | .message lm offset => do
      let m ← loadMessage lm
      return fun k => m (offset + off + k)

/-- `lpParameters->dwParameters` -/
def readCount (lpParameters : ListAddress) : Code b Nat := do
  return (readDword (← readBytes lpParameters 0 4) 0).toNat

/-- `lpParameters->Parameters[i].ParameterMask` -/
def readMask (lpParameters : ListAddress) (i : Nat) : Code b BYTE := do
  return (← readBytes lpParameters (parametersOffset + blobSize * i) 1) 0

/-- `lpParameters->Parameters[i]` -/
def readEntry (lpParameters : ListAddress) (i : Nat) : Code b ServiceParameterBlob := do
  return readBlob (← readBytes lpParameters (parametersOffset + blobSize * i) blobSize) 0

/-- The loop of `RtlCaptureParameters`, with `k` entries to go at index `i`.  The count is
    read once here, for the new list, where the source reads it again in every round: the
    two agree as long as nobody writes to the count meanwhile, as nobody does in the
    buffer of a listener. -/
def captureLoop (lpParameters : ListAddress) (lpCapturedParameters : LPVOID) :
    Nat → Nat → Code b LPVOID
  | 0, _ => return lpCapturedParameters
  | k + 1, i => do
      let cbMask ← readMask lpParameters i
      if maskRefused cbMask then
        free lpCapturedParameters
        return 0
      else
        let e ← readEntry lpParameters i
        let p ← loadParameters lpCapturedParameters
        store lpCapturedParameters (.parameters ⟨p.parameters ++ [e]⟩)
        captureLoop lpParameters lpCapturedParameters k (i + 1)

/-- `RtlCaptureParameters` -/
def rtlCaptureParameters (lpParameters : ListAddress) : Code b LPVOID := do
  let n ← readCount lpParameters
  let lpCapturedParameters ← alloc .parameters n
  store lpCapturedParameters (.parameters ⟨[]⟩)
  captureLoop lpParameters lpCapturedParameters n 0

/-! ## Mapping -/

/-- The entry with index `i` of a list; it is only read below the count. -/
def entry (p : ServiceRoutineParameter) (i : Nat) : ServiceParameterBlob :=
  p.parameters.getD i ⟨0, 0, 0⟩

/-- The loop of `RtlUnmapPtrParameters`. -/
def unmapLoop (lpParametersToUnmap : LPVOID) : Nat → Nat → Code b Unit
  | 0, _ => return ()
  | k + 1, i => do
      let e := entry (← loadParameters lpParametersToUnmap) i
      if hasBits e.parameterMask 0b01000000 && e.dwMaxBufferSize != 0
          && e.ulParameter != 0 then
        free (b.toPointer e.ulParameter)
        unmapLoop lpParametersToUnmap k (i + 1)
      else
        unmapLoop lpParametersToUnmap k (i + 1)

/-- `RtlUnmapPtrParameters` -/
def rtlUnmapPtrParameters (lpParametersToUnmap : LPVOID) : Code b Unit := do
  let p ← loadParameters lpParametersToUnmap
  unmapLoop lpParametersToUnmap p.dwParameters 0
  free lpParametersToUnmap

/-- A buffer for entry `i` and what the client has at its address: false when
    there is none, or when the client's memory cannot be read. -/
def mapBuffer (hProcess : HANDLE) (tmp : LPVOID) (i : Nat) (e : ServiceParameterBlob) :
    Code b Bool := do
  let buffer ← allocNothrow .buffer e.dwMaxBufferSize.toNat
  storeEntry tmp i { e with ulParameter := buffer }
  if buffer = 0 then return false
  else
    let x ← ntReadVirtualMemory hProcess (b.toPointer e.ulParameter).toNat
      e.dwMaxBufferSize.toNat
    if ntSuccess x.1 then
      store buffer (.buffer x.2)
      return true
    else return false

/-- One iteration of `RtlMapPtrParameters`. -/
def mapEntry (hProcess : HANDLE) (lpParametersToMap tmp : LPVOID) (i : Nat) :
    Code b Bool := do
  let e := entry (← loadParameters lpParametersToMap) i
  storeEntry tmp i e
  if hasBits e.parameterMask 0b01000000 then
    if hasBits e.parameterMask 0b00100000 then
      if e.ulParameter != 0 then mapBuffer hProcess tmp i e else return true
    else mapBuffer hProcess tmp i e
  else return true

/-- The loop of `RtlMapPtrParameters`: an entry that fails makes it undo the
    mapping and return null. -/
def mapLoop (hProcess : HANDLE) (lpParametersToMap tmp : LPVOID) :
    Nat → Nat → Code b LPVOID
  | 0, _ => return tmp
  | k + 1, i => do
      if ← mapEntry hProcess lpParametersToMap tmp i then
        mapLoop hProcess lpParametersToMap tmp k (i + 1)
      else
        note (.mapFailed tmp i)
        rtlUnmapPtrParameters tmp
        return 0

/-- `RtlMapPtrParameters` -/
def rtlMapPtrParameters (hProcess : HANDLE) (lpParametersToMap : LPVOID) :
    Code b LPVOID := do
  let p ← loadParameters lpParametersToMap
  -- the entries of the new list are what the memory happens to contain
  let tmp ← alloc .parameters p.dwParameters
  mapLoop hProcess lpParametersToMap tmp p.dwParameters 0

/-- The loop of `RtlSyncMappedPtrParameters`. -/
def syncLoop (hClientProcess : HANDLE) (lpClientPara lpMappedPara : LPVOID) :
    Nat → Nat → Code b Bool
  | 0, _ => return true
  | k + 1, i => do
      let e := entry (← loadParameters lpClientPara) i
      if hasBits e.parameterMask 0b01000000 && e.ulParameter != 0 then
        let m := entry (← loadParameters lpMappedPara) i
        let bytes ← loadBuffer (b.toPointer m.ulParameter)
        let status ← ntWriteVirtualMemory hClientProcess
          (b.toPointer e.ulParameter).toNat (bytes.take e.dwMaxBufferSize.toNat)
        if ntSuccess status then
          syncLoop hClientProcess lpClientPara lpMappedPara k (i + 1)
        else return false
      else
        syncLoop hClientProcess lpClientPara lpMappedPara k (i + 1)

/-- `RtlSyncMappedPtrParameters` -/
def rtlSyncMappedPtrParameters (hClientProcess : HANDLE)
    (lpClientPara lpMappedPara : LPVOID) : Code b Bool := do
  let p ← loadParameters lpClientPara
  syncLoop hClientProcess lpClientPara lpMappedPara p.dwParameters 0

/-! ## The client of a thread -/

/-- `!lpCriticalSection || !client_id_list` -/
def notInitialized : Code b Bool :=
  orElse (do return !(← lpCriticalSection)) (do return !(← clientIdListNew))

/-- The loop of `RtlSafeThreadServiceClientId`. -/
def clientIdLoop (dwThreadId : Nat) : Nat → Nat → Code b (NTSTATUS × HANDLE × Nat)
  | 0, _ => return (STATUS_NOT_FOUND, 0, 0)
  | k + 1, i => do
      let e ← listAt i
      if e.2 = dwThreadId then
        let pid ← getProcessId e.1
        return (STATUS_SUCCESS, e.1, pid)
      else clientIdLoop dwThreadId k (i + 1)

/-- `RtlSafeThreadServiceClientId`: the status, and what is stored through the
    two pointers when it is a success. -/
def rtlSafeThreadServiceClientId : Code b (NTSTATUS × HANDLE × Nat) := do
  let dwThreadId ← uniqueThread
  if ← notInitialized then return (STATUS_NOT_SUPPORTED, 0, 0)
  else
    enterCriticalSection
    let n ← listSize
    let result ← clientIdLoop dwThreadId n 0
    leaveCriticalSection
    return result

/-- `RtlClientId` -/
def rtlClientId : Code b (Bool × HANDLE × Nat) := do
  let result ← rtlSafeThreadServiceClientId
  return (ntSuccess result.1, result.2)

/-! ## The worker -/

/-- The loop of the 32-bit build over the captured list. -/
def normalizeLoop (lpParameters : LPVOID) : Nat → Nat → Code b Unit
  | 0, _ => return ()
  | k + 1, i => do
      let p ← loadParameters lpParameters
      storeEntry lpParameters i (normalizeBlob (entry p i))
      normalizeLoop lpParameters k (i + 1)

/-- `#ifndef _WIN64` -/
def normalize (lpService : LPVOID) : Code b Unit :=
  match b with
  | .x64 => return ()
  | .x86 => do
      let r ← loadRoutine lpService
      let p ← loadParameters r.lpParameters
      normalizeLoop r.lpParameters p.dwParameters 0

/-- The arguments `__ServiceCall` hands to the routine. -/
def arguments (b : Build) (p : ServiceRoutineParameter) : List ULONG64 :=
  p.parameters.map fun e => b.toPointer e.ulParameter

/-- Those arguments that point to a buffer. -/
def buffers (b : Build) (p : ServiceRoutineParameter) : List LPVOID :=
  p.parameters.filterMap fun e =>
    if isPtr e.parameterMask && e.ulParameter != 0 then some (b.toPointer e.ulParameter)
    else none

/-- `*LPC_MESSAGE_DATA_BUFFER(lpService->lm, PNTSTATUS) = status` -/
def setStatus (lpService : LPVOID) (status : NTSTATUS) : Code b Unit := do
  let r ← loadRoutine lpService
  let n ← systemLpcMessageLength
  modifyMessage r.lm (writeStatus n status)

/-- The loop of `WorkerThread` that takes its entry out of the list. -/
def eraseLoop (dwThread : Nat) : Nat → Nat → Code b Unit
  | 0, _ => return ()
  | k + 1, i => do
      let e ← listAt i
      if e.2 = dwThread then erase i else eraseLoop dwThread k (i + 1)

/-- The last part of `WorkerThread`: the lengths of the reply, the reply, the
    list and the releases. -/
def workerFinish (lpService : LPVOID) (dwThread : Nat) : Code b (Option Label) := do
  let n ← systemLpcMessageLength
  modifyMessage (← loadRoutine lpService).lm (writeTotalLength (n + 4))
  modifyMessage (← loadRoutine lpService).lm (writeDataLength 4)
  let r ← loadRoutine lpService
  let lm ← loadMessage r.lm
  let _ ← receiveInto r.lm (← ntReplyWaitReplyPort r.hServerPort lm)
  enterCriticalSection
  let k ← listSize
  eraseLoop dwThread k 0
  leaveCriticalSection
  let _ ← ntClose (← loadRoutine lpService).hClientProcess
  let _ ← ntClose (← loadRoutine lpService).hServerPort
  free (← loadRoutine lpService).lm
  free lpService
  exitThread
  return none

/-- `WorkerThread` up to the call of the routine. -/
def workerThread (lpService : LPVOID) : Code b (Option Label) := do
  enterCriticalSection
  let r ← loadRoutine lpService
  let dwThread ← uniqueThread
  pushBack r.hClientProcess dwThread
  leaveCriticalSection
  normalize lpService
  let r ← loadRoutine lpService
  let lpMappedParam ← rtlMapPtrParameters r.hClientProcess r.lpParameters
  if lpMappedParam = 0 then
    setStatus lpService STATUS_INVALID_PARAMETER
    workerFinish lpService dwThread
  else
    let r ← loadRoutine lpService
    let p ← loadParameters lpMappedParam
    note (.invoked r.lpRoutine (arguments b p))
    return some (.routine lpService lpMappedParam dwThread (buffers b p))

/-- A service routine writes a byte into a buffer it was given. -/
def routineWrite (bufs : List LPVOID) (i k : Nat) (v : BYTE) : Code b Unit :=
  match bufs[i]? with
  | none => return ()
  | some a => do
      let bytes ← loadBuffer a
      if k < bytes.length then store a (.buffer (bytes.set k v)) else return ()

/-- The service routine: it writes through its pointers, asks for its client any
    number of times, and returns. -/
def routine (lpService lpMappedParam : LPVOID) (dwThread : Nat) (bufs : List LPVOID) :
    Code b (Option Label) := do
  match ← routineAct with
  | .write i k v =>
      routineWrite bufs i k v
      return some (.routine lpService lpMappedParam dwThread bufs)
  | .clientId =>
      let result ← rtlSafeThreadServiceClientId
      note (.clientId result.1 result.2.1)
      return some (.routine lpService lpMappedParam dwThread bufs)
  | .ret status => return some (.workerReturn lpService lpMappedParam dwThread status)

/-- `WorkerThread` from the return of the routine on. -/
def workerReturn (lpService lpMappedParam : LPVOID) (dwThread : Nat)
    (status : NTSTATUS) : Code b (Option Label) := do
  setStatus lpService status
  let r ← loadRoutine lpService
  if ← rtlSyncMappedPtrParameters r.hClientProcess r.lpParameters lpMappedParam then
    rtlUnmapPtrParameters lpMappedParam
    workerFinish lpService dwThread
  else
    setStatus lpService STATUS_ACCESS_DENIED
    rtlUnmapPtrParameters lpMappedParam
    workerFinish lpService dwThread

/-! ## The listener -/

/-- `RtlZeroMemory` -/
def zeroMemory (n : Nat) (lm : Nat → BYTE) : Nat → BYTE :=
  fun i => if i < n then 0 else lm i

/-- `RtlCopyMemory` -/
def copyMemory (n : Nat) (src lm : Nat → BYTE) : Nat → BYTE :=
  fun i => if i < n then src i else lm i

/-- `WaitThread` up to its loop. -/
def waitThread (lpService : LPVOID) : Code b (Option Label) := do
  let lm ← alloc .message b.lpcpMaxMessageSize
  modifyMessage lm (zeroMemory b.lpcpMaxMessageSize)
  return some (.waitLoop lpService lm)

/-- The end of `WaitThread`. -/
def waitExit (lpService lm : LPVOID) : Code b (Option Label) := do
  free lm
  free (← loadRoutine lpService).lpParameters
  free lpService
  exitThread
  return none

/-- `NtAcceptConnectPort(&param->hServerPort, 0, lm, accept, ..)` -/
def acceptConnectPort (param lm : LPVOID) (accept : Bool) : Code b NTSTATUS := do
  let m ← loadMessage lm
  let x ← ntAcceptConnectPort (clientId b m) (messageId b m) accept
  if ntSuccess x.1 && accept then
    modifyRoutine param fun r => { r with hServerPort := x.2 }
    return x.1
  else return x.1

/-- The connection is refused. -/
def waitRefuse (lpService lm param : LPVOID) : Code b (Option Label) := do
  let _ ← acceptConnectPort param lm false
  if (← loadRoutine param).hClientProcess ≠ 0 then
    let _ ← ntClose (← loadRoutine param).hClientProcess
    free param
    return some (.waitLoop lpService lm)
  else
    free param
    return some (.waitLoop lpService lm)

/-- The connection is given up. -/
def waitAbandon (lpService lm param : LPVOID) : Code b (Option Label) := do
  let _ ← ntClose (← loadRoutine param).hClientProcess
  free param
  return some (.waitLoop lpService lm)

/-- The request was received: a worker gets it. -/
def waitDispatch (lpService lm param : LPVOID) (callparam : Nat) :
    Code b (Option Label) := do
  let copy ← alloc .message b.lpcpMaxMessageSize
  let m ← loadMessage lm
  modifyMessage copy (copyMemory b.lpcpMaxMessageSize m)
  modifyRoutine param fun r => { r with lm := copy }
  let captured ← rtlCaptureParameters (.message lm callparam)
  modifyRoutine param fun r => { r with lpParameters := captured }
  let _ ← createThread (.workerThread param)
  return some (.waitLoop lpService lm)

/-- `NtReplyWaitReceivePort(param->hServerPort, nullptr, nullptr, lm)` -/
def waitReceive (lpService lm param : LPVOID) (callparam : Nat) :
    Code b (Option Label) := do
  let status ← receiveInto lm
    (← ntReplyWaitReceivePort (← loadRoutine param).hServerPort)
  if ntSuccess status then waitDispatch lpService lm param callparam
  else waitAbandon lpService lm param

/-- The connection is accepted. -/
def waitAccept (lpService lm param : LPVOID) (callparam : Nat) :
    Code b (Option Label) := do
  if ntSuccess (← acceptConnectPort param lm true) then
    if ntSuccess (← ntCompleteConnectPort (← loadRoutine param).hServerPort) then
      waitReceive lpService lm param callparam
    else waitAbandon lpService lm param
  else waitAbandon lpService lm param

/-- `RtlEqualParameterType(lpService->lpParameters, callparam)` -/
def equalParameterType (lpService lm : LPVOID) (callparam : Nat) : Code b Bool := do
  let p ← loadParameters (← loadRoutine lpService).lpParameters
  let m ← loadMessage lm
  return rtlEqualParameterType p (readParameters m callparam)

/-- `!hClientProcess || !lm->u1.s1.DataLength || !RtlEqualParameterType(..)` -/
def refused (lpService lm : LPVOID) (hClientProcess : HANDLE) (m : Nat → BYTE) :
    Code b Bool :=
  orElse (return hClientProcess == 0) (orElse (return dataLength m == 0)
    (do return !(← equalParameterType lpService lm (callparam m))))

/-- A connection was taken: its client is opened, its list is looked at. -/
def waitConnection (lpService lm : LPVOID) : Code b (Option Label) := do
  let param ← newRoutine (← loadRoutine lpService)
  let m ← loadMessage lm
  -- the id is cast to a DWORD
  let hClientProcess ← openProcess ((clientId b m).uniqueProcess % 2 ^ 32)
  modifyRoutine param fun r => { r with hClientProcess := hClientProcess }
  let m ← loadMessage lm
  if ← refused lpService lm hClientProcess m then
    waitRefuse lpService lm param
  else
    waitAccept lpService lm param (callparam m)

/-- The loop of `WaitThread`. -/
def waitLoop (lpService lm : LPVOID) : Code b (Option Label) := do
  sleep
  let status ← receiveInto lm (← ntListenPort (← loadRoutine lpService).hPort)
  if ntSuccess status then waitConnection lpService lm
  else if ← loadCloseEvent lpService then waitExit lpService lm
  else return some (.waitLoop lpService lm)

/-! ## The calls of the library -/

/-- `ScInitializeService` -/
def scInitializeService : Code b NTSTATUS := do
  if ← lpCriticalSection then return STATUS_SUCCESS
  else
    initializeCriticalSection
    newClientIdList
    setSystemLpcMessageLength (rtlSystemLpcMessageLength (← getNativeSystemInfo))
    return STATUS_SUCCESS

/-- `L"\\RPC Control\\"` -/
def rpcControl : List WCHAR :=
  "\\RPC Control\\".toList.map fun c => UInt16.ofNat c.toNat

/-- Arithmetic on `size_t`. -/
def sizeT (b : Build) (n : Nat) : Nat := n % 256 ^ b.pointerSize

/-- The probes of `ScRegisterServiceRoutineW`: true when one of them fails. -/
def registerProbe (hServiceRoutine lpServiceRoutine lpParameters : LPVOID)
    (lpRoutineName : Option (List WCHAR)) : Code b Bool :=
  orElse (isBadWritePtr hServiceRoutine b.pointerSize)
    (orElse (isBadReadPtr lpServiceRoutine b.pointerSize)
    (orElse (isBadReadPtr lpParameters parametersOffset)
    (orElse (do
      let n ← readCount (.own lpParameters)
      isBadReadPtr lpParameters (sizeT b (n * blobSize + 4)))
    (return lpRoutineName.isNone))))

/-- `ScRegisterServiceRoutineW` -/
def scRegisterServiceRoutineW (hServiceRoutine lpServiceRoutine lpParameters : LPVOID)
    (lpRoutineName : Option (List WCHAR)) : Code b NTSTATUS := do
  if ← notInitialized then return STATUS_NOT_SUPPORTED
  else if ← registerProbe hServiceRoutine lpServiceRoutine lpParameters lpRoutineName then
    return STATUS_ACCESS_VIOLATION
  else
    let us ← rtlCreateUnicodeString (rpcControl ++ lpRoutineName.getD [])
    storeOwn hServiceRoutine (toLE b.pointerSize 0)
    let lpCapturedParameters ← rtlCaptureParameters (.own lpParameters)
    if lpCapturedParameters = 0 then
      rtlFreeUnicodeString us
      return STATUS_INVALID_PARAMETER_3
    else
      let x ← ntCreatePort us b.ulMaxConnectionSize b.ulMaxMessageSize
      if ntSuccess x.1 then
        rtlFreeUnicodeString us
        let hResult ← newRoutine (.new x.2 lpServiceRoutine lpCapturedParameters)
        if (← createThread (.waitThread hResult)) = 0 then
          free lpCapturedParameters
          free hResult
          let _ ← ntClose x.2
          return STATUS_NO_MEMORY
        else
          storeOwn hServiceRoutine (toLE b.pointerSize hResult.toNat)
          return STATUS_SUCCESS
      else
        free lpCapturedParameters
        rtlFreeUnicodeString us
        return STATUS_OBJECT_NAME_EXISTS

/-- `sizeof(SERVICE_ROUTINE)` -/
def serviceRoutineSize (b : Build) : Nat := 7 * b.pointerSize

/-- The probes of `ScUnregisterServiceRoutine`.  The whole disjunction stands
    inside the call of the first `IsBadReadPtr` and becomes the number of bytes
    it looks at. -/
def unregisterProbe (lpService : LPVOID) : Code b Bool := do
  let length ← orElse (return serviceRoutineSize b != 0) (orElse (do
      isBadReadPtr (← loadRoutine lpService).lpParameters b.pointerSize) (do
      let p ← loadParameters (← loadRoutine lpService).lpParameters
      isBadReadPtr (← loadRoutine lpService).lpParameters
        (sizeT b (p.dwParameters * blobSize + 4))))
  isBadReadPtr lpService length.toNat

/-- `ScUnregisterServiceRoutine` -/
def scUnregisterServiceRoutine (lpService : LPVOID) : Code b NTSTATUS := do
  if ← unregisterProbe lpService then return STATUS_ACCESS_VIOLATION
  else
    setCloseEvent lpService
    let status ← ntClose (← loadRoutine lpService).hPort
    return if ntSuccess status then STATUS_SUCCESS else STATUS_INVALID_PARAMETER

/-- The loop of `ScServiceCallW` over the masks: false when a pointer that may
    not be null is null. -/
def nullLoop (lpParameters : ListAddress) : Nat → Nat → Code b Bool
  | 0, _ => return true
  | k + 1, i => do
      let cbMask ← readMask lpParameters i
      if hasBits cbMask 0b01000000 && !hasBits cbMask 0b00100000 then
        if (← readEntry lpParameters i).ulParameter = 0 then return false
        else nullLoop lpParameters k (i + 1)
      else nullLoop lpParameters k (i + 1)

/-- `if (!system_lpc_message_length) system_lpc_message_length = ..` -/
def ensureMessageLength : Code b Unit := do
  if (← systemLpcMessageLength) = 0 then
    setSystemLpcMessageLength (rtlSystemLpcMessageLength (← getNativeSystemInfo))
  else return ()

/-- The status of the reply is stored, where there is a place for it. -/
def storeStatus (lm lpServiceStatus : LPVOID) : Code b Unit := do
  if ← orElse (return lpServiceStatus == 0) (isBadWritePtr lpServiceStatus 4) then
    return ()
  else
    let n ← systemLpcMessageLength
    storeOwn lpServiceStatus (toLE 4 (readStatus n (← loadMessage lm)).toNat)

/-- The end of `ScServiceCallW`. -/
def requestEnd (hPort : HANDLE) (lm : LPVOID) (status : NTSTATUS) : Code b NTSTATUS := do
  modifyMessage lm (writeDataLength 0)
  let _ ← ntReplyPort hPort (← loadMessage lm)
  free lm
  let _ ← ntClose hPort
  return status

/-- `ScServiceCallW` from the connection on. -/
def serviceRequest (hPort : HANDLE) (len : Nat) (lpServiceStatus : LPVOID) :
    Code b NTSTATUS := do
  let lm ← alloc .message len
  modifyMessage lm (zeroMemory len)
  modifyMessage lm (writeTotalLength len)
  let m ← loadMessage lm
  if ntSuccess (← receiveInto lm (← ntRequestWaitReplyPort hPort m)) then
    ensureMessageLength
    storeStatus lm lpServiceStatus
    requestEnd hPort lm STATUS_SUCCESS
  else requestEnd hPort lm STATUS_UNSUCCESSFUL

/-- `length`, computed in `size_t` for a list of `n` entries and stored in an
    `ULONG`. -/
def callLength (b : Build) (n : Nat) : Nat := sizeT b (n * blobSize + parametersOffset) % 2 ^ 32

/-- The probes of `ScServiceCallW`: true when one of them fails. -/
def callProbe (lpServiceName : Option (List WCHAR)) (lpParameters : LPVOID) : Code b Bool :=
  orElse (isBadReadPtr lpParameters 4)
    (orElse (do
      let n ← readCount (.own lpParameters)
      isBadReadPtr lpParameters (callLength b n))
    (return lpServiceName.isNone))

/-- `ScServiceCallW` -/
def scServiceCallW (lpServiceName : Option (List WCHAR)) (lpParameters : LPVOID)
    (lpServiceStatus : LPVOID) : Code b NTSTATUS := do
  if ← callProbe lpServiceName lpParameters then return STATUS_ACCESS_VIOLATION
  else
    let n ← readCount (.own lpParameters)
    let us ← rtlCreateUnicodeString (rpcControl ++ lpServiceName.getD [])
    if ← nullLoop (.own lpParameters) n 0 then
      let lpCapture ← rtlCaptureParameters (.own lpParameters)
      if lpCapture = 0 then
        rtlFreeUnicodeString us
        return STATUS_INVALID_PARAMETER_2
      else
        free lpCapture
        let x ← ntConnectPort us (← loadOwn lpParameters.toNat (callLength b n))
        rtlFreeUnicodeString us
        if x.1 = STATUS_SUCCESS then serviceRequest x.2.1 x.2.2 lpServiceStatus
        else if x.1 = STATUS_PORT_CONNECTION_REFUSED then
          return STATUS_INVALID_PARAMETER_2
        else if x.1 = STATUS_OBJECT_NAME_NOT_FOUND then
          return STATUS_INVALID_PARAMETER_1
        else return STATUS_UNSUCCESSFUL
    else
      rtlFreeUnicodeString us
      return STATUS_INVALID_PARAMETER_2

/-! ## The system -/

/-- One call of an application thread. -/
def makeCall : Call → Code b Unit
  | .register hServiceRoutine lpServiceRoutine lpParameters name => do
      let status ← scRegisterServiceRoutineW hServiceRoutine lpServiceRoutine
        lpParameters name
      note (.returned (.register hServiceRoutine lpServiceRoutine lpParameters name)
        status)
  | .unregister h => do
      let status ← scUnregisterServiceRoutine h
      note (.returned (.unregister h) status)
  | .clientId => do
      let result ← rtlSafeThreadServiceClientId
      note (.clientId result.1 result.2.1)
      note (.returned .clientId result.1)

/-- An application thread makes its calls one after the other. -/
def app : List Call → Code b (Option Label)
  | [] => do
      exitThread
      return none
  | c :: calls => do
      note (.called c)
      makeCall c
      return some (.app calls)

/-- The program at each label. -/
def code : Label → Code b (Option Label)
  | .waitThread lpService => waitThread lpService
  | .waitLoop lpService lm => waitLoop lpService lm
  | .workerThread lpService => workerThread lpService
  | .routine lpService lpMappedParam dwThread bufs =>
      routine lpService lpMappedParam dwThread bufs
  | .workerReturn lpService lpMappedParam dwThread status =>
      workerReturn lpService lpMappedParam dwThread status
  | .app calls => app calls

/-- The service process with everything around it. -/
def system (b : Build) : Sys Op (Op.Ret b) Label (World b) (Choice b) where
  code := code
  exec := exec
  env := env

/-- A state of the system. -/
abbrev State (b : Build) := Config Op (Op.Ret b) Label (World b)

theorem only_orElse {S : Op → Prop} {x y : Code b Bool} (hx : x.Only S)
    (hy : y.Only S) : (orElse x y).Only S := by
  refine hx.bind ?_
  intro v
  cases v with
  | true => trivial
  | false => exact hy

/-! ## What functions keep to -/

section Access

variable {S : Op → Prop} {a : LPVOID}

@[simp] theorem only_loadRoutine : (loadRoutine a : Code b _).Only S ↔
    S (.heap (.load a .routine)) := by simp [loadRoutine]

@[simp] theorem only_loadParameters : (loadParameters a : Code b _).Only S ↔
    S (.heap (.load a .parameters)) := by simp [loadParameters]

@[simp] theorem only_loadMessage : (loadMessage a : Code b _).Only S ↔
    S (.heap (.load a .message)) := by simp [loadMessage]

@[simp] theorem only_loadBuffer : (loadBuffer a : Code b _).Only S ↔
    S (.heap (.load a .buffer)) := by simp [loadBuffer]

@[simp] theorem only_modifyRoutine {f : ServiceRoutine → ServiceRoutine} :
    (modifyRoutine a f : Code b Unit).Only S ↔ S (.heap (.load a .routine))
      ∧ ∀ x, S (.heap (.store a (.routine (f (asRoutine x))))) := by
  simp [modifyRoutine, loadRoutine]

@[simp] theorem only_modifyMessage {f : (Nat → BYTE) → Nat → BYTE} :
    (modifyMessage a f : Code b Unit).Only S ↔ S (.heap (.load a .message))
      ∧ ∀ x, S (.heap (.store a (mapMessage f x))) := by
  simp [modifyMessage]

@[simp] theorem only_storeEntry {i : Nat} {e : ServiceParameterBlob} :
    (storeEntry a i e : Code b Unit).Only S ↔ S (.heap (.load a .parameters))
      ∧ ∀ x, S (.heap (.store a (.parameters ⟨(asParameters x).parameters.set i e⟩))) := by
  simp [storeEntry, loadParameters]

@[simp] theorem only_newRoutine {r : ServiceRoutine} :
    (newRoutine r : Code b LPVOID).Only S ↔ S (.heap (.alloc .routine 1))
      ∧ ∀ x, S (.heap (.store x (.routine r))) := by
  simp [newRoutine]

theorem only_receiveInto (hload : S (.heap (.load a .message)))
    (hstore : ∀ x, S (.heap (.store a x))) (x : NTSTATUS × Option (Message b)) :
    (receiveInto a x : Code b NTSTATUS).Only S := by
  unfold receiveInto
  split
  · exact (only_modifyMessage.mpr ⟨hload, fun _ => hstore _⟩).bind fun _ => trivial
  · trivial

theorem only_setStatus (hload : ∀ a k, S (.heap (.load a k)))
    (hlength : S (.id .systemLpcMessageLength)) (hstore : ∀ a x, S (.heap (.store a x)))
    (status : NTSTATUS) : (setStatus a status : Code b Unit).Only S :=
  (only_loadRoutine.mpr (hload ..)).bind fun _ =>
    ⟨hlength, fun _ => only_modifyMessage.mpr ⟨hload .., fun _ => hstore ..⟩⟩

theorem only_unmapLoop (hload : S (.heap (.load a .parameters)))
    (hfree : ∀ x, S (.heap (.free x))) (k i : Nat) :
    (unmapLoop a k i : Code b Unit).Only S := by
  induction k generalizing i with
  | zero => trivial
  | succ k ih =>
      refine (only_loadParameters.mpr hload).bind fun p => ?_
      dsimp only
      split
      · exact ⟨hfree _, fun _ => ih (i + 1)⟩
      · exact ih (i + 1)

theorem only_rtlUnmapPtrParameters (hload : S (.heap (.load a .parameters)))
    (hfree : ∀ x, S (.heap (.free x))) : (rtlUnmapPtrParameters a : Code b Unit).Only S :=
  (only_loadParameters.mpr hload).bind fun _ =>
    (only_unmapLoop hload hfree ..).bind fun _ => ⟨hfree a, fun _ => trivial⟩

end Access

/-- Blocks and the memory of the caller are read. -/
@[simp] def Fetches : Op → Prop
  | .heap (.load ..) => True
  | .api (.loadOwn ..) => True
  | _ => False

/-- Blocks are used, and the memory of the caller is read. -/
@[simp] def OnBlocks : Op → Prop
  | .heap _ => True
  | .api (.loadOwn ..) => True
  | _ => False

/-- Blocks are used, and copied from and to the memory of the process with the handle `h`. -/
@[simp] def Copies (h : HANDLE) : Op → Prop
  | .heap _ => True
  | .kernel (.ntReadVirtualMemory h' ..) => h' = h
  | .kernel (.ntWriteVirtualMemory h' ..) => h' = h
  | .api (.note (.mapFailed ..)) => True
  | .api (.loadOwn ..) => True
  | _ => False

/-- The operations that open or close no handle, take no message, start no
    thread and leave the list of client ids alone. -/
@[simp] def Inner : Op → Prop
  | .heap _ => True
  | .loadCloseEvent _ => True
  | .setCloseEvent _ => True
  | .createThread _ => False
  | .kernel o =>
      match o with
      | .ntCompleteConnectPort _ => True
      | .ntReplyWaitReplyPort .. => True
      | .ntReadVirtualMemory .. => True
      | .ntWriteVirtualMemory .. => True
      | .getProcessId _ => True
      | _ => False
  | .id o =>
      match o with
      | .systemLpcMessageLength => True
      | _ => False
  | .api o =>
      match o with
      | .routineAct => False
      | .note (.mapFailed ..) => True
      | .note _ => False
      | _ => True

theorem Fetches.onBlocks {o : Op} (ho : Fetches o) : OnBlocks o := by
  cases o with
  | heap o => trivial
  | api o => cases o <;> trivial
  | _ => exact ho.elim

theorem OnBlocks.copies {o : Op} (ho : OnBlocks o) (h : HANDLE) : Copies h o := by
  cases o with
  | heap o => trivial
  | api o => cases o <;> trivial
  | _ => exact ho.elim

theorem Copies.inner {h : HANDLE} {o : Op} (ho : Copies h o) : Inner o := by
  cases o with
  | heap o => trivial
  | kernel o => cases o <;> trivial
  | api o =>
      cases o with
      | note x => cases x <;> trivial
      | _ => trivial
  | _ => exact ho.elim

section Fetches

variable (lpParameters : ListAddress)

theorem fetches_readBytes (off n : Nat) :
    (readBytes lpParameters off n : Code b (Nat → BYTE)).Only Fetches := by
  cases lpParameters <;> simp [readBytes, loadMessage]

theorem fetches_readCount : (readCount lpParameters : Code b Nat).Only Fetches :=
  (fetches_readBytes ..).bind fun _ => trivial

theorem fetches_readMask (i : Nat) : (readMask lpParameters i : Code b BYTE).Only Fetches :=
  (fetches_readBytes ..).bind fun _ => trivial

theorem fetches_readEntry (i : Nat) :
    (readEntry lpParameters i : Code b ServiceParameterBlob).Only Fetches :=
  (fetches_readBytes ..).bind fun _ => trivial

theorem fetches_nullLoop (k i : Nat) :
    (nullLoop lpParameters k i : Code b Bool).Only Fetches := by
  induction k generalizing i with
  | zero => trivial
  | succ k ih =>
      refine (fetches_readMask ..).bind fun cbMask => ?_
      split
      · refine (fetches_readEntry ..).bind fun e => ?_
        split
        · trivial
        · exact ih (i + 1)
      · exact ih (i + 1)

theorem fetches_equalParameterType (lpService lm : LPVOID) (callparam : Nat) :
    (equalParameterType lpService lm callparam : Code b Bool).Only Fetches :=
  (only_loadRoutine.mpr trivial).bind fun _ => (only_loadParameters.mpr trivial).bind fun _ =>
    (only_loadMessage.mpr trivial).bind fun _ => trivial

theorem fetches_refused (lpService lm : LPVOID) (h : HANDLE) (m : Nat → BYTE) :
    (refused lpService lm h m : Code b Bool).Only Fetches :=
  only_orElse trivial (only_orElse trivial
    ((fetches_equalParameterType ..).bind fun _ => trivial))

end Fetches

section OnBlocks

theorem onBlocks_receiveInto (lm : LPVOID) (x : NTSTATUS × Option (Message b)) :
    (receiveInto lm x : Code b NTSTATUS).Only OnBlocks :=
  only_receiveInto trivial (fun _ => trivial) x

/-- A capture reads its list, and changes or frees the block it captures into. -/
theorem only_captureLoop {S : Op → Prop} {a : LPVOID} (hfetch : ∀ o, Fetches o → S o)
    (hstore : ∀ x, S (.heap (.store a x))) (hfree : S (.heap (.free a)))
    (lpParameters : ListAddress) (k i : Nat) :
    (captureLoop lpParameters a k i : Code b LPVOID).Only S := by
  induction k generalizing i with
  | zero => trivial
  | succ k ih =>
      refine ((fetches_readMask ..).mono hfetch).bind fun cbMask => ?_
      split
      · exact ⟨hfree, fun _ => trivial⟩
      · refine ((fetches_readEntry ..).mono hfetch).bind fun e => ?_
        refine (only_loadParameters.mpr (hfetch _ trivial)).bind fun p => ?_
        exact ⟨hstore _, fun _ => ih (i + 1)⟩

theorem onBlocks_rtlCaptureParameters (lpParameters : ListAddress) :
    (rtlCaptureParameters lpParameters : Code b LPVOID).Only OnBlocks :=
  ((fetches_readCount _).mono fun _ => Fetches.onBlocks).bind fun _ =>
    ⟨trivial, fun _ => ⟨trivial, fun _ =>
      only_captureLoop (fun _ => Fetches.onBlocks) (fun _ => trivial) trivial ..⟩⟩

theorem onBlocks_rtlUnmapPtrParameters (a : LPVOID) :
    (rtlUnmapPtrParameters a : Code b Unit).Only OnBlocks :=
  only_rtlUnmapPtrParameters trivial fun _ => trivial

theorem onBlocks_normalizeLoop (a : LPVOID) (k i : Nat) :
    (normalizeLoop a k i : Code b Unit).Only OnBlocks := by
  induction k generalizing i with
  | zero => trivial
  | succ k ih =>
      exact (only_loadParameters.mpr trivial).bind fun p =>
        (only_storeEntry.mpr ⟨trivial, fun _ => trivial⟩).bind fun _ => ih (i + 1)

theorem onBlocks_normalize (lpService : LPVOID) :
    (normalize lpService : Code b Unit).Only OnBlocks := by
  unfold ScServiceCall.normalize
  cases b with
  | x64 => trivial
  | x86 =>
      exact (only_loadRoutine.mpr trivial).bind fun r =>
        (only_loadParameters.mpr trivial).bind fun p => onBlocks_normalizeLoop ..

theorem onBlocks_routineWrite (bufs : List LPVOID) (i k : Nat) (v : BYTE) :
    (routineWrite bufs i k v : Code b Unit).Only OnBlocks := by
  unfold routineWrite
  split
  · trivial
  · refine (only_loadBuffer.mpr trivial).bind fun bytes => ?_
    split
    · exact ⟨trivial, fun _ => trivial⟩
    · trivial

end OnBlocks

section Copies

variable (h : HANDLE)

theorem copies_mapBuffer (tmp : LPVOID) (i : Nat) (e : ServiceParameterBlob) :
    (mapBuffer h tmp i e : Code b Bool).Only (Copies h) := by
  refine ⟨trivial, fun buffer => ?_⟩
  refine (only_storeEntry.mpr ⟨trivial, fun _ => trivial⟩).bind fun _ => ?_
  split
  · trivial
  · refine Prog.only_op_bind.mpr ⟨rfl, fun x => ?_⟩
    split
    · exact ⟨trivial, fun _ => trivial⟩
    · trivial

theorem copies_mapEntry (src tmp : LPVOID) (i : Nat) :
    (mapEntry h src tmp i : Code b Bool).Only (Copies h) := by
  refine (only_loadParameters.mpr trivial).bind fun p => ?_
  refine (only_storeEntry.mpr ⟨trivial, fun _ => trivial⟩).bind fun _ => ?_
  split
  · split
    · split
      · exact copies_mapBuffer ..
      · trivial
    · exact copies_mapBuffer ..
  · trivial

theorem copies_mapLoop (src tmp : LPVOID) (k i : Nat) :
    (mapLoop h src tmp k i : Code b LPVOID).Only (Copies h) := by
  induction k generalizing i with
  | zero => trivial
  | succ k ih =>
      refine (copies_mapEntry ..).bind fun ok => ?_
      split
      · exact ih (i + 1)
      · have hunmap := (onBlocks_rtlUnmapPtrParameters (b := b) tmp).mono fun _ ho => ho.copies h
        exact ⟨trivial, fun _ => hunmap.bind fun _ => trivial⟩

/-- A mapping reads through the handle it is given. -/
theorem copies_rtlMapPtrParameters (src : LPVOID) :
    (rtlMapPtrParameters h src : Code b LPVOID).Only (Copies h) :=
  (only_loadParameters.mpr trivial).bind fun _ => ⟨trivial, fun _ => copies_mapLoop ..⟩

theorem copies_syncLoop (c m : LPVOID) (k i : Nat) :
    (syncLoop h c m k i : Code b Bool).Only (Copies h) := by
  induction k generalizing i with
  | zero => trivial
  | succ k ih =>
      refine (only_loadParameters.mpr trivial).bind fun p => ?_
      dsimp only
      split
      · refine (only_loadParameters.mpr trivial).bind fun q => ?_
        refine (only_loadBuffer.mpr trivial).bind fun bytes => ?_
        refine Prog.only_op_bind.mpr ⟨rfl, fun status => ?_⟩
        split
        · exact ih (i + 1)
        · trivial
      · exact ih (i + 1)

/-- Writing back goes through the handle it is given. -/
theorem copies_rtlSyncMappedPtrParameters (c m : LPVOID) :
    (rtlSyncMappedPtrParameters h c m : Code b Bool).Only (Copies h) :=
  (only_loadParameters.mpr trivial).bind fun _ => copies_syncLoop ..

end Copies

section Inner

variable {α : Type} {p : Code b α}

theorem inner_of_copies {h : HANDLE} (hp : p.Only (Copies h)) : p.Only Inner :=
  hp.mono fun _ => Copies.inner

theorem inner_of_onBlocks (hp : p.Only OnBlocks) : p.Only Inner :=
  hp.mono fun _ ho => (ho.copies 0).inner

theorem inner_of_fetches (hp : p.Only Fetches) : p.Only Inner :=
  inner_of_onBlocks (hp.mono fun _ => Fetches.onBlocks)

@[simp] theorem inner_receiveInto (lm : LPVOID) (x : NTSTATUS × Option (Message b)) :
    (receiveInto lm x : Code b NTSTATUS).Only Inner :=
  inner_of_onBlocks (onBlocks_receiveInto ..)

@[simp] theorem inner_rtlCaptureParameters (lpParameters : ListAddress) :
    (rtlCaptureParameters lpParameters : Code b LPVOID).Only Inner :=
  inner_of_onBlocks (onBlocks_rtlCaptureParameters _)

@[simp] theorem inner_rtlMapPtrParameters (h : HANDLE) (src : LPVOID) :
    (rtlMapPtrParameters h src : Code b LPVOID).Only Inner :=
  inner_of_copies (copies_rtlMapPtrParameters ..)

@[simp] theorem inner_rtlSyncMappedPtrParameters (h : HANDLE) (c m : LPVOID) :
    (rtlSyncMappedPtrParameters h c m : Code b Bool).Only Inner :=
  inner_of_copies (copies_rtlSyncMappedPtrParameters ..)

@[simp] theorem inner_rtlUnmapPtrParameters (a : LPVOID) :
    (rtlUnmapPtrParameters a : Code b Unit).Only Inner :=
  inner_of_onBlocks (onBlocks_rtlUnmapPtrParameters _)

@[simp] theorem inner_normalize (lpService : LPVOID) :
    (normalize lpService : Code b Unit).Only Inner :=
  inner_of_onBlocks (onBlocks_normalize _)

@[simp] theorem inner_routineWrite (bufs : List LPVOID) (i k : Nat) (v : BYTE) :
    (routineWrite bufs i k v : Code b Unit).Only Inner :=
  inner_of_onBlocks (onBlocks_routineWrite ..)

@[simp] theorem inner_refused (lpService lm : LPVOID) (h : HANDLE) (m : Nat → BYTE) :
    (refused lpService lm h m : Code b Bool).Only Inner :=
  inner_of_fetches (fetches_refused ..)

@[simp] theorem inner_setStatus (lpService : LPVOID) (status : NTSTATUS) :
    (setStatus lpService status : Code b Unit).Only Inner :=
  only_setStatus (fun _ _ => trivial) trivial (fun _ _ => trivial) status

@[simp] theorem inner_registerProbe (hServiceRoutine lpServiceRoutine
    lpParameters : LPVOID) (name : Option (List WCHAR)) :
    (registerProbe hServiceRoutine lpServiceRoutine lpParameters name
      : Code b Bool).Only Inner := by
  refine only_orElse (by simp) (only_orElse (by simp) (only_orElse (by simp)
    (only_orElse ?_ trivial)))
  exact (inner_of_fetches (fetches_readCount _)).bind fun n => by simp

/-- The size of a descriptor is not zero, so a single byte of it is probed. -/
theorem unregisterProbe_eq (lpService : LPVOID) :
    (unregisterProbe lpService : Code b Bool) = isBadReadPtr lpService 1 := by
  have hsize : (serviceRoutineSize b != 0) = true := by cases b <;> rfl
  simp only [unregisterProbe, orElse, hsize, Prog.pure_eq, Prog.bind_ret, if_true]
  rfl

@[simp] theorem inner_unregisterProbe (lpService : LPVOID) :
    (unregisterProbe lpService : Code b Bool).Only Inner := by
  rw [unregisterProbe_eq]
  simp

end Inner

end ScServiceCall
