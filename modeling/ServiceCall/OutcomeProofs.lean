import ServiceCall.ProbeProofs
import ServiceCall.SharingProofs
import ServiceCall.StringProofs

/-! # What a registration and a call leave behind

    Strings, lists, ports, descriptors, threads and message buffers are acquired one
    after the other, and every exit releases those it got in a branch of its own.

    A run that fails leaves the blocks and the handles of the process as they were
    (`Restored`), and so does every call.  A registration that succeeds leaves one
    port, one descriptor, one list and one listener (`Established`). -/

namespace ScOutcome

open LinearMemory OwnedHeap OpProg ThreadSys ScParameter LpcMessage ScSystem
  ScServiceCall ScOwnership ScSequential ScProbe ScFootprint ScString

variable {b : Build} {t n : Nat}

/-! ## Probes -/

/-- The probe `x` changes nothing, and finds nothing wrong exactly when `P` holds. -/
structure Tells (t n : Nat) (x : Code b Bool) (P : World b → Prop) : Prop where
  run : ∀ {w w' : World b} {tr : Events b} {v : Bool}, x.Runs (Alone t n) w tr v w' →
    w' = w ∧ (v = false ↔ P w)

/-- Two probes, the second when the first found nothing wrong. -/
theorem Tells.orElse {x y : Code b Bool} {P P' : World b → Prop} (hx : Tells t n x P)
    (hy : Tells t n y P') : Tells t n (orElse x y) (fun w => P w ∧ P' w) := by
  constructor
  intro w w' tr v h
  obtain ⟨tr₁, tr₂, bad, w₁, -, h₁, h₂⟩ := h.bind_inv
  obtain ⟨rfl, hP⟩ := hx.run h₁
  cases bad with
  | true =>
      cases h₂
      refine ⟨rfl, iff_of_false (by simp) ?_⟩
      rintro ⟨h, -⟩
      exact absurd (hP.mpr h) (by simp)
  | false =>
      obtain ⟨rfl, hP'⟩ := hy.run h₂
      exact ⟨rfl, hP'.trans ⟨fun h => ⟨hP.mp rfl, h⟩, fun h => h.2⟩⟩

theorem tells_isBadReadPtr (a : LPVOID) (k : Nat) :
    Tells t n (isBadReadPtr a k : Code b Bool)
      (fun w => Lpc.accessible w.lpc.pages a.toNat k = true) := by
  constructor
  intro w w' tr v h
  obtain ⟨hv, rfl⟩ := isBadReadPtr_run h
  exact ⟨rfl, by rw [← hv, Bool.not_eq_false']⟩

theorem tells_isBadWritePtr (a : LPVOID) (k : Nat) :
    Tells t n (isBadWritePtr a k : Code b Bool)
      (fun w => Lpc.accessible (w.lpc.memory w.lpc.self).writable a.toNat k = true) := by
  constructor
  intro w w' tr v h
  obtain ⟨-, c, sp, hx⟩ := h.op_inv
  obtain ⟨hv, he⟩ := Prod.mk.inj (Option.some.inj hx)
  exact ⟨(Prod.mk.inj he).1.symm, by rw [← hv, Bool.not_eq_false']⟩

theorem tells_ret (v : Bool) : Tells t n (.ret v : Code b Bool) (fun _ => v = false) := by
  constructor
  intro w w' tr v' h
  cases h
  exact ⟨rfl, Iff.rfl⟩

/-- A probe of a list, whose length follows from its count. -/
theorem tells_readCount {lpParameters : LPVOID} {f : Nat → Code b Bool}
    {P : Nat → World b → Prop} (hf : ∀ k, Tells t n (f k) (P k)) :
    Tells t n (readCount (.own lpParameters) >>= f)
      (fun w => P (callerList w lpParameters).dwParameters w) := by
  constructor
  intro w w' tr v h
  obtain ⟨tr₁, tr₂, k, w₁, -, h₁, h₂⟩ := h.bind_inv
  obtain ⟨rfl, rfl⟩ := readCount_run h₁
  exact (hf _).run h₂

/-- The library was initialised. -/
def Initialized (w : World b) : Prop :=
  w.ids.lpCriticalSection = true ∧ w.ids.clientIdListNew = true

theorem tells_lpCriticalSection :
    Tells t n (do return !(← lpCriticalSection) : Code b Bool)
      (fun w => w.ids.lpCriticalSection = true) := by
  constructor
  intro w w' tr v h
  obtain ⟨tr₁, tr₂, flag, w₁, -, h₁, h₂⟩ := h.bind_inv
  obtain ⟨-, c, sp, hx⟩ := h₁.op_inv
  obtain ⟨s, hs, rfl, -⟩ := exec_id hx
  obtain ⟨rfl, rfl⟩ := Prod.mk.inj (Option.some.inj hs)
  cases h₂
  exact ⟨rfl, by rw [Bool.not_eq_false']⟩

theorem tells_clientIdListNew :
    Tells t n (do return !(← clientIdListNew) : Code b Bool)
      (fun w => w.ids.clientIdListNew = true) := by
  constructor
  intro w w' tr v h
  obtain ⟨tr₁, tr₂, flag, w₁, -, h₁, h₂⟩ := h.bind_inv
  obtain ⟨-, c, sp, hx⟩ := h₁.op_inv
  obtain ⟨s, hs, rfl, -⟩ := exec_id hx
  obtain ⟨rfl, rfl⟩ := Prod.mk.inj (Option.some.inj hs)
  cases h₂
  exact ⟨rfl, by rw [Bool.not_eq_false']⟩

theorem tells_notInitialized : Tells t n (notInitialized : Code b Bool) Initialized :=
  tells_lpCriticalSection.orElse tells_clientIdListNew

/-- What the probes of a registration find out. -/
structure RegisterProbes (w : World b) (hServiceRoutine lpServiceRoutine lpParameters : LPVOID)
    (name : Option (List WCHAR)) : Prop where
  handle  : Lpc.accessible (w.lpc.memory w.lpc.self).writable hServiceRoutine.toNat
    b.pointerSize = true
  routine : Lpc.accessible w.lpc.pages lpServiceRoutine.toNat b.pointerSize = true
  header  : Lpc.accessible w.lpc.pages lpParameters.toNat parametersOffset = true
  entries : Lpc.accessible w.lpc.pages lpParameters.toNat
    (sizeT b ((callerList w lpParameters).dwParameters * blobSize + 4)) = true
  name    : name.isNone = false

theorem tells_registerProbe (hServiceRoutine lpServiceRoutine lpParameters : LPVOID)
    (name : Option (List WCHAR)) :
    Tells t n (registerProbe hServiceRoutine lpServiceRoutine lpParameters name : Code b Bool)
      (fun w => RegisterProbes w hServiceRoutine lpServiceRoutine lpParameters name) := by
  constructor
  intro w w' tr v h
  obtain ⟨rfl, hv⟩ := ((tells_isBadWritePtr ..).orElse ((tells_isBadReadPtr ..).orElse
    ((tells_isBadReadPtr ..).orElse ((tells_readCount fun k => tells_isBadReadPtr ..).orElse
      (tells_ret _))))).run h
  refine ⟨rfl, hv.trans ?_⟩
  constructor
  · rintro ⟨h₁, h₂, h₃, h₄, h₅⟩
    exact ⟨h₁, h₂, h₃, h₄, h₅⟩
  · rintro ⟨h₁, h₂, h₃, h₄, h₅⟩
    exact ⟨h₁, h₂, h₃, h₄, h₅⟩

/-- What the probes of a call find out. -/
structure CallProbes (w : World b) (lpParameters : LPVOID) (name : Option (List WCHAR)) :
    Prop where
  count   : Lpc.accessible w.lpc.pages lpParameters.toNat 4 = true
  entries : Lpc.accessible w.lpc.pages lpParameters.toNat
    (callLength b (callerList w lpParameters).dwParameters) = true
  name    : name.isNone = false

theorem tells_callProbe (lpParameters : LPVOID) (name : Option (List WCHAR)) :
    Tells t n (callProbe name lpParameters : Code b Bool)
      (fun w => CallProbes w lpParameters name) := by
  constructor
  intro w w' tr v h
  obtain ⟨rfl, hv⟩ := ((tells_isBadReadPtr ..).orElse
    ((tells_readCount fun k => tells_isBadReadPtr ..).orElse (tells_ret _))).run h
  refine ⟨rfl, hv.trans ?_⟩
  constructor
  · rintro ⟨h₁, h₂, h₃⟩
    exact ⟨h₁, h₂, h₃⟩
  · rintro ⟨h₁, h₂, h₃⟩
    exact ⟨h₁, h₂, h₃⟩

/-- Quiet code leaves the log as it is. -/
theorem quiet_run {α : Type} {p : Code b α} (hp : p.Only Quiet) {w w' : World b}
    (tr₀ : Events b) {tr : Events b} {a : α} (h : p.Runs (Alone t n) w tr a w') :
    Local.of w' (tr₀ ++ tr) = Local.of w tr₀ :=
  solo_sound (Q := fun _ g => g = Local.of w tr₀)
    (wp_of_only hp (fun _ ho => solo_quiet.pre _ ho) (fun _ _ _ ho => solo_quiet.post ho)
      fun _ => rfl) h

/-! ## Nothing left behind -/

/-- Port `p` exists and was not closed. -/
def OpenPort (k : Lpc b) (p : Nat) : Prop := p < k.ports ∧ p ∉ k.closed

/-- The same handles are open, and the same ports. -/
structure SameObjects (k k' : Lpc b) : Prop where
  handles : ∀ h, k'.handles.lookup h = k.handles.lookup h
  ports   : ∀ p, OpenPort k' p ↔ OpenPort k p

/-- Everything that was acquired from `g₀` on was released: each block that was allocated was
    deleted, each handle that was given out was closed, no thread was started; and where
    closing succeeded the blocks, the handles and the ports are those there were. -/
structure Restored (g₀ g : Local b) : Prop where
  blocks  : g.cells = g₀.cells
  deleted : g.log.deleted = g.log.addresses
  closed  : g.log.closed.map Prod.fst = g.log.granted
  started : g.log.started = []
  objects : (∀ x ∈ g.log.closed, x.2 = true) → SameObjects g₀.lpc g.lpc

/-- Where nothing happened nothing is left. -/
theorem Restored.refl (w : World b) : Restored (Local.of w []) (Local.of w []) :=
  ⟨rfl, rfl, rfl, rfl, fun _ => ⟨fun _ => rfl, fun _ => Iff.rfl⟩⟩

/-- Closing a new handle that is not one of a port leaves the handles that there were. -/
theorem sameObjects_close {k k' : Lpc b} {h : HANDLE} {x : KObject}
    (hfree : k.handles.lookup h = none) (hx : ∀ p, x ≠ .connectionPort p)
    (hhandles : k'.handles = (k.opened h x).handles) (hports : k'.ports = k.ports)
    (hclosed : k'.closed = k.closed) : SameObjects k (k'.close t h x) := by
  constructor
  · intro h'
    rw [Lpc.lookup_close, hhandles, Lpc.lookup_opened]
    split
    · next he => rw [he, hfree]
    · rfl
  · intro p
    have hp : (k'.close t h x).ports = k'.ports := by cases x <;> rfl
    have hc : (k'.close t h x).closed = k'.closed := by
      cases x with
      | connectionPort q => exact absurd rfl (hx q)
      | _ => rfl
    rw [OpenPort, OpenPort, hp, hc, hports, hclosed]

/-- Closing the handle of a port that was just created leaves the handles and the ports that
    there were. -/
theorem sameObjects_closePort {k k' : Lpc b} {h : HANDLE} (hfree : k.handles.lookup h = none)
    (hhandles : k'.handles = (k.opened h (.connectionPort k.ports)).handles)
    (hports : k'.ports = k.ports + 1) (hclosed : k'.closed = k.closed) :
    SameObjects k (k'.close t h (.connectionPort k.ports)) := by
  constructor
  · intro h'
    rw [Lpc.lookup_close, hhandles, Lpc.lookup_opened]
    split
    · next he => rw [he, hfree]
    · rfl
  · intro p
    show p < k'.ports ∧ p ∉ k.ports :: k'.closed ↔ OpenPort k p
    rw [hports, hclosed, List.mem_cons, not_or]
    constructor
    · rintro ⟨hlt, hne, hp⟩
      exact ⟨by omega, hp⟩
    · rintro ⟨hlt, hp⟩
      exact ⟨by omega, by omega, hp⟩

/-! ## Registering -/

/-- What a registration leaves from `g₀` on that succeeded: the port of `hPort`, the descriptor
    `d` with the list `p` at `captured`, and one listener for them with the handle `hThread`. -/
structure Established (n : Nat) (hServiceRoutine lpServiceRoutine : LPVOID)
    (p : ServiceRoutineParameter) (d captured : LPVOID) (hPort hThread : HANDLE)
    (g₀ g : Local b) : Prop where
  fresh    : g₀.cells captured = none ∧ g₀.cells d = none ∧ captured ≠ d
  blocks   : g.cells = Function.update (Function.update g₀.cells captured (some (.parameters p)))
    d (some (.routine (.new hPort lpServiceRoutine captured)))
  kept     : g.log.deleted = [] ∧ g.log.closed = []
  granted  : g₀.lpc.handles.lookup hPort = none ∧ g₀.lpc.handles.lookup hThread = none
    ∧ hThread ≠ hPort
  handles  : ∀ h, g.lpc.handles.lookup h = if h = hThread then some (.thread n)
    else if h = hPort then some (.connectionPort g₀.lpc.ports) else g₀.lpc.handles.lookup h
  ports    : g.lpc.ports = g₀.lpc.ports + 1 ∧ g.lpc.closed = g₀.lpc.closed
  listener : g.log.started = [.waitThread d]
  stored   : slice (g.lpc.memory g.lpc.self).byte hServiceRoutine.toNat b.pointerSize
    = toLE b.pointerSize d.toNat

/-- The kernel once null was stored in `*hServiceRoutine`. -/
def nullStored (k : Lpc b) (hServiceRoutine : LPVOID) : Lpc b :=
  k.writeMemory k.self hServiceRoutine.toNat (toLE b.pointerSize 0)

theorem nullStored_byte (w : World b) (hServiceRoutine : LPVOID) :
    ((nullStored w.lpc hServiceRoutine).memory w.lpc.self).byte = nulled w hServiceRoutine := by
  show (Function.update w.lpc.memory w.lpc.self _ w.lpc.self).byte = _
  rw [Function.update_self]
  rfl

/-- What holds when a registration returns, once its probes have passed. -/
def Registers (n : Nat) (hServiceRoutine lpServiceRoutine : LPVOID)
    (p : ServiceRoutineParameter) (g₀ : Local b) (status : NTSTATUS) (g : Local b) : Prop :=
  (status ≠ STATUS_SUCCESS → Restored g₀ g
    ∧ g.lpc.memory = (nullStored g₀.lpc hServiceRoutine).memory) ∧
  (status = STATUS_SUCCESS → p.Valid ∧ ∃ d captured hPort hThread,
    Established n hServiceRoutine lpServiceRoutine p d captured hPort hThread g₀ g)

section Register

variable {w : World b} {hServiceRoutine lpServiceRoutine : LPVOID} {p : ServiceRoutineParameter}

/-- The state after a port was created: the list is captured, and nothing else happened. -/
structure Ported (t : Nat) (w : World b) (hServiceRoutine : LPVOID) (p : ServiceRoutineParameter)
    (captured : LPVOID) (h : HANDLE) (g : Local b) : Prop where
  new       : w.heap.cells captured = none ∧ captured ≠ 0
  free      : w.lpc.handles.lookup h = none
  blocks    : g.cells = Function.update w.heap.cells captured (some (.parameters p))
  kernel    : g.lpc = ((nullStored w.lpc hServiceRoutine).opened h
    (.connectionPort w.lpc.ports)).portCreated t h
  -- so far the list was allocated and the handle given out
  addresses : g.log.addresses = [captured]
  granted   : g.log.granted = [h]
  deleted   : g.log.deleted = []
  closed    : g.log.closed = []
  started   : g.log.started = []

/-- What `NtClose` does to an open handle. -/
theorem closing_effect {k k' : Lpc b} {h : HANDLE} {x : KObject} {st : NTSTATUS}
    (E : Lpc.Effect t k (.ntClose h) st k') (hl : k.handles.lookup h = some x) :
    k'.memory = k.memory ∧ (ntSuccess st = true → k' = k.close t h x) := by
  cases E with
  | closed hl' =>
      obtain rfl := Option.some.inj (hl.symm.trans hl')
      exact ⟨by cases x <;> rfl, fun _ => rfl⟩
  | notClosed hst =>
      refine ⟨rfl, ?_⟩
      rw [hst]
      intro h
      cases h

namespace Ported

variable {captured : LPVOID} {h : HANDLE} {g : Local b}

theorem lookup (P : Ported t w hServiceRoutine p captured h g) :
    g.lpc.handles.lookup h = some (.connectionPort w.lpc.ports) := by
  rw [P.kernel]
  show ((nullStored w.lpc hServiceRoutine).opened h _).handles.lookup h = _
  rw [Lpc.lookup_opened, if_pos rfl]

/-- A new descriptor lies elsewhere. -/
theorem apart (P : Ported t w hServiceRoutine p captured h g) {d : LPVOID} {k : Kind} {m : Nat}
    {x : Block} (hd : NewAt b k m g.cells d x) : captured ≠ d := by
  rintro rfl
  have hnew := hd.new
  rw [P.blocks, Function.update_self] at hnew
  cases hnew

end Ported

/-- A block that came and went. -/
theorem update_restore {c : Blocks} {a : LPVOID} (h : c a = none) {x : Option Block} :
    Function.update (Function.update c a x) a none = c := by
  rw [Function.update_idem, ← h, Function.update_eq_self]

theorem delete_of_ne {g : Local b} {a : LPVOID} (h : a ≠ 0) :
    g.delete a = (g.put a none).logged (g.log.delete a) := if_neg h

/-- When no thread is created, the list, the descriptor and the port go again. -/
theorem registers_noThread {captured d : LPVOID} {h : HANDLE} {g : Local b} {r : ServiceRoutine}
    (P : Ported t w hServiceRoutine p captured h g)
    (hd : NewAt b .routine 1 g.cells d (.routine r)) :
    wp (solo t n) (do
        free captured
        free d
        let _ ← ntClose h
        return STATUS_NO_MEMORY)
      (Registers n hServiceRoutine lpServiceRoutine p (Local.of w []))
      (g.allocate d 1 (.routine r)) := by
  have hne := P.apart hd
  refine solo_free ?_
  refine solo_free ?_
  rw [delete_of_ne hd.nonzero, delete_of_ne P.new.2]
  refine solo_kernel ?_
  intro st k E
  have E : Lpc.Effect t g.lpc (.ntClose h) st k := E
  refine ⟨fun _ => ⟨⟨?_, ?_, ?_, P.started, ?_⟩, ?_⟩, fun he => absurd he (by decide)⟩
  · show Function.update (Function.update (Function.update g.cells d (some (.routine r)))
      captured none) d none = w.heap.cells
    rw [Function.update_comm hne, update_restore hd.new, P.blocks, update_restore P.new.1]
  · show g.log.deleted ++ [captured] ++ [d] = (g.log.allocated ++ [(d, 1)]).map Prod.fst
    rw [P.deleted, List.map_append]
    exact congrArg (· ++ [d]) P.addresses.symm
  · show (g.log.closed ++ [(h, _)]).map Prod.fst = g.log.granted
    rw [P.closed, P.granted]
    rfl
  · intro hok
    have hst : ntSuccess st = true := hok (h, ntSuccess st) (List.mem_append_right _
      (List.mem_singleton_self _))
    obtain rfl := (closing_effect E P.lookup).2 hst
    refine sameObjects_closePort P.free ?_ ?_ ?_
    · rw [P.kernel]
      rfl
    · rw [P.kernel]
      rfl
    · rw [P.kernel]
      rfl
  · exact (closing_effect E P.lookup).1.trans (by rw [P.kernel]; rfl)

/-- What follows a port: the descriptor, and a listener for it. -/
theorem registers_listener {captured : LPVOID} {h : HANDLE} {g : Local b}
    (P : Ported t w hServiceRoutine p captured h g) (hv : p.Valid) :
    wp (solo t n) (do
        let hResult ← newRoutine (.new h lpServiceRoutine captured)
        if (← createThread (.waitThread hResult)) = 0 then
          free captured
          free hResult
          let _ ← ntClose h
          return STATUS_NO_MEMORY
        else
          storeOwn hServiceRoutine (toLE b.pointerSize hResult.toNat)
          return STATUS_SUCCESS)
      (Registers n hServiceRoutine lpServiceRoutine p (Local.of w [])) g := by
  refine solo_newRoutine ?_
  intro d hd
  refine solo_createThread ?_ ?_
  · rw [if_pos rfl]
    exact registers_noThread P hd
  intro hThread k h0 hfree
  rw [if_neg h0]
  refine solo_storeOwn ?_
  refine ⟨fun he => absurd rfl he, fun _ => ⟨hv, d, captured, h, hThread, ?_⟩⟩
  -- the port and the thread have different handles
  have hlookup := P.lookup
  have hne : hThread ≠ h := by
    rintro rfl
    exact absurd (hfree.symm.trans hlookup) (by simp)
  have hlog : ∀ L : Log, L.grant hThread = { L with granted := L.granted ++ [hThread] } :=
    fun L => Log.grant_of_ne L h0
  have hhandles : ∀ x, g.lpc.handles.lookup x = if x = h then some (.connectionPort w.lpc.ports)
      else w.lpc.handles.lookup x := by
    intro x
    rw [P.kernel]
    exact Lpc.lookup_opened ..
  constructor
  case fresh =>
      refine ⟨P.new.1, ?_, P.apart hd⟩
      rw [← hd.new, P.blocks, Function.update_of_ne (P.apart hd).symm]
      rfl
  case blocks =>
      show Function.update g.cells d _ = _
      rw [P.blocks]
      rfl
  case kept =>
      show (Log.grant _ hThread).deleted = [] ∧ (Log.grant _ hThread).closed = []
      rw [hlog]
      exact ⟨P.deleted, P.closed⟩
  case granted =>
      refine ⟨P.free, ?_, hne⟩
      rw [← hfree]
      show _ = g.lpc.handles.lookup hThread
      rw [hhandles, if_neg hne]
      rfl
  case handles =>
      intro x
      show (g.lpc.opened hThread (.thread n)).handles.lookup x = _
      rw [Lpc.lookup_opened, hhandles]
      rfl
  case ports =>
      show g.lpc.ports = _ ∧ g.lpc.closed = _
      rw [P.kernel]
      exact ⟨rfl, rfl⟩
  case listener =>
      show (Log.grant _ hThread).started = _
      rw [hlog]
      show g.log.started ++ _ = _
      rw [P.started]
      rfl
  case stored =>
      show slice (Function.update g.lpc.memory g.lpc.self _ g.lpc.self).byte _ _ = _
      rw [Function.update_self]
      exact slice_overlay_toLE ..

end Register

/-- The list that is captured: the caller's, once null was stored in `*hServiceRoutine`. -/
def storedList (w : World b) (hServiceRoutine lpParameters : LPVOID) : ServiceRoutineParameter :=
  readParameters (nulled w hServiceRoutine) lpParameters.toNat

section RegisterRun

variable {w w' : World b} {tr : Events b} {status : NTSTATUS}
  {hServiceRoutine lpServiceRoutine lpParameters : LPVOID} {name : Option (List WCHAR)}

/-- A registration from its probes on. -/
theorem solo_register :
    wp (solo t n) (do
        let us ← rtlCreateUnicodeString (rpcControl ++ name.getD [])
        storeOwn hServiceRoutine (toLE b.pointerSize 0)
        let lpCapturedParameters ← rtlCaptureParameters (.own lpParameters)
        if lpCapturedParameters = 0 then
          rtlFreeUnicodeString us
          return STATUS_INVALID_PARAMETER_3
        else
          let x ← ntCreatePort us b.ulMaxConnectionSize b.ulMaxMessageSize
          if ntSuccess x.1 then
            rtlFreeUnicodeString us
            let hResult ← newRoutine (.new x.2 lpServiceRoutine lpCapturedParameters)
            if (← createThread (.waitThread hResult)) = 0 then
              free lpCapturedParameters
              free hResult
              let _ ← ntClose x.2
              return STATUS_NO_MEMORY
            else
              storeOwn hServiceRoutine (toLE b.pointerSize hResult.toNat)
              return STATUS_SUCCESS
          else
            free lpCapturedParameters
            rtlFreeUnicodeString us
            return STATUS_OBJECT_NAME_EXISTS)
      (Registers n hServiceRoutine lpServiceRoutine
        (storedList w hServiceRoutine lpParameters) (Local.of w [])) (Local.of w []) := by
  refine solo_quiet.bind (by simp) ?_
  intro us
  refine solo_storeOwn ?_
  have hbytes : ListBytes ((Local.of w []).withLpc (nullStored w.lpc hServiceRoutine))
      (.own lpParameters) (nulled w hServiceRoutine) lpParameters.toNat :=
    ⟨(nullStored_byte ..).symm, rfl⟩
  refine solo_rtlCaptureParameters hbytes ?_ ?_
  · intro hv captured hnew
    rw [if_neg hnew.nonzero]
    refine solo_kernel ?_
    intro x k E
    cases E with
    | @created _ _ _ h hfree =>
        rw [if_pos (by rfl)]
        refine solo_quiet.bind (by simp) ?_
        intro _
        have hlog := Log.grant_of_ne ((Log.empty.allocate captured
          (readDword (nulled w hServiceRoutine) lpParameters.toNat).toNat).create
          b.ulMaxConnectionSize b.ulMaxMessageSize) hfree.1
        refine registers_listener ⟨⟨hnew.new, hnew.nonzero⟩, hfree.2, rfl, rfl, ?_, ?_, ?_, ?_,
          ?_⟩ hv
        · exact congrArg Log.addresses hlog
        · exact congrArg Log.granted hlog
        · exact congrArg Log.deleted hlog
        · exact congrArg Log.closed hlog
        · exact congrArg Log.started hlog
    | notCreated hst =>
        -- no port: the captured list is deleted again
        rw [if_neg (by simpa using hst)]
        refine solo_free ?_
        rw [delete_of_ne hnew.nonzero]
        refine solo_quiet.bind (by simp) ?_
        intro _
        refine ⟨fun _ => ⟨⟨?_, rfl, rfl, rfl, fun _ => ?_⟩, rfl⟩, fun he => absurd he (by decide)⟩
        · exact update_restore hnew.new
        · exact ⟨fun _ => rfl, fun _ => Iff.rfl⟩
  · intro _ a h0
    rw [if_pos rfl]
    refine solo_quiet.bind (by simp) ?_
    intro _
    refine ⟨fun _ => ⟨⟨rfl, rfl, rfl, rfl, fun _ => ?_⟩, rfl⟩, fun he => absurd he (by decide)⟩
    exact ⟨fun _ => rfl, fun _ => Iff.rfl⟩

/-- A registration does nothing unless its probes pass, and goes on as `Registers` says. -/
theorem registers_run
    (hrun : (scRegisterServiceRoutineW hServiceRoutine lpServiceRoutine lpParameters name
      : Code b NTSTATUS).Runs (Alone t n) w tr status w') :
    (Initialized w ∧ RegisterProbes w hServiceRoutine lpServiceRoutine lpParameters name
      ∧ Registers n hServiceRoutine lpServiceRoutine (storedList w hServiceRoutine lpParameters)
        (Local.of w []) status (Local.of w' tr)) ∨
    (¬ (Initialized w ∧ RegisterProbes w hServiceRoutine lpServiceRoutine lpParameters name)
      ∧ status ≠ STATUS_SUCCESS ∧ Local.of w' tr = Local.of w []) := by
  obtain ⟨tr₁, tr₂, no, w₁, rfl, h₁, h₂⟩ := hrun.bind_inv
  have hq₁ := quiet_run quiet_notInitialized [] h₁
  obtain ⟨rfl, hno⟩ := tells_notInitialized.run h₁
  cases no with
  | true =>
      cases h₂
      refine Or.inr ⟨?_, by decide, ?_⟩
      · rintro ⟨hi, -⟩
        exact absurd (hno.mpr hi) (by simp)
      · rw [List.append_nil]
        exact hq₁
  | false =>
      obtain ⟨tr₃, tr₄, bad, w₂, rfl, h₃, h₄⟩ := Prog.Runs.bind_inv h₂
      have hq₂ := quiet_run (quiet_registerProbe ..) tr₁ h₃
      obtain ⟨rfl, hbad⟩ := (tells_registerProbe ..).run h₃
      have hq := hq₂.trans hq₁
      cases bad with
      | true =>
          cases h₄
          refine Or.inr ⟨?_, by decide, ?_⟩
          · rintro ⟨-, hp⟩
            exact absurd (hbad.mpr hp) (by simp)
          · rw [List.append_nil]
            exact hq
      | false =>
          refine Or.inl ⟨hno.mp rfl, hbad.mp rfl, ?_⟩
          rw [← List.append_assoc]
          have hwp := @solo_register b t n w₂ hServiceRoutine lpServiceRoutine lpParameters name
          rw [← hq] at hwp ⊢
          exact solo_sound hwp h₄

/-- The bytes of `*hServiceRoutine` lie outside the list. -/
def Apart (b : Build) (hServiceRoutine lpParameters : LPVOID) (p : ServiceRoutineParameter) :
    Prop :=
  hServiceRoutine.toNat + b.pointerSize ≤ lpParameters.toNat ∨
    lpParameters.toNat + parameterBufferSize p.dwParameters ≤ hServiceRoutine.toNat

/-- Where they do, the list that is captured is the caller's. -/
theorem storedList_eq (h : Apart b hServiceRoutine lpParameters (callerList w lpParameters)) :
    storedList w hServiceRoutine lpParameters = callerList w lpParameters := by
  refine (readParameters_congr (readParameters_dwParameters ..).symm ?_).symm
  intro k hk
  refine (overlay_uncovered ?_).symm
  rintro ⟨hlo, hhi⟩
  rw [toLE_length] at hhi
  have hk : k < parameterBufferSize (callerList w lpParameters).dwParameters := hk
  rcases h with h | h <;> omega

/-- **WHAT A REGISTRATION LEAVES** on every exit: the string is freed; a registration that
    fails has released what it acquired, and has stored null when its probes had passed; one
    that succeeds leaves one port, one descriptor, one captured list and one listener. -/
theorem register_outcome
    (hrun : (scRegisterServiceRoutineW hServiceRoutine lpServiceRoutine lpParameters name
      : Code b NTSTATUS).Runs (Alone t n) w tr status w') :
    (stringsOf tr).freed = (stringsOf tr).made
    ∧ (status ≠ STATUS_SUCCESS → Restored (Local.of w []) (Local.of w' tr)
      ∧ (Initialized w → RegisterProbes w hServiceRoutine lpServiceRoutine lpParameters name →
        w'.lpc.memory = (nullStored w.lpc hServiceRoutine).memory))
    ∧ (status = STATUS_SUCCESS → ∃ p d captured hPort hThread,
      p = storedList w hServiceRoutine lpParameters
      ∧ (Apart b hServiceRoutine lpParameters (callerList w lpParameters) →
        p = callerList w lpParameters)
      ∧ Established n hServiceRoutine lpServiceRoutine p d captured hPort hThread
        (Local.of w []) (Local.of w' tr)) := by
  refine ⟨?_, ?_⟩
  · exact (oneString (fun _ _ _ _ => leaves_of_alone) (.register ..) hrun).freed
  rcases registers_run hrun with ⟨-, -, hfail, hok⟩ | ⟨hprobe, hst, hsame⟩
  · constructor
    · intro hne
      exact ⟨(hfail hne).1, fun _ _ => (hfail hne).2⟩
    · intro heq
      obtain ⟨-, d, captured, hPort, hThread, H⟩ := hok heq
      exact ⟨_, d, captured, hPort, hThread, rfl, storedList_eq, H⟩
  · constructor
    · intro _
      refine ⟨?_, fun hi hp => absurd ⟨hi, hp⟩ hprobe⟩
      rw [hsame]
      exact Restored.refl w
    · intro heq
      exact absurd heq hst

end RegisterRun

/-- No port is created: the string, the list and nothing else came and went, and null was
    stored. -/
theorem register_outcome_refused : ∃ (tr : Events .x64) (w' : World .x64),
    (scRegisterServiceRoutineW 8192 4096 4096 (some []) : Code .x64 NTSTATUS).Runs (Alone 0 1)
        (registrar .x64 1) tr STATUS_OBJECT_NAME_EXISTS w'
      ∧ (logOf tr).addresses = [32]
      ∧ Restored (Local.of (registrar .x64 1) []) (Local.of w' tr) := by
  have hrun : (perform 0 1 (scRegisterServiceRoutineW 8192 4096 4096 (some []))
      ((registers .x64 1).take 16 ++ [.fail STATUS_ACCESS_VIOLATION, .ok, .ok])
      (registrar .x64 1)).map (fun x => (x.2.1, (logOf x.1).addresses))
      = some (STATUS_OBJECT_NAME_EXISTS, [32]) := by decide +kernel
  obtain ⟨⟨tr, status, w'⟩, hrun, he⟩ := Option.map_eq_some_iff.mp hrun
  obtain ⟨rfl, haddresses⟩ := Prod.mk.inj he
  have hrun := perform_runs hrun
  exact ⟨tr, w', hrun, haddresses, ((register_outcome hrun).2.1 (by decide)).1⟩

/-- Where `*hServiceRoutine` is the count of the list itself, the empty list is served. -/
theorem register_outcome_overlap : ¬ ∀ (w w' : World .x64) (tr : Events .x64)
    (hServiceRoutine lpServiceRoutine lpParameters : LPVOID) (name : Option (List WCHAR)),
    (scRegisterServiceRoutineW hServiceRoutine lpServiceRoutine lpParameters name
      : Code .x64 NTSTATUS).Runs (Alone 0 1) w tr STATUS_SUCCESS w' →
    ∃ d, (logOf tr).started = [.waitThread d]
      ∧ Serves w' d lpServiceRoutine (callerList w lpParameters) := by
  intro h
  have hrun : (perform 0 1 (scRegisterServiceRoutineW 4096 4096 4096 (some []))
      (registers .x64 0) (registrar .x64 1)).map outcome
      = some (STATUS_SUCCESS, [16], some (.new 4 4096 32), some ⟨[]⟩) := by decide +kernel
  obtain ⟨⟨tr, status, w'⟩, hrun, he⟩ := Option.map_eq_some_iff.mp hrun
  simp only [outcome, Prod.mk.injEq] at he
  obtain ⟨rfl, hstarted, hroutine, hlist⟩ := he
  obtain ⟨d, hstart, hserves⟩ := h _ _ _ _ _ _ _ (perform_runs hrun)
  rw [hstart] at hstarted
  obtain rfl : d = 16 := List.singleton_injective hstarted
  have hcount := congrArg ServiceRoutineParameter.dwParameters (hserves.list_eq hroutine hlist)
  exact absurd hcount (by decide +kernel)

/-! ## Calling -/

/-- A pointer that may not be null, and is. -/
def nullRefused (e : ServiceParameterBlob) : Bool :=
  hasBits e.parameterMask 0b01000000 && !hasBits e.parameterMask 0b00100000
    && e.ulParameter == 0

/-- The list has an invalid mask, or null where null is not allowed. -/
def Refused (p : ServiceRoutineParameter) : Prop :=
  ∃ e ∈ p.parameters, maskRefused e.parameterMask = true ∨ nullRefused e = true

section Null

variable {α : Type} {Q : α → Local b → Prop} {g : Local b} {l : ListAddress} {m : Nat → BYTE}
  {base : Nat}

/-- The loop over the masks finds a null pointer that may not be null, if there is one. -/
theorem solo_nullLoop (h : ListBytes g l m base) {f : Bool → Code b α} :
    ∀ k i, i + k = (readParameters m base).dwParameters →
      ((∀ e ∈ (readParameters m base).parameters.drop i, nullRefused e = false) →
        wp (solo t n) (f true) Q g) →
      ((∃ e ∈ (readParameters m base).parameters.drop i, nullRefused e = true) →
        wp (solo t n) (f false) Q g) →
      wp (solo t n) (nullLoop l k i >>= f) Q g := by
  intro k
  induction k with
  | zero =>
      intro i hik hok _
      refine hok ?_
      have hlen : (readParameters m base).parameters.length ≤ i := Nat.le_of_eq hik.symm
      rw [List.drop_of_length_le hlen]
      exact fun _ he => absurd he List.not_mem_nil
  | succ k ih =>
      intro i hik hok hno
      have hi : i < (readParameters m base).dwParameters := by omega
      rw [entries_drop hi] at hok hno
      have hrest : nullRefused (readBlob m (entryAddress base i)) = false →
          wp (solo t n) (nullLoop l k (i + 1) >>= f) Q g := by
        intro hnull
        refine ih (i + 1) (by omega) ?_ ?_
        · intro hall
          exact hok (List.forall_mem_cons.mpr ⟨hnull, hall⟩)
        · rintro ⟨e, he, hbad⟩
          exact hno ⟨e, List.mem_cons_of_mem _ he, hbad⟩
      rw [nullLoop, Prog.bind_assoc]
      refine solo_readMask h ?_
      have haddress : base + (parametersOffset + blobSize * i) = entryAddress base i := rfl
      -- the mask is that of the entry
      have hmask : m (entryAddress base i) = (readBlob m (entryAddress base i)).parameterMask := rfl
      have hread := solo_readEntry (t := t) (n := n) (Q := Q) h (i := i)
        (f := fun e => (if e.ulParameter = 0 then return false else nullLoop l k (i + 1)) >>= f)
      rw [haddress] at hread
      rw [haddress, hmask]
      generalize readBlob m (entryAddress base i) = e at *
      split
      · next hptr =>
          rw [Prog.bind_assoc]
          refine hread ?_
          split
          · next h0 =>
              refine hno ⟨_, List.mem_cons_self, ?_⟩
              rw [nullRefused, hptr, Bool.true_and, beq_iff_eq]
              exact h0
          · next h0 =>
              refine hrest ?_
              rw [nullRefused, hptr, Bool.true_and, beq_eq_false_iff_ne]
              exact h0
      · next hptr =>
          refine hrest ?_
          rw [nullRefused, Bool.eq_false_iff.mpr hptr, Bool.false_and]

end Null

/-- A call that connected with the handle `h`: its trial capture at `a` came and went, and its
    buffer for messages is at `lm`. -/
structure Connected (w : World b) (a lm : LPVOID) (h : HANDLE) (g : Local b) : Prop where
  free      : w.lpc.handles.lookup h = none
  new       : w.heap.cells lm = none ∧ lm ≠ 0
  blocks    : ∃ m size, g.cells = Function.update w.heap.cells lm (some (.message m size))
  handles   : g.lpc.handles = (w.lpc.opened h .clientPort).handles
  ports     : g.lpc.ports = w.lpc.ports ∧ g.lpc.closed = w.lpc.closed
  addresses : g.log.addresses = [a, lm]
  granted   : g.log.granted = [h]
  deleted   : g.log.deleted = [a]
  closed    : g.log.closed = []
  started   : g.log.started = []

section Request

variable {w : World b} {a lm : LPVOID} {h : HANDLE} {g : Local b}

theorem Connected.lookup (C : Connected w a lm h g) :
    g.lpc.handles.lookup h = some .clientPort := by
  rw [C.handles, Lpc.lookup_opened, if_pos rfl]

/-- Another message in the buffer changes nothing else. -/
theorem Connected.put (C : Connected w a lm h g) (m : Nat → BYTE) (size : Nat) :
    Connected w a lm h (g.put lm (some (.message m size))) := by
  refine ⟨C.free, C.new, ⟨m, size, ?_⟩, C.handles, C.ports, C.addresses, C.granted, C.deleted,
    C.closed, C.started⟩
  obtain ⟨m', size', hm⟩ := C.blocks
  show Function.update g.cells lm _ = _
  rw [hm, Function.update_idem]

theorem Connected.modify (C : Connected w a lm h g) {α : Type} {Q : α → Local b → Prop}
    {u : (Nat → BYTE) → Nat → BYTE} {f : Unit → Code b α}
    (hf : ∀ g', Connected w a lm h g' → g'.lpc = g.lpc → wp (solo t n) (f ()) Q g') :
    wp (solo t n) (modifyMessage lm u >>= f) Q g := by
  obtain ⟨m, size, hm⟩ := C.blocks
  have hlm : g.cells lm = some (.message m size) := by rw [hm, Function.update_self]
  exact solo_modifyMessage hlm fun _ => hf _ (C.put ..) rfl

/-- Neither does another memory. -/
theorem Connected.remember (C : Connected w a lm h g) (memory : Nat → VirtualMemory) :
    Connected w a lm h (g.withLpc { g.lpc with memory := memory }) :=
  ⟨C.free, C.new, C.blocks, C.handles, C.ports, C.addresses, C.granted, C.deleted, C.closed,
    C.started⟩

/-- The end of a call deletes the message, and closes the handle. -/
theorem solo_requestEnd (C : Connected w a lm h g) (status : NTSTATUS) :
    wp (solo t n) (requestEnd h lm status)
      (fun st g' => st = status ∧ Restored (Local.of w []) g'
        ∧ g'.lpc.memory = g.lpc.memory) g := by
  rw [requestEnd]
  refine C.modify ?_
  intro g₁ C₁ hg₁
  obtain ⟨m, size, hm⟩ := C₁.blocks
  have hlm : g₁.cells lm = some (.message m size) := by rw [hm, Function.update_self]
  refine solo_loadMessage hlm ?_
  intro _
  refine solo_kernel ?_
  rintro st k E
  obtain rfl : k = g₁.lpc := by
    cases E
    rfl
  refine solo_free ?_
  rw [delete_of_ne C₁.new.2]
  refine solo_kernel ?_
  intro st' k E
  have E : Lpc.Effect t g₁.lpc (.ntClose h) st' k := E
  have hclose := closing_effect E C₁.lookup
  refine ⟨rfl, ⟨?_, ?_, ?_, C₁.started, ?_⟩, ?_⟩
  · show Function.update g₁.cells lm none = w.heap.cells
    rw [hm, update_restore C₁.new.1]
  · show g₁.log.deleted ++ [lm] = g₁.log.addresses
    rw [C₁.deleted, C₁.addresses]
    rfl
  · show (g₁.log.closed ++ [(h, _)]).map Prod.fst = g₁.log.granted
    rw [C₁.closed, C₁.granted]
    rfl
  · intro hok
    have hst : ntSuccess st' = true := hok (h, ntSuccess st') (List.mem_append_right _
      (List.mem_singleton_self _))
    obtain rfl := hclose.2 hst
    exact sameObjects_close C₁.free (by simp) C₁.handles C₁.ports.1 C₁.ports.2
  · exact hclose.1.trans (by rw [hg₁])

/-- The status of the reply is stored in the memory of the caller at most. -/
theorem Connected.storeStatus (C : Connected w a lm h g) {lpServiceStatus : LPVOID} {α : Type}
    {Q : α → Local b → Prop} {f : Unit → Code b α}
    (hf : ∀ g', Connected w a lm h g' → wp (solo t n) (f ()) Q g') :
    wp (solo t n) (storeStatus lm lpServiceStatus >>= f) Q g := by
  rw [ScServiceCall.storeStatus, Prog.bind_assoc]
  refine solo_quiet.bind (only_orElse (by simp) (by simp)) ?_
  intro none
  split
  · exact hf g C
  · rw [Prog.bind_assoc]
    refine solo_quiet.bind (by simp) ?_
    intro k
    obtain ⟨m, size, hm⟩ := C.blocks
    have hlm : g.cells lm = some (.message m size) := by rw [hm, Function.update_self]
    rw [Prog.bind_assoc]
    refine solo_loadMessage hlm ?_
    intro _
    exact solo_storeOwn (hf _ (C.remember _))

/-- A call from its connection on: it stores a status when it returns a success only. -/
theorem solo_serviceRequest {len : Nat} {lpServiceStatus : LPVOID}
    (hfree : w.lpc.handles.lookup h = none) (hcells : g.cells = w.heap.cells)
    (hlpc : g.lpc = w.lpc.opened h .clientPort) (haddresses : g.log.addresses = [a])
    (hgranted : g.log.granted = [h]) (hdeleted : g.log.deleted = [a])
    (hclosed : g.log.closed = []) (hstarted : g.log.started = []) :
    wp (solo t n) (serviceRequest h len lpServiceStatus) (fun status g' =>
      Restored (Local.of w []) g'
        ∧ (status ≠ STATUS_SUCCESS → g'.lpc.memory = w.lpc.memory)) g := by
  rw [serviceRequest]
  refine solo_alloc ?_
  intro lm x hnew
  obtain ⟨m, size, rfl⟩ : ∃ m size, x = .message m size := by
    cases hx : x with
    | message m size => exact ⟨m, size, rfl⟩
    | _ => cases (hx ▸ hnew.kind)
  have C : Connected w a lm h (g.allocate lm len (.message m size)) := by
    refine ⟨hfree, ⟨by rw [← hcells]; exact hnew.new, hnew.nonzero⟩, ⟨m, size, ?_⟩, ?_, ?_, ?_,
      hgranted, hdeleted, hclosed, hstarted⟩
    · show Function.update g.cells lm _ = _
      rw [hcells]
    · exact congrArg Lpc.handles hlpc
    · show g.lpc.ports = _ ∧ g.lpc.closed = _
      rw [hlpc]
      exact ⟨rfl, rfl⟩
    · show (g.log.allocated ++ [(lm, len)]).map Prod.fst = _
      rw [List.map_append]
      exact congrArg (· ++ [lm]) haddresses
  refine C.modify ?_
  intro g₁ C₁ hg₁
  refine C₁.modify ?_
  intro g₂ C₂ hg₂
  obtain ⟨m₂, size₂, hm₂⟩ := C₂.blocks
  have hlm : g₂.cells lm = some (.message m₂ size₂) := by rw [hm₂, Function.update_self]
  refine solo_loadMessage hlm ?_
  intro _
  refine solo_kernel ?_
  intro x k E
  obtain rfl : k = g₂.lpc := by
    cases E
    rfl
  have hmemory : g₂.lpc.memory = w.lpc.memory := by
    rw [hg₂, hg₁]
    show g.lpc.memory = _
    rw [hlpc]
    rfl
  -- the reply, if there is one, is written into the message
  have hreceived : ∀ g₃, Connected w a lm h g₃ → g₃.lpc = g₂.lpc →
      wp (solo t n) (do
        if ntSuccess x.1 then
          ensureMessageLength
          storeStatus lm lpServiceStatus
          requestEnd h lm STATUS_SUCCESS
        else requestEnd h lm STATUS_UNSUCCESSFUL) (fun status g' =>
        Restored (Local.of w []) g'
          ∧ (status ≠ STATUS_SUCCESS → g'.lpc.memory = w.lpc.memory)) g₃ := by
    intro g₃ C₃ hg₃
    split
    · refine solo_quiet.bind ?_ ?_
      · refine Prog.only_op_bind.mpr ⟨trivial, ?_⟩
        intro r
        split <;> simp
      intro _
      refine C₃.storeStatus ?_
      intro g₄ C₄
      refine wp_mono ?_ (solo_requestEnd C₄ STATUS_SUCCESS)
      rintro st g' ⟨rfl, hR, -⟩
      exact ⟨hR, fun hne => absurd rfl hne⟩
    · refine wp_mono ?_ (solo_requestEnd C₃ STATUS_UNSUCCESSFUL)
      rintro st g' ⟨rfl, hR, hm⟩
      exact ⟨hR, fun _ => hm.trans (by rw [hg₃, hmemory])⟩
  refine solo_receiveInto (g := g₂) hlm ?_ ?_
  · intro _
    exact hreceived g₂ C₂ rfl
  · intro m' _
    exact hreceived _ (C₂.put ..) rfl

end Request

/-- What holds when a call returns, once its probes have passed. -/
def Calls (p : ServiceRoutineParameter) (g₀ : Local b) (status : NTSTATUS) (g : Local b) : Prop :=
  Restored g₀ g ∧ (Refused p → status = STATUS_INVALID_PARAMETER_2 ∧ g.log.infos = [])
    ∧ (status ≠ STATUS_SUCCESS → g.lpc.memory = g₀.lpc.memory)

section CallRun

variable {w w' : World b} {tr : Events b} {status : NTSTATUS}
  {lpParameters lpServiceStatus : LPVOID} {name : Option (List WCHAR)}

/-- A call from its probes on. -/
theorem solo_call :
    wp (solo t n) (do
        let n ← readCount (.own lpParameters)
        let us ← rtlCreateUnicodeString (rpcControl ++ name.getD [])
        if ← nullLoop (.own lpParameters) n 0 then
          let lpCapture ← rtlCaptureParameters (.own lpParameters)
          if lpCapture = 0 then
            rtlFreeUnicodeString us
            return STATUS_INVALID_PARAMETER_2
          else
            free lpCapture
            let x ← ntConnectPort us (← loadOwn lpParameters.toNat (callLength b n))
            rtlFreeUnicodeString us
            if x.1 = STATUS_SUCCESS then serviceRequest x.2.1 x.2.2 lpServiceStatus
            else if x.1 = STATUS_PORT_CONNECTION_REFUSED then
              return STATUS_INVALID_PARAMETER_2
            else if x.1 = STATUS_OBJECT_NAME_NOT_FOUND then
              return STATUS_INVALID_PARAMETER_1
            else return STATUS_UNSUCCESSFUL
        else
          rtlFreeUnicodeString us
          return STATUS_INVALID_PARAMETER_2)
      (Calls (callerList w lpParameters) (Local.of w [])) (Local.of w []) := by
  -- the list that is probed, captured and sent is one
  have hbytes := listBytes_own (Local.of w []) lpParameters
  have hsame : ∀ {P : Prop}, P → SameObjects w.lpc w.lpc :=
    fun _ => ⟨fun _ => rfl, fun _ => Iff.rfl⟩
  have hrefused : ∀ {g : Local b}, Restored (Local.of w []) g → g.log.infos = [] →
      g.lpc.memory = w.lpc.memory →
      Calls (callerList w lpParameters) (Local.of w []) STATUS_INVALID_PARAMETER_2 g :=
    fun hR hinfos hm => ⟨hR, fun _ => ⟨rfl, hinfos⟩, fun _ => hm⟩
  refine solo_readCount hbytes ?_
  refine solo_quiet.bind (by simp) ?_
  intro us
  refine solo_nullLoop hbytes _ 0 ?_ ?_ ?_
  · rw [Nat.zero_add]
    exact (readParameters_dwParameters ..).symm
  · intro hnull
    rw [if_pos rfl]
    refine solo_rtlCaptureParameters hbytes ?_ ?_
    · intro hv a hnew
      -- nothing in the list is refused
      have hgood : ¬ Refused (callerList w lpParameters) := by
        rintro ⟨e, he, hbad | hbad⟩
        · rw [hv e he] at hbad
          cases hbad
        · rw [hnull e he] at hbad
          cases hbad
      rw [if_neg hnew.nonzero]
      refine solo_free ?_
      rw [delete_of_ne hnew.nonzero]
      refine solo_loadOwn ?_
      -- the capture is only a check: its block is gone before anything is sent
      have hcells : ∀ x, Function.update (Function.update w.heap.cells a x) a none
          = w.heap.cells := fun x => update_restore hnew.new
      refine solo_kernel ?_
      intro x k E
      refine solo_quiet.bind (by simp) ?_
      intro _
      cases E with
      | @connectedTo _ _ length h hfree =>
          rw [if_pos rfl]
          have hlog : ∀ info, Log.grant _ h = _ := fun info => Log.grant_of_ne
            (((Log.empty.allocate a (readDword (w.lpc.memory w.lpc.self).byte
              lpParameters.toNat).toNat).delete a).connect info) hfree.1
          refine wp_mono ?_ (solo_serviceRequest (a := a) hfree.2 (hcells _) rfl ?_ ?_ ?_ ?_ ?_)
          · rintro status g' ⟨hR, hm⟩
            exact ⟨hR, fun hbad => absurd hbad hgood, hm⟩
          · exact congrArg Log.addresses (hlog _)
          · exact congrArg Log.granted (hlog _)
          · exact congrArg Log.deleted (hlog _)
          · exact congrArg Log.closed (hlog _)
          · exact congrArg Log.started (hlog _)
      | @notConnected _ _ st length hst =>
          -- no connection: the status says why
          rw [if_neg hst]
          have hcalls : ∀ {g : Local b}, Restored (Local.of w []) g →
              g.lpc.memory = w.lpc.memory → ∀ st,
              Calls (callerList w lpParameters) (Local.of w []) st g :=
            fun hR hm st => ⟨hR, fun hbad => absurd hbad hgood, fun _ => hm⟩
          split
          · exact hcalls ⟨hcells _, rfl, rfl, rfl, hsame⟩ rfl _
          · split
            · exact hcalls ⟨hcells _, rfl, rfl, rfl, hsame⟩ rfl _
            · exact hcalls ⟨hcells _, rfl, rfl, rfl, hsame⟩ rfl _
    -- a mask is not valid
    · intro _ a h0
      rw [if_pos rfl]
      refine solo_quiet.bind (by simp) ?_
      intro _
      exact hrefused ⟨rfl, rfl, rfl, rfl, hsame⟩ rfl rfl
  -- a pointer is null and not nullable
  · intro _
    rw [if_neg (by simp)]
    refine solo_quiet.bind (by simp) ?_
    intro _
    exact hrefused (Restored.refl w) rfl rfl

/-- **WHAT A CALL LEAVES** on every exit: nothing; a list with an invalid mask or with null
    where null is not allowed is refused before the service is contacted, once the probes have
    passed; and memory changes only when a success is returned. -/
theorem call_outcome
    (hrun : (scServiceCallW name lpParameters lpServiceStatus : Code b NTSTATUS).Runs (Alone t n)
      w tr status w') :
    (stringsOf tr).freed = (stringsOf tr).made
    ∧ Restored (Local.of w []) (Local.of w' tr)
    ∧ (CallProbes w lpParameters name → Refused (callerList w lpParameters) →
      status = STATUS_INVALID_PARAMETER_2 ∧ (logOf tr).infos = [])
    ∧ (status ≠ STATUS_SUCCESS → w'.lpc.memory = w.lpc.memory) := by
  refine ⟨(oneString (fun _ _ _ _ => leaves_of_alone) (.call ..) hrun).freed, ?_⟩
  obtain ⟨tr₁, tr₂, bad, w₁, rfl, h₁, h₂⟩ := hrun.bind_inv
  have hquiet : Local.of w₁ ([] ++ tr₁) = Local.of w [] := quiet_run (quiet_callProbe ..) [] h₁
  obtain ⟨rfl, hbad⟩ := (tells_callProbe ..).run h₁
  cases bad with
  | true =>
      cases h₂
      rw [List.append_nil]
      refine ⟨?_, fun hp => absurd (hbad.mpr hp) (by simp), fun _ => rfl⟩
      rw [List.nil_append] at hquiet
      rw [hquiet]
      exact Restored.refl _
  | false =>
      have hwp := @solo_call b t n w₁ lpParameters lpServiceStatus name
      rw [← hquiet] at hwp ⊢
      obtain ⟨hR, hrefused, hm⟩ := solo_sound hwp h₂
      exact ⟨hR, fun _ => hrefused, hm⟩

end CallRun

/-- A dword, and a pointer to one byte. -/
def dwordAndPointer : ServiceRoutineParameter := ⟨[⟨0x84, 0, 5⟩, ⟨0x40, 1, 12288⟩]⟩

/-- A process with that list at address 4096. -/
def caller : World .x64 :=
  let w := World.initialized .x64
  let m : Nat → BYTE := fun a =>
    if 4096 ≤ a then (parameterBytes dwordAndPointer).getD (a - 4096) 0 else 0
  { w with lpc := { w.lpc with memory := fun _ => ⟨m, fun _ => true, fun _ => true⟩ } }

/-- A call of the service of the example is answered: its string, its capture, its message
    and its handle came and went. -/
theorem call_outcome_answered : ∃ (tr : Events .x64) (w' : World .x64),
    (scServiceCallW (some bsQuerySystemInformation) 4096 8192 : Code .x64 NTSTATUS).Runs
        (Alone 0 1) caller tr STATUS_SUCCESS w'
      ∧ (stringsOf tr).made ≠ [] ∧ (logOf tr).addresses = [32, 48] ∧ (logOf tr).granted = [4]
      ∧ (stringsOf tr).freed = (stringsOf tr).made
      ∧ Restored (Local.of caller []) (Local.of w' tr) := by
  have hrun : (perform 0 1 (scServiceCallW (some bsQuerySystemInformation) 4096 8192)
      (List.replicate 9 .ok ++ .fresh 32 (.parameters ⟨List.replicate 2 ⟨0, 0, 0⟩⟩)
        :: List.replicate 11 .ok ++ .connect STATUS_SUCCESS 4 100 :: .ok
        :: .fresh 48 (.message (fun _ => 0) 100)
        :: List.replicate 5 .ok ++ .reply STATUS_SUCCESS none :: List.replicate 11 .ok)
      caller).map
        (fun x => (x.2.1, decide ((stringsOf x.1).made ≠ []), (logOf x.1).addresses,
          (logOf x.1).granted))
      = some (STATUS_SUCCESS, true, [32, 48], [4]) := by decide +kernel
  obtain ⟨⟨tr, status, w'⟩, hrun, he⟩ := Option.map_eq_some_iff.mp hrun
  simp only [Prod.mk.injEq, decide_eq_true_eq] at he
  obtain ⟨rfl, hmade, haddresses, hgranted⟩ := he
  have hrun := perform_runs hrun
  obtain ⟨hfreed, hrestored, -⟩ := call_outcome hrun
  exact ⟨tr, w', hrun, hmade, haddresses, hgranted, hfreed, hrestored⟩

end ScOutcome
