import ServiceCall.ReleaseProofs

/-! # After a service was unregistered

    `ScUnregisterServiceRoutine` closes the port of the service and returns.  The
    listener may have taken a connection before, and a worker may not have called
    the routine yet; nobody waits for them (`unregister_overtaken`).  When the call
    returns while every thread listens, or has called the routine already, no call of
    the routine begins any more: the port has no request left and gets none, so
    `NtListenPort` does not succeed again.  `invokes_no_more` follows one call and says
    what happens after it; `unregister_stops` reads the history of a whole run, with
    any number of calls at once.

    The threads are checked against a small outline of their own.  It says where
    workers are started and routines called (`Begins`), and what a call of
    `ScUnregisterServiceRoutine` has closed when it returns a success. -/

namespace ScQuiesce

open LinearMemory OwnedHeap OpProg ThreadSys ScParameter LpcMessage ScSystem
  ScServiceCall ScOwnership

variable {b : Build} {α β : Type}

/-! ## The outline -/

/-- A worker is started, or calls the routine. -/
def Begins : Op → Prop
  | .createThread _ => True
  | .api (.note (.invoked ..)) => True
  | _ => False

/-- `NtListenPort` -/
def Listens : Op → Prop
  | .kernel (.ntListenPort _) => True
  | _ => False

/-- How far `ScUnregisterServiceRoutine` has come: it has set the flag of a
    descriptor, read the handle in it, closed this handle. -/
inductive Reading where
  | nothing
  | asked (lpService : LPVOID)
  | read (lpService : LPVOID) (hPort : HANDLE)
  | closed (lpService : LPVOID)

namespace Reading

def load : Reading → LPVOID → Kind → Block → Reading
  | asked d, a, k, x =>
      if a = d then if k = .routine then read d (asRoutine x).hPort else nothing
      else asked d
  | s, _, _, _ => s

def close : Reading → HANDLE → Bool → Reading
  | read d hPort, h, ok => if ok = true ∧ h = hPort then closed d else nothing
  | s, _, _ => s

end Reading

/-- What a thread knows: whether it may start a worker or call the routine, and how
    far its call has come. -/
structure Ghost where
  mayBegin : Bool
  call     : Reading

namespace Ghost

/-- What it knows after an operation. -/
def next (g : Ghost) : (o : Op) → Op.Ret b o → Ghost
  | .heap (.load a k), x => { g with call := g.call.load a k x }
  | .setCloseEvent a, _ => { g with call := .asked a }
  | .kernel (.ntListenPort _), r => { g with mayBegin := ntSuccess r.1 }
  | .kernel (.ntClose h), st => { g with call := g.call.close h (ntSuccess st) }
  | .api (.note (.called _)), _ => { g with call := .nothing }
  | _, _ => g

/-- The thread may begin nothing. -/
def idle (g : Ghost) : Ghost := { g with mayBegin := false }

end Ghost

/-- What has to hold where an operation is performed; nobody registers a service. -/
def Pre : Op → Ghost → Prop
  | .createThread l, g => g.mayBegin = true ∧ ∃ param, l = .workerThread param
  | .kernel (.ntCreatePort ..), _ => False
  | .api (.note (.invoked ..)), g => g.mayBegin = true
  | .api (.note (.returned (.unregister d) status)), g =>
      status = STATUS_SUCCESS → g.call = .closed d
  | _, _ => True

/-- The outline of the threads of one service. -/
def outline (b : Build) : Outline Op (Op.Ret b) Ghost where
  pre := Pre
  post o g r g' := g' = g.next o r

def isRegister : Call → Bool
  | .register .. => true
  | _ => false

/-- What holds where a label is entered: a worker has yet to call its routine. -/
def Entry : Label → Ghost → Prop
  | .workerThread _, g => g.mayBegin = true
  | .app calls, _ => ∀ c ∈ calls, isRegister c = false
  | _, _ => True

/-- Labels that are jumped to are not those of a new thread. -/
def Goto : Label → Ghost → Prop
  | .waitThread _, _ => False
  | .workerThread _, _ => False
  | l, g => Entry l g

/-! ## The code meets the outline -/

/-- The operations that are always allowed and do not take a connection. -/
@[simp] def Idle : Op → Prop
  | .createThread _ => False
  | .kernel o =>
      match o with
      | .ntCreatePort .. => False
      | .ntListenPort _ => False
      | _ => True
  | .api o =>
      match o with
      | .note (.invoked ..) => False
      | .note (.returned (.unregister _) _) => False
      | _ => True
  | _ => True

/-- The operations of a thread that may begin. -/
@[simp] def Busy (o : Op) : Prop :=
  Idle o ∨ (∃ param, o = .createThread (.workerThread param))
    ∨ ∃ f args, o = .api (.note (.invoked f args))

theorem idle_inner {o : Op} (ho : Inner o) : Idle o := by
  cases o with
  | createThread l => exact ho.elim
  | kernel o => cases o <;> first | exact trivial | exact ho.elim
  | api o =>
      cases o with
      | note x => cases x <;> first | exact trivial | exact ho.elim
      | _ => exact trivial
  | _ => exact trivial

theorem idle_of_silent {o : Op} (ho : Silent o) : Idle o := by
  cases o with
  | kernel o => cases o <;> first | exact trivial | exact ho.elim
  | api o =>
      cases o with
      | note x => cases x <;> first | exact trivial | exact ho.elim
      | _ => exact trivial
  | id o => exact trivial
  | _ => exact ho.elim

/-- Such an operation leaves open whether the thread may begin. -/
theorem next_mayBegin {g : Ghost} {o : Op} (ho : Busy o) (r : Op.Ret b o) :
    (g.next o r).mayBegin = g.mayBegin := by
  rcases ho with ho | ⟨param, rfl⟩ | ⟨f, args, rfl⟩
  · cases o with
    | heap o => cases o <;> rfl
    | kernel o => cases o <;> first | rfl | exact ho.elim
    | api o =>
        cases o with
        | note x => cases x <;> rfl
        | _ => rfl
    | _ => rfl
  · rfl
  · rfl

theorem pre_idle {g : Ghost} {o : Op} (ho : Idle o) : Pre o g := by
  cases o with
  | createThread l => exact ho.elim
  | kernel o => cases o <;> first | exact trivial | exact ho.elim
  | api o =>
      cases o with
      | note x =>
          cases x with
          | returned c st => cases c <;> first | exact trivial | exact ho.elim
          | _ => first | exact trivial | exact ho.elim
      | _ => exact trivial
  | _ => exact trivial

theorem pre_busy {g : Ghost} (hg : g.mayBegin = true) {o : Op} (ho : Busy o) : Pre o g := by
  rcases ho with ho | ⟨param, rfl⟩ | ⟨f, args, rfl⟩
  · exact pre_idle ho
  · exact ⟨hg, param, rfl⟩
  · exact hg

section Programs

variable {p : Code b α} {T : α → Prop} {Q : α → Ghost → Prop} {g : Ghost}

/-- A program that neither begins nor listens. -/
theorem wp_idle (hp : p.Only Idle) (hT : p.Returns T)
    (hQ : ∀ a g', T a → g'.mayBegin = g.mayBegin → Q a g') : wp (outline b) p Q g := by
  refine wp_invariant_returns (I := fun g' => g'.mayBegin = g.mayBegin) hp hT
    (fun _ _ ho _ => pre_idle ho) ?_ rfl hQ
  rintro o g₁ r _ ho h rfl
  rw [next_mayBegin (Or.inl ho), h]

/-- A program of a thread that may begin. -/
theorem wp_busy (hg : g.mayBegin = true) (hp : p.Only Busy) (hT : p.Returns T)
    (hQ : ∀ a g', T a → Q a g') : wp (outline b) p Q g := by
  refine wp_invariant_returns (I := fun g' => g'.mayBegin = true) hp hT
    (fun _ _ ho h => pre_busy h ho) ?_ hg fun a g' ha _ => hQ a g' ha
  rintro o g₁ r _ ho h rfl
  rw [next_mayBegin ho, h]

theorem busy_of_inner (hp : p.Only Inner) : p.Only Busy :=
  hp.mono fun _ ho => Or.inl (idle_inner ho)

theorem idle_of_inner (hp : p.Only Inner) : p.Only Idle := hp.mono fun _ => idle_inner

end Programs

/-- Where a listener or a worker goes on. -/
inductive Onward : Option Label → Prop where
  | ended : Onward none
  | waitLoop (lpService lm : LPVOID) : Onward (some (.waitLoop lpService lm))
  | routine (lpService lpMappedParam : LPVOID) (dwThread : Nat) (bufs : List LPVOID) :
      Onward (some (.routine lpService lpMappedParam dwThread bufs))
  | workerReturn (lpService lpMappedParam : LPVOID) (dwThread : Nat) (status : NTSTATUS) :
      Onward (some (.workerReturn lpService lpMappedParam dwThread status))

/-- It may go on there without more. -/
theorem Onward.leave {l : Option Label} (h : Onward l) (g : Ghost) : leave Goto l g := by
  cases h <;> trivial

section Listener

variable (lpService lm param : LPVOID)

theorem idle_waitThread : (waitThread lpService : Code b _).Only Idle :=
  ⟨trivial, fun _ => (only_modifyMessage.mpr ⟨trivial, fun _ => trivial⟩).bind fun _ => trivial⟩

theorem returns_waitThread : (waitThread lpService : Code b _).Returns Onward :=
  .of_op fun _ => .bind _ fun _ => .waitLoop ..

theorem idle_waitExit : (waitExit lpService lm : Code b _).Only Idle := by
  refine ⟨trivial, fun _ => ?_⟩
  refine (only_loadRoutine.mpr trivial).bind fun r => ?_
  exact ⟨trivial, fun _ => ⟨trivial, fun _ => ⟨trivial, fun _ => trivial⟩⟩⟩

theorem returns_waitExit : (waitExit lpService lm : Code b _).Returns Onward :=
  .of_op fun _ => .bind _ fun _ => .of_op fun _ => .of_op fun _ => .of_op fun _ => .ended

theorem busy_acceptConnectPort (accept : Bool) :
    (acceptConnectPort param lm accept : Code b _).Only Busy := by
  refine (busy_of_inner (only_loadMessage.mpr trivial)).bind fun m => ?_
  refine Prog.only_op_bind.mpr ⟨Or.inl trivial, fun x => ?_⟩
  split
  · exact (busy_of_inner (only_modifyRoutine.mpr ⟨trivial, fun _ => trivial⟩)).bind fun _ => trivial
  · trivial

theorem busy_waitRefuse : (waitRefuse lpService lm param : Code b _).Only Busy := by
  refine (busy_acceptConnectPort ..).bind fun _ => ?_
  refine (busy_of_inner (only_loadRoutine.mpr trivial)).bind fun r => ?_
  split
  · refine (busy_of_inner (only_loadRoutine.mpr trivial)).bind fun r => ?_
    exact ⟨Or.inl trivial, fun _ => ⟨Or.inl trivial, fun _ => trivial⟩⟩
  · exact ⟨Or.inl trivial, fun _ => trivial⟩

theorem busy_waitAbandon : (waitAbandon lpService lm param : Code b _).Only Busy := by
  refine (busy_of_inner (only_loadRoutine.mpr trivial)).bind fun r => ?_
  exact ⟨Or.inl trivial, fun _ => ⟨Or.inl trivial, fun _ => trivial⟩⟩

theorem busy_waitDispatch (callparam : Nat) :
    (waitDispatch lpService lm param callparam : Code b _).Only Busy := by
  refine ⟨Or.inl trivial, fun copy => ?_⟩
  refine (busy_of_inner (only_loadMessage.mpr trivial)).bind fun m => ?_
  refine (busy_of_inner (only_modifyMessage.mpr ⟨trivial, fun _ => trivial⟩)).bind fun _ => ?_
  refine (busy_of_inner (only_modifyRoutine.mpr ⟨trivial, fun _ => trivial⟩)).bind fun _ => ?_
  refine (busy_of_inner (inner_rtlCaptureParameters ..)).bind fun captured => ?_
  refine (busy_of_inner (only_modifyRoutine.mpr ⟨trivial, fun _ => trivial⟩)).bind fun _ => ?_
  exact ⟨Or.inr (Or.inl ⟨param, rfl⟩), fun _ => trivial⟩

theorem busy_waitAccept (callparam : Nat) :
    (waitAccept lpService lm param callparam : Code b _).Only Busy := by
  refine (busy_acceptConnectPort ..).bind fun status => ?_
  split
  · refine (busy_of_inner (only_loadRoutine.mpr trivial)).bind fun r => ?_
    refine Prog.only_op_bind.mpr ⟨Or.inl trivial, fun status => ?_⟩
    split
    · refine (busy_of_inner (only_loadRoutine.mpr trivial)).bind fun r => ?_
      refine Prog.only_op_bind.mpr ⟨Or.inl trivial, fun x => ?_⟩
      refine (busy_of_inner (inner_receiveInto ..)).bind fun status => ?_
      split
      · exact busy_waitDispatch ..
      · exact busy_waitAbandon ..
    · exact busy_waitAbandon ..
  · exact busy_waitAbandon ..

theorem busy_waitConnection : (waitConnection lpService lm : Code b _).Only Busy := by
  refine (busy_of_inner (only_loadRoutine.mpr trivial)).bind fun r => ?_
  refine (busy_of_inner (only_newRoutine.mpr ⟨trivial, fun _ => trivial⟩)).bind fun param => ?_
  refine (busy_of_inner (only_loadMessage.mpr trivial)).bind fun m => ?_
  refine Prog.only_op_bind.mpr ⟨Or.inl trivial, fun hClientProcess => ?_⟩
  refine (busy_of_inner (only_modifyRoutine.mpr ⟨trivial, fun _ => trivial⟩)).bind fun _ => ?_
  refine (busy_of_inner (only_loadMessage.mpr trivial)).bind fun m => ?_
  refine (busy_of_inner (inner_refused ..)).bind fun v => ?_
  split
  · exact busy_waitRefuse ..
  · exact busy_waitAccept ..

theorem returns_waitAbandon : (waitAbandon lpService lm param : Code b _).Returns Onward :=
  .bind _ fun _ => .of_op fun _ => .of_op fun _ => .waitLoop ..

theorem returns_waitAccept (callparam : Nat) :
    (waitAccept lpService lm param callparam : Code b _).Returns Onward := by
  refine .bind _ fun status => ?_
  split
  · refine .bind _ fun r => .of_op fun status => ?_
    split
    · refine .bind _ fun r => .of_op fun x => .bind _ fun status => ?_
      split
      · exact .of_op fun _ => .bind _ fun _ => .bind _ fun _ => .bind _ fun _ => .bind _ fun _ =>
          .bind _ fun _ => .of_op fun _ => .waitLoop ..
      · exact returns_waitAbandon _ _ _
    · exact returns_waitAbandon _ _ _
  · exact returns_waitAbandon _ _ _

theorem returns_waitConnection : (waitConnection lpService lm : Code b _).Returns Onward := by
  refine .bind _ fun r => .bind _ fun param => .bind _ fun m => .of_op fun h => .bind _ fun _ =>
    .bind _ fun m => .bind _ fun v => ?_
  split
  · refine .bind _ fun _ => .bind _ fun r => ?_
    split
    · exact .bind _ fun _ => .of_op fun _ => .of_op fun _ => .waitLoop ..
    · exact .of_op fun _ => .waitLoop ..
  · exact returns_waitAccept _ _ _ _

/-- The loop of `WaitThread` begins something only after it took a connection. -/
theorem wp_waitLoop (g : Ghost) :
    wp (outline b) (waitLoop lpService lm) (leave Goto) g := by
  refine wp_op_bind.mpr ⟨trivial, ?_⟩
  rintro _ _ rfl
  refine (wp_bind ..).mpr (wp_idle (only_loadRoutine.mpr trivial)
    (Prog.returns_true _) ?_)
  intro r g₁ _ _
  refine wp_op_bind.mpr ⟨trivial, ?_⟩
  rintro x g₂ rfl
  have hreceive : (receiveInto lm x : Code b _).Returns fun st => st = x.1 := by
    unfold receiveInto
    split
    · exact .bind _ fun _ => rfl
    · rfl
  refine (wp_bind ..).mpr (wp_idle (T := fun st => st = x.1)
    (idle_of_inner (inner_receiveInto ..)) hreceive ?_)
  rintro _ g₃ rfl hg₃
  by_cases hx : ntSuccess x.1 = true
  · rw [if_pos hx]
    exact wp_busy (hg₃.trans hx) (busy_waitConnection ..) (returns_waitConnection _ _)
      fun l g' hl => hl.leave g'
  · rw [if_neg hx]
    refine wp_op_bind.mpr ⟨trivial, ?_⟩
    rintro v g₄ rfl
    split
    · exact wp_idle (idle_waitExit ..) (returns_waitExit _ _) fun l g' hl _ => hl.leave g'
    · trivial

end Listener

section Worker

variable (lpService lpMappedParam : LPVOID) (dwThread : Nat)

theorem idle_eraseLoop (k i : Nat) : (eraseLoop dwThread k i : Code b _).Only Idle :=
  (silent_eraseLoop dwThread k i).mono fun _ => idle_of_silent

theorem idle_workerFinish : (workerFinish lpService dwThread : Code b _).Only Idle := by
  have hload : ∀ a, (loadRoutine a : Code b _).Only Idle := fun a => only_loadRoutine.mpr trivial
  have hmodify : ∀ a f, (modifyMessage a f : Code b _).Only Idle := fun a f =>
    only_modifyMessage.mpr ⟨trivial, fun _ => trivial⟩
  refine Prog.only_op_bind.mpr ⟨trivial, fun n => ?_⟩
  refine (hload _).bind fun r => (hmodify ..).bind fun _ => ?_
  refine (hload _).bind fun r => (hmodify ..).bind fun _ => (hload _).bind fun r => ?_
  refine (only_loadMessage.mpr trivial).bind fun lm => ?_
  refine Prog.only_op_bind.mpr ⟨trivial, fun x => ?_⟩
  refine (idle_of_inner (inner_receiveInto r.lm x)).bind fun _ => ?_
  refine Prog.only_op_bind.mpr ⟨trivial, fun _ => ?_⟩
  refine Prog.only_op_bind.mpr ⟨trivial, fun k => ?_⟩
  refine (idle_eraseLoop ..).bind fun _ => ?_
  refine Prog.only_op_bind.mpr ⟨trivial, fun _ => ?_⟩
  refine (hload _).bind fun r => ⟨trivial, fun _ => (hload _).bind fun r => ⟨trivial, fun _ => ?_⟩⟩
  exact (hload _).bind fun r => ⟨trivial, fun _ => ⟨trivial, fun _ => ⟨trivial, fun _ => trivial⟩⟩⟩

theorem returns_workerFinish : (workerFinish lpService dwThread : Code b _).Returns Onward :=
  .of_op fun _ => .bind _ fun _ => .bind _ fun _ => .bind _ fun _ => .bind _ fun _ =>
    .bind _ fun _ => .bind _ fun _ => .of_op fun _ => .bind _ fun _ => .of_op fun _ =>
    .of_op fun _ => .bind _ fun _ => .of_op fun _ => .bind _ fun _ => .of_op fun _ =>
    .bind _ fun _ => .of_op fun _ => .bind _ fun _ => .of_op fun _ => .of_op fun _ =>
    .of_op fun _ => .ended

theorem busy_workerThread : (workerThread lpService : Code b _).Only Busy := by
  refine Prog.only_op_bind.mpr ⟨Or.inl trivial, fun _ => ?_⟩
  refine (busy_of_inner (only_loadRoutine.mpr trivial)).bind fun r => ?_
  refine Prog.only_op_bind.mpr ⟨Or.inl trivial, fun dwThread => ?_⟩
  refine Prog.only_op_bind.mpr ⟨Or.inl trivial, fun _ => ?_⟩
  refine Prog.only_op_bind.mpr ⟨Or.inl trivial, fun _ => ?_⟩
  refine (busy_of_inner (inner_normalize ..)).bind fun _ => ?_
  refine (busy_of_inner (only_loadRoutine.mpr trivial)).bind fun r => ?_
  refine (busy_of_inner (inner_rtlMapPtrParameters ..)).bind fun lpMappedParam => ?_
  split
  · refine (busy_of_inner (inner_setStatus ..)).bind fun _ => ?_
    exact (idle_workerFinish ..).mono fun _ => Or.inl
  · refine (busy_of_inner (only_loadRoutine.mpr trivial)).bind fun r => ?_
    refine (busy_of_inner (only_loadParameters.mpr trivial)).bind fun p => ?_
    exact ⟨Or.inr (Or.inr ⟨_, _, rfl⟩), fun _ => trivial⟩

theorem returns_workerThread : (workerThread lpService : Code b _).Returns Onward := by
  refine .of_op fun _ => .bind _ fun r => .of_op fun dwThread => .of_op fun _ => .of_op fun _ =>
    .bind _ fun _ => .bind _ fun r => .bind _ fun lpMappedParam => ?_
  split
  · exact .bind _ fun _ => returns_workerFinish _ _
  · exact .bind _ fun r => .bind _ fun p => .of_op fun _ => .routine ..

theorem idle_routine (bufs : List LPVOID) :
    (routine lpService lpMappedParam dwThread bufs : Code b _).Only Idle := by
  refine Prog.only_op_bind.mpr ⟨trivial, fun act => ?_⟩
  cases act with
  | write i k v =>
      exact (idle_of_inner (inner_routineWrite ..)).bind fun _ => trivial
  | clientId =>
      exact (silent_lookup.mono fun _ => idle_of_silent).bind fun _ => ⟨trivial, fun _ => trivial⟩
  | ret status => exact trivial

theorem returns_routine (bufs : List LPVOID) :
    (routine lpService lpMappedParam dwThread bufs : Code b _).Returns Onward := by
  refine .of_op fun act => ?_
  cases act with
  | write i k v => exact .bind _ fun _ => .routine ..
  | clientId => exact .bind _ fun _ => .of_op fun _ => .routine ..
  | ret status => exact .workerReturn ..

theorem idle_workerReturn (status : NTSTATUS) :
    (workerReturn lpService lpMappedParam dwThread status : Code b _).Only Idle := by
  refine (idle_of_inner (inner_setStatus ..)).bind fun _ => ?_
  refine (only_loadRoutine.mpr trivial).bind fun r => ?_
  refine (idle_of_inner (inner_rtlSyncMappedPtrParameters ..)).bind fun ok => ?_
  split
  · refine (idle_of_inner (inner_rtlUnmapPtrParameters ..)).bind fun _ => ?_
    exact idle_workerFinish ..
  · refine (idle_of_inner (inner_setStatus ..)).bind fun _ => ?_
    refine (idle_of_inner (inner_rtlUnmapPtrParameters ..)).bind fun _ => ?_
    exact idle_workerFinish ..

theorem returns_workerReturn (status : NTSTATUS) :
    (workerReturn lpService lpMappedParam dwThread status : Code b _).Returns Onward := by
  refine .bind _ fun _ => .bind _ fun r => .bind _ fun ok => ?_
  split
  · exact .bind _ fun _ => returns_workerFinish _ _
  · exact .bind _ fun _ => .bind _ fun _ => returns_workerFinish _ _

end Worker

section Application

variable {Q : α → Ghost → Prop} {g : Ghost}

/-- A success says that the handle in the descriptor was closed. -/
theorem wp_scUnregisterServiceRoutine (d : LPVOID) {f : NTSTATUS → Code b α}
    (hf : ∀ status g', (status = STATUS_SUCCESS → g'.call = .closed d) →
      wp (outline b) (f status) Q g') :
    wp (outline b) (scUnregisterServiceRoutine d >>= f) Q g := by
  have hviolation : STATUS_ACCESS_VIOLATION ≠ STATUS_SUCCESS := by decide
  have hinvalid : STATUS_INVALID_PARAMETER ≠ STATUS_SUCCESS := by decide
  rw [scUnregisterServiceRoutine, unregisterProbe_eq, Prog.bind_assoc]
  refine wp_op_bind.mpr ⟨trivial, ?_⟩
  rintro bad _ rfl
  split
  · exact hf _ _ fun h => absurd h hviolation
  · rw [Prog.bind_assoc]
    refine wp_op_bind.mpr ⟨trivial, ?_⟩
    rintro _ _ rfl
    rw [Prog.bind_assoc, loadRoutine, Prog.bind_assoc]
    refine wp_op_bind.mpr ⟨trivial, ?_⟩
    rintro x _ rfl
    refine wp_op_bind.mpr ⟨trivial, ?_⟩
    rintro status _ rfl
    refine hf _ _ ?_
    by_cases hst : ntSuccess status = true
    · intro _
      simp [Ghost.next, Reading.load, Reading.close, hst]
    · rw [if_neg hst]
      exact fun h => absurd h hinvalid

/-- The calls of the application, one after the other. -/
theorem wp_app {calls : List Call} (h : ∀ c ∈ calls, isRegister c = false) :
    wp (outline b) (app calls) (leave Goto) g := by
  cases calls with
  | nil =>
      refine wp_op_bind.mpr ⟨trivial, ?_⟩
      rintro _ _ rfl
      trivial
  | cons c calls =>
      have hrest : ∀ c ∈ calls, isRegister c = false := fun c hc => h c (List.mem_cons_of_mem _ hc)
      refine wp_op_bind.mpr ⟨trivial, ?_⟩
      rintro _ _ rfl
      cases c with
      | register hServiceRoutine lpServiceRoutine lpParameters name =>
          exact absurd (h _ (List.mem_cons_self ..)) (by simp [isRegister])
      | unregister d =>
          rw [makeCall, Prog.bind_assoc]
          refine wp_scUnregisterServiceRoutine d ?_
          intro status g' hg'
          refine wp_op_bind.mpr ⟨hg', ?_⟩
          rintro _ _ rfl
          exact hrest
      | clientId =>
          rw [makeCall, Prog.bind_assoc]
          refine (wp_bind ..).mpr (wp_idle (silent_lookup.mono fun _ => idle_of_silent)
            (Prog.returns_true _) ?_)
          intro result g' _ _
          refine wp_op_bind.mpr ⟨trivial, ?_⟩
          rintro _ _ rfl
          refine wp_op_bind.mpr ⟨trivial, ?_⟩
          rintro _ _ rfl
          exact hrest

end Application

/-- **EVERY LABEL** meets the outline. -/
theorem wp_code {l : Label} {g : Ghost} (h : Entry l g) :
    wp (outline b) (code l) (leave Goto) g := by
  cases l with
  | waitThread lpService =>
      exact wp_idle (idle_waitThread ..) (returns_waitThread _) fun l g' hl _ => hl.leave g'
  | waitLoop lpService lm => exact wp_waitLoop ..
  | workerThread lpService =>
      exact wp_busy h (busy_workerThread ..) (returns_workerThread _) fun l g' hl => hl.leave g'
  | routine lpService lpMappedParam dwThread bufs =>
      exact wp_idle (idle_routine ..) (returns_routine _ _ _ _) fun l g' hl _ => hl.leave g'
  | workerReturn lpService lpMappedParam dwThread status =>
      exact wp_idle (idle_workerReturn ..) (returns_workerReturn _ _ _ _)
        fun l g' hl _ => hl.leave g'
  | app calls => exact wp_app h

/-- A thread that holds off may as well know that it may begin nothing. -/
theorem wp_idled {l : Code b (Option Label)} {g : Ghost} (hl : l.HoldsOff Listens Begins)
    (h : wp (outline b) l (leave Goto) g) : wp (outline b) l (leave Goto) g.idle := by
  refine wp_holdsOff ?_ ?_ ?_ ?_ hl h
  · intro o g ho hpre
    cases o with
    | createThread l => exact absurd trivial ho
    | kernel o => cases o <;> exact hpre
    | api o =>
        cases o with
        | note x =>
            cases x with
            | invoked f args => exact absurd trivial ho
            | returned c st => cases c <;> exact hpre
            | _ => exact trivial
        | _ => exact trivial
    | _ => exact trivial
  · intro o g r g' ho h
    cases o with
    | kernel o => cases o <;> first | exact h | exact ho.elim
    | _ => exact ho.elim
  · intro o g r g' ho h
    refine ⟨_, rfl, ?_⟩
    cases o with
    | kernel o => cases o <;> first | exact h | exact absurd trivial ho
    | heap o => cases o <;> exact h
    | api o =>
        cases o with
        | note x => cases x <;> exact h
        | _ => exact h
    | _ => exact h
  · intro l g h
    cases l with
    | none => trivial
    | some l => cases l <;> exact h

/-! ## The port -/

/-- `q` is the only port of the process; `hPort` is its handle until it is closed, and
    then no request waits there. -/
structure OnePort (k : Lpc b) (hPort : HANDLE) (q : Nat) : Prop where
  only    : ∀ h p, k.portOf h = some p → p = q
  pending : ∀ x ∈ k.pending, x.1 = q
  handle  : k.handles.lookup hPort = some (.connectionPort q) ∨ q ∈ k.closed
  empty   : q ∈ k.closed → ∀ m ∈ k.queue q, Lpc.isConnectionRequest m = false

section Port

variable {k k' : Lpc b} {hPort : HANDLE} {q t : Nat}

/-- A request that waits for its answer came to a port somebody has a handle of. -/
theorem pending_exec {o : KernelOp} {c : Choice b} {r : o.Ret b}
    (hx : Lpc.exec t o c k = some (r, k')) {x : Nat × Message b} (hmem : x ∈ k'.pending) :
    x ∈ k.pending ∨ ∃ h, k.portOf h = some x.1 := by
  have htook : ∀ {h p m rest}, k.portOf h = some p → x ∈ (k.took p m rest).pending →
      x ∈ k.pending ∨ ∃ h, k.portOf h = some x.1 := by
    intro h p m rest hp hmem
    simp only [Lpc.took] at hmem
    split at hmem
    · rcases List.mem_cons.mp hmem with rfl | hmem
      · exact Or.inr ⟨h, hp⟩
      · exact Or.inl hmem
    · exact Or.inl hmem
  have E := Lpc.exec_effect hx
  cases E with
  | listened hp => exact htook hp hmem
  | received hp => exact htook hp hmem
  | @closed h y hl => cases y <;> exact Or.inl hmem
  | accepted =>
      -- what else waits keeps waiting
      cases c with
      | handle h =>
          obtain ⟨y, -, hx⟩ := Option.bind_eq_some_iff.mp hx
          obtain ⟨k₁, hk₁, he⟩ := Option.map_eq_some_iff.mp hx
          obtain ⟨-, rfl⟩ := Lpc.newHandle_eq_some hk₁
          have hpending := congrArg Lpc.pending (Prod.mk.inj he).2
          dsimp only at hpending hmem
          rw [← hpending] at hmem
          exact Or.inl (List.mem_of_mem_filter hmem)
      | fail st =>
          obtain ⟨-, -, he⟩ := Lpc.fail_eq_some hx
          rw [he] at hmem
          exact Or.inl hmem
      | _ => cases hx
  | refused =>
      cases c with
      | ok =>
          have hpending := congrArg Lpc.pending (Prod.mk.inj (Option.some.inj hx)).2
          dsimp only at hpending hmem
          rw [← hpending] at hmem
          exact Or.inl (List.mem_of_mem_filter hmem)
      | fail st =>
          obtain ⟨-, -, he⟩ := Lpc.fail_eq_some hx
          rw [he] at hmem
          exact Or.inl hmem
      | _ => cases hx
  | _ => exact Or.inl hmem

/-- Nothing of it changes. -/
theorem OnePort.congr (H : OnePort k hPort q) (h₁ : k'.handles = k.handles)
    (h₂ : k'.pending = k.pending) (h₃ : k'.queue = k.queue) (h₄ : k'.closed = k.closed) :
    OnePort k' hPort q := by
  refine ⟨?_, ?_, ?_, ?_⟩
  · intro h p hp
    exact H.only h p (by rwa [Lpc.portOf, h₁] at hp)
  · rw [h₂]
    exact H.pending
  · rw [h₁, h₄]
    exact H.handle
  · rw [h₃, h₄]
    exact H.empty

/-- **A KERNEL CALL** that creates no port leaves the port the only one. -/
theorem OnePort.kernel (H : OnePort k hPort q) {o : KernelOp} {c : Choice b} {r : o.Ret b}
    (hport : ∀ us m₁ m₂, o ≠ .ntCreatePort us m₁ m₂) (hx : Lpc.exec t o c k = some (r, k')) :
    OnePort k' hPort q := by
  have E := Lpc.exec_effect hx
  have hsub : ∀ p, p ∈ k.closed → p ∈ k'.closed := by
    intro p hp
    rcases E.ports with he | ⟨h, p', -, -, he⟩
    · rwa [he]
    · rw [he]
      exact List.mem_cons_of_mem _ hp
  refine ⟨?_, ?_, ?_, ?_⟩
  · intro h p hp
    rcases E.lookup h with he | ⟨-, -, x, hx', hg⟩ | ⟨-, hnone⟩
    · exact H.only h p (by rwa [Lpc.portOf, he] at hp)
    · -- a new handle is one of a connection that waited at the port, or of no port
      rw [Lpc.portOf, hx'] at hp
      cases o with
      | ntCreatePort us m₁ m₂ => exact absurd rfl (hport us m₁ m₂)
      | ntAcceptConnectPort client id accept =>
          cases accept with
          | true =>
              obtain ⟨-, y, hy, rfl⟩ := hg
              obtain rfl := Option.some.inj hp
              exact H.pending y hy
          | false => exact hg.elim
      | openProcess pid =>
          obtain ⟨-, rfl⟩ := hg
          cases hp
      | ntConnectPort us info =>
          obtain ⟨-, rfl⟩ := hg
          cases hp
      | _ => exact hg.elim
    · rw [Lpc.portOf, hnone] at hp
      cases hp
  -- connections that wait at the port came from handles of it
  · intro x hmem
    rcases pending_exec hx hmem with hmem | ⟨h, hp⟩
    · exact H.pending x hmem
    · exact H.only h x.1 hp
  · rcases H.handle with hl | hq
    · rcases E.lookup hPort with he | ⟨-, hnone, -⟩ | ⟨rfl, hnone⟩
      · exact Or.inl (he.trans hl)
      · rw [hl] at hnone
        cases hnone
      · -- its handle was closed, and with it the port
        cases E with
        | closed hl' =>
            rw [hl] at hl'
            obtain rfl := Option.some.inj hl'
            exact Or.inr (List.mem_cons_self ..)
        | notClosed hst =>
            rw [hl] at hnone
            cases hnone
    · exact Or.inr (hsub q hq)
  · intro hq m hm
    by_cases hold : q ∈ k.closed
    · exact H.empty hold m (E.mem_queue hm)
    · rcases E.ports with he | ⟨h, p, rfl, hl, he⟩
      · rw [he] at hq
        exact absurd hq hold
      · -- with the port its queue goes away
        rw [he] at hq
        rcases List.mem_cons.mp hq with rfl | hq
        · cases E with
          | closed hl' =>
              rw [hl] at hl'
              obtain rfl := Option.some.inj hl'
              have hm : m ∈ Function.update k.queue q [] q := hm
              rw [Function.update_self] at hm
              cases hm
          | notClosed hst => exact absurd (he ▸ List.mem_cons_self ..) hold
        · exact absurd hq hold

/-- Closing the handle of the port closes the port. -/
theorem OnePort.close (H : OnePort k hPort q) {st : NTSTATUS}
    (E : Lpc.Effect t k (.ntClose hPort) st k') (hst : ntSuccess st = true) : q ∈ k'.closed := by
  rcases H.handle with hl | hq
  · cases E with
    | closed hl' =>
        rw [hl] at hl'
        obtain rfl := Option.some.inj hl'
        exact List.mem_cons_self ..
    | notClosed hno =>
        rw [hst] at hno
        cases hno
  · rcases E.ports with he | ⟨h, p, -, -, he⟩
    · rwa [he]
    · rw [he]
      exact List.mem_cons_of_mem _ hq

/-- At a closed port nothing is taken. -/
theorem OnePort.no_listen (H : OnePort k hPort q) (hq : q ∈ k.closed) {h : HANDLE}
    {r : NTSTATUS × Option (Message b)} (E : Lpc.Effect t k (.ntListenPort h) r k') :
    ntSuccess r.1 = false := by
  cases E with
  | @listened h p pre m post rest hp hq' hm hrest =>
      obtain rfl := H.only h p hp
      have := H.empty hq m (by rw [hq']; simp)
      rw [hm] at this
      cases this
  | notListened hst => exact hst

end Port

/-! ## Both together -/

section Steps

variable {n t : Nat} {w w' : World b} {c : Choice b} {o : Op} {r : Op.Ret b o}
  {sp : Option Label} {hPort : HANDLE} {q : Nat} {d : LPVOID} {g : Ghost}

/-- An operation of a thread that registers nothing leaves the port the only one. -/
theorem OnePort.exec (H : OnePort w.lpc hPort q) (hpre : Pre o g)
    (hx : exec t n o c w = some (r, w', sp)) : OnePort w'.lpc hPort q := by
  cases o with
  | heap o =>
      obtain ⟨h, -, rfl, -⟩ := exec_heap hx
      exact H
  | kernel o =>
      obtain ⟨x, hx', he⟩ := Option.map_eq_some_iff.mp hx
      obtain ⟨rfl, he'⟩ := Prod.mk.inj he
      obtain ⟨rfl, rfl⟩ := Prod.mk.inj he'
      refine H.kernel ?_ hx'
      rintro us m₁ m₂ rfl
      exact hpre
  | id o =>
      obtain ⟨s, -, rfl, -⟩ := exec_id hx
      exact H
  | api o =>
      obtain ⟨⟨a, m, rfl⟩, -⟩ := exec_api hx
      exact H.congr rfl rfl rfl rfl
  | loadCloseEvent a =>
      obtain ⟨-, -, ⟨d, -, -, rfl⟩ | ⟨-, rfl⟩⟩ := exec_loadCloseEvent hx
      · exact H
      · exact H
  | setCloseEvent a =>
      obtain ⟨-, -, ⟨d, -, rfl⟩ | ⟨-, rfl⟩⟩ := exec_setCloseEvent hx
      · exact H
      · exact H
  | createThread l =>
      rcases exec_createThread hx with ⟨-, rfl, -⟩ | ⟨tid, -, hnew, -, rfl⟩
      · exact H
      · -- the new handle is not one of a port
        have hlookup := fun h => w.lpc.lookup_opened r h (.thread n)
        refine ⟨?_, H.pending, ?_, H.empty⟩
        · intro h p hp
          have hp : ((w.lpc.opened r (.thread n)).handles.lookup h).bind KObject.portOf = some p :=
            hp
          rw [hlookup] at hp
          split at hp
          · cases hp
          · exact H.only h p hp
        · rcases H.handle with hl | hq
          · refine Or.inl ?_
            show (w.lpc.opened r (.thread n)).handles.lookup hPort = _
            rw [hlookup, if_neg ?_, hl]
            rintro rfl
            rw [hl] at hnew
            exact Option.some_ne_none _ hnew.2
          · exact Or.inr hq

/-- A message that arrives at a closed port is no connection request. -/
theorem OnePort.env (H : OnePort w.lpc hPort q) (he : env c w = some w') :
    OnePort w'.lpc hPort q ∧ w'.lpc.closed = w.lpc.closed := by
  rcases env_cases he with ⟨p, m, -, -, hm, rfl⟩ | ⟨a, d, -, hd, rfl⟩ | ⟨pid, a, v, -, rfl⟩
  · refine ⟨⟨H.only, H.pending, H.handle, ?_⟩, rfl⟩
    intro hq m' hm'
    have hm' : m' ∈ Function.update w.lpc.queue p (w.lpc.queue p ++ [m]) q := hm'
    by_cases hp : q = p
    · subst hp
      rw [Function.update_self] at hm'
      rcases List.mem_append.mp hm' with hm' | hm'
      · exact H.empty hq m' hm'
      · rw [List.mem_singleton.mp hm']
        exact hm hq
    · rw [Function.update_of_ne hp] at hm'
      exact H.empty hq m' hm'
  · exact ⟨H, rfl⟩
  · exact ⟨H.congr rfl rfl rfl rfl, rfl⟩

/-- A closed port stays closed. -/
theorem closed_exec (hx : exec t n o c w = some (r, w', sp)) (hq : q ∈ w.lpc.closed) :
    q ∈ w'.lpc.closed := by
  rcases exec_closed hx with he | ⟨h, p, -, -, he⟩
  · rwa [he]
  · rw [he]
    exact List.mem_cons_of_mem _ hq

/-- What a call has done so far: the handle it read in the descriptor `d` is that of the
    port, and once it closed it the port is closed. -/
def Sound (d : LPVOID) (hPort : HANDLE) (q : Nat) (w : World b) (t : Nat) : Reading → Prop
  | .nothing => True
  | .asked a => w.marked t = some a
  | .read a h => a = d → h = hPort
  | .closed a => a = d → q ∈ w.lpc.closed

/-- Other threads do not interfere with it. -/
theorem Sound.other {u : Nat} {s : Reading} (H : Sound d hPort q w u s) (hu : u ≠ t)
    (hx : exec t n o c w = some (r, w', sp)) : Sound d hPort q w' u s := by
  cases s with
  | nothing => trivial
  | asked a => exact (exec_marked hx hu).trans H
  | read a h => exact H
  | closed a => exact fun ha => closed_exec hx (H ha)

/-- The descriptor `d` is there, with the handle of its port, where a call of
    `ScUnregisterServiceRoutine` reads it. -/
def Intact (d : LPVOID) (hPort : HANDLE) (s : State b) (t : Nat) : Prop :=
  s.next t = some (.heap (.load d .routine)) → s.world.marked t = some d →
    (routineAt s.world.heap d).map (·.hPort) = some hPort

/-- A descriptor that is there is what is read. -/
theorem load_intact {x : Block} (hx : exec t n (.heap (.load d .routine)) c w = some (x, w', sp))
    (hd : (routineAt w.heap d).map (·.hPort) = some hPort) : (asRoutine x).hPort = hPort := by
  obtain ⟨h, hh, -, -⟩ := exec_heap hx
  obtain ⟨r, hr, rfl⟩ := Option.map_eq_some_iff.mp hd
  unfold routineAt at hr
  split at hr
  · next r' hcell =>
      obtain rfl := Option.some.inj hr
      rw [(exec_load hcell rfl hh).1]
      rfl
  · cases hr

/-- **THE CALL GOES ON** as its outline says. -/
theorem Sound.next {s : Reading} (P : OnePort w.lpc hPort q) (hs : g.call = s)
    (H : Sound d hPort q w t s)
    (hd : o = .heap (.load d .routine) → w.marked t = some d →
      (routineAt w.heap d).map (·.hPort) = some hPort)
    (hx : exec t n o c w = some (r, w', sp)) : Sound d hPort q w' t (g.next o r).call := by
  subst hs
  -- an operation that neither reads nor marks a descriptor nor closes a handle
  have keep : w'.marked t = w.marked t → (g.next o r).call = g.call →
      Sound d hPort q w' t (g.next o r).call := by
    intro hmarked hcall
    rw [hcall]
    generalize g.call = s at H
    cases s with
    | asked a => exact hmarked.trans H
    | closed a => exact fun ha => closed_exec hx (H ha)
    | _ => exact H
  cases o with
  | heap o =>
      obtain ⟨h, hh, rfl, -⟩ := exec_heap hx
      have hmarked : (Function.update w.marked t (unmark (w.marked t) o)) t
          = unmark (w.marked t) o := Function.update_self ..
      cases o with
      | load a k =>
          show Sound d hPort q _ t (g.call.load a k r)
          generalize hcall : g.call = s at H
          cases s with
          | asked a' =>
              have H : w.marked t = some a' := H
              show Sound d hPort q _ t (if a = a' then _ else _)
              by_cases ha : a = a'
              · subst ha
                rw [if_pos rfl]
                by_cases hk : k = .routine
                · subst hk
                  rw [if_pos rfl]
                  rintro rfl
                  exact load_intact hx (hd rfl H)
                · rw [if_neg hk]
                  trivial
              · rw [if_neg ha]
                refine hmarked.trans ?_
                show (w.marked t).filter _ = _
                rw [H, Option.filter_some, if_pos (by simpa using Ne.symm ha)]
          | closed a' => exact H
          | _ => exact H
      | _ => exact keep hmarked rfl
  | kernel o =>
      obtain ⟨k, E, rfl, -⟩ := exec_kernel hx
      cases o with
      | ntClose h =>
          show Sound d hPort q _ t (g.call.close h (ntSuccess r))
          generalize hcall : g.call = s at H
          cases s with
          | read a h' =>
              show Sound d hPort q _ t (if ntSuccess r = true ∧ h = h' then _ else _)
              split
              · next hc =>
                  intro ha
                  obtain rfl : h' = hPort := H ha
                  obtain ⟨hst, rfl⟩ := hc
                  exact P.close E hst
              · trivial
          | closed a => exact fun ha => closed_exec hx (H ha)
          | _ => exact H
      | _ => exact keep rfl rfl
  | id o =>
      obtain ⟨s, -, rfl, -⟩ := exec_id hx
      exact keep rfl rfl
  | api o =>
      obtain ⟨⟨a, m, rfl⟩, -⟩ := exec_api hx
      cases o with
      | note x =>
          cases x with
          | called c => trivial
          | _ => exact keep rfl rfl
      | _ => exact keep rfl rfl
  | loadCloseEvent a =>
      obtain ⟨-, -, ⟨d, -, -, rfl⟩ | ⟨-, rfl⟩⟩ := exec_loadCloseEvent hx
      · exact keep rfl rfl
      · exact keep rfl rfl
  | setCloseEvent a =>
      obtain ⟨-, -, ⟨d, -, rfl⟩ | ⟨-, rfl⟩⟩ := exec_setCloseEvent hx
      · exact Function.update_self ..
      · exact Function.update_self ..
  | createThread l =>
      rcases exec_createThread hx with ⟨-, rfl, -⟩ | ⟨tid, -, -, -, rfl⟩
      · exact keep rfl rfl
      · exact keep rfl rfl

/-- Only `createThread` starts threads. -/
theorem spawn_exec (hx : exec t n o c w = some (r, w', sp)) :
    sp = none ∨ ∃ l, o = .createThread l ∧ sp = some l := by
  cases o with
  | heap o => exact Or.inl (exec_heap hx).choose_spec.2.2
  | kernel o => exact Or.inl (exec_kernel hx).choose_spec.2.2
  | id o => exact Or.inl (exec_id hx).choose_spec.2.2
  | api o => exact Or.inl (exec_api hx).2
  | loadCloseEvent a => exact Or.inl (exec_loadCloseEvent hx).2.1
  | setCloseEvent a => exact Or.inl (exec_setCloseEvent hx).2.1
  | createThread l =>
      rcases exec_createThread hx with ⟨-, -, h⟩ | ⟨tid, h, -⟩
      · exact Or.inl h
      · exact Or.inr ⟨l, rfl, h⟩

end Steps

/-! ## Before and after the return -/

/-- The note of a successful return. -/
def success (d : LPVOID) : Note := .returned (.unregister d) STATUS_SUCCESS

/-- A thread calls `ScUnregisterServiceRoutine`. -/
def Calls (d : LPVOID) (s : State b) (t : Nat) : Prop :=
  s.next t = some (.api (.note (.called (.unregister d))))

/-- Where thread `t` reads the descriptor, it is there. -/
def Orderly (d : LPVOID) (hPort : HANDLE) (t : Nat) (s : State b) : Event (Choice b) → Prop
  | .thread u _ => u = t → Intact d hPort s t
  | .env _ => True

/-- Every thread listens before it begins anything. -/
def Settled (s : State b) : Prop :=
  ∀ (u : Nat) (th : Thread Op (Op.Ret b) Label), s.threads[u]? = some th →
    th.cur.HoldsOff Listens Begins

/-- Nothing begins: no thread starts a worker or calls the routine, and nobody takes a
    message from a port. -/
structure Quiet (s : State b) : Prop where
  begins  : ∀ {u o}, s.next u = some o → ¬ Begins o
  listens : ∀ {u h c r w sp}, s.next u = some (.kernel (.ntListenPort h)) →
    exec u s.threads.length (.kernel (.ntListenPort h)) c s.world = some (r, w, sp) →
    ntSuccess r.1 = false

/-- What holds while thread `t` is in the call. -/
structure Closing (d : LPVOID) (hPort : HANDLE) (q t : Nat) (w : World b) (gs : Nat → Ghost) :
    Prop where
  port : OnePort w.lpc hPort q
  call : Sound d hPort q w t (gs t).call

/-- What holds once the call has returned while nobody could begin anything. -/
structure Stopped (hPort : HANDLE) (q : Nat) (w : World b) (gs : Nat → Ghost) : Prop where
  port   : OnePort w.lpc hPort q
  closed : q ∈ w.lpc.closed
  idle   : ∀ t, (gs t).mayBegin = false

section Rule

variable {d : LPVOID} {hPort : HANDLE} {q : Nat}

theorem goto_entry {l : Label} {g : Ghost} (h : Goto l g) : Entry l g := by
  cases l <;> first | exact h | exact h.elim

/-- A new thread is a worker. -/
theorem born_entry {n t : Nat} {w w' : World b} {c : Choice b} {o : Op} {r : Op.Ret b o}
    {sp : Option Label} {g : Ghost} (hpre : Pre o g) (hx : exec t n o c w = some (r, w', sp)) :
    ∀ l ∈ sp, ∀ g' ∈ sp.map fun _ => (⟨true, .nothing⟩ : Ghost), Entry l g' := by
  intro l hl g' hg'
  rcases spawn_exec hx with rfl | ⟨l', rfl, rfl⟩
  · cases hl
  · obtain rfl := Option.some.inj hl
    obtain rfl := Option.some.inj hg'
    obtain ⟨-, param, rfl⟩ := hpre
    rfl

/-- The rule for the time before the call. -/
theorem serves_method : Method (system b) (outline b) Entry Goto
    (fun _ w _ => OnePort w.lpc hPort q) (fun _ => True) (fun _ _ => True) where
  steps _ _ := trivial
  code h := wp_code h
  jump := by
    intro s gs t c th l _ _ _ H hgoto
    exact ⟨gs t, goto_entry hgoto, H⟩
  op := by
    intro s gs t c th o k r w' sp _ _ _ H hpre hx
    exact ⟨(gs t).next o r, sp.map fun _ => ⟨true, .nothing⟩, rfl, by cases sp <;> rfl,
      fun l hl g hg _ => born_entry hpre hx l hl g hg, H.exec hpre hx⟩
  env := by
    intro s gs c w' _ H he
    exact (H.env he).1

/-- An operation of thread `t` keeps what holds of the call of thread `u`. -/
theorem Closing.exec {n t u : Nat} {w w' : World b} {gs : Nat → Ghost} {c : Choice b} {o : Op}
    {r : Op.Ret b o} {sp : Option Label} (H : Closing d hPort q u w gs)
    (hd : u = t → o = .heap (.load d .routine) → w.marked t = some d →
      (routineAt w.heap d).map (·.hPort) = some hPort)
    (hpre : Pre o (gs t)) (hx : exec t n o c w = some (r, w', sp)) :
    Closing d hPort q u w' (after gs t n ((gs t).next o r) (sp.map fun _ => ⟨true, .nothing⟩)) := by
  refine ⟨H.port.exec hpre hx, ?_⟩
  rcases after_cases gs t n ((gs t).next o r) (sp.map fun _ => ⟨true, .nothing⟩) u with
    ⟨hu, -, he⟩ | ⟨rfl, he⟩ | ⟨-, g, hg, he⟩
  · rw [he]
    exact H.call.other hu hx
  · rw [he]
    exact Sound.next H.port rfl H.call (hd rfl) hx
  · -- a new thread has closed nothing
    obtain ⟨l, -, rfl⟩ := Option.map_eq_some_iff.mp hg
    rw [he]
    trivial

/-- So does a step of the environment. -/
theorem Closing.env {u : Nat} {w w' : World b} {gs : Nat → Ghost} {c : Choice b}
    (H : Closing d hPort q u w gs) (he : env c w = some w') : Closing d hPort q u w' gs := by
  obtain ⟨hport, hclosed⟩ := H.port.env he
  refine ⟨hport, ?_⟩
  have hS := H.call
  generalize (gs u).call = x at hS
  cases x with
  | asked a =>
      rcases env_cases he with ⟨p, m, -, -, -, rfl⟩ | ⟨a, d, -, -, rfl⟩ | ⟨pid, a, v, -, rfl⟩ <;>
        exact hS
  | closed a =>
      intro ha
      rw [hclosed]
      exact hS ha
  | _ => exact hS

/-- The rule for the time of the call. -/
theorem closing_method {t : Nat} : Method (system b) (outline b) Entry Goto
    (fun n w gs => t < n ∧ Closing d hPort q t w gs) (fun _ => True) (Orderly d hPort t) where
  steps _ _ := trivial
  code h := wp_code h
  jump := by
    intro s gs u c th l _ _ _ H hgoto
    refine ⟨gs u, goto_entry hgoto, ?_⟩
    rw [Function.update_eq_self]
    exact H
  op := by
    intro s gs u c th o k r w' sp hc hth hcur H hpre hx
    obtain ⟨hlt, H⟩ := H
    refine ⟨(gs u).next o r, sp.map fun _ => ⟨true, .nothing⟩, rfl, by cases sp <;> rfl,
      fun l hl g hg _ => born_entry hpre hx l hl g hg, Nat.lt_add_right _ hlt,
      H.exec ?_ hpre hx⟩
    rintro rfl rfl
    exact hc rfl (Config.next_of_cur hth hcur)
  env := by
    intro s gs c w' _ H he
    exact ⟨H.1, H.2.env he⟩

/-- Who may begin nothing begins nothing. -/
theorem pre_idled {g : Ghost} (hg : g.mayBegin = false) {o : Op} (hpre : Pre o g) :
    ¬ Begins o := by
  intro ho
  cases o with
  | createThread l =>
      rw [hpre.1] at hg
      cases hg
  | api o =>
      cases o with
      | note x =>
          cases x with
          | invoked f args =>
              rw [show g.mayBegin = true from hpre] at hg
              cases hg
          | _ => exact ho
      | _ => exact ho
  | _ => exact ho

/-- An operation at a closed port does not change this. -/
theorem idle_exec {g : Ghost} {n t : Nat} {w w' : World b} {c : Choice b} {o : Op}
    {r : Op.Ret b o} {sp : Option Label} (P : OnePort w.lpc hPort q) (hq : q ∈ w.lpc.closed)
    (hg : g.mayBegin = false) (hx : exec t n o c w = some (r, w', sp)) :
    (g.next o r).mayBegin = false := by
  cases o with
  | heap o => cases o <;> exact hg
  | kernel o =>
      cases o with
      | ntListenPort h =>
          obtain ⟨k, E, -, -⟩ := exec_kernel hx
          exact P.no_listen hq E
      | _ => exact hg
  | api o =>
      cases o with
      | note x => cases x <;> exact hg
      | _ => exact hg
  | _ => exact hg

/-- The rule for the time after. -/
theorem stopped_method : Method (system b) (outline b) Entry Goto
    (fun _ w gs => Stopped hPort q w gs) (fun _ => True) (fun _ _ => True) where
  steps _ _ := trivial
  code h := wp_code h
  jump := by
    intro s gs t c th l _ _ _ H hgoto
    refine ⟨gs t, goto_entry hgoto, ?_⟩
    rw [Function.update_eq_self]
    exact H
  op := by
    intro s gs t c th o k r w' sp _ _ _ H hpre hx
    have hbegins := pre_idled (H.idle t) hpre
    obtain rfl : sp = none := by
      rcases spawn_exec hx with rfl | ⟨l, rfl, -⟩
      · rfl
      · exact absurd trivial hbegins
    refine ⟨(gs t).next o r, none, rfl, rfl, fun l hl => absurd hl (Option.not_mem_none l),
      H.port.exec hpre hx, closed_exec hx H.closed, ?_⟩
    refine after_forall (P := fun _ (g : Ghost) => g.mayBegin = false) ?_ ?_ ?_
    · exact fun u _ => H.idle u
    · exact idle_exec H.port H.closed (H.idle t) hx
    · exact fun g hg => absurd hg (Option.not_mem_none g)
  env := by
    intro s gs c w' _ H he
    obtain ⟨hport, hclosed⟩ := H.port.env he
    exact ⟨hport, hclosed ▸ H.closed, H.idle⟩

/-- Where it holds nothing begins. -/
theorem Stopped.quiet {s : State b} {gs : Nat → Ghost}
    (h : Holds (outline b) Goto (fun _ w gs => Stopped hPort q w gs) (fun _ => True) s gs) :
    Quiet s where
  begins hn := pre_idled (h.1.idle _) (h.pre_next hn)
  listens _ hx := by
    obtain ⟨k, E, -, -⟩ := exec_kernel hx
    exact h.1.port.no_listen h.1.closed E

/-- **THE CALL BEGINS**: whatever the thread did before, it has closed nothing yet. -/
theorem closing_called {s : State b} {gs : Nat → Ghost} {t : Nat} (hcalled : Calls d s t)
    (h : Holds (outline b) Goto (fun _ w _ => OnePort w.lpc hPort q) (fun _ => True) s gs) :
    Holds (outline b) Goto (fun n w gs => t < n ∧ Closing d hPort q t w gs) (fun _ => True) s
      (Function.update gs t { gs t with call := .nothing }) := by
  obtain ⟨th, k, hth, hcur⟩ := Config.next_eq_some hcalled
  refine ⟨⟨(List.getElem?_eq_some_iff.mp hth).1, h.1, ?_⟩, ?_⟩
  · rw [Function.update_self]
    trivial
  · intro u thu hu _
    by_cases hut : u = t
    · subst hut
      obtain rfl := Option.some.inj (hth.symm.trans hu)
      have hwp := h.2 u th hth trivial
      rw [hcur] at hwp ⊢
      rw [Function.update_self]
      -- what it knows after the note does not depend on what it knew before
      exact ⟨trivial, hwp.2⟩
    · rw [Function.update_of_ne hut]
      exact h.2 u thu hu trivial

/-- **THE RETURN** of a call that was successful while every thread listens. -/
theorem stopped_returned {s : State b} {gs : Nat → Ghost} {t : Nat}
    (hreturns : s.next t = some (.api (.note (success d)))) (hsettled : Settled s)
    (h : Holds (outline b) Goto (fun n w gs => t < n ∧ Closing d hPort q t w gs)
      (fun _ => True) s gs) :
    Holds (outline b) Goto (fun _ w gs => Stopped hPort q w gs) (fun _ => True) s
      fun u => (gs u).idle := by
  obtain ⟨-, hport, hcall⟩ := h.1
  have hpre : Pre (.api (.note (success d))) (gs t) := h.pre_next hreturns
  rw [hpre rfl] at hcall
  exact ⟨⟨hport, hcall rfl, fun _ => rfl⟩,
    fun u th hu _ => wp_idled (hsettled u th hu) (h.2 u th hu trivial)⟩

end Rule

/-! ## The result -/

/-- A rule holds of the listener and the other threads of the service when they start. -/
theorem serving_begin {J : Nat → World b → (Nat → Ghost) → Prop}
    {cond : State b → Event (Choice b) → Prop} {w : World b}
    {calls : List (List Call)} (d : LPVOID)
    (M : Method (system b) (outline b) Entry Goto J (fun _ => True) cond)
    (hJ : ∀ n, J n w fun _ => ⟨false, .nothing⟩)
    (hcalls : ∀ cs ∈ calls, ∀ c ∈ cs, isRegister c = false) :
    Holds (outline b) Goto J (fun _ => True) (serving w d calls) fun _ => ⟨false, .nothing⟩ := by
  refine holds_begin M (hJ _) ?_
  intro t l hl _
  cases t with
  | zero =>
      obtain rfl := Option.some.inj hl
      trivial
  | succ t =>
      rw [List.getElem?_cons_succ, List.getElem?_map] at hl
      obtain ⟨cs, hcs, rfl⟩ := Option.map_eq_some_iff.mp hl
      exact hcalls cs (List.mem_of_getElem? hcs)

/-- **NOTHING BEGINS AFTER UNREGISTERING**: in every run of the listener of a service, its
    workers and any threads that unregister it or ask for their clients, in any order and
    with any outcome of every operation, let `ScUnregisterServiceRoutine` be called while
    one thread calls it, and return a success.  If the descriptor is there when the call
    reads it, and no thread is on its way from a connection to the routine when it returns,
    then from there on no connection is taken, no worker is started and no call of the
    routine begins. -/
theorem invokes_no_more {w : World b} {d : LPVOID} {hPort : HANDLE} {q t : Nat}
    {calls : List (List Call)} {s₀ s₁ s : State b} (hport : OnePort w.lpc hPort q)
    (hcalls : ∀ cs ∈ calls, ∀ c ∈ cs, isRegister c = false)
    (hbefore : (system b).Run (fun _ _ => True) (serving w d calls) s₀) (hcalled : Calls d s₀ t)
    (hcall : (system b).Run (Orderly d hPort t) s₀ s₁)
    (hreturns : s₁.next t = some (.api (.note (success d)))) (hsettled : Settled s₁)
    (hafter : (system b).Run (fun _ _ => True) s₁ s) : Quiet s := by
  have hbegin := serving_begin d serves_method (fun _ => hport) hcalls
  obtain ⟨gs₀, h₀⟩ := serves_method.run hbefore hbegin
  obtain ⟨gs₁, h₁⟩ := closing_method.run hcall (closing_called hcalled h₀)
  obtain ⟨gs, h⟩ := stopped_method.run hafter (stopped_returned hreturns hsettled h₁)
  exact Stopped.quiet h

/-! ### A check of the condition -/

/-- The thread is at `NtListenPort`, at a label, or about to be there. -/
def listensNow : Code b (Option Label) → Bool
  | .ret _ => true
  | .call (.kernel (.ntListenPort _)) _ => true
  | .call (.api (.note (.returned ..))) k =>
      match k () with
      | .ret _ => true
      | .call .. => false
  | _ => false

theorem listensNow_sound {p : Code b (Option Label)} (h : listensNow p = true) :
    p.HoldsOff Listens Begins := by
  unfold listensNow at h
  split at h
  · trivial
  · exact ⟨fun h => h, Or.inl trivial⟩
  · next c st k =>
      refine ⟨fun h => h, Or.inr fun r => ?_⟩
      split at h
      · next l hl =>
          rw [show k r = .ret l from hl]
          trivial
      · cases h
  · cases h

theorem settled_of_all {s : State b} (h : (s.threads.all fun th => listensNow th.cur) = true) :
    Settled s := by
  intro u th hu
  exact listensNow_sound (List.all_eq_true.mp h th (List.mem_of_getElem? hu))

/-- The condition on a step, as far as it can be computed. -/
def orderlyNow (d : LPVOID) (hPort : HANDLE) (t : Nat) (s : State b) : Event (Choice b) → Bool
  | .env _ => true
  | .thread _ _ =>
      match s.next t with
      | some (.heap (.load ..)) =>
          s.world.marked t != some d
            || (routineAt s.world.heap d).map (·.hPort) == some hPort
      | _ => true

theorem orderlyNow_sound {d : LPVOID} {hPort : HANDLE} {t : Nat} {s : State b}
    {e : Event (Choice b)} (h : orderlyNow d hPort t s e = true) : Orderly d hPort t s e := by
  cases e with
  | env c => trivial
  | thread u c =>
      rintro - hnext hmarked
      simp only [orderlyNow, hnext, hmarked, bne_self_eq_false, Bool.false_or] at h
      exact eq_of_beq h

/-- What a thread is about to note. -/
def noteNow (s : State b) (t : Nat) : Option Note :=
  match s.next t with
  | some (.api (.note x)) => some x
  | _ => none

theorem next_of_noteNow {s : State b} {t : Nat} {x : Note} (h : noteNow s t = some x) :
    s.next t = some (.api (.note x)) := by
  unfold noteNow at h
  split at h
  · next x' hnext =>
      obtain rfl := Option.some.inj h
      exact hnext
  · cases h

theorem oneService_port (p : ServiceRoutineParameter) : OnePort (oneService p).lpc 4 0 := by
  have hlookup := fun h => (World.initialized .x64).lpc.lookup_opened 4 h (.connectionPort 0)
  refine ⟨?_, fun x hx => absurd hx List.not_mem_nil, Or.inl (hlookup 4),
    fun hq => absurd hq List.not_mem_nil⟩
  intro h q hq
  have hq : (((World.initialized .x64).lpc.opened 4 (.connectionPort 0)).handles.lookup h).bind
      KObject.portOf = some q := hq
  rw [hlookup] at hq
  split at hq
  · exact (Option.some.inj hq).symm
  · cases hq

/-- A client calls the service without parameters; its worker is started. -/
def calledOnce : List (Event (Choice .x64)) :=
  [.env (.send 0 (.compose .x64 LPC_CONNECTION_REQUEST ⟨8, 9⟩ 1 (parameterBytes ⟨[]⟩)
      empty_fits)),
    .env (.send 0 (.compose .x64 LPC_REQUEST ⟨8, 9⟩ 2 [] nothing_fits))]
    ++ begins 48 ++ accepts 64 8 12 ++ dispatches 0 80 96 16 2 ++ turns 0 2

/-- The worker, which is thread 2, calls the routine. -/
def invokes : List (Event (Choice .x64)) :=
  turns 2 7 ++ .thread 2 (.fresh 112 (.parameters ⟨[]⟩)) :: turns 2 3

/-- A call returns after the routine was called; the routine itself returns later. -/
theorem invokes_no_more_called : ∃ s₀ s₁ s : State .x64,
    (system .x64).runIf (fun _ _ => true) (calledOnce ++ invokes)
      (serving (oneService ⟨[]⟩) 16 [[.unregister 16]]) = some s₀
    ∧ (system .x64).runIf (orderlyNow 16 4 1) (turns 1 5) s₀ = some s₁
    ∧ (system .x64).runIf (fun _ _ => true)
      (turns 1 1 ++ [.thread 2 .ok, .thread 2 (.act (.ret STATUS_SUCCESS)), .thread 2 .ok]) s₁
      = some s
    ∧ s.world.api.history.map Prod.snd
      = [success 16, .called (.unregister 16), .invoked 1000 []]
    ∧ Quiet s := by
  have hrun : (((system .x64).runIf (fun _ _ => true) (calledOnce ++ invokes)
      (serving (oneService ⟨[]⟩) 16 [[.unregister 16]])).bind fun s₀ =>
    ((system .x64).runIf (orderlyNow 16 4 1) (turns 1 5) s₀).bind fun s₁ =>
    ((system .x64).runIf (fun _ _ => true)
      (turns 1 1 ++ [.thread 2 .ok, .thread 2 (.act (.ret STATUS_SUCCESS)), .thread 2 .ok])
      s₁).map fun s =>
    (noteNow s₀ 1, noteNow s₁ 1, s₁.threads.all fun th => listensNow th.cur,
      s.world.api.history.map Prod.snd))
    = some (some (.called (.unregister 16)), some (success 16), true,
      [success 16, .called (.unregister 16), .invoked 1000 []]) := by decide +kernel
  obtain ⟨s₀, hs₀, hrun⟩ := Option.bind_eq_some_iff.mp hrun
  obtain ⟨s₁, hs₁, hrun⟩ := Option.bind_eq_some_iff.mp hrun
  obtain ⟨s, hs, he⟩ := Option.map_eq_some_iff.mp hrun
  obtain ⟨hcalled, he⟩ := Prod.mk.inj he
  obtain ⟨hreturns, he⟩ := Prod.mk.inj he
  obtain ⟨hall, hhistory⟩ := Prod.mk.inj he
  refine ⟨s₀, s₁, s, hs₀, hs₁, hs, hhistory, invokes_no_more (oneService_port ⟨[]⟩) ?_
    (Sys.run_of_runIf (fun _ _ _ => trivial) hs₀) (next_of_noteNow hcalled)
    (Sys.run_of_runIf (fun _ _ h => orderlyNow_sound h) hs₁) (next_of_noteNow hreturns)
    (settled_of_all hall) (Sys.run_of_runIf (fun _ _ _ => trivial) hs)⟩
  decide

/-! ## The history -/

/-- No call of the routine begins after a successful return; the latest note comes first. -/
def NoneAfter (d : LPVOID) (history : List (Nat × Note)) : Prop :=
  ∀ later t earlier, history = later ++ (t, success d) :: earlier →
    ∀ u f args, (u, .invoked f args) ∉ later

theorem NoneAfter.of_not_mem {d : LPVOID} {history : List (Nat × Note)}
    (h : ∀ t, (t, success d) ∉ history) : NoneAfter d history := by
  rintro later t earlier rfl
  exact absurd (List.mem_append_right _ (List.mem_cons_self ..)) (h t)

/-- A note of something else may follow. -/
theorem NoneAfter.cons {d : LPVOID} {history : List (Nat × Note)} {x : Nat × Note}
    (H : NoneAfter d history) (hx : ∀ f args, x.2 ≠ .invoked f args) :
    NoneAfter d (x :: history) := by
  intro later t earlier he u f args hmem
  cases later with
  | nil => cases hmem
  | cons y later =>
      obtain ⟨rfl, hrest⟩ := List.cons.inj he
      rcases List.mem_cons.mp hmem with rfl | hmem
      · exact hx f args rfl
      · exact H later t earlier hrest u f args hmem

/-- A step records one note at most. -/
theorem step_history {s s' : State b} {e : Event (Choice b)}
    (hs : (system b).step e s = some s') :
    s'.world.api.history = s.world.api.history ∨
      ∃ t c x, e = .thread t c ∧ s.next t = some (.api (.note x))
        ∧ s'.world.api.history = (t, x) :: s.world.api.history := by
  rcases Sys.step_cases hs with
    ⟨c, w, rfl, he, rfl⟩ | ⟨t, c, th, l, -, -, -, rfl⟩ |
    ⟨t, c, th, o, k, r, w, sp, rfl, hth, hcur, hx, rfl⟩
  · rcases env_cases he with ⟨p, m, -, -, -, rfl⟩ | ⟨a, d, -, -, rfl⟩ | ⟨pid, a, v, -, rfl⟩ <;>
      exact Or.inl rfl
  · exact Or.inl rfl
  · rcases exec_history hx with ⟨hh, -⟩ | ⟨x, rfl, hh⟩
    · exact Or.inl hh
    · exact Or.inr ⟨t, c, x, rfl, Config.next_of_cur hth hcur, hh⟩

/-- Where a call of `ScUnregisterServiceRoutine` reads the descriptor `d`, it is there;
    where one returns a success, every thread listens before it begins anything. -/
def Timely (d : LPVOID) (hPort : HANDLE) (s : State b) : Event (Choice b) → Prop
  | .thread t _ => Intact d hPort s t ∧ (s.next t = some (.api (.note (success d))) → Settled s)
  | .env _ => True

section History

variable {d : LPVOID} {hPort : HANDLE} {q : Nat}

/-- The rule for the time before the first success, with any number of calls at once. -/
theorem open_method : Method (system b) (outline b) Entry Goto
    (fun _ w gs => ∀ u, Closing d hPort q u w gs) (fun _ => True) (Timely d hPort) where
  steps _ _ := trivial
  code h := wp_code h
  jump := by
    intro s gs t c th l _ _ _ H hgoto
    refine ⟨gs t, goto_entry hgoto, ?_⟩
    rw [Function.update_eq_self]
    exact H
  op := by
    intro s gs t c th o k r w' sp hc hth hcur H hpre hx
    refine ⟨(gs t).next o r, sp.map fun _ => ⟨true, .nothing⟩, rfl, by cases sp <;> rfl,
      fun l hl g hg _ => born_entry hpre hx l hl g hg, fun u => (H u).exec ?_ hpre hx⟩
    rintro - rfl
    exact hc.1 (Config.next_of_cur hth hcur)
  env := by
    intro s gs c w' _ H he
    exact fun u => (H u).env he

/-- No call has returned a success. -/
def Open (d : LPVOID) (hPort : HANDLE) (q : Nat) (s : State b) : Prop :=
  (∃ gs, Holds (outline b) Goto (fun _ w gs => ∀ u, Closing d hPort q u w gs) (fun _ => True)
    s gs)
    ∧ ∀ t, (t, success d) ∉ s.world.api.history

/-- A call has returned a success; nothing has begun since. -/
def Shut (d : LPVOID) (hPort : HANDLE) (q : Nat) (s : State b) : Prop :=
  (∃ gs, Holds (outline b) Goto (fun _ w gs => Stopped hPort q w gs) (fun _ => True) s gs)
    ∧ NoneAfter d s.world.api.history

/-- Once it is shut it stays shut. -/
theorem Shut.step {s s' : State b} {e : Event (Choice b)} (H : Shut d hPort q s)
    (hs : (system b).step e s = some s') : Shut d hPort q s' := by
  obtain ⟨⟨gs, h⟩, hnone⟩ := H
  refine ⟨stopped_method.step trivial hs h, ?_⟩
  rcases step_history hs with hh | ⟨t, c, x, rfl, hnext, hh⟩
  · rwa [hh]
  · rw [hh]
    refine hnone.cons ?_
    rintro f args rfl
    exact (Stopped.quiet h).begins hnext trivial

/-- The step that returns a success shuts it; every other step leaves it open. -/
theorem Open.step {s s' : State b} {e : Event (Choice b)} (H : Open d hPort q s)
    (hc : Timely d hPort s e) (hs : (system b).step e s = some s') :
    Open d hPort q s' ∨ Shut d hPort q s' := by
  obtain ⟨⟨gs, h⟩, hnone⟩ := H
  rcases step_history hs with hh | ⟨t, c, x, rfl, hnext, hh⟩
  · refine Or.inl ⟨open_method.step hc hs h, ?_⟩
    rwa [hh]
  · by_cases hx : x = success d
    · subst hx
      obtain ⟨th, k, hth, -⟩ := Config.next_eq_some hnext
      have hlt := (List.getElem?_eq_some_iff.mp hth).1
      have hstopped := stopped_returned hnext (hc.2 hnext) ⟨⟨hlt, h.1 t⟩, h.2⟩
      exact Or.inr (Shut.step ⟨⟨_, hstopped⟩, .of_not_mem hnone⟩ hs)
    · refine Or.inl ⟨open_method.step hc hs h, ?_⟩
      intro u hmem
      rw [hh] at hmem
      rcases List.mem_cons.mp hmem with he | hmem
      · exact hx (Prod.mk.inj he).2.symm
      · exact hnone u hmem

/-- **A RUN** is open, or shut with nothing begun since. -/
theorem open_or_shut {s s' : State b} (H : Open d hPort q s)
    (hrun : (system b).Run (Timely d hPort) s s') : Open d hPort q s' ∨ Shut d hPort q s' := by
  induction hrun with
  | refl => exact Or.inl H
  | step e _ hc hs ih =>
      rcases ih with ih | ih
      · exact ih.step hc hs
      · exact Or.inr (ih.step hs)

end History

/-- **THE ROUTINE STOPS**: in every run of the listener of a service, its workers and any
    threads that unregister it or ask for their clients, in which each call of
    `ScUnregisterServiceRoutine` that reads the descriptor finds it, and each one that
    returns a success returns while no thread is on its way from a connection to the
    routine, no call of the routine begins after a success was returned. -/
theorem unregister_stops {w : World b} {d : LPVOID} {hPort : HANDLE} {q : Nat}
    {calls : List (List Call)} {s : State b} (hport : OnePort w.lpc hPort q)
    (hcalls : ∀ cs ∈ calls, ∀ c ∈ cs, isRegister c = false)
    (hnone : ∀ t, (t, success d) ∉ w.api.history)
    (hrun : (system b).Run (Timely d hPort) (serving w d calls) s) :
    NoneAfter d s.world.api.history := by
  have hbegin := serving_begin d open_method (fun _ u => show Closing d hPort q u _ _ from
    ⟨hport, trivial⟩) hcalls
  rcases open_or_shut ⟨⟨_, hbegin⟩, hnone⟩ hrun with h | h
  · exact .of_not_mem h.2
  · exact h.2

/-- The condition on a step, as far as it can be computed. -/
def timelyNow (d : LPVOID) (hPort : HANDLE) (s : State b) : Event (Choice b) → Bool
  | .env _ => true
  | .thread t c =>
      orderlyNow d hPort t s (.thread t c)
        && (noteNow s t != some (success d) || s.threads.all fun th => listensNow th.cur)

theorem timelyNow_sound {d : LPVOID} {hPort : HANDLE} {s : State b} {e : Event (Choice b)}
    (h : timelyNow d hPort s e = true) : Timely d hPort s e := by
  cases e with
  | env c => trivial
  | thread t c =>
      obtain ⟨horderly, hsettled⟩ := (Bool.and_eq_true _ _).mp h
      refine ⟨orderlyNow_sound horderly rfl, ?_⟩
      intro hnext
      rw [noteNow, hnext, bne_self_eq_false, Bool.false_or] at hsettled
      exact settled_of_all hsettled

/-- A call is served while another thread unregisters the service: the routine was called
    before the return, returns after it, and the listener then goes away. -/
theorem unregister_stops_called : ∃ s : State .x64,
    (system .x64).runIf (timelyNow 16 4)
      (calledOnce ++ invokes ++ turns 1 6
        ++ [.thread 2 .ok, .thread 2 (.act (.ret STATUS_SUCCESS)), .thread 2 .ok])
      (serving (oneService ⟨[]⟩) 16 [[.unregister 16]]) = some s
    ∧ s.world.api.history.map Prod.snd
      = [success 16, .called (.unregister 16), .invoked 1000 []]
    ∧ NoneAfter 16 s.world.api.history := by
  have hrun : ((system .x64).runIf (timelyNow 16 4)
      (calledOnce ++ invokes ++ turns 1 6
        ++ [.thread 2 .ok, .thread 2 (.act (.ret STATUS_SUCCESS)), .thread 2 .ok])
      (serving (oneService ⟨[]⟩) 16 [[.unregister 16]])).map
        (fun s => s.world.api.history.map Prod.snd)
      = some [success 16, .called (.unregister 16), .invoked 1000 []] := by decide +kernel
  obtain ⟨s, hs, hhistory⟩ := Option.map_eq_some_iff.mp hrun
  refine ⟨s, hs, hhistory, unregister_stops (oneService_port ⟨[]⟩) (by decide) ?_
    (Sys.run_of_runIf (fun _ _ h => timelyNow_sound h) hs)⟩
  exact fun t h => absurd h List.not_mem_nil

/-- Where a worker was started before the return, it may call the routine after it. -/
theorem unregister_overtaken : ¬ ∀ s : State .x64,
    (system .x64).Run (Orderly 16 4 1) (serving (oneService ⟨[]⟩) 16 [[.unregister 16]]) s →
      NoneAfter 16 s.world.api.history := by
  intro hclaim
  have hrun : ((system .x64).runIf (orderlyNow 16 4 1) (calledOnce ++ turns 1 6 ++ invokes)
      (serving (oneService ⟨[]⟩) 16 [[.unregister 16]])).map (fun s => s.world.api.history)
      = some [(2, .invoked 1000 []), (1, success 16), (1, .called (.unregister 16))] := by
    decide +kernel
  obtain ⟨s, hs, hhistory⟩ := Option.map_eq_some_iff.mp hrun
  exact hclaim s (Sys.run_of_runIf (fun _ _ h => orderlyNow_sound h) hs)
    [(2, .invoked 1000 [])] 1 _ hhistory 2 1000 []
    (List.mem_singleton_self _)

end ScQuiesce
