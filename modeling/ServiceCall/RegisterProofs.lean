import ServiceCall.CaptureProofs

/-! # Registering and calling

    A registration creates a port that takes connection data of a fixed length,
    which follows from the sizes of messages alone.  A call connects with the whole
    list as its connection data.  The list fits exactly when it has no more entries
    than that length has room for (`register_room`). -/

namespace ScSequential

open LinearMemory OwnedHeap OpProg ThreadSys ScParameter LpcMessage ScSystem
  ScServiceCall ScOwnership

variable {b : Build}

/-! ## Lists that fit -/

/-- The entries for which the connection data of a registered port has room. -/
def maxParameters (b : Build) : Nat := (b.ulMaxConnectionSize - parametersOffset) / blobSize

theorem parameterBufferSize_le_iff {k : Nat} :
    parameterBufferSize k ≤ b.ulMaxConnectionSize ↔ k ≤ maxParameters b := by
  have h₁ : parametersOffset ≤ b.ulMaxConnectionSize := by cases b <;> decide
  rw [maxParameters, Nat.le_div_iff_mul_le (by decide), parameterBufferSize]
  rw [Nat.mul_comm k]
  omega

example : maxParameters .x86 = 15 ∧ maxParameters .x64 = 31 := by decide

/-! ## Registering -/

section Register

theorem quiet_fetches {o : Op} (ho : Fetches o) : Quiet o := by
  cases o with
  | heap o => cases o <;> trivial
  | api o => cases o <;> trivial
  | _ => exact ho.elim

theorem quiet_of_fetches {α : Type} {p : Code b α} (hp : p.Only Fetches) : p.Only Quiet :=
  hp.mono fun _ => quiet_fetches

theorem quiet_registerProbe (hServiceRoutine lpServiceRoutine lpParameters : LPVOID)
    (name : Option (List WCHAR)) :
    (registerProbe hServiceRoutine lpServiceRoutine lpParameters name
      : Code b Bool).Only Quiet := by
  refine only_orElse (by simp) (only_orElse (by simp) (only_orElse (by simp)
    (only_orElse ?_ trivial)))
  exact (quiet_of_fetches (fetches_readCount _)).bind fun _ => by simp

end Register

/-- The descriptor `d` serves the list `p`. -/
structure Serves (w : World b) (d lpServiceRoutine : LPVOID) (p : ServiceRoutineParameter) :
    Prop where
  descriptor : ∃ r, w.heap.cells d = some (.routine r) ∧ r.lpRoutine = lpServiceRoutine
    ∧ w.heap.cells r.lpParameters = some (.parameters p)
  valid      : p.Valid

section Runs

variable {t n : Nat} {w w' : World b} {tr : Events b}
  {hServiceRoutine lpServiceRoutine lpParameters : LPVOID} {name : Option (List WCHAR)}

/-- A registration that succeeds starts a listener for a list it captured, on a port for
    connection data and messages of fixed lengths. -/
theorem register_run
    (hrun : (scRegisterServiceRoutineW hServiceRoutine lpServiceRoutine lpParameters name
      : Code b NTSTATUS).Runs (Alone t n) w tr STATUS_SUCCESS w') :
    ∃ d p, (logOf tr).started = [.waitThread d] ∧ Serves w' d lpServiceRoutine p
      ∧ (logOf tr).created = [(b.ulMaxConnectionSize, b.ulMaxMessageSize)] := by
  have hwp : wp (solo t n) (scRegisterServiceRoutineW hServiceRoutine lpServiceRoutine
      lpParameters name : Code b NTSTATUS) (fun status g => status = STATUS_SUCCESS →
        ∃ d p, g.log.started = [.waitThread d] ∧ p.Valid
          ∧ (∃ r, g.cells d = some (.routine r) ∧ r.lpRoutine = lpServiceRoutine
            ∧ g.cells r.lpParameters = some (.parameters p))
          ∧ g.log.created = [(b.ulMaxConnectionSize, b.ulMaxMessageSize)])
      (Local.of w []) := by
    refine solo_quiet.bind quiet_notInitialized ?_
    intro no
    split
    · exact fun h => absurd h (by decide)
    refine solo_quiet.bind (quiet_registerProbe ..) ?_
    intro bad
    split
    · exact fun h => absurd h (by decide)
    refine solo_quiet.bind (by simp) ?_
    intro us
    refine solo_storeOwn ?_
    refine solo_rtlCaptureParameters (listBytes_own ..) ?_ ?_
    · intro hv captured hnew
      rw [if_neg hnew.nonzero]
      refine solo_kernel ?_
      intro r k E
      cases E with
      | @created _ _ _ h hfree =>
          rw [if_pos (by rfl)]
          refine solo_quiet.bind (by simp) ?_
          intro _
          -- what was captured is in the descriptor, and the listener is given that
          refine solo_newRoutine ?_
          intro d hd
          refine solo_createThread ?_ ?_
          · rw [if_pos rfl]
            exact solo_any fun _ _ => solo_any fun _ _ => solo_any fun _ _ h =>
              absurd h (by decide)
          · intro h' k' h0 _
            rw [if_neg h0]
            refine solo_storeOwn ?_
            intro _
            have hne : captured ≠ d := by
              rintro rfl
              have hcells := hd.new
              exact nomatch (Function.update_self captured _ _).symm.trans hcells
            refine ⟨d, readParameters _ _, ?_, hv, ⟨_, Function.update_self .., rfl, ?_⟩, ?_⟩
            · show (Log.grant _ h').started = _
              rw [Log.grant_of_ne _ h0]
              show (Log.grant _ h).started ++ _ = _
              rw [Log.grant_of_ne _ hfree.1]
              rfl
            · show Function.update (Function.update _ captured _) d _ captured = _
              rw [Function.update_of_ne hne, Function.update_self]
            · show (Log.grant _ h').created = _
              rw [Log.grant_of_ne _ h0]
              show (Log.grant _ h).created = _
              rw [Log.grant_of_ne _ hfree.1]
              rfl
      | notCreated hst =>
          rw [if_neg (by simpa using hst)]
          exact solo_any fun _ _ => solo_any fun _ _ h => absurd h (by decide)
    · intro _ a ha
      rw [if_pos rfl]
      exact solo_any fun _ _ h => absurd h (by decide)
  obtain ⟨d, p, hstart, hv, hd, hcreate⟩ := solo_sound hwp hrun rfl
  exact ⟨d, p, hstart, ⟨hd, hv⟩, hcreate⟩

end Runs

/-! ## Calling -/

/-- The length of a call is that of its list, where it does not wrap around. -/
theorem callLength_eq {k : Nat} (h : parameterBufferSize k < 2 ^ 32) :
    callLength b k = parameterBufferSize k := by
  have hsize : 2 ^ 32 ≤ 256 ^ b.pointerSize := by cases b <;> decide
  have hlen : k * blobSize + parametersOffset = parameterBufferSize k := by
    rw [parameterBufferSize, Nat.mul_comm, Nat.add_comm]
  rw [callLength, hlen, sizeT, Nat.mod_eq_of_lt (Nat.lt_of_lt_of_le h hsize),
    Nat.mod_eq_of_lt h]

/-- The operations that connect to no port. -/
@[simp] def ConnectsNot : Op → Prop
  | .kernel (.ntConnectPort ..) => False
  | _ => True

theorem infos_grant (L : Log) (h : HANDLE) : (L.grant h).infos = L.infos := by
  unfold Log.grant
  split <;> rfl

/-- Only connecting records connection data. -/
theorem infos_add {e : Sigma (Op.Ret b)} (he : ConnectsNot e.1) (L : Log) :
    (L.add e).infos = L.infos := by
  unfold Log.add
  split <;> (try split) <;> first | rfl | exact infos_grant .. | exact he.elim

section Call

variable {t n : Nat} {α : Type} {Q : α → Local b → Prop} {g : Local b}

theorem quiet_callProbe (name : Option (List WCHAR)) (lpParameters : LPVOID) :
    (callProbe name lpParameters : Code b Bool).Only Quiet := by
  refine only_orElse (by simp) (only_orElse ?_ trivial)
  exact (quiet_of_fetches (fetches_readCount _)).bind fun _ => by simp

theorem connectsNot_of_inner {o : Op} (ho : Inner o) : ConnectsNot o := by
  cases o with
  | kernel o => cases o <;> trivial
  | _ => trivial

theorem connectsNot_requestEnd (h : HANDLE) (lm : LPVOID) (status : NTSTATUS) :
    (requestEnd h lm status : Code b NTSTATUS).Only ConnectsNot := by
  simp [requestEnd, modifyMessage, loadMessage]

theorem connectsNot_ensureMessageLength :
    (ensureMessageLength : Code b Unit).Only ConnectsNot := by
  refine Prog.only_op_bind.mpr ⟨trivial, ?_⟩
  intro r
  split <;> simp

theorem connectsNot_storeStatus (lm lpServiceStatus : LPVOID) :
    (storeStatus lm lpServiceStatus : Code b Unit).Only ConnectsNot := by
  refine (only_orElse (by simp) (by simp)).bind ?_
  intro none
  split
  · trivial
  · simp [loadMessage]

theorem connectsNot_serviceRequest (h : HANDLE) (len : Nat) (lpServiceStatus : LPVOID) :
    (serviceRequest h len lpServiceStatus : Code b NTSTATUS).Only ConnectsNot := by
  refine Prog.only_op_bind.mpr ⟨trivial, ?_⟩
  intro lm
  have hmodify : ∀ f, (modifyMessage lm f : Code b Unit).Only ConnectsNot :=
    fun f => (only_modifyMessage.mpr ⟨trivial, fun _ => trivial⟩).mono fun _ => connectsNot_of_inner
  refine (hmodify _).bind fun _ => (hmodify _).bind fun _ => ?_
  refine ((only_loadMessage.mpr trivial).mono fun _ => connectsNot_of_inner).bind ?_
  intro m
  refine Prog.only_op_bind.mpr ⟨trivial, ?_⟩
  intro x
  refine ((inner_receiveInto lm x).mono fun _ => connectsNot_of_inner).bind ?_
  intro status
  split
  · exact connectsNot_ensureMessageLength.bind fun _ =>
      (connectsNot_storeStatus ..).bind fun _ => connectsNot_requestEnd ..
  · exact connectsNot_requestEnd ..

/-- What a program without connections leaves of the connection data. -/
theorem solo_connectsNot {p : Code b α} (hp : p.Only ConnectsNot) {infos : List (List BYTE)}
    (hg : g.log.infos = infos) : wp (solo t n) p (fun _ g' => g'.log.infos = infos) g := by
  refine wp_invariant (I := fun g => g.log.infos = infos) hp (fun _ _ _ _ => trivial) ?_ hg
    fun _ _ h => h
  rintro o g r g' ho h ⟨-, -, hlog⟩
  rw [hlog, infos_add (e := ⟨o, r⟩) ho, h]

end Call

section CallRuns

variable {t n : Nat} {w w' : World b} {tr : Events b} {lpParameters lpServiceStatus : LPVOID}
  {name : Option (List WCHAR)} {status : NTSTATUS}

/-- The list that the caller has in its memory. -/
def callerList (w : World b) (lpParameters : LPVOID) : ServiceRoutineParameter :=
  readParameters (w.lpc.memory w.lpc.self).byte lpParameters.toNat

/-- A call connects with its whole list. -/
theorem call_run
    (hrun : (scServiceCallW name lpParameters lpServiceStatus : Code b NTSTATUS).Runs (Alone t n)
      w tr status w') :
    ∀ info ∈ (logOf tr).infos,
      info.length = callLength b (callerList w lpParameters).dwParameters := by
  have hcount : (callerList w lpParameters).dwParameters
      = (readDword (w.lpc.memory w.lpc.self).byte lpParameters.toNat).toNat :=
    readParameters_dwParameters ..
  rw [hcount]
  generalize hc : (readDword (w.lpc.memory w.lpc.self).byte lpParameters.toNat).toNat = count
  have hwp : wp (solo t n) (scServiceCallW name lpParameters lpServiceStatus : Code b NTSTATUS)
      (fun _ g => ∀ info ∈ g.log.infos, info.length = callLength b count) (Local.of w []) := by
    refine solo_quiet.bind (quiet_callProbe ..) ?_
    intro bad
    split
    · intro info hinfo
      cases hinfo
    have hbytes : ListBytes (Local.of w []) (.own lpParameters)
        (w.lpc.memory w.lpc.self).byte lpParameters.toNat := listBytes_own ..
    refine solo_readCount hbytes ?_
    rw [hc]
    refine solo_quiet.bind (by simp) ?_
    intro us
    refine solo_quiet.bind (quiet_of_fetches (fetches_nullLoop ..)) ?_
    intro ok
    split
    · refine solo_rtlCaptureParameters (listBytes_own ..) ?_ ?_
      · intro _ a hnew
        rw [if_neg hnew.nonzero]
        refine solo_free ?_
        refine solo_loadOwn ?_
        refine solo_kernel ?_
        intro r k _
        refine solo_quiet.bind (by simp) ?_
        intro _
        have hinfos : ∀ g : Local b, g.log.infos = [slice (w.lpc.memory w.lpc.self).byte
            lpParameters.toNat (callLength b count)] →
            ∀ info ∈ g.log.infos, info.length = callLength b count := by
          intro g hg info hinfo
          rw [hg] at hinfo
          rw [List.mem_singleton.mp hinfo, slice_length]
        -- what was sent is as long as `callLength` says
        generalize hg : Local.logged _ _ = g
        have hlog : g.log.infos = [slice (w.lpc.memory w.lpc.self).byte lpParameters.toNat
            (callLength b count)] := by
          rw [← hg]
          refine (infos_grant ..).trans ?_
          show (Local.delete _ a).log.infos ++ _ = _
          rw [Local.delete, if_neg hnew.nonzero]
          rfl
        split
        · exact wp_mono (fun _ => hinfos) (solo_connectsNot (connectsNot_serviceRequest ..) hlog)
        · split
          · exact hinfos g hlog
          · split <;> exact hinfos g hlog
      · intro _ a _
        rw [if_pos rfl]
        refine solo_quiet.bind (by simp) ?_
        intro _ info hinfo
        cases hinfo
    · refine solo_quiet.bind (by simp) ?_
      intro _ info hinfo
      cases hinfo
  exact solo_sound hwp hrun

end CallRuns

/-! ## Lists that fit -/

/-- A call with the types of a registered list. -/
def Matching (p : ServiceRoutineParameter) (w : World b) (lpParameters : LPVOID) : Prop :=
  (callerList w lpParameters).masks = p.masks

/-- **THE LIST OF A CALL FITS** the port of its service exactly when the registered list has
    no more entries than connection data have room for. -/
theorem register_room {t n : Nat} {w w' : World b} {tr : Events b}
    {hServiceRoutine lpServiceRoutine lpParameters : LPVOID} {name : Option (List WCHAR)}
    (hrun : (scRegisterServiceRoutineW hServiceRoutine lpServiceRoutine lpParameters name
      : Code b NTSTATUS).Runs (Alone t n) w tr STATUS_SUCCESS w') :
    ∃ d p m₁ m₂, (logOf tr).started = [.waitThread d] ∧ Serves w' d lpServiceRoutine p
      ∧ (logOf tr).created = [(m₁, m₂)]
      ∧ (parameterBufferSize p.dwParameters ≤ m₁ ↔ p.dwParameters ≤ maxParameters b)
      ∧ ∀ {b' : Build} {t n : Nat} {w w' : World b'} {tr : Events b'}
          {lpParameters lpServiceStatus : LPVOID} {name : Option (List WCHAR)}
          {status : NTSTATUS}, Matching p w lpParameters →
        parameterBufferSize p.dwParameters < 2 ^ 32 →
        (scServiceCallW name lpParameters lpServiceStatus : Code b' NTSTATUS).Runs
          (Alone t n) w tr status w' →
        ∀ info ∈ (logOf tr).infos, info.length = parameterBufferSize p.dwParameters := by
  obtain ⟨d, p, hstart, hreg, hcreate⟩ := register_run hrun
  refine ⟨d, p, _, _, hstart, hreg, hcreate, parameterBufferSize_le_iff, ?_⟩
  intro b' t n w w' tr lpParameters lpServiceStatus name status hmatch hlt hcall info hinfo
  rw [call_run hcall info hinfo, dwParameters_eq_of_masks hmatch, callLength_eq hlt]

/-- A process with a list of `k` pointers at address 4096. -/
def registrar (b : Build) (k : Nat) : World b :=
  let w := World.initialized b
  let m : Nat → BYTE := fun a =>
    if a = 4096 then UInt8.ofNat k else if a % blobSize = parametersOffset then 0x40 else 0
  { w with lpc := { w.lpc with memory := fun _ => ⟨m, fun _ => true, fun _ => true⟩ } }

/-- Everything goes well when a list of `k` entries is registered. -/
def registers (b : Build) (k : Nat) : List (Choice b) :=
  List.replicate 10 .ok ++ .fresh 32 (.parameters ⟨List.replicate k ⟨0, 0, 0⟩⟩) :: .ok ::
    List.replicate (4 * k) .ok ++ [.handle 4, .ok, .fresh 16 (.routine (.new 0 0 0)), .ok,
      .thread 8 1, .ok]

/-- The list that a descriptor serves, read off the blocks. -/
theorem Serves.list_eq {w : World b} {d rt : LPVOID} {p p' : ServiceRoutineParameter}
    {r : ServiceRoutine} (h : Serves w d rt p)
    (hr : (w.heap.cells d).map asRoutine = some r)
    (hp : (w.heap.cells r.lpParameters).map asParameters = some p') : p = p' := by
  obtain ⟨r', hr', -, hp'⟩ := h.descriptor
  rw [hr'] at hr
  obtain rfl := Option.some.inj hr
  exact Option.some.inj ((congrArg (Option.map asParameters) hp').symm.trans hp)

/-- The descriptor of the listener a label stands for. -/
def listenerOf : Label → LPVOID
  | .waitThread lpService => lpService
  | _ => 0

/-- How a registration ends: its status, the listeners, what the first one serves. -/
def outcome (x : Events b × NTSTATUS × World b) :
    NTSTATUS × List LPVOID × Option ServiceRoutine × Option ServiceRoutineParameter :=
  (x.2.1, (logOf x.1).started.map listenerOf, (x.2.2.heap.cells 16).map asRoutine,
    (x.2.2.heap.cells 32).map asParameters)

/-- A list of one pointer is registered, and fits. -/
theorem register_room_one : ∃ (w' : World .x64) (tr : Events .x64) (m₁ m₂ : Nat),
    (scRegisterServiceRoutineW 8192 4096 4096 (some []) : Code .x64 NTSTATUS).Runs (Alone 0 1)
        (registrar .x64 1) tr STATUS_SUCCESS w'
      ∧ (logOf tr).created = [(m₁, m₂)] ∧ parameterBufferSize 1 ≤ m₁ := by
  have hrun : (perform 0 1 (scRegisterServiceRoutineW 8192 4096 4096 (some []))
      (registers .x64 1) (registrar .x64 1)).map outcome
      = some (STATUS_SUCCESS, [16], some (.new 4 4096 32),
        some ⟨[⟨0x40, 0, 0⟩]⟩) := by decide +kernel
  obtain ⟨⟨tr, status, w'⟩, hrun, he⟩ := Option.map_eq_some_iff.mp hrun
  simp only [outcome, Prod.mk.injEq] at he
  obtain ⟨rfl, hstarted, hroutine, hlist⟩ := he
  have hrun := perform_runs hrun
  obtain ⟨d, p, m₁, m₂, hstart, hreg, hcreate, hiff, -⟩ := register_room hrun
  rw [hstart] at hstarted
  obtain rfl : d = 16 := List.singleton_injective hstarted
  obtain rfl := hreg.list_eq hroutine hlist
  exact ⟨w', tr, m₁, m₂, hrun, hcreate, hiff.mpr (by decide)⟩

/-- A list of 32 pointers is registered, and does not fit. -/
theorem register_too_long : ¬ ∀ (w w' : World .x64) (tr : Events .x64) (d : LPVOID)
    (p : ServiceRoutineParameter) (m₁ m₂ : Nat),
    (scRegisterServiceRoutineW 8192 4096 4096 (some []) : Code .x64 NTSTATUS).Runs (Alone 0 1)
      w tr STATUS_SUCCESS w' →
    (logOf tr).started = [.waitThread d] → Serves w' d 4096 p →
    (logOf tr).created = [(m₁, m₂)] → parameterBufferSize p.dwParameters ≤ m₁ := by
  intro h
  have hrun : (perform 0 1 (scRegisterServiceRoutineW 8192 4096 4096 (some []))
      (registers .x64 32) (registrar .x64 32)).map outcome
      = some (STATUS_SUCCESS, [16], some (.new 4 4096 32),
        some ⟨List.replicate 32 ⟨0x40, 0, 0⟩⟩) := by decide +kernel
  obtain ⟨⟨tr, status, w'⟩, hrun, he⟩ := Option.map_eq_some_iff.mp hrun
  simp only [outcome, Prod.mk.injEq] at he
  obtain ⟨rfl, hstarted, hroutine, hlist⟩ := he
  have hrun := perform_runs hrun
  obtain ⟨d, p, hstart, hreg, hcreate⟩ := register_run hrun
  have hle := h _ w' tr d p _ _ hrun hstart hreg hcreate
  rw [hstart] at hstarted
  obtain rfl : d = 16 := List.singleton_injective hstarted
  obtain rfl := hreg.list_eq hroutine hlist
  exact absurd hle (by decide)

end ScSequential
