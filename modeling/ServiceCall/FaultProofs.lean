import ServiceCall.OutcomeProofs

/-! # Faults

    The functions of the library are given pointers, and probe what lies there
    before they access it.  An access to bytes that cannot be accessed FAULTS: the
    process ends there, and nothing is returned.  `Safe` says that no run of a
    function comes to a fault, and `Reports` that it comes to its end with one
    status whatever happens.

    The probes of a registration count a shorter header than a list has, so an
    unreadable list is reported unless it is only the last four bytes that cannot
    be read (`register_reports`). -/

namespace ScFault

open LinearMemory OwnedHeap OpProg ByteReader ThreadSys ScParameter LpcMessage ScSystem
  ScServiceCall ScSequential ScFootprint ScProbe ScOutcome

variable {b : Build} {t n : Nat} {α β : Type}

/-! ## What faults -/

/-- `FIELD_OFFSET(SERVICE_ROUTINE, CloseEvent)` -/
def closeEventOffset (b : Build) : Nat := 6 * b.pointerSize

/-- An access through a pointer of the caller to bytes that cannot be accessed: to a list, to the
    place of a result, and of a descriptor to its first field `hPort` and to `CloseEvent`. -/
def Faults (b : Build) (pages : (Nat → Bool) × (Nat → Bool)) : Op → Prop
  | .api (.loadOwn a k) => Lpc.accessible pages.1 a k = false
  | .api (.storeOwn a bytes) => Lpc.accessible pages.2 a bytes.length = false
  | .heap (.load a .routine) => Lpc.accessible pages.1 a.toNat b.pointerSize = false
  | .setCloseEvent a => Lpc.accessible pages.2 (a.toNat + closeEventOffset b) 4 = false
  | _ => False

/-- Thread `t` among `n` performs one operation that does not fault. -/
def Allowed (t n : Nat) (o : Op) (w : World b) (r : Op.Ret b o) (w' : World b) : Prop :=
  ¬ Faults b w.lpc.access o ∧ Alone t n o w r w'

/-- No run of the program from `w` on comes to a fault. -/
def Safe (t n : Nat) (w : World b) (p : Code b α) : Prop :=
  ∀ (tr : Events b) (o : Op) (w' : World b), p.Comes (Allowed t n) w tr o w' →
    ¬ Faults b w'.lpc.access o

/-- The program comes to its end from `w` on, and returns `v` whatever happens. -/
def Reports (t n : Nat) (w : World b) (p : Code b α) (v : α) : Prop :=
  (∃ tr w', p.Runs (Allowed t n) w tr v w')
    ∧ ∀ (tr : Events b) (v' : α) (w' : World b), p.Runs (Allowed t n) w tr v' w' → v' = v

section Safe

variable {w w' : World b} {tr : Events b} {p : Code b α}

theorem alone_of_allowed {a : α} (h : p.Runs (Allowed t n) w tr a w') :
    p.Runs (Alone t n) w tr a w' := h.mono fun h => h.2

/-- What can be accessed stays so. -/
theorem access_run {a : α} (h : p.Runs (Allowed t n) w tr a w') :
    w'.lpc.access = w.lpc.access := by
  induction h with
  | ret => rfl
  | call hr _ ih =>
      obtain ⟨-, c, sp, hx⟩ := hr
      rw [ih, exec_access hx]

theorem access_comes {o : Op} (h : p.Comes (Allowed t n) w tr o w') :
    w'.lpc.access = w.lpc.access := by
  induction h with
  | here => rfl
  | call hr _ ih =>
      obtain ⟨-, c, sp, hx⟩ := hr
      rw [ih, exec_access hx]

/-- A program whose operations never fault is safe. -/
theorem safe_of_only (hp : p.Only fun o => ¬ Faults b w.lpc.access o) : Safe t n w p := by
  intro tr o w' h
  rw [access_comes h]
  exact hp.comes h

/-- Then it may access what it accesses. -/
theorem allowed_of_only (hp : p.Only fun o => ¬ Faults b w.lpc.access o) {a : α}
    (h : p.Runs (Alone t n) w tr a w') : p.Runs (Allowed t n) w tr a w' := by
  induction h with
  | ret => exact .ret ..
  | call hr _ ih =>
      obtain ⟨c, sp, hx⟩ := hr
      refine .call ⟨hp.1, c, sp, hx⟩ (ih ?_)
      rw [exec_access hx]
      exact hp.2 _

/-- A sequence is safe when its first part is, and its second part from where that ends. -/
theorem Safe.bind {f : α → Code b β} (hp : Safe t n w p)
    (hf : ∀ {tr a w₁}, p.Runs (Allowed t n) w tr a w₁ → Safe t n w₁ (f a)) :
    Safe t n w (p >>= f) := by
  intro tr o w' h
  rcases h.bind_inv with h | ⟨tr₁, tr₂, a, w₁, -, h₁, h₂⟩
  · exact hp _ _ _ h
  · exact hf h₁ _ _ _ h₂

theorem safe_ret (a : α) : Safe t n w (.ret a : Code b α) :=
  safe_of_only (p := .ret a) trivial

/-- Two probes, the second where the first found nothing wrong. -/
theorem Safe.orElse {x y : Code b Bool} (hx : Safe t n w x)
    (hy : ∀ {tr w₁}, x.Runs (Allowed t n) w tr false w₁ → Safe t n w₁ y) :
    Safe t n w (orElse x y) := by
  refine hx.bind ?_
  intro tr v w₁ h
  cases v with
  | true => exact safe_ret true
  | false => exact hy h

theorem safe_isBadReadPtr (a : LPVOID) (k : Nat) :
    Safe t n w (isBadReadPtr a k : Code b Bool) :=
  safe_of_only (p := isBadReadPtr a k) ⟨id, fun _ => trivial⟩

theorem safe_isBadWritePtr (a : LPVOID) (k : Nat) :
    Safe t n w (isBadWritePtr a k : Code b Bool) :=
  safe_of_only (p := isBadWritePtr a k) ⟨id, fun _ => trivial⟩

end Safe

/-! ## Probes come to an end -/

/-- The probe comes to its end, and changes nothing. -/
def Decides (t n : Nat) (w : World b) (x : Code b Bool) : Prop :=
  ∃ tr v, x.Runs (Allowed t n) w tr v w

section Decides

variable {w : World b} {x y : Code b Bool}

theorem Decides.orElse (hx : Decides t n w x)
    (hy : ∀ {tr}, x.Runs (Allowed t n) w tr false w → Decides t n w y) :
    Decides t n w (orElse x y) := by
  obtain ⟨tr, v, h⟩ := hx
  cases v with
  | true => exact ⟨_, true, h.bind (.ret ..)⟩
  | false =>
      obtain ⟨tr', v', h'⟩ := hy h
      exact ⟨_, v', h.bind h'⟩

theorem decides_isBadReadPtr (a : LPVOID) (k : Nat) :
    Decides t n w (isBadReadPtr a k : Code b Bool) :=
  ⟨_, _, .call ⟨id, .ok, none, rfl⟩ (.ret ..)⟩

theorem decides_isBadWritePtr (a : LPVOID) (k : Nat) :
    Decides t n w (isBadWritePtr a k : Code b Bool) :=
  ⟨_, _, .call ⟨id, .ok, none, rfl⟩ (.ret ..)⟩

theorem decides_notInitialized : Decides t n w (notInitialized : Code b Bool) := by
  refine Decides.orElse ?_ fun _ => ?_
  · exact ⟨_, _, .call ⟨id, .ok, none, rfl⟩ (.ret ..)⟩
  · exact ⟨_, _, .call ⟨id, .ok, none, rfl⟩ (.ret ..)⟩

end Decides

/-! ## Registrations -/

section Reads

variable {pages : (Nat → Bool) × (Nat → Bool)} {a : LPVOID} {k : Nat}

/-- A list of `k` entries at `a` can be read to its end. -/
def ListReadable (pages : (Nat → Bool) × (Nat → Bool)) (a : LPVOID) (k : Nat) : Prop :=
  Lpc.accessible pages.1 a.toNat (parameterBufferSize k) = true

instance : Decidable (ListReadable pages a k) :=
  inferInstanceAs (Decidable (Lpc.accessible pages.1 a.toNat (parameterBufferSize k) = true))

theorem ListReadable.inside (h : ListReadable pages a k) {x len : Nat}
    (hin : Inside a.toNat (a.toNat + parameterBufferSize k) (x, len)) :
    ¬ Faults b pages (.api (.loadOwn x len)) := by
  intro hfault
  have haccess : Lpc.accessible pages.1 x len = true := accessible_of_inside hin h
  rw [show Lpc.accessible pages.1 x len = false from hfault] at haccess
  cases haccess

/-- Then its reads do not fault. -/
theorem ListReadable.reads (h : ListReadable pages a k) {p : Code b α}
    (hp : p.Only (Reads a (parameterBufferSize k))) : p.Only fun o => ¬ Faults b pages o := by
  refine hp.mono fun o ho => ?_
  cases o with
  | api o =>
      cases o with
      | loadOwn x len => exact h.inside ho
      | _ => exact ho.elim
  | _ => exact ho.elim

/-- Neither does the loop of the capture. -/
theorem ListReadable.captureLoop (h : ListReadable pages a k) (c : LPVOID) {j i : Nat}
    (hij : i + j ≤ k) :
    (captureLoop (.own a) c j i : Code b LPVOID).Only fun o => ¬ Faults b pages o := by
  induction j generalizing i with
  | zero => trivial
  | succ j ih =>
      refine (h.reads (reads_readMask (by omega))).bind fun cbMask => ?_
      split
      · exact ⟨id, fun _ => trivial⟩
      · refine (h.reads (reads_readEntry (by omega))).bind fun e => ?_
        refine ⟨id, fun x => ⟨id, fun _ => ih (by omega)⟩⟩

end Reads

section Register

variable {w w' : World b} {tr : Events b} {hServiceRoutine lpServiceRoutine lpParameters : LPVOID}
  {name : Option (List WCHAR)}

/-- The first probe of a list lets its count be read. -/
theorem count_accessible
    (h : Lpc.accessible w.lpc.pages lpParameters.toNat parametersOffset = true) :
    (readCount (.own lpParameters) : Code b Nat).Only fun o => ¬ Faults b w.lpc.access o :=
  ListReadable.reads (k := 0) (show ListReadable w.lpc.access lpParameters 0 from h)
    (reads_readCount four_le_size)

theorem readCount_allowed {k : Nat}
    (h : (readCount (.own lpParameters) : Code b Nat).Runs (Allowed t n) w tr k w') :
    k = (callerList w lpParameters).dwParameters ∧ w' = w := readCount_run (alone_of_allowed h)

theorem safe_registerProbe :
    Safe t n w (registerProbe hServiceRoutine lpServiceRoutine lpParameters name
      : Code b Bool) := by
  refine Safe.orElse (safe_isBadWritePtr _ _) fun h₁ => ?_
  refine Safe.orElse (safe_isBadReadPtr _ _) fun h₂ => ?_
  refine Safe.orElse (safe_isBadReadPtr _ _) fun h₃ => ?_
  obtain ⟨hheader, rfl⟩ := isBadReadPtr_run (alone_of_allowed h₃)
  refine Safe.orElse ?_ fun _ => safe_ret _
  exact Safe.bind (safe_of_only (count_accessible (by simpa using hheader))) fun _ =>
    safe_isBadReadPtr _ _

theorem decides_registerProbe :
    Decides t n w (registerProbe hServiceRoutine lpServiceRoutine lpParameters name
      : Code b Bool) := by
  refine (decides_isBadWritePtr ..).orElse fun h₁ => ?_
  refine (decides_isBadReadPtr ..).orElse fun h₂ => ?_
  refine (decides_isBadReadPtr ..).orElse fun h₃ => ?_
  obtain ⟨hheader, -⟩ := isBadReadPtr_run (alone_of_allowed h₃)
  have hcount : Lpc.accessible w.lpc.pages lpParameters.toNat 4 = true :=
    accessible_of_inside (k := parametersOffset) (r := (lpParameters.toNat, 4))
      ⟨Nat.le_refl _, Nat.add_le_add_left (show 4 ≤ 8 by decide) _⟩ (by simpa using hheader)
  refine Decides.orElse ?_ fun _ => ⟨_, _, .ret ..⟩
  have hload : Allowed t n (.api (.loadOwn lpParameters.toNat 4)) w
      (slice (w.lpc.memory w.lpc.self).byte lpParameters.toNat 4) w := by
    have hread : Lpc.accessible (w.lpc.memory w.lpc.self).readable lpParameters.toNat 4 = true :=
      hcount
    refine ⟨fun hfault => ?_, .ok, none, by simp [ScSystem.exec, Api.exec, hread]⟩
    exact absurd (hfault.symm.trans hcount) Bool.false_ne_true
  exact ⟨_, _, .call hload (.call ⟨id, .ok, none, rfl⟩ (.ret ..))⟩

/-- The operations that never fault. -/
@[simp] def Tame : Op → Prop
  | .api (.loadOwn ..) => False
  | .api (.storeOwn ..) => False
  | .heap (.load _ .routine) => False
  | .setCloseEvent _ => False
  | _ => True

theorem Tame.not_faults {o : Op} (ho : Tame o) (pages : (Nat → Bool) × (Nat → Bool)) :
    ¬ Faults b pages o := by
  unfold Faults
  split <;> first | exact ho.elim | exact id

theorem safe_tame {p : Code b α} (hp : p.Only Tame) : Safe t n w p :=
  safe_of_only (hp.mono fun _ ho => ho.not_faults _)

/-- A capture does not fault where the whole list can be read. -/
theorem safe_rtlCaptureParameters {k : Nat} (h : ListReadable w.lpc.access lpParameters k)
    (hk : (callerList w lpParameters).dwParameters ≤ k) :
    Safe t n w (rtlCaptureParameters (.own lpParameters) : Code b LPVOID) := by
  refine Safe.bind (safe_of_only (h.reads (reads_readCount four_le_size))) fun hcount => ?_
  obtain ⟨rfl, rfl⟩ := readCount_allowed hcount
  refine safe_of_only ⟨id, fun c => ⟨id, fun _ => h.captureLoop c ?_⟩⟩
  rwa [Nat.zero_add]

/-- The end of a registration, with the list in a block of its own. -/
theorem safe_established {us : UnicodeString} {captured : LPVOID}
    (h : Lpc.accessible w.lpc.access.2 hServiceRoutine.toNat b.pointerSize = true) :
    Safe t n w (do
      let x ← ntCreatePort us b.ulMaxConnectionSize b.ulMaxMessageSize
      if ntSuccess x.1 then
        rtlFreeUnicodeString us
        let hResult ← newRoutine (.new x.2 lpServiceRoutine captured)
        if (← createThread (.waitThread hResult)) = 0 then
          free captured
          free hResult
          let _ ← ntClose x.2
          return STATUS_NO_MEMORY
        else
          storeOwn hServiceRoutine (toLE b.pointerSize hResult.toNat)
          return STATUS_SUCCESS
      else
        free captured
        rtlFreeUnicodeString us
        return STATUS_OBJECT_NAME_EXISTS : Code b NTSTATUS) := by
  have htame : ∀ {p : Code b NTSTATUS}, p.Only Tame → p.Only fun o => ¬ Faults b w.lpc.access o :=
    fun hp => hp.mono fun _ ho => ho.not_faults _
  refine safe_of_only ⟨id, fun x => ?_⟩
  show Prog.Only _ (if ntSuccess x.1 then _ else _)
  split
  · refine ⟨id, fun _ => ⟨id, fun d => ⟨id, fun _ => ⟨id, fun hThread => ?_⟩⟩⟩⟩
    show Prog.Only _ (if hThread = 0 then _ else _)
    split
    · exact htame (by simp)
    · refine ⟨fun hfault => ?_, fun _ => trivial⟩
      have hfault : Lpc.accessible w.lpc.access.2 hServiceRoutine.toNat
        (toLE b.pointerSize d.toNat).length = false := hfault
      rw [toLE_length, h] at hfault
      cases hfault
  · exact htame (by simp)

/-- What is captured has no more entries than the list of the caller. -/
theorem stored_count {w₁ w₂ : World b} {us : UnicodeString} {path : List WCHAR}
    {tr₁ tr₂ : Events b} {u : Unit}
    (hcreate : (rtlCreateUnicodeString path : Code b _).Runs (Allowed t n) w tr₁ us w₁)
    (hstore : (storeOwn hServiceRoutine (toLE b.pointerSize 0) : Code b Unit).Runs (Allowed t n)
      w₁ tr₂ u w₂) :
    (callerList w₂ lpParameters).dwParameters ≤ (callerList w lpParameters).dwParameters := by
  have hlpc : w₁.lpc = w.lpc :=
    congrArg Local.lpc (quiet_run (by simp) [] (alone_of_allowed hcreate))
  obtain ⟨-, -, c, sp, hx⟩ := hstore.op_inv
  have hwrite : w₂.lpc = w₁.lpc.writeMemory w₁.lpc.self hServiceRoutine.toNat
    (toLE b.pointerSize 0) := (solo_step hx).2
  have hself : w₂.lpc.self = w.lpc.self := by rw [hwrite, hlpc]; rfl
  have hmemory : w₂.lpc.memory w₂.lpc.self
      = (nullStored w.lpc hServiceRoutine).memory w.lpc.self := by
    rw [hself, hwrite, hlpc]
    rfl
  rw [callerList, hmemory, nullStored_byte]
  exact nulled_count ..

/-- A registration does not fault when, past its probes, the whole list can be read. -/
theorem safe_register (hread : Initialized w →
      RegisterProbes w hServiceRoutine lpServiceRoutine lpParameters name →
      ListReadable w.lpc.access lpParameters (callerList w lpParameters).dwParameters) :
    Safe t n w (scRegisterServiceRoutineW hServiceRoutine lpServiceRoutine lpParameters name
      : Code b NTSTATUS) := by
  refine Safe.bind (safe_tame (only_orElse (by simp) (by simp))) fun {_ no _} hno => ?_
  obtain ⟨rfl, hinit⟩ := tells_notInitialized.run (alone_of_allowed hno)
  cases no with
  | true => exact safe_ret _
  | false =>
  refine Safe.bind safe_registerProbe fun {_ bad _} hbad => ?_
  obtain ⟨rfl, hprobes⟩ := (tells_registerProbe ..).run (alone_of_allowed hbad)
  cases bad with
  | true => exact safe_ret _
  | false =>
  have hP := hprobes.mp rfl
  have hlist := hread (hinit.mp rfl) hP
  refine Safe.bind (safe_tame (by simp)) fun hcreate => ?_
  have haccess₁ := access_run hcreate
  refine Safe.bind (safe_of_only ⟨fun hfault => ?_, fun _ => trivial⟩) fun hstore => ?_
  · have hfault : Lpc.accessible _ hServiceRoutine.toNat (toLE b.pointerSize 0).length = false :=
      hfault
    rw [toLE_length, haccess₁] at hfault
    exact absurd (hfault.symm.trans hP.handle) Bool.false_ne_true
  have haccess₂ := (access_run hstore).trans haccess₁
  refine Safe.bind (safe_rtlCaptureParameters (haccess₂ ▸ hlist)
    (stored_count hcreate hstore)) fun hcapture => ?_
  split
  · exact safe_tame (by simp)
  · refine safe_established ?_
    rw [access_run hcapture, haccess₂]
    exact hP.handle

/-- Past its probes a registration does not return `STATUS_ACCESS_VIOLATION`. -/
theorem register_returns {status : NTSTATUS} (hinit : Initialized w)
    (hP : RegisterProbes w hServiceRoutine lpServiceRoutine lpParameters name)
    (h : (scRegisterServiceRoutineW hServiceRoutine lpServiceRoutine lpParameters name
      : Code b NTSTATUS).Runs (Allowed t n) w tr status w') : status ≠ STATUS_ACCESS_VIOLATION := by
  obtain ⟨_, _, no, w₁, -, hno, h⟩ := h.bind_inv
  obtain ⟨rfl, hiff⟩ := tells_notInitialized.run (alone_of_allowed hno)
  obtain rfl := hiff.mpr hinit
  obtain ⟨_, _, bad, w₂, -, hbad, h⟩ := Prog.Runs.bind_inv h
  obtain ⟨rfl, hiff⟩ := (tells_registerProbe ..).run (alone_of_allowed hbad)
  obtain rfl := hiff.mpr hP
  refine Prog.Returns.run (T := (· ≠ STATUS_ACCESS_VIOLATION)) ?_ h
  rw [if_neg Bool.false_ne_true]
  refine .bind _ fun us => .bind _ fun _ => .bind _ fun captured => ?_
  split
  · exact fun _ => show STATUS_INVALID_PARAMETER_3 ≠ _ by decide
  · refine .bind _ fun x => ?_
    split
    · refine .bind _ fun _ => .bind _ fun d => .bind _ fun hThread => ?_
      split
      · exact fun _ _ _ => show STATUS_NO_MEMORY ≠ _ by decide
      · exact fun _ => show STATUS_SUCCESS ≠ _ by decide
    · exact fun _ _ => show STATUS_OBJECT_NAME_EXISTS ≠ _ by decide

/-- A probe that fails is reported. -/
theorem register_refuses (hinit : Initialized w)
    (hP : ¬ RegisterProbes w hServiceRoutine lpServiceRoutine lpParameters name) :
    Reports t n w (scRegisterServiceRoutineW hServiceRoutine lpServiceRoutine lpParameters name
      : Code b NTSTATUS) STATUS_ACCESS_VIOLATION := by
  constructor
  · obtain ⟨_, no, hno⟩ := decides_notInitialized (t := t) (n := n) (w := w)
    obtain rfl := (tells_notInitialized.run (alone_of_allowed hno)).2.mpr hinit
    obtain ⟨_, bad, hbad⟩ : Decides t n w (registerProbe hServiceRoutine lpServiceRoutine
      lpParameters name) := decides_registerProbe
    have hiff := ((tells_registerProbe ..).run (alone_of_allowed hbad)).2
    cases bad with
    | true => exact ⟨_, w, hno.bind (hbad.bind (.ret ..))⟩
    | false => exact absurd (hiff.mp rfl) hP
  · intro tr status w' h
    obtain ⟨_, _, no, w₁, -, hno, h⟩ := h.bind_inv
    obtain ⟨rfl, hiff⟩ := tells_notInitialized.run (alone_of_allowed hno)
    obtain rfl := hiff.mpr hinit
    obtain ⟨_, _, bad, w₂, -, hbad, h⟩ := Prog.Runs.bind_inv h
    obtain ⟨rfl, hiff⟩ := (tells_registerProbe ..).run (alone_of_allowed hbad)
    cases bad with
    | true =>
        cases h
        rfl
    | false => exact absurd (hiff.mp rfl) hP

/-- Past the probes all but the last four bytes of the list can be read. -/
theorem probed_readable
    (hP : RegisterProbes w hServiceRoutine lpServiceRoutine lpParameters name)
    (hfit : parameterBufferSize (callerList w lpParameters).dwParameters < 2 ^ 32) :
    ListReadable w.lpc.access lpParameters (callerList w lpParameters).dwParameters
      ↔ (callerList w lpParameters).dwParameters = 0 ∨
        Lpc.accessible w.lpc.pages (lpParameters.toNat
          + (parameterBufferSize (callerList w lpParameters).dwParameters - 4)) 4 = true := by
  have hheader := hP.header
  have hentries := hP.entries
  generalize (callerList w lpParameters).dwParameters = k at *
  have hsize : 2 ^ 32 ≤ 256 ^ b.pointerSize := by cases b <;> decide
  have hlt : k * blobSize + 4 < 256 ^ b.pointerSize := by
    rw [parameterBufferSize, parametersOffset] at hfit
    rw [blobSize] at *
    omega
  rw [sizeT, Nat.mod_eq_of_lt hlt] at hentries
  show Lpc.accessible w.lpc.pages _ _ = true ↔ _
  rw [accessible_iff] at hheader hentries
  rw [accessible_iff, accessible_iff]
  rw [parameterBufferSize, parametersOffset, blobSize] at *
  constructor
  · intro h
    refine Or.inr fun i hi hlt => h i (by omega) (by omega)
  · rintro (rfl | h) i hi hlt
    · exact hheader i hi hlt
    · by_cases hi' : i < lpParameters.toNat + (k * 16 + 4)
      · exact hentries i hi hi'
      · exact h i (by omega) (by omega)

/-- **AN UNREADABLE LIST IS REPORTED** by a registration, and none makes it fault, exactly when a
    probe fails, or the list is empty, or its last four bytes can be read. -/
theorem register_reports (t n : Nat) (w : World b)
    (hServiceRoutine lpServiceRoutine lpParameters : LPVOID) (name : Option (List WCHAR))
    (hfit : parameterBufferSize (callerList w lpParameters).dwParameters < 2 ^ 32) :
    (Safe t n w (scRegisterServiceRoutineW hServiceRoutine lpServiceRoutine lpParameters name)
      ∧ (Initialized w →
        ¬ ListReadable w.lpc.access lpParameters (callerList w lpParameters).dwParameters →
        Reports t n w (scRegisterServiceRoutineW hServiceRoutine lpServiceRoutine lpParameters
          name) STATUS_ACCESS_VIOLATION))
      ↔ ¬ Initialized w ∨ ¬ RegisterProbes w hServiceRoutine lpServiceRoutine lpParameters name
        ∨ (callerList w lpParameters).dwParameters = 0
        ∨ Lpc.accessible w.lpc.pages (lpParameters.toNat
          + (parameterBufferSize (callerList w lpParameters).dwParameters - 4)) 4 = true := by
  constructor
  · rintro ⟨-, hreports⟩
    by_contra hno
    simp only [not_or, not_not] at hno
    obtain ⟨hinit, hP, h0, hend⟩ := hno
    have hlist := mt (probed_readable hP hfit).mp (not_or.mpr ⟨h0, hend⟩)
    obtain ⟨tr, w', hrun⟩ := (hreports hinit hlist).1
    exact register_returns hinit hP hrun rfl
  · intro h
    by_cases hprobes : Initialized w ∧
      RegisterProbes w hServiceRoutine lpServiceRoutine lpParameters name
    · obtain ⟨hinit, hP⟩ := hprobes
      have hlist := (probed_readable hP hfit).mpr ((h.resolve_left (not_not.mpr hinit)).resolve_left
        (not_not.mpr hP))
      exact ⟨safe_register fun _ _ => hlist, fun _ hno => absurd hlist hno⟩
    · refine ⟨safe_register fun hinit hP => absurd ⟨hinit, hP⟩ hprobes, fun hinit _ => ?_⟩
      exact register_refuses hinit fun hP => hprobes ⟨hinit, hP⟩

end Register

/-- A process with a list of one pointer at address 4096, that can read the addresses below
    `k`. -/
def bordered (k : Nat) : World .x64 :=
  let w := registrar .x64 1
  { w with lpc := { w.lpc with memory := fun pid =>
      { w.lpc.memory pid with readable := fun a => decide (a < k) } } }

/-- A list that is readable to its end is registered without a fault, and one that is not
    readable at all is reported. -/
theorem register_reports_whole :
    Safe 0 1 (bordered 4120) (scRegisterServiceRoutineW 8192 4080 4096 (some []))
    ∧ Reports 0 1 (bordered 4096) (scRegisterServiceRoutineW 8192 4080 4096 (some []))
      STATUS_ACCESS_VIOLATION := by
  refine ⟨((register_reports 0 1 (bordered 4120) 8192 4080 4096 (some []) (by decide +kernel)).mpr
    (Or.inr (Or.inr (Or.inr (by decide +kernel))))).1, ?_⟩
  refine ((register_reports 0 1 (bordered 4096) 8192 4080 4096 (some []) (by decide +kernel)).mpr
    (Or.inr (Or.inl fun hP => ?_))).2 ⟨rfl, rfl⟩ (by decide +kernel)
  exact absurd hP.header (by decide +kernel)

/-- A list whose last four bytes lie behind the readable addresses passes the probes. -/
theorem register_reports_border : ¬ ∀ (w : World .x64)
    (hServiceRoutine lpServiceRoutine lpParameters : LPVOID) (name : Option (List WCHAR)),
    parameterBufferSize (callerList w lpParameters).dwParameters < 2 ^ 32 →
    Safe 0 1 w (scRegisterServiceRoutineW hServiceRoutine lpServiceRoutine lpParameters name)
      ∧ (Initialized w →
        ¬ ListReadable w.lpc.access lpParameters (callerList w lpParameters).dwParameters →
        Reports 0 1 w (scRegisterServiceRoutineW hServiceRoutine lpServiceRoutine lpParameters
          name) STATUS_ACCESS_VIOLATION) := by
  intro h
  have hreports := (h (bordered 4116) 8192 4080 4096 (some []) (by decide +kernel)).2 ⟨rfl, rfl⟩
    (by decide +kernel)
  obtain ⟨tr, w', hrun⟩ := hreports.1
  refine register_returns ⟨rfl, rfl⟩ ⟨?_, ?_, ?_, ?_, rfl⟩ hrun rfl <;> decide +kernel

end ScFault
