import ServiceCall.WorkerProofs

/-! # What a worker makes of the client's values

    The values of a list reach the routine as dwords on the stack of the 32-bit
    build, after the worker cut them to the width that their mask names
    (`value_pushed`).  Nobody on this side looks whether a pointer that may not be
    null is null: it is noticed only because reading at address 0 fails
    (`null_not_invoked`). -/

namespace ScSequential

open LinearMemory OwnedHeap OpProg ThreadSys ScParameter LpcMessage ScSystem
  ScServiceCall ScOwnership

variable {b : Build}

/-- The lowest `k` bits. -/
theorem toNat_and_mask (u : ULONG64) {k : Nat} (hk : k < 64) :
    (u &&& UInt64.ofNat (2 ^ k - 1)).toNat = u.toNat % 2 ^ k := by
  have hpow : 2 ^ k ≤ 2 ^ 64 := Nat.pow_le_pow_right (by decide) (by omega)
  rw [UInt64.toNat_and, UInt64.toNat_ofNat', Nat.mod_eq_of_lt (by omega),
    Nat.and_two_pow_sub_one_eq_mod]

/-! ## Runs of a worker up to the routine -/

section Runs

variable {t n : Nat} {w w' : World b} {tr : Events b} {lpService : LPVOID}
  {r : ServiceRoutine} {p : ServiceRoutineParameter} {l : Option Label}

/-- A worker calls the routine once, with its mapped list, or not at all. -/
theorem workerThread_run (E : Employed w.heap.cells lpService r p)
    (hrun : (workerThread lpService : Code b _).Runs (Alone t n) w tr l w') :
    (∃ tmp q dwThread, l = some (.routine lpService tmp dwThread (buffers b q))
        ∧ Employed w'.heap.cells lpService r (normalized b p)
        ∧ w'.heap.cells tmp = some (.parameters q)
        ∧ List.Forall₂ (MapsTo b (clientOf w.lpc r.hClientProcess) w'.heap.cells)
          (normalized b p).parameters q.parameters
        ∧ (logOf tr).access = ⟨(mapRanges b (normalized b p).parameters).map (·, true), [], [],
          [], [(r.lpRoutine, arguments b q)]⟩) ∨
      (l = none ∧ ∃ pre e post, (normalized b p).parameters = pre ++ e :: post
        ∧ needsBuffer e = true
        ∧ Access.FailsAt b ⟨[], [], [], [], []⟩ pre e (logOf tr).access) := by
  have hwp : wp (solo t n) (workerThread lpService : Code b _) (fun l g =>
      (∃ tmp q dwThread, l = some (.routine lpService tmp dwThread (buffers b q))
        ∧ Employed g.cells lpService r (normalized b p) ∧ g.cells tmp = some (.parameters q)
        ∧ List.Forall₂ (MapsTo b (clientOf w.lpc r.hClientProcess) g.cells)
          (normalized b p).parameters q.parameters
        ∧ g.log.access = ⟨(mapRanges b (normalized b p).parameters).map (·, true), [], [],
          [], [(r.lpRoutine, arguments b q)]⟩) ∨
      (l = none ∧ ∃ pre e post, (normalized b p).parameters = pre ++ e :: post
        ∧ needsBuffer e = true ∧ Access.FailsAt b ⟨[], [], [], [], []⟩ pre e g.log.access))
      (Local.of w []) := by
    refine solo_workerThread E ?_ ?_
    · intro g tmp q dwThread E' hlist hmaps hlog
      exact Or.inl ⟨tmp, ⟨q⟩, dwThread, rfl, E', hlist, hmaps, hlog⟩
    · intro g pre e post hp he hfail
      exact Or.inr ⟨rfl, pre, e, post, hp, he, hfail⟩
  exact solo_sound hwp hrun

end Runs

/-! ## Values -/

/-- The width of a value parameter: that of the first size bit in the order QW, DW, WO, BY,
    where a quad word is a double word in the 32-bit build. -/
def valueWidth (cbMask : BYTE) : Nat :=
  if hasBits cbMask 0b00001000 then 32
  else if hasBits cbMask 0b00000100 then 32
  else if hasBits cbMask 0b00000010 then 16
  else 8

/-- The width that the worker cuts a value to. -/
def keptWidth (cbMask : BYTE) : Nat :=
  if hasBits cbMask 0b00000100 then 32
  else if hasBits cbMask 0b00000010 then 16
  else if hasBits cbMask 0b00000001 then 8
  else 32

/-- The worker leaves the mask. -/
@[simp] theorem normalizeBlob_mask (e : ServiceParameterBlob) :
    (normalizeBlob e).parameterMask = e.parameterMask := by
  unfold normalizeBlob
  split <;> (try split) <;> (try split) <;> (try split) <;> rfl

/-- The loop of `__x86ServiceCall`: the dwords it pushes, with `ecx` entries to go. -/
def x86Pushes (p : ServiceRoutineParameter) : Nat → List DWORD
  | 0 => []
  | ecx + 1 => (entry p ecx).ulParameter.toUInt32 :: x86Pushes p ecx

/-- `__x86ServiceCall`: the arguments as they lie on the stack. -/
def x86ServiceCall (p : ServiceRoutineParameter) : List DWORD :=
  (x86Pushes p p.dwParameters).reverse

theorem x86Pushes_reverse (p : ServiceRoutineParameter) {k : Nat} (hk : k ≤ p.dwParameters) :
    (x86Pushes p k).reverse
      = (p.parameters.take k).map fun e => e.ulParameter.toUInt32 := by
  induction k with
  | zero => rfl
  | succ k ih =>
      have hget : p.parameters[k]? = some (entry p k) := by
        rw [entry, List.getD_eq_getElem?_getD, List.getElem?_eq_getElem (by exact hk)]
        rfl
      rw [x86Pushes, List.reverse_cons, ih (by omega), List.take_add_one, hget]
      simp

theorem x86ServiceCall_eq (p : ServiceRoutineParameter) :
    x86ServiceCall p = p.parameters.map fun e => e.ulParameter.toUInt32 := by
  rw [x86ServiceCall, x86Pushes_reverse p (Nat.le_refl _), ServiceRoutineParameter.dwParameters,
    List.take_length]

/-- The stack holds the arguments of the call. -/
theorem arguments_x86 (p : ServiceRoutineParameter) :
    (arguments .x86 p).map UInt64.toNat = (x86ServiceCall p).map UInt32.toNat := by
  rw [x86ServiceCall_eq, arguments, List.map_map, List.map_map]
  refine List.map_congr_left ?_
  intro e _
  show (e.ulParameter &&& 0xffffffff).toNat = e.ulParameter.toUInt32.toNat
  rw [UInt64.toNat_toUInt32]
  exact toNat_and_mask _ (k := 32) (by decide)

/-- A value is cut to the width kept. -/
theorem normalizeBlob_value {e : ServiceParameterBlob} (h : isValue e.parameterMask = true) :
    (normalizeBlob e).ulParameter.toUInt32.toNat
      = e.ulParameter.toNat % 2 ^ keptWidth e.parameterMask := by
  have cut : ∀ k : Nat, k ≤ 32 → (e.ulParameter &&& UInt64.ofNat (2 ^ k - 1)).toUInt32.toNat
      = e.ulParameter.toNat % 2 ^ k := by
    intro k hk
    rw [UInt64.toNat_toUInt32, toNat_and_mask _ (by omega), Nat.mod_eq_of_lt]
    exact Nat.lt_of_lt_of_le (Nat.mod_lt _ (Nat.two_pow_pos k))
      (Nat.pow_le_pow_right (by decide) hk)
  rw [isValue] at h
  rw [normalizeBlob, if_pos h, keptWidth]
  split
  · exact cut 32 (by decide)
  · split
    · exact cut 16 (by decide)
    · split
      · exact cut 8 (by decide)
      · rw [UInt64.toNat_toUInt32]

/-- Less is kept exactly where QW comes first, and WO or BY without DW besides. -/
theorem keptWidth_lt {cbMask : BYTE} : keptWidth cbMask < valueWidth cbMask ↔
    hasBits cbMask 0b00001000 = true ∧ hasBits cbMask 0b00000100 = false
      ∧ (hasBits cbMask 0b00000010 = true ∨ hasBits cbMask 0b00000001 = true) := by
  unfold keptWidth valueWidth
  cases hasBits cbMask 0b00001000 <;> cases hasBits cbMask 0b00000100 <;>
    cases hasBits cbMask 0b00000010 <;> cases hasBits cbMask 0b00000001 <;> simp

/-- A quad word with WO or BY, and without DW, is no longer than those say. -/
def ValueFits (e : ServiceParameterBlob) : Prop :=
  hasBits e.parameterMask 0b00001000 = true → hasBits e.parameterMask 0b00000100 = false →
    (hasBits e.parameterMask 0b00000010 = true → e.ulParameter.toNat % 2 ^ 32 < 2 ^ 16)
    ∧ (hasBits e.parameterMask 0b00000010 = false → hasBits e.parameterMask 0b00000001 = true →
      e.ulParameter.toNat % 2 ^ 32 < 2 ^ 8)

/-- It fits into what is kept. -/
theorem valueFits_iff {e : ServiceParameterBlob} : ValueFits e ↔
    (keptWidth e.parameterMask < valueWidth e.parameterMask →
      e.ulParameter.toNat % 2 ^ 32 < 2 ^ keptWidth e.parameterMask) := by
  rw [keptWidth_lt, ValueFits, keptWidth]
  cases hasBits e.parameterMask 0b00001000 <;> cases hasBits e.parameterMask 0b00000100 <;>
    cases hasBits e.parameterMask 0b00000010 <;> cases hasBits e.parameterMask 0b00000001 <;> simp

/-- Cutting to fewer bits is no different for a number that has no more. -/
theorem mod_two_pow_eq_iff {x k w : Nat} (h : k ≤ w) :
    x % 2 ^ k = x % 2 ^ w ↔ x % 2 ^ w < 2 ^ k := by
  rw [← Nat.mod_mod_of_dvd x (Nat.pow_dvd_pow 2 h)]
  constructor
  · intro he
    rw [← he]
    exact Nat.mod_lt _ (Nat.two_pow_pos k)
  · exact fun hlt => Nat.mod_eq_of_lt hlt

/-- One of the bits of two masks. -/
theorem hasBits_or (cbMask x y : BYTE) :
    hasBits cbMask (x ||| y) = (hasBits cbMask x || hasBits cbMask y) := by
  have hand : cbMask &&& (x ||| y) = (cbMask &&& x) ||| (cbMask &&& y) := by
    apply UInt8.toBitVec_inj.mp
    ext i hi
    simp [Bool.and_or_distrib_left]
  rw [Bool.eq_iff_iff, hasBits, hasBits, hasBits, hand]
  simp only [bne_iff_ne, ne_eq, UInt8.or_eq_zero_iff, Bool.or_eq_true]
  tauto

/-- A valid value is never kept wider than its mask says. -/
theorem keptWidth_le {cbMask : BYTE} (h : maskRefused cbMask = false)
    (hv : isValue cbMask = true) : keptWidth cbMask ≤ valueWidth cbMask := by
  rw [isValue] at hv
  have hsize : hasBits cbMask 0b00001111 = true := by
    rw [maskRefused, if_pos hv, Bool.or_eq_false_iff, Bool.or_eq_false_iff] at h
    simpa using h.2.2
  have hsome : hasBits cbMask 0b00001000 = true ∨ hasBits cbMask 0b00000100 = true
      ∨ hasBits cbMask 0b00000010 = true ∨ hasBits cbMask 0b00000001 = true := by
    rw [show (0b00001111 : BYTE) = 0b00001000 ||| 0b00000100 ||| 0b00000010 ||| 0b00000001
      from rfl, hasBits_or, hasBits_or, hasBits_or] at hsize
    simpa [or_assoc] using hsize
  unfold keptWidth valueWidth
  revert hsome
  cases hasBits cbMask 0b00001000 <;> cases hasBits cbMask 0b00000100 <;>
    cases hasBits cbMask 0b00000010 <;> cases hasBits cbMask 0b00000001 <;> simp

/-- What is kept of a value is the value at its width when it fits. -/
theorem value_eq_iff {e : ServiceParameterBlob} (h : maskRefused e.parameterMask = false)
    (hv : isValue e.parameterMask = true) :
    e.ulParameter.toNat % 2 ^ keptWidth e.parameterMask
        = e.ulParameter.toNat % 2 ^ valueWidth e.parameterMask ↔ ValueFits e := by
  have hle := keptWidth_le h hv
  rw [mod_two_pow_eq_iff hle, valueFits_iff]
  constructor
  · intro hlt hk
    rwa [show valueWidth e.parameterMask = 32 by
      rw [valueWidth, if_pos (keptWidth_lt.mp hk).1]] at hlt
  · intro hfit
    rcases Nat.lt_or_eq_of_le hle with hk | hk
    · rw [show valueWidth e.parameterMask = 32 by
        rw [valueWidth, if_pos (keptWidth_lt.mp hk).1]]
      exact hfit hk
    · rw [hk]
      exact Nat.mod_lt _ (Nat.two_pow_pos _)

/-- A value is no pointer. -/
theorem hasBits_of_isValue {cbMask : BYTE} (h : maskRefused cbMask = false)
    (hv : isValue cbMask = true) : hasBits cbMask 0b01000000 = false := by
  rw [isValue] at hv
  rw [maskRefused, if_pos hv] at h
  simp only [Bool.or_eq_false_iff] at h
  exact h.2.1.1

section Pushed

variable {t n : Nat} {w w' : World .x86} {tr : Events .x86} {lpService : LPVOID}
  {r : ServiceRoutine} {p : ServiceRoutineParameter} {l : Label}

/-- A value is pushed as the worker keeps it: what was mapped is what was captured, since it
    is no pointer. -/
theorem pushed_value {q : ServiceRoutineParameter} {own : Blocks}
    {client : Option (HANDLE × VirtualMemory)} {i : Nat} {e : ServiceParameterBlob} (hp : p.Valid)
    (hmaps : List.Forall₂ (MapsTo .x86 client own) (normalized .x86 p).parameters q.parameters)
    (he : p.parameters[i]? = some e) (hv : isValue e.parameterMask = true) :
    (x86ServiceCall q)[i]? = some (normalizeBlob e).ulParameter.toUInt32 := by
  have hvalid := hp e (List.mem_of_getElem? he)
  have hnorm : (normalized .x86 p).parameters[i]? = some (normalizeBlob e) := by
    show (p.parameters.map normalizeBlob)[i]? = _
    rw [List.getElem?_map, he]
    rfl
  have hqi : q.parameters[i]? = some (normalizeBlob e) := by
    obtain ⟨hi, -⟩ := List.getElem?_eq_some_iff.mp hnorm
    have he' := List.getElem?_eq_getElem (hmaps.length_eq ▸ hi)
    have hmap := forall₂_getElem? hmaps hnorm he'
    rw [MapsTo, needsBuffer, normalizeBlob_mask, hasBits_of_isValue hvalid hv] at hmap
    rw [he']
    exact congrArg some (by simpa using hmap)
  rw [x86ServiceCall_eq, List.getElem?_map, hqi]
  rfl

/-- **A VALUE IS PUSHED** as the documented order of the size bits says exactly when it fits
    into the bits that the worker keeps. -/
theorem value_pushed (E : Employed w.heap.cells lpService r p) (hp : p.Valid)
    (hrun : (workerThread lpService : Code .x86 _).Runs (Alone t n) w tr (some l) w') :
    ∃ tmp q, w'.heap.cells tmp = some (.parameters q)
      ∧ (logOf tr).invoked = [(r.lpRoutine, arguments .x86 q)]
      ∧ (arguments .x86 q).map UInt64.toNat = (x86ServiceCall q).map UInt32.toNat
      ∧ ∀ (i : Nat) (e : ServiceParameterBlob), p.parameters[i]? = some e →
        isValue e.parameterMask = true → ∃ d, (x86ServiceCall q)[i]? = some d
          ∧ (d.toNat = e.ulParameter.toNat % 2 ^ valueWidth e.parameterMask ↔ ValueFits e) := by
  rcases workerThread_run E hrun with ⟨tmp, q, dwThread, -, -, hq, hmaps, hlog⟩ | ⟨hl, -⟩
  · refine ⟨tmp, q, hq, congrArg Access.invoked hlog, arguments_x86 q, ?_⟩
    intro i e he hv
    refine ⟨(normalizeBlob e).ulParameter.toUInt32, pushed_value hp hmaps he hv, ?_⟩
    rw [normalizeBlob_value hv]
    exact value_eq_iff (hp e (List.mem_of_getElem? he)) hv
  · exact nomatch hl

end Pushed

/-- A worker at 16 with the message at 32 and the captured list `p` at 48; the process of
    its client is open at handle 4. -/
def employee (b : Build) (p : ServiceRoutineParameter) : World b :=
  let w := (World.initialized b).withBlocks [(16, .routine { ServiceRoutine.new 12 1000 0 with
      hServerPort := 8, hClientProcess := 4, lm := 32, lpParameters := 48 }),
    (32, .message (fun _ => 0) b.lpcpMaxMessageSize), (48, .parameters p)]
  { w with lpc := w.lpc.opened 4 (.process 7) }

theorem employed_employee (b : Build) (p : ServiceRoutineParameter) :
    Employed (employee b p).heap.cells 16 { ServiceRoutine.new 12 1000 0 with
      hServerPort := 8, hClientProcess := 4, lm := 32, lpParameters := 48 } p :=
  ⟨rfl, ⟨_, _, rfl⟩, rfl⟩

/-- A list of one value. -/
def oneValue (cbMask : BYTE) (u : ULONG64) : ServiceRoutineParameter := ⟨[⟨cbMask, 0, u⟩]⟩

/-- The choices of a worker of the 32-bit build with one value. -/
def dispatchesValue : List (Choice .x86) :=
  List.replicate 12 .ok ++ .fresh 64 (.parameters ⟨[⟨0, 0, 0⟩]⟩) :: List.replicate 6 .ok

/-- A quad word is pushed as its lower half. -/
theorem value_pushed_quad : ∃ (w' : World .x86) (tr : Events .x86) (l : Label)
    (q : ServiceRoutineParameter),
    (workerThread 16 : Code .x86 _).Runs (Alone 0 1) (employee .x86 (oneValue 0x88 0x500000007))
        tr (some l) w'
      ∧ ∃ d, (x86ServiceCall q)[0]? = some d ∧ d.toNat = 7 := by
  have hrun : (perform 0 1 (workerThread 16) dispatchesValue
      (employee .x86 (oneValue 0x88 0x500000007))).map (fun x => x.2.1.isSome)
      = some true := by decide +kernel
  obtain ⟨⟨tr, l, w'⟩, hrun, hl⟩ := Option.map_eq_some_iff.mp hrun
  obtain ⟨l, rfl⟩ := Option.isSome_iff_exists.mp hl
  have hrun := perform_runs hrun
  obtain ⟨tmp, q, -, -, -, hval⟩ := value_pushed (employed_employee ..) (by decide) hrun
  obtain ⟨d, hd, hiff⟩ := hval 0 _ rfl rfl
  exact ⟨w', tr, l, q, hrun, d, hd, hiff.mpr (fun _ _ => ⟨nofun, nofun⟩)⟩

/-- A quad word that is a word too loses what is above the word. -/
theorem value_pushed_word : ¬ ∀ (w w' : World .x86) (tr : Events .x86) (l : Label)
    (r : ServiceRoutine) (p q : ServiceRoutineParameter) (tmp : LPVOID),
    Employed w.heap.cells 16 r p → p.Valid →
    (workerThread 16 : Code .x86 _).Runs (Alone 0 1) w tr (some l) w' →
    w'.heap.cells tmp = some (.parameters q) →
    (logOf tr).invoked = [(r.lpRoutine, arguments .x86 q)] →
    ∀ (i : Nat) (e : ServiceParameterBlob) (d : DWORD), p.parameters[i]? = some e →
      isValue e.parameterMask = true → (x86ServiceCall q)[i]? = some d →
      d.toNat = e.ulParameter.toNat % 2 ^ valueWidth e.parameterMask := by
  intro h
  have hrun : (perform 0 1 (workerThread 16) dispatchesValue
      (employee .x86 (oneValue 0x8a 0x12345))).map (fun x => x.2.1.isSome)
      = some true := by decide +kernel
  obtain ⟨⟨tr, l, w'⟩, hrun, hl⟩ := Option.map_eq_some_iff.mp hrun
  obtain ⟨l, rfl⟩ := Option.isSome_iff_exists.mp hl
  have hrun := perform_runs hrun
  have hp : (oneValue 0x8a 0x12345).Valid := by decide
  rcases workerThread_run (employed_employee ..) hrun with
    ⟨tmp, q, dwThread, -, -, hq, hmaps, hlog⟩ | ⟨hl, -⟩
  · have := h _ w' tr l _ _ q tmp (employed_employee ..) hp hrun hq
      (congrArg Access.invoked hlog) 0 _ _ rfl rfl (pushed_value hp hmaps rfl rfl)
    exact absurd this (by decide +kernel)
  · exact nomatch hl

/-! ## Null pointers -/

/-- A null pointer where none is allowed. -/
def isNull (e : ServiceParameterBlob) : Bool :=
  hasBits e.parameterMask 0b01000000 && !hasBits e.parameterMask 0b00100000
    && e.ulParameter == 0

/-- What becomes of an entry before it is mapped. -/
def normalizedBlob (b : Build) (e : ServiceParameterBlob) : ServiceParameterBlob :=
  match b with
  | .x64 => e
  | .x86 => normalizeBlob e

theorem normalized_parameters (b : Build) (p : ServiceRoutineParameter) :
    (normalized b p).parameters = p.parameters.map (normalizedBlob b) := by
  cases b with
  | x64 => exact (List.map_id _).symm
  | x86 => rfl

/-- A pointer is cut to the width of pointers. -/
theorem normalizedBlob_pointer {e : ServiceParameterBlob} (h : maskRefused e.parameterMask = false)
    (hp : hasBits e.parameterMask 0b01000000 = true) :
    normalizedBlob b e = { e with ulParameter := b.toPointer e.ulParameter } := by
  have hv : hasBits e.parameterMask 0b10000000 = false := by
    by_contra hv
    rw [Bool.not_eq_false] at hv
    rw [hasBits_of_isValue h hv] at hp
    exact nomatch hp
  cases b with
  | x64 => rfl
  | x86 =>
      rw [normalizedBlob, normalizeBlob, if_neg (by rw [hv]; exact Bool.false_ne_true)]
      rfl

theorem toPointer_toPointer (b : Build) (u : ULONG64) :
    b.toPointer (b.toPointer u) = b.toPointer u := by
  cases b with
  | x64 => rfl
  | x86 =>
      show u &&& 0xffffffff &&& 0xffffffff = u &&& 0xffffffff
      rw [UInt64.and_assoc, UInt64.and_self]

/-- The range of the client is that of the captured entry. -/
theorem clientRange_normalizedBlob {e : ServiceParameterBlob}
    (h : maskRefused e.parameterMask = false) (hp : hasBits e.parameterMask 0b01000000 = true) :
    clientRange b (normalizedBlob b e) = clientRange b e := by
  rw [normalizedBlob_pointer h hp, clientRange, clientRange, toPointer_toPointer]

@[simp] theorem normalizedBlob_mask (b : Build) (e : ServiceParameterBlob) :
    (normalizedBlob b e).parameterMask = e.parameterMask := by
  cases b with
  | x64 => rfl
  | x86 => exact normalizeBlob_mask e

theorem toPointer_zero (b : Build) : b.toPointer 0 = 0 := by cases b <;> rfl

/-- A null pointer where none is allowed is to be read, at address 0. -/
theorem needsBuffer_of_isNull {e : ServiceParameterBlob} (hn : isNull e = true) :
    needsBuffer (normalizedBlob b e) = true := by
  simp only [isNull, Bool.and_eq_true] at hn
  rw [needsBuffer, normalizedBlob_mask, hn.1.1, hn.1.2]
  rfl

theorem clientRange_of_isNull {e : ServiceParameterBlob} (hn : isNull e = true) :
    clientRange b e = (0, e.dwMaxBufferSize.toNat) := by
  simp only [isNull, Bool.and_eq_true, beq_iff_eq] at hn
  rw [clientRange, hn.2, toPointer_zero]
  rfl

/-- What is read for a pointer that is null is for one where none is allowed. -/
theorem isNull_of_needsBuffer {e : ServiceParameterBlob} (h : maskRefused e.parameterMask = false)
    (hb : needsBuffer (normalizedBlob b e) = true) (h0 : e.ulParameter = 0) :
    isNull e = true := by
  rw [needsBuffer, normalizedBlob_mask, Bool.and_eq_true, Bool.or_eq_true] at hb
  rw [isNull, hb.1, h0]
  rcases hb.2 with hl | hl
  · rw [hl]
    rfl
  · rw [normalizedBlob_pointer h hb.1, h0, toPointer_zero] at hl
    cases hl

section Null

variable {t n : Nat} {w w' : World b} {tr : Events b} {lpService : LPVOID}
  {r : ServiceRoutine} {p : ServiceRoutineParameter} {l : Option Label}

/-- **A NULL POINTER** keeps the routine from being called exactly when there is one with a
    size, or the mapping fails for something else. -/
theorem null_not_invoked (E : Employed w.heap.cells lpService r p) (hp : p.Valid)
    (hrun : (workerThread lpService : Code b _).Runs (Alone t n) w tr l w')
    (hzero : ∀ x ∈ (logOf tr).reads, x.1.2 = 0 → x.2 = true)
    (hnull : ∀ x ∈ (logOf tr).reads, x.1.1 = 0 → x.1.2 ≠ 0 → x.2 = false) :
    (logOf tr).invoked = [] ↔
      (∃ e ∈ p.parameters, isNull e = true ∧ e.dwMaxBufferSize ≠ 0)
      ∨ (logOf tr).refused ≠ []
      ∨ ∃ e ∈ p.parameters, e.ulParameter ≠ 0 ∧ (clientRange b e, false) ∈ (logOf tr).reads := by
  rcases workerThread_run E hrun with ⟨tmp, q, dwThread, -, -, -, -, hlog⟩
    | ⟨-, pre, e', post, hsplit, hb, hfail⟩
  -- all regions were read, and the routine was called
  · have hinv : (logOf tr).invoked = [(r.lpRoutine, arguments b q)] :=
      congrArg Access.invoked hlog
    have hread : (logOf tr).reads = (mapRanges b (normalized b p).parameters).map (·, true) :=
      congrArg Access.reads hlog
    have hrefused : (logOf tr).refused = [] := congrArg Access.refused hlog
    rw [hinv]
    constructor
    · intro h
      cases h
    · rintro (⟨e, he, hn, hsize⟩ | h | ⟨e, -, -, he⟩)
      · -- its range was read
        have hmem : ((clientRange b e), true) ∈ (logOf tr).reads := by
          rw [hread, normalized_parameters]
          refine List.mem_map_of_mem (List.mem_map.mpr ⟨normalizedBlob b e, ?_, ?_⟩)
          · exact List.mem_filter.mpr ⟨List.mem_map_of_mem he, needsBuffer_of_isNull hn⟩
          · have hptr : hasBits e.parameterMask 0b01000000 = true := by
              simp only [isNull, Bool.and_eq_true] at hn
              exact hn.1.1
            exact clientRange_normalizedBlob (hp e he) hptr
        rw [clientRange_of_isNull hn] at hmem
        refine absurd (hnull _ hmem rfl ?_) (by simp)
        exact fun h0 => hsize (UInt32.toNat_inj.mp h0)
      · exact absurd hrefused h
      · rw [hread] at he
        obtain ⟨x, -, hx⟩ := List.mem_map.mp he
        cases congrArg Prod.snd hx
  · obtain ⟨e, he, rfl⟩ : ∃ e ∈ p.parameters, normalizedBlob b e = e' := by
      have : e' ∈ (normalized b p).parameters := by rw [hsplit]; simp
      rwa [normalized_parameters, List.mem_map] at this
    have hvalid := hp e he
    rcases hfail with hfail | hfail
    -- there was no memory for a buffer
    · have hinv : (logOf tr).invoked = [] := congrArg Access.invoked hfail
      have hrefused := congrArg Access.refused hfail
      refine ⟨fun _ => Or.inr (Or.inl ?_), fun _ => hinv⟩
      show (logOf tr).access.refused ≠ []
      rw [hrefused]
      exact List.cons_ne_nil _ _
    -- a region could not be read
    · have hinv : (logOf tr).invoked = [] := congrArg Access.invoked hfail
      refine ⟨fun _ => ?_, fun _ => hinv⟩
      have hptr : hasBits e.parameterMask 0b01000000 = true := by
        rw [needsBuffer, normalizedBlob_mask, Bool.and_eq_true] at hb
        exact hb.1
      have hmem : (clientRange b e, false) ∈ (logOf tr).reads := by
        show _ ∈ (logOf tr).access.reads
        rw [congrArg Access.reads hfail, clientRange_normalizedBlob hvalid hptr]
        exact List.mem_append_right _ (List.mem_singleton_self _)
      by_cases h0 : e.ulParameter = 0
      · refine Or.inl ⟨e, he, isNull_of_needsBuffer hvalid hb h0, ?_⟩
        intro hsize
        have := hzero _ hmem (congrArg UInt32.toNat hsize)
        cases this
      · exact Or.inr (Or.inr ⟨e, he, h0, hmem⟩)

end Null

/-- A null pointer to `size` bytes, where none is allowed. -/
def nullPointer (size : DWORD) : ServiceRoutineParameter := ⟨[⟨0x40, size, 0⟩]⟩

/-- The choices of a worker with a null pointer, up to the read. -/
def dispatchesNull (content : List BYTE) : List (Choice .x64) :=
  List.replicate 7 .ok ++ .fresh 64 (.parameters ⟨[⟨0, 0, 0⟩]⟩) :: .ok :: .ok :: .ok ::
    .fresh 80 (.buffer content) :: [.ok, .ok]

/-- A null pointer to a byte makes the mapping fail. -/
theorem null_not_invoked_byte : ∃ (w' : World .x64) (tr : Events .x64) (l : Option Label),
    (workerThread 16 : Code .x64 _).Runs (Alone 0 1) (employee .x64 (nullPointer 1)) tr l w'
      ∧ (logOf tr).invoked = [] := by
  have hrun : (perform 0 1 (workerThread 16) (dispatchesNull [0] ++ .fail STATUS_ACCESS_VIOLATION
      :: List.replicate 18 .ok ++ .fail STATUS_UNSUCCESSFUL :: List.replicate 8 .ok ++
      .fail STATUS_UNSUCCESSFUL :: List.replicate 6 .ok)
      (employee .x64 (nullPointer 1))).map (fun x => (logOf x.1).reads)
      = some [((0, 1), false)] := by decide +kernel
  obtain ⟨⟨tr, l, w'⟩, hrun, hreads⟩ := Option.map_eq_some_iff.mp hrun
  have hrun := perform_runs hrun
  refine ⟨w', tr, l, hrun,
    (null_not_invoked (employed_employee ..) (by decide) hrun ?_ ?_).mpr ?_⟩
  · rw [hreads]
    decide
  · rw [hreads]
    decide
  · exact Or.inl ⟨_, List.mem_singleton_self _, rfl, by decide⟩

/-- A null pointer to no bytes is read with success. -/
theorem null_invoked : ¬ ∀ (w w' : World .x64) (tr : Events .x64) (l : Option Label)
    (r : ServiceRoutine) (p : ServiceRoutineParameter), Employed w.heap.cells 16 r p → p.Valid →
    (workerThread 16 : Code .x64 _).Runs (Alone 0 1) w tr l w' →
    (∀ x ∈ (logOf tr).reads, x.1.2 = 0 → x.2 = true) →
    (∀ x ∈ (logOf tr).reads, x.1.1 = 0 → x.1.2 ≠ 0 → x.2 = false) →
    (∃ e ∈ p.parameters, isNull e = true) → (logOf tr).invoked = [] := by
  intro h
  have hrun : (perform 0 1 (workerThread 16) (dispatchesNull [] ++ List.replicate 5 .ok)
      (employee .x64 (nullPointer 0))).map
        (fun x => ((logOf x.1).reads, (logOf x.1).invoked.length))
      = some ([((0, 0), true)], 1) := by decide +kernel
  obtain ⟨⟨tr, l, w'⟩, hrun, he⟩ := Option.map_eq_some_iff.mp hrun
  simp only [Prod.mk.injEq] at he
  obtain ⟨hreads, hinv⟩ := he
  have := h _ w' tr l _ (nullPointer 0) (employed_employee ..) (by decide) (perform_runs hrun)
    (by rw [hreads]; decide) (by rw [hreads]; decide) ⟨_, List.mem_singleton_self _, rfl⟩
  rw [this] at hinv
  exact nomatch hinv

end ScSequential
