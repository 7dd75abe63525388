import ServiceCall.RegisterProofs

/-! # The grammar of masks, and the types they name

    A capture accepts exactly the masks that obey the documented grammar
    (`capture_grammar`).  Some of the bits of an accepted mask mean nothing: the SIZE
    bits of a pointer, and those of a value behind the first one that is set.  The
    comparison of types looks at them all the same, so it tells lists apart that mean
    the same (`equal_sameType`). -/

namespace ScGrammar

open LinearMemory OpProg ScParameter LpcMessage ScSystem ScServiceCall ScSequential

/-! ## The grammar -/

/-- The documented grammar of a mask. -/
structure Grammatical (cbMask : BYTE) : Prop where
  reserved : hasBits cbMask 0b00010000 = false
  type     : isValue cbMask ≠ isPtr cbMask
  nullable : isNullable cbMask = true → isPtr cbMask = true
  size     : isValue cbMask = true → hasBits cbMask 0b00001111 = true

/-- A capture refuses all other masks. -/
theorem maskRefused_eq_false_iff {cbMask : BYTE} :
    maskRefused cbMask = false ↔ Grammatical cbMask := by
  have hfields : Grammatical cbMask ↔ hasBits cbMask 0b00010000 = false
      ∧ hasBits cbMask 0b10000000 ≠ hasBits cbMask 0b01000000
      ∧ (hasBits cbMask 0b00100000 = true → hasBits cbMask 0b01000000 = true)
      ∧ (hasBits cbMask 0b10000000 = true → hasBits cbMask 0b00001111 = true) :=
    ⟨fun g => ⟨g.reserved, g.type, g.nullable, g.size⟩, fun h => ⟨h.1, h.2.1, h.2.2.1, h.2.2.2⟩⟩
  rw [hfields, maskRefused]
  cases hasBits cbMask 0b00010000 <;> cases hasBits cbMask 0b10000000 <;>
    cases hasBits cbMask 0b01000000 <;> cases hasBits cbMask 0b00100000 <;>
    cases hasBits cbMask 0b00001111 <;> simp

theorem valid_iff_grammatical {p : ServiceRoutineParameter} :
    p.Valid ↔ ∀ e ∈ p.parameters, Grammatical e.parameterMask := by
  refine forall_congr' fun e => imp_congr_right fun _ => ?_
  exact maskRefused_eq_false_iff

section Capture

variable {b : Build} {t n : Nat} {w w' : World b} {tr : Events b} {l : ListAddress}
  {m : Nat → BYTE} {base : Nat} {captured : LPVOID}

/-- A capture gives a block of its own with the whole list, or nothing. -/
theorem capture_run (h : ListBytes (Local.of w []) l m base)
    (hrun : (rtlCaptureParameters l : Code b LPVOID).Runs (Alone t n) w tr captured w') :
    ((readParameters m base).Valid ∧ captured ≠ 0 ∧ w.heap.cells captured = none
      ∧ w'.heap.cells = Function.update w.heap.cells captured
          (some (.parameters (readParameters m base))))
    ∨ (¬ (readParameters m base).Valid ∧ captured = 0 ∧ w'.heap.cells = w.heap.cells) := by
  have hwp : wp (solo t n) (rtlCaptureParameters l : Code b LPVOID) (fun captured g =>
      ((readParameters m base).Valid ∧ captured ≠ 0 ∧ w.heap.cells captured = none
        ∧ g.cells = Function.update w.heap.cells captured
            (some (.parameters (readParameters m base))))
      ∨ (¬ (readParameters m base).Valid ∧ captured = 0 ∧ g.cells = w.heap.cells))
      (Local.of w []) := by
    rw [← Prog.bind_pure (rtlCaptureParameters l)]
    refine solo_rtlCaptureParameters h ?_ ?_
    · intro hv a hnew
      exact Or.inl ⟨hv, hnew.nonzero, hnew.new, rfl⟩
    · intro hv a _
      exact Or.inr ⟨hv, rfl, rfl⟩
  exact solo_sound hwp hrun

/-- A capture succeeds exactly on the valid lists. -/
theorem capture_succeeds (h : ListBytes (Local.of w []) l m base)
    (hrun : (rtlCaptureParameters l : Code b LPVOID).Runs (Alone t n) w tr captured w') :
    captured ≠ 0 ↔ (readParameters m base).Valid := by
  rcases capture_run h hrun with ⟨hv, h0, -⟩ | ⟨hv, h0, -⟩
  · exact ⟨fun _ => hv, fun _ => h0⟩
  · exact ⟨fun hne => absurd h0 hne, fun hv' => absurd hv' hv⟩

/-- **A CAPTURE SUCCEEDS EXACTLY ON THE DOCUMENTED MASKS**: then it leaves a copy of the list
    and otherwise nothing, and it succeeds on every list of the same type as well. -/
theorem capture_grammar (h : ListBytes (Local.of w []) l m base)
    (hrun : (rtlCaptureParameters l : Code b LPVOID).Runs (Alone t n) w tr captured w') :
    (captured ≠ 0 ↔ ∀ e ∈ (readParameters m base).parameters, Grammatical e.parameterMask)
    ∧ (captured ≠ 0 → w.heap.cells captured = none ∧ w'.heap.cells
        = Function.update w.heap.cells captured (some (.parameters (readParameters m base))))
    ∧ (captured = 0 → w'.heap.cells = w.heap.cells)
    ∧ ∀ {b' : Build} {t' n' : Nat} {v v' : World b'} {tr' : Events b'} {l' : ListAddress}
        {m' : Nat → BYTE} {base' : Nat} {captured' : LPVOID},
      captured ≠ 0 → ListBytes (Local.of v []) l' m' base' →
      rtlEqualParameterType (readParameters m base) (readParameters m' base') = true →
      (rtlCaptureParameters l' : Code b' LPVOID).Runs (Alone t' n') v tr' captured' v' →
      captured' ≠ 0 := by
  refine ⟨(capture_succeeds h hrun).trans valid_iff_grammatical, ?_, ?_, ?_⟩
  · intro hne
    rcases capture_run h hrun with ⟨-, -, hnew, hcells⟩ | ⟨-, h0, -⟩
    · exact ⟨hnew, hcells⟩
    · exact absurd h0 hne
  · intro h0
    rcases capture_run h hrun with ⟨-, hne, -⟩ | ⟨-, -, hcells⟩
    · exact absurd h0 hne
    · exact hcells
  · intro b' t' n' v v' tr' l' m' base' captured' hne h' heq hrun'
    rw [capture_succeeds h' hrun']
    exact Valid.of_masks ((capture_succeeds h hrun).mp hne) (rtlEqualParameterType_eq_true.mp heq)

end Capture

/-- One pointer is captured. -/
theorem capture_grammar_one : ∃ (tr : Events .x64) (w' : World .x64),
    (rtlCaptureParameters (.own 4096) : Code .x64 LPVOID).Runs (Alone 0 1) (registrar .x64 1) tr 32
      w' ∧ Grammatical 0x40 := by
  have hrun : (perform 0 1 (rtlCaptureParameters (.own 4096))
      (.ok :: .fresh 32 (.parameters ⟨[⟨0, 0, 0⟩]⟩) :: List.replicate 5 .ok)
      (registrar .x64 1)).map (fun x => x.2.1) = some 32 := by decide +kernel
  obtain ⟨⟨tr, captured, w'⟩, hrun, rfl⟩ := Option.map_eq_some_iff.mp hrun
  have hrun := perform_runs hrun
  obtain ⟨hiff, -⟩ := capture_grammar (listBytes_own ..) hrun
  refine ⟨tr, w', hrun, hiff.mp (by decide) ⟨0x40, 0, 0⟩ ?_⟩
  have hlist : readParameters ((registrar .x64 1).lpc.memory 0).byte 4096
      = ⟨[⟨0x40, 0, 0⟩]⟩ := by decide +kernel
  exact hlist ▸ List.mem_singleton_self _

/-! ## Types -/

/-- The SIZE bits. -/
inductive ValueSize where
  | qword
  | dword
  | word
  | byte
deriving DecidableEq

inductive ParameterType where
  | value (size : ValueSize)
  | ptr (nullable : Bool)
deriving DecidableEq

/-- The size of a value: its first SIZE bit in the order QW, DW, WO, BY. -/
def valueSize (cbMask : BYTE) : ValueSize :=
  if hasBits cbMask 0b00001000 then .qword
  else if hasBits cbMask 0b00000100 then .dword
  else if hasBits cbMask 0b00000010 then .word
  else .byte

/-- What an accepted mask means. -/
def parameterType (cbMask : BYTE) : ParameterType :=
  if isPtr cbMask then .ptr (isNullable cbMask) else .value (valueSize cbMask)

/-- The SIZE bits that the documentation ignores: all of a pointer, and those of a value
    that are not its first. -/
def ignoredBits (cbMask : BYTE) : BYTE :=
  if isPtr cbMask then cbMask &&& 0b00001111
  else match valueSize cbMask with
    | .qword => cbMask &&& 0b00000111
    | .dword => cbMask &&& 0b00000011
    | .word => cbMask &&& 0b00000001
    | .byte => 0

/-- The mask of a type with no bits to ignore. -/
def ParameterType.mask : ParameterType → BYTE
  | value .qword => 0b10001000
  | value .dword => 0b10000100
  | value .word => 0b10000010
  | value .byte => 0b10000001
  | ptr false => 0b01000000
  | ptr true => 0b01100000

/-- An accepted mask is that of its type with some bits to ignore. -/
theorem mask_eq {cbMask : BYTE} (h : maskRefused cbMask = false) :
    cbMask = (parameterType cbMask).mask ||| ignoredBits cbMask := by
  have hall : ∀ i : Fin 256, maskRefused (UInt8.ofNat i) = false →
      UInt8.ofNat i = (parameterType (UInt8.ofNat i)).mask ||| ignoredBits (UInt8.ofNat i) := by
    decide +kernel
  have := hall ⟨cbMask.toNat, cbMask.toNat_lt⟩
  rw [UInt8.ofNat_toNat] at this
  exact this h

/-- The types of a list. -/
def types (p : ServiceRoutineParameter) : List ParameterType := p.masks.map parameterType

/-- The bits of a list that mean nothing. -/
def ignored (p : ServiceRoutineParameter) : List BYTE := p.masks.map ignoredBits

/-- Lists that are not told apart mean the same. -/
theorem types_eq_of_equal {p q : ServiceRoutineParameter}
    (h : rtlEqualParameterType p q = true) : types p = types q := by
  rw [types, types, rtlEqualParameterType_eq_true.mp h]

/-- The masks follow from the types and the bits that mean nothing. -/
theorem masks_eq {ms ms' : List BYTE} (h : ∀ x ∈ ms, maskRefused x = false)
    (h' : ∀ x ∈ ms', maskRefused x = false)
    (htypes : ms.map parameterType = ms'.map parameterType)
    (hignored : ms.map ignoredBits = ms'.map ignoredBits) : ms = ms' := by
  induction ms generalizing ms' with
  | nil =>
      cases ms' with
      | nil => rfl
      | cons x' ms' => exact nomatch htypes
  | cons x ms ih =>
      cases ms' with
      | nil => exact nomatch htypes
      | cons x' ms' =>
          obtain ⟨ht, htypes⟩ := List.cons.inj htypes
          obtain ⟨hi, hignored⟩ := List.cons.inj hignored
          have hx : x = x' := by
            rw [mask_eq (h x List.mem_cons_self), mask_eq (h' x' List.mem_cons_self), ht, hi]
          rw [hx, ih (fun y hy => h y (List.mem_cons_of_mem _ hy))
            (fun y hy => h' y (List.mem_cons_of_mem _ hy)) htypes hignored]

/-- **TYPES ARE TOLD APART BY BITS THAT MEAN NOTHING**: the comparison of accepted lists
    agrees with what they mean exactly when lists that mean the same have the same bits to
    ignore. -/
theorem equal_sameType {p q : ServiceRoutineParameter} (hp : p.Valid) (hq : q.Valid) :
    (rtlEqualParameterType p q = true ↔ types p = types q)
      ↔ types p ≠ types q ∨ ignored p = ignored q := by
  constructor
  · intro h
    by_cases htypes : types p = types q
    · exact Or.inr (congrArg (List.map ignoredBits)
        (rtlEqualParameterType_eq_true.mp (h.mpr htypes)))
    · exact Or.inl htypes
  · intro h
    refine ⟨types_eq_of_equal, fun htypes => ?_⟩
    rw [rtlEqualParameterType_eq_true]
    exact masks_eq ((valid_iff_masks p).mp hp) ((valid_iff_masks q).mp hq) htypes
      (h.resolve_left fun hne => hne htypes)

/-- Two lists of a dword and a pointer, with the same SIZE bits to ignore, and a list
    that means the same without them. -/
theorem equal_sameType_ignored :
    (rtlEqualParameterType ⟨[⟨0x85, 0, 1⟩, ⟨0x43, 4, 100⟩]⟩ ⟨[⟨0x85, 0, 2⟩, ⟨0x43, 8, 200⟩]⟩
        = true
      ↔ types ⟨[⟨0x85, 0, 1⟩, ⟨0x43, 4, 100⟩]⟩ = types ⟨[⟨0x85, 0, 2⟩, ⟨0x43, 8, 200⟩]⟩)
    ∧ ¬ (rtlEqualParameterType ⟨[⟨0x85, 0, 1⟩, ⟨0x43, 4, 100⟩]⟩ ⟨[⟨0x84, 0, 1⟩, ⟨0x40, 4, 100⟩]⟩
        = true
      ↔ types ⟨[⟨0x85, 0, 1⟩, ⟨0x43, 4, 100⟩]⟩ = types ⟨[⟨0x84, 0, 1⟩, ⟨0x40, 4, 100⟩]⟩) := by
  constructor
  · exact (equal_sameType (by decide) (by decide)).mpr (Or.inr (by decide))
  · intro h
    rcases (equal_sameType (by decide) (by decide)).mp h with htypes | hignored
    · exact htypes (by decide)
    · exact absurd hignored (by decide)

/-- A pointer with a SIZE bit and one without are told apart. -/
theorem equal_not_sameType : ¬ ∀ p q : ServiceRoutineParameter, p.Valid → q.Valid →
    (rtlEqualParameterType p q = true ↔ types p = types q) := by
  intro h
  have := (h ⟨[⟨0x40, 0, 0⟩]⟩ ⟨[⟨0x41, 0, 0⟩]⟩ (by decide) (by decide)).mpr (by decide)
  exact absurd this (by decide)

end ScGrammar
