import ServiceCall.ByteProofs

/-! # Parameter lists

    A call carries a list of parameters: for each a mask byte, the size of the
    buffer behind it and the value or pointer itself.  The mask byte is

        7 VL   6 PT   5 NL   4 unused   3 QW   2 DW   1 WO   0 BY

    This file has the list and its memory layout (`readParameters`), the check
    that every capture makes (`maskRefused`), the comparison a service makes
    before it accepts a call (`rtlEqualParameterType`), and the rewriting of a
    captured list in the 32-bit build (`normalizeParameters`). -/

namespace ScParameter

open LinearMemory

abbrev BYTE := UInt8
abbrev DWORD := UInt32
abbrev ULONG64 := UInt64
abbrev NTSTATUS := UInt32

def STATUS_SUCCESS : NTSTATUS := 0x00000000
def STATUS_UNSUCCESSFUL : NTSTATUS := 0xC0000001
def STATUS_ACCESS_VIOLATION : NTSTATUS := 0xC0000005
def STATUS_INVALID_PARAMETER : NTSTATUS := 0xC000000D
def STATUS_NO_MEMORY : NTSTATUS := 0xC0000017
def STATUS_ACCESS_DENIED : NTSTATUS := 0xC0000022
def STATUS_OBJECT_NAME_NOT_FOUND : NTSTATUS := 0xC0000034
def STATUS_OBJECT_NAME_EXISTS : NTSTATUS := 0x40000000
def STATUS_PORT_CONNECTION_REFUSED : NTSTATUS := 0xC0000041
def STATUS_NOT_SUPPORTED : NTSTATUS := 0xC00000BB
def STATUS_INVALID_PARAMETER_1 : NTSTATUS := 0xC00000EF
def STATUS_INVALID_PARAMETER_2 : NTSTATUS := 0xC00000F0
def STATUS_INVALID_PARAMETER_3 : NTSTATUS := 0xC00000F1
def STATUS_NOT_FOUND : NTSTATUS := 0xC0000225

/-- `NT_SUCCESS`: the status is not negative as a 32-bit signed number. -/
def ntSuccess (status : NTSTATUS) : Bool := status < 0x80000000

/-! ## Masks -/

/-- `cbMask & bits`, as a condition. -/
def hasBits (cbMask bits : BYTE) : Bool := cbMask &&& bits != 0

/-- VL: the parameter is a value. -/
def isValue (cbMask : BYTE) : Bool := hasBits cbMask 0b10000000

/-- PT: the parameter is a pointer. -/
def isPtr (cbMask : BYTE) : Bool := hasBits cbMask 0b01000000

/-- NL: the pointer may be null. -/
def isNullable (cbMask : BYTE) : Bool := hasBits cbMask 0b00100000

/-- The condition under which a capture refuses a mask, as it is written. -/
def maskRefused (cbMask : BYTE) : Bool :=
  hasBits cbMask 0b00010000 ||
  (if hasBits cbMask 0b10000000 then
    hasBits cbMask 0b01000000 || hasBits cbMask 0b00100000
      || !hasBits cbMask 0b00001111
  else !hasBits cbMask 0b01000000)

/-! ## The list -/

/-- `_SERVICE_PARAMETER_BLOB`; `Reserved1` and the padding are copied along but
    never read. -/
structure ServiceParameterBlob where
  parameterMask   : BYTE
  dwMaxBufferSize : DWORD
  ulParameter     : ULONG64
deriving DecidableEq, Repr

/-- `_SERVICE_ROUTINE_PARAMETER`. -/
structure ServiceRoutineParameter where
  parameters : List ServiceParameterBlob
deriving DecidableEq, Repr

namespace ServiceRoutineParameter

/-- The count field. -/
def dwParameters (p : ServiceRoutineParameter) : Nat := p.parameters.length

/-- The mask bytes in order. -/
def masks (p : ServiceRoutineParameter) : List BYTE :=
  p.parameters.map ServiceParameterBlob.parameterMask

/-- Every mask passes the capture check. -/
def Valid (p : ServiceRoutineParameter) : Prop :=
  ∀ e ∈ p.parameters, maskRefused e.parameterMask = false

instance (p : ServiceRoutineParameter) : Decidable p.Valid :=
  inferInstanceAs (Decidable (∀ e ∈ p.parameters, _))

end ServiceRoutineParameter

/-- `sizeof(DWORD64)`, the offset of the first blob. -/
def parametersOffset : Nat := 8

/-- `sizeof(SERVICE_PARAMETER_BLOB)`. -/
def blobSize : Nat := 16

/-- The bytes of a list with `n` entries. -/
def parameterBufferSize (n : Nat) : Nat := parametersOffset + blobSize * n

def readDword (m : Nat → BYTE) (a : Nat) : DWORD := UInt32.ofNat (fromLE (slice m a 4))

def readQword (m : Nat → BYTE) (a : Nat) : ULONG64 := UInt64.ofNat (fromLE (slice m a 8))

/-- The blob at address `a`. -/
def readBlob (m : Nat → BYTE) (a : Nat) : ServiceParameterBlob where
  parameterMask := m a
  dwMaxBufferSize := readDword m (a + 4)
  ulParameter := readQword m (a + 8)

/-- The list at address `a`: the count decides how many blobs are read. -/
def readParameters (m : Nat → BYTE) (a : Nat) : ServiceRoutineParameter where
  parameters := (List.range (readDword m a).toNat).map fun i =>
    readBlob m (a + parametersOffset + blobSize * i)

theorem readDword_congr {m m' : Nat → BYTE} {a a' : Nat}
    (h : ∀ k, k < 4 → m (a + k) = m' (a' + k)) : readDword m a = readDword m' a' := by
  rw [readDword, readDword, slice_congr h]

theorem readQword_congr {m m' : Nat → BYTE} {a a' : Nat}
    (h : ∀ k, k < 8 → m (a + k) = m' (a' + k)) : readQword m a = readQword m' a' := by
  rw [readQword, readQword, slice_congr h]

theorem readBlob_congr {m m' : Nat → BYTE} {a a' : Nat}
    (h : ∀ k, k < blobSize → m (a + k) = m' (a' + k)) : readBlob m a = readBlob m' a' := by
  have hmask : m a = m' a' := h 0 (by decide)
  have hsize : readDword m (a + 4) = readDword m' (a' + 4) := by
    refine readDword_congr (fun k hk => ?_)
    rw [Nat.add_assoc, Nat.add_assoc]
    exact h (4 + k) (by rw [blobSize]; omega)
  have hval : readQword m (a + 8) = readQword m' (a' + 8) := by
    refine readQword_congr (fun k hk => ?_)
    rw [Nat.add_assoc, Nat.add_assoc]
    exact h (8 + k) (by rw [blobSize]; omega)
  rw [readBlob, readBlob, hmask, hsize, hval]

@[simp] theorem readParameters_dwParameters (m : Nat → BYTE) (a : Nat) :
    (readParameters m a).dwParameters = (readDword m a).toNat := by
  simp [readParameters, ServiceRoutineParameter.dwParameters]

/-- The count is the number in the first bytes. -/
theorem readParameters_count (m : Nat → BYTE) (a : Nat) :
    (readParameters m a).dwParameters = fromLE (slice m a 4) := by
  rw [readParameters_dwParameters, readDword, UInt32.toNat_ofNat', Nat.mod_eq_of_lt]
  have := fromLE_lt (slice m a 4)
  rwa [slice_length] at this

theorem count_bound (m : Nat → BYTE) (a : Nat) : fromLE (slice m a 4) < 2 ^ 32 := by
  have := fromLE_lt (slice m a 4)
  rwa [slice_length] at this

/-- An entry is a blob behind the count. -/
theorem readParameters_entry {m : Nat → BYTE} {a i : Nat} {e : ServiceParameterBlob}
    (he : (readParameters m a).parameters[i]? = some e) :
    e = readBlob m (a + parametersOffset + blobSize * i) := by
  rw [readParameters, List.getElem?_map] at he
  obtain ⟨j, hj, rfl⟩ := Option.map_eq_some_iff.mp he
  obtain ⟨hlt, rfl⟩ := List.getElem?_eq_some_iff.mp hj
  rw [List.getElem_range]

/-- **A LIST IS ITS BYTES**: two memories that agree on the bytes of a list
    hold the same list. -/
theorem readParameters_congr {m m' : Nat → BYTE} {a a' n : Nat}
    (hn : (readDword m a).toNat = n)
    (h : ∀ k, k < parameterBufferSize n → m (a + k) = m' (a' + k)) :
    readParameters m a = readParameters m' a' := by
  have hcount : readDword m a = readDword m' a' := by
    refine readDword_congr (fun k hk => h k ?_)
    rw [parameterBufferSize, parametersOffset]
    omega
  have hblobs : ∀ i ∈ List.range n, readBlob m (a + parametersOffset + blobSize * i)
      = readBlob m' (a' + parametersOffset + blobSize * i) := by
    intro i hi
    have hi' : i < n := List.mem_range.mp hi
    refine readBlob_congr (fun k hk => ?_)
    rw [show a + parametersOffset + blobSize * i + k
        = a + (parametersOffset + blobSize * i + k) by ring,
      show a' + parametersOffset + blobSize * i + k
        = a' + (parametersOffset + blobSize * i + k) by ring]
    refine h _ ?_
    rw [parameterBufferSize]
    rw [blobSize] at hk ⊢
    omega
  rw [readParameters, readParameters, ← hcount, hn, List.map_congr_left hblobs]

/-! ## Capturing -/

/-- What a capture makes of a list: a copy when every mask is valid. -/
def capture (p : ServiceRoutineParameter) : Option ServiceRoutineParameter :=
  if p.Valid then some p else none

theorem capture_eq_some {p q : ServiceRoutineParameter} :
    capture p = some q ↔ p.Valid ∧ q = p := by
  rw [capture]
  split
  · next h => simp [h, eq_comm]
  · next h => simp [h]

/-! ## Comparing types -/

/-- The loop of `RtlEqualParameterType`. -/
def equalLoop : List ServiceParameterBlob → List ServiceParameterBlob → Bool
  | e₁ :: p₁, e₂ :: p₂ =>
      if e₁.parameterMask != e₂.parameterMask then false else equalLoop p₁ p₂
  | _, _ => true

/-- `RtlEqualParameterType`. -/
def rtlEqualParameterType (p₁ p₂ : ServiceRoutineParameter) : Bool :=
  if p₁.dwParameters != p₂.dwParameters then false
  else equalLoop p₁.parameters p₂.parameters

theorem equalLoop_eq_true {es₁ es₂ : List ServiceParameterBlob}
    (h : es₁.length = es₂.length) :
    equalLoop es₁ es₂ = true ↔ es₁.map ServiceParameterBlob.parameterMask
      = es₂.map ServiceParameterBlob.parameterMask := by
  induction es₁ generalizing es₂ with
  | nil =>
      cases es₂ with
      | nil => simp [equalLoop]
      | cons e₂ es₂ => exact nomatch h
  | cons e₁ es₁ ih =>
      cases es₂ with
      | nil => exact nomatch h
      | cons e₂ es₂ =>
          have hlen : es₁.length = es₂.length := Nat.succ.inj h
          by_cases hm : e₁.parameterMask = e₂.parameterMask
          · simp [equalLoop, hm, ih hlen]
          · simp [equalLoop, hm]

/-- Two lists have equal type when they have the same masks in order. -/
theorem rtlEqualParameterType_eq_true {p₁ p₂ : ServiceRoutineParameter} :
    rtlEqualParameterType p₁ p₂ = true ↔ p₁.masks = p₂.masks := by
  unfold rtlEqualParameterType
  by_cases h : p₁.dwParameters = p₂.dwParameters
  · rw [if_neg (by simp [h])]
    exact equalLoop_eq_true h
  · rw [if_pos (by simp [h])]
    constructor
    · intro hf
      exact nomatch hf
    · intro hm
      have := congrArg List.length hm
      simp only [ServiceRoutineParameter.masks, List.length_map] at this
      exact absurd this h

/-- Lists of equal type have the same count. -/
theorem dwParameters_eq_of_masks {p₁ p₂ : ServiceRoutineParameter}
    (h : p₁.masks = p₂.masks) : p₁.dwParameters = p₂.dwParameters := by
  have := congrArg List.length h
  simpa [ServiceRoutineParameter.masks, ServiceRoutineParameter.dwParameters] using this

/-- Validity is a matter of the masks alone. -/
theorem valid_iff_masks (p : ServiceRoutineParameter) :
    p.Valid ↔ ∀ m ∈ p.masks, maskRefused m = false := by
  simp [ServiceRoutineParameter.Valid, ServiceRoutineParameter.masks]

theorem Valid.of_masks {p₁ p₂ : ServiceRoutineParameter} (hv : p₁.Valid)
    (h : p₁.masks = p₂.masks) : p₂.Valid := by
  rw [valid_iff_masks] at hv ⊢
  rwa [← h]

/-! ## The 32-bit build -/

/-- What `WorkerThread` of the 32-bit build makes of a captured blob before it
    maps the list. -/
def normalizeBlob (e : ServiceParameterBlob) : ServiceParameterBlob :=
  if hasBits e.parameterMask 0b10000000 then
    if hasBits e.parameterMask 0b00000100 then
      { e with ulParameter := e.ulParameter &&& 0xffffffff }
    else if hasBits e.parameterMask 0b00000010 then
      { e with ulParameter := e.ulParameter &&& 0xffff }
    else if hasBits e.parameterMask 0b00000001 then
      { e with ulParameter := e.ulParameter &&& 0xff }
    else e
  else { e with ulParameter := e.ulParameter &&& 0xffffffff }

def normalizeParameters (p : ServiceRoutineParameter) : ServiceRoutineParameter where
  parameters := p.parameters.map normalizeBlob

@[simp] theorem normalizeParameters_dwParameters (p : ServiceRoutineParameter) :
    (normalizeParameters p).dwParameters = p.dwParameters := by
  simp [normalizeParameters, ServiceRoutineParameter.dwParameters]

end ScParameter
