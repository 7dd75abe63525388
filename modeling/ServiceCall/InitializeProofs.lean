import ServiceCall.OutcomeProofs
import ServiceCall.ReleaseProofs

/-! # How a caller makes a list

    The macros of the header fill a list in place: `RtlInitializeServiceParameters`
    clears it and stores the count, `RtlServiceParametersValue` and
    `RtlServiceParametersPtr` each clear one blob and fill it.  In any order and
    number they leave what the last one said for each index (`built_reads`).

    The first one clears four bytes less than the list has.  So what was in the
    buffer before is in the list, and goes to the service with it, unless the last
    blob is filled afterwards (`built_determined`). -/

namespace ScInitialize

open LinearMemory ScParameter LpcMessage ScSystem ScServiceCall ScSequential ScOwnership

/-! ## The macros -/

def _QWORD : BYTE := 0b10001000
def _DWORD : BYTE := 0b10000100
def _WORD : BYTE := 0b10000010
def _BYTE : BYTE := 0b10000001
def _PTR : BYTE := 0b01000000
def _PTR_NO_MAP : BYTE := 0b01100000

/-- `RtlZeroMemory` -/
def rtlZeroMemory (m : Nat → BYTE) (a n : Nat) : Nat → BYTE := overlay m a (List.replicate n 0)

/-- `RtlInitializeParameterBlob` -/
def rtlInitializeParameterBlob (m : Nat → BYTE) (blob : Nat) (type : BYTE)
    (parameter : ULONG64) : Nat → BYTE :=
  let m := rtlZeroMemory m blob blobSize
  let m := overlay m blob [type]
  overlay m (blob + 8) (toLE 8 parameter.toNat)

/-- `RtlInitializeParameterBlobPtr` -/
def rtlInitializeParameterBlobPtr (m : Nat → BYTE) (blob : Nat) (type : BYTE)
    (parameter : ULONG64) (bufferSize : DWORD) : Nat → BYTE :=
  let m := rtlZeroMemory m blob blobSize
  let m := overlay m blob [type]
  let m := overlay m (blob + 8) (toLE 8 parameter.toNat)
  overlay m (blob + 4) (toLE 4 bufferSize.toNat)

/-- `RtlInitializeServiceParameters`: what is cleared begins with a `DWORD`, the list with
    a `DWORD64`. -/
def rtlInitializeServiceParameters (m : Nat → BYTE) (p n : Nat) : Nat → BYTE :=
  let m := rtlZeroMemory m p (4 + blobSize * n)
  overlay m p (toLE 4 n)

/-- `Parameters + index` -/
def blobAddress (p index : Nat) : Nat := p + parametersOffset + blobSize * index

/-- `RtlServiceParametersValue` -/
def rtlServiceParametersValue (m : Nat → BYTE) (p index : Nat) (type : BYTE)
    (value : ULONG64) : Nat → BYTE :=
  rtlInitializeParameterBlob m (blobAddress p index) type value

/-- `RtlServiceParametersPtr` -/
def rtlServiceParametersPtr (m : Nat → BYTE) (p index : Nat) (type : BYTE) (value : ULONG64)
    (maxBufferSize : DWORD) : Nat → BYTE :=
  rtlInitializeParameterBlobPtr m (blobAddress p index) type value maxBufferSize

/-- A use of one of the two. -/
inductive Fill where
  | value (index : Nat) (type : BYTE) (value : ULONG64)
  | ptr (index : Nat) (type : BYTE) (value : ULONG64) (maxBufferSize : DWORD)

namespace Fill

def index : Fill → Nat
  | value i .. => i
  | ptr i .. => i

/-- The blob it is about. -/
def blob : Fill → ServiceParameterBlob
  | value _ type u => ⟨type, 0, u⟩
  | ptr _ type u size => ⟨type, size, u⟩

def run (p : Nat) (m : Nat → BYTE) : Fill → Nat → BYTE
  | value i type u => rtlServiceParametersValue m p i type u
  | ptr i type u size => rtlServiceParametersPtr m p i type u size

end Fill

/-- A list at `p` is made with `n` parameters and then filled. -/
def built (m : Nat → BYTE) (p n : Nat) (fs : List Fill) : Nat → BYTE :=
  fs.foldl (Fill.run p) (rtlInitializeServiceParameters m p n)

/-- The last word on an index. -/
def lastFill (fs : List Fill) (i : Nat) : Option ServiceParameterBlob :=
  (fs.reverse.find? fun f => f.index == i).map Fill.blob

/-! ## Blobs -/

/-- A blob as it lies in memory. -/
def blobBytes (e : ServiceParameterBlob) : List BYTE :=
  e.parameterMask :: (toLE 3 0 ++ toLE 4 e.dwMaxBufferSize.toNat ++ toLE 8 e.ulParameter.toNat)

@[simp] theorem blobBytes_length (e : ServiceParameterBlob) : (blobBytes e).length = blobSize := by
  simp [blobBytes, blobSize]

/-- Writing into what was written. -/
theorem overlay_overlay {α : Type} (m : Nat → α) (a : Nat) (xs : List α) {ys bs : List α}
    (zs : List α)
    (h : ys.length = bs.length) :
    overlay (overlay m a (xs ++ (ys ++ zs))) (a + xs.length) bs
      = overlay m a (xs ++ (bs ++ zs)) := by
  funext i
  unfold overlay
  by_cases ha : a ≤ i
  · rw [if_pos ha, if_pos ha]
    by_cases hx : a + xs.length ≤ i
    · have hskip : ∀ cs : List α, (xs ++ cs)[i - a]? = cs[i - (a + xs.length)]? := by
        intro cs
        rw [List.getElem?_append_right (by omega), Nat.sub_sub]
      rw [if_pos hx, hskip, hskip]
      by_cases hb : i - (a + xs.length) < bs.length
      · rw [List.getElem?_append_left hb, List.getElem?_eq_getElem hb]
        rfl
      · rw [List.getElem?_append_right (by omega), List.getElem?_append_right (by omega),
          List.getElem?_eq_none (by omega), h]
        rfl
    · rw [if_neg hx, List.getElem?_append_left (by omega), List.getElem?_append_left (by omega)]
  · rw [if_neg ha, if_neg ha, if_neg (by omega)]

theorem fill_value (m : Nat → BYTE) (a : Nat) (type : BYTE) (u : ULONG64) :
    rtlInitializeParameterBlob m a type u = overlay m a (blobBytes ⟨type, 0, u⟩) := by
  have hone : ([0] : List BYTE).length = [type].length := rfl
  have h₁ : overlay (rtlZeroMemory m a blobSize) a [type]
      = overlay m a (type :: List.replicate 15 0) :=
    overlay_overlay m a [] (List.replicate 15 0) hone
  have hlen : (List.replicate 8 0 : List BYTE).length = (toLE 8 u.toNat).length := by simp
  have h₂ := overlay_overlay m a (type :: List.replicate 7 0) [] hlen
  have hbytes : blobBytes ⟨type, 0, u⟩ = type :: List.replicate 7 0 ++ (toLE 8 u.toNat ++ []) := by
    have hsize : toLE 4 (0 : DWORD).toNat = List.replicate 4 0 := by decide
    rw [List.append_nil, blobBytes, hsize]
    rfl
  rw [rtlInitializeParameterBlob, h₁, hbytes, ← h₂]
  rfl

theorem fill_ptr (m : Nat → BYTE) (a : Nat) (type : BYTE) (u : ULONG64) (size : DWORD) :
    rtlInitializeParameterBlobPtr m a type u size = overlay m a (blobBytes ⟨type, size, u⟩) := by
  have hlen : (List.replicate 4 0 : List BYTE).length = (toLE 4 size.toNat).length := by simp
  have h := overlay_overlay m a (type :: List.replicate 3 0) (toLE 8 u.toNat) hlen
  have hbytes : ∀ k : DWORD, blobBytes ⟨type, k, u⟩
      = type :: List.replicate 3 0 ++ (toLE 4 k.toNat ++ toLE 8 u.toNat) := by
    intro k
    rfl
  have hvalue := fill_value m a type u
  rw [rtlInitializeParameterBlob] at hvalue
  rw [rtlInitializeParameterBlobPtr, hvalue, hbytes, hbytes, ← h]
  rfl

/-- Each of the two macros writes one blob, all of it. -/
theorem Fill.run_eq (p : Nat) (m : Nat → BYTE) (f : Fill) :
    f.run p m = overlay m (blobAddress p f.index) (blobBytes f.blob) := by
  cases f with
  | value i type u => exact fill_value ..
  | ptr i type u size => exact fill_ptr ..

/-- Reading a part of what was written. -/
theorem slice_overlay_part {α : Type} (m : Nat → α) (a : Nat) (xs ys zs : List α) :
    slice (overlay m a (xs ++ (ys ++ zs))) (a + xs.length) ys.length = ys := by
  refine List.ext_getElem? ?_
  intro k
  by_cases hk : k < ys.length
  · rw [slice_getElem? hk]
    have hcov : (xs ++ (ys ++ zs))[a + xs.length + k - a]?
        = some (overlay m a (xs ++ (ys ++ zs)) (a + xs.length + k)) :=
      overlay_covered ⟨by omega, by simp only [List.length_append]; omega⟩
    rw [show a + xs.length + k - a = xs.length + k by omega,
      List.getElem?_append_right (by omega), Nat.add_sub_cancel_left,
      List.getElem?_append_left hk] at hcov
    exact hcov.symm
  · rw [List.getElem?_eq_none (by simpa using hk), List.getElem?_eq_none (by simpa using hk)]

/-- The blob that was written is the blob that is read. -/
theorem readBlob_blobBytes (m : Nat → BYTE) (a : Nat) (e : ServiceParameterBlob) :
    readBlob (overlay m a (blobBytes e)) a = e := by
  have hmask : overlay m a (blobBytes e) a = e.parameterMask :=
    (List.cons.inj (slice_overlay_part m a [] [e.parameterMask] _)).1
  have hsize : slice (overlay m a (blobBytes e)) (a + 4) 4 = toLE 4 e.dwMaxBufferSize.toNat :=
    slice_overlay_part m a (e.parameterMask :: toLE 3 0) (toLE 4 e.dwMaxBufferSize.toNat) _
  have hvalue : slice (overlay m a (blobBytes e)) (a + 8) 8 = toLE 8 e.ulParameter.toNat := by
    have := slice_overlay_part m a
      (e.parameterMask :: toLE 3 0 ++ toLE 4 e.dwMaxBufferSize.toNat)
      (toLE 8 e.ulParameter.toNat) []
    rw [List.append_nil] at this
    exact this
  have h₁ := e.dwMaxBufferSize.toNat_lt
  have h₂ := e.ulParameter.toNat_lt
  rw [readBlob, readDword, readQword, hmask, hsize, hvalue, fromLE_toLE, fromLE_toLE,
    Nat.mod_eq_of_lt (by omega), Nat.mod_eq_of_lt (by omega), UInt32.ofNat_toNat,
    UInt64.ofNat_toNat]

/-! ## What the macros leave alone -/

section Frames

variable {m m' : Nat → BYTE} {p n i x : Nat} {fs : List Fill} {f : Fill}

/-- A fill covers the blob with its index. -/
theorem run_uncovered (h : ¬ Covers (blobAddress p f.index) blobSize x) : f.run p m x = m x := by
  rw [f.run_eq]
  exact overlay_uncovered (by rwa [blobBytes_length])

/-- It does not matter for the others what was there. -/
theorem run_congr (h : Covers (blobAddress p f.index) blobSize x ∨ m x = m' x) :
    f.run p m x = f.run p m' x := by
  by_cases hcov : Covers (blobAddress p f.index) blobSize x
  · rw [f.run_eq, f.run_eq]
    exact overlay_congr (by rwa [blobBytes_length])
  · rw [run_uncovered hcov, run_uncovered hcov]
    exact h.resolve_left hcov

theorem built_snoc (m : Nat → BYTE) (p n : Nat) (fs : List Fill) (f : Fill) :
    built m p n (fs ++ [f]) = f.run p (built m p n fs) := by
  rw [built, List.foldl_append]
  rfl

/-- Fills that leave an address alone. -/
theorem built_uncovered (h : ∀ f ∈ fs, ¬ Covers (blobAddress p f.index) blobSize x) :
    built m p n fs x = rtlInitializeServiceParameters m p n x := by
  induction fs using List.reverseRecOn with
  | nil => rfl
  | append_singleton fs f ih =>
      rw [built_snoc, run_uncovered (h f (by simp))]
      exact ih fun f' hf' => h f' (List.mem_append_left _ hf')

/-- What is in the list of what was in the buffer is what the first macro left of it. -/
theorem built_congr (h : rtlInitializeServiceParameters m p n x
      = rtlInitializeServiceParameters m' p n x
    ∨ ∃ f ∈ fs, Covers (blobAddress p f.index) blobSize x) :
    built m p n fs x = built m' p n fs x := by
  induction fs using List.reverseRecOn with
  | nil =>
      refine h.elim id ?_
      rintro ⟨f, hf, -⟩
      cases hf
  | append_singleton fs f ih =>
      rw [built_snoc, built_snoc]
      refine run_congr ?_
      by_cases hcov : Covers (blobAddress p f.index) blobSize x
      · exact Or.inl hcov
      · refine Or.inr (ih (h.imp_right ?_))
        rintro ⟨f', hf', hcov'⟩
        rcases List.mem_append.mp hf' with hf' | hf'
        · exact ⟨f', hf', hcov'⟩
        · exact absurd (List.mem_singleton.mp hf' ▸ hcov') hcov

/-- The first macro clears all but the last four bytes. -/
theorem initialize_cleared (h : Covers (p + 4) (blobSize * n) x) :
    rtlInitializeServiceParameters m p n x = 0 := by
  obtain ⟨h₁, h₂⟩ := h
  have hzero : (List.replicate (4 + blobSize * n) (0 : BYTE))[x - p]? = some _ :=
    overlay_covered (m := m) ⟨by omega, by simp; omega⟩
  rw [rtlInitializeServiceParameters, overlay_uncovered, rtlZeroMemory]
  · exact (List.eq_of_mem_replicate (List.mem_of_getElem? hzero))
  · rintro ⟨-, h⟩
    rw [toLE_length] at h
    omega

theorem initialize_frame (h : x < p ∨ p + 4 + blobSize * n ≤ x) :
    rtlInitializeServiceParameters m p n x = m x := by
  rw [rtlInitializeServiceParameters, overlay_uncovered, rtlZeroMemory, overlay_uncovered]
  · rintro ⟨h₁, h₂⟩
    rw [List.length_replicate] at h₂
    omega
  · rintro ⟨h₁, h₂⟩
    rw [toLE_length] at h₂
    omega

/-- Its first part does not depend on the buffer. -/
theorem initialize_congr (h : x < p + 4 + blobSize * n) (h' : p ≤ x) :
    rtlInitializeServiceParameters m p n x = rtlInitializeServiceParameters m' p n x := by
  by_cases hx : p + 4 ≤ x
  · rw [initialize_cleared ⟨hx, h⟩, initialize_cleared ⟨hx, h⟩]
  · rw [rtlInitializeServiceParameters, rtlInitializeServiceParameters]
    exact overlay_congr ⟨h', by rw [toLE_length]; omega⟩

end Frames

/-! ## What a list says -/

section Reads

variable {m m' : Nat → BYTE} {p n i : Nat} {fs : List Fill} {f : Fill}

theorem lastFill_snoc (fs : List Fill) (f : Fill) (i : Nat) :
    lastFill (fs ++ [f]) i = if f.index = i then some f.blob else lastFill fs i := by
  rw [lastFill, List.reverse_append, List.reverse_singleton, List.singleton_append,
    List.find?_cons]
  by_cases h : f.index = i
  · rw [if_pos h, show (f.index == i) = true by simpa using h]
    rfl
  · rw [if_neg h, show (f.index == i) = false by simpa using h]
    rfl

/-- A blob that nobody filled: zero, but for the bytes that the last one has left of the
    buffer. -/
def cleared (m : Nat → BYTE) (p n i : Nat) : ServiceParameterBlob :=
  ⟨0, 0, if i + 1 = n then UInt64.ofNat (2 ^ 32 * fromLE (slice m (p + 4 + blobSize * n) 4))
    else 0⟩

theorem readBlob_initialize (h : i < n) :
    readBlob (rtlInitializeServiceParameters m p n) (blobAddress p i) = cleared m p n i := by
  have hzero : ∀ k j, k + j + 16 * i + 4 ≤ 16 * n → slice (rtlInitializeServiceParameters m p n)
      (blobAddress p i + k) j = List.replicate j 0 := by
    intro k j hk
    refine List.eq_replicate_iff.mpr ⟨slice_length .., ?_⟩
    intro b hb
    obtain ⟨x, hx, rfl⟩ := List.mem_map.mp hb
    have hx := List.mem_range.mp hx
    refine initialize_cleared ⟨?_, ?_⟩
    · rw [blobAddress, parametersOffset, blobSize]
      omega
    · rw [blobAddress, parametersOffset, blobSize]
      omega
  have hmask : rtlInitializeServiceParameters m p n (blobAddress p i) = 0 :=
    (List.cons.inj (hzero 0 1 (by omega))).1
  have hvalue : fromLE (slice (rtlInitializeServiceParameters m p n) (blobAddress p i + 8) 8)
      = if i + 1 = n then 2 ^ 32 * fromLE (slice m (p + 4 + blobSize * n) 4) else 0 := by
    split
    · next hlast =>
        have hrest : slice (rtlInitializeServiceParameters m p n) (blobAddress p i + 8 + 4) 4
            = slice m (p + 4 + blobSize * n) 4 := by
          refine slice_congr ?_
          intro k _
          rw [show blobAddress p i + 8 + 4 + k = p + 4 + blobSize * n + k by
            rw [blobAddress, parametersOffset, blobSize]; omega]
          exact initialize_frame (Or.inr (Nat.le_add_right ..))
        rw [slice_add _ _ 4 4, hzero 8 4 (by omega), hrest, fromLE_append]
        simp [fromLE]
    · next hlast =>
        rw [hzero 8 8 (by omega)]
        rfl
  rw [readBlob, readDword, readQword, hmask, hzero 4 4 (by omega), hvalue, cleared]
  split <;> rfl

theorem readDword_built (hn : n < 2 ^ 32) : (readDword (built m p n fs) p).toNat = n := by
  have hcount : slice (built m p n fs) p 4 = toLE 4 n := by
    rw [← slice_overlay_toLE (rtlZeroMemory m p (4 + blobSize * n)) p 4 n]
    refine slice_congr ?_
    intro k hk
    refine built_uncovered ?_
    rintro f - ⟨h, -⟩
    rw [blobAddress, parametersOffset] at h
    omega
  rw [readDword, hcount, fromLE_toLE, UInt32.toNat_ofNat', Nat.mod_mod_of_dvd _ (by decide)]
  exact Nat.mod_eq_of_lt hn

theorem readBlob_built (h : i < n) :
    readBlob (built m p n fs) (blobAddress p i) = (lastFill fs i).getD (cleared m p n i) := by
  induction fs using List.reverseRecOn with
  | nil => exact readBlob_initialize h
  | append_singleton fs f ih =>
      rw [built_snoc, lastFill_snoc]
      by_cases hf : f.index = i
      · rw [if_pos hf, f.run_eq, hf]
        exact readBlob_blobBytes ..
      · rw [if_neg hf, ← ih]
        refine readBlob_congr ?_
        intro k hk
        refine run_uncovered ?_
        rintro ⟨h₁, h₂⟩
        rw [blobAddress, blobAddress, blobSize] at h₁ h₂
        rw [blobSize] at hk
        omega

/-- **WHAT THE MACROS SAY** is what is read: for each index the last that was said, and
    otherwise a cleared blob. -/
theorem built_reads (m : Nat → BYTE) (p : Nat) {n : Nat} (hn : n < 2 ^ 32) (fs : List Fill) :
    (readParameters (built m p n fs) p).parameters
      = (List.range n).map fun i => (lastFill fs i).getD (cleared m p n i) := by
  rw [readParameters]
  dsimp only
  rw [readDword_built hn]
  refine List.map_congr_left ?_
  intro i hi
  exact readBlob_built (List.mem_range.mp hi)

/-- **WHAT WAS IN THE BUFFER** is no part of the list exactly when the last parameter is
    filled. -/
theorem built_determined (p n : Nat) (fs : List Fill) :
    (∀ m m' : Nat → BYTE, ∀ k < parameterBufferSize n,
      built m p n fs (p + k) = built m' p n fs (p + k)) ↔ ∃ f ∈ fs, f.index + 1 = n := by
  constructor
  · intro h
    by_contra hno
    -- the first byte that the first macro leaves
    have hleft : ∀ m : Nat → BYTE, built m p n fs (p + (4 + blobSize * n))
        = m (p + (4 + blobSize * n)) := by
      intro m
      rw [built_uncovered, initialize_frame (Or.inr (by omega))]
      rintro f hf ⟨h₁, h₂⟩
      refine hno ⟨f, hf, ?_⟩
      rw [blobAddress, parametersOffset, blobSize] at h₁ h₂
      omega
    have := h (fun _ => 0) (fun _ => 1) (4 + blobSize * n)
      (by rw [parameterBufferSize, parametersOffset]; omega)
    rw [hleft, hleft] at this
    cases this
  · rintro ⟨f, hf, rfl⟩ m m' k hk
    rw [parameterBufferSize, parametersOffset] at hk
    refine built_congr ?_
    by_cases hlast : k < 4 + blobSize * (f.index + 1)
    · exact Or.inl (initialize_congr (by omega) (Nat.le_add_right ..))
    · refine Or.inr ⟨f, hf, ?_⟩
      rw [blobSize] at hk hlast ⊢
      constructor <;> rw [blobAddress, parametersOffset, blobSize] <;> omega

/-- Nothing besides the list is written. -/
theorem built_frame {x : Nat} (hfs : ∀ f ∈ fs, f.index < n)
    (hx : x < p ∨ p + parameterBufferSize n ≤ x) : built m p n fs x = m x := by
  rw [parameterBufferSize, parametersOffset, blobSize] at hx
  rw [built_uncovered, initialize_frame (by rw [blobSize]; omega)]
  rintro f hf ⟨h₁, h₂⟩
  have := hfs f hf
  rw [blobAddress, parametersOffset, blobSize] at h₁ h₂
  omega

end Reads

/-! ## The client and the server of the example -/

/-- How the server of the example fills its list of 4. -/
def bsRegisterService : List Fill :=
  [.value 0 _DWORD 0, .ptr 1 _PTR_NO_MAP 0 0, .value 2 _DWORD 0, .ptr 3 _PTR_NO_MAP 0 0]

/-- How its client fills its list for a call. -/
def bsQuerySystemInformation (systemInformationClass lpBuffer : ULONG64) (dwBufferSize : DWORD)
    (lpdwReturnLength : ULONG64) : List Fill :=
  [.value 0 _DWORD systemInformationClass, .ptr 1 _PTR_NO_MAP lpBuffer dwBufferSize,
    .value 2 _DWORD dwBufferSize.toUInt64,
    .ptr 3 _PTR_NO_MAP lpdwReturnLength (if lpdwReturnLength != 0 then 4 else 0)]

/-- The list of the server. -/
theorem bsRegisterService_reads (m : Nat → BYTE) (p : Nat) :
    (readParameters (built m p 4 bsRegisterService) p).parameters
      = [⟨_DWORD, 0, 0⟩, ⟨_PTR_NO_MAP, 0, 0⟩, ⟨_DWORD, 0, 0⟩, ⟨_PTR_NO_MAP, 0, 0⟩] :=
  built_reads m p (by decide) bsRegisterService

/-- The list of the client. -/
theorem bsQuerySystemInformation_reads (m : Nat → BYTE) (p : Nat)
    (systemInformationClass lpBuffer : ULONG64) (dwBufferSize : DWORD)
    (lpdwReturnLength : ULONG64) :
    (readParameters (built m p 4 (bsQuerySystemInformation systemInformationClass lpBuffer
      dwBufferSize lpdwReturnLength)) p).parameters
      = [⟨_DWORD, 0, systemInformationClass⟩, ⟨_PTR_NO_MAP, dwBufferSize, lpBuffer⟩,
        ⟨_DWORD, 0, dwBufferSize.toUInt64⟩,
        ⟨_PTR_NO_MAP, if lpdwReturnLength != 0 then 4 else 0, lpdwReturnLength⟩] :=
  built_reads m p (by decide) (bsQuerySystemInformation ..)

/-- **THE EXAMPLE** fits: whatever its client is asked for and whatever lay in the buffers of
    both, neither list is refused where it is captured or checked for null pointers, and the
    service takes the one of the client for its own. -/
theorem example_agrees (m m' : Nat → BYTE) (p p' : Nat)
    (systemInformationClass lpBuffer : ULONG64) (dwBufferSize : DWORD)
    (lpdwReturnLength : ULONG64) :
    let registered := readParameters (built m p 4 bsRegisterService) p
    let called := readParameters (built m' p' 4 (bsQuerySystemInformation systemInformationClass
      lpBuffer dwBufferSize lpdwReturnLength)) p'
    capture registered = some registered ∧ capture called = some called
      ∧ ¬ ScOutcome.Refused called ∧ rtlEqualParameterType registered called = true := by
  intro registered called
  have hregistered : registered.masks = [_DWORD, _PTR_NO_MAP, _DWORD, _PTR_NO_MAP] :=
    congrArg (List.map _) (bsRegisterService_reads m p)
  have hcalled : called.masks = [_DWORD, _PTR_NO_MAP, _DWORD, _PTR_NO_MAP] :=
    congrArg (List.map _) (bsQuerySystemInformation_reads m' p' ..)
  -- valid masks, and no pointer that may not be null
  have hall : [_DWORD, _PTR_NO_MAP, _DWORD, _PTR_NO_MAP].all (fun cbMask => !maskRefused cbMask
      && !(hasBits cbMask 0b01000000 && !hasBits cbMask 0b00100000)) = true := by decide
  have hmasks : ∀ cbMask ∈ [_DWORD, _PTR_NO_MAP, _DWORD, _PTR_NO_MAP],
      maskRefused cbMask = false
        ∧ (hasBits cbMask 0b01000000 && !hasBits cbMask 0b00100000) = false := by
    intro cbMask h
    have hmask := List.all_eq_true.mp hall cbMask h
    rwa [Bool.and_eq_true, Bool.not_eq_true', Bool.not_eq_true'] at hmask
  have hvalid : ∀ q : ServiceRoutineParameter,
      q.masks = [_DWORD, _PTR_NO_MAP, _DWORD, _PTR_NO_MAP] → capture q = some q := by
    intro q hq
    rw [capture_eq_some, valid_iff_masks, hq]
    exact ⟨fun cbMask h => (hmasks cbMask h).1, rfl⟩
  refine ⟨hvalid _ hregistered, hvalid _ hcalled, ?_, ?_⟩
  · rintro ⟨e, he, hbad⟩
    have he : e.parameterMask ∈ called.masks := List.mem_map_of_mem he
    rw [hcalled] at he
    obtain ⟨h₁, h₂⟩ := hmasks _ he
    rw [h₁, ScOutcome.nullRefused, h₂] at hbad
    rcases hbad with hbad | hbad <;> cases hbad
  · rw [rtlEqualParameterType_eq_true, hregistered, hcalled]

/-- The list of the server in a buffer full of ones. -/
theorem built_reads_registered :
    (readParameters (built (fun _ => 1) 100 4 bsRegisterService) 100).parameters
      = (List.range 4).map fun i => (lastFill bsRegisterService i).getD
        (cleared (fun _ => 1) 100 4 i) :=
  built_reads _ _ (by decide) _

end ScInitialize
