import ServiceCall.CaptureProofs
import ServiceCall.ReaderProofs

/-! # Which bytes of a message are read

    The listener looks at the list of a connection request where the header says
    that the data begin: first at the count, then at the masks as long as they are
    those of the registered list, and when it captures the list at all of its
    entries.  The number of entries comes from the message itself, so these bytes
    lie within the data of the message only when there are enough of them
    (`neededBytes`).

    `equalReader` and `captureReader` are `RtlEqualParameterType` and
    `RtlCaptureParameters` with every access through the pointer as a read of its
    own. -/

namespace ScFootprint

open LinearMemory OpProg ByteReader ScParameter LpcMessage ScSystem ScServiceCall ScSequential

/-! ## The two functions, read by read -/

/-- Bytes that were read, by their offset. -/
def view (bytes : List BYTE) : Nat → BYTE := fun k => bytes.getD k 0

/-- `p2->dwParameters` -/
def countReader (a : Nat) : Reader BYTE Nat := do
  return (readDword (view (← fetch a 4)) 0).toNat

/-- Where the entry with index `i` lies. -/
def entryAddress (a i : Nat) : Nat := a + (parametersOffset + blobSize * i)

/-- The loop of `RtlEqualParameterType`. -/
def equalEntries (a : Nat) : List ServiceParameterBlob → Nat → Reader BYTE Bool
  | [], _ => return true
  | e :: es, i => do
      let cbMask ← fetch (entryAddress a i) 1
      if e.parameterMask != view cbMask 0 then return false else equalEntries a es (i + 1)

/-- `RtlEqualParameterType(p, a)` -/
def equalReader (p : ServiceRoutineParameter) (a : Nat) : Reader BYTE Bool := do
  let n ← countReader a
  if p.dwParameters != n then return false else equalEntries a p.parameters 0

/-- The loop of `RtlCaptureParameters`, with `k` entries to go at index `i`. -/
def captureEntries (a : Nat) :
    Nat → Nat → List ServiceParameterBlob → Reader BYTE (Option ServiceRoutineParameter)
  | 0, _, es => return some ⟨es⟩
  | k + 1, i, es => do
      let cbMask ← fetch (entryAddress a i) 1
      if maskRefused (view cbMask 0) then return none
      else
        let e ← fetch (entryAddress a i) blobSize
        captureEntries a k (i + 1) (es ++ [readBlob (view e) 0])

/-- `RtlCaptureParameters(a)` -/
def captureReader (a : Nat) : Reader BYTE (Option ServiceRoutineParameter) := do
  let n ← countReader a
  captureEntries a n 0 []

section Values

variable {m : Nat → BYTE} {a : Nat}

theorem view_slice {k j : Nat} (h : j < k) : view (slice m a k) j = m (a + j) := by
  rw [view, List.getD_eq_getElem?_getD, slice_getElem? h, Option.getD_some]

theorem readDword_view : readDword (view (slice m a 4)) 0 = readDword m a := by
  refine readDword_congr ?_
  intro k hk
  rw [Nat.zero_add, view_slice hk]

theorem readBlob_view : readBlob (view (slice m a blobSize)) 0 = readBlob m a := by
  refine readBlob_congr ?_
  intro k hk
  rw [Nat.zero_add, view_slice hk]

/-- Reading the count, then the rest. -/
theorem value_countReader_bind {α : Type} (f : Nat → Reader BYTE α) :
    value m (countReader a >>= f) = value m (f (readParameters m a).dwParameters) := by
  rw [countReader, Prog.bind_assoc, value_fetch_bind, readParameters_dwParameters]
  show value m (f (readDword (view (slice m a 4)) 0).toNat) = _
  rw [readDword_view]

theorem footprint_countReader_bind {α : Type} (f : Nat → Reader BYTE α) :
    footprint m (countReader a >>= f)
      = (a, 4) :: footprint m (f (readParameters m a).dwParameters) := by
  rw [countReader, Prog.bind_assoc, footprint_fetch_bind, readParameters_dwParameters]
  show (a, 4) :: footprint m (f (readDword (view (slice m a 4)) 0).toNat) = _
  rw [readDword_view]

/-- The entries from index `i` on, as they lie in memory. -/
theorem entries_drop {i : Nat} (hi : i < (readParameters m a).dwParameters) :
    (readParameters m a).parameters.drop i
      = readBlob m (entryAddress a i) :: (readParameters m a).parameters.drop (i + 1) := by
  rw [List.drop_eq_getElem_cons hi]
  congr 1
  simp only [readParameters, List.getElem_map, List.getElem_range, entryAddress, Nat.add_assoc]

/-- Reading a mask, then the rest. -/
theorem view_mask {i : Nat} :
    view (slice m (entryAddress a i) 1) 0 = (readBlob m (entryAddress a i)).parameterMask :=
  view_slice Nat.one_pos

theorem value_equalEntries (es : List ServiceParameterBlob) (i : Nat)
    (h : i + es.length = (readParameters m a).dwParameters) :
    value m (equalEntries a es i) = equalLoop es ((readParameters m a).parameters.drop i) := by
  induction es generalizing i with
  | nil =>
      cases (readParameters m a).parameters.drop i <;> rfl
  | cons e es ih =>
      have hlen : i + (es.length + 1) = (readParameters m a).dwParameters := h
      rw [entries_drop (by omega), equalEntries, value_fetch_bind, view_mask, equalLoop]
      split
      · rfl
      · exact ih (i + 1) (by omega)

/-- The comparison, read by read, is `RtlEqualParameterType`. -/
theorem value_equalReader (p : ServiceRoutineParameter) :
    value m (equalReader p a) = rtlEqualParameterType p (readParameters m a) := by
  rw [equalReader, value_countReader_bind, rtlEqualParameterType]
  split
  · rfl
  · next h =>
      have hn : p.dwParameters = (readParameters m a).dwParameters := by simpa using h
      have := value_equalEntries (m := m) (a := a) p.parameters 0 (by rw [Nat.zero_add, ← hn]; rfl)
      rwa [List.drop_zero] at this

theorem value_captureEntries (k i : Nat) (es : List ServiceParameterBlob)
    (h : i + k = (readParameters m a).dwParameters) :
    value m (captureEntries a k i es)
      = if ∀ e ∈ (readParameters m a).parameters.drop i, maskRefused e.parameterMask = false
        then some ⟨es ++ (readParameters m a).parameters.drop i⟩ else none := by
  induction k generalizing i es with
  | zero =>
      have hnil : (readParameters m a).parameters.drop i = [] := by
        rw [List.drop_eq_nil_iff]
        exact Nat.le_of_eq h.symm
      simp [captureEntries, hnil]
  | succ k ih =>
      rw [entries_drop (by omega), captureEntries, value_fetch_bind, view_mask]
      cases hmask : maskRefused (readBlob m (entryAddress a i)).parameterMask with
      | true => simp [hmask]
      | false =>
          rw [if_neg Bool.false_ne_true, value_fetch_bind, readBlob_view, ih (i + 1) _ (by omega)]
          simp [hmask]

/-- The capture, read by read, is `RtlCaptureParameters`. -/
theorem value_captureReader :
    value m (captureReader a) = capture (readParameters m a) := by
  rw [captureReader, value_countReader_bind, value_captureEntries _ _ _ (Nat.zero_add _),
    List.drop_zero]
  rfl

end Values

section Runs

variable {b : Build} {t n : Nat} {α : Type} {Q : α → Local b → Prop} {g : Local b}

theorem solo_equalParameterType {lpService lm : LPVOID} {a size : Nat} {r : ServiceRoutine}
    {p : ServiceRoutineParameter} {m : Nat → BYTE} (hr : g.cells lpService = some (.routine r))
    (hp : g.cells r.lpParameters = some (.parameters p)) (hm : g.cells lm = some (.message m size))
    {f : Bool → Code b α}
    (hf : wp (solo t n) (f (rtlEqualParameterType p (readParameters m a))) Q g) :
    wp (solo t n) (equalParameterType lpService lm a >>= f) Q g := by
  rw [equalParameterType, Prog.bind_assoc]
  refine solo_loadRoutine hr ?_
  intro _
  rw [Prog.bind_assoc]
  refine solo_loadParameters hp ?_
  intro _
  rw [Prog.bind_assoc]
  refine solo_loadMessage hm ?_
  intro _
  exact hf

/-- What `WaitThread` compares with is what the reads find. -/
theorem equalParameterType_run {lpService lm : LPVOID} {a size : Nat} {r : ServiceRoutine}
    {p : ServiceRoutineParameter} {m : Nat → BYTE} {w w' : World b} {tr : Events b} {eq : Bool}
    (hr : w.heap.cells lpService = some (.routine r))
    (hp : w.heap.cells r.lpParameters = some (.parameters p))
    (hm : w.heap.cells lm = some (.message m size))
    (hrun : (equalParameterType lpService lm a : Code b Bool).Runs (Alone t n) w tr eq w') :
    eq = value m (equalReader p a) := by
  have hwp : wp (solo t n) (equalParameterType lpService lm a : Code b Bool)
      (fun eq _ => eq = value m (equalReader p a)) (Local.of w []) := by
    rw [← Prog.bind_pure (equalParameterType lpService lm a)]
    exact solo_equalParameterType hr hp hm (value_equalReader p).symm
  exact solo_sound hwp hrun

/-- What `WaitThread` captures is what the reads find. -/
theorem captureParameters_run {lm captured : LPVOID} {a size : Nat} {m : Nat → BYTE}
    {w w' : World b} {tr : Events b} (hm : w.heap.cells lm = some (.message m size))
    (hrun : (rtlCaptureParameters (.message lm a) : Code b LPVOID).Runs (Alone t n) w tr
      captured w') :
    (captured = 0 ∧ value m (captureReader a) = none) ∨
      ∃ p, value m (captureReader a) = some p ∧ captured ≠ 0
        ∧ w'.heap.cells captured = some (.parameters p) := by
  rw [value_captureReader]
  have hwp : wp (solo t n) (rtlCaptureParameters (.message lm a) : Code b LPVOID)
      (fun captured g => (captured = 0 ∧ capture (readParameters m a) = none) ∨
        ∃ p, capture (readParameters m a) = some p ∧ captured ≠ 0
          ∧ g.cells captured = some (.parameters p)) (Local.of w []) := by
    rw [← Prog.bind_pure (rtlCaptureParameters (.message lm a))]
    have hbytes : ListBytes (Local.of w []) (.message lm a) m a := ⟨⟨size, hm⟩, rfl⟩
    refine solo_rtlCaptureParameters hbytes ?_ ?_
    · intro hv c hnew
      exact Or.inr ⟨_, capture_eq_some.mpr ⟨hv, rfl⟩, hnew.nonzero, Function.update_self ..⟩
    · intro hv c _
      exact Or.inl ⟨rfl, if_neg hv⟩
  exact solo_sound hwp hrun

end Runs

/-! ## How much is read -/

/-- The entries at the head of two lists whose masks agree. -/
def agreed : List ServiceParameterBlob → List ServiceParameterBlob → Nat
  | e₁ :: p₁, e₂ :: p₂ => if e₁.parameterMask != e₂.parameterMask then 0 else agreed p₁ p₂ + 1
  | _, _ => 0

theorem agreed_le (es qs : List ServiceParameterBlob) : agreed es qs ≤ es.length := by
  induction es generalizing qs with
  | nil => exact Nat.le_refl 0
  | cons e es ih =>
      cases qs with
      | nil => exact Nat.zero_le _
      | cons q qs =>
          rw [agreed]
          split
          · exact Nat.zero_le _
          · exact Nat.succ_le_succ (ih qs)

/-- Lists of one length have equal masks when all of their entries agree. -/
theorem agreed_eq_length {es qs : List ServiceParameterBlob} (h : es.length = qs.length) :
    agreed es qs = es.length ↔ equalLoop es qs = true := by
  induction es generalizing qs with
  | nil => simp [agreed, equalLoop]
  | cons e es ih =>
      cases qs with
      | nil => cases h
      | cons q qs =>
          rw [agreed, equalLoop]
          split
          · simp
          · rw [List.length_cons, Nat.add_right_cancel_iff]
            exact ih (Nat.succ.inj h)

/-- The bytes of a list `q` that are looked at when it is compared with `p`, and captured
    when the comparison succeeds. -/
def neededBytes (p q : ServiceRoutineParameter) : Nat :=
  if q.dwParameters = p.dwParameters ∧ p.dwParameters ≠ 0 then
    if agreed p.parameters q.parameters = p.dwParameters then
      parameterBufferSize p.dwParameters
    else parameterBufferSize (agreed p.parameters q.parameters) + 1
  else 4

section Footprints

variable {m : Nat → BYTE} {a lo hi : Nat}

theorem entryAddress_mono {i j : Nat} (h : i ≤ j) : entryAddress a i ≤ entryAddress a j := by
  rw [entryAddress, entryAddress, blobSize]
  omega

theorem inside_mask {i : Nat} (hlo : lo ≤ a) :
    Inside lo hi (entryAddress a i, 1) ↔ entryAddress a i + 1 ≤ hi := by
  refine ⟨fun h => h.2, fun h => ⟨?_, h⟩⟩
  exact Nat.le_trans hlo (Nat.le_add_right ..)

/-- The comparison looks at the masks up to the first that differs. -/
theorem inside_equalEntries (hlo : lo ≤ a) (es : List ServiceParameterBlob) (i : Nat)
    (h : i + es.length = (readParameters m a).dwParameters) :
    (∀ r ∈ footprint m (equalEntries a es i), Inside lo hi r) ↔
      ∀ j, j ≤ agreed es ((readParameters m a).parameters.drop i) → j < es.length →
        entryAddress a (i + j) + 1 ≤ hi := by
  induction es generalizing i with
  | nil => simp [equalEntries]
  | cons e es ih =>
      have hlen : i + (es.length + 1) = (readParameters m a).dwParameters := h
      rw [entries_drop (by omega), equalEntries, footprint_fetch_bind, view_mask, agreed,
        List.forall_mem_cons, inside_mask hlo]
      split
      · -- the first mask differs
        constructor
        · rintro ⟨hi', -⟩ j hj -
          rw [Nat.le_zero.mp hj]
          exact hi'
        · intro hall
          exact ⟨hall 0 (Nat.le_refl 0) (Nat.succ_pos _), fun r hr => nomatch hr⟩
      · rw [ih (i + 1) (by omega)]
        constructor
        · rintro ⟨hi', hrest⟩ j hj hlt
          cases j with
          | zero => exact hi'
          | succ j =>
              have := hrest j (Nat.le_of_succ_le_succ hj) (Nat.lt_of_succ_lt_succ hlt)
              rwa [Nat.add_assoc, Nat.add_comm 1] at this
        · intro hall
          refine ⟨hall 0 (Nat.zero_le _) (Nat.succ_pos _), ?_⟩
          intro j hj hlt
          have := hall (j + 1) (Nat.succ_le_succ hj) (Nat.succ_lt_succ hlt)
          rwa [Nat.add_assoc, Nat.add_comm 1]

/-- The capture of a list whose masks are accepted looks at all of its entries. -/
theorem inside_captureEntries (hlo : lo ≤ a) (k i : Nat) (es : List ServiceParameterBlob)
    (h : i + k = (readParameters m a).dwParameters)
    (hv : ∀ e ∈ (readParameters m a).parameters.drop i, maskRefused e.parameterMask = false) :
    (∀ r ∈ footprint m (captureEntries a k i es), Inside lo hi r) ↔
      (k ≠ 0 → entryAddress a (i + k) ≤ hi) := by
  induction k generalizing i es with
  | zero => simp [captureEntries]
  | succ k ih =>
      rw [entries_drop (by omega)] at hv
      have hmask := hv _ List.mem_cons_self
      rw [captureEntries, footprint_fetch_bind, view_mask, hmask, if_neg Bool.false_ne_true,
        footprint_fetch_bind, readBlob_view, List.forall_mem_cons, List.forall_mem_cons,
        ih (i + 1) _ (by omega) (fun e he => hv e (List.mem_cons_of_mem _ he)), inside_mask hlo]
      have hend : entryAddress a i + blobSize = entryAddress a (i + 1) := by
        rw [entryAddress, entryAddress, blobSize]
        omega
      have hle : entryAddress a (i + 1) ≤ entryAddress a (i + (k + 1)) :=
        entryAddress_mono (by omega)
      rw [blobSize] at hend
      constructor
      · rintro ⟨-, ⟨-, hblob⟩, hrest⟩ -
        by_cases hk : k = 0
        · subst hk
          rwa [blobSize, hend] at hblob
        · have := hrest hk
          rwa [Nat.add_assoc, Nat.add_comm 1] at this
      · intro hall
        have := hall (Nat.succ_ne_zero k)
        refine ⟨by omega, ⟨Nat.le_trans hlo (Nat.le_add_right ..), ?_⟩, ?_⟩
        · rw [blobSize, hend]
          exact Nat.le_trans hle this
        · intro _
          rwa [Nat.add_assoc, Nat.add_comm 1]

/-- The bytes that are looked at end where `neededBytes` says. -/
theorem inside_iff_neededBytes {p : ServiceRoutineParameter} (hp : p.Valid) (hlo : lo ≤ a) :
    ((∀ r ∈ footprint m (equalReader p a), Inside lo hi r)
      ∧ (rtlEqualParameterType p (readParameters m a) = true →
        ∀ r ∈ footprint m (captureReader a), Inside lo hi r))
      ↔ a + neededBytes p (readParameters m a) ≤ hi := by
  have hcount : Inside lo hi (a, 4) ↔ a + 4 ≤ hi := ⟨fun h => h.2, fun h => ⟨hlo, h⟩⟩
  have haddr : ∀ i, entryAddress a i = a + parameterBufferSize i := fun _ => rfl
  rw [equalReader, footprint_countReader_bind, captureReader, footprint_countReader_bind,
    List.forall_mem_cons, List.forall_mem_cons, hcount, rtlEqualParameterType]
  -- the counts are compared first
  by_cases hn : p.dwParameters = (readParameters m a).dwParameters
  · have hlen : p.parameters.length = (readParameters m a).parameters.length := hn
    have hmasks : equalLoop p.parameters (readParameters m a).parameters = true →
        (readParameters m a).Valid := fun h =>
      Valid.of_masks hp ((equalLoop_eq_true hlen).mp h)
    have hne : (p.dwParameters != (readParameters m a).dwParameters) = false := by simpa using hn
    have hequal : (∀ r ∈ footprint m (equalEntries a p.parameters 0), Inside lo hi r) ↔ _ :=
      inside_equalEntries hlo p.parameters 0 (by
        rw [Nat.zero_add]
        exact hn)
    rw [hne, if_neg Bool.false_ne_true, if_neg Bool.false_ne_true, hequal, List.drop_zero,
      ← agreed_eq_length hlen]
    have hcapture : agreed p.parameters (readParameters m a).parameters = p.parameters.length →
        ((∀ r ∈ footprint m (captureEntries a (readParameters m a).dwParameters 0 []),
          Inside lo hi r) ↔ (p.dwParameters ≠ 0 → entryAddress a p.dwParameters ≤ hi)) := by
      intro h
      rw [inside_captureEntries hlo _ 0 [] (Nat.zero_add _) ?_, Nat.zero_add, ← hn]
      exact hmasks ((agreed_eq_length hlen).mp h)
    have hle := agreed_le p.parameters (readParameters m a).parameters
    have hpl : p.parameters.length = p.dwParameters := rfl
    rw [hpl] at hle hcapture ⊢
    rw [neededBytes]
    generalize agreed p.parameters (readParameters m a).parameters = g at hle hcapture ⊢
    simp only [Nat.zero_add]
    by_cases h0 : p.dwParameters = 0
    · -- there are no entries
      rw [if_neg (fun h => h.2 h0)]
      refine ⟨fun h => h.1.1, fun h => ⟨⟨h, fun j _ hj => by omega⟩, fun hg => ⟨h, ?_⟩⟩⟩
      exact (hcapture hg).mpr fun h => absurd h0 h
    · rw [if_pos ⟨hn.symm, h0⟩]
      by_cases hg : g = p.dwParameters
      · -- all masks agree, and the list is captured
        rw [if_pos hg, hcapture hg]
        constructor
        · rintro ⟨-, h⟩
          exact (h hg).2 h0
        · intro h
          have h4 : a + 4 ≤ hi := by
            rw [parameterBufferSize, parametersOffset] at h
            omega
          refine ⟨⟨h4, ?_⟩, fun _ => ⟨h4, fun _ => h⟩⟩
          intro j _ hj
          rw [haddr, parameterBufferSize, blobSize]
          rw [parameterBufferSize, blobSize] at h
          omega
      · -- a mask differs
        rw [if_neg hg]
        constructor
        · rintro ⟨⟨-, h⟩, -⟩
          exact h g (Nat.le_refl g) (by omega)
        · intro h
          have h4 : a + 4 ≤ hi := by
            rw [parameterBufferSize, parametersOffset] at h
            omega
          refine ⟨⟨h4, ?_⟩, fun hg' => absurd hg' hg⟩
          intro j hj _
          have := entryAddress_mono (a := a) hj
          rw [haddr g] at this
          omega
  -- the counts differ: nothing else is read
  · have hne : (p.dwParameters != (readParameters m a).dwParameters) = true := by simpa using hn
    rw [hne, if_pos rfl, if_pos rfl, neededBytes, if_neg fun h => hn h.1.symm]
    exact ⟨fun h => h.1.1, fun h => ⟨⟨h, by simp⟩, by simp⟩⟩

end Footprints

/-! ## Connection requests -/

section Requests

variable {b : Build}

/-- A range lies within the data of a message. -/
def InData (m : Message b) (r : Nat × Nat) : Prop :=
  Inside b.portMessageSize (b.portMessageSize + dataLength m.image) r

/-- **A CONNECTION REQUEST IS READ WITHIN ITS DATA** exactly when the bytes that its count
    and its masks make the listener look at do not end behind them. -/
theorem request_reads {p : ServiceRoutineParameter} (hp : p.Valid) (lm : Nat → BYTE)
    (m : Message b) :
    ((∀ r ∈ footprint (deliver lm m) (equalReader p (callparam (deliver lm m))), InData m r)
      ∧ (rtlEqualParameterType p (readParameters (deliver lm m) (callparam (deliver lm m)))
          = true →
        ∀ r ∈ footprint (deliver lm m) (captureReader (callparam (deliver lm m))), InData m r))
      ↔ callparam (deliver lm m)
          + neededBytes p (readParameters (deliver lm m) (callparam (deliver lm m)))
        ≤ b.portMessageSize + dataLength m.image := by
  refine inside_iff_neededBytes hp ?_
  rw [callparam_deliver]
  exact portMessageSize_le_callparam m

/-- Then what the buffer held before the message came decides nothing. -/
theorem request_decided {p : ServiceRoutineParameter} {lm lm' : Nat → BYTE} {m : Message b}
    (h : ∀ r ∈ footprint (deliver lm m) (equalReader p (callparam m.image)), InData m r) :
    rtlEqualParameterType p (readParameters (deliver lm' m) (callparam m.image))
      = rtlEqualParameterType p (readParameters (deliver lm m) (callparam m.image)) := by
  rw [← value_equalReader, ← value_equalReader]
  refine (value_congr ?_).1
  intro r hr i hi
  have hlt : i < m.bytes.length := by
    have := (h r hr).2
    have := hi.2
    have hlen : dataLength m.image + b.portMessageSize = m.bytes.length := m.dataLength_eq
    omega
  rw [deliver_covered lm hlt, deliver_covered lm' hlt]

/-- A connection request of process 7 with these bytes of data. -/
def shortRequest (data : List BYTE) (h : data.length ≤ 32) : Message .x64 :=
  .compose .x64 LPC_CONNECTION_REQUEST ⟨7, 7⟩ 1 data (Message.small_fits h)

/-- One pointer, which may not be null. -/
def onePointerList : ServiceRoutineParameter := ⟨[⟨0x40, 1, 0⟩]⟩

/-- A request with a whole entry is read within its data. -/
theorem request_reads_whole :
    footprint (deliver (fun _ => 0) (shortRequest (1 :: List.replicate 7 0 ++ 0x40
      :: List.replicate 15 0) (by decide))) (equalReader onePointerList 40) ≠ []
    ∧ ∀ r ∈ footprint (deliver (fun _ => 0) (shortRequest (1 :: List.replicate 7 0 ++ 0x40
      :: List.replicate 15 0) (by decide))) (equalReader onePointerList 40),
    InData (shortRequest (1 :: List.replicate 7 0 ++ 0x40 :: List.replicate 15 0) (by decide))
      r :=
  ⟨by decide +kernel, ((request_reads (by decide) (fun _ => 0) (shortRequest
    (1 :: List.replicate 7 0 ++ 0x40 :: List.replicate 15 0) (by decide))).mpr (by decide)).1⟩

/-- A request of four bytes, its count: the mask is read from what the buffer held before,
    and the request is accepted. -/
theorem request_reads_stale : ¬ ∀ (p : ServiceRoutineParameter) (lm : Nat → BYTE)
    (m : Message .x64), p.Valid → 0 < dataLength m.image →
    dataLength m.image ≤ Build.ulMaxConnectionSize .x64 →
    (∀ r ∈ footprint (deliver lm m) (equalReader p (callparam (deliver lm m))), InData m r)
    ∧ (rtlEqualParameterType p (readParameters (deliver lm m) (callparam (deliver lm m))) = true →
      ∀ r ∈ footprint (deliver lm m) (captureReader (callparam (deliver lm m))),
        InData m r) := by
  intro h
  have hreads := h onePointerList (fun i => if i = 48 then 0x40 else 0)
    (shortRequest [1, 0, 0, 0] (by decide)) (by decide) (by decide +kernel) (by decide +kernel)
  exact absurd ((inside_iff_neededBytes (by decide) (by decide +kernel)).mp hreads)
    (by decide +kernel)

end Requests

end ScFootprint
