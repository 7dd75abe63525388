import ServiceCall.ThunkProofs
import ServiceCall.DispatchProofs

/-! # The thunk of the 32-bit build

    `__x86ServiceCall` pushes the low halves of the values of a list, and calls a
    routine that takes them off the stack again.  It finds the routine and the list
    on the stack itself. -/

namespace ScStdcall

open LinearMemory StackMachine ScParameter ScServiceCall ScThunk

inductive Reg where
  | eax
  | ebx
  | ecx
  | edx
  | esp
deriving DecidableEq

/-- `__x86ServiceCall`. -/
def x86ServiceCall : List (Instr Reg 32) :=
  [ .push (.reg .ebx),
    .alu .mov .full .edx (.mem .esp 8),
    .alu .mov .full .ebx (.mem .esp 0xc),
    .alu .mov .full .ecx (.mem .ebx 0),
    .lea .full .ebx .ebx 8,
    .lea .full .eax .ecx (-1),
    .alu .shl .full .eax (.imm 4),
    .alu .add .full .eax (.reg .ebx),
    -- 8: `_loop`
    .alu .cmp .full .ecx (.imm 0),
    .jcc .e 14,
    .push (.mem .eax 8),
    .alu .sub .full .eax (.imm 0x10),
    .dec .full .ecx,
    .jmp 8,
    -- 14: `_break`
    .call .edx,
    .pop .ebx,
    .ret ]

section Call

variable (s₀ : State Reg 32)

/-- The address of the return address. -/
def top : Nat := (s₀.regs .esp).toNat

/-- The first argument: the routine. -/
def routineAt : BitVec 32 := word 32 s₀.mem (top s₀ + 4) 4

/-- The second argument: the address of the list. -/
def listAt : Nat := (word 32 s₀.mem (top s₀ + 8) 4).toNat

/-- The list. -/
def listOf : ServiceRoutineParameter := readParameters s₀.mem (listAt s₀)

/-- The lowest address of the frame. -/
def bottom : Nat := top s₀ - 4 - 4 * (listOf s₀).dwParameters

/-- The thunk was called with its two arguments: the list and the frame lie in the address
    space and apart. -/
structure CalledWith : Prop where
  start   : s₀.pc = 0
  reads   : s₀.reads = []
  room    : 4 * (listOf s₀).dwParameters + 8 ≤ top s₀
  end_le  : top s₀ + 12 ≤ 2 ^ 32
  list_le : listAt s₀ + parameterBufferSize (listOf s₀).dwParameters ≤ 2 ^ 32
  apart   : listAt s₀ + parameterBufferSize (listOf s₀).dwParameters ≤ bottom s₀
    ∨ top s₀ ≤ listAt s₀

/-- A range of the list, or of the stack from the frame to the arguments. -/
def Own (x : Nat × Nat) : Prop :=
  (listAt s₀ ≤ x.1 ∧ x.1 + x.2 ≤ listAt s₀ + parameterBufferSize (listOf s₀).dwParameters)
  ∨ (bottom s₀ ≤ x.1 ∧ x.1 + x.2 ≤ top s₀ + 12)

/-- The low halves of the values. -/
def argumentWords : List (BitVec 32) :=
  (listOf s₀).parameters.map (·.ulParameter.toUInt32.toBitVec)

/-- The memory while the thunk runs, when the arguments from index `k` on are on the stack. -/
abbrev Kept (m : Nat → BYTE) (k : Nat) : Prop :=
  Filled 32 s₀.mem m (bottom s₀) (top s₀) (top s₀ - 4) (s₀.regs .ebx) (argumentWords s₀) k

end Call

section Memory

variable {s₀ : State Reg 32} {m : Nat → BYTE} {k : Nat}

theorem bottom_add (C : CalledWith s₀) :
    bottom s₀ + 4 * (listOf s₀).dwParameters + 4 = top s₀ := by
  have := C.room
  unfold bottom
  omega

theorem argumentWords_getElem? {i : Nat} {e : ServiceParameterBlob}
    (he : (listOf s₀).parameters[i]? = some e) :
    (argumentWords s₀)[i]? = some e.ulParameter.toUInt32.toBitVec := by
  rw [argumentWords, List.getElem?_map, he]
  rfl

/-- The words are the dwords that the thunk pushes. -/
theorem argumentWords_eq (s₀ : State Reg 32) :
    argumentWords s₀ = (ScSequential.x86ServiceCall (listOf s₀)).map UInt32.toBitVec := by
  rw [ScSequential.x86ServiceCall_eq, List.map_map]
  rfl

/-- The count is read. -/
theorem Kept.count (K : Kept s₀ m k) (C : CalledWith s₀) :
    word 32 m (listAt s₀) 4 = BitVec.ofNat 32 (listOf s₀).dwParameters := by
  have hslice : slice m (listAt s₀) 4 = slice s₀.mem (listAt s₀) 4 := by
    refine slice_congr ?_
    intro j hj
    refine K.apart C.apart ?_
    rw [parameterBufferSize, parametersOffset]
    omega
  rw [listOf, readParameters_count, word, hslice]

/-- The low half of a number in the memory is in its first bytes. -/
theorem readQword_low (m : Nat → BYTE) (a : Nat) :
    (readQword m a).toUInt32.toBitVec = word 32 m a 4 := by
  have hlow := fromLE_lt (slice m a 4)
  rw [slice_length] at hlow
  apply BitVec.eq_of_toNat_eq
  rw [word, BitVec.toNat_ofNat, readQword, slice_add m a 4 4, fromLE_append, slice_length]
  show (UInt64.ofNat _).toUInt32.toNat = _
  rw [UInt64.toNat_toUInt32, UInt64.toNat_ofNat']
  omega

/-- The low half of a value is read. -/
theorem Kept.value (K : Kept s₀ m k) (C : CalledWith s₀) {i : Nat} {e : ServiceParameterBlob}
    (he : (listOf s₀).parameters[i]? = some e) :
    word 32 m (listAt s₀ + 16 * (i + 1)) 4 = e.ulParameter.toUInt32.toBitVec := by
  obtain ⟨hi, -⟩ := List.getElem?_eq_some_iff.mp he
  have hlen : i < (listOf s₀).dwParameters := hi
  have hmem : ∀ j, j < 4 → m (listAt s₀ + 16 * (i + 1) + j)
      = s₀.mem (listAt s₀ + 16 * (i + 1) + j) := by
    intro j hj
    rw [Nat.add_assoc]
    refine K.apart C.apart ?_
    rw [parameterBufferSize, parametersOffset, blobSize]
    omega
  have hblob := readParameters_entry he
  rw [word_congr hmem, hblob, readBlob, readQword_low, parametersOffset, blobSize,
    show listAt s₀ + 8 + 16 * i + 8 = listAt s₀ + 16 * (i + 1) by ring]

end Memory

/-! ## Up to the call -/

section Blocks

variable {s₀ s : State Reg 32}

/-- The arguments from index `k` on are on the stack. -/
structure Framed (s₀ s : State Reg 32) (pc k : Nat) : Prop where
  pc    : s.pc = pc
  edx   : s.regs .edx = routineAt s₀
  esp   : s.regs .esp = BitVec.ofNat 32 (bottom s₀ + 4 * k)
  mem   : Kept s₀ s.mem k
  reads : ∀ x ∈ s.reads, Own s₀ x

/-- The arguments of the thunk were read. -/
structure Counted (s₀ s : State Reg 32) (n : Nat) : Prop extends Framed s₀ s 4 n where
  ebx : (s.regs .ebx).toNat = listAt s₀
  ecx : s.regs .ecx = BitVec.ofNat 32 n

theorem leads_counted (C : CalledWith s₀) : Leads .esp x86ServiceCall s₀ fun s =>
    Counted s₀ s (listOf s₀).dwParameters := by
  have hbottom := bottom_add C
  have hend := C.end_le
  have hrsp : s₀.regs .esp - BitVec.ofNat 32 (32 / 8) = BitVec.ofNat 32 (top s₀ - 4) := by
    have := C.room
    apply BitVec.eq_of_toNat_eq
    simp only [BitVec.toNat_sub, BitVec.toNat_ofNat]
    unfold top at *
    omega
  have hslot : (BitVec.ofNat 32 (top s₀ - 4)).toNat = top s₀ - 4 := by
    rw [BitVec.toNat_ofNat]
    omega
  have hkept : Kept s₀ (overlay s₀.mem (top s₀ - 4) (toLE (32 / 8) (s₀.regs .ebx).toNat))
      (listOf s₀).dwParameters := by
    exact filled_start (List.length_map ..) rfl (by omega) (show top s₀ - 4 + 4 ≤ top s₀ by omega)
  -- above the frame nothing changes
  have habove : ∀ a, top s₀ ≤ a → word 32
      (overlay s₀.mem (top s₀ - 4) (toLE (32 / 8) (s₀.regs .ebx).toNat)) a 4
        = word 32 s₀.mem a 4 := by
    intro a ha
    refine word_overlay_apart (Or.inr ?_)
    rw [toLE_length]
    omega
  have hargument : ∀ {s' : State Reg 32} {d : BitVec 32} {k : Nat},
      s'.regs .esp = BitVec.ofNat 32 (top s₀ - 4) → d.toNat = k → k ≤ 12 →
      (s'.regs .esp + d).toNat = top s₀ - 4 + k := by
    intro s' d k hesp hd hk
    rw [hesp, BitVec.toNat_add, BitVec.toNat_ofNat, hd]
    omega
  have hown : ∀ k, 4 ≤ k → k ≤ 12 → Own s₀ (top s₀ - 4 + k, 4) := by
    intro k h4 h12
    refine Or.inr ⟨?_, ?_⟩
    · show bottom s₀ ≤ top s₀ - 4 + k
      omega
    · show top s₀ - 4 + k + 4 ≤ _
      omega
  refine .push C.start rfl rfl rfl ?_
  rw [hrsp, hslot]
  intro s₁ h₁
  have a₁ : (s₁.regs .esp + 8).toNat = top s₀ - 4 + 8 :=
    hargument (by simp [h₁.regs]) rfl (by decide)
  refine .alu h₁.pc rfl (s₁.value_mem .full a₁) (s₁.ranges_mem .full a₁) rfl ?_
  intro s₂ h₂
  have a₂ : (s₂.regs .esp + 0xc).toNat = top s₀ - 4 + 12 :=
    hargument (by simp [h₂.regs, h₁.regs]) rfl (by decide)
  refine .alu h₂.pc rfl (s₂.value_mem .full a₂) (s₂.ranges_mem .full a₂) rfl ?_
  intro s₃ h₃
  have hmem : s₃.mem = s₁.mem := by rw [h₃.mem, h₂.mem]
  have hebx : (s₃.regs .ebx).toNat = listAt s₀ := by
    rw [h₃.regs, Function.update_self, h₂.mem, h₁.mem]
    show (word 32 _ (top s₀ - 4 + 12) 4).toNat = _
    rw [show top s₀ - 4 + 12 = top s₀ + 8 by omega]
    exact congrArg BitVec.toNat (habove _ (by omega))
  have a₃ : (s₃.regs .ebx + 0).toNat = listAt s₀ := by
    rw [← hebx]
    simp
  have hcount : word 32 s₃.mem (listAt s₀) 4 = BitVec.ofNat 32 (listOf s₀).dwParameters := by
    rw [hmem, h₁.mem]
    exact Kept.count hkept C
  refine .alu h₃.pc rfl ((s₃.value_mem .full a₃).trans hcount) (s₃.ranges_mem .full a₃) rfl ?_
  intro s₄ h₄
  refine .refl ⟨⟨h₄.pc, ?_, ?_, ?_, ?_⟩, ?_, ?_⟩
  · rw [h₄.regs, Function.update_of_ne (by decide), h₃.regs, Function.update_of_ne (by decide),
      h₂.regs, Function.update_self, h₁.mem]
    show word 32 _ (top s₀ - 4 + 8) 4 = _
    rw [show top s₀ - 4 + 8 = top s₀ + 4 by omega]
    exact habove _ (by omega)
  · have hsum : bottom s₀ + 4 * (listOf s₀).dwParameters = top s₀ - 4 := by omega
    simp [h₄.regs, h₃.regs, h₂.regs, h₁.regs, hsum]
  · rw [h₄.mem, hmem, h₁.mem]
    exact hkept
  · rw [h₄.reads, h₃.reads, h₂.reads, h₁.reads, C.reads]
    refine reads_append (reads_append (reads_append ?_ ?_) ?_) ?_
    · exact List.forall_mem_nil _
    · exact reads_singleton (hown 8 (by decide) (by decide))
    · exact reads_singleton (hown 12 (by decide) (by decide))
    · refine reads_singleton (Or.inl ⟨Nat.le_refl _, ?_⟩)
      show listAt s₀ + 4 ≤ _
      rw [parameterBufferSize, parametersOffset]
      omega
  · rw [h₄.regs, Function.update_of_ne (by decide)]
    exact hebx
  · rw [h₄.regs, Function.update_self]
    rfl

/-- The loop, with `k` entries to go: the next one lies before `eax`. -/
structure Looping (s₀ s : State Reg 32) (k : Nat) : Prop extends Framed s₀ s 8 k where
  ecx : s.regs .ecx = BitVec.ofNat 32 k
  eax : 0 < k → (s.regs .eax + 8).toNat = listAt s₀ + 16 * k

/-- The loop begins behind the last entry. -/
theorem leads_loop (C : CalledWith s₀) {n : Nat} (hn : (listOf s₀).dwParameters = n)
    (D : Counted s₀ s n) : Leads .esp x86ServiceCall s fun s => Looping s₀ s n := by
  have hlist := C.list_le
  rw [hn, parameterBufferSize, parametersOffset, blobSize] at hlist
  refine .lea D.pc rfl ?_
  intro s₁ h₁
  refine .lea h₁.pc rfl ?_
  intro s₂ h₂
  have hshl : s₂.regs .eax <<< ((4 : BitVec 32).toNat % 32) = s₂.regs .eax <<< 4 := rfl
  refine .alu h₂.pc rfl rfl rfl (congrArg some hshl) ?_
  intro s₃ h₃
  refine .alu h₃.pc rfl rfl rfl rfl ?_
  intro s₄ h₄
  refine .refl ⟨⟨h₄.pc, ?_, ?_, ?_, ?_⟩, ?_, ?_⟩
  · simp [h₄.regs, h₃.regs, h₂.regs, h₁.regs, D.edx]
  · simp [h₄.regs, h₃.regs, h₂.regs, h₁.regs, D.esp]
  · rw [h₄.mem, h₃.mem, h₂.mem, h₁.mem]
    exact D.mem
  · rw [h₄.reads, h₃.reads, h₂.reads, h₁.reads]
    exact reads_append (reads_append D.reads (List.forall_mem_nil _)) (List.forall_mem_nil _)
  · simp [h₄.regs, h₃.regs, h₂.regs, h₁.regs, D.ecx]
  · intro hpos
    have heax₂ : s₂.regs .eax = BitVec.ofNat 32 (n - 1) := by
      rw [h₂.regs, Function.update_self, h₁.regs, Function.update_of_ne (by decide), D.ecx]
      exact ofNat_add_neg_one hpos
    have heax₃ : s₃.regs .eax = BitVec.ofNat 32 (16 * (n - 1)) := by
      rw [h₃.regs, Function.update_self, heax₂]
      exact shl_ofNat (k := 4) (by omega) (by omega)
    have hebx : s₃.regs .ebx = s.regs .ebx + 8 := by
      simp [h₃.regs, h₂.regs, h₁.regs, Width.cut]
    have heax : s₄.regs .eax = s₃.regs .eax + s₃.regs .ebx := by
      rw [h₄.regs, Function.update_self]
      rfl
    rw [heax, heax₃, hebx]
    simp only [BitVec.toNat_add, BitVec.toNat_ofNat, D.ebx,
      show (8 : BitVec 32).toNat = 8 from rfl]
    omega

/-- One more argument. -/
theorem leads_next (C : CalledWith s₀) {k : Nat} (hk : k < (listOf s₀).dwParameters)
    (L : Looping s₀ s (k + 1)) : Leads .esp x86ServiceCall s fun s => Looping s₀ s k := by
  have hbottom := bottom_add C
  have hend := C.end_le
  have hlist := C.list_le
  rw [parameterBufferSize, parametersOffset, blobSize] at hlist
  obtain ⟨e, he⟩ : ∃ e, (listOf s₀).parameters[k]? = some e :=
    ⟨_, List.getElem?_eq_getElem hk⟩
  have hne : (s.regs .ecx == (0 : BitVec 32)) = false := by
    rw [L.ecx, beq_eq_false_iff_ne, ne_eq, ← BitVec.toNat_inj, BitVec.toNat_ofNat]
    show ¬ (k + 1) % 2 ^ 32 = 0
    omega
  -- `cmp ecx, 0`: there is a parameter left
  refine .compare L.pc rfl rfl rfl rfl rfl rfl ?_ ?_
  · intro h
    have h' : (s.regs .ecx == (0 : BitVec 32)) = true := h
    rw [hne] at h'
    cases h'
  intro _ s₁ h₁
  have haddr : (s₁.regs .eax + 8).toNat = listAt s₀ + 16 * (k + 1) := by
    rw [h₁.regs]
    exact L.eax (Nat.succ_pos k)
  have hvalue : s₁.value .full (.mem .eax 8) = e.ulParameter.toUInt32.toBitVec := by
    rw [s₁.value_mem .full haddr, h₁.mem]
    exact Kept.value L.mem C he
  -- `push [eax + 8]`
  refine .push h₁.pc rfl hvalue (s₁.ranges_mem .full haddr) ?_
  have hesp : s₁.regs .esp - BitVec.ofNat 32 (32 / 8) = BitVec.ofNat 32 (bottom s₀ + 4 * k) := by
    rw [h₁.regs, L.esp]
    apply BitVec.eq_of_toNat_eq
    simp only [BitVec.toNat_sub, BitVec.toNat_ofNat]
    omega
  have hslot : (BitVec.ofNat 32 (bottom s₀ + 4 * k)).toNat = bottom s₀ + 4 * k := by
    rw [BitVec.toNat_ofNat]
    omega
  rw [hesp, hslot]
  intro s₂ h₂
  -- `sub eax, 0x10`, `dec ecx`, and back to `_loop`
  refine .alu h₂.pc rfl rfl rfl rfl ?_
  intro s₃ h₃
  refine .dec h₃.pc rfl ?_
  intro s₄ h₄
  refine .jmp h₄.pc rfl ?_
  intro s₅ h₅
  refine .refl ⟨⟨h₅.pc, ?_, ?_, ?_, ?_⟩, ?_, ?_⟩
  · simp [h₅.regs, h₄.regs, h₃.regs, h₂.regs, h₁.regs, L.edx]
  · simp [h₅.regs, h₄.regs, h₃.regs, h₂.regs]
  · rw [h₅.mem, h₄.mem, h₃.mem, h₂.mem, h₁.mem]
    exact L.mem.push rfl (argumentWords_getElem? he) (by omega) (by omega)
  · rw [h₅.reads, h₄.reads, h₃.reads, h₂.reads, h₁.reads]
    refine reads_append (reads_append (reads_append L.reads ?_) ?_) ?_
    · exact List.forall_mem_nil _
    · refine reads_singleton (Or.inl ⟨Nat.le_add_right .., ?_⟩)
      show listAt s₀ + 16 * (k + 1) + 4 ≤ _
      rw [parameterBufferSize, parametersOffset, blobSize]
      omega
    · exact List.forall_mem_nil _
  · have hecx : s₃.regs .ecx = BitVec.ofNat 32 (k + 1) := by
      simp [h₃.regs, h₂.regs, h₁.regs, L.ecx]
    rw [h₅.regs, h₄.regs, Function.update_self, hecx]
    apply BitVec.eq_of_toNat_eq
    simp only [Width.cut, BitVec.toNat_sub, BitVec.toNat_ofNat,
      show (1 : BitVec 32).toNat = 1 from rfl]
    omega
  · intro hpos
    have heax : s₅.regs .eax = s₁.regs .eax - 16 := by
      rw [h₅.regs, h₄.regs, Function.update_of_ne (by decide), h₃.regs, Function.update_self,
        h₂.regs, Function.update_of_ne (by decide)]
      rfl
    rw [BitVec.toNat_add, show (8 : BitVec 32).toNat = 8 from rfl] at haddr
    rw [heax, BitVec.toNat_add, BitVec.toNat_sub, show (8 : BitVec 32).toNat = 8 from rfl,
      show (16 : BitVec 32).toNat = 16 from rfl]
    omega

/-- All arguments. -/
theorem leads_loops (C : CalledWith s₀) {k : Nat} (hk : k ≤ (listOf s₀).dwParameters)
    (L : Looping s₀ s k) : Leads .esp x86ServiceCall s fun s => Looping s₀ s 0 := by
  induction k generalizing s with
  | zero => exact .refl L
  | succ k ih => exact (leads_next C hk L).trans fun s L' => ih (Nat.le_of_succ_le hk) L'

/-- The loop ends at the call. -/
theorem leads_call (L : Looping s₀ s 0) :
    Leads .esp x86ServiceCall s fun s => Framed s₀ s 14 0 := by
  have hzero : (s.regs .ecx == (0 : BitVec 32)) = true := by
    rw [L.ecx]
    rfl
  refine .compare L.pc rfl rfl rfl rfl rfl rfl ?_ ?_
  · intro _ s₁ h₁
    refine .refl ⟨h₁.pc, ?_, ?_, ?_, ?_⟩
    · rw [h₁.regs, L.edx]
    · rw [h₁.regs, L.esp]
    · rw [h₁.mem]
      exact L.mem
    · rw [h₁.reads]
      exact reads_append L.reads (List.forall_mem_nil _)
  · intro h
    have h' : (s.regs .ecx == (0 : BitVec 32)) = false := h
    rw [hzero] at h'
    exact nomatch h'

/-- From the start to the call. -/
theorem leads_atCall (C : CalledWith s₀) :
    Leads .esp x86ServiceCall s₀ fun s => Framed s₀ s 14 0 := by
  refine (leads_counted C).trans fun s₁ D => ?_
  refine (leads_loop C rfl D).trans fun s₂ L => ?_
  exact (leads_loops C (Nat.le_refl _) L).trans fun s₃ L' => leads_call L'

end Blocks

/-! ## The call -/

/-- A routine takes its return address and its arguments from the stack, and keeps `ebx`. -/
structure Pops (s₀ : State Reg 32)
    (routine : BitVec 32 → Store Reg 32 → Store Reg 32 → Prop) : Prop where
  esp : ∀ {f x y}, routine f x y →
    y.regs .esp = x.regs .esp + 4 + BitVec.ofNat 32 (4 * (listOf s₀).dwParameters)
  ebx : ∀ {f x y}, routine f x y → y.regs .ebx = x.regs .ebx

/-- A routine that follows the calling convention: of the frames above its own it writes
    only its arguments, too. -/
structure Stdcall (s₀ : State Reg 32)
    (routine : BitVec 32 → Store Reg 32 → Store Reg 32 → Prop) : Prop
    extends Pops s₀ routine where
  frame : ∀ {f x y a}, routine f x y →
    (x.regs .esp).toNat + 4 + 4 * (listOf s₀).dwParameters ≤ a → a < top s₀ →
    y.mem a = x.mem a

section Calls

variable {s₀ c : State Reg 32} {routine : BitVec 32 → Store Reg 32 → Store Reg 32 → Prop}
  {y : Store Reg 32}

/-- What the thunk returns with: `ebx` comes from its slot. -/
structure Finished (s₀ c : State Reg 32) (y : Store Reg 32) (e : State Reg 32) : Prop where
  eax   : e.regs .eax = y.regs .eax
  esp   : e.regs .esp = s₀.regs .esp + 4
  ebx   : e.regs .ebx = word 32 y.mem (top s₀ - 4) 4
  reads : e.reads = c.reads ++ [(top s₀ - 4, 4)] ++ [(top s₀, 4)]

/-- The stack pointer while the routine runs. -/
theorem entered_esp (C : CalledWith s₀) (A : Framed s₀ c 14 0) :
    (c.entered .esp).regs .esp + 4 = BitVec.ofNat 32 (bottom s₀)
      ∧ ((c.entered .esp).regs .esp).toNat + 4 = bottom s₀ := by
  have hbottom := bottom_add C
  have hroom := C.room
  have hend := C.end_le
  have hesp : (c.entered .esp).regs .esp = BitVec.ofNat 32 (bottom s₀) - 4 := by
    rw [State.entered_sp, A.esp]
    rfl
  rw [hesp]
  constructor
  · rw [BitVec.sub_add_cancel]
  · rw [BitVec.toNat_sub, BitVec.toNat_ofNat, show (4 : BitVec 32).toNat = 4 from rfl]
    omega

/-- The slot for `ebx` is as it was. -/
theorem saved_entered (C : CalledWith s₀) (A : Framed s₀ c 14 0) (W : Stdcall s₀ routine)
    {f : BitVec 32} (hy : routine f (c.entered .esp) y) :
    word 32 y.mem (top s₀ - 4) 4 = s₀.regs .ebx := by
  have hbottom := bottom_add C
  obtain ⟨-, hentered⟩ := entered_esp C A
  rw [← A.mem.saved]
  refine word_congr ?_
  intro j hj
  rw [W.frame hy (by omega) (by omega)]
  -- the return address lies below the frame
  refine overlay_uncovered ?_
  rw [toLE_length]
  have hpush : (c.regs .esp - BitVec.ofNat 32 (32 / 8)).toNat
      = ((c.entered .esp).regs .esp).toNat := by rw [State.entered_sp]
  rw [hpush]
  rintro ⟨h₁, h₂⟩
  omega

/-- From the return of the routine on there is one way. -/
theorem execution_returned (C : CalledWith s₀) (A : Framed s₀ c 14 0) (W : Pops s₀ routine)
    {f : BitVec 32} (hy : routine f (c.entered .esp) y) :
    ∃ e, Finished s₀ c y e ∧ ∀ calls e',
      Execution .esp x86ServiceCall routine (c.returned y) calls e' ↔ calls = [] ∧ e' = e := by
  have hbottom := bottom_add C
  have hend := C.end_le
  have hesp : (c.returned y).regs .esp = BitVec.ofNat 32 (top s₀ - 4) := by
    have hsum : bottom s₀ + 4 * (listOf s₀).dwParameters = top s₀ - 4 := by omega
    refine (W.esp hy).trans ?_
    rw [(entered_esp C A).1, ← BitVec.ofNat_add, hsum]
  have hpc : (c.returned y).pc = 15 := congrArg (· + 1) A.pc
  have hleads : Leads .esp x86ServiceCall (c.returned y) fun s => s.pc = 16
      ∧ s.regs .eax = y.regs .eax ∧ s.regs .esp = s₀.regs .esp
      ∧ s.regs .ebx = word 32 y.mem (top s₀ - 4) 4
      ∧ s.reads = c.reads ++ [(top s₀ - 4, 4)] := by
    have hslot : ((c.returned y).regs .esp).toNat = top s₀ - 4 := by
      rw [hesp, BitVec.toNat_ofNat]
      omega
    refine .pop hpc rfl ?_
    rw [hslot, hesp]
    intro s₁ h₁
    refine .refl ⟨h₁.pc, ?_, ?_, ?_, h₁.reads⟩
    · simp only [h₁.regs, ne_eq, reduceCtorEq, not_false_eq_true, Function.update_of_ne]
      rfl
    · rw [h₁.regs, Function.update_of_ne (by decide), Function.update_self]
      apply BitVec.eq_of_toNat_eq
      have hroom := C.room
      simp only [BitVec.toNat_add, BitVec.toNat_ofNat]
      unfold top at *
      omega
    · rw [h₁.regs, Function.update_self]
      rfl
  obtain ⟨s, hreach, hs, heax, hesp', hebx, hreads⟩ := hleads
  refine ⟨s.left .esp, ⟨?_, ?_, ?_, ?_⟩, ?_⟩
  · rw [State.left_ne _ (by decide), heax]
  · rw [State.left_sp, hesp']
    rfl
  · rw [State.left_ne _ (by decide), hebx]
  · show s.reads ++ [((s.regs .esp).toNat, 4)] = _
    rw [hreads, hesp']
    rfl
  · intro calls e'
    rw [execution_reaches hreach]
    exact execution_ret (by rw [hs]; rfl)

/-- A range of the stack is its own. -/
theorem own_stack (C : CalledWith s₀) {a : Nat} (ha : top s₀ - 4 ≤ a) (hle : a ≤ top s₀ + 8) :
    Own s₀ (a, 4) := by
  have hbottom := bottom_add C
  refine Or.inr ⟨?_, ?_⟩
  · show bottom s₀ ≤ a
    omega
  · show a + 4 ≤ _
    omega

/-- **THE DWORDS ARE IN PLACE**: there is one call, of the routine that was passed, with the
    low halves of the values of the list in order on the stack; the thunk reads the list and
    its stack; it returns what the routine returned, with the stack and `ebx` as they were. -/
theorem x86ServiceCall_calls (C : CalledWith s₀) : ∃ c : State Reg 32,
    x86ServiceCall[c.pc]? = some (.call .edx) ∧ c.regs .edx = routineAt s₀
    ∧ (∀ i e, (listOf s₀).parameters[i]? = some e →
      word 32 c.mem ((c.regs .esp).toNat + 4 * i) 4 = e.ulParameter.toUInt32.toBitVec)
    ∧ ∀ routine, Stdcall s₀ routine →
      (∀ calls e, Execution .esp x86ServiceCall routine s₀ calls e → calls = [c]
        ∧ (∃ y, routine (routineAt s₀) (c.entered .esp) y ∧ e.regs .eax = y.regs .eax)
        ∧ e.regs .esp = s₀.regs .esp + 4 ∧ e.regs .ebx = s₀.regs .ebx
        ∧ ∀ x ∈ e.reads, Own s₀ x)
      ∧ ∀ y, routine (routineAt s₀) (c.entered .esp) y →
        ∃ e, Execution .esp x86ServiceCall routine s₀ [c] e := by
  have hbottom := bottom_add C
  have hend := C.end_le
  obtain ⟨c, hreach, A⟩ := leads_atCall C
  have hesp : (c.regs .esp).toNat = bottom s₀ := by
    rw [A.esp, BitVec.toNat_ofNat]
    omega
  have hcall : x86ServiceCall[c.pc]? = some (.call .edx) := by rw [A.pc]; rfl
  have hexec : ∀ {routine calls e}, Execution .esp x86ServiceCall routine s₀ calls e ↔
      ∃ y calls', calls = c :: calls' ∧ routine (routineAt s₀) (c.entered .esp) y
        ∧ Execution .esp x86ServiceCall routine (c.returned y) calls' e := by
    intro routine calls e
    rw [execution_reaches hreach, execution_call hcall, A.edx]
  refine ⟨c, hcall, A.edx, ?_, ?_⟩
  · intro i e he
    rw [hesp]
    exact A.mem.slots i _ (Nat.zero_le i) (argumentWords_getElem? he)
  · intro routine W
    constructor
    · intro calls e hx
      obtain ⟨y, calls', rfl, hy, hx⟩ := hexec.mp hx
      obtain ⟨e₀, F, honly⟩ := execution_returned C A W.toPops hy
      obtain ⟨rfl, rfl⟩ := (honly _ _).mp hx
      refine ⟨rfl, ⟨y, hy, F.eax⟩, F.esp, F.ebx.trans (saved_entered C A W hy), ?_⟩
      rw [F.reads]
      refine reads_append (reads_append A.reads (reads_singleton ?_)) (reads_singleton ?_)
      · exact own_stack C (Nat.le_refl _) (by omega)
      · exact own_stack C (Nat.sub_le ..) (Nat.le_add_right ..)
    · intro y hy
      obtain ⟨e₀, -, honly⟩ := execution_returned C A W.toPops hy
      exact ⟨e₀, hexec.mpr ⟨y, [], rfl, hy, (honly _ _).mpr ⟨rfl, rfl⟩⟩⟩

end Calls

/-- A thunk called with five arguments: behind its count the bytes of the list count up. -/
def calledWithFive : State Reg 32 where
  regs r := match r with
    | .esp => 0x1000
    | .ebx => 0x77
    | _ => 0
  mem a :=
    if a = 0x1005 then 0x30
    else if a = 0x1009 then 0x20
    else if a = 0x2000 then 5
    else if 0x2008 ≤ a ∧ a < 0x2058 then UInt8.ofNat (a - 0x2008)
    else 0
  flags := none
  reads := []
  pc := 0

theorem count_five : (listOf calledWithFive).dwParameters = 5 := by decide +kernel

theorem calledWith_five : CalledWith calledWithFive := by
  have htop : top calledWithFive = 0x1000 := rfl
  have hlist : listAt calledWithFive = 0x2000 := by decide +kernel
  refine ⟨rfl, rfl, ?_, ?_, ?_, ?_⟩
  · rw [count_five, htop]
    decide
  · rw [htop]
    decide
  · rw [count_five, hlist]
    decide
  · rw [hlist, htop]
    exact .inr (by decide)

/-- A routine with five arguments that writes some bytes and returns 7. -/
def returning (bs : List (Nat × BYTE)) : BitVec 32 → Store Reg 32 → Store Reg 32 → Prop :=
  fun _ x y => y =
    { regs := Function.update (Function.update x.regs .esp (x.regs .esp + 4 + 20)) .eax 7
      mem a := (bs.lookup a).getD (x.mem a) }

theorem pops_returning (bs : List (Nat × BYTE)) : Pops calledWithFive (returning bs) where
  esp := by
    rintro f x _ rfl
    rw [count_five]
    simp
  ebx := by
    rintro f x _ rfl
    simp

theorem stdcall_returning : Stdcall calledWithFive (returning []) where
  toPops := pops_returning []
  frame := by
    rintro f x _ a rfl _ _
    rfl

/-- It is called once, with the low halves of five values, and returns. -/
theorem x86ServiceCall_calls_five : ∃ c e : State Reg 32,
    Execution .esp x86ServiceCall (returning []) calledWithFive [c] e
      ∧ c.regs .edx = 0x3000
      ∧ (∀ i v, [0x0b0a0908, 0x1b1a1918, 0x2b2a2928, 0x3b3a3938, 0x4b4a4948][i]? = some v →
        word 32 c.mem ((c.regs .esp).toNat + 4 * i) 4 = v)
      ∧ e.regs .eax = 7 ∧ e.regs .ebx = 0x77 ∧ e.regs .esp = 0x1004 := by
  have hroutine : routineAt calledWithFive = 0x3000 := by decide +kernel
  have hlist : (listOf calledWithFive).parameters.map (·.ulParameter.toUInt32.toBitVec)
      = [0x0b0a0908, 0x1b1a1918, 0x2b2a2928, 0x3b3a3938, 0x4b4a4948] := by decide +kernel
  obtain ⟨c, -, hedx, hwords, hexec⟩ := x86ServiceCall_calls calledWith_five
  obtain ⟨hall, hsome⟩ := hexec (returning []) stdcall_returning
  obtain ⟨e, hx⟩ := hsome _ rfl
  obtain ⟨-, ⟨y, hy, heax⟩, hesp, hebx, -⟩ := hall _ _ hx
  refine ⟨c, e, hx, hedx.trans hroutine, ?_, ?_, hebx, hesp⟩
  · intro i v hv
    rw [← hlist, List.getElem?_map, Option.map_eq_some_iff] at hv
    obtain ⟨p, hp, rfl⟩ := hv
    exact hwords i p hp
  · cases hy
    simp [heax]

/-- A routine that writes over the slot of `ebx`. -/
def overwriting : BitVec 32 → Store Reg 32 → Store Reg 32 → Prop :=
  returning [(0xffc, 1), (0xffd, 1), (0xffe, 1), (0xfff, 1)]

/-- A routine that pops its arguments and keeps `ebx` may still write the slot where the
    thunk saved `ebx`. -/
theorem x86ServiceCall_overwritten : ¬ ∀ (s₀ e : State Reg 32) (calls : List (State Reg 32))
    (routine : BitVec 32 → Store Reg 32 → Store Reg 32 → Prop), CalledWith s₀ →
    Pops s₀ routine → Execution .esp x86ServiceCall routine s₀ calls e →
    e.regs .ebx = s₀.regs .ebx := by
  intro h
  obtain ⟨c, hreach, A⟩ := leads_atCall calledWith_five
  have hpops : Pops calledWithFive overwriting := pops_returning _
  obtain ⟨e, F, honly⟩ := execution_returned calledWith_five A hpops (f := c.regs .edx) rfl
  have hx : Execution .esp x86ServiceCall overwriting calledWithFive [c] e := by
    rw [execution_reaches hreach, execution_call (r := .edx) (by rw [A.pc]; rfl)]
    exact ⟨_, [], rfl, rfl, (honly _ _).mpr ⟨rfl, rfl⟩⟩
  have hebx := h calledWithFive e [c] overwriting calledWith_five hpops hx
  rw [F.ebx] at hebx
  have hone : word 32 (fun _ => 1) (top calledWithFive - 4) 4 = calledWithFive.regs .ebx := by
    refine (word_congr ?_).trans hebx
    intro j hj
    have hj' : j = 0 ∨ j = 1 ∨ j = 2 ∨ j = 3 := by omega
    rcases hj' with rfl | rfl | rfl | rfl <;> rfl
  exact absurd hone (by decide)

end ScStdcall
