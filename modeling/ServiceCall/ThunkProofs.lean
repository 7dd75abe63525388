import ServiceCall.MachineProofs
import ServiceCall.ServiceCallProofs

/-! # The thunk of the 64-bit build

    `__x64ServiceCall` lays the values of a list on the stack as the arguments of a
    routine, and calls it.  The frame has room for four arguments at least, and for
    an even number, so that the stack stays aligned. -/

namespace ScThunk

open LinearMemory StackMachine ScParameter ScServiceCall

inductive Reg where
  | rax
  | rbx
  | rcx
  | rdx
  | rsp
  | r8
  | r9
  | r10
deriving DecidableEq

/-- `__x64ServiceCall`. -/
def x64ServiceCall : List (Instr Reg 64) :=
  [ .push (.reg .rbx),
    .alu .mov .full .r10 (.reg .rcx),
    .alu .mov .low .rax (.mem .rdx 0),
    .alu .cmp .full .rax (.imm 4),
    .jcc .nl 6,
    .alu .mov .full .rax (.imm 4),
    -- 6: `_skip1`
    .alu .test .full .rax (.imm 1),
    .jcc .e 9,
    .inc .full .rax,
    -- 9: `_skip2`
    .alu .mov .full .rbx (.reg .rax),
    .alu .shl .full .rbx (.imm 3),
    .alu .mov .low .r8 (.reg .rax),
    .alu .sub .low .r8 (.mem .rdx 0),
    .alu .cmp .low .r8 (.imm 0),
    .jcc .e 17,
    .alu .shl .full .r8 (.imm 3),
    .alu .sub .full .rsp (.reg .r8),
    -- 17: `_skip3`
    .alu .mov .low .rax (.mem .rdx 0),
    .lea .low .r8 .rax (-1),
    .alu .shl .full .r8 (.imm 4),
    .alu .add .full .rdx (.imm 8),
    .alu .add .full .rdx (.reg .r8),
    -- 22: `_loop`
    .alu .cmp .low .rax (.imm 0),
    .jcc .e 28,
    .push (.mem .rdx 8),
    .alu .sub .full .rdx (.imm 0x10),
    .dec .low .rax,
    .jmp 22,
    -- 28: `_break`
    .alu .mov .full .rcx (.mem .rsp 0),
    .alu .mov .full .rdx (.mem .rsp 8),
    .alu .mov .full .r8 (.mem .rsp 0x10),
    .alu .mov .full .r9 (.mem .rsp 0x18),
    .call .r10,
    .alu .add .full .rsp (.reg .rbx),
    .pop .rbx,
    .ret ]

/-- The qwords of the frame for `n` arguments. -/
def frameWords (n : Nat) : Nat := max 4 n + max 4 n % 2

theorem frameWords_even (n : Nat) : frameWords n % 2 = 0 := by
  unfold frameWords
  omega

theorem le_frameWords (n : Nat) : n ≤ frameWords n ∧ 4 ≤ frameWords n := by
  unfold frameWords
  omega

section Call

variable (s₀ : State Reg 64)

/-- The address of the list. -/
def listAt : Nat := (s₀.regs .rdx).toNat

/-- The list. -/
def listOf : ServiceRoutineParameter := readParameters s₀.mem (listAt s₀)

/-- The address of the return address. -/
def top : Nat := (s₀.regs .rsp).toNat

/-- The lowest address of the frame. -/
def bottom : Nat := top s₀ - 8 - 8 * frameWords (listOf s₀).dwParameters

/-- The thunk was called: the stack is aligned as calls leave it, the list and the frame lie
    in the address space and apart. -/
structure CalledWith : Prop where
  start   : s₀.pc = 0
  reads   : s₀.reads = []
  aligned : top s₀ % 16 = 8
  room    : 8 * frameWords (listOf s₀).dwParameters + 16 ≤ top s₀
  end_le  : top s₀ + 8 ≤ 2 ^ 64
  list_le : listAt s₀ + parameterBufferSize (listOf s₀).dwParameters ≤ 2 ^ 64
  apart   : listAt s₀ + parameterBufferSize (listOf s₀).dwParameters ≤ bottom s₀
    ∨ top s₀ ≤ listAt s₀

/-- A range of the list, of the frame, or the slot for `rbx`, or the return address. -/
def Own (x : Nat × Nat) : Prop :=
  (listAt s₀ ≤ x.1 ∧ x.1 + x.2 ≤ listAt s₀ + parameterBufferSize (listOf s₀).dwParameters)
  ∨ (bottom s₀ ≤ x.1 ∧ x.1 + x.2 ≤ top s₀ - 8) ∨ x = (top s₀ - 8, 8) ∨ x = (top s₀, 8)

/-- The arguments. -/
def argumentWords : List (BitVec 64) := (listOf s₀).parameters.map (·.ulParameter.toBitVec)

/-- The memory while the thunk runs, when the arguments from index `k` on are on the stack. -/
abbrev Kept (m : Nat → BYTE) (k : Nat) : Prop :=
  Filled 64 s₀.mem m (bottom s₀) (top s₀) (top s₀ - 8) (s₀.regs .rbx) (argumentWords s₀) k

end Call

section Memory

variable {s₀ : State Reg 64} {m : Nat → BYTE} {k : Nat}

theorem bottom_add (C : CalledWith s₀) :
    bottom s₀ + 8 * frameWords (listOf s₀).dwParameters + 8 = top s₀ := by
  have := C.room
  unfold bottom
  omega

theorem eight_le_bottom (C : CalledWith s₀) : 8 ≤ bottom s₀ := by
  have := C.room
  unfold bottom
  omega

theorem count_lt (s₀ : State Reg 64) : (listOf s₀).dwParameters < 2 ^ 32 := by
  rw [listOf, readParameters_count]
  exact count_bound ..

theorem argumentWords_getElem? {i : Nat} {e : ServiceParameterBlob}
    (he : (listOf s₀).parameters[i]? = some e) :
    (argumentWords s₀)[i]? = some e.ulParameter.toBitVec := by
  rw [argumentWords, List.getElem?_map, he]
  rfl

/-- The count is read. -/
theorem Kept.count (K : Kept s₀ m k) (C : CalledWith s₀) :
    word 64 m (listAt s₀) 4 = BitVec.ofNat 64 (listOf s₀).dwParameters := by
  have hslice : slice m (listAt s₀) 4 = slice s₀.mem (listAt s₀) 4 := by
    refine slice_congr ?_
    intro j hj
    refine K.apart C.apart ?_
    rw [parameterBufferSize, parametersOffset]
    omega
  rw [listOf, readParameters_count, word, hslice]

/-- A value is read. -/
theorem Kept.value (K : Kept s₀ m k) (C : CalledWith s₀) {i : Nat} {e : ServiceParameterBlob}
    (he : (listOf s₀).parameters[i]? = some e) :
    word 64 m (listAt s₀ + 16 * (i + 1)) 8 = e.ulParameter.toBitVec := by
  obtain ⟨hi, -⟩ := List.getElem?_eq_some_iff.mp he
  have hlen : i < (listOf s₀).dwParameters := hi
  have hmem : ∀ j, j < 8 → m (listAt s₀ + 16 * (i + 1) + j)
      = s₀.mem (listAt s₀ + 16 * (i + 1) + j) := by
    intro j hj
    rw [Nat.add_assoc]
    refine K.apart C.apart ?_
    rw [parameterBufferSize, parametersOffset, blobSize]
    omega
  have hblob := readParameters_entry he
  rw [word_congr hmem, hblob, readBlob, readQword, parametersOffset, blobSize,
    show listAt s₀ + 8 + 16 * i + 8 = listAt s₀ + 16 * (i + 1) by ring]
  rfl

end Memory

/-! ## Up to the loop -/

/-- Before the frame is there: `rax` is `a`. -/
structure Prologue (s₀ s : State Reg 64) (pc a : Nat) : Prop where
  pc    : s.pc = pc
  rax   : s.regs .rax = BitVec.ofNat 64 a
  rdx   : s.regs .rdx = s₀.regs .rdx
  r10   : s.regs .r10 = s₀.regs .rcx
  rsp   : s.regs .rsp = BitVec.ofNat 64 (top s₀ - 8)
  mem   : Kept s₀ s.mem (listOf s₀).dwParameters
  reads : ∀ x ∈ s.reads, Own s₀ x

section Blocks

variable {s₀ s : State Reg 64}

/-- The low half of a number that fits into it. -/
theorem cut_low {n : Nat} (h : n < 2 ^ 32) :
    Width.cut .low (BitVec.ofNat 64 n) = BitVec.ofNat 64 n := by
  apply BitVec.eq_of_toNat_eq
  simp only [Width.cut, BitVec.toNat_setWidth, BitVec.toNat_ofNat]
  omega

/-- Numbers below 2 ^ 63 are compared as signed ones. -/
theorem less_ofNat {x y : Nat} (hx : x < 2 ^ 63) (hy : y < 2 ^ 63) :
    Width.less .full (BitVec.ofNat 64 x) (BitVec.ofNat 64 y) = decide (x < y) := by
  have hint : ∀ {z : Nat}, z < 2 ^ 63 → (BitVec.ofNat 64 z).toInt = z := by
    intro z hz
    have hmod : z % 2 ^ 64 = z := Nat.mod_eq_of_lt (by omega)
    rw [BitVec.toInt_eq_toNat_of_lt (by rw [BitVec.toNat_ofNat, hmod]; omega),
      BitVec.toNat_ofNat, hmod]
  rw [Width.less, BitVec.slt, hint hx, hint hy]
  simp

/-- Pushing `rbx` keeps the list. -/
theorem kept_push (C : CalledWith s₀) :
    Kept s₀ (overlay s₀.mem (top s₀ - 8) (toLE (64 / 8) (s₀.regs .rbx).toNat))
      (listOf s₀).dwParameters := by
  have := bottom_add C
  exact filled_start (List.length_map ..) rfl (by omega) (show top s₀ - 8 + 8 ≤ top s₀ by omega)

/-- The count as an operand. -/
theorem count_operand (C : CalledWith s₀) {k : Nat} (K : Kept s₀ s.mem k)
    (hrdx : s.regs .rdx = s₀.regs .rdx) :
    s.value .low (.mem .rdx 0) = BitVec.ofNat 64 (listOf s₀).dwParameters
      ∧ s.ranges .low (.mem .rdx 0) = [(listAt s₀, 4)] := by
  have haddr : (s.regs .rdx + 0).toNat = listAt s₀ := by
    rw [hrdx]
    simp [listAt]
  exact ⟨(s.value_mem .low haddr).trans (Kept.count K C), s.ranges_mem .low haddr⟩

theorem own_count (s₀ : State Reg 64) : Own s₀ (listAt s₀, 4) := by
  refine Or.inl ⟨Nat.le_refl _, ?_⟩
  show listAt s₀ + 4 ≤ _
  rw [parameterBufferSize, parametersOffset]
  omega

/-- `dwStack` is four at least. -/
theorem leads_skip1 (C : CalledWith s₀) : Leads .rsp x64ServiceCall s₀ fun s =>
    Prologue s₀ s 6 (max 4 (listOf s₀).dwParameters) := by
  have hrsp : s₀.regs .rsp - BitVec.ofNat 64 (64 / 8) = BitVec.ofNat 64 (top s₀ - 8) := by
    have := C.room
    apply BitVec.eq_of_toNat_eq
    simp only [BitVec.toNat_sub, BitVec.toNat_ofNat]
    unfold top at *
    omega
  have hslot : (BitVec.ofNat 64 (top s₀ - 8)).toNat = top s₀ - 8 := by
    have := C.end_le
    rw [BitVec.toNat_ofNat]
    omega
  have hlt := count_lt s₀
  refine .push C.start rfl rfl rfl ?_
  rw [hrsp, hslot]
  intro s₁ h₁
  refine .alu h₁.pc rfl rfl rfl rfl ?_
  intro s₂ h₂
  have hmem : Kept s₀ s₂.mem (listOf s₀).dwParameters := by
    rw [h₂.mem, h₁.mem]
    exact kept_push C
  obtain ⟨hcount, hrange⟩ := count_operand C hmem (by simp [h₂.regs, h₁.regs])
  refine .alu h₂.pc rfl hcount hrange (congrArg some (cut_low hlt)) ?_
  intro s₃ h₃
  have hrax : s₃.regs .rax = BitVec.ofNat 64 (listOf s₀).dwParameters := by simp [h₃.regs]
  have hless : Width.less .full (s₃.regs .rax) (BitVec.ofNat 64 4)
      = decide ((listOf s₀).dwParameters < 4) := by
    rw [hrax]
    exact less_ofNat (by omega) (by decide)
  have hreads : ∀ x ∈ s₃.reads, Own s₀ x := by
    rw [h₃.reads, h₂.reads, h₁.reads, C.reads]
    exact reads_singleton (own_count s₀)
  refine .compare h₃.pc rfl rfl rfl rfl rfl rfl ?_ ?_
  · intro h s₄ h₄
    have h' : (!Width.less .full (s₃.regs .rax) (BitVec.ofNat 64 4)) = true := h
    rw [hless, Bool.not_eq_true', decide_eq_false_iff_not, Nat.not_lt] at h'
    refine .refl ⟨h₄.pc, ?_, ?_, ?_, ?_, ?_, ?_⟩
    · rw [h₄.regs, hrax, Nat.max_eq_right h']
    · simp [h₄.regs, h₃.regs, h₂.regs, h₁.regs]
    · simp [h₄.regs, h₃.regs, h₂.regs, h₁.regs, State.value, Width.cut]
    · simp [h₄.regs, h₃.regs, h₂.regs, h₁.regs]
    · rw [h₄.mem, h₃.mem]
      exact hmem
    · rw [h₄.reads]
      exact reads_append hreads (List.forall_mem_nil _)
  · intro h s₄ h₄
    have h' : (!Width.less .full (s₃.regs .rax) (BitVec.ofNat 64 4)) = false := h
    rw [hless, Bool.not_eq_false', decide_eq_true_eq] at h'
    refine .alu h₄.pc rfl rfl rfl rfl ?_
    intro s₅ h₅
    refine .refl ⟨h₅.pc, ?_, ?_, ?_, ?_, ?_, ?_⟩
    · rw [h₅.regs, Function.update_self, Nat.max_eq_left (Nat.le_of_lt h')]
      rfl
    · simp [h₅.regs, h₄.regs, h₃.regs, h₂.regs, h₁.regs]
    · simp [h₅.regs, h₄.regs, h₃.regs, h₂.regs, h₁.regs, State.value, Width.cut]
    · simp [h₅.regs, h₄.regs, h₃.regs, h₂.regs, h₁.regs]
    · rw [h₅.mem, h₄.mem, h₃.mem]
      exact hmem
    · rw [h₅.reads, h₄.reads]
      exact reads_append (reads_append hreads (List.forall_mem_nil _)) (List.forall_mem_nil _)

/-- `dwStack` is even. -/
theorem leads_skip2 {a : Nat} (ha : a ≤ 2 ^ 32) (P : Prologue s₀ s 6 a) :
    Leads .rsp x64ServiceCall s fun s => Prologue s₀ s 9 (a + a % 2) := by
  have hzero : (Width.cut .full (s.regs .rax &&& 1) == 0) = decide (a % 2 = 0) := by
    rw [P.rax, Width.cut, Bool.eq_iff_iff, beq_iff_eq, decide_eq_true_eq,
      ← BitVec.toNat_inj, BitVec.toNat_and, BitVec.toNat_ofNat, Nat.mod_eq_of_lt (by omega)]
    show a &&& 1 = 0 ↔ _
    rw [Nat.and_one_is_mod]
  refine .compare P.pc rfl rfl rfl rfl rfl rfl ?_ ?_
  · intro h s₁ h₁
    have h' : (Width.cut .full (s.regs .rax &&& 1) == 0) = true := h
    rw [hzero, decide_eq_true_eq] at h'
    refine .refl ⟨h₁.pc, ?_, ?_, ?_, ?_, ?_, ?_⟩
    · rw [h₁.regs, P.rax, h', Nat.add_zero]
    · rw [h₁.regs, P.rdx]
    · rw [h₁.regs, P.r10]
    · rw [h₁.regs, P.rsp]
    · rw [h₁.mem]
      exact P.mem
    · rw [h₁.reads]
      exact reads_append P.reads (List.forall_mem_nil _)
  · intro h s₁ h₁
    have h' : (Width.cut .full (s.regs .rax &&& 1) == 0) = false := h
    rw [hzero, decide_eq_false_iff_not] at h'
    refine .inc h₁.pc rfl ?_
    intro s₂ h₂
    refine .refl ⟨h₂.pc, ?_, ?_, ?_, ?_, ?_, ?_⟩
    · rw [h₂.regs, Function.update_self, h₁.regs, P.rax, Width.cut,
        show a % 2 = 1 by omega, BitVec.ofNat_add]
      rfl
    · simp [h₂.regs, h₁.regs, P.rdx]
    · simp [h₂.regs, h₁.regs, P.r10]
    · simp [h₂.regs, h₁.regs, P.rsp]
    · rw [h₂.mem, h₁.mem]
      exact P.mem
    · rw [h₂.reads, h₁.reads]
      exact reads_append P.reads (List.forall_mem_nil _)

/-- The frame is there, and the arguments from index `k` on are on the stack. -/
structure Framed (s₀ s : State Reg 64) (pc k : Nat) : Prop where
  pc    : s.pc = pc
  rbx   : s.regs .rbx = BitVec.ofNat 64 (8 * frameWords (listOf s₀).dwParameters)
  r10   : s.regs .r10 = s₀.regs .rcx
  rsp   : s.regs .rsp = BitVec.ofNat 64 (bottom s₀ + 8 * k)
  mem   : Kept s₀ s.mem k
  reads : ∀ x ∈ s.reads, Own s₀ x

/-- What pads the frame is allocated. -/
theorem leads_skip3 (C : CalledWith s₀) {n F : Nat} (hn : (listOf s₀).dwParameters = n)
    (hF : frameWords n = F) (P : Prologue s₀ s 9 F) :
    Leads .rsp x64ServiceCall s fun s => Framed s₀ s 17 n
      ∧ s.regs .rdx = s₀.regs .rdx := by
  have hlt := count_lt s₀
  have hbottom := bottom_add C
  have hend := C.end_le
  obtain ⟨hle, -⟩ := le_frameWords n
  have hpad : F ≤ n + 4 ∧ F ≤ 2 ^ 32 := by
    rw [← hF]
    unfold frameWords
    omega
  rw [hn] at hlt
  rw [hn, hF] at hbottom
  rw [hF] at hle
  -- `mov rbx, rax`, `shl rbx, 3`
  refine .alu P.pc rfl rfl rfl rfl ?_
  intro s₁ h₁
  have hrbx : s₁.regs .rbx = BitVec.ofNat 64 F := by
    rw [h₁.regs, Function.update_self]
    exact P.rax
  have hshl : s₁.regs .rbx <<< ((3 : BitVec 64).toNat % 64) = BitVec.ofNat 64 (8 * F) := by
    rw [hrbx]
    exact shl_ofNat (k := 3) (by omega) (by omega)
  refine .alu h₁.pc rfl rfl rfl (congrArg some hshl) ?_
  intro s₂ h₂
  have hrax : s₂.regs .rax = BitVec.ofNat 64 F := by
    simp [h₂.regs, h₁.regs, P.rax]
  -- `mov r8d, eax`, `sub r8d, [rdx]`: the padding, in words
  refine .alu h₂.pc rfl hrax rfl rfl ?_
  intro s₃ h₃
  have hmem : Kept s₀ s₃.mem n := by
    rw [h₃.mem, h₂.mem, h₁.mem, ← hn]
    exact P.mem
  obtain ⟨hcount, hrange⟩ := count_operand C hmem (by simp [h₃.regs, h₂.regs, h₁.regs, P.rdx])
  have hsub : Width.cut .low (s₃.regs .r8 - BitVec.ofNat 64 (listOf s₀).dwParameters)
      = BitVec.ofNat 64 (F - n) := by
    rw [h₃.regs, Function.update_self, hn]
    apply BitVec.eq_of_toNat_eq
    simp only [Width.cut, BitVec.toNat_setWidth, BitVec.toNat_sub, BitVec.toNat_ofNat]
    omega
  refine .alu h₃.pc rfl hcount hrange (congrArg some hsub) ?_
  intro s₄ h₄
  have hr8 : s₄.regs .r8 = BitVec.ofNat 64 (F - n) := by simp [h₄.regs]
  have hzero : (Width.cut .low (s₄.regs .r8) == Width.cut .low (0 : BitVec 64))
      = decide (F = n) := by
    rw [hr8, cut_low (by omega), Bool.eq_iff_iff, beq_iff_eq, decide_eq_true_eq,
      ← BitVec.toNat_inj, BitVec.toNat_ofNat]
    show (F - n) % 2 ^ 64 = 0 ↔ F = n
    omega
  have hreads : ∀ x ∈ s₄.reads, Own s₀ x := by
    rw [h₄.reads, h₃.reads, h₂.reads, h₁.reads]
    refine reads_append ?_ (reads_singleton (own_count s₀))
    exact reads_append (reads_append (reads_append P.reads (List.forall_mem_nil _))
      (List.forall_mem_nil _)) (List.forall_mem_nil _)
  -- `cmp r8d, 0`: is there any padding?
  refine .compare h₄.pc rfl rfl rfl rfl rfl rfl ?_ ?_
  · intro h s₅ h₅
    have h' : (Width.cut .low (s₄.regs .r8) == Width.cut .low (0 : BitVec 64)) = true := h
    rw [hzero, decide_eq_true_eq] at h'
    refine .refl ⟨⟨h₅.pc, ?_, ?_, ?_, ?_, ?_⟩, ?_⟩
    · simp [h₅.regs, h₄.regs, h₃.regs, h₂.regs, hn, hF]
    · simp [h₅.regs, h₄.regs, h₃.regs, h₂.regs, h₁.regs, P.r10]
    · simp only [h₅.regs, h₄.regs, h₃.regs, h₂.regs, h₁.regs, P.rsp, ne_eq, reduceCtorEq,
        not_false_eq_true, Function.update_of_ne]
      congr 1
      omega
    · rw [h₅.mem, h₄.mem]
      exact hmem
    · rw [h₅.reads]
      exact reads_append hreads (List.forall_mem_nil _)
    · simp [h₅.regs, h₄.regs, h₃.regs, h₂.regs, h₁.regs, P.rdx]
  · intro h s₅ h₅
    have h' : (Width.cut .low (s₄.regs .r8) == Width.cut .low (0 : BitVec 64)) = false := h
    rw [hzero, decide_eq_false_iff_not] at h'
    have hshl' : s₅.regs .r8 <<< ((3 : BitVec 64).toNat % 64)
        = BitVec.ofNat 64 (8 * (F - n)) := by
      rw [h₅.regs, hr8]
      exact shl_ofNat (k := 3) (by omega) (by omega)
    -- `shl r8, 3`, `sub rsp, r8`
    refine .alu h₅.pc rfl rfl rfl (congrArg some hshl') ?_
    intro s₆ h₆
    have hrsp : s₆.regs .rsp - BitVec.ofNat 64 (8 * (F - n))
        = BitVec.ofNat 64 (bottom s₀ + 8 * n) := by
      simp only [h₆.regs, h₅.regs, h₄.regs, h₃.regs, h₂.regs, h₁.regs, P.rsp, ne_eq,
        reduceCtorEq, not_false_eq_true, Function.update_of_ne]
      apply BitVec.eq_of_toNat_eq
      simp only [BitVec.toNat_sub, BitVec.toNat_ofNat]
      omega
    refine .alu h₆.pc rfl (by simp [h₆.regs, State.value]) rfl (congrArg some hrsp) ?_
    intro s₇ h₇
    refine .refl ⟨⟨h₇.pc, ?_, ?_, ?_, ?_, ?_⟩, ?_⟩
    · simp [h₇.regs, h₆.regs, h₅.regs, h₄.regs, h₃.regs, h₂.regs, hn, hF]
    · simp [h₇.regs, h₆.regs, h₅.regs, h₄.regs, h₃.regs, h₂.regs, h₁.regs, P.r10]
    · simp [h₇.regs]
    · rw [h₇.mem, h₆.mem, h₅.mem, h₄.mem]
      exact hmem
    · rw [h₇.reads, h₆.reads, h₅.reads]
      exact reads_append (reads_append (reads_append hreads (List.forall_mem_nil _))
        (List.forall_mem_nil _)) (List.forall_mem_nil _)
    · simp [h₇.regs, h₆.regs, h₅.regs, h₄.regs, h₃.regs, h₂.regs, h₁.regs, P.rdx]

/-- The length of the entries before the last one. -/
structure Counted (s₀ s : State Reg 64) (n : Nat) : Prop extends Framed s₀ s 20 n where
  rax : s.regs .rax = BitVec.ofNat 64 n
  rdx : s.regs .rdx = s₀.regs .rdx
  r8  : 0 < n → s.regs .r8 = BitVec.ofNat 64 (16 * (n - 1))

theorem leads_counted (C : CalledWith s₀) {n : Nat} (hn : (listOf s₀).dwParameters = n)
    (F : Framed s₀ s 17 n) (hrdx : s.regs .rdx = s₀.regs .rdx) :
    Leads .rsp x64ServiceCall s fun s => Counted s₀ s n := by
  have hlt := count_lt s₀
  rw [hn] at hlt
  have hmem : Kept s₀ s.mem n := F.mem
  obtain ⟨hcount, hrange⟩ := count_operand C hmem hrdx
  rw [hn] at hcount
  refine .alu F.pc rfl hcount hrange (congrArg some (cut_low hlt)) ?_
  intro s₁ h₁
  refine .lea h₁.pc rfl ?_
  intro s₂ h₂
  have hshl : s₂.regs .r8 <<< ((4 : BitVec 64).toNat % 64) = s₂.regs .r8 <<< 4 := rfl
  refine .alu h₂.pc rfl rfl rfl (congrArg some hshl) ?_
  intro s₃ h₃
  refine .refl ⟨⟨h₃.pc, ?_, ?_, ?_, ?_, ?_⟩, ?_, ?_, ?_⟩
  · simp [h₃.regs, h₂.regs, h₁.regs, F.rbx]
  · simp [h₃.regs, h₂.regs, h₁.regs, F.r10]
  · simp [h₃.regs, h₂.regs, h₁.regs, F.rsp]
  · rw [h₃.mem, h₂.mem, h₁.mem]
    exact hmem
  · rw [h₃.reads, h₂.reads, h₁.reads]
    refine reads_append (reads_append F.reads ?_) ?_
    · exact reads_singleton (own_count s₀)
    · exact List.forall_mem_nil _
  · simp [h₃.regs, h₂.regs, h₁.regs]
  · simp [h₃.regs, h₂.regs, h₁.regs, hrdx]
  · intro hpos
    have hcut : Width.cut .low (BitVec.ofNat 64 n + (-1)) = BitVec.ofNat 64 (n - 1) := by
      rw [ofNat_add_neg_one hpos, cut_low (by omega)]
    have hr8 : s₂.regs .r8 = BitVec.ofNat 64 (n - 1) := by
      rw [h₂.regs, Function.update_self, h₁.regs, Function.update_self]
      exact hcut
    rw [h₃.regs, Function.update_self, hr8]
    exact shl_ofNat (k := 4) (by omega) (by omega)

/-- The loop, with `k` entries to go: the next one lies before `rdx`. -/
structure Looping (s₀ s : State Reg 64) (k : Nat) : Prop extends Framed s₀ s 22 k where
  rax : s.regs .rax = BitVec.ofNat 64 k
  rdx : 0 < k → (s.regs .rdx + 8).toNat = listAt s₀ + 16 * k

/-- The loop begins behind the last entry. -/
theorem leads_loop (C : CalledWith s₀) {n : Nat} (hn : (listOf s₀).dwParameters = n)
    (D : Counted s₀ s n) : Leads .rsp x64ServiceCall s fun s => Looping s₀ s n := by
  have hlist := C.list_le
  rw [hn, parameterBufferSize, parametersOffset, blobSize] at hlist
  refine .alu D.pc rfl rfl rfl rfl ?_
  intro s₁ h₁
  refine .alu h₁.pc rfl rfl rfl rfl ?_
  intro s₂ h₂
  refine .refl ⟨⟨h₂.pc, ?_, ?_, ?_, ?_, ?_⟩, ?_, ?_⟩
  · simp [h₂.regs, h₁.regs, D.rbx]
  · simp [h₂.regs, h₁.regs, D.r10]
  · simp [h₂.regs, h₁.regs, D.rsp]
  · rw [h₂.mem, h₁.mem]
    exact D.mem
  · rw [h₂.reads, h₁.reads]
    exact reads_append (reads_append D.reads (List.forall_mem_nil _)) (List.forall_mem_nil _)
  · simp [h₂.regs, h₁.regs, D.rax]
  · intro hpos
    have hr8 : s₁.regs .r8 = BitVec.ofNat 64 (16 * (n - 1)) := by
      rw [h₁.regs, Function.update_of_ne (by decide)]
      exact D.r8 hpos
    have hrdx₁ : s₁.regs .rdx = s.regs .rdx + 8 := by
      rw [h₁.regs, Function.update_self]
      rfl
    have hrdx₂ : s₂.regs .rdx = s₁.regs .rdx + s₁.regs .r8 := by
      rw [h₂.regs, Function.update_self]
      rfl
    have haddr : (s.regs .rdx).toNat = listAt s₀ := by
      rw [D.rdx]
      rfl
    rw [hrdx₂, hrdx₁, hr8]
    simp only [BitVec.toNat_add, BitVec.toNat_ofNat, haddr,
      show (8 : BitVec 64).toNat = 8 from rfl]
    omega

/-- One more argument. -/
theorem leads_next (C : CalledWith s₀) {k : Nat} (hk : k < (listOf s₀).dwParameters)
    (L : Looping s₀ s (k + 1)) : Leads .rsp x64ServiceCall s fun s => Looping s₀ s k := by
  have hlt := count_lt s₀
  have hbottom := bottom_add C
  have hend := C.end_le
  have hlist := C.list_le
  rw [parameterBufferSize, parametersOffset, blobSize] at hlist
  obtain ⟨hle, -⟩ := le_frameWords (listOf s₀).dwParameters
  obtain ⟨e, he⟩ : ∃ e, (listOf s₀).parameters[k]? = some e :=
    ⟨_, List.getElem?_eq_getElem hk⟩
  have hne : (Width.cut .low (s.regs .rax) == Width.cut .low (0 : BitVec 64)) = false := by
    rw [L.rax, cut_low (by omega), beq_eq_false_iff_ne, ne_eq, ← BitVec.toNat_inj,
      BitVec.toNat_ofNat]
    show ¬ (k + 1) % 2 ^ 64 = 0
    omega
  -- `cmp eax, 0`: there is a parameter left
  refine .compare L.pc rfl rfl rfl rfl rfl rfl ?_ ?_
  · intro h
    have h' : (Width.cut .low (s.regs .rax) == Width.cut .low (0 : BitVec 64)) = true := h
    rw [hne] at h'
    cases h'
  intro _ s₁ h₁
  have haddr : (s₁.regs .rdx + 8).toNat = listAt s₀ + 16 * (k + 1) := by
    rw [h₁.regs]
    exact L.rdx (Nat.succ_pos k)
  have hvalue : s₁.value .full (.mem .rdx 8) = e.ulParameter.toBitVec := by
    rw [s₁.value_mem .full haddr, h₁.mem]
    exact Kept.value L.mem C he
  -- `push [rdx + 8]`
  refine .push h₁.pc rfl hvalue (s₁.ranges_mem .full haddr) ?_
  have hrsp : s₁.regs .rsp - BitVec.ofNat 64 (64 / 8) = BitVec.ofNat 64 (bottom s₀ + 8 * k) := by
    rw [h₁.regs, L.rsp]
    apply BitVec.eq_of_toNat_eq
    simp only [BitVec.toNat_sub, BitVec.toNat_ofNat]
    omega
  have hslot : (BitVec.ofNat 64 (bottom s₀ + 8 * k)).toNat = bottom s₀ + 8 * k := by
    rw [BitVec.toNat_ofNat]
    omega
  rw [hrsp, hslot]
  intro s₂ h₂
  -- `sub rdx, 0x10`, `dec eax`, and back to `_loop`
  refine .alu h₂.pc rfl rfl rfl rfl ?_
  intro s₃ h₃
  refine .dec h₃.pc rfl ?_
  intro s₄ h₄
  refine .jmp h₄.pc rfl ?_
  intro s₅ h₅
  refine .refl ⟨⟨h₅.pc, ?_, ?_, ?_, ?_, ?_⟩, ?_, ?_⟩
  · simp [h₅.regs, h₄.regs, h₃.regs, h₂.regs, h₁.regs, L.rbx]
  · simp [h₅.regs, h₄.regs, h₃.regs, h₂.regs, h₁.regs, L.r10]
  · simp [h₅.regs, h₄.regs, h₃.regs, h₂.regs]
  · rw [h₅.mem, h₄.mem, h₃.mem, h₂.mem, h₁.mem]
    exact L.mem.push rfl (argumentWords_getElem? he) (by omega) (by omega)
  · rw [h₅.reads, h₄.reads, h₃.reads, h₂.reads, h₁.reads]
    refine reads_append (reads_append (reads_append L.reads ?_) ?_) ?_
    · exact List.forall_mem_nil _
    · refine reads_singleton (Or.inl ⟨Nat.le_add_right .., ?_⟩)
      show listAt s₀ + 16 * (k + 1) + 8 ≤ _
      rw [parameterBufferSize, parametersOffset, blobSize]
      omega
    · exact List.forall_mem_nil _
  · have hrax : s₃.regs .rax = BitVec.ofNat 64 (k + 1) := by
      simp [h₃.regs, h₂.regs, h₁.regs, L.rax]
    rw [h₅.regs, h₄.regs, Function.update_self, hrax]
    apply BitVec.eq_of_toNat_eq
    simp only [Width.cut, BitVec.toNat_setWidth, BitVec.toNat_sub, BitVec.toNat_ofNat,
      show (1 : BitVec 64).toNat = 1 from rfl]
    omega
  · intro hpos
    have hrdx : s₅.regs .rdx = s₁.regs .rdx - 16 := by
      rw [h₅.regs, h₄.regs, Function.update_of_ne (by decide), h₃.regs, Function.update_self,
        h₂.regs, Function.update_of_ne (by decide)]
      rfl
    rw [BitVec.toNat_add, show (8 : BitVec 64).toNat = 8 from rfl] at haddr
    rw [hrdx, BitVec.toNat_add, BitVec.toNat_sub, show (8 : BitVec 64).toNat = 8 from rfl,
      show (16 : BitVec 64).toNat = 16 from rfl]
    omega

/-- All arguments. -/
theorem leads_loops (C : CalledWith s₀) {k : Nat} (hk : k ≤ (listOf s₀).dwParameters)
    (L : Looping s₀ s k) : Leads .rsp x64ServiceCall s fun s => Looping s₀ s 0 := by
  induction k generalizing s with
  | zero => exact .refl L
  | succ k ih => exact (leads_next C hk L).trans fun s L' => ih (Nat.le_of_succ_le hk) L'

/-- At the call: the first four arguments are in registers too. -/
structure AtCall (s₀ s : State Reg 64) : Prop extends Framed s₀ s 32 0 where
  rcx : s.regs .rcx = word 64 s.mem (bottom s₀) 8
  rdx : s.regs .rdx = word 64 s.mem (bottom s₀ + 8) 8
  r8  : s.regs .r8 = word 64 s.mem (bottom s₀ + 16) 8
  r9  : s.regs .r9 = word 64 s.mem (bottom s₀ + 24) 8

/-- A qword of the frame. -/
theorem own_frame (C : CalledWith s₀) {i : Nat} (hi : i < 4) : Own s₀ (bottom s₀ + 8 * i, 8) := by
  have := bottom_add C
  have := le_frameWords (listOf s₀).dwParameters
  refine Or.inr (Or.inl ⟨Nat.le_add_right .., ?_⟩)
  show bottom s₀ + 8 * i + 8 ≤ _
  omega

/-- Its address, from the stack pointer. -/
theorem frame_address (C : CalledWith s₀) (hrsp : s.regs .rsp = BitVec.ofNat 64 (bottom s₀))
    {d : BitVec 64} {k : Nat} (hd : d.toNat = k) (hk : k ≤ 24) :
    (s.regs .rsp + d).toNat = bottom s₀ + k := by
  have := bottom_add C
  have := le_frameWords (listOf s₀).dwParameters
  have := C.end_le
  rw [hrsp, BitVec.toNat_add, BitVec.toNat_ofNat, hd]
  omega

/-- The registers are loaded. -/
theorem leads_call (C : CalledWith s₀) (L : Looping s₀ s 0) :
    Leads .rsp x64ServiceCall s fun s => AtCall s₀ s := by
  have hzero : (Width.cut .low (s.regs .rax) == Width.cut .low (0 : BitVec 64)) = true := by
    rw [L.rax]
    rfl
  refine .compare L.pc rfl rfl rfl rfl rfl rfl ?_ ?_
  -- the four registers are loaded, however many parameters there are
  · intro _ s₁ h₁
    have hrsp : s₁.regs .rsp = BitVec.ofNat 64 (bottom s₀) := by
      rw [h₁.regs]
      exact L.rsp
    have a₁ : (s₁.regs .rsp + 0).toNat = bottom s₀ + 0 := frame_address C hrsp rfl (by decide)
    refine .alu h₁.pc rfl (s₁.value_mem .full a₁) (s₁.ranges_mem .full a₁) rfl ?_
    intro s₂ h₂
    have a₂ : (s₂.regs .rsp + 8).toNat = bottom s₀ + 8 :=
      frame_address C (by simp [h₂.regs, hrsp]) rfl (by decide)
    refine .alu h₂.pc rfl (s₂.value_mem .full a₂) (s₂.ranges_mem .full a₂) rfl ?_
    intro s₃ h₃
    have a₃ : (s₃.regs .rsp + 0x10).toNat = bottom s₀ + 16 :=
      frame_address C (by simp [h₃.regs, h₂.regs, hrsp]) rfl (by decide)
    refine .alu h₃.pc rfl (s₃.value_mem .full a₃) (s₃.ranges_mem .full a₃) rfl ?_
    intro s₄ h₄
    have a₄ : (s₄.regs .rsp + 0x18).toNat = bottom s₀ + 24 :=
      frame_address C (by simp [h₄.regs, h₃.regs, h₂.regs, hrsp]) rfl (by decide)
    refine .alu h₄.pc rfl (s₄.value_mem .full a₄) (s₄.ranges_mem .full a₄) rfl ?_
    intro s₅ h₅
    have hmem : s₅.mem = s₁.mem := by rw [h₅.mem, h₄.mem, h₃.mem, h₂.mem]
    refine .refl ⟨⟨h₅.pc, ?_, ?_, ?_, ?_, ?_⟩, ?_, ?_, ?_, ?_⟩
    · simp [h₅.regs, h₄.regs, h₃.regs, h₂.regs, h₁.regs, L.rbx]
    · simp [h₅.regs, h₄.regs, h₃.regs, h₂.regs, h₁.regs, L.r10]
    · simp [h₅.regs, h₄.regs, h₃.regs, h₂.regs, hrsp]
    · rw [hmem, h₁.mem]
      exact L.mem
    · rw [h₅.reads, h₄.reads, h₃.reads, h₂.reads, h₁.reads]
      refine reads_append (reads_append (reads_append (reads_append
        (reads_append L.reads ?_) ?_) ?_) ?_) ?_
      · exact List.forall_mem_nil _
      · exact reads_singleton (own_frame C (i := 0) (by decide))
      · exact reads_singleton (own_frame C (i := 1) (by decide))
      · exact reads_singleton (own_frame C (i := 2) (by decide))
      · exact reads_singleton (own_frame C (i := 3) (by decide))
    · rw [hmem]
      simp [h₅.regs, h₄.regs, h₃.regs, h₂.regs, Width.cut, Width.bytes]
    · rw [hmem, ← h₂.mem]
      simp [h₅.regs, h₄.regs, h₃.regs, Width.cut, Width.bytes]
    · rw [hmem, ← h₂.mem, ← h₃.mem]
      simp [h₅.regs, h₄.regs, Width.cut, Width.bytes]
    · rw [hmem, ← h₂.mem, ← h₃.mem, ← h₄.mem]
      simp [h₅.regs, Width.cut, Width.bytes]
  · intro h
    have h' : (Width.cut .low (s.regs .rax) == Width.cut .low (0 : BitVec 64)) = false := h
    rw [hzero] at h'
    exact nomatch h'

/-- From the start to the call. -/
theorem leads_atCall (C : CalledWith s₀) :
    Leads .rsp x64ServiceCall s₀ fun s => AtCall s₀ s := by
  have hlt := count_lt s₀
  refine (leads_skip1 C).trans fun s₁ P₁ => ?_
  refine (leads_skip2 (by omega) P₁).trans fun s₂ P₂ => ?_
  refine (leads_skip3 C rfl rfl P₂).trans fun s₃ h₃ => ?_
  refine (leads_counted C rfl h₃.1 h₃.2).trans fun s₄ D => ?_
  refine (leads_loop C rfl D).trans fun s₅ L => ?_
  exact (leads_loops C (Nat.le_refl _) L).trans fun s₆ L' => leads_call C L'

end Blocks

/-! ## The call -/

/-- A routine that follows the calling convention: it takes its return address from the
    stack, keeps `rbx`, and of the frames above its own writes only its arguments. -/
structure Win64 (s₀ : State Reg 64)
    (routine : BitVec 64 → Store Reg 64 → Store Reg 64 → Prop) : Prop where
  rsp   : ∀ {f x y}, routine f x y → y.regs .rsp = x.regs .rsp + 8
  rbx   : ∀ {f x y}, routine f x y → y.regs .rbx = x.regs .rbx
  frame : ∀ {f x y a}, routine f x y →
    (x.regs .rsp).toNat + 8 + 8 * max 4 (listOf s₀).dwParameters ≤ a → a < top s₀ →
    y.mem a = x.mem a

section Calls

variable {s₀ c : State Reg 64} {routine : BitVec 64 → Store Reg 64 → Store Reg 64 → Prop}
  {y : Store Reg 64}

/-- What the thunk returns with. -/
structure Finished (s₀ c : State Reg 64) (y : Store Reg 64) (e : State Reg 64) : Prop where
  rax   : e.regs .rax = y.regs .rax
  rsp   : e.regs .rsp = s₀.regs .rsp + 8
  rbx   : e.regs .rbx = s₀.regs .rbx
  reads : e.reads = c.reads ++ [(top s₀ - 8, 8)] ++ [(top s₀, 8)]

/-- The stack pointer while the routine runs. -/
theorem entered_rsp (C : CalledWith s₀) (A : AtCall s₀ c) :
    (c.entered .rsp).regs .rsp + 8 = BitVec.ofNat 64 (bottom s₀)
      ∧ ((c.entered .rsp).regs .rsp).toNat + 8 = bottom s₀ := by
  have hbottom := bottom_add C
  have h8 := eight_le_bottom C
  have hend := C.end_le
  have hrsp : (c.entered .rsp).regs .rsp = BitVec.ofNat 64 (bottom s₀) - 8 := by
    rw [State.entered_sp, A.rsp]
    rfl
  rw [hrsp]
  constructor
  · rw [BitVec.sub_add_cancel]
  · rw [BitVec.toNat_sub, BitVec.toNat_ofNat, show (8 : BitVec 64).toNat = 8 from rfl]
    omega

/-- The slot for `rbx` is as it was. -/
theorem saved_entered (C : CalledWith s₀) (A : AtCall s₀ c) (W : Win64 s₀ routine)
    {f : BitVec 64} (hy : routine f (c.entered .rsp) y) :
    word 64 y.mem (top s₀ - 8) 8 = s₀.regs .rbx := by
  have hbottom := bottom_add C
  obtain ⟨-, hentered⟩ := entered_rsp C A
  have hmax : max 4 (listOf s₀).dwParameters ≤ frameWords (listOf s₀).dwParameters :=
    Nat.le_add_right ..
  rw [← A.mem.saved]
  refine word_congr ?_
  intro j hj
  rw [W.frame hy (by omega) (by omega)]
  -- the return address lies below the frame
  refine overlay_uncovered ?_
  rw [toLE_length]
  have hpush : (c.regs .rsp - BitVec.ofNat 64 (64 / 8)).toNat
      = ((c.entered .rsp).regs .rsp).toNat := by rw [State.entered_sp]
  rw [hpush]
  rintro ⟨h₁, h₂⟩
  omega

/-- From the return of the routine on there is one way. -/
theorem execution_returned (C : CalledWith s₀) (A : AtCall s₀ c) (W : Win64 s₀ routine)
    {f : BitVec 64} (hy : routine f (c.entered .rsp) y) :
    ∃ e, Finished s₀ c y e ∧ ∀ calls e', Execution .rsp x64ServiceCall routine (c.returned y)
      calls e' ↔ calls = [] ∧ e' = e := by
  have hbottom := bottom_add C
  have hend := C.end_le
  have hrsp : (c.returned y).regs .rsp = BitVec.ofNat 64 (bottom s₀) :=
    (W.rsp hy).trans (entered_rsp C A).1
  have hrbx : (c.returned y).regs .rbx
      = BitVec.ofNat 64 (8 * frameWords (listOf s₀).dwParameters) := by
    refine (W.rbx hy).trans ?_
    rw [State.entered_ne _ (by decide), A.rbx]
  have hpc : (c.returned y).pc = 33 := congrArg (· + 1) A.pc
  have hleads : Leads .rsp x64ServiceCall (c.returned y) fun s => s.pc = 35
      ∧ s.regs .rax = y.regs .rax ∧ s.regs .rsp = s₀.regs .rsp ∧ s.regs .rbx = s₀.regs .rbx
      ∧ s.reads = c.reads ++ [(top s₀ - 8, 8)] := by
    have hadd : (c.returned y).regs .rsp + (c.returned y).regs .rbx
        = BitVec.ofNat 64 (top s₀ - 8) := by
      have hsum : bottom s₀ + 8 * frameWords (listOf s₀).dwParameters = top s₀ - 8 := by omega
      rw [hrsp, hrbx, ← hsum, BitVec.ofNat_add]
    -- `add rsp, rbx`, `pop rbx`
    refine .alu hpc rfl rfl rfl (congrArg some hadd) ?_
    intro s₁ h₁
    have hslot : (s₁.regs .rsp).toNat = top s₀ - 8 := by
      rw [h₁.regs, Function.update_self, BitVec.toNat_ofNat]
      omega
    have hmem : s₁.mem = y.mem := h₁.mem
    refine .pop h₁.pc rfl ?_
    rw [hslot, hmem]
    intro s₂ h₂
    refine .refl ⟨h₂.pc, ?_, ?_, ?_, ?_⟩
    · simp only [h₂.regs, h₁.regs, ne_eq, reduceCtorEq, not_false_eq_true, Function.update_of_ne]
      rfl
    · rw [h₂.regs, Function.update_of_ne (by decide), Function.update_self, h₁.regs,
        Function.update_self]
      apply BitVec.eq_of_toNat_eq
      have hroom := C.room
      simp only [BitVec.toNat_add, BitVec.toNat_ofNat]
      unfold top at *
      omega
    · rw [h₂.regs, Function.update_self]
      exact saved_entered C A W hy
    · rw [h₂.reads, h₁.reads]
      exact congrArg (· ++ [(top s₀ - 8, 8)]) (List.append_nil c.reads)
  obtain ⟨s, hreach, hs, hrax, hrsp', hrbx', hreads⟩ := hleads
  refine ⟨s.left .rsp, ⟨?_, ?_, ?_, ?_⟩, ?_⟩
  · rw [State.left_ne _ (by decide), hrax]
  · rw [State.left_sp, hrsp']
    rfl
  · rw [State.left_ne _ (by decide), hrbx']
  · show s.reads ++ [((s.regs .rsp).toNat, 8)] = _
    rw [hreads, hrsp']
    rfl
  · intro calls e'
    rw [execution_reaches hreach]
    exact execution_ret (by rw [hs]; rfl)

/-- The register of an argument. -/
def argumentRegister : Nat → Option Reg
  | 0 => some .rcx
  | 1 => some .rdx
  | 2 => some .r8
  | 3 => some .r9
  | _ => none

/-- **THE ARGUMENTS ARE IN PLACE**: there is one call, with an aligned stack that holds the
    values of the list in order, and the first four of them in registers; the thunk reads
    the list, its frame, the slot where it saved `rbx` and the return address; it returns
    what the routine returned, with the stack and `rbx` as they were. -/
theorem x64ServiceCall_calls (C : CalledWith s₀) : ∃ c : State Reg 64,
    x64ServiceCall[c.pc]? = some (.call .r10) ∧ c.regs .r10 = s₀.regs .rcx
    ∧ (c.regs .rsp).toNat % 16 = 0
    ∧ (∀ i e, (listOf s₀).parameters[i]? = some e →
      word 64 c.mem ((c.regs .rsp).toNat + 8 * i) 8 = e.ulParameter.toBitVec
      ∧ ∀ r, argumentRegister i = some r → c.regs r = e.ulParameter.toBitVec)
    ∧ ∀ routine, Win64 s₀ routine →
      (∀ calls e, Execution .rsp x64ServiceCall routine s₀ calls e → calls = [c]
        ∧ (∃ y, routine (s₀.regs .rcx) (c.entered .rsp) y ∧ e.regs .rax = y.regs .rax)
        ∧ e.regs .rsp = s₀.regs .rsp + 8 ∧ e.regs .rbx = s₀.regs .rbx
        ∧ ∀ x ∈ e.reads, Own s₀ x)
      ∧ ∀ y, routine (s₀.regs .rcx) (c.entered .rsp) y →
        ∃ e, Execution .rsp x64ServiceCall routine s₀ [c] e := by
  have hbottom := bottom_add C
  have hend := C.end_le
  -- up to the call the run does not depend on the routine
  obtain ⟨c, hreach, A⟩ := leads_atCall C
  have hrsp : (c.regs .rsp).toNat = bottom s₀ := by
    rw [A.rsp, BitVec.toNat_ofNat]
    omega
  have hcall : x64ServiceCall[c.pc]? = some (.call .r10) := by rw [A.pc]; rfl
  have hslots : ∀ i e, (listOf s₀).parameters[i]? = some e →
      word 64 c.mem (bottom s₀ + 8 * i) 8 = e.ulParameter.toBitVec :=
    fun i e he => A.mem.slots i _ (Nat.zero_le i) (argumentWords_getElem? he)
  -- so every execution makes this call, and then goes on
  have hexec : ∀ {routine calls e}, Execution .rsp x64ServiceCall routine s₀ calls e ↔
      ∃ y calls', calls = c :: calls' ∧ routine (s₀.regs .rcx) (c.entered .rsp) y
        ∧ Execution .rsp x64ServiceCall routine (c.returned y) calls' e := by
    intro routine calls e
    rw [execution_reaches hreach, execution_call hcall, A.r10]
  refine ⟨c, hcall, A.r10, ?_, ?_, ?_⟩
  · have haligned := C.aligned
    have heven := frameWords_even (listOf s₀).dwParameters
    rw [hrsp]
    omega
  · intro i e he
    rw [hrsp]
    refine ⟨hslots i e he, ?_⟩
    intro r hr
    match i, hr with
    | 0, hr =>
        obtain rfl := Option.some.inj hr
        have h₀ := hslots 0 e he
        rw [Nat.mul_zero, Nat.add_zero] at h₀
        exact A.rcx.trans h₀
    | 1, hr =>
        obtain rfl := Option.some.inj hr
        exact A.rdx.trans (hslots 1 e he)
    | 2, hr =>
        obtain rfl := Option.some.inj hr
        exact A.r8.trans (hslots 2 e he)
    | 3, hr =>
        obtain rfl := Option.some.inj hr
        exact A.r9.trans (hslots 3 e he)
  -- after it, the routine has left the frame and `rbx` alone
  · intro routine W
    constructor
    · intro calls e hx
      obtain ⟨y, calls', rfl, hy, hx⟩ := hexec.mp hx
      obtain ⟨e₀, F, honly⟩ := execution_returned C A W hy
      obtain ⟨rfl, rfl⟩ := (honly _ _).mp hx
      refine ⟨rfl, ⟨y, hy, F.rax⟩, F.rsp, F.rbx, ?_⟩
      rw [F.reads]
      refine reads_append (reads_append A.reads (reads_singleton ?_)) (reads_singleton ?_)
      · exact Or.inr (Or.inr (Or.inl rfl))
      · exact Or.inr (Or.inr (Or.inr rfl))
    · intro y hy
      obtain ⟨e₀, -, honly⟩ := execution_returned C A W hy
      exact ⟨e₀, hexec.mpr ⟨y, [], rfl, hy, (honly _ _).mpr ⟨rfl, rfl⟩⟩⟩

end Calls

/-- A thunk called with five arguments: behind its count the bytes of the list count up. -/
def calledWithFive : State Reg 64 where
  regs r := match r with
    | .rcx => 0x3000
    | .rdx => 0x2000
    | .rsp => 0x1008
    | .rbx => 0x77
    | _ => 0
  mem a :=
    if a = 0x2000 then 5
    else if 0x2008 ≤ a ∧ a < 0x2058 then UInt8.ofNat (a - 0x2008)
    else 0
  flags := none
  reads := []
  pc := 0

theorem calledWith_five : CalledWith calledWithFive := by
  have hn : (listOf calledWithFive).dwParameters = 5 := by decide +kernel
  have htop : top calledWithFive = 0x1008 := rfl
  have hlist : listAt calledWithFive = 0x2000 := rfl
  refine ⟨rfl, rfl, rfl, ?_, ?_, ?_, ?_⟩
  · rw [hn, htop]
    decide
  · rw [htop]
    decide
  · rw [hn, hlist]
    decide
  · rw [hlist, htop]
    exact .inr (by decide)

/-- A routine that returns 7. -/
def returning : BitVec 64 → Store Reg 64 → Store Reg 64 → Prop :=
  fun _ x y => y =
    { x with regs := Function.update (Function.update x.regs .rsp (x.regs .rsp + 8)) .rax 7 }

theorem win64_returning (s₀ : State Reg 64) : Win64 s₀ returning where
  rsp := by
    rintro f x _ rfl
    simp
  rbx := by
    rintro f x _ rfl
    simp
  frame := by
    rintro f x _ a rfl _ _
    rfl

/-- It is called once, with five values of which the first four are in registers, and
    returns. -/
theorem x64ServiceCall_calls_five : ∃ c e : State Reg 64,
    Execution .rsp x64ServiceCall returning calledWithFive [c] e
      ∧ c.regs .r10 = 0x3000 ∧ (c.regs .rsp).toNat % 16 = 0
      ∧ (∀ i v, [0x0f0e0d0c0b0a0908, 0x1f1e1d1c1b1a1918, 0x2f2e2d2c2b2a2928,
          0x3f3e3d3c3b3a3938, 0x4f4e4d4c4b4a4948][i]? = some v →
        word 64 c.mem ((c.regs .rsp).toNat + 8 * i) 8 = v)
      ∧ c.regs .rcx = 0x0f0e0d0c0b0a0908 ∧ c.regs .rdx = 0x1f1e1d1c1b1a1918
      ∧ c.regs .r8 = 0x2f2e2d2c2b2a2928 ∧ c.regs .r9 = 0x3f3e3d3c3b3a3938
      ∧ e.regs .rax = 7 ∧ e.regs .rbx = 0x77 ∧ e.regs .rsp = 0x1010 := by
  have hlist : (listOf calledWithFive).parameters.map (·.ulParameter.toBitVec)
      = [0x0f0e0d0c0b0a0908, 0x1f1e1d1c1b1a1918, 0x2f2e2d2c2b2a2928, 0x3f3e3d3c3b3a3938,
        0x4f4e4d4c4b4a4948] := by decide +kernel
  obtain ⟨c, -, hr10, haligned, hwords, hexec⟩ := x64ServiceCall_calls calledWith_five
  obtain ⟨hall, hsome⟩ := hexec returning (win64_returning _)
  obtain ⟨e, hx⟩ := hsome _ rfl
  obtain ⟨-, ⟨y, hy, hrax⟩, hrsp, hrbx, -⟩ := hall _ _ hx
  have hvalues : ∀ i v, (argumentWords calledWithFive)[i]? = some v →
      word 64 c.mem ((c.regs .rsp).toNat + 8 * i) 8 = v
        ∧ ∀ r, argumentRegister i = some r → c.regs r = v := by
    intro i v hv
    rw [argumentWords, List.getElem?_map, Option.map_eq_some_iff] at hv
    obtain ⟨p, hp, rfl⟩ := hv
    exact hwords i p hp
  rw [argumentWords, hlist] at hvalues
  refine ⟨c, e, hx, hr10, haligned, fun i v hv => (hvalues i v hv).1, ?_, ?_, ?_, ?_, ?_, hrbx,
    hrsp⟩
  · exact (hvalues 0 _ rfl).2 _ rfl
  · exact (hvalues 1 _ rfl).2 _ rfl
  · exact (hvalues 2 _ rfl).2 _ rfl
  · exact (hvalues 3 _ rfl).2 _ rfl
  · cases hy
    simp [hrax]

/-- The slot for `rbx` lies outside of the list, the frame and the return address. -/
theorem x64ServiceCall_saved : ¬ ∀ (s₀ e : State Reg 64) (calls : List (State Reg 64))
    (routine : BitVec 64 → Store Reg 64 → Store Reg 64 → Prop), CalledWith s₀ →
    Win64 s₀ routine → Execution .rsp x64ServiceCall routine s₀ calls e → ∀ x ∈ e.reads,
      (listAt s₀ ≤ x.1 ∧ x.1 + x.2 ≤ listAt s₀ + parameterBufferSize (listOf s₀).dwParameters)
      ∨ (bottom s₀ ≤ x.1 ∧ x.1 + x.2 ≤ top s₀ - 8) ∨ x = (top s₀, 8) := by
  intro h
  obtain ⟨c, hreach, A⟩ := leads_atCall calledWith_five
  obtain ⟨e, F, honly⟩ := execution_returned calledWith_five A (win64_returning _) (f := 0) rfl
  have hx : Execution .rsp x64ServiceCall returning calledWithFive [c] e := by
    rw [execution_reaches hreach, execution_call (r := .r10) (by rw [A.pc]; rfl)]
    exact ⟨_, [], rfl, rfl, (honly _ _).mpr ⟨rfl, rfl⟩⟩
  have := h calledWithFive e [c] returning calledWith_five (win64_returning _) hx
    (top calledWithFive - 8, 8) (by rw [F.reads]; simp)
  have htop : top calledWithFive = 0x1008 := rfl
  have hlist : listAt calledWithFive = 0x2000 := rfl
  rw [htop, hlist] at this
  rcases this with ⟨h₁, -⟩ | ⟨-, h₂⟩ | h₃
  · exact absurd h₁ (by decide)
  · exact absurd h₂ (by decide)
  · exact absurd h₃ (by decide)

end ScThunk
