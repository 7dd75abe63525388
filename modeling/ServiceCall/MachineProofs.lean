import ServiceCall.ByteProofs
import Mathlib.Logic.Function.Basic
import Mathlib.Logic.Relation

/-! # A machine with registers, a stack and a memory of bytes

    The registers have names `R` and `w` bits; `sp` is the stack pointer.  A program
    is a list of instructions, whose labels are their indices.  Instructions work on
    whole registers or on the low 32 bits, and then clear the others.  Each range of
    the memory that is read is recorded.  Flags are only known after a comparison.

    What a routine does when it is called is not part of the program.  So a program
    goes by itself as far as the next call or return (`Reaches`, with `Leads` and a
    rule for each instruction), and an `Execution` has the routines in between. -/

namespace StackMachine

open LinearMemory

/-- The low 32 bits of a register, or all of it. -/
inductive Width where
  | low
  | full

/-- Equal, or not less as signed numbers. -/
inductive Cond where
  | e
  | nl

inductive Source (R : Type) (w : Nat) where
  | imm (v : BitVec w)
  | reg (r : R)
  | mem (base : R) (disp : BitVec w)

inductive Alu where
  | mov
  | add
  | sub
  | shl
  | cmp
  | test

inductive Instr (R : Type) (w : Nat) where
  | push (src : Source R w)
  | pop (dst : R)
  | alu (op : Alu) (width : Width) (dst : R) (src : Source R w)
  | inc (width : Width) (dst : R)
  | dec (width : Width) (dst : R)
  | lea (width : Width) (dst base : R) (disp : BitVec w)
  | jmp (target : Nat)
  | jcc (c : Cond) (target : Nat)
  | call (target : R)
  | ret

structure Flags where
  zero : Bool
  less : Bool

/-- The registers and the memory. -/
structure Store (R : Type) (w : Nat) where
  regs : R → BitVec w
  mem  : Nat → UInt8

structure State (R : Type) (w : Nat) extends Store R w where
  flags : Option Flags
  reads : List (Nat × Nat)
  pc    : Nat

variable {R : Type} {w : Nat}

namespace Width

def bytes (w : Nat) : Width → Nat
  | low => 4
  | full => w / 8

def bits (w : Nat) : Width → Nat
  | low => 32
  | full => w

def cut : Width → BitVec w → BitVec w
  | low, v => (v.setWidth 32).setWidth w
  | full, v => v

/-- Less as signed numbers. -/
def less : Width → BitVec w → BitVec w → Bool
  | low, x, y => (x.setWidth 32).slt (y.setWidth 32)
  | full, x, y => x.slt y

end Width

/-- The number in `k` bytes of the memory. -/
def word (w : Nat) (m : Nat → UInt8) (a k : Nat) : BitVec w :=
  BitVec.ofNat w (fromLE (slice m a k))

theorem word_congr {m m' : Nat → UInt8} {a k : Nat}
    (h : ∀ j, j < k → m (a + j) = m' (a + j)) : word w m a k = word w m' a k := by
  rw [word, word, slice_congr h]

/-- A word that was written is read back. -/
theorem word_overlay (hw : 8 * (w / 8) = w) (m : Nat → UInt8) (a : Nat) (v : BitVec w) :
    word w (overlay m a (toLE (w / 8) v.toNat)) a (w / 8) = v := by
  have hpow : 256 ^ (w / 8) = 2 ^ w := by
    rw [show 256 = 2 ^ 8 from rfl, ← pow_mul, hw]
  have hslice := slice_overlay m a (toLE (w / 8) v.toNat)
  rw [toLE_length] at hslice
  rw [word, hslice, fromLE_toLE, hpow, Nat.mod_eq_of_lt v.isLt, BitVec.ofNat_toNat,
    BitVec.setWidth_eq]

/-- Outside of what is written the memory stays. -/
theorem word_overlay_apart {m : Nat → UInt8} {a a' k : Nat} {bs : List UInt8}
    (h : a' + k ≤ a ∨ a + bs.length ≤ a') : word w (overlay m a bs) a' k = word w m a' k := by
  refine word_congr ?_
  intro j hj
  refine overlay_uncovered ?_
  rintro ⟨h₁, h₂⟩
  omega

/-- The memory `m` while a frame is filled from above: the words from index `k` on are there,
    a word that was saved still is, and outside of the frame it is the memory `m₀`. -/
structure Filled (w : Nat) (m₀ m : Nat → UInt8) (bottom top slot : Nat) (saved : BitVec w)
    (values : List (BitVec w)) (k : Nat) : Prop where
  saved   : word w m slot (w / 8) = saved
  slots   : ∀ i v, k ≤ i → values[i]? = some v → word w m (bottom + w / 8 * i) (w / 8) = v
  outside : ∀ a, (a < bottom ∨ top ≤ a) → m a = m₀ a

section Filled

variable {m₀ m : Nat → UInt8} {bottom top slot k : Nat} {saved v : BitVec w}
  {values : List (BitVec w)}

/-- What lies apart from the frame is as it was. -/
theorem Filled.apart {a n i : Nat} (K : Filled w m₀ m bottom top slot saved values k)
    (ha : a + n ≤ bottom ∨ top ≤ a) (hi : i < n) : m (a + i) = m₀ (a + i) := by
  refine K.outside _ ?_
  omega

/-- The word is saved. -/
theorem filled_start (hk : values.length = k) (hw : 8 * (w / 8) = w)
    (hbottom : bottom ≤ slot) (htop : slot + w / 8 ≤ top) :
    Filled w m₀ (overlay m₀ slot (toLE (w / 8) saved.toNat)) bottom top slot saved
      values k where
  saved := word_overlay hw _ _ _
  slots := by
    intro i v hi hv
    obtain ⟨h, -⟩ := List.getElem?_eq_some_iff.mp hv
    exact absurd hi (Nat.not_le.mpr (hk ▸ h))
  outside := by
    intro a ha
    refine overlay_uncovered ?_
    rw [toLE_length]
    rintro ⟨h₁, h₂⟩
    omega

/-- One more word is pushed. -/
theorem Filled.push (K : Filled w m₀ m bottom top slot saved values (k + 1))
    (hw : 8 * (w / 8) = w) (hv : values[k]? = some v) (hslot : bottom + w / 8 * (k + 1) ≤ slot)
    (htop : bottom + w / 8 * (k + 1) ≤ top) :
    Filled w m₀ (overlay m (bottom + w / 8 * k) (toLE (w / 8) v.toNat)) bottom top slot saved
      values k := by
  have hmul : w / 8 * (k + 1) = w / 8 * k + w / 8 := Nat.mul_succ ..
  refine ⟨?_, ?_, ?_⟩
  · rw [word_overlay_apart (Or.inr (by rw [toLE_length]; omega))]
    exact K.saved
  · intro i v' hi hv'
    rcases Nat.lt_or_eq_of_le hi with hlt | rfl
    · have hle : w / 8 * (k + 1) ≤ w / 8 * i := Nat.mul_le_mul_left _ hlt
      rw [word_overlay_apart (Or.inr (by rw [toLE_length]; omega))]
      exact K.slots i v' hlt hv'
    · obtain rfl := Option.some.inj (hv.symm.trans hv')
      exact word_overlay hw _ _ _
  · intro a ha
    rw [overlay_uncovered]
    · exact K.outside a ha
    · rw [toLE_length]
      rintro ⟨h₁, h₂⟩
      omega

end Filled

/-- What was read before and is read now. -/
theorem reads_append {P : Nat × Nat → Prop} {xs ys : List (Nat × Nat)} (hx : ∀ x ∈ xs, P x)
    (hy : ∀ x ∈ ys, P x) : ∀ x ∈ xs ++ ys, P x := List.forall_mem_append.mpr ⟨hx, hy⟩

theorem reads_singleton {P : Nat × Nat → Prop} {y : Nat × Nat} (hy : P y) : ∀ x ∈ [y], P x :=
  List.forall_mem_singleton.mpr hy

/-- A shift by a constant. -/
theorem shl_ofNat {x k y : Nat} (hy : x * 2 ^ k = y) (h : y < 2 ^ w) :
    BitVec.ofNat w x <<< k = BitVec.ofNat w y := by
  have hx : x < 2 ^ w :=
    Nat.lt_of_le_of_lt (hy ▸ Nat.le_mul_of_pos_right x (Nat.two_pow_pos k)) h
  apply BitVec.eq_of_toNat_eq
  rw [BitVec.toNat_shiftLeft, BitVec.toNat_ofNat, BitVec.toNat_ofNat, Nat.shiftLeft_eq,
    Nat.mod_eq_of_lt hx, hy]

theorem ofNat_add_neg_one {x : Nat} (h : 0 < x) :
    BitVec.ofNat w x + (-1) = BitVec.ofNat w (x - 1) := by
  obtain ⟨y, rfl⟩ : ∃ y, x = y + 1 := ⟨x - 1, by omega⟩
  rw [← BitVec.sub_eq_add_neg, BitVec.ofNat_add]
  exact BitVec.add_sub_cancel ..

/-- What an operation writes; a comparison writes nothing. -/
def Alu.result (width : Width) (x y : BitVec w) : Alu → Option (BitVec w)
  | mov => some (width.cut y)
  | add => some (width.cut (x + y))
  | sub => some (width.cut (x - y))
  | shl => some (width.cut (x <<< (y.toNat % width.bits w)))
  | cmp => none
  | test => none

def Alu.flags (width : Width) (x y : BitVec w) (old : Option Flags) : Alu → Option Flags
  | mov => old
  | cmp => some ⟨width.cut x == width.cut y, width.less x y⟩
  | test => some ⟨width.cut (x &&& y) == 0, width.less (x &&& y) 0⟩
  | _ => none

def Cond.holds : Cond → Flags → Bool
  | e, f => f.zero
  | nl, f => !f.less

namespace State

def address (s : State R w) (base : R) (disp : BitVec w) : Nat := (s.regs base + disp).toNat

/-- The value of an operand. -/
def value (s : State R w) (width : Width) : Source R w → BitVec w
  | .imm v => v
  | .reg r => s.regs r
  | .mem base disp => word w s.mem (s.address base disp) (width.bytes w)

/-- The ranges that are read for it. -/
def ranges (s : State R w) (width : Width) : Source R w → List (Nat × Nat)
  | .mem base disp => [(s.address base disp, width.bytes w)]
  | _ => []

theorem value_mem (s : State R w) (width : Width) {base : R} {disp : BitVec w} {a : Nat}
    (h : (s.regs base + disp).toNat = a) :
    s.value width (.mem base disp) = word w s.mem a (width.bytes w) := by
  rw [← h]
  rfl

theorem ranges_mem (s : State R w) (width : Width) {base : R} {disp : BitVec w} {a : Nat}
    (h : (s.regs base + disp).toNat = a) :
    s.ranges width (.mem base disp) = [(a, width.bytes w)] := by
  rw [← h]
  rfl

variable [DecidableEq R]

/-- A register is written. -/
def set (s : State R w) (r : R) (v : BitVec w) : State R w :=
  { s with regs := Function.update s.regs r v }

/-- Some ranges were read, and the flags are these; on to the next instruction. -/
def go (s : State R w) (rs : List (Nat × Nat)) (f : Option Flags) : State R w :=
  { s with reads := s.reads ++ rs, flags := f, pc := s.pc + 1 }

def jump (s : State R w) (target : Nat) : State R w := { s with pc := target }

/-- A value is pushed. -/
def pushed (s : State R w) (sp : R) (v : BitVec w) : State R w :=
  { s with
    regs := Function.update s.regs sp (s.regs sp - BitVec.ofNat w (w / 8))
    mem := overlay s.mem (s.regs sp - BitVec.ofNat w (w / 8)).toNat (toLE (w / 8) v.toNat) }

/-- The value on top of the stack goes into a register. -/
def popped (s : State R w) (sp dst : R) : State R w :=
  (s.set sp (s.regs sp + BitVec.ofNat w (w / 8))).set dst
    (word w s.mem (s.regs sp).toNat (w / 8))

end State

variable [DecidableEq R]

/-- One instruction; a call and a return are none of the program's own. -/
def exec (sp : R) (s : State R w) : Instr R w → Option (State R w)
  | .push src => some ((s.pushed sp (s.value .full src)).go (s.ranges .full src) s.flags)
  | .pop dst => some ((s.popped sp dst).go [((s.regs sp).toNat, w / 8)] s.flags)
  | .alu op width dst src =>
      let x := s.regs dst
      let y := s.value width src
      let f := op.flags width x y s.flags
      match op.result width x y with
      | some v => some ((s.set dst v).go (s.ranges width src) f)
      | none => some (s.go (s.ranges width src) f)
  | .inc width dst => some ((s.set dst (width.cut (s.regs dst + 1))).go [] none)
  | .dec width dst => some ((s.set dst (width.cut (s.regs dst - 1))).go [] none)
  | .lea width dst base disp => some ((s.set dst (width.cut (s.regs base + disp))).go [] s.flags)
  | .jmp target => some (s.jump target)
  | .jcc c target => s.flags.map fun f =>
      if c.holds f then s.jump target else s.go [] s.flags
  | .call _ => none
  | .ret => none

/-- The next instruction of a program. -/
def next (sp : R) (prog : List (Instr R w)) (s : State R w) : Option (State R w) :=
  prog[s.pc]?.bind (exec sp s)

/-- From one state to another without a call. -/
def Reaches (sp : R) (prog : List (Instr R w)) : State R w → State R w → Prop :=
  Relation.ReflTransGen fun s s' => next sp prog s = some s'

/-! ## Rules -/

/-- The program comes to a state with this property. -/
def Leads (sp : R) (prog : List (Instr R w)) (s : State R w) (Q : State R w → Prop) : Prop :=
  ∃ s', Reaches sp prog s s' ∧ Q s'

section Rules

variable {sp : R} {prog : List (Instr R w)} {s : State R w} {Q Q' : State R w → Prop}

theorem Leads.refl (h : Q s) : Leads sp prog s Q := ⟨s, .refl, h⟩

theorem Leads.step {s' : State R w} (hs : next sp prog s = some s') (h : Leads sp prog s' Q) :
    Leads sp prog s Q := by
  obtain ⟨s'', hr, hQ⟩ := h
  exact ⟨s'', .head hs hr, hQ⟩

/-- From one point to the next. -/
theorem Leads.trans (h : Leads sp prog s Q) (hQ : ∀ s, Q s → Leads sp prog s Q') :
    Leads sp prog s Q' := by
  obtain ⟨s', hr, h'⟩ := h
  obtain ⟨s'', hr', h''⟩ := hQ s' h'
  exact ⟨s'', hr.trans hr', h''⟩

theorem next_eq {i : Instr R w} (hi : prog[s.pc]? = some i) :
    next sp prog s = exec sp s i := by
  rw [next, hi]
  rfl

/-- What is known of a state: everything but its flags. -/
structure Is (s : State R w) (regs : R → BitVec w) (mem : Nat → UInt8)
    (reads : List (Nat × Nat)) (pc : Nat) : Prop where
  regs  : s.regs = regs
  mem   : s.mem = mem
  reads : s.reads = reads
  pc    : s.pc = pc

variable {k : Nat} {width : Width} {src : Source R w} {rs : List (Nat × Nat)}

theorem Leads.push {y : BitVec w} (hpc : s.pc = k) (hi : prog[k]? = some (.push src))
    (hy : s.value .full src = y) (hr : s.ranges .full src = rs)
    (h : ∀ s', Is s' (Function.update s.regs sp (s.regs sp - BitVec.ofNat w (w / 8)))
      (overlay s.mem (s.regs sp - BitVec.ofNat w (w / 8)).toNat (toLE (w / 8) y.toNat))
      (s.reads ++ rs) (k + 1) → Leads sp prog s' Q) : Leads sp prog s Q := by
  subst hpc hy hr
  exact .step (next_eq hi) (h _ ⟨rfl, rfl, rfl, rfl⟩)

theorem Leads.pop {dst : R} (hpc : s.pc = k) (hi : prog[k]? = some (.pop dst))
    (h : ∀ s', Is s' (Function.update (Function.update s.regs sp
        (s.regs sp + BitVec.ofNat w (w / 8))) dst (word w s.mem (s.regs sp).toNat (w / 8)))
      s.mem (s.reads ++ [((s.regs sp).toNat, w / 8)]) (k + 1) → Leads sp prog s' Q) :
    Leads sp prog s Q := by
  subst hpc
  exact .step (next_eq hi) (h _ ⟨rfl, rfl, rfl, rfl⟩)

/-- An operation with a result. -/
theorem Leads.alu {op : Alu} {dst : R} {y v : BitVec w} (hpc : s.pc = k)
    (hi : prog[k]? = some (.alu op width dst src)) (hy : s.value width src = y)
    (hr : s.ranges width src = rs) (hv : op.result width (s.regs dst) y = some v)
    (h : ∀ s', Is s' (Function.update s.regs dst v) s.mem (s.reads ++ rs) (k + 1) →
      Leads sp prog s' Q) : Leads sp prog s Q := by
  subst hpc hy hr
  refine (h ((s.set dst v).go (s.ranges width src) (op.flags width (s.regs dst)
    (s.value width src) s.flags)) ⟨rfl, rfl, rfl, rfl⟩).step ?_
  rw [next_eq hi, exec, hv]

/-- A comparison, then a jump that is taken or not. -/
theorem Leads.compare {op : Alu} {dst : R} {y : BitVec w} {c : Cond} {f : Flags} {target : Nat}
    (hpc : s.pc = k) (hi : prog[k]? = some (.alu op width dst src))
    (hi' : prog[k + 1]? = some (.jcc c target)) (hy : s.value width src = y)
    (hr : s.ranges width src = rs) (hv : op.result width (s.regs dst) y = none)
    (hf : op.flags width (s.regs dst) y s.flags = some f)
    (hyes : c.holds f = true → ∀ s', Is s' s.regs s.mem (s.reads ++ rs) target →
      Leads sp prog s' Q)
    (hno : c.holds f = false → ∀ s', Is s' s.regs s.mem (s.reads ++ rs) (k + 2) →
      Leads sp prog s' Q) : Leads sp prog s Q := by
  subst hpc hy hr
  have hgo : next sp prog s = some (s.go (s.ranges width src) (some f)) := by
    rw [next_eq hi, exec, hv, hf]
  refine Leads.step hgo ?_
  cases hc : c.holds f with
  | true =>
      refine (hyes hc ((s.go (s.ranges width src) (some f)).jump target)
        ⟨rfl, rfl, rfl, rfl⟩).step ?_
      rw [next_eq hi', exec]
      exact congrArg some (if_pos hc)
  | false =>
      refine (hno hc ((s.go (s.ranges width src) (some f)).go [] (some f))
        ⟨rfl, rfl, List.append_nil _, rfl⟩).step ?_
      rw [next_eq hi', exec]
      exact congrArg some (if_neg (by rw [hc]; exact Bool.false_ne_true))

theorem Leads.inc {dst : R} (hpc : s.pc = k) (hi : prog[k]? = some (.inc width dst))
    (h : ∀ s', Is s' (Function.update s.regs dst (width.cut (s.regs dst + 1))) s.mem s.reads
      (k + 1) → Leads sp prog s' Q) : Leads sp prog s Q := by
  subst hpc
  exact .step (next_eq hi) (h _ ⟨rfl, rfl, List.append_nil _, rfl⟩)

theorem Leads.dec {dst : R} (hpc : s.pc = k) (hi : prog[k]? = some (.dec width dst))
    (h : ∀ s', Is s' (Function.update s.regs dst (width.cut (s.regs dst - 1))) s.mem s.reads
      (k + 1) → Leads sp prog s' Q) : Leads sp prog s Q := by
  subst hpc
  exact .step (next_eq hi) (h _ ⟨rfl, rfl, List.append_nil _, rfl⟩)

theorem Leads.lea {dst base : R} {disp : BitVec w} (hpc : s.pc = k)
    (hi : prog[k]? = some (.lea width dst base disp))
    (h : ∀ s', Is s' (Function.update s.regs dst (width.cut (s.regs base + disp))) s.mem
      s.reads (k + 1) → Leads sp prog s' Q) : Leads sp prog s Q := by
  subst hpc
  exact .step (next_eq hi) (h _ ⟨rfl, rfl, List.append_nil _, rfl⟩)

theorem Leads.jmp {target : Nat} (hpc : s.pc = k) (hi : prog[k]? = some (.jmp target))
    (h : ∀ s', Is s' s.regs s.mem s.reads target → Leads sp prog s' Q) : Leads sp prog s Q := by
  subst hpc
  exact .step (next_eq hi) (h _ ⟨rfl, rfl, rfl, rfl⟩)

end Rules

/-! ## Executions with routines -/

/-- The state in which a routine begins: the index to return to is on the stack. -/
def State.entered (s : State R w) (sp : R) : Store R w :=
  (s.pushed sp (BitVec.ofNat w (s.pc + 1))).toStore

theorem State.entered_sp (s : State R w) (sp : R) :
    (s.entered sp).regs sp = s.regs sp - BitVec.ofNat w (w / 8) := Function.update_self ..

theorem State.entered_ne (s : State R w) {sp r : R} (h : r ≠ sp) :
    (s.entered sp).regs r = s.regs r := Function.update_of_ne h ..

/-- The routine came back; what it read is not counted. -/
def State.returned (s : State R w) (s' : Store R w) : State R w :=
  { s' with flags := none, reads := s.reads, pc := s.pc + 1 }

/-- The program returned as well. -/
def State.left (s : State R w) (sp : R) : State R w :=
  (s.set sp (s.regs sp + BitVec.ofNat w (w / 8))).go [((s.regs sp).toNat, w / 8)] s.flags

theorem State.left_sp (s : State R w) (sp : R) :
    (s.left sp).regs sp = s.regs sp + BitVec.ofNat w (w / 8) := Function.update_self ..

theorem State.left_ne (s : State R w) {sp r : R} (h : r ≠ sp) :
    (s.left sp).regs r = s.regs r := Function.update_of_ne h ..

/-- A whole execution, with the states in which it called routines: the routine at `a` may
    take a store to those that `routine a` relates it to. -/
inductive Execution (sp : R) (prog : List (Instr R w))
    (routine : BitVec w → Store R w → Store R w → Prop) :
    State R w → List (State R w) → State R w → Prop where
  | ret {s : State R w} : prog[s.pc]? = some .ret → Execution sp prog routine s [] (s.left sp)
  | step {s s' e : State R w} {calls : List (State R w)} : next sp prog s = some s' →
      Execution sp prog routine s' calls e → Execution sp prog routine s calls e
  | call {s e : State R w} {r : R} {s' : Store R w} {calls : List (State R w)} :
      prog[s.pc]? = some (.call r) → routine (s.regs r) (s.entered sp) s' →
      Execution sp prog routine (s.returned s') calls e →
      Execution sp prog routine s (s :: calls) e

section Executions

variable {sp : R} {prog : List (Instr R w)}
  {routine : BitVec w → Store R w → Store R w → Prop} {s s' e : State R w}
  {calls : List (State R w)}

/-- What the program does by itself is part of every execution. -/
theorem execution_reaches (h : Reaches sp prog s s') :
    Execution sp prog routine s calls e ↔ Execution sp prog routine s' calls e := by
  induction h using Relation.ReflTransGen.head_induction_on with
  | refl => exact Iff.rfl
  | head hs _ ih =>
      rw [← ih]
      constructor
      · intro hx
        cases hx with
        | ret hi =>
            rw [next_eq hi] at hs
            exact nomatch hs
        | step hs' hx =>
            rw [hs] at hs'
            rwa [Option.some.inj hs']
        | call hi =>
            rw [next_eq hi] at hs
            exact nomatch hs
      · exact .step hs

/-- At a call. -/
theorem execution_call {r : R} (hi : prog[s.pc]? = some (.call r)) :
    Execution sp prog routine s calls e ↔ ∃ s' calls', calls = s :: calls'
      ∧ routine (s.regs r) (s.entered sp) s'
      ∧ Execution sp prog routine (s.returned s') calls' e := by
  constructor
  · intro hx
    cases hx with
    | ret hi' =>
        rw [hi] at hi'
        exact nomatch hi'
    | step hs =>
        rw [next_eq hi] at hs
        exact nomatch hs
    | @call _ _ r' s' calls' hi' hr hx =>
        rw [hi] at hi'
        obtain rfl : r = r' := Instr.call.inj (Option.some.inj hi')
        exact ⟨s', calls', rfl, hr, hx⟩
  · rintro ⟨s', calls', rfl, hr, hx⟩
    exact .call hi hr hx

/-- At a return. -/
theorem execution_ret (hi : prog[s.pc]? = some .ret) :
    Execution sp prog routine s calls e ↔ calls = [] ∧ e = s.left sp := by
  constructor
  · intro hx
    cases hx with
    | ret => exact ⟨rfl, rfl⟩
    | step hs =>
        rw [next_eq hi] at hs
        exact nomatch hs
    | call hi' =>
        rw [hi] at hi'
        exact nomatch hi'
  · rintro ⟨rfl, rfl⟩
    exact .ret hi

end Executions

end StackMachine
