import ServiceCall.ByteProofs
import ServiceCall.ProgProofs

/-! # What a program reads

    A `Reader` asks a memory for ranges, one after the other, and may let what it
    got decide what it asks for next.  Its `footprint` are the ranges it asks a
    memory for; what it returns depends on nothing else (`value_congr`). -/

namespace ByteReader

open LinearMemory OpProg

/-- A program whose operations are reads: a range is given back as its content. -/
abbrev Reader (β α : Type) : Type := Prog (Nat × Nat) (fun _ => List β) α

variable {α β : Type}

/-- Read `n` cells from address `a` on. -/
def fetch (a n : Nat) : Reader β (List β) := Prog.op (a, n)

/-- What a program makes of a memory. -/
def value (m : Nat → β) : Reader β α → α
  | .ret a => a
  | .call r k => value m (k (slice m r.1 r.2))

/-- The ranges that it reads of the memory, in order. -/
def footprint (m : Nat → β) : Reader β α → List (Nat × Nat)
  | .ret _ => []
  | .call r k => r :: footprint m (k (slice m r.1 r.2))

@[simp] theorem value_ret (m : Nat → β) (a : α) : value m (.ret a : Reader β α) = a := rfl

@[simp] theorem footprint_ret (m : Nat → β) (a : α) :
    footprint m (.ret a : Reader β α) = [] := rfl

@[simp] theorem value_fetch_bind (m : Nat → β) (a n : Nat) (f : List β → Reader β α) :
    value m (fetch a n >>= f) = value m (f (slice m a n)) := rfl

@[simp] theorem footprint_fetch_bind (m : Nat → β) (a n : Nat) (f : List β → Reader β α) :
    footprint m (fetch a n >>= f) = (a, n) :: footprint m (f (slice m a n)) := rfl

/-- All of a range lies between two addresses. -/
def Inside (lo hi : Nat) (r : Nat × Nat) : Prop := lo ≤ r.1 ∧ r.1 + r.2 ≤ hi

/-- **NOTHING BUT THE FOOTPRINT MATTERS**: memories that agree on it are read alike. -/
theorem value_congr {m m' : Nat → β} {p : Reader β α}
    (h : ∀ r ∈ footprint m p, ∀ i, Covers r.1 r.2 i → m i = m' i) :
    value m' p = value m p ∧ footprint m' p = footprint m p := by
  induction p with
  | ret a => exact ⟨rfl, rfl⟩
  | call r k ih =>
      have hslice : slice m' r.1 r.2 = slice m r.1 r.2 := by
        refine slice_congr ?_
        intro j hj
        exact (h r List.mem_cons_self _ ⟨Nat.le_add_right .., Nat.add_lt_add_left hj _⟩).symm
      have hk := ih (slice m r.1 r.2) fun r' hr' => h r' (List.mem_cons_of_mem _ hr')
      rw [value, value, footprint, footprint, hslice, hk.1, hk.2]
      exact ⟨rfl, rfl⟩

end ByteReader
