import Mathlib.Data.List.Basic
import Mathlib.Data.UInt
import Mathlib.Tactic.Ring

/-! # Cells of a linear memory

    A memory is a function from addresses to cells.  `slice` reads a range,
    `overlay` writes one, `overlayAll` writes several ranges in order.  What is
    known of a memory after an overlay is: inside the range the cells written,
    outside the old ones; after several, the last range that covers an address
    decides (`overlayAll_apply`).  `fromLE` and `toLE` are the little-endian
    reading of a byte list and its inverse. -/

namespace LinearMemory

variable {α : Type}

/-- The `n` cells from address `a` on. -/
def slice (m : Nat → α) (a n : Nat) : List α := (List.range n).map fun k => m (a + k)

/-- `m` with the cells `bs` written from address `a` on. -/
def overlay (m : Nat → α) (a : Nat) (bs : List α) : Nat → α :=
  fun i => if a ≤ i then (bs[i - a]?).getD (m i) else m i

/-- The address lies in the range of `n` cells from `a` on. -/
def Covers (a n i : Nat) : Prop := a ≤ i ∧ i < a + n

instance (a n i : Nat) : Decidable (Covers a n i) :=
  inferInstanceAs (Decidable (_ ∧ _))

@[simp] theorem slice_length (m : Nat → α) (a n : Nat) : (slice m a n).length = n := by
  simp [slice]

theorem slice_getElem? {m : Nat → α} {a n k : Nat} (h : k < n) :
    (slice m a n)[k]? = some (m (a + k)) := by
  simp [slice, h]

/-- A slice in two parts. -/
theorem slice_add (m : Nat → α) (a j k : Nat) :
    slice m a (j + k) = slice m a j ++ slice m (a + j) k := by
  rw [slice, slice, slice, List.range_add, List.map_append, List.map_map]
  congr 1
  refine List.map_congr_left ?_
  intro i _
  show m (a + (j + i)) = m (a + j + i)
  rw [Nat.add_assoc]

/-- A slice only depends on the cells of its range. -/
theorem slice_congr {m m' : Nat → α} {a a' n : Nat}
    (h : ∀ k, k < n → m (a + k) = m' (a' + k)) : slice m a n = slice m' a' n := by
  refine List.map_congr_left ?_
  intro k hk
  exact h k (List.mem_range.mp hk)

@[simp] theorem overlay_nil (m : Nat → α) (a : Nat) : overlay m a [] = m := by
  funext i
  simp [overlay]

/-- Inside its range an overlay has the cells written. -/
theorem overlay_covered {m : Nat → α} {a i : Nat} {bs : List α}
    (h : Covers a bs.length i) : bs[i - a]? = some (overlay m a bs i) := by
  have hlt : i - a < bs.length := by have := h.1; have := h.2; omega
  simp [overlay, h.1, hlt]

/-- Outside its range an overlay leaves the memory alone. -/
theorem overlay_uncovered {m : Nat → α} {a i : Nat} {bs : List α}
    (h : ¬ Covers a bs.length i) : overlay m a bs i = m i := by
  unfold overlay
  split
  · next ha =>
      have hlen : bs.length ≤ i - a := by
        by_contra hlt
        exact h ⟨ha, by omega⟩
      rw [List.getElem?_eq_none hlen, Option.getD_none]
  · rfl

/-- Inside its range an overlay does not depend on the memory it went over. -/
theorem overlay_congr {m m' : Nat → α} {a i : Nat} {bs : List α}
    (h : Covers a bs.length i) : overlay m a bs i = overlay m' a bs i := by
  have h₁ := overlay_covered (m := m) h
  rw [overlay_covered (m := m') h] at h₁
  exact (Option.some.inj h₁).symm

/-- What was written is what is read back. -/
theorem slice_overlay (m : Nat → α) (a : Nat) (bs : List α) :
    slice (overlay m a bs) a bs.length = bs := by
  refine List.ext_getElem? ?_
  intro k
  by_cases hk : k < bs.length
  · rw [slice_getElem? hk,
      ← overlay_covered (i := a + k) ⟨Nat.le_add_right .., Nat.add_lt_add_left hk a⟩,
      Nat.add_sub_cancel_left]
  · rw [List.getElem?_eq_none (by simpa using hk), List.getElem?_eq_none (by simpa using hk)]

/-- Writing back what was read changes nothing. -/
theorem overlay_slice (m : Nat → α) (a n : Nat) : overlay m a (slice m a n) = m := by
  funext i
  by_cases h : Covers a n i
  · have h' : Covers a (slice m a n).length i := by rwa [slice_length]
    have hk : i - a < n := by have := h.1; have := h.2; omega
    have := overlay_covered (m := m) h'
    rw [slice_getElem? hk, Nat.add_sub_cancel' h.1, Option.some.injEq] at this
    exact this.symm
  · exact overlay_uncovered (by rwa [slice_length])

/-! ## Several overlays in order -/

/-- Write several ranges, the first of the list first. -/
def overlayAll (m : Nat → α) : List (Nat × List α) → Nat → α
  | [] => m
  | w :: ws => overlayAll (overlay m w.1 w.2) ws

/-- The cell that the last write covering `i` puts there. -/
def lastWrite (i : Nat) : List (Nat × List α) → Option α
  | [] => none
  | w :: ws => (lastWrite i ws).or (if w.1 ≤ i then w.2[i - w.1]? else none)

@[simp] theorem overlayAll_nil (m : Nat → α) : overlayAll m [] = m := rfl

@[simp] theorem overlayAll_cons (m : Nat → α) (w : Nat × List α)
    (ws : List (Nat × List α)) :
    overlayAll m (w :: ws) = overlayAll (overlay m w.1 w.2) ws := rfl

/-- **THE LAST WRITE WINS**: after several overlays a cell is what the last one
    covering it wrote, and the old cell if none covers it. -/
theorem overlayAll_apply (m : Nat → α) (ws : List (Nat × List α)) (i : Nat) :
    overlayAll m ws i = (lastWrite i ws).getD (m i) := by
  induction ws generalizing m with
  | nil => rfl
  | cons w ws ih =>
      rw [overlayAll_cons, ih]
      cases h : lastWrite i ws with
      | some b => simp [lastWrite, h]
      | none =>
          by_cases ha : w.1 ≤ i
          · simp [lastWrite, h, overlay, ha]
          · simp [lastWrite, h, overlay, ha]

/-- Of two lists of writes the second decides, where it covers. -/
theorem lastWrite_append (i : Nat) (ws vs : List (Nat × List α)) :
    lastWrite i (ws ++ vs) = (lastWrite i vs).or (lastWrite i ws) := by
  induction ws with
  | nil => simp [lastWrite]
  | cons w ws ih => rw [List.cons_append, lastWrite, lastWrite, ih, Option.or_assoc]

/-- Nothing is written where no range covers. -/
theorem lastWrite_eq_none {i : Nat} {ws : List (Nat × List α)} :
    lastWrite i ws = none ↔ ∀ w ∈ ws, ¬ Covers w.1 w.2.length i := by
  induction ws with
  | nil => simp [lastWrite]
  | cons w ws ih =>
      simp only [lastWrite, Option.or_eq_none_iff, ih, List.mem_cons, forall_eq_or_imp]
      constructor
      · rintro ⟨hws, hw⟩
        refine ⟨?_, hws⟩
        rintro ⟨ha, hlt⟩
        rw [if_pos ha, List.getElem?_eq_none_iff] at hw
        omega
      · rintro ⟨hw, hws⟩
        refine ⟨hws, ?_⟩
        split
        · next ha =>
            rw [List.getElem?_eq_none_iff]
            by_contra hlt
            exact hw ⟨ha, by omega⟩
        · rfl

/-! ## Little-endian numbers -/

/-- The number whose little-endian bytes are `bs`. -/
def fromLE : List UInt8 → Nat
  | [] => 0
  | b :: bs => b.toNat + 256 * fromLE bs

/-- The `n` low little-endian bytes of a number. -/
def toLE : Nat → Nat → List UInt8
  | 0, _ => []
  | n + 1, v => UInt8.ofNat v :: toLE n (v / 256)

@[simp] theorem toLE_length (n v : Nat) : (toLE n v).length = n := by
  induction n generalizing v with
  | zero => rfl
  | succ n ih => rw [toLE, List.length_cons, ih]

/-- The cells of a number that was written. -/
theorem slice_overlay_toLE (m : Nat → UInt8) (a n v : Nat) :
    slice (overlay m a (toLE n v)) a n = toLE n v := by
  have := slice_overlay m a (toLE n v)
  rwa [toLE_length] at this

/-- Reading what was written gives the number back, up to its width. -/
theorem fromLE_toLE (n v : Nat) : fromLE (toLE n v) = v % 256 ^ n := by
  induction n generalizing v with
  | zero => rw [toLE, fromLE, pow_zero, Nat.mod_one]
  | succ n ih =>
      have hb : (UInt8.ofNat v).toNat = v % 256 := UInt8.toNat_ofNat ..
      rw [toLE, fromLE, ih, hb, pow_succ, Nat.mul_comm (256 ^ n) 256, Nat.mod_mul]

/-- A little-endian number fits its width. -/
theorem fromLE_lt (bs : List UInt8) : fromLE bs < 256 ^ bs.length := by
  induction bs with
  | nil => exact Nat.one_pos
  | cons b bs ih =>
      have hb : b.toNat < 256 := UInt8.toNat_lt b
      rw [fromLE, List.length_cons, pow_succ]
      omega

/-- Byte lists of one length that read as the same number are equal. -/
theorem fromLE_inj {bs cs : List UInt8} (hlen : bs.length = cs.length)
    (h : fromLE bs = fromLE cs) : bs = cs := by
  induction bs generalizing cs with
  | nil => exact (List.length_eq_zero_iff.mp hlen.symm).symm
  | cons b bs ih =>
      cases cs with
      | nil => exact nomatch hlen
      | cons c cs =>
          have hb : b.toNat < 256 := UInt8.toNat_lt b
          have hc : c.toNat < 256 := UInt8.toNat_lt c
          rw [fromLE, fromLE] at h
          have hhead : b.toNat = c.toNat := by omega
          have htail : fromLE bs = fromLE cs := by omega
          rw [UInt8.toNat_inj.mp hhead, ih (Nat.succ.inj hlen) htail]

/-- A number in two parts. -/
theorem fromLE_append (bs cs : List UInt8) :
    fromLE (bs ++ cs) = fromLE bs + 256 ^ bs.length * fromLE cs := by
  induction bs with
  | nil => simp [fromLE]
  | cons b bs ih =>
      rw [List.cons_append, fromLE, fromLE, ih, List.length_cons, pow_succ]
      ring

/-- Smaller bytes make a smaller number. -/
theorem fromLE_slice_mono {m m' : Nat → UInt8} (h : ∀ i, m i ≤ m' i) (a n : Nat) :
    fromLE (slice m a n) ≤ fromLE (slice m' a n) := by
  rw [slice, slice]
  induction List.range n with
  | nil => exact Nat.le_refl _
  | cons k ks ih =>
      have hbyte := UInt8.le_iff_toNat_le.mp (h (a + k))
      rw [List.map_cons, List.map_cons, fromLE, fromLE]
      omega

/-- Writing zeros makes bytes smaller at most. -/
theorem overlay_zero_le (m : Nat → UInt8) (a n i : Nat) : overlay m a (toLE n 0) i ≤ m i := by
  have hzero : ∀ n, ∀ x ∈ toLE n 0, x = 0 := by
    intro n
    induction n with
    | zero =>
        intro x hx
        exact nomatch hx
    | succ n ih =>
        intro x hx
        rcases List.mem_cons.mp hx with rfl | hx
        · rfl
        · exact ih x hx
  by_cases h : Covers a (toLE n 0).length i
  · rw [hzero n _ (List.mem_of_getElem? (overlay_covered (m := m) h))]
    exact UInt8.le_iff_toNat_le.mpr (Nat.zero_le _)
  · rw [overlay_uncovered h]
    exact UInt8.le_iff_toNat_le.mpr (Nat.le_refl _)

end LinearMemory
