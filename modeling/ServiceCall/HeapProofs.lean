import Mathlib.Logic.Function.Basic
import Mathlib.Algebra.Notation.Defs
import Mathlib.Tactic.SplitIfs

/-! # A heap that several threads hold blocks of

    Blocks live at addresses; a block has a kind and a size.  Fresh memory is
    not cleared: an allocation returns a block of the right kind and size with
    any content.  An access to an address where no block of the expected kind
    lives is a FAULT: it is recorded with the thread that made it, and a load
    then gives an arbitrary block of that kind.

    Every block has a HOLDER: the thread that allocated it, or the thread it
    was handed over to.  Nothing an operation does depends on the holder.

    `Owns` is what threads know of the blocks they hold: the content, up to the
    changes `eqv` that other threads may make.  `HeapOp.pre` and `HeapOp.post`
    are the proof outline of the operations in terms of that knowledge, and
    `Owns.exec` says that they are sound: a thread that keeps to what it holds
    never faults and never changes a block of another thread. -/

namespace OwnedHeap

variable {P B K : Type}

/-- The operations of a heap with addresses `P`, blocks `B` and kinds `K`. -/
inductive HeapOp (P B K : Type) where
  /-- Allocate; failure ends the process, so it is never returned. -/
  | alloc (k : K) (n : Nat)
  /-- Allocate, or give back the null address. -/
  | allocNothrow (k : K) (n : Nat)
  | load (a : P) (k : K)
  | store (a : P) (b : B)
  | free (a : P)

/-- What a heap operation gives back. -/
@[reducible] def HeapOp.Ret : HeapOp P B K → Type
  | .alloc .. => P
  | .allocNothrow .. => P
  | .load .. => B
  | .store .. => Unit
  | .free .. => Unit

/-- An access by a thread to an address where no block of the expected kind
    lives. -/
structure Fault (P : Type) where
  thread  : Nat
  address : P
deriving DecidableEq

structure Heap (P B : Type) where
  cells  : P → Option B
  holder : P → Nat
  faults : List (Fault P)

/-- Which addresses there are, kind and size of a block, and the changes to a
    block that do not matter to the thread that holds it. -/
structure Layout (P B K : Type) where
  address : P → Bool
  kind  : B → K
  size  : B → Nat
  eqv   : B → B → Prop
  refl  : ∀ b, eqv b b
  trans : ∀ {b₁ b₂ b₃}, eqv b₁ b₂ → eqv b₂ b₃ → eqv b₁ b₃
  kind_eq : ∀ {b₁ b₂}, eqv b₁ b₂ → kind b₁ = kind b₂

namespace Heap

variable [DecidableEq P]

/-- Put a block at an address, or take it away. -/
def set (h : Heap P B) (a : P) (b : Option B) : Heap P B :=
  { h with cells := Function.update h.cells a b }

/-- Put a fresh block of thread `t` at an address. -/
def allocate (h : Heap P B) (t : Nat) (a : P) (b : B) : Heap P B :=
  { h with cells := Function.update h.cells a (some b),
           holder := Function.update h.holder a t }

/-- Thread `n` becomes the holder of the blocks at the addresses `p` picks. -/
def handOver (h : Heap P B) (n : Nat) (p : P → Bool) : Heap P B :=
  { h with holder := fun a => if p a then n else h.holder a }

def fault (h : Heap P B) (t : Nat) (a : P) : Heap P B :=
  { h with faults := ⟨t, a⟩ :: h.faults }

@[simp] theorem set_self (h : Heap P B) (a : P) (b : Option B) :
    (h.set a b).cells a = b := Function.update_self ..

theorem set_ne (h : Heap P B) {a a' : P} (hne : a' ≠ a) (b : Option B) :
    (h.set a b).cells a' = h.cells a' := Function.update_of_ne hne ..

@[simp] theorem set_holder (h : Heap P B) (a : P) (b : Option B) :
    (h.set a b).holder = h.holder := rfl

@[simp] theorem set_faults (h : Heap P B) (a : P) (b : Option B) :
    (h.set a b).faults = h.faults := rfl

@[simp] theorem allocate_self (h : Heap P B) (t : Nat) (a : P) (b : B) :
    (h.allocate t a b).cells a = some b := Function.update_self ..

theorem allocate_ne (h : Heap P B) (t : Nat) {a a' : P} (hne : a' ≠ a) (b : B) :
    (h.allocate t a b).cells a' = h.cells a' := Function.update_of_ne hne ..

@[simp] theorem allocate_faults (h : Heap P B) (t : Nat) (a : P) (b : B) :
    (h.allocate t a b).faults = h.faults := rfl

omit [DecidableEq P] in
@[simp] theorem handOver_cells (h : Heap P B) (n : Nat) (p : P → Bool) :
    (h.handOver n p).cells = h.cells := rfl

omit [DecidableEq P] in
@[simp] theorem handOver_faults (h : Heap P B) (n : Nat) (p : P → Bool) :
    (h.handOver n p).faults = h.faults := rfl

end Heap

section Exec

variable [DecidableEq P] [Zero P] [DecidableEq K]

/-- The effect of a heap operation of thread `t`.  The choice supplies address
    and content of fresh memory, and the value of a faulting load.  Accesses
    through the null address end the process; freeing it does nothing. -/
def exec (Λ : Layout P B K) (t : Nat) :
    (o : HeapOp P B K) → Option (P × B) → Heap P B → Option (o.Ret × Heap P B)
  | .alloc k n, some (a, b), h =>
      if a = 0 ∨ Λ.address a = false then none
      else if (h.cells a).isSome then none
      else if Λ.kind b = k ∧ Λ.size b = n then some (a, h.allocate t a b)
      else none
  | .alloc .., none, _ => none
  | .allocNothrow k n, some (a, b), h =>
      if a = 0 ∨ Λ.address a = false then none
      else if (h.cells a).isSome then none
      else if Λ.kind b = k ∧ Λ.size b = n then some (a, h.allocate t a b)
      else none
  | .allocNothrow .., none, h => some ((0 : P), h)
  | .load a k, c, h =>
      if a = 0 then none
      else match (h.cells a).filter (fun b => Λ.kind b = k) with
        | some b => some (b, h)
        | none => (c.filter (fun x => Λ.kind x.2 = k)).map fun x => (x.2, h.fault t a)
  | .store a b, _, h =>
      if a = 0 then none
      else match (h.cells a).filter (fun b' => Λ.kind b' = Λ.kind b) with
        | some _ => some ((), h.set a (some b))
        | none => some ((), h.fault t a)
  | .free a, _, h =>
      if a = 0 then some ((), h)
      else match h.cells a with
        | some _ => some ((), h.set a none)
        | none => some ((), h.fault t a)

variable {Λ : Layout P B K} {t : Nat} {h h' : Heap P B} {c : Option (P × B)}

/-- A fresh block lies where none lived, and is of the requested kind and size. -/
theorem exec_alloc {k : K} {n : Nat} {a : P}
    (hx : exec Λ t (.alloc k n) c h = some (a, h')) :
    a ≠ 0 ∧ Λ.address a = true ∧ h.cells a = none ∧
      ∃ b, Λ.kind b = k ∧ Λ.size b = n ∧ h' = h.allocate t a b := by
  cases c with
  | none => exact nomatch hx
  | some x =>
      obtain ⟨a₀, b⟩ := x
      simp only [exec] at hx
      split_ifs at hx with h₁ h₂ h₃
      obtain ⟨rfl, rfl⟩ := Prod.mk.inj (Option.some.inj hx)
      rw [not_or, Bool.not_eq_false] at h₁
      exact ⟨h₁.1, h₁.2, by simpa using h₂, b, h₃.1, h₃.2, rfl⟩

/-- An allocation that may fail gives the null address and no change, or a
    fresh block. -/
theorem exec_allocNothrow {k : K} {n : Nat} {a : P}
    (hx : exec Λ t (.allocNothrow k n) c h = some (a, h')) :
    (a = 0 ∧ h' = h) ∨ (a ≠ 0 ∧ Λ.address a = true ∧ h.cells a = none ∧
      ∃ b, Λ.kind b = k ∧ Λ.size b = n ∧ h' = h.allocate t a b) := by
  cases c with
  | none =>
      obtain ⟨rfl, rfl⟩ := Prod.mk.inj (Option.some.inj hx)
      exact Or.inl ⟨rfl, rfl⟩
  | some x =>
      obtain ⟨a₀, b⟩ := x
      simp only [exec] at hx
      split_ifs at hx with h₁ h₂ h₃
      obtain ⟨rfl, rfl⟩ := Prod.mk.inj (Option.some.inj hx)
      rw [not_or, Bool.not_eq_false] at h₁
      exact Or.inr ⟨h₁.1, h₁.2, by simpa using h₂, b, h₃.1, h₃.2, rfl⟩

/-- Loading a live block of the expected kind gives its content. -/
theorem exec_load {a : P} {k : K} {b r : B} (hb : h.cells a = some b)
    (hk : Λ.kind b = k) (hx : exec Λ t (.load a k) c h = some (r, h')) :
    r = b ∧ h' = h := by
  simp only [exec] at hx
  split_ifs at hx with h₁
  rw [hb] at hx
  simp only [Option.filter, hk, decide_true, if_true] at hx
  obtain ⟨rfl, rfl⟩ := Prod.mk.inj (Option.some.inj hx)
  exact ⟨rfl, rfl⟩

/-- A load never changes a block; whatever it gives is of the expected kind. -/
theorem exec_load_any {a : P} {k : K} {r : B}
    (hx : exec Λ t (.load a k) c h = some (r, h')) :
    a ≠ 0 ∧ Λ.kind r = k ∧ h'.cells = h.cells ∧ h'.holder = h.holder := by
  simp only [exec] at hx
  split_ifs at hx with h₁
  refine ⟨h₁, ?_⟩
  split at hx
  · next b hb =>
      obtain ⟨rfl, rfl⟩ := Prod.mk.inj (Option.some.inj hx)
      have := (Option.filter_eq_some_iff.mp hb).2
      exact ⟨by simpa using this, rfl, rfl⟩
  · obtain ⟨x, hx₁, hx₂⟩ := Option.map_eq_some_iff.mp hx
    obtain ⟨rfl, rfl⟩ := Prod.mk.inj hx₂
    have := (Option.filter_eq_some_iff.mp hx₁).2
    exact ⟨by simpa using this, rfl, rfl⟩

/-- Storing into a live block of the same kind replaces it. -/
theorem exec_store {a : P} {b b₀ : B} {u : Unit} (hb : h.cells a = some b₀)
    (hk : Λ.kind b₀ = Λ.kind b)
    (hx : exec Λ t (.store a b) c h = some (u, h')) : h' = h.set a (some b) := by
  simp only [exec] at hx
  split_ifs at hx with h₁
  rw [hb] at hx
  simp only [Option.filter, hk, decide_true, if_true] at hx
  exact (Prod.mk.inj (Option.some.inj hx)).2.symm

/-- Nothing is stored through the null address. -/
theorem exec_store_ne {a : P} {b : B} {u : Unit}
    (hx : exec Λ t (.store a b) c h = some (u, h')) : a ≠ 0 := by
  simp only [exec] at hx
  split_ifs at hx with h₁
  exact h₁

/-- Freeing a live block takes it away; freeing the null address does nothing. -/
theorem exec_free {a : P} {u : Unit} (hb : a = 0 ∨ h.cells a ≠ none)
    (hx : exec Λ t (.free a) c h = some (u, h')) :
    h' = if a = 0 then h else h.set a none := by
  simp only [exec] at hx
  split_ifs at hx ⊢ with h₁
  · exact (Prod.mk.inj (Option.some.inj hx)).2.symm
  · obtain ⟨b, hb⟩ := Option.ne_none_iff_exists'.mp (hb.resolve_left h₁)
    rw [hb] at hx
    exact (Prod.mk.inj (Option.some.inj hx)).2.symm

/-- A block changes only where it is stored or freed. -/
theorem exec_other {o : HeapOp P B K} {r : o.Ret} {a : P} (ha : h.cells a ≠ none)
    (hstore : ∀ b, o ≠ .store a b) (hfree : o ≠ .free a)
    (hx : exec Λ t o c h = some (r, h')) : h'.cells a = h.cells a := by
  have fresh : ∀ {a' : P} {b : B}, h.cells a' = none → (h.allocate t a' b).cells a = h.cells a := by
    intro a' b ha'
    refine Heap.allocate_ne _ _ ?_ _
    rintro rfl
    exact ha ha'
  cases o with
  | alloc k n =>
      obtain ⟨-, -, ha', b, -, -, rfl⟩ := exec_alloc hx
      exact fresh ha'
  | allocNothrow k n =>
      rcases exec_allocNothrow hx with ⟨-, rfl⟩ | ⟨-, -, ha', b, -, -, rfl⟩
      · rfl
      · exact fresh ha'
  | load a' k => rw [(exec_load_any hx).2.2.1]
  | store a' b =>
      have hne : a ≠ a' := by
        rintro rfl
        exact hstore b rfl
      simp only [exec] at hx
      split_ifs at hx with h₁
      split at hx
      · rw [← (Prod.mk.inj (Option.some.inj hx)).2, Heap.set_ne _ hne]
      · rw [← (Prod.mk.inj (Option.some.inj hx)).2]
        rfl
  | free a' =>
      have hne : a ≠ a' := by
        rintro rfl
        exact hfree rfl
      simp only [exec] at hx
      split_ifs at hx with h₁
      · rw [← (Prod.mk.inj (Option.some.inj hx)).2]
      · split at hx
        · rw [← (Prod.mk.inj (Option.some.inj hx)).2, Heap.set_ne _ hne]
        · rw [← (Prod.mk.inj (Option.some.inj hx)).2]
          rfl

end Exec

/-! ## Heaps that differ within `eqv` -/

/-- The same addresses hold blocks, and these differ within `eqv`. -/
def Alike (Λ : Layout P B K) (h g : Heap P B) : Prop :=
  ∀ a, Option.Rel Λ.eqv (h.cells a) (g.cells a)

namespace Alike

variable {Λ : Layout P B K} {h g : Heap P B}

theorem isSome_eq (H : Alike Λ h g) (a : P) : (h.cells a).isSome = (g.cells a).isSome := by
  have hcell := H a
  generalize h.cells a = x at hcell ⊢
  generalize g.cells a = y at hcell ⊢
  cases hcell <;> rfl

/-- The blocks of one kind differ within `eqv` too. -/
theorem filter [DecidableEq K] (H : Alike Λ h g) (a : P) (k : K) :
    Option.Rel Λ.eqv ((h.cells a).filter fun b => Λ.kind b = k)
      ((g.cells a).filter fun b => Λ.kind b = k) := by
  have hcell := H a
  generalize h.cells a = x at hcell ⊢
  generalize g.cells a = y at hcell ⊢
  cases hcell with
  | none => exact .none
  | @some x y hxy =>
      simp only [Option.filter, Λ.kind_eq hxy]
      by_cases hk : Λ.kind y = k
      · simp only [hk, decide_true, if_true]
        exact .some hxy
      · simp only [hk, decide_false, Bool.false_eq_true, if_false]
        exact .none

variable [DecidableEq P]

/-- Blocks that differ within `eqv` are put at one address. -/
theorem update (H : Alike Λ h g) {h' g' : Heap P B} {a : P} {x y : Option B}
    (hh : h'.cells = Function.update h.cells a x) (hg : g'.cells = Function.update g.cells a y)
    (hxy : Option.Rel Λ.eqv x y) : Alike Λ h' g' := by
  intro a'
  rw [hh, hg]
  by_cases haa : a' = a
  · subst haa
    rwa [Function.update_self, Function.update_self]
  · rw [Function.update_of_ne haa, Function.update_of_ne haa]
    exact H a'

variable [Zero P] [DecidableEq K] {t : Nat} {h' : Heap P B} {c : Option (P × B)}

/-- Loads give blocks that differ within `eqv`. -/
theorem load (H : Alike Λ h g) {a : P} {k : K} {x : B}
    (hx : exec Λ t (.load a k) c h = some (x, h')) :
    ∃ y g', exec Λ t (.load a k) c g = some (y, g') ∧ Λ.eqv x y ∧ Alike Λ h' g' := by
  have hcell := H.filter a k
  simp only [exec] at hx ⊢
  split_ifs at hx ⊢ with h0
  generalize (h.cells a).filter _ = u at hx hcell
  generalize (g.cells a).filter _ = v at hcell ⊢
  cases hcell with
  | none =>
      obtain ⟨z, hz, he⟩ := Option.map_eq_some_iff.mp hx
      obtain ⟨rfl, rfl⟩ := Prod.mk.inj he
      rw [hz]
      exact ⟨z.2, g.fault t a, rfl, Λ.refl _, H⟩
  | @some x₀ y₀ hxy =>
      obtain ⟨rfl, rfl⟩ := Prod.mk.inj (Option.some.inj hx)
      exact ⟨y₀, g, rfl, hxy, H⟩

/-- So do the heaps after storing such blocks. -/
theorem store (H : Alike Λ h g) {a : P} {x y : B} {u : Unit} (hxy : Λ.eqv x y)
    (hx : exec Λ t (.store a x) c h = some (u, h')) :
    ∃ g', exec Λ t (.store a y) c g = some (u, g') ∧ Alike Λ h' g' := by
  have hcell := H.filter a (Λ.kind x)
  simp only [exec, ← Λ.kind_eq hxy] at hx ⊢
  split_ifs at hx ⊢ with h0
  generalize (h.cells a).filter _ = v at hx hcell
  generalize (g.cells a).filter _ = v' at hcell ⊢
  cases hcell with
  | none =>
      obtain ⟨rfl, rfl⟩ := Prod.mk.inj (Option.some.inj hx)
      exact ⟨g.fault t a, rfl, H⟩
  | some _ =>
      obtain ⟨rfl, rfl⟩ := Prod.mk.inj (Option.some.inj hx)
      exact ⟨g.set a (some y), rfl, H.update rfl rfl (.some hxy)⟩

/-- Every other operation gives the same. -/
theorem exec (H : Alike Λ h g) {o : HeapOp P B K} {r : o.Ret} (hload : ∀ a k, o ≠ .load a k)
    (hstore : ∀ a b, o ≠ .store a b) (hx : OwnedHeap.exec Λ t o c h = some (r, h')) :
    ∃ g', OwnedHeap.exec Λ t o c g = some (r, g') ∧ Alike Λ h' g' := by
  cases o with
  | alloc k n =>
      cases c with
      | none => exact nomatch hx
      | some z =>
          simp only [OwnedHeap.exec, H.isSome_eq] at hx ⊢
          split_ifs at hx ⊢ with h₁ h₂ h₃
          obtain ⟨rfl, rfl⟩ := Prod.mk.inj (Option.some.inj hx)
          exact ⟨_, rfl, H.update rfl rfl (.some (Λ.refl _))⟩
  | allocNothrow k n =>
      cases c with
      | none =>
          obtain ⟨rfl, rfl⟩ := Prod.mk.inj (Option.some.inj hx)
          exact ⟨g, rfl, H⟩
      | some z =>
          simp only [OwnedHeap.exec, H.isSome_eq] at hx ⊢
          split_ifs at hx ⊢ with h₁ h₂ h₃
          obtain ⟨rfl, rfl⟩ := Prod.mk.inj (Option.some.inj hx)
          exact ⟨_, rfl, H.update rfl rfl (.some (Λ.refl _))⟩
  | load a k => exact absurd rfl (hload a k)
  | store a b => exact absurd rfl (hstore a b)
  | free a =>
      have hcell := H a
      simp only [OwnedHeap.exec] at hx ⊢
      split_ifs at hx ⊢ with h0
      · obtain ⟨-, rfl⟩ := Prod.mk.inj (Option.some.inj hx)
        exact ⟨g, rfl, H⟩
      generalize h.cells a = u at hx hcell
      generalize g.cells a = v at hcell ⊢
      cases hcell with
      | none =>
          obtain ⟨-, rfl⟩ := Prod.mk.inj (Option.some.inj hx)
          exact ⟨g.fault t a, rfl, H⟩
      | some _ =>
          obtain ⟨-, rfl⟩ := Prod.mk.inj (Option.some.inj hx)
          exact ⟨g.set a none, rfl, H.update rfl rfl .none⟩

end Alike

/-! ## What a thread knows -/

/-- What an operation asks of the thread that performs it: access only to
    blocks it holds, or through the null address. -/
def HeapOp.pre (Λ : Layout P B K) [Zero P] : HeapOp P B K → (P → Option B) → Prop
  | .alloc .., _ => True
  | .allocNothrow .., _ => True
  | .load a k, own => a = 0 ∨ ∃ b, own a = some b ∧ Λ.kind b = k
  | .store a b, own => a = 0 ∨ ∃ b₀, own a = some b₀ ∧ Λ.kind b₀ = Λ.kind b
  | .free a, own => a = 0 ∨ own a ≠ none

/-- The addresses allocation may return, and what the thread then holds. -/
def Fresh (Λ : Layout P B K) [DecidableEq P] [Zero P] (k : K) (n : Nat)
    (own : P → Option B) (a : P) (own' : P → Option B) : Prop :=
  a ≠ 0 ∧ Λ.address a = true ∧ own a = none ∧
    ∃ b, Λ.kind b = k ∧ Λ.size b = n ∧ own' = Function.update own a (some b)

/-- What the thread knows afterwards. -/
def HeapOp.post (Λ : Layout P B K) [DecidableEq P] [Zero P] :
    (o : HeapOp P B K) → (P → Option B) → o.Ret → (P → Option B) → Prop
  | .alloc k n, own, a, own' => Fresh Λ k n own a own'
  | .allocNothrow k n, own, a, own' =>
      (a = 0 ∧ own' = own) ∨ Fresh Λ k n own a own'
  | .load a k, own, r, own' =>
      own' = own ∧ a ≠ 0 ∧ ∀ b, own a = some b → Λ.kind b = k → Λ.eqv b r
  | .store a b, own, _, own' =>
      a ≠ 0 ∧ own' = Function.update own a (some b)
  | .free a, own, _, own' =>
      own' = if a = 0 then own else Function.update own a none

/-- What the threads know is true of the heap: a block a thread knows lives,
    with the content known up to `eqv`, and is held by that thread. -/
structure Owns (Λ : Layout P B K) (h : Heap P B) (own : Nat → P → Option B) :
    Prop where
  live  : ∀ {t a b}, own t a = some b → ∃ b', h.cells a = some b' ∧ Λ.eqv b b'
  holds : ∀ {t a b}, own t a = some b → h.holder a = t

namespace Owns

variable {Λ : Layout P B K} {h : Heap P B} {own : Nat → P → Option B}

/-- Where no block lives nobody knows one. -/
theorem not_owned (H : Owns Λ h own) {a : P} (ha : h.cells a = none) (t : Nat) :
    own t a = none := by
  cases hb : own t a with
  | none => rfl
  | some b =>
      obtain ⟨b', hb', -⟩ := H.live hb
      rw [ha] at hb'
      exact nomatch hb'

/-- No block is known to two threads. -/
theorem apart (H : Owns Λ h own) {t u : Nat} {a : P} (ht : own t a ≠ none)
    (hu : own u a ≠ none) : t = u := by
  obtain ⟨b, hb⟩ := Option.ne_none_iff_exists'.mp ht
  obtain ⟨c, hc⟩ := Option.ne_none_iff_exists'.mp hu
  rw [← H.holds hb, H.holds hc]

variable [DecidableEq P]

/-- The heap changes at one address that no other thread knows: thread `t`
    knows the new block there, if there is one. -/
theorem change (H : Owns Λ h own) {h' : Heap P B} {t : Nat} {a : P}
    {b : Option B} (hcell : h'.cells a = b)
    (hother : ∀ a', a' ≠ a → h'.cells a' = h.cells a' ∧ h'.holder a' = h.holder a')
    (hholder : b ≠ none → h'.holder a = t)
    (ha : ∀ u, u ≠ t → own u a = none) :
    Owns Λ h' (Function.update own t (Function.update (own t) a b)) := by
  have hsplit : ∀ {u a' b'},
      Function.update own t (Function.update (own t) a b) u a' = some b' →
      (u = t ∧ a' = a ∧ b = some b') ∨ (a' ≠ a ∧ own u a' = some b') := by
    intro u a' b' hb'
    by_cases hu : u = t
    · subst hu
      rw [Function.update_self] at hb'
      by_cases haa : a' = a
      · subst haa
        rw [Function.update_self] at hb'
        exact Or.inl ⟨rfl, rfl, hb'⟩
      · rw [Function.update_of_ne haa] at hb'
        exact Or.inr ⟨haa, hb'⟩
    · rw [Function.update_of_ne hu] at hb'
      refine Or.inr ⟨?_, hb'⟩
      rintro rfl
      rw [ha u hu] at hb'
      exact nomatch hb'
  constructor
  · intro u a' b' hb'
    rcases hsplit hb' with ⟨rfl, rfl, rfl⟩ | ⟨hne, hb'⟩
    · exact ⟨b', hcell, Λ.refl b'⟩
    · rw [(hother a' hne).1]
      exact H.live hb'
  · intro u a' b' hb'
    rcases hsplit hb' with ⟨rfl, rfl, rfl⟩ | ⟨hne, hb'⟩
    · exact hholder (Option.some_ne_none _)
    · rw [(hother a' hne).2]
      exact H.holds hb'

/-- Fresh memory. -/
theorem allocate (H : Owns Λ h own) {t : Nat} {a : P} (ha : h.cells a = none)
    (b : B) : Owns Λ (h.allocate t a b)
      (Function.update own t (Function.update (own t) a (some b))) := by
  refine H.change (Heap.allocate_self ..) ?_ ?_ (fun u _ => H.not_owned ha u)
  · intro a' hne
    exact ⟨Heap.allocate_ne _ _ hne _, Function.update_of_ne hne ..⟩
  · intro _
    exact Function.update_self ..

/-- A thread may replace or give up a block it knows. -/
theorem set (H : Owns Λ h own) {t : Nat} {a : P} (ha : own t a ≠ none)
    (b : Option B) : Owns Λ (h.set a b)
      (Function.update own t (Function.update (own t) a b)) := by
  refine H.change (Heap.set_self ..) ?_ ?_ ?_
  · intro a' hne
    exact ⟨Heap.set_ne _ hne _, rfl⟩
  · intro _
    obtain ⟨c, hc⟩ := Option.ne_none_iff_exists'.mp ha
    exact H.holds hc
  · intro u hu
    by_contra hne
    exact hu (H.apart hne ha)

/-- Others may change a block within `eqv`. -/
theorem set_eqv (H : Owns Λ h own) {a : P} {b b' : B} (hb : h.cells a = some b)
    (he : Λ.eqv b b') : Owns Λ (h.set a (some b')) own := by
  refine ⟨?_, H.holds⟩
  intro t a' c hc
  obtain ⟨d, hd, hcd⟩ := H.live hc
  by_cases haa : a' = a
  · subst haa
    rw [hb] at hd
    obtain rfl := Option.some.inj hd
    exact ⟨b', Heap.set_self .., Λ.trans hcd he⟩
  · exact ⟨d, by rw [Heap.set_ne _ haa]; exact hd, hcd⟩

omit [DecidableEq P] in
/-- A thread may hand blocks that no other thread knows to one that knows none
    yet. -/
theorem handOver (H : Owns Λ h own) {t n : Nat} (htn : t ≠ n)
    (hn : ∀ a, own n a = none) {p : P → Bool}
    (hp : ∀ a u, p a = true → u ≠ t → own u a = none) :
    Owns Λ (h.handOver n p) (Function.update
      (Function.update own t (fun a => if p a then none else own t a))
      n (fun a => if p a then own t a else none)) := by
  have hsplit : ∀ {u a b}, Function.update
      (Function.update own t (fun a => if p a then none else own t a))
      n (fun a => if p a then own t a else none) u a = some b →
      (u = n ∧ p a = true ∧ own t a = some b) ∨
      (p a = false ∧ own u a = some b) := by
    intro u a b hb
    by_cases hun : u = n
    · subst hun
      rw [Function.update_self] at hb
      split at hb
      · next h₁ => exact Or.inl ⟨rfl, h₁, hb⟩
      · exact nomatch hb
    · rw [Function.update_of_ne hun] at hb
      by_cases hut : u = t
      · subst hut
        rw [Function.update_self] at hb
        split at hb
        · exact nomatch hb
        · next h₁ => exact Or.inr ⟨by simpa using h₁, hb⟩
      · rw [Function.update_of_ne hut] at hb
        refine Or.inr ⟨?_, hb⟩
        -- a block of a third thread is not one of those handed over
        by_contra hpa
        have hpa : p a = true := by simpa using hpa
        rw [hp a u hpa hut] at hb
        exact nomatch hb
  constructor
  · intro u a b hb
    rcases hsplit hb with ⟨-, -, hb⟩ | ⟨-, hb⟩ <;> exact H.live hb
  · intro u a b hb
    rcases hsplit hb with ⟨rfl, h₁, -⟩ | ⟨h₁, hb⟩
    · exact if_pos h₁
    · have := H.holds hb
      simpa [Heap.handOver, h₁] using this

section Sound

variable [Zero P] [DecidableEq K]

/-- Loading what is not held changes no block, but it may fault. -/
theorem load_any (H : Owns Λ h own) {t : Nat} {a : P} {k : K} {r : B}
    {c : Option (P × B)} {h' : Heap P B}
    (hx : OwnedHeap.exec Λ t (.load a k) c h = some (r, h')) :
    (HeapOp.load a k).post Λ (own t) r (own t) ∧ Owns Λ h' own
      ∧ h'.cells = h.cells ∧ h'.holder = h.holder := by
  obtain ⟨h0, -, hcells, hholder⟩ := exec_load_any hx
  refine ⟨⟨rfl, h0, ?_⟩, ⟨?_, ?_⟩, hcells, hholder⟩
  · intro b hb hk
    obtain ⟨b', hb', he⟩ := H.live hb
    obtain ⟨rfl, -⟩ := exec_load hb' ((Λ.kind_eq he).symm.trans hk) hx
    exact he
  · intro u a' b' hb'
    rw [hcells]
    exact H.live hb'
  · intro u a' b' hb'
    rw [hholder]
    exact H.holds hb'

/-- **SOUNDNESS**: a thread that keeps to the blocks it knows knows afterwards
    what `HeapOp.post` says, does not fault, and leaves the blocks of the other
    threads alone. -/
theorem exec (H : Owns Λ h own) {t : Nat} {o : HeapOp P B K} {r : o.Ret}
    {c : Option (P × B)} {h' : Heap P B} (hpre : o.pre Λ (own t))
    (hx : OwnedHeap.exec Λ t o c h = some (r, h')) :
    ∃ own', o.post Λ (own t) r own' ∧ Owns Λ h' (Function.update own t own')
      ∧ h'.faults = h.faults
      ∧ ∀ a b, h.cells a = some b → h.holder a ≠ t →
          h'.cells a = some b ∧ h'.holder a = h.holder a := by
  -- a change of an own block is none of a block of somebody else
  have frame_set : ∀ {a : P} (b : Option B), own t a ≠ none → ∀ a' b',
      h.cells a' = some b' → h.holder a' ≠ t →
      (h.set a b).cells a' = some b' ∧ (h.set a b).holder a' = h.holder a' := by
    intro a b ha a' b' hb' hne
    have haa : a' ≠ a := by
      rintro rfl
      obtain ⟨c, hc⟩ := Option.ne_none_iff_exists'.mp ha
      exact hne (H.holds hc)
    exact ⟨by rw [Heap.set_ne _ haa]; exact hb', rfl⟩
  -- a new block is not one of somebody else
  have frame_alloc : ∀ {a : P} (b : B), h.cells a = none → ∀ a' b',
      h.cells a' = some b' → h.holder a' ≠ t →
      (h.allocate t a b).cells a' = some b'
        ∧ (h.allocate t a b).holder a' = h.holder a' := by
    intro a b ha a' b' hb' _
    have haa : a' ≠ a := by
      rintro rfl
      rw [ha] at hb'
      exact nomatch hb'
    exact ⟨by rw [Heap.allocate_ne _ _ haa]; exact hb',
      Function.update_of_ne haa ..⟩
  cases o with
  | alloc k n =>
      obtain ⟨h0, hA, ha, b, hk, hs, rfl⟩ := exec_alloc hx
      exact ⟨_, ⟨h0, hA, H.not_owned ha t, b, hk, hs, rfl⟩, H.allocate ha b, rfl,
        frame_alloc b ha⟩
  | allocNothrow k n =>
      rcases exec_allocNothrow hx with ⟨h0, rfl⟩ | ⟨h0, hA, ha, b, hk, hs, rfl⟩
      · exact ⟨own t, Or.inl ⟨h0, rfl⟩, by rwa [Function.update_eq_self], rfl,
          fun a b hb _ => ⟨hb, rfl⟩⟩
      · exact ⟨_, Or.inr ⟨h0, hA, H.not_owned ha t, b, hk, hs, rfl⟩,
          H.allocate ha b, rfl, frame_alloc b ha⟩
  | load a k =>
      obtain ⟨hpost, H', hcells, hholder⟩ := H.load_any hx
      obtain ⟨b, hb, hk⟩ := hpre.resolve_left hpost.2.1
      obtain ⟨b', hb', he⟩ := H.live hb
      obtain ⟨-, rfl⟩ := exec_load hb' ((Λ.kind_eq he).symm.trans hk) hx
      exact ⟨own t, hpost, by rwa [Function.update_eq_self], rfl,
        fun a b hb _ => ⟨hb, rfl⟩⟩
  | store a b =>
      have h0 := exec_store_ne hx
      obtain ⟨b₀, hb₀, hk⟩ := hpre.resolve_left h0
      obtain ⟨b', hb', he⟩ := H.live hb₀
      have ha : own t a ≠ none := by rw [hb₀]; exact Option.some_ne_none _
      obtain rfl := exec_store hb' ((Λ.kind_eq he).symm.trans hk) hx
      exact ⟨_, ⟨h0, rfl⟩, H.set ha _, rfl, frame_set _ ha⟩
  | free a =>
      by_cases h0 : a = 0
      · obtain rfl := exec_free (Or.inl h0) hx
        rw [if_pos h0]
        exact ⟨own t, (if_pos h0).symm, by rwa [Function.update_eq_self], rfl,
          fun a b hb _ => ⟨hb, rfl⟩⟩
      · have ha : own t a ≠ none := hpre.resolve_left h0
        obtain ⟨b, hb⟩ := Option.ne_none_iff_exists'.mp ha
        obtain ⟨b', hb', -⟩ := H.live hb
        obtain rfl := exec_free
          (Or.inr (by rw [hb']; exact Option.some_ne_none _)) hx
        rw [if_neg h0]
        exact ⟨_, (if_neg h0).symm, H.set ha _, rfl, frame_set _ ha⟩

end Sound

end Owns

end OwnedHeap
