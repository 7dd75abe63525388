import Mathlib.Logic.Function.Basic

/-! # Programs as operation trees, and a proof rule for them

    A program is a tree whose nodes are the operations it performs and whose
    branches are the values those operations give back.  The tree says nothing
    about what an operation does: the same program is run against a world
    (`Runs`), interleaved with other programs, followed side by side with another
    one (`Lockstep`), or checked against an `Outline`.

    An `Outline` is a proof outline over a ghost state: `pre` is what has to
    hold where an operation is performed, `post` what may hold after it
    returned.  `wp` pushes a postcondition back through a program; `wp_bind`
    makes it compositional. -/

namespace OpProg

/-- A program over the operations `Op`; `Ret o` is what `o` gives back. -/
inductive Prog (Op : Type) (Ret : Op → Type) (α : Type) : Type where
  | ret (a : α) : Prog Op Ret α
  | call (o : Op) (k : Ret o → Prog Op Ret α) : Prog Op Ret α

variable {Op : Type} {Ret : Op → Type} {α β W G : Type}

namespace Prog

/-- Run `p`, then go on with what it returned. -/
def bind (p : Prog Op Ret α) (f : α → Prog Op Ret β) : Prog Op Ret β :=
  match p with
  | .ret a => f a
  | .call o k => .call o (fun r => (k r).bind f)

instance : Monad (Prog Op Ret) where
  pure := .ret
  bind := bind

/-- The program that performs one operation. -/
def op (o : Op) : Prog Op Ret (Ret o) := .call o .ret

@[simp] theorem pure_eq (a : α) : (pure a : Prog Op Ret α) = .ret a := rfl

@[simp] theorem bind_ret (a : α) (f : α → Prog Op Ret β) :
    (Prog.ret a >>= f) = f a := rfl

@[simp] theorem bind_call (o : Op) (k : Ret o → Prog Op Ret α)
    (f : α → Prog Op Ret β) :
    (Prog.call o k >>= f) = .call o (fun r => k r >>= f) := rfl

@[simp] theorem bind_op (o : Op) (f : Ret o → Prog Op Ret β) :
    (op o >>= f) = .call o f := rfl

theorem bind_assoc {γ : Type} (p : Prog Op Ret α) (f : α → Prog Op Ret β)
    (h : β → Prog Op Ret γ) : p >>= f >>= h = p >>= fun a => f a >>= h := by
  induction p with
  | ret a => rfl
  | call o k ih => exact congrArg (Prog.call o) (funext ih)

theorem bind_pure (p : Prog Op Ret α) : p >>= Prog.ret = p := by
  induction p with
  | ret a => rfl
  | call o k ih => exact congrArg (Prog.call o) (funext ih)

/-! ## Runs -/

/-- A run of a program: `R o w r w'` says that `o` may take the world `w` to `w'` and
    give back `r`.  The run returned `a`, and its events are the operations it
    performed, each with the value it got back. -/
inductive Runs (R : (o : Op) → W → Ret o → W → Prop) :
    Prog Op Ret α → W → List (Sigma Ret) → α → W → Prop where
  | ret (a : α) (w : W) : Runs R (.ret a) w [] a w
  | call {o : Op} {k : Ret o → Prog Op Ret α} {w w₁ w₂ : W} {r : Ret o}
      {tr : List (Sigma Ret)} {a : α} :
      R o w r w₁ → Runs R (k r) w₁ tr a w₂ → Runs R (.call o k) w (⟨o, r⟩ :: tr) a w₂

/-- A run of a sequence is a run of each part. -/
theorem Runs.bind_inv {R : (o : Op) → W → Ret o → W → Prop} {p : Prog Op Ret α}
    {f : α → Prog Op Ret β} {w w' : W} {tr : List (Sigma Ret)} {b : β}
    (h : Runs R (p >>= f) w tr b w') :
    ∃ tr₁ tr₂ a w₁, tr = tr₁ ++ tr₂ ∧ Runs R p w tr₁ a w₁ ∧ Runs R (f a) w₁ tr₂ b w' := by
  induction p generalizing w tr with
  | ret a => exact ⟨[], tr, a, w, rfl, .ret a w, h⟩
  | call o k ih =>
      cases h with
      | call hr h =>
          obtain ⟨tr₁, tr₂, a, w₁, rfl, h₁, h₂⟩ := ih _ h
          exact ⟨_ :: tr₁, tr₂, a, w₁, rfl, .call hr h₁, h₂⟩

/-- Runs of the parts make a run of the sequence. -/
theorem Runs.bind {R : (o : Op) → W → Ret o → W → Prop} {p : Prog Op Ret α}
    {f : α → Prog Op Ret β} {w w₁ w₂ : W} {tr₁ tr₂ : List (Sigma Ret)} {a : α} {b : β}
    (h₁ : Runs R p w tr₁ a w₁) (h₂ : Runs R (f a) w₁ tr₂ b w₂) :
    Runs R (p >>= f) w (tr₁ ++ tr₂) b w₂ := by
  induction h₁ with
  | ret a w => exact h₂
  | call hr _ ih => exact .call hr (ih h₂)

/-- More operations allow more runs. -/
theorem Runs.mono {R S : (o : Op) → W → Ret o → W → Prop}
    (hS : ∀ {o w r w'}, R o w r w' → S o w r w') {p : Prog Op Ret α} {w w' : W}
    {tr : List (Sigma Ret)} {a : α} (h : Runs R p w tr a w') : Runs S p w tr a w' := by
  induction h with
  | ret a w => exact .ret a w
  | call hr _ ih => exact .call (hS hr) ih

/-- A run of one operation is that operation. -/
theorem Runs.op_inv {R : (o : Op) → W → Ret o → W → Prop} {o : Op} {w w' : W}
    {tr : List (Sigma Ret)} {r : Ret o} (h : Runs R (op o) w tr r w') :
    tr = [⟨o, r⟩] ∧ R o w r w' := by
  cases h with
  | call hr h =>
      cases h
      exact ⟨rfl, hr⟩

/-- A run that has come to an operation and not performed it: the events before it, the
    operation, and the world it would act on. -/
inductive Comes (R : (o : Op) → W → Ret o → W → Prop) :
    Prog Op Ret α → W → List (Sigma Ret) → Op → W → Prop where
  | here (o : Op) (k : Ret o → Prog Op Ret α) (w : W) : Comes R (.call o k) w [] o w
  | call {o o' : Op} {k : Ret o → Prog Op Ret α} {w w₁ w₂ : W} {r : Ret o}
      {tr : List (Sigma Ret)} :
      R o w r w₁ → Comes R (k r) w₁ tr o' w₂ → Comes R (.call o k) w (⟨o, r⟩ :: tr) o' w₂

section Comes

variable {R : (o : Op) → W → Ret o → W → Prop} {o : Op} {w w' : W} {tr : List (Sigma Ret)}

/-- A program that consists of one operation comes to that one alone. -/
theorem Comes.op_inv {o' : Op} (h : Comes R (op o) w tr o' w') : tr = [] ∧ o' = o ∧ w' = w := by
  cases h with
  | here => exact ⟨rfl, rfl, rfl⟩
  | call _ h => cases h

/-- A sequence comes to the operations of its first part, and after a run of that to those
    of the second. -/
theorem Comes.bind_inv {p : Prog Op Ret α} {f : α → Prog Op Ret β}
    (h : Comes R (p >>= f) w tr o w') :
    Comes R p w tr o w' ∨ ∃ tr₁ tr₂ a w₁, tr = tr₁ ++ tr₂ ∧ Runs R p w tr₁ a w₁
      ∧ Comes R (f a) w₁ tr₂ o w' := by
  induction p generalizing w tr with
  | ret a => exact Or.inr ⟨[], tr, a, w, rfl, .ret a w, h⟩
  | call o₁ k ih =>
      cases h with
      | here => exact Or.inl (.here ..)
      | call hr h =>
          rcases ih _ h with h | ⟨tr₁, tr₂, a, w₁, rfl, h₁, h₂⟩
          · exact Or.inl (.call hr h)
          · exact Or.inr ⟨_ :: tr₁, tr₂, a, w₁, rfl, .call hr h₁, h₂⟩

/-- A run of the first part goes on with the second. -/
theorem Runs.comes {p : Prog Op Ret α} {f : α → Prog Op Ret β} {tr₁ tr₂ : List (Sigma Ret)}
    {a : α} {w₁ w₂ : W} (h₁ : Runs R p w tr₁ a w₁) (h₂ : Comes R (f a) w₁ tr₂ o w₂) :
    Comes R (p >>= f) w (tr₁ ++ tr₂) o w₂ := by
  induction h₁ with
  | ret a w => exact h₂
  | call hr _ ih => exact .call hr (ih h₂)

end Comes

/-! ## Operations a program keeps to -/

/-- Whatever the operations give back, the program performs only operations
    that satisfy `S`. -/
def Only (S : Op → Prop) : Prog Op Ret α → Prop
  | .ret _ => True
  | .call o k => S o ∧ ∀ r, Only S (k r)

@[simp] theorem only_ret (S : Op → Prop) (a : α) :
    Only S (.ret a : Prog Op Ret α) := trivial

@[simp] theorem only_call (S : Op → Prop) (o : Op)
    (k : Ret o → Prog Op Ret α) :
    Only S (.call o k) ↔ S o ∧ ∀ r, Only S (k r) := Iff.rfl

@[simp] theorem only_op (S : Op → Prop) (o : Op) :
    Only S (op o : Prog Op Ret (Ret o)) ↔ S o :=
  ⟨fun h => h.1, fun h => ⟨h, fun _ => trivial⟩⟩

/-- An operation, then the rest. -/
theorem only_op_bind {S : Op → Prop} {o : Op} {f : Ret o → Prog Op Ret β} :
    Only S (op o >>= f) ↔ S o ∧ ∀ r, Only S (f r) := Iff.rfl

theorem Only.bind {S : Op → Prop} {p : Prog Op Ret α}
    {f : α → Prog Op Ret β} (hp : Only S p) (hf : ∀ a, Only S (f a)) :
    Only S (p >>= f) := by
  induction p with
  | ret a => exact hf a
  | call o k ih => exact ⟨hp.1, fun r => ih r (hp.2 r)⟩

theorem Only.mono {S S' : Op → Prop} {p : Prog Op Ret α}
    (hp : Only S p) (h : ∀ o, S o → S' o) : Only S' p := by
  induction p with
  | ret a => trivial
  | call o k ih => exact ⟨h o hp.1, fun r => ih r (hp.2 r)⟩

/-- A run comes to no other operations. -/
theorem Only.comes {S : Op → Prop} {R : (o : Op) → W → Ret o → W → Prop}
    {p : Prog Op Ret α} (hp : Only S p) {w w' : W} {tr : List (Sigma Ret)} {o : Op}
    (h : Comes R p w tr o w') : S o := by
  induction h with
  | here => exact hp.1
  | call _ _ ih => exact ih (hp.2 _)

/-- Whatever the operations give back, the value the program returns satisfies `T`. -/
def Returns (T : α → Prop) : Prog Op Ret α → Prop
  | .ret a => T a
  | .call _ k => ∀ r, Returns T (k r)

theorem Returns.of_op {T : α → Prop} {o : Op} {f : Ret o → Prog Op Ret α}
    (h : ∀ r, Returns T (f r)) : Returns T (op o >>= f) := h

/-- So does the value that a run returns. -/
theorem Returns.run {T : α → Prop} {R : (o : Op) → W → Ret o → W → Prop} {p : Prog Op Ret α}
    (hp : Returns T p) {w w' : W} {tr : List (Sigma Ret)} {a : α} (h : Runs R p w tr a w') :
    T a := by
  induction h with
  | ret a w => exact hp
  | call _ _ ih => exact ih (hp _)

theorem returns_true (p : Prog Op Ret α) : Returns (fun _ => True) p := by
  induction p with
  | ret a => trivial
  | call o k ih => exact ih

/-- The last part of a sequence returns the value. -/
theorem Returns.bind {T : β → Prop} (p : Prog Op Ret α) {f : α → Prog Op Ret β}
    (hf : ∀ a, Returns T (f a)) : Returns T (p >>= f) := by
  induction p with
  | ret a => exact hf a
  | call o k ih => exact fun r => ih r

/-- The program performs no operation of `T` before one of `S`. -/
def HoldsOff (S T : Op → Prop) : Prog Op Ret α → Prop
  | .ret _ => True
  | .call o k => ¬ T o ∧ (S o ∨ ∀ r, HoldsOff S T (k r))

/-- After an operation that is not in `S` the rest still holds off. -/
theorem HoldsOff.rest {S T : Op → Prop} {o : Op} {k : Ret o → Prog Op Ret α}
    (h : HoldsOff S T (.call o k)) (ho : ¬ S o) (r : Ret o) : HoldsOff S T (k r) :=
  h.2.resolve_left ho r

/-! ## Programs side by side -/

/-- The two programs perform operations that `N` relates, one for one, as long as `M`
    relates the events, and then return values that `A` relates. -/
inductive Lockstep (N : Op → Op → Prop) (M : Sigma Ret → Sigma Ret → Prop)
    (A : α → β → Prop) : Prog Op Ret α → Prog Op Ret β → Prop where
  | ret {a : α} {b : β} (h : A a b) : Lockstep N M A (.ret a) (.ret b)
  | call {o o' : Op} {k : Ret o → Prog Op Ret α} {k' : Ret o' → Prog Op Ret β} (h : N o o')
      (hk : ∀ r r', M ⟨o, r⟩ ⟨o', r'⟩ → Lockstep N M A (k r) (k' r')) :
      Lockstep N M A (.call o k) (.call o' k')

namespace Lockstep

variable {N : Op → Op → Prop} {M : Sigma Ret → Sigma Ret → Prop} {A : α → β → Prop}

/-- Sequences of programs that go side by side do so. -/
theorem bind {γ δ : Type} {C : γ → δ → Prop} {p : Prog Op Ret α} {q : Prog Op Ret β}
    {f : α → Prog Op Ret γ} {g : β → Prog Op Ret δ} (h : Lockstep N M A p q)
    (hf : ∀ a b, A a b → Lockstep N M C (f a) (g b)) : Lockstep N M C (p >>= f) (q >>= g) := by
  induction h with
  | ret h => exact hf _ _ h
  | call h _ ih => exact .call h fun r r' hr => ih r r' hr

end Lockstep

end Prog

/-! ## Proof outlines -/

/-- A proof outline over the ghost state `G`: `pre o g` has to hold where `o`
    is performed, `post o g r g'` may hold after it gave back `r`. -/
structure Outline (Op : Type) (Ret : Op → Type) (G : Type) where
  pre  : Op → G → Prop
  post : (o : Op) → G → Ret o → G → Prop

/-- The weakest precondition of a program under an outline. -/
def wp (O : Outline Op Ret G) : Prog Op Ret α → (α → G → Prop) → G → Prop
  | .ret a, Q => Q a
  | .call o k, Q => fun g =>
      O.pre o g ∧ ∀ r g', O.post o g r g' → wp O (k r) Q g'

section WP

variable {O : Outline Op Ret G}

@[simp] theorem wp_ret (a : α) (Q : α → G → Prop) (g : G) :
    wp O (.ret a) Q g ↔ Q a g := Iff.rfl

@[simp] theorem wp_call (o : Op) (k : Ret o → Prog Op Ret α)
    (Q : α → G → Prop) (g : G) :
    wp O (.call o k) Q g
      ↔ O.pre o g ∧ ∀ r g', O.post o g r g' → wp O (k r) Q g' := Iff.rfl

/-- An operation, then the rest. -/
theorem wp_op_bind {o : Op} {f : Ret o → Prog Op Ret β} {Q : β → G → Prop} {g : G} :
    wp O (Prog.op o >>= f) Q g
      ↔ O.pre o g ∧ ∀ r g', O.post o g r g' → wp O (f r) Q g' := Iff.rfl

/-- A stronger postcondition has a stronger precondition. -/
theorem wp_mono {p : Prog Op Ret α} {Q Q' : α → G → Prop} {g : G}
    (hQ : ∀ a g, Q a g → Q' a g) (h : wp O p Q g) : wp O p Q' g := by
  induction p generalizing g with
  | ret a => exact hQ a g h
  | call o k ih => exact ⟨h.1, fun r g' hp => ih r (h.2 r g' hp)⟩

/-- What always holds, holds after a program whose operations are always allowed. -/
theorem wp_always {p : Prog Op Ret α} {Q : α → G → Prop} (hpre : ∀ o g, O.pre o g)
    (hQ : ∀ a g, Q a g) (g : G) : wp O p Q g := by
  induction p generalizing g with
  | ret a => exact hQ a g
  | call o k ih => exact ⟨hpre o g, fun r g' _ => ih r g'⟩

/-- **SEQUENCING**: the precondition of a sequence is the precondition of its
    first part for the precondition of the rest. -/
theorem wp_bind (p : Prog Op Ret α) (f : α → Prog Op Ret β)
    (Q : β → G → Prop) (g : G) :
    wp O (p >>= f) Q g ↔ wp O p (fun a => wp O (f a) Q) g := by
  induction p generalizing g with
  | ret a => exact Iff.rfl
  | call o k ih =>
      constructor
      · rintro ⟨h₁, h₂⟩
        exact ⟨h₁, fun r g' hp => (ih r g').mp (h₂ r g' hp)⟩
      · rintro ⟨h₁, h₂⟩
        exact ⟨h₁, fun r g' hp => (ih r g').mpr (h₂ r g' hp)⟩

/-- Two postconditions that hold each hold together. -/
theorem wp_and {p : Prog Op Ret α} {Q Q' : α → G → Prop} {g : G} (h : wp O p Q g)
    (h' : wp O p Q' g) : wp O p (fun a g => Q a g ∧ Q' a g) g := by
  induction p generalizing g with
  | ret a => exact ⟨h, h'⟩
  | call o k ih => exact ⟨h.1, fun r g' hr => ih r (h.2 r g' hr) (h'.2 r g' hr)⟩

/-- A program that keeps to operations which are always allowed and leave the
    ghost state alone leaves the ghost state alone. -/
theorem wp_of_only {S : Op → Prop} {p : Prog Op Ret α} {Q : α → G → Prop}
    {g : G} (hp : p.Only S) (hpre : ∀ o, S o → O.pre o g)
    (hpost : ∀ o r g', S o → O.post o g r g' → g' = g)
    (hQ : ∀ a, Q a g) : wp O p Q g := by
  induction p with
  | ret a => exact hQ a
  | call o k ih =>
      refine ⟨hpre o hp.1, fun r g' hr => ?_⟩
      rw [hpost o r g' hp.1 hr]
      exact ih r (hp.2 r)

/-- A program keeps an invariant that all of its operations keep. -/
theorem wp_invariant {S : Op → Prop} {I : G → Prop} {p : Prog Op Ret α} {Q : α → G → Prop}
    {g : G} (hp : p.Only S) (hpre : ∀ o g, S o → I g → O.pre o g)
    (hpost : ∀ o g r g', S o → I g → O.post o g r g' → I g') (hg : I g)
    (hQ : ∀ a g, I g → Q a g) : wp O p Q g := by
  induction p generalizing g with
  | ret a => exact hQ a g hg
  | call o k ih =>
      refine ⟨hpre o g hp.1 hg, fun r g' hr => ?_⟩
      exact ih r (hp.2 r) (hpost o g r g' hp.1 hg hr)

/-- The same where something is known of the value that is returned. -/
theorem wp_invariant_returns {S : Op → Prop} {I : G → Prop} {T : α → Prop}
    {p : Prog Op Ret α} {Q : α → G → Prop} {g : G} (hp : p.Only S) (hT : p.Returns T)
    (hpre : ∀ o g, S o → I g → O.pre o g)
    (hpost : ∀ o g r g', S o → I g → O.post o g r g' → I g') (hg : I g)
    (hQ : ∀ a g, T a → I g → Q a g) : wp O p Q g := by
  induction p generalizing g with
  | ret a => exact hQ a g hT hg
  | call o k ih =>
      refine ⟨hpre o g hp.1 hg, fun r g' hr => ?_⟩
      exact ih r (hp.2 r) (hT r) (hpost o g r g' hp.1 hg hr)

/-- **HOLDING OFF**: a ghost state may lose what only the operations of `T` need, as
    long as the program performs none of them before an operation of `S`, which
    settles it anew. -/
theorem wp_holdsOff {S T : Op → Prop} {lose : G → G}
    (hpre : ∀ {o g}, ¬ T o → O.pre o g → O.pre o (lose g))
    (hS : ∀ {o g r g'}, S o → O.post o (lose g) r g' → O.post o g r g')
    (hrest : ∀ {o g r g'}, ¬ S o → O.post o (lose g) r g' → ∃ g₁, O.post o g r g₁ ∧ g' = lose g₁)
    {p : Prog Op Ret α} {Q : α → G → Prop} (hQ : ∀ {a g}, Q a g → Q a (lose g)) {g : G}
    (hp : p.HoldsOff S T) (h : wp O p Q g) : wp O p Q (lose g) := by
  induction p generalizing g with
  | ret a => exact hQ h
  | call o k ih =>
      refine ⟨hpre hp.1 h.1, fun r g' hr => ?_⟩
      by_cases ho : S o
      · exact h.2 r g' (hS ho hr)
      · obtain ⟨g₁, hpost, rfl⟩ := hrest ho hr
        exact ih r (hp.rest ho r) (h.2 r g₁ hpost)

/-- The outline always allows the operations of `S`, and they leave the ghost
    state alone. -/
structure Ignores (O : Outline Op Ret G) (S : Op → Prop) : Prop where
  pre  : ∀ {o} g, S o → O.pre o g
  post : ∀ {o g r g'}, S o → O.post o g r g' → g' = g

/-- What such a program does before the rest does not matter. -/
theorem Ignores.bind {S : Op → Prop} (I : Ignores O S) {p : Prog Op Ret α}
    (hp : p.Only S) {f : α → Prog Op Ret β} {Q : β → G → Prop} {g : G}
    (h : ∀ a, wp O (f a) Q g) : wp O (p >>= f) Q g := by
  rw [wp_bind]
  exact wp_of_only hp (fun o ho => I.pre g ho) (fun o r g' ho => I.post ho) h

/-- **RUNS MEET THE OUTLINE** when every operation takes a world and a ghost state
    that fit to a world and a ghost state that fit, as the outline says; the ghost
    state may depend on the events so far. -/
theorem runs_of_wp {R : (o : Op) → W → Ret o → W → Prop} {O : Outline Op Ret G}
    {F : W → List (Sigma Ret) → G → Prop}
    (hO : ∀ {o w tr g r w'}, F w tr g → O.pre o g → R o w r w' →
      ∃ g', O.post o g r g' ∧ F w' (tr ++ [⟨o, r⟩]) g')
    {p : Prog Op Ret α} {Q : α → G → Prop} {w w' : W} {tr : List (Sigma Ret)} {g : G} {a : α}
    (tr₀ : List (Sigma Ret)) (h : wp O p Q g) (hg : F w tr₀ g) (hr : p.Runs R w tr a w') :
    ∃ g', Q a g' ∧ F w' (tr₀ ++ tr) g' := by
  induction hr generalizing tr₀ g with
  | ret a w =>
      rw [List.append_nil]
      exact ⟨g, h, hg⟩
  | @call o k w w₁ w₂ r tr a hr _ ih =>
      obtain ⟨g₁, hpost, hg₁⟩ := hO hg h.1 hr
      have := ih (tr₀ ++ [⟨o, r⟩]) (h.2 r g₁ hpost) hg₁
      rwa [List.append_assoc] at this

/-- **OPERATIONS ARE ALLOWED** where a run comes to them. -/
theorem comes_of_wp {R : (o : Op) → W → Ret o → W → Prop} {O : Outline Op Ret G}
    {F : W → List (Sigma Ret) → G → Prop}
    (hO : ∀ {o w tr g r w'}, F w tr g → O.pre o g → R o w r w' →
      ∃ g', O.post o g r g' ∧ F w' (tr ++ [⟨o, r⟩]) g')
    {p : Prog Op Ret α} {Q : α → G → Prop} {w w' : W} {tr : List (Sigma Ret)} {g : G} {o : Op}
    (tr₀ : List (Sigma Ret)) (h : wp O p Q g) (hg : F w tr₀ g) (hc : p.Comes R w tr o w') :
    ∃ g', O.pre o g' ∧ F w' (tr₀ ++ tr) g' := by
  induction hc generalizing tr₀ g with
  | here o k w =>
      rw [List.append_nil]
      exact ⟨g, h.1, hg⟩
  | @call o o' k w w₁ w₂ r tr hr _ ih =>
      obtain ⟨g₁, hpost, hg₁⟩ := hO hg h.1 hr
      have := ih (tr₀ ++ [⟨o, r⟩]) (h.2 r g₁ hpost) hg₁
      rwa [List.append_assoc] at this

/-! ### Records -/

/-- The outline of a record: every event that may happen is added to it. -/
def Outline.record (ok : Sigma Ret → Prop) (add : G → Sigma Ret → G) : Outline Op Ret G where
  pre _ _ := True
  post o g r g' := ok ⟨o, r⟩ ∧ g' = add g ⟨o, r⟩

/-- The record of the events so far goes on with the next one. -/
theorem record_step {ok : Sigma Ret → Prop} {add : G → Sigma Ret → G} {g₀ g : G}
    {tr : List (Sigma Ret)} {o : Op} {r : Ret o} (hr : ok ⟨o, r⟩) (hg : g = tr.foldl add g₀) :
    ∃ g', (Outline.record ok add).post o g r g'
      ∧ g' = (tr ++ [(⟨o, r⟩ : Sigma Ret)]).foldl add g₀ := by
  refine ⟨_, ⟨hr, rfl⟩, ?_⟩
  rw [hg, List.foldl_append]
  rfl

/-- **A RECORD** of a run is what its outline says. -/
theorem record_sound {R : (o : Op) → W → Ret o → W → Prop} {ok : Sigma Ret → Prop}
    {add : G → Sigma Ret → G} (hok : ∀ {o w r w'}, R o w r w' → ok ⟨o, r⟩)
    {p : Prog Op Ret α} {Q : α → G → Prop} {g₀ : G} {w w' : W} {tr : List (Sigma Ret)} {a : α}
    (h : wp (.record ok add) p Q g₀) (hr : p.Runs R w tr a w') : Q a (tr.foldl add g₀) := by
  obtain ⟨g, hQ, rfl⟩ := runs_of_wp (F := fun _ tr g => g = tr.foldl add g₀)
    (fun hg _ hx => record_step (hok hx) hg) [] h rfl hr
  exact hQ

/-! ### An outline with a record -/

/-- An outline together with a record of the events. -/
def Outline.recording {H : Type} (O : Outline Op Ret G) (add : H → Sigma Ret → H) :
    Outline Op Ret (G × H) where
  pre o x := O.pre o x.1
  post o x r y := O.post o x.1 r y.1 ∧ y.2 = add x.2 ⟨o, r⟩

section Recording

variable {H : Type} {add : H → Sigma Ret → H}

/-- The record fits where the outline does. -/
theorem recording_step {R : (o : Op) → W → Ret o → W → Prop}
    {F : W → List (Sigma Ret) → G → Prop} {h₀ : H}
    (hO : ∀ {o w tr g r w'}, F w tr g → O.pre o g → R o w r w' →
      ∃ g', O.post o g r g' ∧ F w' (tr ++ [⟨o, r⟩]) g')
    {o : Op} {w w' : W} {tr : List (Sigma Ret)} {x : G × H} {r : Ret o}
    (hx : F w tr x.1 ∧ x.2 = tr.foldl add h₀) (hpre : (O.recording add).pre o x)
    (hr : R o w r w') : ∃ y, (O.recording add).post o x r y
      ∧ F w' (tr ++ [⟨o, r⟩]) y.1 ∧ y.2 = (tr ++ [(⟨o, r⟩ : Sigma Ret)]).foldl add h₀ := by
  obtain ⟨g', hpost, hg'⟩ := hO hx.1 hpre hr
  refine ⟨(g', add x.2 ⟨o, r⟩), ⟨hpost, rfl⟩, hg', ?_⟩
  rw [hx.2, List.foldl_append]
  rfl

/-- A program whose events are not recorded is a program of the outline. -/
theorem recording_keep {S : Op → Prop} (hS : ∀ {o r h}, S o → add h ⟨o, r⟩ = h)
    {p : Prog Op Ret α} (hp : p.Only S) {f : α → Prog Op Ret β} {Q : β → G × H → Prop} {g : G}
    {h : H} (hw : wp O (p >>= Prog.ret) (fun a g' => wp (O.recording add) (f a) Q (g', h)) g) :
    wp (O.recording add) (p >>= f) Q (g, h) := by
  induction p generalizing g with
  | ret a => exact hw
  | call o k ih =>
      refine ⟨hw.1, ?_⟩
      rintro r ⟨g', h'⟩ ⟨hpost, rfl⟩
      rw [hS hp.1]
      exact ih r (hp.2 r) (hw.2 r g' hpost)

/-- An operation is recorded. -/
theorem recording_op {o : Op} {f : Ret o → Prog Op Ret β} {Q : β → G × H → Prop} {g : G} {h : H}
    (hw : wp O (Prog.op o >>= Prog.ret)
      (fun r g' => wp (O.recording add) (f r) Q (g', add h ⟨o, r⟩)) g) :
    wp (O.recording add) (Prog.op o >>= f) Q (g, h) := by
  refine ⟨hw.1, ?_⟩
  rintro r ⟨g', h'⟩ ⟨hpost, rfl⟩
  exact hw.2 r g' hpost

/-- The end of a program whose events are not recorded. -/
theorem recording_end {S : Op → Prop} (hS : ∀ {o r h}, S o → add h ⟨o, r⟩ = h)
    {p : Prog Op Ret α} (hp : p.Only S) {Q : α → G × H → Prop} {g : G} {h : H}
    (hw : wp O p (fun a g' => Q a (g', h)) g) : wp (O.recording add) p Q (g, h) := by
  rw [← Prog.bind_pure p] at hw ⊢
  exact recording_keep hS hp hw

end Recording

/-! ### An outline with a guard -/

/-- An outline that allows less: an operation has to meet a guard, which may depend on a
    record of the events. -/
def Outline.guarded {H : Type} (O : Outline Op Ret G) (guard : Op → G → H → Prop)
    (add : H → Sigma Ret → H) : Outline Op Ret (G × H) where
  pre o x := O.pre o x.1 ∧ guard o x.1 x.2
  post o x r y := O.post o x.1 r y.1 ∧ y.2 = add x.2 ⟨o, r⟩

section Guarded

variable {H : Type} {guard : Op → G → H → Prop} {add : H → Sigma Ret → H}

/-- **A GUARD THAT IS MET**: a program whose operations meet the guard where `I` holds,
    which they keep, and leave the record alone, is a program of the guarded outline. -/
theorem wp_guarded {S : Op → Prop} {I : G → Prop} {h : H}
    (hguard : ∀ {o g}, S o → I g → O.pre o g → guard o g h)
    (hadd : ∀ {o g} (r : Ret o), S o → I g → O.pre o g → add h ⟨o, r⟩ = h)
    (hI : ∀ {o g r g'}, S o → I g → O.pre o g → O.post o g r g' → I g')
    {p : Prog Op Ret α} (hp : p.Only S) {Q : α → G → Prop} {Q' : α → G × H → Prop} {g : G}
    (hg : I g) (hw : wp O p Q g) (hQ : ∀ a g, I g → Q a g → Q' a (g, h)) :
    wp (O.guarded guard add) p Q' (g, h) := by
  induction p generalizing g with
  | ret a => exact hQ a g hg hw
  | call o k ih =>
      refine ⟨⟨hw.1, hguard hp.1 hg hw.1⟩, ?_⟩
      rintro r ⟨g', h'⟩ ⟨hpost, rfl⟩
      rw [hadd r hp.1 hg hw.1]
      exact ih r (hp.2 r) (hI hp.1 hg hw.1 hpost) (hw.2 r g' hpost)

/-- The first part of a program is one. -/
theorem wp_guarded_bind {S : Op → Prop} {I : G → Prop} {h : H}
    (hguard : ∀ {o g}, S o → I g → O.pre o g → guard o g h)
    (hadd : ∀ {o g} (r : Ret o), S o → I g → O.pre o g → add h ⟨o, r⟩ = h)
    (hI : ∀ {o g r g'}, S o → I g → O.pre o g → O.post o g r g' → I g')
    {p : Prog Op Ret α} (hp : p.Only S) {f : α → Prog Op Ret β} {Q : β → G × H → Prop} {g : G}
    (hg : I g)
    (hw : wp O (p >>= Prog.ret) (fun a g' => wp (O.guarded guard add) (f a) Q (g', h)) g) :
    wp (O.guarded guard add) (p >>= f) Q (g, h) := by
  rw [Prog.bind_pure] at hw
  exact (wp_bind ..).mpr (wp_guarded hguard hadd hI hp hg hw fun _ _ _ h => h)

/-- The record fits where the outline does. -/
theorem guarded_step {R : (o : Op) → W → Ret o → W → Prop} {F : W → List (Sigma Ret) → G → Prop}
    {h₀ : H}
    (hO : ∀ {o w tr g r w'}, F w tr g → O.pre o g → R o w r w' →
      ∃ g', O.post o g r g' ∧ F w' (tr ++ [⟨o, r⟩]) g')
    {o : Op} {w w' : W} {tr : List (Sigma Ret)} {x : G × H} {r : Ret o}
    (hx : F w tr x.1 ∧ x.2 = tr.foldl add h₀) (hpre : (O.guarded guard add).pre o x)
    (hr : R o w r w') : ∃ y, (O.guarded guard add).post o x r y
      ∧ F w' (tr ++ [⟨o, r⟩]) y.1 ∧ y.2 = (tr ++ [(⟨o, r⟩ : Sigma Ret)]).foldl add h₀ :=
  recording_step hO hx hpre.1 hr

end Guarded

/-! ### An outline of a dialogue -/

/-- An outline that allows less and promises more: an operation has to meet a guard, and what
    it gives back fits what is known, a record of the events included. -/
def Outline.dialogue {H : Type} (O : Outline Op Ret G) (guard : Op → G × H → Prop)
    (fits : G × H → Sigma Ret → Prop) (add : H → Sigma Ret → H) : Outline Op Ret (G × H) where
  pre o x := O.pre o x.1 ∧ guard o x
  post o x r y := O.post o x.1 r y.1 ∧ fits x ⟨o, r⟩ ∧ y.2 = add x.2 ⟨o, r⟩

section Dialogue

variable {H : Type} {guard : Op → G × H → Prop} {fits : G × H → Sigma Ret → Prop}
  {add : H → Sigma Ret → H} {S : Op → Prop} {Q : β → G × H → Prop} {g : G} {h : H}

/-- A program whose events are no part of the dialogue is a program of the outline. -/
theorem dialogue_keep (hguard : ∀ {o x}, S o → guard o x)
    (hS : ∀ {o r h}, S o → add h ⟨o, r⟩ = h) {p : Prog Op Ret α} (hp : p.Only S)
    {f : α → Prog Op Ret β}
    (hw : wp O (p >>= Prog.ret) (fun a g' => wp (O.dialogue guard fits add) (f a) Q (g', h)) g) :
    wp (O.dialogue guard fits add) (p >>= f) Q (g, h) := by
  induction p generalizing g with
  | ret a => exact hw
  | call o k ih =>
      refine ⟨⟨hw.1, hguard hp.1⟩, ?_⟩
      rintro r ⟨g', h'⟩ ⟨hpost, -, rfl⟩
      rw [hS hp.1]
      exact ih r (hp.2 r) (hw.2 r g' hpost)

/-- An operation that is a part of it. -/
theorem dialogue_op {o : Op} {f : Ret o → Prog Op Ret β} (hguard : guard o (g, h))
    (hw : wp O (Prog.op o >>= Prog.ret) (fun r g' => fits (g, h) ⟨o, r⟩ →
      wp (O.dialogue guard fits add) (f r) Q (g', add h ⟨o, r⟩)) g) :
    wp (O.dialogue guard fits add) (Prog.op o >>= f) Q (g, h) := by
  refine ⟨⟨hw.1, hguard⟩, ?_⟩
  rintro r ⟨g', h'⟩ ⟨hpost, hfits, rfl⟩
  exact hw.2 r g' hpost hfits

/-- The end of a program that is no part of it. -/
theorem dialogue_end (hguard : ∀ {o x}, S o → guard o x)
    (hS : ∀ {o r h}, S o → add h ⟨o, r⟩ = h) {p : Prog Op Ret β} (hp : p.Only S)
    (hw : wp O p (fun a g' => Q a (g', h)) g) :
    wp (O.dialogue guard fits add) p Q (g, h) := by
  rw [← Prog.bind_pure p] at hw ⊢
  exact dialogue_keep hguard hS hp hw

/-- The record fits where the outline does. -/
theorem dialogue_step {R : (o : Op) → W → Ret o → W → Prop}
    {F : W → List (Sigma Ret) → G → Prop} {h₀ : H}
    (hO : ∀ {o w tr g r w'}, F w tr g → O.pre o g → R o w r w' →
      ∃ g', O.post o g r g' ∧ F w' (tr ++ [⟨o, r⟩]) g')
    {o : Op} {w w' : W} {tr : List (Sigma Ret)} {x : G × H} {r : Ret o}
    (hx : F w tr x.1 ∧ x.2 = tr.foldl add h₀) (hpre : (O.dialogue guard fits add).pre o x)
    (hr : R o w r w') (hfits : fits x ⟨o, r⟩) :
    ∃ y, (O.dialogue guard fits add).post o x r y
      ∧ F w' (tr ++ [⟨o, r⟩]) y.1 ∧ y.2 = (tr ++ [(⟨o, r⟩ : Sigma Ret)]).foldl add h₀ := by
  obtain ⟨g', hpost, hg'⟩ := hO hx.1 hpre.1 hr
  refine ⟨(g', add x.2 ⟨o, r⟩), ⟨hpost, hfits, rfl⟩, hg', ?_⟩
  rw [hx.2, List.foldl_append]
  rfl

end Dialogue

end WP

end OpProg
