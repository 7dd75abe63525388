import Mathlib.Data.List.Basic
import ServiceCall.ProgProofs

/-! # Threads over a shared world

    A system of threads: each thread runs a program whose operations act on one
    shared world, one operation at a time, in any order.  A thread's program
    returns the label it goes on at, so that a loop of the source is a label
    that is entered again.  What an operation does is a function of a CHOICE,
    which stands for everything the system leaves open (the outcome of a system
    call, the address an allocation returns, the content of fresh memory); the
    environment takes steps of its own.

    `Method` is the thread-modular proof rule: each thread is checked alone
    against an outline over its own ghost state, and a global invariant ties
    the ghost states to the world.  `Method.run` packages the induction over
    runs once. -/

namespace ThreadSys

open OpProg

variable {Op : Type} {Ret : Op → Type} {L W C G : Type}

/-- A thread: the label it was started at, and what is left of its program. -/
structure Thread (Op : Type) (Ret : Op → Type) (L : Type) where
  start : L
  cur   : Prog Op Ret (Option L)

/-- The world and all threads that were ever started, in order of creation. -/
structure Config (Op : Type) (Ret : Op → Type) (L W : Type) where
  world   : W
  threads : List (Thread Op Ret L)

/-- The operation that thread `t` is about to perform. -/
def Config.next (s : Config Op Ret L W) (t : Nat) : Option Op :=
  match s.threads[t]? with
  | none => none
  | some th =>
      match th.cur with
      | .ret _ => none
      | .call o _ => some o

theorem Config.next_of_cur {s : Config Op Ret L W} {t : Nat} {th : Thread Op Ret L} {o : Op}
    {k : Ret o → Prog Op Ret (Option L)} (hth : s.threads[t]? = some th)
    (hcur : th.cur = .call o k) : s.next t = some o := by
  simp only [Config.next, hth, hcur]

theorem Config.next_eq_some {s : Config Op Ret L W} {t : Nat} {o : Op}
    (h : s.next t = some o) : ∃ th k, s.threads[t]? = some th ∧ th.cur = .call o k := by
  unfold Config.next at h
  split at h
  · exact nomatch h
  · next th hth =>
      split at h
      · exact nomatch h
      · next o' k hcur =>
          obtain rfl := Option.some.inj h
          exact ⟨th, k, hth, hcur⟩

/-- Who takes the next step, and how everything open is settled. -/
inductive Event (C : Type) where
  | thread (t : Nat) (c : C)
  | env (c : C)

/-- A system: the program at each label, the effect of an operation performed
    by thread `t` while `n` threads exist (with the label of a thread it may
    start), and the steps of the environment. -/
structure Sys (Op : Type) (Ret : Op → Type) (L W C : Type) where
  code : L → Prog Op Ret (Option L)
  exec : Nat → Nat → (o : Op) → C → W → Option (Ret o × W × Option L)
  env  : C → W → Option W

namespace Sys

variable (S : Sys Op Ret L W C)

/-- A thread about to start at a label. -/
def begin (l : L) : Thread Op Ret L := ⟨l, S.code l⟩

/-- One step: an operation, a jump to a label, or a step of the environment. -/
def step : Event C → Config Op Ret L W → Option (Config Op Ret L W)
  | .env c, s => (S.env c s.world).map fun w => { s with world := w }
  | .thread t c, s =>
      match s.threads[t]? with
      | none => none
      | some th =>
          match th.cur with
          | .ret none => none
          | .ret (some l) =>
              some { s with threads := s.threads.set t ⟨th.start, S.code l⟩ }
          | .call o k =>
              (S.exec t s.threads.length o c s.world).map fun x =>
                ⟨x.2.1, s.threads.set t ⟨th.start, k x.1⟩
                  ++ (x.2.2.map S.begin).toList⟩

/-- Take the listed steps, as long as each is allowed. -/
def runIf (ok : Config Op Ret L W → Event C → Bool) :
    List (Event C) → Config Op Ret L W → Option (Config Op Ret L W)
  | [], s => some s
  | e :: es, s =>
      if ok s e then (S.step e s).bind (runIf ok es) else none

/-- The states that runs reach from `s` when every step satisfies `cond`. -/
inductive Run (cond : Config Op Ret L W → Event C → Prop)
    (s : Config Op Ret L W) : Config Op Ret L W → Prop where
  | refl : Run cond s s
  | step {s₁ s₂ : Config Op Ret L W} (e : Event C) :
      Run cond s s₁ → cond s₁ e → S.step e s₁ = some s₂ → Run cond s s₂

variable {S}

theorem Run.trans {cond : Config Op Ret L W → Event C → Prop}
    {s₁ s₂ s₃ : Config Op Ret L W} (h₁ : S.Run cond s₁ s₂)
    (h₂ : S.Run cond s₂ s₃) : S.Run cond s₁ s₃ := by
  induction h₂ with
  | refl => exact h₁
  | step e _ hc hs ih => exact .step e ih hc hs

theorem Run.mono {cond cond' : Config Op Ret L W → Event C → Prop}
    (h : ∀ s e, cond s e → cond' s e) {s₁ s₂ : Config Op Ret L W}
    (hr : S.Run cond s₁ s₂) : S.Run cond' s₁ s₂ := by
  induction hr with
  | refl => exact .refl
  | step e _ hc hs ih => exact .step e ih (h _ _ hc) hs

/-- A computed run is a run. -/
theorem run_of_runIf {cond : Config Op Ret L W → Event C → Prop}
    {ok : Config Op Ret L W → Event C → Bool}
    (hok : ∀ s e, ok s e = true → cond s e) {es : List (Event C)}
    {s s' : Config Op Ret L W} (h : S.runIf ok es s = some s') :
    S.Run cond s s' := by
  induction es generalizing s with
  | nil =>
      rw [show s = s' from Option.some.inj h]
      exact .refl
  | cons e es ih =>
      simp only [runIf] at h
      split at h
      · next hok' =>
          obtain ⟨s₁, hs₁, hr⟩ := Option.bind_eq_some_iff.mp h
          exact (Run.step e .refl (hok s e hok') hs₁).trans (ih hr)
      · exact nomatch h

/-- Everything a step can be. -/
theorem step_cases {e : Event C} {s s' : Config Op Ret L W}
    (h : S.step e s = some s') :
    (∃ c w, e = .env c ∧ S.env c s.world = some w
      ∧ s' = { s with world := w }) ∨
    (∃ t c th l, e = .thread t c ∧ s.threads[t]? = some th
      ∧ th.cur = .ret (some l)
      ∧ s' = { s with threads := s.threads.set t ⟨th.start, S.code l⟩ }) ∨
    (∃ t c th o k r w sp, e = .thread t c ∧ s.threads[t]? = some th
      ∧ th.cur = .call o k
      ∧ S.exec t s.threads.length o c s.world = some (r, w, sp)
      ∧ s' = ⟨w, s.threads.set t ⟨th.start, k r⟩
          ++ (sp.map S.begin).toList⟩) := by
  cases e with
  | env c =>
      obtain ⟨w, hw, rfl⟩ := Option.map_eq_some_iff.mp h
      exact Or.inl ⟨c, w, rfl, hw, rfl⟩
  | thread t c =>
      refine Or.inr ?_
      simp only [step] at h
      split at h
      · exact nomatch h
      · next th hth =>
          split at h
          · exact nomatch h
          · next l hcur =>
              exact Or.inl ⟨t, c, th, l, rfl, hth, hcur,
                (Option.some.inj h).symm⟩
          · next o k hcur =>
              obtain ⟨⟨r, w, sp⟩, hx, rfl⟩ := Option.map_eq_some_iff.mp h
              exact Or.inr ⟨t, c, th, o, k, r, w, sp, rfl, hth, hcur, hx, rfl⟩

end Sys

/-! ## One thread from label to label -/

/-- A thread goes from label to label; where it ends there is none. -/
inductive Walks (code : L → Prog Op Ret (Option L)) (R : (o : Op) → W → Ret o → W → Prop) :
    Option L → W → List (Sigma Ret) → Option L → W → Prop where
  | refl (l : Option L) (w : W) : Walks code R l w [] l w
  | step {l : L} {l₁ l₂ : Option L} {w w₁ w₂ : W} {tr₁ tr₂ : List (Sigma Ret)} :
      (code l).Runs R w tr₁ l₁ w₁ → Walks code R l₁ w₁ tr₂ l₂ w₂ →
      Walks code R (some l) w (tr₁ ++ tr₂) l₂ w₂

/-- **WHAT EVERY LABEL KEEPS** holds wherever the thread comes. -/
theorem walks_of_wp {code : L → Prog Op Ret (Option L)} {R : (o : Op) → W → Ret o → W → Prop}
    {O : Outline Op Ret G} {F : W → List (Sigma Ret) → G → Prop}
    (hO : ∀ {o w tr g r w'}, F w tr g → O.pre o g → R o w r w' →
      ∃ g', O.post o g r g' ∧ F w' (tr ++ [⟨o, r⟩]) g')
    {I : Option L → G → Prop} (hI : ∀ l g, I (some l) g → wp O (code l) I g)
    {l l' : Option L} {w w' : W} {tr : List (Sigma Ret)} {g : G} (tr₀ : List (Sigma Ret))
    (h : I l g) (hg : F w tr₀ g) (hr : Walks code R l w tr l' w') :
    ∃ g', I l' g' ∧ F w' (tr₀ ++ tr) g' := by
  induction hr generalizing tr₀ g with
  | refl l w =>
      rw [List.append_nil]
      exact ⟨g, h, hg⟩
  | @step l l₁ l₂ w w₁ w₂ tr₁ tr₂ hrun _ ih =>
      obtain ⟨g₁, h₁, hg₁⟩ := runs_of_wp hO tr₀ (hI l g h) hg hrun
      have := ih (tr₀ ++ tr₁) h₁ hg₁
      rwa [List.append_assoc] at this

/-- A walk goes on at the label it came to. -/
theorem Walks.snoc {code : L → Prog Op Ret (Option L)} {R : (o : Op) → W → Ret o → W → Prop}
    {l : Option L} {l₁ : L} {l₂ : Option L} {w w₁ w₂ : W} {tr₁ tr₂ : List (Sigma Ret)}
    (h : Walks code R l w tr₁ (some l₁) w₁) (hr : (code l₁).Runs R w₁ tr₂ l₂ w₂) :
    Walks code R l w (tr₁ ++ tr₂) l₂ w₂ := by
  generalize he : some l₁ = l' at h
  induction h with
  | refl l w =>
      subst he
      have hw := Walks.step hr (.refl l₂ w₂)
      rwa [List.append_nil] at hw
  | step hr' _ ih =>
      rw [List.append_assoc]
      exact .step hr' (ih hr he)

/-! ## One thread of a run -/

/-- Thread `t` performs no operation in the step. -/
def Sys.Other (t : Nat) (s : Config Op Ret L W) (e : Event C) : Prop :=
  ∀ c, e = .thread t c → s.next t = none

/-- A run from `s` in which thread `t` performs the operations `tr`. -/
inductive Sys.Follows (S : Sys Op Ret L W C) (cond : Config Op Ret L W → Event C → Prop) (t : Nat)
    (s : Config Op Ret L W) : List (Sigma Ret) → Config Op Ret L W → Prop where
  | refl : Follows S cond t s [] s
  | other {tr : List (Sigma Ret)} {s₁ s₂ : Config Op Ret L W} {e : Event C} :
      Follows S cond t s tr s₁ → cond s₁ e → S.step e s₁ = some s₂ → Other t s₁ e →
      Follows S cond t s tr s₂
  | own {tr : List (Sigma Ret)} {s₁ s₂ : Config Op Ret L W} {c : C} {o : Op} {r : Ret o} {w : W}
      {sp : Option L} :
      Follows S cond t s tr s₁ → cond s₁ (.thread t c) → s₁.next t = some o →
      S.exec t s₁.threads.length o c s₁.world = some (r, w, sp) →
      S.step (.thread t c) s₁ = some s₂ → Follows S cond t s (tr ++ [⟨o, r⟩]) s₂

section Follows

variable {S : Sys Op Ret L W C} {cond : Config Op Ret L W → Event C → Prop} {t : Nat}
  {s s' : Config Op Ret L W} {tr : List (Sigma Ret)}

theorem Sys.Follows.run (h : S.Follows cond t s tr s') : S.Run cond s s' := by
  induction h with
  | refl => exact .refl
  | other _ hc hs _ ih => exact .step _ ih hc hs
  | own _ hc _ _ hs ih => exact .step _ ih hc hs

/-- Every run is one in which thread `t` performs some operations. -/
theorem Sys.Run.follows (t : Nat) (h : S.Run cond s s') : ∃ tr, S.Follows cond t s tr s' := by
  induction h with
  | refl => exact ⟨[], .refl⟩
  | step e _ hc hs ih =>
      obtain ⟨tr, ih⟩ := ih
      rcases Sys.step_cases hs with
        ⟨c, w, rfl, -⟩ | ⟨u, c, th, l, rfl, hth, hcur, -⟩ |
        ⟨u, c, th, o, k, r, w, sp, rfl, hth, hcur, hx, -⟩
      · exact ⟨tr, .other ih hc hs fun c h => by cases h⟩
      · refine ⟨tr, .other ih hc hs ?_⟩
        rintro c ⟨rfl⟩
        simp only [Config.next, hth, hcur]
      · by_cases hu : u = t
        · subst hu
          exact ⟨_, .own ih hc (Config.next_of_cur hth hcur) hx hs⟩
        · refine ⟨tr, .other ih hc hs ?_⟩
          rintro c ⟨rfl⟩
          exact absurd rfl hu

/-- **ONE THREAD OF A RUN** goes from label to label, as if alone: what the others do
    between two of its operations is a relation `E`, which its operations absorb. -/
theorem Sys.Follows.walks {I : Config Op Ret L W → Prop} {E : W → W → Prop}
    {R : (o : Op) → W → Ret o → W → Prop} (hrefl : ∀ w, E w w)
    (htrans : ∀ {w w₁ w₂}, E w w₁ → E w₁ w₂ → E w w₂)
    (habsorb : ∀ {o w w₁ r w'}, E w w₁ → R o w₁ r w' → R o w r w')
    (hI : ∀ {s₁ s₂ e}, I s₁ → cond s₁ e → S.step e s₁ = some s₂ → I s₂)
    (hother : ∀ {s₁ s₂ e}, I s₁ → cond s₁ e → S.step e s₁ = some s₂ → Sys.Other t s₁ e →
      E s₁.world s₂.world)
    (hown : ∀ {s₁ : Config Op Ret L W} {c o r w sp}, I s₁ → cond s₁ (.thread t c) →
      s₁.next t = some o → S.exec t s₁.threads.length o c s₁.world = some (r, w, sp) →
      R o s₁.world r w)
    (hs : I s) {th : Thread Op Ret L} {l : L} (hth : s.threads[t]? = some th)
    (hcur : th.cur = S.code l) (h : S.Follows cond t s tr s') :
    I s' ∧ ∃ th' w, s'.threads[t]? = some th' ∧ E w s'.world
      ∧ ∀ a tr' w', th'.cur.Runs R w tr' a w' →
        Walks S.code R (some l) s.world (tr ++ tr') a w' := by
  induction h with
  | refl =>
      refine ⟨hs, th, s.world, hth, hrefl _, ?_⟩
      intro a tr' w' hr
      rw [hcur] at hr
      exact Walks.snoc (.refl _ _) hr
  | other _ hc hstep hoth ih =>
      obtain ⟨hI₁, th', w, hth', hleft, hwalk⟩ := ih
      refine ⟨hI hI₁ hc hstep, ?_⟩
      -- what another thread does is left to this one
      have hleft := htrans hleft (hother hI₁ hc hstep hoth)
      rcases Sys.step_cases hstep with
        ⟨c, w₂, rfl, -, rfl⟩ | ⟨u, c, th₂, l₂, rfl, hth₂, hcur₂, rfl⟩ |
        ⟨u, c, th₂, o, k, r, w₂, sp, rfl, hth₂, hcur₂, -, rfl⟩
      · exact ⟨th', w, hth', hleft, hwalk⟩
      · by_cases hu : u = t
        · -- its own jump: the walk so far comes to the label
          subst hu
          obtain rfl := Option.some.inj (hth₂.symm.trans hth')
          refine ⟨⟨th₂.start, S.code l₂⟩, w, ?_, hleft, ?_⟩
          · exact List.getElem?_set_self (List.getElem?_eq_some_iff.mp hth₂).1
          · intro a tr' w' hr
            have hw := hwalk (some l₂) [] w (by rw [hcur₂]; exact .ret ..)
            rw [List.append_nil] at hw
            exact hw.snoc hr
        · refine ⟨th', w, ?_, hleft, hwalk⟩
          exact (List.getElem?_set_ne hu).trans hth'
      · have hu : u ≠ t := by
          rintro rfl
          have hnone := hoth c rfl
          rw [Config.next_of_cur hth₂ hcur₂] at hnone
          cases hnone
        refine ⟨th', w, ?_, hleft, hwalk⟩
        have ht := (List.getElem?_eq_some_iff.mp hth').1
        show (_ ++ _)[t]? = _
        rw [List.getElem?_append_left (by rw [List.length_set]; exact ht), List.getElem?_set_ne hu]
        exact hth'
  | @own tr s₁ s₂ c o r w₂ sp _ hc hn hx hstep ih =>
      obtain ⟨hI₁, th', w, hth', hleft, hwalk⟩ := ih
      refine ⟨hI hI₁ hc hstep, ?_⟩
      -- its own operation extends the walk
      obtain ⟨th₁, k, hth₁, hcur₁⟩ := Config.next_eq_some hn
      obtain rfl := Option.some.inj (hth₁.symm.trans hth')
      simp only [Sys.step, hth₁, hcur₁, hx, Option.map_some, Option.some.injEq] at hstep
      subst hstep
      refine ⟨⟨th₁.start, k r⟩, w₂, ?_, hrefl _, ?_⟩
      · have ht := (List.getElem?_eq_some_iff.mp hth₁).1
        show (_ ++ _)[t]? = _
        rw [List.getElem?_append_left (by rw [List.length_set]; exact ht),
          List.getElem?_set_self ht]
      · intro a tr' w' hr
        rw [List.append_assoc]
        refine hwalk a _ w' ?_
        rw [hcur₁]
        exact .call (habsorb hleft (hown hI₁ hc hn hx)) hr

end Follows

/-! ## The thread-modular rule -/

/-- What a thread owes where its program returns: the jump is allowed. -/
def leave (goto : L → G → Prop) : Option L → G → Prop
  | none, _ => True
  | some l, g => goto l g

/-- The ghost states after a step of thread `t` among `n` threads: `t` is in
    `g'`, and a thread that was started in the step is in `gn`. -/
def after (gs : Nat → G) (t n : Nat) (g' : G) (gn : Option G) : Nat → G :=
  match gn with
  | none => Function.update gs t g'
  | some g => Function.update (Function.update gs t g') n g

theorem after_self {gs : Nat → G} {t n : Nat} (h : t ≠ n) (g' : G)
    (gn : Option G) : after gs t n g' gn t = g' := by
  cases gn with
  | none => exact Function.update_self ..
  | some g => simp [after, h]

theorem after_ne {gs : Nat → G} {t n u : Nat} (ht : u ≠ t) (hn : u ≠ n)
    (g' : G) (gn : Option G) : after gs t n g' gn u = gs u := by
  cases gn with
  | none => exact Function.update_of_ne ht ..
  | some g => simp [after, ht, hn]

theorem after_new (gs : Nat → G) (t n : Nat) (g' g : G) :
    after gs t n g' (some g) n = g := Function.update_self ..

/-- A property of the ghost states after a step, thread by thread. -/
theorem after_forall {P : Nat → G → Prop} {gs : Nat → G} {t n : Nat} {g' : G} {gn : Option G}
    (h : ∀ u, u ≠ t → P u (gs u)) (ht : P t g') (hn : ∀ g ∈ gn, P n g) (u : Nat) :
    P u (after gs t n g' gn u) := by
  have hupdate : P u (Function.update gs t g' u) := by
    by_cases hut : u = t
    · subst hut
      rw [Function.update_self]
      exact ht
    · rw [Function.update_of_ne hut]
      exact h u hut
  cases gn with
  | none => exact hupdate
  | some g =>
      by_cases hun : u = n
      · subst hun
        rw [after_new]
        exact hn g rfl
      · simp only [after]
        rw [Function.update_of_ne hun]
        exact hupdate

/-- Whose ghost state it is that a thread has after a step. -/
theorem after_cases (gs : Nat → G) (t n : Nat) (g' : G) (gn : Option G) (u : Nat) :
    (u ≠ t ∧ (u ≠ n ∨ gn = none) ∧ after gs t n g' gn u = gs u)
      ∨ (u = t ∧ after gs t n g' gn u = g')
      ∨ (u = n ∧ ∃ g ∈ gn, after gs t n g' gn u = g) := by
  cases gn with
  | none =>
      by_cases hu : u = t
      · rw [hu]
        exact Or.inr (Or.inl ⟨rfl, Function.update_self ..⟩)
      · exact Or.inl ⟨hu, Or.inr rfl, Function.update_of_ne hu ..⟩
  | some g =>
      by_cases hn : u = n
      · rw [hn]
        exact Or.inr (Or.inr ⟨rfl, g, rfl, after_new ..⟩)
      · by_cases hu : u = t
        · rw [hu] at hn ⊢
          exact Or.inr (Or.inl ⟨rfl, after_self hn ..⟩)
        · exact Or.inl ⟨hu, Or.inl hn, after_ne hu hn ..⟩

/-- A part of the ghost states after a step. -/
theorem comp_after {H : Type} (f : G → H) (gs : Nat → G) (t n : Nat) (g' : G) (gn : Option G) :
    f ∘ after gs t n g' gn = after (f ∘ gs) t n (f g') (gn.map f) := by
  cases gn with
  | none => exact Function.comp_update f gs t g'
  | some g =>
      show f ∘ Function.update (Function.update gs t g') n g = _
      rw [Function.comp_update, Function.comp_update]
      rfl

/-- The proof rule for runs whose steps satisfy `cond`.  Only threads started
    at an `active` label take steps in such runs.

    * `code`: from a ghost state in which a label may be entered, the program
      at that label meets the outline;
    * `jump`, `op`, `env`: the global invariant `J` survives each kind of step,
      with a ghost state for the thread that moved that the outline allows. -/
structure Method (S : Sys Op Ret L W C) (O : Outline Op Ret G)
    (entry goto : L → G → Prop) (J : Nat → W → (Nat → G) → Prop)
    (active : L → Prop) (cond : Config Op Ret L W → Event C → Prop) : Prop where
  steps : ∀ {s t c th}, cond s (.thread t c) → s.threads[t]? = some th →
    active th.start
  code : ∀ {l g}, entry l g → wp O (S.code l) (leave goto) g
  jump : ∀ {s : Config Op Ret L W} {gs t c th l},
    cond s (.thread t c) → s.threads[t]? = some th → th.cur = .ret (some l) →
    J s.threads.length s.world gs → goto l (gs t) →
    ∃ g', entry l g' ∧ J s.threads.length s.world (Function.update gs t g')
  op : ∀ {s : Config Op Ret L W} {gs t c th o k r w sp},
    cond s (.thread t c) → s.threads[t]? = some th → th.cur = .call o k →
    J s.threads.length s.world gs → O.pre o (gs t) →
    S.exec t s.threads.length o c s.world = some (r, w, sp) →
    ∃ g' gn, O.post o (gs t) r g' ∧ (gn.isSome = sp.isSome)
      ∧ (∀ l ∈ sp, ∀ g ∈ gn, active l → entry l g)
      ∧ J (s.threads.length + (sp.toList).length) w
          (after gs t s.threads.length g' gn)
  env : ∀ {s : Config Op Ret L W} {gs c w},
    cond s (.env c) → J s.threads.length s.world gs →
    S.env c s.world = some w → J s.threads.length w gs

/-- What the rule keeps: the global invariant, and for each thread that may
    step, the outline for what is left of its program. -/
def Holds (O : Outline Op Ret G) (goto : L → G → Prop)
    (J : Nat → W → (Nat → G) → Prop) (active : L → Prop)
    (s : Config Op Ret L W) (gs : Nat → G) : Prop :=
  J s.threads.length s.world gs ∧
  ∀ t th, s.threads[t]? = some th → active th.start →
    wp O th.cur (leave goto) (gs t)

section Rule

variable {S : Sys Op Ret L W C} {O : Outline Op Ret G}
  {entry goto : L → G → Prop} {J : Nat → W → (Nat → G) → Prop}
  {active : L → Prop} {cond : Config Op Ret L W → Event C → Prop}

/-- An operation keeps it, with the ghost states the outline allows. -/
theorem Method.perform (M : Method S O entry goto J active cond) {t : Nat} {c : C}
    {s : Config Op Ret L W} {gs : Nat → G} {th : Thread Op Ret L} {o : Op}
    {k : Ret o → Prog Op Ret (Option L)} {r : Ret o} {w : W} {sp : Option L}
    (hc : cond s (.thread t c)) (hth : s.threads[t]? = some th) (hcur : th.cur = .call o k)
    (hx : S.exec t s.threads.length o c s.world = some (r, w, sp))
    (h : Holds O goto J active s gs) :
    ∃ g' gn, O.post o (gs t) r g' ∧ (gn.isSome = sp.isSome)
      ∧ (∀ l ∈ sp, ∀ g ∈ gn, active l → entry l g)
      ∧ Holds O goto J active
        ⟨w, s.threads.set t ⟨th.start, k r⟩ ++ (sp.map S.begin).toList⟩
        (after gs t s.threads.length g' gn) := by
  obtain ⟨hJ, hwp⟩ := h
  have hlt : t < s.threads.length := (List.getElem?_eq_some_iff.mp hth).1
  have hact := M.steps hc hth
  have hcall := hwp t th hth hact
  rw [hcur, wp_call] at hcall
  obtain ⟨g', gn, hpost, hsome, hent, hJ'⟩ := M.op hc hth hcur hJ hcall.1 hx
  refine ⟨g', gn, hpost, hsome, hent, ?_, ?_⟩
  · have hlen : (s.threads.set t ⟨th.start, k r⟩
        ++ (sp.map S.begin).toList).length
        = s.threads.length + sp.toList.length := by
      cases sp <;> simp
    rw [hlen]
    exact hJ'
  · intro u thu hu hactu
    by_cases hul : u < s.threads.length
    · have hun : u ≠ s.threads.length := Nat.ne_of_lt hul
      rw [List.getElem?_append_left (by simpa using hul)] at hu
      by_cases hut : u = t
      · subst hut
        rw [List.getElem?_set_self hlt] at hu
        rw [after_self hun, ← Option.some.inj hu]
        exact hcall.2 r g' hpost
      · rw [List.getElem?_set_ne (Ne.symm hut)] at hu
        rw [after_ne hut hun]
        exact hwp u thu hu hactu
    · -- the thread that was started in this step
      rw [List.getElem?_append_right (by simpa using hul)] at hu
      cases sp with
      | none => simp at hu
      | some l =>
          cases gn with
          | none => exact nomatch hsome
          | some g =>
              have hidx : u - s.threads.length = 0 := by
                have := (List.getElem?_eq_some_iff.mp hu).1
                simp only [Option.map_some, Option.toList_some,
                  List.length_set, List.length_singleton] at this
                omega
              have hueq : u = s.threads.length := by omega
              subst hueq
              simp only [List.length_set, Nat.sub_self, Option.map_some,
                Option.toList_some, List.getElem?_cons_zero,
                Option.some.injEq] at hu
              subst hu
              rw [after_new]
              exact M.code (hent l rfl g rfl hactu)

/-- One step keeps it. -/
theorem Method.step (M : Method S O entry goto J active cond) {e : Event C}
    {s s' : Config Op Ret L W} {gs : Nat → G} (hc : cond s e)
    (hs : S.step e s = some s') (h : Holds O goto J active s gs) :
    ∃ gs', Holds O goto J active s' gs' := by
  rcases Sys.step_cases hs with
    ⟨c, w, rfl, hw, rfl⟩ | ⟨t, c, th, l, rfl, hth, hcur, rfl⟩ |
    ⟨t, c, th, o, k, r, w, sp, rfl, hth, hcur, hx, rfl⟩
  · have hJ := M.env hc h.1 hw
    exact ⟨gs, hJ, h.2⟩
  · -- a jump: the thread goes on at the label's program
    obtain ⟨hJ, hwp⟩ := h
    have hlt : t < s.threads.length := (List.getElem?_eq_some_iff.mp hth).1
    have hgoto : goto l (gs t) := by
      have := hwp t th hth (M.steps hc hth)
      rw [hcur] at this
      exact this
    obtain ⟨g', hent, hJ'⟩ := M.jump hc hth hcur hJ hgoto
    refine ⟨Function.update gs t g', by simpa using hJ', ?_⟩
    intro u thu hu hact
    by_cases hut : u = t
    · subst hut
      rw [List.getElem?_set_self hlt] at hu
      rw [← Option.some.inj hu, Function.update_self]
      exact M.code hent
    · rw [List.getElem?_set_ne (Ne.symm hut)] at hu
      rw [Function.update_of_ne hut]
      exact hwp u thu hu hact
  · -- an operation: the thread goes on with the value it got back
    obtain ⟨g', gn, -, -, -, h'⟩ := M.perform hc hth hcur hx h
    exact ⟨_, h'⟩

/-- **THE RULE**: a run whose steps satisfy `cond` keeps the invariant and
    every thread's outline. -/
theorem Method.run (M : Method S O entry goto J active cond)
    {s s' : Config Op Ret L W} {gs : Nat → G} (hr : S.Run cond s s')
    (h : Holds O goto J active s gs) :
    ∃ gs', Holds O goto J active s' gs' := by
  induction hr with
  | refl => exact ⟨gs, h⟩
  | step e _ hc hs ih =>
      obtain ⟨gs₁, h₁⟩ := ih
      exact M.step hc hs h₁

/-- Where a thread is about to perform an operation, the outline's
    precondition holds. -/
theorem Holds.pre {s : Config Op Ret L W} {gs : Nat → G}
    (h : Holds O goto J active s gs) {t : Nat} {th : Thread Op Ret L} {o : Op}
    {k : Ret o → Prog Op Ret (Option L)} (hth : s.threads[t]? = some th)
    (hact : active th.start) (hcur : th.cur = .call o k) : O.pre o (gs t) := by
  have := h.2 t th hth hact
  rw [hcur] at this
  exact this.1

/-- The same where every thread may step. -/
theorem Holds.pre_next {s : Config Op Ret L W} {gs : Nat → G}
    (h : Holds O goto J (fun _ => True) s gs) {t : Nat} {o : Op} (hn : s.next t = some o) :
    O.pre o (gs t) := by
  obtain ⟨th, k, hth, hcur⟩ := Config.next_eq_some hn
  exact h.pre hth trivial hcur

/-- The rule's starting point: every thread is at the beginning of a label that
    may be entered. -/
theorem holds_begin {w : W} {ls : List L} {gs : Nat → G}
    (M : Method S O entry goto J active cond) (hJ : J ls.length w gs)
    (hent : ∀ t l, ls[t]? = some l → active l → entry l (gs t)) :
    Holds O goto J active ⟨w, ls.map S.begin⟩ gs := by
  refine ⟨by simpa using hJ, ?_⟩
  intro t th hth hact
  rw [List.getElem?_map] at hth
  obtain ⟨l, hl, rfl⟩ := Option.map_eq_some_iff.mp hth
  exact M.code (hent t l hl hact)

end Rule

end ThreadSys
