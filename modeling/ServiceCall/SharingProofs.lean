import ServiceCall.OutlineProofs

/-! # What the threads know stays true

    The ghost states of all threads over one world: every block a thread knows
    lives and is held by that thread (`Known`).  `Known.op` goes through the
    operations: one that the outline allows leaves a world of which the threads
    know what `Post` says.  A thread that is started knows the blocks it is given
    (`born`), which is enough for its label.

    `method` puts this into the rule for runs.  Every result about interleavings
    adds an invariant of its own and the condition its runs meet. -/

namespace ScOwnership

open LinearMemory OwnedHeap OpProg ThreadSys ScParameter LpcMessage ScSystem
  ScServiceCall

variable {b : Build} {n t : Nat} {w w' : World b} {gs : Nat → Ghost b}

/-! ## The invariant -/

/-- What the threads know of a world with `n` threads. -/
structure Known (n : Nat) (w : World b) (gs : Nat → Ghost b) : Prop where
  owns  : Owns (layout b) w.heap fun t => (gs t).own
  null  : ∀ t, (gs t).own 0 = none
  later : ∀ t, n ≤ t → ∀ a, (gs t).own a = none

/-- What the thread knows of the addresses that can be read is so. -/
def Ghost.Sees (g : Ghost b) (w : World b) : Prop := ∀ ok, g.pages = some ok → ok = w.lpc.pages

theorem Ghost.Sees.trans {g : Ghost b} (h : g.Sees w) (he : w'.lpc.pages = w.lpc.pages) :
    g.Sees w' := fun ok hok => (h ok hok).trans he.symm

/-- The thread knows nothing that another process or thread may change. -/
structure Ghost.Blind (g : Ghost b) : Prop where
  client : g.client = none
  mine   : g.mine = none
  length : g.length = none
  ample  : g.ample = false

/-- The block a thread knows, as it lies in the heap. -/
theorem Known.live (K : Known n w gs) {a : LPVOID} {x : Block}
    (h : (gs t).own a = some x) : ∃ y, w.heap.cells a = some y ∧ x.forget = y.forget :=
  K.owns.live h

/-- A descriptor a thread knows, up to its flag. -/
theorem Known.routine (K : Known n w gs) {a : LPVOID} {r : ServiceRoutine}
    (h : (gs t).own a = some (.routine r)) :
    ∃ c, w.heap.cells a = some (.routine { r with closeEvent := c }) := by
  obtain ⟨y, hy, he⟩ := K.live h
  obtain ⟨c, rfl⟩ := forget_routine he
  exact ⟨c, hy⟩

/-- Other blocks lie there as the thread knows them. -/
theorem Known.exact (K : Known n w gs) {a : LPVOID} {x : Block}
    (h : (gs t).own a = some x) (hk : x.kind ≠ .routine) : w.heap.cells a = some x := by
  obtain ⟨y, hy, he⟩ := K.live h
  rw [hy, forget_eq hk he]

/-- What another thread knows is not at an address this one knows. -/
theorem Known.others (K : Known n w gs) {a : LPVOID} (h : (gs t).own a ≠ none) {u : Nat}
    (hu : u ≠ t) : (gs u).own a = none := by
  by_contra hne
  exact hu (K.owns.apart hne h)

theorem update_own (gs : Nat → Ghost b) (t : Nat) (g : Ghost b) :
    (fun u => (Function.update gs t g u).own)
      = Function.update (fun u => (gs u).own) t g.own := by
  funext u
  by_cases hu : u = t
  · subst hu
    rw [Function.update_self, Function.update_self]
  · rw [Function.update_of_ne hu, Function.update_of_ne hu]

/-- One thread knows something else of another heap. -/
theorem Known.update (K : Known n w gs) (ht : t < n) {g : Ghost b}
    (howns : Owns (layout b) w'.heap (Function.update (fun u => (gs u).own) t g.own))
    (hnull : g.own 0 = none) : Known n w' (Function.update gs t g) := by
  refine ⟨?_, ?_, ?_⟩
  · rw [update_own]
    exact howns
  · intro u
    by_cases hu : u = t
    · subst hu
      rw [Function.update_self]
      exact hnull
    · rw [Function.update_of_ne hu]
      exact K.null u
  · intro u hu
    rw [Function.update_of_ne (by omega)]
    exact K.later u hu

/-- The heap stays as it is, and so do the blocks the thread knows. -/
theorem Known.keep (K : Known n w gs) (ht : t < n) {g : Ghost b} (hheap : w'.heap = w.heap)
    (hown : g.own = (gs t).own) : Known n w' (Function.update gs t g) := by
  refine K.update ht ?_ ?_
  · rw [hheap, hown, Function.update_eq_self]
    exact K.owns
  · rw [hown]
    exact K.null t

/-- Somebody sets the flag of a descriptor. -/
theorem Known.mark (K : Known n w gs) {a : LPVOID} {r : ServiceRoutine}
    (hr : routineAt w.heap a = some r) : Owns (layout b) (mark w.heap a r) fun t => (gs t).own := by
  have hcell : w.heap.cells a = some (.routine r) := by
    unfold routineAt at hr
    split at hr
    · next r' hc =>
        rw [hc, Option.some.inj hr]
    · exact nomatch hr
  exact K.owns.set_eqv hcell rfl

/-- An access that fails is recorded. -/
theorem Known.fault (K : Known n w gs) (t : Nat) (a : LPVOID) :
    Owns (layout b) (w.heap.fault t a) fun t => (gs t).own := ⟨K.owns.live, K.owns.holds⟩

/-! ## Threads that are started -/

/-- The service whose descriptor lies at `d`. -/
def serves (own : Blocks) (d : LPVOID) : Option Served :=
  match own d with
  | some (.routine r) =>
      match own r.lpParameters with
      | some (.parameters p) => some ⟨d, r, p⟩
      | _ => none
  | _ => none

/-- What a thread knows that is started at a label by a thread in `g`. -/
def born (l : Label) (g : Ghost b) : Ghost b where
  own a := if a ∈ l.given g.own then g.own a else none
  self :=
    match l with
    | .waitThread d => serves g.own d
    | _ => none
  stage :=
    match l with
    | .waitThread _ => .idle
    | _ => .worker
  todo := []
  client := none
  mine := none
  pages := none
  length := none
  ample := false
  calls := []
  replies := []

theorem born_blind (l : Label) (g : Ghost b) : (born l g).Blind := ⟨rfl, rfl, rfl, rfl⟩

theorem given_waitThread {own : Blocks} {d : LPVOID} {r : ServiceRoutine}
    (h : own d = some (.routine r)) :
    (Label.waitThread d).given own = [d, r.lpParameters] := by
  simp only [Label.given, h]

theorem given_workerThread {own : Blocks} {a : LPVOID} {r : ServiceRoutine}
    (h : own a = some (.routine r)) :
    (Label.workerThread a).given own = [a, r.lm, r.lpParameters] := by
  simp only [Label.given, h]

/-- A block that is given is known to the new thread. -/
theorem born_own {l : Label} {g : Ghost b} {a : LPVOID} (h : a ∈ l.given g.own) :
    (born l g).own a = g.own a := if_pos h

/-- A new listener knows its descriptor and its list. -/
theorem entry_waitThread {g : Ghost b} {d : LPVOID}
    (h : Pre (b := b) (.createThread (.waitThread d)) g) :
    Entry (.waitThread d) (born (.waitThread d) g) := by
  obtain ⟨h0, h, lpRoutine, a, p, -, hd, ha⟩ := h
  have hgiven := given_waitThread hd
  refine ⟨rfl, ⟨d, .new h lpRoutine a, p⟩, rfl, h0, ?_, ?_⟩
  · simp only [born, serves, hd, ServiceRoutine.new, ha]
  · intro s hs
    have hs : serves g.own d = some s := hs
    simp only [serves, hd, ServiceRoutine.new, ha, Option.some.injEq] at hs
    subst hs
    constructor
    · rw [born_own (by rw [hgiven]; exact List.mem_cons_self ..)]
      exact hd
    · rw [born_own (by rw [hgiven]; exact List.mem_cons_of_mem _ (List.mem_cons_self ..))]
      exact ha

/-- A new worker knows its descriptor, the message and the list, if there is one. -/
theorem entry_workerThread {g : Ghost b} {param : LPVOID} (h : Dispatch g param) :
    Entry (.workerThread param) (born (.workerThread param) g) := by
  obtain ⟨s, m, h, h', m', lm, r, copy, size, -, -, -, -, hr, -, -, -, hlm, -, hp⟩ := h
  have hgiven := given_workerThread hr
  have hparam : param ∈ (Label.workerThread param).given g.own := by
    rw [hgiven]
    exact List.mem_cons_self ..
  have hmsg : r.lm ∈ (Label.workerThread param).given g.own := by
    rw [hgiven]
    exact List.mem_cons_of_mem _ (List.mem_cons_self ..)
  have hlist : r.lpParameters ∈ (Label.workerThread param).given g.own := by
    rw [hgiven]
    exact List.mem_cons_of_mem _ (List.mem_cons_of_mem _ (List.mem_cons_self ..))
  refine ⟨r, copy, size,
    capture (readParameters (deliver (deliver lm m) m') (callparam m.image)),
    rfl, rfl, ?_, ?_, ?_, fun x hx => nomatch hx⟩
  · rw [born_own hparam]
    exact hr
  · rw [born_own hmsg]
    exact hlm
  · generalize capture (readParameters (deliver (deliver lm m) m') (callparam m.image)) = c
      at hp ⊢
    cases c with
    | some p => exact (born_own hlist).trans hp
    | none => exact hp

/-- The label a thread is started at may be entered. -/
theorem entry_born {g : Ghost b} {l : Label} (h : Pre (b := b) (.createThread l) g) :
    Entry l (born l g) := by
  cases l with
  | waitThread d => exact entry_waitThread h
  | workerThread param => exact entry_workerThread h.1
  | _ => exact h.elim

/-- Where a label is jumped to, the label may be entered. -/
theorem entry_land {g : Ghost b} {l : Label} (h : Goto l g) : Entry l (land l g) := by
  cases l with
  | waitLoop lpService lm =>
      obtain ⟨-, s, M, size, rfl, S⟩ := h
      exact ⟨rfl, (fun h => nomatch h), s, M, size, rfl, S.at_stage .idle⟩
  | waitThread d => exact h.elim
  | workerThread param => exact h.elim
  | _ => exact h

/-! ## Operations -/

/-- What an operation gives back is not against what the thread knows besides its
    blocks; a mapping that failed has nothing left to free. -/
def Agrees (g : Ghost b) : (o : Op) → Op.Ret b o → Prop
  | .heap (.allocNothrow ..), r => g.ample = true → r ≠ (0 : LPVOID)
  | .kernel o, r => Answers g o r
  | .id .systemLpcMessageLength, r => ∀ n, g.length = some n → r = n
  | .api (.isBadReadPtr a n), r =>
      (∀ vm, g.mine = some vm → r = !Lpc.accessible vm.readable a n)
      ∧ ∀ ok, g.pages = some ok → r = !Lpc.accessible ok a n
  | .api (.isBadWritePtr a n), r =>
      ∀ vm, g.mine = some vm → r = !Lpc.accessible vm.writable a n
  | .api (.loadOwn a n), r => ∀ vm, g.mine = some vm → r = slice vm.byte a n
  | .api (.note (.mapFailed tmp i)), _ =>
      ∀ p, g.own tmp = some (.parameters p) → Harmless p i
  | _, _ => True

/-- After an operation that leaves blocks alone the thread knows the blocks it knew. -/
theorem exists_post {o : Op} (ho : Outside o) {g : Ghost b} {r : Op.Ret b o}
    (h : Agrees g o r) : ∃ g', Post o g r g' ∧ g'.own = g.own := by
  cases o with
  | heap o => exact ho.elim
  | createThread l => exact ho.elim
  | kernel o => exact ⟨_, ⟨h, rfl⟩, rfl⟩
  | loadCloseEvent a =>
      refine ⟨_, rfl, ?_⟩
      cases r <;> rfl
  | setCloseEvent a => exact ⟨_, rfl, rfl⟩
  | id o =>
      cases o with
      | systemLpcMessageLength => exact ⟨g, ⟨rfl, h⟩, rfl⟩
      | setSystemLpcMessageLength k => exact ⟨_, rfl, rfl⟩
      | _ => exact ⟨g, rfl, rfl⟩
  | api o =>
      cases o with
      | isBadReadPtr a k => exact ⟨g, ⟨rfl, h⟩, rfl⟩
      | isBadWritePtr a k => exact ⟨g, ⟨rfl, h⟩, rfl⟩
      | loadOwn a k => exact ⟨g, ⟨rfl, h⟩, rfl⟩
      | storeOwn a bytes => exact ⟨_, rfl, rfl⟩
      | note x =>
          cases x with
          | mapFailed tmp i => exact ⟨g, ⟨rfl, h⟩, rfl⟩
          | invoked lpRoutine args => exact ⟨_, rfl, rfl⟩
          | returned call status =>
              cases call <;> exact ⟨_, rfl, rfl⟩
          | _ => exact ⟨g, rfl, rfl⟩
      | _ => exact ⟨g, rfl, rfl⟩

/-- A heap operation of a thread that the outline allows. -/
theorem Known.heap (K : Known n w gs) {o : HeapOp LPVOID Block Kind} {r : o.Ret}
    {c : Option (LPVOID × Block)} {h : Heap LPVOID Block} (hpre : Pre (.heap o) (gs t))
    (hx : OwnedHeap.exec (layout b) t o c w.heap = some (r, h)) :
    ∃ own, o.post (layout b) (gs t).own r own
      ∧ Owns (layout b) h (Function.update (fun u => (gs u).own) t own) := by
  rcases hpre.1 with hpre | ⟨a, rfl, -⟩
  · obtain ⟨own, hpost, howns, -, -⟩ := K.owns.exec hpre hx
    exact ⟨own, hpost, howns⟩
  · -- the descriptor of another thread is read
    obtain ⟨hpost, howns, -, -⟩ := K.owns.load_any hx
    exact ⟨(gs t).own, hpost, by rwa [Function.update_eq_self]⟩

/-- Nobody ever holds a block at the null address. -/
theorem post_null {o : HeapOp LPVOID Block Kind} {own own' : Blocks} {r : o.Ret}
    (h : o.post (layout b) own r own') (h0 : own 0 = none) : own' 0 = none := by
  have fresh : ∀ {k m a}, Fresh (layout b) k m own a own' → own' 0 = none := by
    rintro k m a ⟨ha, -, -, x, -, -, rfl⟩
    rw [Function.update_of_ne ha.symm]
    exact h0
  cases o with
  | alloc k m => exact fresh h
  | allocNothrow k m =>
      rcases h with ⟨-, rfl⟩ | h
      · exact h0
      · exact fresh h
  | load a k =>
      rw [h.1]
      exact h0
  | store a x =>
      obtain ⟨ha, rfl⟩ := h
      rw [Function.update_of_ne ha.symm]
      exact h0
  | free a =>
      rw [show own' = _ from h]
      split
      · exact h0
      · next ha =>
          rw [Function.update_of_ne (Ne.symm ha)]
          exact h0

/-- The blocks that a new thread is given are blocks its creator knows. -/
theorem Known.given (K : Known n w gs) {l : Label} (hpre : Pre (b := b) (.createThread l) (gs t)) :
    l.given w.heap.cells = l.given (gs t).own
      ∧ ∀ a ∈ l.given (gs t).own, ∀ u, u ≠ t → (gs u).own a = none := by
  cases l with
  | waitThread d =>
      obtain ⟨-, h, lpRoutine, a, p, -, hd, ha⟩ := hpre
      obtain ⟨c, hc⟩ := K.routine hd
      rw [given_waitThread hd, given_waitThread hc]
      refine ⟨rfl, ?_⟩
      intro a' ha' u hu
      rcases List.mem_cons.mp ha' with rfl | ha'
      · exact K.others (by rw [hd]; exact Option.some_ne_none _) hu
      · obtain rfl := List.mem_singleton.mp ha'
        exact K.others (by rw [show (gs t).own _ = _ from ha]; exact Option.some_ne_none _) hu
  | workerThread param =>
      obtain ⟨⟨s, m, h, h', m', lm, r, copy, size, -, -, -, -, hr, -, -, -, hlm, -, hp⟩, -⟩ :=
        hpre
      obtain ⟨c, hc⟩ := K.routine hr
      rw [given_workerThread hr, given_workerThread hc]
      refine ⟨rfl, ?_⟩
      intro a' ha' u hu
      rcases List.mem_cons.mp ha' with rfl | ha'
      · exact K.others (by rw [hr]; exact Option.some_ne_none _) hu
      · rcases List.mem_cons.mp ha' with rfl | ha'
        · exact K.others (by rw [hlm]; exact Option.some_ne_none _) hu
        · obtain rfl := List.mem_singleton.mp ha'
          split at hp
          · exact K.others (by rw [hp]; exact Option.some_ne_none _) hu
          · rw [hp]
            exact K.null u
  | _ => exact hpre.elim

/-- A new thread takes the blocks it is given. -/
theorem Known.create (K : Known n w gs) (ht : t < n) {l : Label} {g : Ghost b}
    (hpre : Pre (b := b) (.createThread l) (gs t))
    (hheap : w'.heap = w.heap.handOver n fun a => a ∈ l.given w.heap.cells)
    (hown : g.own = fun a => if a ∈ l.given (gs t).own then none else (gs t).own a) :
    Known (n + 1) w' (after gs t n g (some (born l (gs t)))) := by
  obtain ⟨hcells, hothers⟩ := K.given hpre
  refine ⟨?_, ?_, ?_⟩
  · have hO := K.owns.handOver (n := n) (p := fun a => a ∈ l.given (gs t).own)
      (Nat.ne_of_lt ht) (K.later n le_rfl) (fun a u ha hu => hothers a (by simpa using ha) u hu)
    rw [hheap, hcells]
    simp only [after, update_own, hown]
    simpa [born] using hO
  · intro u
    by_cases hun : u = n
    · subst hun
      rw [after_new]
      simp only [born]
      split
      · exact K.null t
      · rfl
    · by_cases hut : u = t
      · subst hut
        rw [after_self hun, hown]
        simp only
        split
        · rfl
        · exact K.null u
      · rw [after_ne hut hun]
        exact K.null u
  · intro u hu
    rw [after_ne (by omega) (by omega)]
    exact K.later u (by omega)

/-- **EVERY OPERATION** that the outline allows leaves a world of which the threads
    know what the outline says. -/
theorem Known.op (K : Known n w gs) (ht : t < n) {o : Op} {c : Choice b} {r : Op.Ret b o}
    {sp : Option Label} (hpre : Pre o (gs t)) (hagree : Agrees (gs t) o r)
    (hx : exec t n o c w = some (r, w', sp)) :
    ∃ g', Post o (gs t) r g' ∧ (∀ l ∈ sp, Pre (b := b) (.createThread l) (gs t))
      ∧ Known (n + sp.toList.length) w'
        (after gs t n g' (sp.map fun l => born l (gs t))) := by
  have outside : ∀ {w₁ : World b}, Outside o → Owns (layout b) w₁.heap (fun u => (gs u).own) →
      ∃ g', Post o (gs t) r g'
        ∧ (∀ l ∈ (none : Option Label), Pre (b := b) (.createThread l) (gs t))
        ∧ Known n w₁ (Function.update gs t g') := by
    intro w₁ ho howns
    obtain ⟨g', hpost, hown⟩ := exists_post ho hagree
    refine ⟨g', hpost, nofun, K.update ht ?_ ?_⟩
    · rwa [hown, Function.update_eq_self]
    · rw [hown]
      exact K.null t
  cases o with
  | heap o =>
      obtain ⟨h, hh, rfl, rfl⟩ := exec_heap hx
      obtain ⟨own, hpost, howns⟩ := K.heap hpre hh
      refine ⟨_, ⟨⟨own, hpost, rfl⟩, ?_⟩, nofun, ?_⟩
      · cases o with
        | allocNothrow k m => exact hagree
        | _ => exact trivial
      · exact K.update ht howns (post_null hpost (K.null t))
  | createThread l =>
      rcases exec_createThread hx with ⟨rfl, rfl, rfl⟩ | ⟨tid, rfl, ⟨h0, -⟩, -, rfl⟩
      · exact ⟨_, rfl, nofun, K.keep ht rfl (by simp)⟩
      · refine ⟨_, rfl, ?_, K.create ht hpre rfl (if_neg h0)⟩
        intro l' hl'
        obtain rfl := Option.mem_some_iff.mp hl'
        exact hpre
  | kernel o =>
      obtain ⟨k, -, rfl, rfl⟩ := exec_kernel hx
      exact outside trivial K.owns
  | id o =>
      obtain ⟨s, -, rfl, rfl⟩ := exec_id hx
      exact outside trivial K.owns
  | api o =>
      obtain ⟨⟨a, m, rfl⟩, rfl⟩ := exec_api hx
      exact outside trivial K.owns
  | loadCloseEvent a =>
      obtain ⟨-, rfl, ⟨d, -, -, rfl⟩ | ⟨-, rfl⟩⟩ := exec_loadCloseEvent hx
      · exact outside trivial K.owns
      · exact outside trivial (K.fault t a)
  | setCloseEvent a =>
      obtain ⟨-, rfl, ⟨d, hd, rfl⟩ | ⟨-, rfl⟩⟩ := exec_setCloseEvent hx
      · exact outside trivial (K.mark hd)
      · exact outside trivial (K.fault t a)

/-! ## Inside a service -/

/-- The stages of listeners and workers. -/
def Stage.Inside : Stage b → Prop
  | .app => False
  | .created _ => False
  | .flagged _ => False
  | .read .. => False
  | .closed _ => False
  | _ => True

namespace Stage.Inside

theorem born (l : Label) (g : Ghost b) : (born l g).stage.Inside := by
  cases l <;> exact trivial

theorem land {l : Label} {g : Ghost b} (h : g.stage.Inside) :
    (land l g).stage.Inside := by
  cases l <;> first | exact trivial | exact h

/-- A kernel call leads from such a stage to such a stage. -/
theorem next {s : Stage b} (h : s.Inside) (o : KernelOp) (r : o.Ret b) :
    (s.next o r).Inside := by
  unfold Stage.next
  split <;> first | exact trivial | exact h.elim | exact h | (split <;> exact trivial)

/-- Only threads of the application set flags. -/
theorem not_setCloseEvent {g : Ghost b} (h : g.stage.Inside) {o : Op} (hpre : Pre o g)
    (a : LPVOID) : o ≠ .setCloseEvent a := by
  rintro rfl
  rw [show g.stage = .app from hpre.1] at h
  exact h

/-- Listeners and workers stay inside. -/
theorem after {o : Op} {g : Ghost b} {r : Op.Ret b o} (h : g.stage.Inside)
    (hpre : Pre o g) : (Stage.after g o r).Inside := by
  cases o with
  | heap o =>
      show (g.stage.seen g.own o r).Inside
      unfold Stage.seen
      split
      · split
        · next hs =>
            rw [hs] at h
            exact h.elim
        · exact h
      · exact h
  | kernel o => exact h.next o r
  | id o => exact h
  | api o =>
      cases o with
      | note x =>
          cases x with
          | returned call status =>
              -- only threads of the application get here
              cases call with
              | unregister a =>
                  rcases hpre.2 with hs | ⟨hs, -⟩ <;>
                    · rw [hs] at h
                      exact h.elim
              | _ =>
                  rw [show g.stage = .app from hpre.2] at h
                  exact h.elim
          | _ => exact h
      | _ => exact h
  | loadCloseEvent a =>
      cases r with
      | true => exact trivial
      | false => exact h
  | setCloseEvent a => exact absurd rfl (h.not_setCloseEvent hpre a)
  | createThread l =>
      cases l with
      | workerThread param => exact trivial
      | waitThread d =>
          obtain ⟨-, h', lpRoutine, a, p, hs, -⟩ := hpre
          rw [hs] at h
          exact h.elim
      | _ => exact hpre.elim

theorem post {o : Op} {g g' : Ghost b} {r : Op.Ret b o} (h : g.stage.Inside)
    (hpre : Pre o g) (hpost : Post o g r g') : g'.stage.Inside := by
  rw [hpost.fields.2.1]
  exact h.after hpre

end Stage.Inside

/-! ## What stays as it is -/

/-- An operation of one thread leaves the blocks of the others alone, but for the flag
    of a descriptor. -/
theorem Known.frame (K : Known n w gs) {o : Op} {c : Choice b} {r : Op.Ret b o}
    {sp : Option Label} (hpre : Pre o (gs t)) (hset : ∀ a, o ≠ .setCloseEvent a)
    (hx : exec t n o c w = some (r, w', sp)) {a : LPVOID} {x : Block}
    (ha : w.heap.cells a = some x) (hne : w.heap.holder a ≠ t) : w'.heap.cells a = some x := by
  cases o with
  | heap o =>
      obtain ⟨h, hh, rfl, -⟩ := exec_heap hx
      rcases hpre.1 with hp | ⟨a', rfl, -⟩
      · obtain ⟨own, -, -, -, hframe⟩ := K.owns.exec hp hh
        exact (hframe a x ha hne).1
      · show h.cells a = some x
        rw [(exec_load_any hh).2.2.1]
        exact ha
  | kernel o =>
      obtain ⟨k, -, rfl, -⟩ := exec_kernel hx
      exact ha
  | id o =>
      obtain ⟨s, -, rfl, -⟩ := exec_id hx
      exact ha
  | api o =>
      obtain ⟨⟨a, m, rfl⟩, -⟩ := exec_api hx
      exact ha
  | loadCloseEvent a' =>
      obtain ⟨-, -, ⟨d, -, -, rfl⟩ | ⟨-, rfl⟩⟩ := exec_loadCloseEvent hx
      · exact ha
      · exact ha
  | setCloseEvent a' => exact absurd rfl (hset a')
  | createThread l =>
      rcases exec_createThread hx with ⟨-, rfl, -⟩ | ⟨tid, -, -, -, rfl⟩
      · exact ha
      · exact ha

/-- An operation does not fault unless it is on the descriptor of another thread. -/
theorem Known.faults (K : Known n w gs) {o : Op} {c : Choice b} {r : Op.Ret b o}
    {sp : Option Label} (hpre : Pre o (gs t)) (hset : ∀ a, o ≠ .setCloseEvent a)
    (hload : ∀ a, o = .heap (.load a .routine) → (gs t).stage = .flagged a →
      routineAt w.heap a ≠ none)
    (hx : exec t n o c w = some (r, w', sp)) : w'.heap.faults = w.heap.faults := by
  have live : ∀ {a r}, w.heap.cells a = some (.routine r) → routineAt w.heap a = some r := by
    intro a r h
    simp only [routineAt, h]
  cases o with
  | heap o =>
      obtain ⟨h, hh, rfl, -⟩ := exec_heap hx
      rcases hpre.1 with hp | ⟨a, rfl, hs⟩
      · obtain ⟨own, -, -, hfaults, -⟩ := K.owns.exec hp hh
        exact hfaults
      · obtain ⟨d, hd⟩ := Option.ne_none_iff_exists'.mp (hload a rfl hs)
        unfold routineAt at hd
        split at hd
        · next d' hc =>
            show h.faults = w.heap.faults
            rw [(exec_load hc rfl hh).2]
        · exact nomatch hd
  | kernel o =>
      obtain ⟨k, -, rfl, -⟩ := exec_kernel hx
      rfl
  | id o =>
      obtain ⟨s, -, rfl, -⟩ := exec_id hx
      rfl
  | api o =>
      obtain ⟨⟨a, m, rfl⟩, -⟩ := exec_api hx
      rfl
  | loadCloseEvent a =>
      obtain ⟨-, s, -, -, hs⟩ := hpre
      obtain ⟨c', hc⟩ := K.routine hs
      obtain ⟨-, -, ⟨d, -, -, rfl⟩ | ⟨hd, -⟩⟩ := exec_loadCloseEvent hx
      · rfl
      · rw [live hc] at hd
        exact nomatch hd
  | setCloseEvent a => exact absurd rfl (hset a)
  | createThread l =>
      rcases exec_createThread hx with ⟨-, rfl, -⟩ | ⟨tid, -, -, -, rfl⟩
      · rfl
      · rfl

/-- A listener that is not leaving keeps its descriptor and its list as they are. -/
theorem Known.kept (K : Known n w gs) {o : Op} {c : Choice b} {r : Op.Ret b o}
    {sp : Option Label} {g : Ghost b} {s : Served} (hself : (gs t).self = some s)
    (hst : (gs t).stage ≠ .leaving) (hin : (gs t).stage.Inside) (hpre : Pre o (gs t))
    (hpost : Post o (gs t) r g) (hx : exec t n o c w = some (r, w', sp)) {a : LPVOID}
    {x : Block} (ha : a = s.address ∨ a = s.routine.lpParameters)
    (hown : (gs t).own a = some x) : g.own a = some x ∧ w'.heap.cells a = w.heap.cells a := by
  -- an operation that spares the service is about another block
  have apart : ∀ {a'}, (gs t).Spares a' → a' ≠ a := by
    intro a' hs
    obtain ⟨h₁, h₂⟩ := hs s hself hst
    rcases ha with rfl | rfl
    · exact h₁
    · exact h₂
  have hcell : w.heap.cells a ≠ none := by
    obtain ⟨y, hy, -⟩ := K.live hown
    rw [hy]
    exact Option.some_ne_none y
  -- an operation that is not about blocks
  have outside : Outside o → w'.heap.cells = w.heap.cells →
      g.own a = some x ∧ w'.heap.cells a = w.heap.cells a := by
    intro ho hw
    rw [hpost.fields.2.2.2.1 ho, hw]
    exact ⟨hown, rfl⟩
  cases o with
  | heap o =>
      obtain ⟨h, hh, rfl, -⟩ := exec_heap hx
      obtain ⟨⟨own, hown', rfl⟩, -⟩ := hpost
      have update : ∀ {a' : LPVOID} {y : Option Block}, a' ≠ a →
          Function.update (gs t).own a' y a = some x := by
        intro a' y hne
        rw [Function.update_of_ne hne.symm]
        exact hown
      have fresh : ∀ {k m a'}, Fresh (layout b) k m (gs t).own a' own → own a = some x := by
        rintro k m a' ⟨-, -, ha', y, -, -, rfl⟩
        refine update ?_
        rintro rfl
        rw [hown] at ha'
        exact nomatch ha'
      refine ⟨?_, exec_other hcell ?_ ?_ hh⟩
      · cases o with
        | alloc k m => exact fresh hown'
        | allocNothrow k m =>
            rcases hown' with ⟨-, rfl⟩ | hf
            · exact hown
            · exact fresh hf
        | load a' k =>
            rw [show own = _ from hown'.1]
            exact hown
        | store a' y =>
            rw [show own = _ from hown'.2]
            exact update (apart hpre.2)
        | free a' =>
            rw [show own = _ from hown']
            split
            · exact hown
            · exact update (apart hpre.2)
      · rintro y rfl
        exact apart hpre.2 rfl
      · rintro rfl
        exact apart hpre.2 rfl
  | kernel o =>
      obtain ⟨k, -, rfl, -⟩ := exec_kernel hx
      exact outside trivial rfl
  | id o =>
      obtain ⟨s, -, rfl, -⟩ := exec_id hx
      exact outside trivial rfl
  | api o =>
      obtain ⟨⟨a, m, rfl⟩, -⟩ := exec_api hx
      exact outside trivial rfl
  | loadCloseEvent a' =>
      obtain ⟨-, -, ⟨d, -, -, rfl⟩ | ⟨-, rfl⟩⟩ := exec_loadCloseEvent hx
      · exact outside trivial rfl
      · exact outside trivial rfl
  | setCloseEvent a' => exact absurd rfl (hin.not_setCloseEvent hpre a')
  | createThread l =>
      have hcells : w'.heap.cells = w.heap.cells := by
        rcases exec_createThread hx with ⟨-, rfl, -⟩ | ⟨tid, -, -, -, rfl⟩
        · rfl
        · rfl
      refine ⟨?_, by rw [hcells]⟩
      rw [show g = _ from hpost]
      show (if r = 0 then (gs t).own else fun a' =>
        if a' ∈ l.given (gs t).own then none else (gs t).own a') a = some x
      split
      · exact hown
      · -- what is given to a worker is not the descriptor or the list
        cases l with
        | workerThread param =>
            refine (if_neg ?_).trans hown
            intro hmem
            exact apart (hpre.2 a hmem) rfl
        | waitThread d =>
            obtain ⟨-, h', lpRoutine, a', p, hs, -⟩ := hpre
            rw [hs] at hin
            exact hin.elim
        | _ => exact hpre.elim

/-! ## Runs -/

/-- Who knows nothing of the memory of processes keeps knowing nothing. -/
theorem Ghost.Blind.post {o : Op} {g g' : Ghost b} {r : Op.Ret b o} (B : g.Blind)
    (h : Post o g r g') : g'.Blind := by
  cases o with
  | heap o =>
      obtain ⟨⟨own, -, rfl⟩, -⟩ := h
      exact ⟨B.client, B.mine, B.length, B.ample⟩
  | kernel o =>
      obtain ⟨-, rfl⟩ := h
      refine ⟨?_, B.mine, B.length, B.ample⟩
      -- no operation makes a client known
      have hclient : clientAfter g.client o r = none := by
        rw [B.client]
        cases o <;> simp [clientAfter]
      exact hclient
  | id o =>
      cases o with
      | systemLpcMessageLength =>
          obtain ⟨rfl, -⟩ := h
          exact B
      | setSystemLpcMessageLength k =>
          rw [show g' = _ from h]
          refine ⟨B.client, B.mine, ?_, B.ample⟩
          simp only [B.length, Option.map_none]
      | _ =>
          rw [show g' = g from h]
          exact B
  | api o =>
      cases o with
      | isBadReadPtr a k =>
          obtain ⟨rfl, -⟩ := h
          exact B
      | isBadWritePtr a k =>
          obtain ⟨rfl, -⟩ := h
          exact B
      | loadOwn a k =>
          obtain ⟨rfl, -⟩ := h
          exact B
      | storeOwn a bytes =>
          rw [show g' = _ from h]
          refine ⟨B.client, ?_, B.length, B.ample⟩
          simp only [B.mine, Option.map_none]
      | note x =>
          cases x with
          | mapFailed tmp i =>
              obtain ⟨rfl, -⟩ := h
              exact B
          | invoked lpRoutine args =>
              rw [show g' = _ from h]
              exact ⟨B.client, B.mine, B.length, B.ample⟩
          | returned call status =>
              rw [show g' = { g with stage := .app, todo := g.todo.tail } by cases call <;> exact h]
              exact ⟨B.client, B.mine, B.length, B.ample⟩
          | _ =>
              rw [show g' = g from h]
              exact B
      | _ =>
          rw [show g' = g from h]
          exact B
  | loadCloseEvent a =>
      rw [show g' = if r then g.at' .leaving else g from h]
      split
      · exact ⟨B.client, B.mine, B.length, B.ample⟩
      · exact B
  | setCloseEvent a =>
      rw [show g' = _ from h]
      exact ⟨B.client, B.mine, B.length, B.ample⟩
  | createThread l =>
      rw [show g' = _ from h]
      exact ⟨B.client, B.mine, B.length, B.ample⟩

/-- Where the answers of the kernel come from. -/
theorem answers_of_effect {k k' : Lpc b} {o : KernelOp} {r : o.Ret b}
    (E : k.Effect t o r k') {g : Ghost b} (hg : g.client = none) : Answers g o r := by
  cases E with
  | listened hp hq hm hrest => exact Or.inl ⟨_, rfl, hm⟩
  | notListened hst => exact Or.inr ⟨hst, rfl⟩
  | received hp hq => exact Or.inl ⟨_, rfl⟩
  | notReceived hst => exact Or.inr ⟨hst, rfl⟩
  | read | notRead | wrote | notWritten =>
      intro x hx
      rw [hg] at hx
      exact nomatch hx
  | _ => exact trivial

/-- The list and the entry of a mapping that has just failed. -/
def failing : Op → Option (LPVOID × Nat)
  | .api (.note (.mapFailed tmp i)) => some (tmp, i)
  | _ => none

/-- A mapping that fails leaves nothing behind its failing entry that would be
    freed. -/
def HarmlessAt (w : World b) (o : Op) : Prop :=
  ∀ x ∈ failing o, ∀ p ∈ ScSystem.parametersAt w.heap x.1, Harmless p x.2

instance (p : ServiceRoutineParameter) (i : Nat) : Decidable (Harmless p i) :=
  inferInstanceAs (Decidable (∀ e ∈ p.parameters.drop (i + 1), _ = false))

instance (w : World b) (o : Op) : Decidable (HarmlessAt w o) :=
  inferInstanceAs (Decidable (∀ x ∈ failing o, ∀ p ∈ ScSystem.parametersAt w.heap x.1,
    Harmless p x.2))

/-- The list a thread knows at an address. -/
theorem Known.parametersAt (K : Known n w gs) {a : LPVOID} {p : ServiceRoutineParameter}
    (h : (gs t).own a = some (.parameters p)) : parametersAt w.heap a = some p :=
  parametersAt_eq_some.mpr (K.exact h (by exact Kind.noConfusion))

/-- What the kernel answers is not against what a thread knows that knows no memory
    of processes, but which addresses can be read. -/
theorem Known.agrees (K : Known n w gs) (B : (gs t).Blind) {o : Op} {c : Choice b}
    {r : Op.Ret b o} {sp : Option Label} (hpages : (gs t).Sees w) (hharm : HarmlessAt w o)
    (hx : exec t n o c w = some (r, w', sp)) : Agrees (gs t) o r := by
  cases o with
  | heap o =>
      cases o with
      | allocNothrow k m =>
          intro h
          rw [B.ample] at h
          exact nomatch h
      | _ => exact trivial
  | kernel o =>
      obtain ⟨k, E, -, -⟩ := exec_kernel hx
      exact answers_of_effect E B.client
  | id o =>
      cases o with
      | systemLpcMessageLength =>
          intro m hm
          rw [B.length] at hm
          exact nomatch hm
      | _ => exact trivial
  | api o =>
      cases o with
      | isBadReadPtr a k =>
          refine ⟨?_, ?_⟩
          · intro vm hvm
            rw [B.mine] at hvm
            exact nomatch hvm
          · intro ok hok
            obtain rfl := hpages ok hok
            exact (congrArg Prod.fst (Option.some.inj hx)).symm
      | isBadWritePtr | loadOwn =>
          intro vm hvm
          rw [B.mine] at hvm
          exact nomatch hvm
      | note x =>
          cases x with
          | mapFailed tmp i =>
              intro p hp
              exact hharm (tmp, i) rfl p (K.parametersAt hp)
          | _ => exact trivial
      | _ => exact trivial
  | _ => exact trivial

/-- What the threads know of a world that many of them work on. -/
structure Shared (n : Nat) (w : World b) (gs : Nat → Ghost b) : Prop where
  known : Known n w gs
  blind : ∀ t, (gs t).Blind
  sees  : ∀ t, (gs t).Sees w

/-- The ghost states after an operation. -/
theorem Shared.after (H : Shared n w gs) {o : Op} {r : Op.Ret b o} {g : Ghost b}
    {sp : Option Label} {m : Nat} (hpost : Post o (gs t) r g)
    (hpages : w'.lpc.pages = w.lpc.pages)
    (K : Known m w' (after gs t n g (sp.map fun l => born l (gs t)))) :
    Shared m w' (ThreadSys.after gs t n g (sp.map fun l => born l (gs t))) := by
  have hnew : ∀ g' ∈ sp.map fun l => born l (gs t), g'.Blind ∧ g'.pages = none := by
    intro g' hg'
    obtain ⟨l, -, rfl⟩ := Option.map_eq_some_iff.mp hg'
    exact ⟨born_blind l _, rfl⟩
  refine ⟨K, after_forall (P := fun _ (g : Ghost b) => g.Blind) (fun u _ => H.blind u)
    ((H.blind t).post hpost) fun g' hg' => (hnew g' hg').1,
    after_forall (P := fun _ (g : Ghost b) => g.Sees w') ?_ ?_ ?_⟩
  · intro u _
    exact (H.sees u).trans hpages
  · intro ok hok
    rw [hpost.fields.2.2.2.2] at hok
    exact (H.sees t).trans hpages ok hok
  · intro g' hg' ok hok
    rw [(hnew g' hg').2] at hok
    exact nomatch hok

/-- A jump changes the stage at most. -/
theorem Shared.land (H : Shared n w gs) (ht : t < n) (l : Label) :
    Shared n w (Function.update gs t (land l (gs t))) := by
  have hown : (ScOwnership.land l (gs t)).own = (gs t).own := by cases l <;> rfl
  have hpages : (ScOwnership.land l (gs t)).pages = (gs t).pages := by cases l <;> rfl
  refine ⟨H.known.keep ht rfl hown, ?_, ?_⟩ <;> intro u <;> by_cases hu : u = t
  · subst hu
    rw [Function.update_self]
    have B := H.blind u
    cases l <;> exact ⟨B.client, B.mine, B.length, B.ample⟩
  · rw [Function.update_of_ne hu]
    exact H.blind u
  · subst hu
    rw [Function.update_self]
    intro ok hok
    exact H.sees u ok (hpages ▸ hok)
  · rw [Function.update_of_ne hu]
    exact H.sees u

/-- The environment leaves what the threads know alone. -/
theorem Shared.env (H : Shared n w gs) {c : Choice b} (he : env c w = some w') :
    Shared n w' gs := by
  have keep : ∀ {w₁ : World b}, Owns (layout b) w₁.heap (fun t => (gs t).own) →
      w₁.lpc.pages = w.lpc.pages → Shared n w₁ gs := fun howns hpages =>
    ⟨⟨howns, H.known.null, H.known.later⟩, H.blind, fun t => (H.sees t).trans hpages⟩
  rcases env_cases he with ⟨p, m, -, -, -, rfl⟩ | ⟨a, d, -, hd, rfl⟩ | ⟨pid, a, v, -, rfl⟩
  · exact keep H.known.owns rfl
  · exact keep (H.known.mark hd) rfl
  · exact keep H.known.owns (w.lpc.pages_writeMemory ..)

/-- **THE RULE FOR THE LIBRARY**: an invariant `X` holds in all runs whose steps
    satisfy `cond` when each step keeps it that the outline allows; in these runs
    no failed mapping frees what it did not allocate. -/
theorem method {X : Nat → World b → (Nat → Ghost b) → Prop}
    {cond : State b → Event (Choice b) → Prop}
    (hharm : ∀ {s : State b} {gs t c o}, cond s (.thread t c) → s.next t = some o →
      X s.threads.length s.world gs → Pre o (gs t) → HarmlessAt s.world o)
    (hjump : ∀ {s : State b} {gs t c th l}, cond s (.thread t c) → s.threads[t]? = some th →
      th.cur = .ret (some l) → Shared s.threads.length s.world gs →
      X s.threads.length s.world gs → Goto l (gs t) →
      X s.threads.length s.world (Function.update gs t (land l (gs t))))
    (hop : ∀ {s : State b} {gs t c th o k r w' sp g'}, cond s (.thread t c) →
      s.threads[t]? = some th → th.cur = .call o k → Shared s.threads.length s.world gs →
      X s.threads.length s.world gs → Pre o (gs t) →
      exec t s.threads.length o c s.world = some (r, w', sp) → Post o (gs t) r g' →
      X (s.threads.length + sp.toList.length) w'
        (after gs t s.threads.length g' (sp.map fun l => born l (gs t))))
    (henv : ∀ {s : State b} {gs c w'}, cond s (.env c) →
      Shared s.threads.length s.world gs → X s.threads.length s.world gs →
      env c s.world = some w' → X s.threads.length w' gs) :
    Method (system b) (outline b) Entry Goto (fun n w gs => Shared n w gs ∧ X n w gs)
      (fun _ => True) cond where
  steps _ _ := trivial
  code h := wp_code h
  jump := by
    intro s gs t c th l hc hth hcur hJ hgoto
    have ht : t < s.threads.length := (List.getElem?_eq_some_iff.mp hth).1
    exact ⟨land l (gs t), entry_land hgoto, hJ.1.land ht l,
      hjump hc hth hcur hJ.1 hJ.2 hgoto⟩
  op := by
    intro s gs t c th o k r w' sp hc hth hcur hJ hpre hx
    have ht : t < s.threads.length := (List.getElem?_eq_some_iff.mp hth).1
    have hagree := hJ.1.known.agrees (hJ.1.blind t) (hJ.1.sees t)
      (hharm hc (Config.next_of_cur hth hcur) hJ.2 hpre) hx
    obtain ⟨g', hpost, hcreate, K⟩ := hJ.1.known.op ht hpre hagree hx
    refine ⟨g', sp.map fun l => born l (gs t), hpost, by cases sp <;> rfl, ?_,
      hJ.1.after hpost (exec_pages hx) K, hop hc hth hcur hJ.1 hJ.2 hpre hx hpost⟩
    intro l hl g hg _
    obtain rfl := Option.mem_def.mp hl
    obtain rfl := Option.mem_some_iff.mp hg
    exact entry_born (hcreate l rfl)
  env := by
    intro s gs c w' hc hJ he
    exact ⟨hJ.1.env he, henv hc hJ.1 hJ.2 he⟩

/-! ## What a listener has taken -/

/-- `P` holds of the connection request that a listener serves, and `Q` of this request and
    the message it has received then. -/
def Stage.Taken (P : Message b → Prop) (Q : Message b → Message b → Prop) : Stage b → Prop
  | .listened m => P m
  | .opened m _ => P m
  | .accepted m _ _ => P m
  | .received m _ _ m' => P m ∧ Q m m'
  | _ => True

section Taken

variable {P : Message b → Prop} {Q : Message b → Message b → Prop} {g : Ghost b}

/-- Who starts has taken nothing. -/
theorem Stage.Taken.born (l : Label) (g : Ghost b) : (born l g).stage.Taken P Q := by
  cases l <;> trivial

theorem Stage.Taken.land (hT : g.stage.Taken P Q) (l : Label) : (land l g).stage.Taken P Q := by
  cases l <;> first | exact hT | trivial

/-- **A KERNEL CALL** takes what it may take. -/
theorem Stage.Taken.kernel {o : KernelOp} {r : o.Ret b} {k k' : Lpc b} (hT : g.stage.Taken P Q)
    (hpre : KernelPre o g) (E : k.Effect t o r k')
    (hlisten : ∀ h p m, o = .ntListenPort h → k.portOf h = some p → m ∈ k.queue p →
      Lpc.isConnectionRequest m = true → P m)
    (hreceive : ∀ m h h' p m' rest, o = .ntReplyWaitReceivePort h' →
      g.stage = .accepted m h h' → k.portOf h' = some p → k.queue p = m' :: rest → Q m m') :
    (g.stage.next o r).Taken P Q := by
  have same : g.stage.next o r = g.stage → (g.stage.next o r).Taken P Q := fun h => by rwa [h]
  cases E with
  | @listened h p pre m post rest hp hq hm hrest =>
      rw [hpre.1]
      exact hlisten h p m rfl hp (by rw [hq]; simp) hm
  | notListened =>
      rw [hpre.1]
      trivial
  | created =>
      rw [hpre.1]
      exact trivial
  | notCreated =>
      rw [hpre.1]
      show Stage.Taken P Q (if ntSuccess _ = true then _ else _)
      split <;> trivial
  | openedProcess | notOpened =>
      obtain ⟨m, hst, -⟩ := hpre
      rw [hst] at hT ⊢
      exact hT
  | accepted | refused =>
      obtain ⟨m, h, hst, -⟩ := hpre
      rw [hst] at hT ⊢
      exact hT
  | @notAccepted client id accept st hst' =>
      obtain ⟨m, h, hst, -⟩ := hpre
      rw [hst] at hT ⊢
      cases accept with
      | true =>
          show Stage.Taken P Q (if ntSuccess _ = true then _ else _)
          split <;> exact hT
      | false => exact hT
  | @received h' p m' rest hp hq =>
      obtain ⟨m, h, hst⟩ := hpre
      have hQ := hreceive m h h' p m' rest rfl hst hp hq
      rw [hst] at hT ⊢
      exact ⟨hT, hQ⟩
  | notReceived =>
      obtain ⟨m, h, hst⟩ := hpre
      rw [hst] at hT ⊢
      exact hT
  | closed | notClosed =>
      rcases hpre with ⟨m, hst⟩ | ⟨m, h', hst⟩ | ⟨a, hst | ⟨hst, -⟩⟩ | hst | hst <;> rw [hst] <;>
        trivial
  | _ => exact same (by cases g.stage <;> rfl)

/-- So does every operation. -/
theorem Stage.Taken.exec {c : Choice b} {o : Op} {r : Op.Ret b o} {sp : Option Label}
    (hT : g.stage.Taken P Q) (hpre : Pre o g) (hx : exec t n o c w = some (r, w', sp))
    (hlisten : ∀ h p m, o = .kernel (.ntListenPort h) → w.lpc.portOf h = some p →
      m ∈ w.lpc.queue p → Lpc.isConnectionRequest m = true → P m)
    (hreceive : ∀ m h h' p m' rest, o = .kernel (.ntReplyWaitReceivePort h') →
      g.stage = .accepted m h h' → w.lpc.portOf h' = some p → w.lpc.queue p = m' :: rest →
      Q m m') : (Stage.after g o r).Taken P Q := by
  cases o with
  | heap o =>
      show (g.stage.seen g.own o r).Taken P Q
      unfold Stage.seen
      split
      · split
        · split <;> trivial
        · exact hT
      · exact hT
  | kernel o =>
      obtain ⟨k, E, -, -⟩ := exec_kernel hx
      exact hT.kernel hpre E (fun h p m ho => hlisten h p m (congrArg _ ho))
        fun m h h' p m' rest ho => hreceive m h h' p m' rest (congrArg _ ho)
  | id o => exact hT
  | api o =>
      cases o with
      | note x =>
          cases x with
          | returned call status => trivial
          | _ => exact hT
      | _ => exact hT
  | loadCloseEvent a =>
      show Stage.Taken P Q (if r then .leaving else g.stage)
      split
      · trivial
      · exact hT
  | setCloseEvent a => trivial
  | createThread l =>
      cases l with
      | workerThread param => trivial
      | _ =>
          show Stage.Taken P Q (if r = 0 then g.stage else .app)
          split
          · exact hT
          · trivial

end Taken

/-! ## One registered service -/

/-- Thread `0` is to serve the descriptor `r` at `d` with the list `p`; both blocks
    are its own. -/
structure Registered (w : World b) (d : LPVOID) (r : ServiceRoutine)
    (p : ServiceRoutineParameter) : Prop where
  nonzero : d ≠ 0 ∧ r.lpParameters ≠ 0
  routine : w.heap.cells d = some (.routine r)
  list    : w.heap.cells r.lpParameters = some (.parameters p)
  holder  : w.heap.holder d = 0 ∧ w.heap.holder r.lpParameters = 0

/-- Its listener, and the calls that threads of the application will make. -/
def serving (w : World b) (d : LPVOID) (calls : List (List Call)) : State b :=
  ⟨w, (Label.waitThread d :: calls.map .app).map (system b).begin⟩

/-- A thread that knows nothing yet but the calls it is to make and what can be read. -/
def Ghost.blank (s : Stage b) (calls : List Call) (pages : Option (Nat → Bool)) : Ghost b :=
  ⟨fun _ => none, none, s, calls, none, none, pages, none, false, [], []⟩

namespace Registered

variable {d : LPVOID} {r : ServiceRoutine} {p : ServiceRoutineParameter}

/-- The listener knows its descriptor and its list. -/
def listener (d : LPVOID) (r : ServiceRoutine) (p : ServiceRoutineParameter) : Ghost b :=
  { Ghost.blank .idle [] none with
    own := fun a =>
      if a = d then some (.routine r)
      else if a = r.lpParameters then some (.parameters p) else none
    self := some ⟨d, r, p⟩ }

/-- The ghost states in the beginning. -/
def ghosts (w : World b) (d : LPVOID) (r : ServiceRoutine) (p : ServiceRoutineParameter)
    (calls : List (List Call)) : Nat → Ghost b
  | 0 => listener d r p
  | t + 1 =>
      match calls[t]? with
      | some cs => .blank .app cs (some w.lpc.pages)
      | none => .blank .worker [] none

theorem ghosts_own (calls : List (List Call)) (t : Nat) (a : LPVOID) :
    (ghosts w d r p calls (t + 1)).own a = none := by
  simp only [ghosts]
  split <;> rfl

theorem apart (H : Registered w d r p) : r.lpParameters ≠ d := by
  intro h
  have hl := H.list
  rw [h, H.routine] at hl
  exact nomatch hl

theorem own_list (H : Registered w d r p) :
    (listener d r p : Ghost b).own r.lpParameters = some (.parameters p) := by
  simp only [listener, if_neg H.apart, if_true]

/-- What the threads know in the beginning is so. -/
theorem shared (H : Registered w d r p) (hn : 0 < n) (calls : List (List Call)) :
    Shared n w (ghosts w d r p calls) := by
  have hown : ∀ {t a x}, (ghosts w d r p calls t).own a = some x →
      t = 0 ∧ w.heap.cells a = some x ∧ w.heap.holder a = 0 := by
    intro t a x hx
    cases t with
    | succ t =>
        rw [ghosts_own] at hx
        exact nomatch hx
    | zero =>
        simp only [ghosts, listener] at hx
        split at hx
        · next h =>
            rw [h, ← hx]
            exact ⟨rfl, H.routine, H.holder.1⟩
        · split at hx
          · next h =>
              rw [h, ← hx]
              exact ⟨rfl, H.list, H.holder.2⟩
          · exact nomatch hx
  refine ⟨⟨⟨?_, ?_⟩, ?_, ?_⟩, ?_, ?_⟩
  · intro t a x hx
    exact ⟨x, (hown hx).2.1, rfl⟩
  · intro t a x hx
    rw [(hown hx).1]
    exact (hown hx).2.2
  · intro t
    cases t with
    | zero => simp only [ghosts, listener, if_neg H.nonzero.1.symm, if_neg H.nonzero.2.symm]
    | succ t => exact ghosts_own calls t 0
  · intro t ht a
    cases t with
    | zero => omega
    | succ t => exact ghosts_own calls t a
  · intro t
    cases t with
    | zero => exact ⟨rfl, rfl, rfl, rfl⟩
    | succ t =>
        simp only [ghosts]
        split <;> exact ⟨rfl, rfl, rfl, rfl⟩
  · intro t ok hok
    cases t with
    | zero => exact nomatch hok
    | succ t =>
        simp only [ghosts] at hok
        split at hok
        · exact (Option.some.inj hok).symm
        · exact nomatch hok

/-- Every thread may begin. -/
theorem entry (H : Registered w d r p) {calls : List (List Call)} {t : Nat} {l : Label}
    (hl : (Label.waitThread d :: calls.map .app)[t]? = some l) :
    Entry l (ghosts w d r p calls t) := by
  cases t with
  | zero =>
      obtain rfl := Option.some.inj hl
      refine ⟨rfl, ⟨d, r, p⟩, rfl, H.nonzero.1, rfl, ?_⟩
      intro s hs
      obtain rfl := Option.some.inj hs
      exact ⟨if_pos rfl, H.own_list⟩
  | succ t =>
      rw [List.getElem?_cons_succ, List.getElem?_map] at hl
      obtain ⟨cs, hcs, rfl⟩ := Option.map_eq_some_iff.mp hl
      simp only [ghosts, hcs]
      exact ⟨rfl, rfl, rfl⟩

/-- **WHAT RUNS OF ONE SERVICE KEEP**: an invariant that holds in the beginning
    holds, with what the threads know, in every state reached. -/
theorem run {X : Nat → World b → (Nat → Ghost b) → Prop}
    {cond : State b → Event (Choice b) → Prop} (H : Registered w d r p)
    (M : Method (system b) (outline b) Entry Goto (fun n w gs => Shared n w gs ∧ X n w gs)
      (fun _ => True) cond)
    {calls : List (List Call)} (hX : X (calls.length + 1) w (ghosts w d r p calls)) {s : State b}
    (hr : (system b).Run cond (serving w d calls) s) :
    ∃ gs, Holds (outline b) Goto (fun n w gs => Shared n w gs ∧ X n w gs) (fun _ => True) s gs := by
  have hstart : Shared (Label.waitThread d :: calls.map Label.app).length w (ghosts w d r p calls)
      ∧ X (Label.waitThread d :: calls.map Label.app).length w (ghosts w d r p calls) := by
    rw [List.length_cons, List.length_map]
    exact ⟨H.shared (Nat.succ_pos _) _, hX⟩
  refine M.run hr (holds_begin M hstart ?_)
  intro t l hl _
  exact H.entry hl

end Registered

/-! ### A process with one service -/

/-- A service with the list `p`: its descriptor lies at 16, its list at 32, and 4
    is the handle of its port. -/
def oneService (p : ServiceRoutineParameter) : World .x64 :=
  let w := (World.initialized .x64).withBlocks
    [(16, .routine (.new 4 1000 32)), (32, .parameters p)]
  { w with lpc := { w.lpc.opened 4 (.connectionPort 0) with ports := 1 } }

theorem oneService_registered (p : ServiceRoutineParameter) :
    Registered (oneService p) 16 (.new 4 1000 32) p :=
  ⟨⟨by decide, by decide⟩, rfl, rfl, rfl, rfl⟩

/-- A list as it lies in memory. -/
def parameterBytes (p : ServiceRoutineParameter) : List BYTE :=
  toLE 8 p.dwParameters ++ p.parameters.flatMap fun e =>
    e.parameterMask :: (toLE 3 0 ++ toLE 4 e.dwMaxBufferSize.toNat ++ toLE 8 e.ulParameter.toNat)

theorem empty_fits : (parameterBytes ⟨[]⟩).length + Build.x64.portMessageSize
    ≤ Build.x64.lpcpMaxMessageSize := by decide

theorem nothing_fits : ([] : List BYTE).length + Build.x64.portMessageSize
    ≤ Build.x64.lpcpMaxMessageSize := by decide

/-- Thread `t` takes `k` steps that succeed. -/
def turns (t k : Nat) : List (Event (Choice b)) := List.replicate k (.thread t .ok)

/-- The listener gets its buffer. -/
def begins (lm : LPVOID) : List (Event (Choice .x64)) :=
  .thread 0 (.fresh lm (.message (fun _ => 0) 624)) :: turns 0 3

/-- It takes a connection, opens the client, accepts and receives. -/
def accepts (param : LPVOID) (h h' : HANDLE) : List (Event (Choice .x64)) :=
  turns 0 2 ++ .thread 0 (.take true) :: turns 0 3
    ++ .thread 0 (.fresh param (.routine (.new 0 0 0))) :: turns 0 2
    ++ .thread 0 (.handle h) :: turns 0 7
    ++ .thread 0 (.handle h') :: turns 0 8

/-- It copies the message, captures a list of `k` entries and starts a worker. -/
def dispatches (k : Nat) (copy captured : LPVOID) (h : HANDLE) (tid : Nat) :
    List (Event (Choice .x64)) :=
  .thread 0 (.fresh copy (.message (fun _ => 0) 624)) :: turns 0 6
    ++ .thread 0 (.fresh captured (.parameters ⟨List.replicate k ⟨0, 0, 0⟩⟩)) :: turns 0 (4 * k + 3)
    ++ .thread 0 (.thread h tid) :: turns 0 1

/-- What the next operation of a thread starts a worker with. -/
def startsNow (s : State b) (t : Nat) : Option LPVOID :=
  match s.next t with
  | some (.createThread (.workerThread param)) => some param
  | _ => none

theorem next_of_startsNow {s : State b} {t : Nat} {param : LPVOID}
    (h : startsNow s t = some param) :
    s.next t = some (.createThread (.workerThread param)) := by
  unfold startsNow at h
  split at h
  · next param' hnext =>
      obtain rfl := Option.some.inj h
      exact hnext
  · cases h

end ScOwnership
