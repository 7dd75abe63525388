import ServiceCall.SharingProofs

/-! # Accesses to the heap

    A listener and the workers it started, in any order.  As long as no failed
    mapping frees what it did not allocate, every access is to a live block that
    the thread holds, so nothing is freed twice or used after it was freed, and
    the listener changes nothing that a worker holds (`access_safe`).

    `RtlMapPtrParameters` fills its list only up to the entry that fails, while
    the cleanup walks over all entries: what the memory contained before decides
    what it frees.

    A block that holds a list is measured in entries here.  In the 32-bit build the
    length in bytes wraps from 2 ^ 28 entries on, and then the block is shorter
    than the list that is written to it: runs with such a list are left out
    (`Roomy`).  An access through the null address, after a capture that was
    refused, is an access to no block; the thread then makes no further step. -/

namespace ScOwnership

open LinearMemory OwnedHeap OpProg ThreadSys ScParameter LpcMessage ScSystem
  ScServiceCall

variable {b : Build} {n t : Nat} {w w' : World b} {gs : Nat → Ghost b}

/-! ## What an access is -/

/-- The address of a block that an operation accesses. -/
def touches : Op → Option LPVOID
  | .heap (.load a _) => some a
  | .heap (.store a _) => some a
  | .heap (.free a) => some a
  | .loadCloseEvent a => some a
  | .setCloseEvent a => some a
  | _ => none

/-- What a thread knows at an address is live there, and the thread holds it. -/
theorem Known.held (K : Known n w gs) {a : LPVOID} (h : (gs t).own a ≠ none) :
    w.heap.cells a ≠ none ∧ w.heap.holder a = t := by
  obtain ⟨x, hx⟩ := Option.ne_none_iff_exists'.mp h
  obtain ⟨y, hy, -⟩ := K.live hx
  exact ⟨by rw [hy]; exact Option.some_ne_none _, K.owns.holds hx⟩

/-- A listener or a worker accesses blocks it knows. -/
theorem touches_own {o : Op} {g : Ghost b} (hg : g.stage.Inside) (hpre : Pre o g) {a : LPVOID}
    (ha : touches o = some a) (h0 : a ≠ 0) : g.own a ≠ none := by
  cases o with
  | heap o =>
      rcases hpre.1 with hp | ⟨a', -, hs⟩
      · cases o with
        | alloc k m => exact nomatch ha
        | allocNothrow k m => exact nomatch ha
        | load a' k =>
            obtain rfl := Option.some.inj ha
            obtain ⟨x, hx, -⟩ := hp.resolve_left h0
            rw [hx]
            exact Option.some_ne_none _
        | store a' x =>
            obtain rfl := Option.some.inj ha
            obtain ⟨y, hy, -⟩ := hp.resolve_left h0
            rw [hy]
            exact Option.some_ne_none _
        | free a' =>
            obtain rfl := Option.some.inj ha
            exact hp.resolve_left h0
      · rw [hs] at hg
        exact hg.elim
  | loadCloseEvent a' =>
      obtain rfl := Option.some.inj ha
      obtain ⟨-, s, -, -, hs⟩ := hpre
      rw [hs]
      exact Option.some_ne_none _
  | setCloseEvent a' =>
      rw [show g.stage = .app from hpre.1] at hg
      exact hg.elim
  | _ => exact nomatch ha

/-- A listener or a worker does not fault. -/
theorem Known.inside_faults (K : Known n w gs) {o : Op} {c : Choice b} {r : Op.Ret b o}
    {sp : Option Label} (hg : (gs t).stage.Inside) (hpre : Pre o (gs t))
    (hx : exec t n o c w = some (r, w', sp)) : w'.heap.faults = w.heap.faults := by
  refine K.faults hpre (hg.not_setCloseEvent hpre) ?_ hx
  intro a _ hs
  rw [hs] at hg
  exact hg.elim

/-! ## The result -/

/-- No failed mapping frees what it did not allocate. -/
def Harmlessly (s : State b) : Event (Choice b) → Prop
  | .thread t _ => ∀ o ∈ s.next t, HarmlessAt s.world o
  | .env _ => True

instance (s : State b) : (e : Event (Choice b)) → Decidable (Harmlessly s e)
  | .thread t _ => inferInstanceAs (Decidable (∀ o ∈ s.next t, HarmlessAt s.world o))
  | .env _ => inferInstanceAs (Decidable True)

/-- The entries of a list that is allocated. -/
def newEntries : Op → Option Nat
  | .heap (.alloc .parameters n) => some n
  | _ => none

/-- A new list has room for its entries: its length in bytes is a `size_t`. -/
def RoomAt (b : Build) (o : Op) : Prop :=
  ∀ n ∈ newEntries o, parameterBufferSize n < 2 ^ (8 * b.pointerSize)

instance (b : Build) (o : Op) : Decidable (RoomAt b o) :=
  inferInstanceAs (Decidable (∀ n ∈ newEntries o, _))

/-- Every new list has room for its entries. -/
def Roomy (s : State b) : Event (Choice b) → Prop
  | .thread t _ => ∀ o ∈ s.next t, RoomAt b o
  | .env _ => True

instance (s : State b) : (e : Event (Choice b)) → Decidable (Roomy s e)
  | .thread t _ => inferInstanceAs (Decidable (∀ o ∈ s.next t, RoomAt b o))
  | .env _ => inferInstanceAs (Decidable True)

/-- What is promised of the heap while one listener and its workers run. -/
structure AccessSafe (s : State b) : Prop where
  /-- nothing was accessed or freed that did not live -/
  faults : s.world.heap.faults = []
  /-- a thread accesses live blocks that it holds -/
  held : ∀ {t o a}, s.next t = some o → touches o = some a → a ≠ 0 →
    s.world.heap.cells a ≠ none ∧ s.world.heap.holder a = t
  /-- a step of the listener leaves what others hold as it is -/
  listener : ∀ {c s'}, (system b).step (.thread 0 c) s = some s' → ∀ a x,
    s.world.heap.cells a = some x → s.world.heap.holder a ≠ 0 → s'.world.heap.cells a = some x

/-- No fault yet, and nobody is outside. -/
def Clean (_ : Nat) (w : World b) (gs : Nat → Ghost b) : Prop :=
  w.heap.faults = [] ∧ ∀ t, (gs t).stage.Inside

/-- The rule applies. -/
theorem access_method : Method (system b) (outline b) Entry Goto
    (fun n w gs => Shared n w gs ∧ Clean n w gs) (fun _ => True) Harmlessly := by
  refine method ?_ ?_ ?_ ?_
  · intro s gs t c o hc hn _ _
    exact hc o hn
  · intro s gs t c th l _ _ _ _ hX _
    refine ⟨hX.1, ?_⟩
    intro u
    by_cases hu : u = t
    · subst hu
      rw [Function.update_self]
      exact (hX.2 u).land
    · rw [Function.update_of_ne hu]
      exact hX.2 u
  · intro s gs t c th o k r w' sp g' _ _ _ H hX hpre hx hpost
    refine ⟨?_, after_forall (P := fun _ (g : Ghost b) => g.stage.Inside) (fun u _ => hX.2 u)
      ((hX.2 t).post hpre hpost) ?_⟩
    · rw [H.known.inside_faults (hX.2 t) hpre hx]
      exact hX.1
    · intro g hg
      obtain ⟨l, -, rfl⟩ := Option.map_eq_some_iff.mp hg
      exact Stage.Inside.born l _
  · intro s gs c w' _ _ hX he
    refine ⟨?_, hX.2⟩
    rcases env_cases he with ⟨p, m, -, -, -, rfl⟩ | ⟨a, d, -, -, rfl⟩ | ⟨pid, a, v, -, rfl⟩ <;>
      exact hX.1

/-- **ACCESSES ARE SAFE** in every state that one listener and the workers it
    started reach, in any order, over any connections and any outcomes of system
    calls, while no failed mapping frees what it did not allocate and every new
    list has room for its entries. -/
theorem access_safe {d : LPVOID} {r : ServiceRoutine} {p : ServiceRoutineParameter}
    {s : State b} (hw : Registered w d r p) (hfaults : w.heap.faults = [])
    (hr : (system b).Run (fun s e => Harmlessly s e ∧ Roomy s e) (serving w d []) s) :
    AccessSafe s := by
  let calls : List (List Call) := []
  have hX : Clean (calls.length + 1) w (Registered.ghosts w d r p calls) := by
    refine ⟨hfaults, ?_⟩
    intro t
    cases t <;> exact trivial
  obtain ⟨gs, H⟩ := hw.run access_method hX (hr.mono fun _ _ h => h.1)
  obtain ⟨⟨hS, hfaults, hinside⟩, -⟩ := id H
  refine ⟨hfaults, ?_, ?_⟩
  · intro t o a hn ha h0
    exact hS.known.held (touches_own (hinside t) (H.pre_next hn) ha h0)
  · intro c s' hs a x ha hne
    rcases Sys.step_cases hs with
      ⟨c, w, he, -⟩ | ⟨t, c, th, l, -, -, -, rfl⟩ |
      ⟨t, c, th, o, k, r, w, sp, he, hth, hcur, hx, rfl⟩
    · exact nomatch he
    · exact ha
    · obtain ⟨rfl, -⟩ := Event.thread.inj he
      have hpre := H.pre hth trivial hcur
      exact hS.known.frame hpre ((hinside 0).not_setCloseEvent hpre) hx ha hne

/-- Two pointers to one byte each. -/
def twoPointers (u v : ULONG64) : ServiceRoutineParameter := ⟨[⟨0x40, 1, u⟩, ⟨0x40, 1, v⟩]⟩

/-- A client with id 8 calls with the pointers 100 and 200; a worker maps the first,
    which cannot be read, into a list that contained `leftover`, and cleans up. -/
def unreadable (leftover : ServiceRoutineParameter) : List (Event (Choice .x64)) :=
  [.env (.send 0 (.compose .x64 LPC_CONNECTION_REQUEST ⟨8, 9⟩ 1
      (parameterBytes (twoPointers 100 200)) (by decide))),
    .env (.send 0 (.compose .x64 LPC_REQUEST ⟨8, 9⟩ 2 [] (by decide)))]
    ++ begins 48 ++ accepts 64 8 12 ++ dispatches 2 80 96 16 1
    ++ turns 1 7 ++ .thread 1 (.fresh 112 (.parameters leftover)) :: turns 1 3
    ++ .thread 1 (.fresh 128 (.buffer [0])) :: turns 1 2
    ++ .thread 1 (.fail STATUS_ACCESS_VIOLATION) :: turns 1 7

/-- Without the condition accesses are not safe: the memory of the new list contained
    a pointer to the descriptor of the service, the cleanup frees it, and the listener
    reads it. -/
theorem access_unsafe : ¬ ∀ (w : World .x64) d r p s, Registered w d r p →
    w.heap.faults = [] → (system .x64).Run (fun _ _ => True) (serving w d []) s →
    AccessSafe s := by
  intro h
  have hrun : ((system .x64).runIf (fun _ _ => true)
      (unreadable (twoPointers 0 16) ++
        [.thread 0 .ok, .thread 0 (.fresh 0 (.routine (.new 4 1000 32)))])
      (serving (oneService (twoPointers 0 0)) 16 [])).map
        (fun s => s.world.heap.faults) = some [⟨0, 16⟩] := by decide +kernel
  obtain ⟨s, hs, hfaults⟩ := Option.map_eq_some_iff.mp hrun
  have hsafe := h _ 16 _ _ s (oneService_registered (twoPointers 0 0)) rfl
    (Sys.run_of_runIf (fun _ _ _ => trivial) hs)
  have := hsafe.faults
  rw [hfaults] at this
  exact nomatch this

/-- The same run over memory that contained null pointers. -/
theorem access_safe_unreadable : ∃ s : State .x64,
    (system .x64).runIf (fun s e => decide (Harmlessly s e ∧ Roomy s e))
      (unreadable (twoPointers 0 0)) (serving (oneService (twoPointers 0 0)) 16 []) = some s
    ∧ AccessSafe s := by
  obtain ⟨s, hs⟩ := Option.isSome_iff_exists.mp (show ((system .x64).runIf
    (fun s e => decide (Harmlessly s e ∧ Roomy s e)) (unreadable (twoPointers 0 0))
    (serving (oneService (twoPointers 0 0)) 16 [])).isSome = true by decide +kernel)
  refine ⟨s, hs, access_safe (oneService_registered _) rfl (Sys.run_of_runIf ?_ hs)⟩
  intro s e h
  exact of_decide_eq_true h

end ScOwnership
