import ServiceCall.MappingProofs

/-! # One thread by itself

    The functions on parameter lists are not shared with other threads.  What they
    do is said of the runs of one thread (`Alone`): the blocks of the heap, the
    handles and the memory of the processes, and a `Log` of what the operations
    allocated, deleted, read, wrote, called and started, all of it for any outcome
    of every operation.

    `solo` is the outline of such runs.  It allows every operation, also on blocks
    that do not live, and says exactly what the operations do.  `perform` carries
    out a run for a list of choices. -/

namespace ScSequential

open LinearMemory OwnedHeap OpProg ThreadSys ScParameter LpcMessage ScSystem
  ScServiceCall ScOwnership

variable {b : Build}

/-- The events of a run. -/
abbrev Events (b : Build) := List (Sigma (Op.Ret b))

/-- Thread `t` among `n` performs one operation, and whatever the system decides. -/
def Alone (t n : Nat) (o : Op) (w : World b) (r : Op.Ret b o) (w' : World b) : Prop :=
  ∃ c sp, exec t n o c w = some (r, w', sp)

/-- Carry out a program with the choices of a list. -/
def perform {α : Type} (t n : Nat) :
    Code b α → List (Choice b) → World b → Option (Events b × α × World b)
  | .ret a, _, w => some ([], a, w)
  | .call o k, c :: cs, w =>
      (exec t n o c w).bind fun x =>
        (perform t n (k x.1) cs x.2.1).map fun y => (⟨o, x.1⟩ :: y.1, y.2)
  | .call _ _, [], _ => none

/-- What is carried out is a run. -/
theorem perform_runs {α : Type} {t n : Nat} {p : Code b α} {cs : List (Choice b)}
    {w w' : World b} {tr : Events b} {a : α} (h : perform t n p cs w = some (tr, a, w')) :
    p.Runs (Alone t n) w tr a w' := by
  induction p generalizing cs w tr with
  | ret a =>
      obtain ⟨rfl, he⟩ := Prod.mk.inj (Option.some.inj h)
      obtain ⟨rfl, rfl⟩ := Prod.mk.inj he
      exact .ret ..
  | call o k ih =>
      cases cs with
      | nil => exact nomatch h
      | cons c cs =>
          obtain ⟨⟨r, w₁, sp⟩, hx, hy⟩ := Option.bind_eq_some_iff.mp h
          obtain ⟨⟨tr', a', w₂⟩, hr, he⟩ := Option.map_eq_some_iff.mp hy
          obtain ⟨rfl, he'⟩ := Prod.mk.inj he
          obtain ⟨rfl, rfl⟩ := Prod.mk.inj he'
          exact .call ⟨c, sp, hx⟩ (ih r hr)

/-! ## What events say -/

/-- What the operations of a run did. -/
structure Log where
  /-- blocks with the size they were asked for -/
  allocated : List (LPVOID × Nat)
  /-- deleting null does nothing and is not counted -/
  deleted   : List LPVOID
  /-- the sizes of the allocations that returned null -/
  refused   : List Nat
  /-- the ranges that `NtReadVirtualMemory` was called for, and whether it succeeded -/
  reads     : List ((Nat × Nat) × Bool)
  /-- the calls of `NtWriteVirtualMemory`, and whether they succeeded -/
  writes    : List ((Nat × List BYTE) × Bool)
  /-- the indices at which a mapping failed -/
  failed    : List Nat
  invoked   : List (LPVOID × List ULONG64)
  /-- the lengths that `NtCreatePort` was given -/
  created   : List (Nat × Nat)
  started   : List Label
  /-- whether `NtListenPort` took a connection -/
  listened  : List Bool
  /-- the handles of the connections that were accepted -/
  accepted  : List HANDLE
  /-- the handles that were given out -/
  granted   : List HANDLE
  /-- the calls of `NtClose`, and whether they succeeded -/
  closed    : List (HANDLE × Bool)
  /-- the connection data that `NtConnectPort` was given -/
  infos     : List (List BYTE)

namespace Log

def empty : Log := ⟨[], [], [], [], [], [], [], [], [], [], [], [], [], []⟩

def allocate (L : Log) (a : LPVOID) (n : Nat) : Log :=
  { L with allocated := L.allocated ++ [(a, n)] }
def refuse (L : Log) (n : Nat) : Log := { L with refused := L.refused ++ [n] }
def delete (L : Log) (a : LPVOID) : Log := { L with deleted := L.deleted ++ [a] }
def read (L : Log) (range : Nat × Nat) (ok : Bool) : Log :=
  { L with reads := L.reads ++ [(range, ok)] }
def write (L : Log) (w : Nat × List BYTE) (ok : Bool) : Log :=
  { L with writes := L.writes ++ [(w, ok)] }
def fail (L : Log) (i : Nat) : Log := { L with failed := L.failed ++ [i] }
def invoke (L : Log) (lpRoutine : LPVOID) (args : List ULONG64) : Log :=
  { L with invoked := L.invoked ++ [(lpRoutine, args)] }
def create (L : Log) (m₁ m₂ : Nat) : Log := { L with created := L.created ++ [(m₁, m₂)] }
def start (L : Log) (l : Label) : Log := { L with started := L.started ++ [l] }
def listen (L : Log) (ok : Bool) : Log := { L with listened := L.listened ++ [ok] }
def accept (L : Log) (h : HANDLE) : Log := { L with accepted := L.accepted ++ [h] }
def close (L : Log) (h : HANDLE) (ok : Bool) : Log :=
  { L with closed := L.closed ++ [(h, ok)] }
def connect (L : Log) (info : List BYTE) : Log := { L with infos := L.infos ++ [info] }

/-- A handle was given out, unless it is null. -/
def grant (L : Log) (h : HANDLE) : Log :=
  if h = 0 then L else { L with granted := L.granted ++ [h] }

theorem grant_of_ne (L : Log) {h : HANDLE} (h0 : h ≠ 0) :
    L.grant h = { L with granted := L.granted ++ [h] } := if_neg h0

/-- One more event. -/
def add (L : Log) : Sigma (Op.Ret b) → Log
  | ⟨.heap (.alloc _ n), a⟩ => L.allocate a n
  | ⟨.heap (.allocNothrow _ n), (a : LPVOID)⟩ => if a = 0 then L.refuse n else L.allocate a n
  | ⟨.heap (.free a), _⟩ => if a = 0 then L else L.delete a
  | ⟨.kernel (.ntReadVirtualMemory _ a n), r⟩ => L.read (a, n) (ntSuccess r.1)
  | ⟨.kernel (.ntWriteVirtualMemory _ a bytes), st⟩ => L.write (a, bytes) (ntSuccess st)
  | ⟨.kernel (.ntCreatePort _ m₁ m₂), r⟩ => (L.create m₁ m₂).grant r.2
  | ⟨.kernel (.ntListenPort _), r⟩ => L.listen (ntSuccess r.1)
  | ⟨.kernel (.openProcess _), (h : HANDLE)⟩ => L.grant h
  | ⟨.kernel (.ntAcceptConnectPort _ _ true), r⟩ =>
      if ntSuccess r.1 then (L.accept r.2).grant r.2 else L
  | ⟨.kernel (.ntClose h), st⟩ => L.close h (ntSuccess st)
  | ⟨.kernel (.ntConnectPort _ info), r⟩ => (L.connect info).grant r.2.1
  | ⟨.api (.note (.mapFailed _ i)), _⟩ => L.fail i
  | ⟨.api (.note (.invoked lpRoutine args)), _⟩ => L.invoke lpRoutine args
  | ⟨.createThread l, (h : HANDLE)⟩ => if h = 0 then L else (L.start l).grant h
  | _ => L

/-- The addresses that allocations returned. -/
def addresses (L : Log) : List LPVOID := L.allocated.map Prod.fst

/-- The addresses that allocations of no bytes returned. -/
def zeroSized (L : Log) : List LPVOID :=
  (L.allocated.filter fun x => x.2 == 0).map Prod.fst

end Log

/-- The log of a run. -/
def logOf (tr : Events b) : Log := tr.foldl Log.add .empty

theorem logOf_snoc (tr : Events b) (e : Sigma (Op.Ret b)) :
    logOf (tr ++ [e]) = (logOf tr).add e := List.foldl_concat ..

/-! ## The outline -/

/-- Address `a` is a new one for a block `x` of this kind and size. -/
structure NewAt (b : Build) (k : Kind) (n : Nat) (cells : Blocks) (a : LPVOID) (x : Block) :
    Prop where
  nonzero : a ≠ 0
  pointer : b.toPointer a = a
  new     : cells a = none
  kind    : x.kind = k
  size    : x.size = n

/-- What one thread by itself works on, and what it did so far. -/
structure Local (b : Build) where
  cells : Blocks
  lpc   : Lpc b
  log   : Log

/-- What an operation does to the blocks. -/
def CellsPost : (o : Op) → Blocks → Op.Ret b o → Blocks → Prop
  | .heap (.alloc k n), c, a, c' =>
      ∃ x, NewAt b k n c a x ∧ c' = Function.update c a (some x)
  | .heap (.allocNothrow k n), c, a, c' => ((a : LPVOID) = 0 ∧ c' = c) ∨
      ∃ x, NewAt b k n c a x ∧ c' = Function.update c a (some x)
  | .heap (.load a k), c, r, c' => c' = c ∧ a ≠ 0 ∧ ∀ x, c a = some x → x.kind = k → r = x
  | .heap (.store a x), c, _, c' => a ≠ 0 ∧
      ∀ y, c a = some y → y.kind = x.kind → c' = Function.update c a (some x)
  | .heap (.free a), c, _, c' => c' = if a = 0 then c else Function.update c a none
  | .setCloseEvent _, _, _, _ => True
  | _, c, _, c' => c' = c

/-- What an operation of thread `t` among `n` does to the kernel. -/
def LpcPost (t n : Nat) : (o : Op) → Lpc b → Op.Ret b o → Lpc b → Prop
  | .kernel o, k, r, k' => Lpc.Effect t k o r k'
  | .api (.loadOwn a m), k, r, k' => k' = k
      ∧ Lpc.accessible (k.memory k.self).readable a m = true
      ∧ r = slice (k.memory k.self).byte a m
  | .api (.storeOwn a bytes), k, _, k' => k' = k.writeMemory k.self a bytes
  | .createThread _, k, h, k' => ((h : HANDLE) = 0 ∧ k' = k) ∨
      ((h : HANDLE) ≠ 0 ∧ k.handles.lookup h = none
        ∧ ∃ f, k' = { k.opened h (.thread n) with lastPort := f })
  | _, k, _, k' => k' = k

/-- The outline of thread `t` among `n` by itself. -/
def solo (t n : Nat) : Outline Op (Op.Ret b) (Local b) where
  pre _ _ := True
  post o g r g' := CellsPost o g.cells r g'.cells ∧ LpcPost t n o g.lpc r g'.lpc
    ∧ g'.log = g.log.add ⟨o, r⟩

/-- What the thread works on in a world, after some events. -/
def Local.of (w : World b) (tr : Events b) : Local b := ⟨w.heap.cells, w.lpc, logOf tr⟩

section Steps

variable {t n : Nat} {c : Choice b} {w w' : World b} {sp : Option Label}

/-- What a heap operation of one thread does to the blocks. -/
theorem heap_cells {o : HeapOp LPVOID Block Kind} {r : o.Ret} {h : Heap LPVOID Block}
    (hh : OwnedHeap.exec (layout b) t o c.memory w.heap = some (r, h)) :
    CellsPost (b := b) (.heap o) w.heap.cells r h.cells := by
  cases o with
  | alloc k m =>
      obtain ⟨h0, hA, hnone, x, hk, hm, rfl⟩ := exec_alloc hh
      exact ⟨x, ⟨h0, by simpa [layout] using hA, hnone, hk, hm⟩, rfl⟩
  | allocNothrow k m =>
      rcases exec_allocNothrow hh with ⟨rfl, rfl⟩ | ⟨h0, hA, hnone, x, hk, hm, rfl⟩
      · exact Or.inl ⟨rfl, rfl⟩
      · exact Or.inr ⟨x, ⟨h0, by simpa [layout] using hA, hnone, hk, hm⟩, rfl⟩
  | load a k =>
      obtain ⟨h0, -, hcells, -⟩ := exec_load_any hh
      exact ⟨hcells, h0, fun x hx hk => (exec_load hx hk hh).1⟩
  | store a x =>
      refine ⟨exec_store_ne hh, ?_⟩
      intro y hy hk
      rw [exec_store hy hk hh]
      rfl
  | free a =>
      show h.cells = if a = 0 then w.heap.cells else Function.update w.heap.cells a none
      by_cases h0 : a = 0
      · rw [exec_free (Or.inl h0) hh, if_pos h0, if_pos h0]
      · cases hlive : w.heap.cells a with
        | some x =>
            rw [exec_free (Or.inr (by rw [hlive]; exact Option.some_ne_none x)) hh, if_neg h0,
              if_neg h0]
            rfl
        | none =>
            -- a stray deletion changes no block
            simp only [OwnedHeap.exec, if_neg h0, hlive] at hh
            rw [if_neg h0, ← hlive, Function.update_eq_self]
            exact congrArg (fun x => x.2.cells) (Option.some.inj hh).symm

/-- What the last kind of operations does to the kernel. -/
theorem api_lpc {o : ApiOp} {r : o.Ret} {a : Api} {k : Lpc b}
    (hh : Api.exec t o c w.api w.lpc = some (r, a, k)) : LpcPost t n (.api o) w.lpc r k := by
  cases o with
  | loadOwn x m =>
      simp only [Api.exec] at hh
      split at hh
      · next hacc =>
          obtain ⟨rfl, he⟩ := Prod.mk.inj (Option.some.inj hh)
          obtain ⟨-, rfl⟩ := Prod.mk.inj he
          exact ⟨rfl, hacc, rfl⟩
      · cases hh
  | storeOwn x bytes =>
      simp only [Api.exec] at hh
      split at hh
      · obtain ⟨-, he⟩ := Prod.mk.inj (Option.some.inj hh)
        obtain ⟨-, rfl⟩ := Prod.mk.inj he
        rfl
      · cases hh
  | rtlCreateUnicodeString name =>
      cases c with
      | ok =>
          simp only [Api.exec] at hh
          split at hh
          · exact (Prod.mk.inj (Prod.mk.inj (Option.some.inj hh)).2).2.symm
          · cases hh
      | fail st => exact (Prod.mk.inj (Prod.mk.inj (Option.some.inj hh)).2).2.symm
      | _ => cases hh
  | rtlFreeUnicodeString us =>
      cases us with
      | none => exact (Prod.mk.inj (Prod.mk.inj (Option.some.inj hh)).2).2.symm
      | some u =>
          simp only [Api.exec] at hh
          split at hh
          · exact (Prod.mk.inj (Prod.mk.inj (Option.some.inj hh)).2).2.symm
          · exact (Prod.mk.inj (Prod.mk.inj (Option.some.inj hh)).2).2.symm
  | routineAct =>
      cases c with
      | act a => exact (Prod.mk.inj (Prod.mk.inj (Option.some.inj hh)).2).2.symm
      | _ => cases hh
  | _ => exact (Prod.mk.inj (Prod.mk.inj (Option.some.inj hh)).2).2.symm

/-- An operation of one thread does what the outline says. -/
theorem solo_step {o : Op} {r : Op.Ret b o} (hx : exec t n o c w = some (r, w', sp)) :
    CellsPost o w.heap.cells r w'.heap.cells ∧ LpcPost t n o w.lpc r w'.lpc := by
  cases o with
  | heap o =>
      obtain ⟨h, hh, rfl, -⟩ := exec_heap hx
      exact ⟨heap_cells hh, rfl⟩
  | kernel o =>
      obtain ⟨k, E, rfl, -⟩ := exec_kernel hx
      exact ⟨rfl, E⟩
  | id o =>
      obtain ⟨s, -, rfl, -⟩ := exec_id hx
      exact ⟨rfl, rfl⟩
  | api o =>
      obtain ⟨⟨r', a, k⟩, hh, he⟩ := Option.map_eq_some_iff.mp hx
      obtain ⟨rfl, he'⟩ := Prod.mk.inj he
      obtain ⟨rfl, -⟩ := Prod.mk.inj he'
      exact ⟨rfl, api_lpc hh⟩
  | loadCloseEvent a =>
      obtain ⟨-, -, ⟨d, -, -, rfl⟩ | ⟨-, rfl⟩⟩ := exec_loadCloseEvent hx
      · exact ⟨rfl, rfl⟩
      · exact ⟨rfl, rfl⟩
  | setCloseEvent a =>
      obtain ⟨-, -, ⟨d, -, rfl⟩ | ⟨-, rfl⟩⟩ := exec_setCloseEvent hx
      · exact ⟨trivial, rfl⟩
      · exact ⟨trivial, rfl⟩
  | createThread l =>
      rcases exec_createThread hx with ⟨h0, rfl, -⟩ | ⟨tid, -, hnew, -, rfl⟩
      · exact ⟨rfl, Or.inl ⟨h0, rfl⟩⟩
      · exact ⟨rfl, Or.inr ⟨hnew.1, hnew.2, _, rfl⟩⟩

end Steps

/-- What the thread works on goes on as the outline says. -/
theorem solo_event {t n : Nat} {o : Op} {w w' : World b} {tr : Events b} {g : Local b}
    {r : Op.Ret b o} (hg : g = Local.of w tr) (hx : Alone t n o w r w') :
    ∃ g', (solo t n).post o g r g' ∧ g' = Local.of w' (tr ++ [⟨o, r⟩]) := by
  subst hg
  obtain ⟨c, sp, hx⟩ := hx
  obtain ⟨h₁, h₂⟩ := solo_step hx
  have hlog : (Local.of w' (tr ++ [⟨o, r⟩])).log = (logOf tr).add ⟨o, r⟩ := logOf_snoc ..
  exact ⟨Local.of w' (tr ++ [⟨o, r⟩]), ⟨h₁, h₂, hlog⟩, rfl⟩

/-- **RUNS OF ONE THREAD** end as the outline says. -/
theorem solo_sound {t n : Nat} {α : Type} {p : Code b α} {Q : α → Local b → Prop}
    {w w' : World b} {tr₀ tr : Events b} {a : α} (h : wp (solo t n) p Q (Local.of w tr₀))
    (hr : p.Runs (Alone t n) w tr a w') : Q a (Local.of w' (tr₀ ++ tr)) := by
  obtain ⟨g, hQ, rfl⟩ := runs_of_wp (F := fun w tr g => g = Local.of w tr)
    (fun hg _ hx => solo_event hg hx) tr₀ h rfl hr
  exact hQ

/-- The same with a record of the events. -/
theorem solo_recorded {H : Type} {add : H → Sigma (Op.Ret b) → H} {h₀ : H} {t n : Nat}
    {α : Type} {p : Code b α} {Q : α → Local b × H → Prop} {w w' : World b} {tr : Events b}
    {a : α} (h : wp ((solo t n).recording add) p Q (Local.of w [], h₀))
    (hr : p.Runs (Alone t n) w tr a w') : Q a (Local.of w' tr, tr.foldl add h₀) := by
  obtain ⟨⟨g, _⟩, hQ, rfl, rfl⟩ := runs_of_wp
    (F := fun w tr x => x.1 = Local.of w tr ∧ x.2 = tr.foldl add h₀)
    (fun hx hpre hr => recording_step (R := Alone t n) (F := fun w tr g => g = Local.of w tr)
      (fun hg _ hx => solo_event hg hx) hx hpre hr) [] h ⟨rfl, rfl⟩ hr
  exact hQ

/-- A thread goes from label to label; where it ends there is none. -/
inductive Steps (t n : Nat) : Option Label → World b → Events b → Option Label → World b → Prop
  where
  | refl (l : Option Label) (w : World b) : Steps t n l w [] l w
  | step {l : Label} {l₁ l₂ : Option Label} {w w₁ w₂ : World b} {tr₁ tr₂ : Events b} :
      (code l : Code b _).Runs (Alone t n) w tr₁ l₁ w₁ → Steps t n l₁ w₁ tr₂ l₂ w₂ →
      Steps t n (some l) w (tr₁ ++ tr₂) l₂ w₂

/-- **WHAT EVERY LABEL KEEPS** holds wherever the thread comes. -/
theorem steps_sound {t n : Nat} {Inv : Option Label → Local b → Prop}
    (hInv : ∀ l g, Inv (some l) g → wp (solo t n) (code l) Inv g) {l l' : Option Label}
    {w w' : World b} {tr₀ tr : Events b} (h : Inv l (Local.of w tr₀))
    (hr : Steps t n l w tr l' w') : Inv l' (Local.of w' (tr₀ ++ tr)) := by
  induction hr generalizing tr₀ with
  | refl l w =>
      rw [List.append_nil]
      exact h
  | step hrun _ ih =>
      have := ih (solo_sound (hInv _ _ h) hrun)
      rwa [List.append_assoc] at this

/-- The rest may not depend on what came before. -/
theorem solo_any {t n : Nat} {α β : Type} {p : Code b α} {f : α → Code b β}
    {Q : β → Local b → Prop} {g : Local b} (h : ∀ a g', wp (solo t n) (f a) Q g') :
    wp (solo t n) (p >>= f) Q g := by
  rw [wp_bind]
  exact wp_always (fun _ _ => trivial) h g

/-! ## Single operations -/

namespace Local

/-- The same with another block, or none, at an address. -/
def put (g : Local b) (a : LPVOID) (x : Option Block) : Local b :=
  { g with cells := Function.update g.cells a x }

/-- The same with another log. -/
def logged (g : Local b) (L : Log) : Local b := { g with log := L }

/-- The same with a block that was allocated. -/
def allocate (g : Local b) (a : LPVOID) (n : Nat) (x : Block) : Local b :=
  (g.put a (some x)).logged (g.log.allocate a n)

/-- The same without a block that was deleted. -/
def delete (g : Local b) (a : LPVOID) : Local b :=
  if a = 0 then g else (g.put a none).logged (g.log.delete a)

/-- The same with another kernel. -/
def withLpc (g : Local b) (k : Lpc b) : Local b := { g with lpc := k }

@[simp] theorem put_cells_self (g : Local b) (a : LPVOID) (x : Option Block) :
    (g.put a x).cells a = x := Function.update_self ..

theorem put_cells_ne (g : Local b) {a a' : LPVOID} (h : a' ≠ a) (x : Option Block) :
    (g.put a x).cells a' = g.cells a' := Function.update_of_ne h ..

/-- What is known of the fields of a state is known of the state. -/
theorem eq_of {g : Local b} {c : Blocks} {k : Lpc b} {L : Log} (h₁ : g.cells = c)
    (h₂ : g.lpc = k) (h₃ : g.log = L) : g = ⟨c, k, L⟩ := by
  subst h₁ h₂ h₃
  rfl

theorem put_put (g : Local b) (a : LPVOID) (x y : Option Block) :
    (g.put a x).put a y = g.put a y := eq_of (Function.update_idem ..) rfl rfl

end Local

/-! ## Operations that do not matter -/

/-- The operations that leave the blocks, the kernel and the log as they are. -/
@[simp] def Quiet : Op → Prop
  | .heap (.load ..) => True
  | .loadCloseEvent _ => True
  | .id _ => True
  | .kernel (.getProcessId _) => True
  | .api o =>
      match o with
      | .storeOwn .. => False
      | .note (.mapFailed ..) => False
      | .note (.invoked ..) => False
      | _ => True
  | _ => False

/-- Nothing is known of what they give back. -/
theorem solo_quiet {t n : Nat} : Ignores (solo (b := b) t n) Quiet := by
  refine ⟨fun _ _ => trivial, ?_⟩
  rintro o ⟨c, k, L⟩ r ⟨c', k', L'⟩ ho ⟨hc, hk, hL⟩
  cases o with
  | heap o =>
      cases o with
      | load a k => exact Local.eq_of hc.1 hk hL
      | _ => exact absurd ho id
  | kernel o =>
      cases o with
      | getProcessId h =>
          obtain rfl : c' = c := hc
          obtain rfl : L' = L := hL
          cases hk
          rfl
      | _ => exact absurd ho id
  | api o =>
      cases o with
      | storeOwn x bytes => exact absurd ho id
      | loadOwn x m => exact Local.eq_of hc hk.1 hL
      | note x =>
          cases x with
          | mapFailed tmp i => exact absurd ho id
          | invoked lpRoutine args => exact absurd ho id
          | _ => exact Local.eq_of hc hk hL
      | _ => exact Local.eq_of hc hk hL
  | id o => exact Local.eq_of hc hk hL
  | loadCloseEvent a => exact Local.eq_of hc hk hL
  | _ => exact absurd ho id

theorem quiet_notInitialized : (notInitialized : Code b Bool).Only Quiet := by
  refine only_orElse ?_ ?_ <;> simp

theorem quiet_clientIdLoop (dwThreadId k i : Nat) :
    (clientIdLoop dwThreadId k i : Code b _).Only Quiet := by
  induction k generalizing i with
  | zero => trivial
  | succ k ih =>
      refine Prog.only_op_bind.mpr ⟨trivial, fun e => ?_⟩
      split
      · exact ⟨trivial, fun _ => trivial⟩
      · exact ih (i + 1)

theorem quiet_rtlSafeThreadServiceClientId :
    (rtlSafeThreadServiceClientId : Code b _).Only Quiet := by
  refine Prog.only_op_bind.mpr ⟨trivial, fun dwThreadId => ?_⟩
  refine quiet_notInitialized.bind fun v => ?_
  split
  · trivial
  · refine Prog.only_op_bind.mpr ⟨trivial, fun _ => Prog.only_op_bind.mpr ⟨trivial, fun k => ?_⟩⟩
    exact (quiet_clientIdLoop ..).bind fun _ => ⟨trivial, fun _ => trivial⟩

section Operations

variable {t n : Nat} {α : Type} {Q : α → Local b → Prop} {g : Local b}

theorem solo_load {a : LPVOID} {x : Block} (h : g.cells a = some x) {f : Block → Code b α}
    (hf : a ≠ 0 → wp (solo t n) (f x) Q g) :
    wp (solo t n) (load a x.kind >>= f) Q g := by
  refine wp_op_bind.mpr ⟨trivial, ?_⟩
  rintro r g' ⟨⟨hc, h0, hr⟩, hk, hL⟩
  rw [Local.eq_of hc hk hL, hr x h rfl]
  exact hf h0

theorem solo_loadParameters {a : LPVOID} {p : ServiceRoutineParameter}
    (h : g.cells a = some (.parameters p)) {f : ServiceRoutineParameter → Code b α}
    (hf : a ≠ 0 → wp (solo t n) (f p) Q g) :
    wp (solo t n) (loadParameters a >>= f) Q g := by
  rw [loadParameters, Prog.bind_assoc]
  exact solo_load h hf

theorem solo_loadRoutine {a : LPVOID} {r : ServiceRoutine}
    (h : g.cells a = some (.routine r)) {f : ServiceRoutine → Code b α}
    (hf : a ≠ 0 → wp (solo t n) (f r) Q g) : wp (solo t n) (loadRoutine a >>= f) Q g := by
  rw [loadRoutine, Prog.bind_assoc]
  exact solo_load h hf

theorem solo_loadMessage {a : LPVOID} {m : Nat → BYTE} {size : Nat}
    (h : g.cells a = some (.message m size)) {f : (Nat → BYTE) → Code b α}
    (hf : a ≠ 0 → wp (solo t n) (f m) Q g) : wp (solo t n) (loadMessage a >>= f) Q g := by
  rw [loadMessage, Prog.bind_assoc]
  exact solo_load h hf

theorem solo_loadBuffer {a : LPVOID} {bytes : List BYTE}
    (h : g.cells a = some (.buffer bytes)) {f : List BYTE → Code b α}
    (hf : wp (solo t n) (f bytes) Q g) : wp (solo t n) (loadBuffer a >>= f) Q g := by
  rw [loadBuffer, Prog.bind_assoc]
  exact solo_load h fun _ => hf

theorem solo_store {a : LPVOID} {x y : Block} (h : g.cells a = some x) (hk : x.kind = y.kind)
    {f : Unit → Code b α} (hf : wp (solo t n) (f ()) Q (g.put a (some y))) :
    wp (solo t n) (store a y >>= f) Q g := by
  refine wp_op_bind.mpr ⟨trivial, ?_⟩
  rintro r g' ⟨⟨-, hc⟩, hl, hL⟩
  rw [Local.eq_of (hc x h hk) hl hL]
  exact hf

theorem solo_storeEntry {a : LPVOID} {p : ServiceRoutineParameter}
    (h : g.cells a = some (.parameters p)) {i : Nat} {e : ServiceParameterBlob}
    {f : Unit → Code b α}
    (hf : wp (solo t n) (f ()) Q (g.put a (some (.parameters ⟨p.parameters.set i e⟩)))) :
    wp (solo t n) (storeEntry a i e >>= f) Q g := by
  rw [storeEntry, Prog.bind_assoc]
  refine solo_loadParameters h ?_
  intro _
  exact solo_store h (by rfl) hf

theorem solo_modifyRoutine {a : LPVOID} {r : ServiceRoutine}
    (h : g.cells a = some (.routine r)) {u : ServiceRoutine → ServiceRoutine}
    {f : Unit → Code b α}
    (hf : a ≠ 0 → wp (solo t n) (f ()) Q (g.put a (some (.routine (u r))))) :
    wp (solo t n) (modifyRoutine a u >>= f) Q g := by
  rw [modifyRoutine, Prog.bind_assoc]
  refine solo_loadRoutine h ?_
  intro h0
  exact solo_store h (by rfl) (hf h0)

theorem solo_modifyMessage {a : LPVOID} {m : Nat → BYTE} {size : Nat}
    (h : g.cells a = some (.message m size)) {u : (Nat → BYTE) → Nat → BYTE}
    {f : Unit → Code b α}
    (hf : a ≠ 0 → wp (solo t n) (f ()) Q (g.put a (some (.message (u m) size)))) :
    wp (solo t n) (modifyMessage a u >>= f) Q g := by
  rw [modifyMessage, Prog.bind_assoc]
  refine solo_load h ?_
  intro h0
  exact solo_store h (by rfl) (hf h0)

/-- A message that is received is written into the buffer. -/
theorem solo_receiveInto {lm : LPVOID} {m : Nat → BYTE} {size : Nat}
    (h : g.cells lm = some (.message m size)) {x : NTSTATUS × Option (Message b)}
    {f : NTSTATUS → Code b α} (hnone : x.2 = none → wp (solo t n) (f x.1) Q g)
    (hsome : ∀ m', x.2 = some m' →
      wp (solo t n) (f x.1) Q (g.put lm (some (.message (deliver m m') size)))) :
    wp (solo t n) (receiveInto lm x >>= f) Q g := by
  obtain ⟨st, received⟩ := x
  cases received with
  | none => exact hnone rfl
  | some m' =>
      show wp _ ((modifyMessage lm (deliver · m') >>= fun _ => pure st) >>= f) Q g
      rw [Prog.bind_assoc]
      exact solo_modifyMessage h fun _ => hsome m' rfl

theorem solo_free {a : LPVOID} {f : Unit → Code b α}
    (hf : wp (solo t n) (f ()) Q (g.delete a)) : wp (solo t n) (free a >>= f) Q g := by
  refine wp_op_bind.mpr ⟨trivial, ?_⟩
  rintro r g' ⟨hc, hl, hL⟩
  have hg' : g' = g.delete a := by
    rw [Local.eq_of hc hl hL]
    unfold Local.delete
    by_cases h0 : a = 0
    · simp [h0, Log.add]
    · simp [h0, Log.add, Local.put, Local.logged]
  rw [hg']
  exact hf

theorem solo_alloc {k : Kind} {m : Nat} {f : LPVOID → Code b α}
    (hf : ∀ a x, NewAt b k m g.cells a x → wp (solo t n) (f a) Q (g.allocate a m x)) :
    wp (solo t n) (alloc k m >>= f) Q g := by
  refine wp_op_bind.mpr ⟨trivial, ?_⟩
  rintro a g' ⟨⟨x, hnew, hc⟩, hl, hL⟩
  rw [Local.eq_of hc hl hL]
  exact hf a x hnew

theorem solo_allocNothrow {k : Kind} {m : Nat} {f : LPVOID → Code b α}
    (hno : wp (solo t n) (f 0) Q (g.logged (g.log.refuse m)))
    (hf : ∀ a x, NewAt b k m g.cells a x → wp (solo t n) (f a) Q (g.allocate a m x)) :
    wp (solo t n) (allocNothrow k m >>= f) Q g := by
  refine wp_op_bind.mpr ⟨trivial, ?_⟩
  rintro a g' ⟨⟨rfl, hc⟩ | ⟨x, hnew, hc⟩, hl, hL⟩
  · rw [Local.eq_of hc hl hL]
    exact hno
  · have hg' : g' = g.allocate a m x := by
      rw [Local.eq_of hc hl hL]
      simp [Local.allocate, Local.put, Local.logged, Log.add, hnew.nonzero]
    rw [hg']
    exact hf a x hnew

theorem solo_read {h a m : Nat} {f : NTSTATUS × List BYTE → Code b α}
    (hok : ∀ pid, g.lpc.processOf h = some pid →
      Lpc.accessible (g.lpc.memory pid).readable a m = true →
      wp (solo t n) (f (STATUS_SUCCESS, slice (g.lpc.memory pid).byte a m)) Q
        (g.logged (g.log.read (a, m) true)))
    (hno : ∀ st, ntSuccess st = false →
      wp (solo t n) (f (st, [])) Q (g.logged (g.log.read (a, m) false))) :
    wp (solo t n) (ntReadVirtualMemory h a m >>= f) Q g := by
  refine wp_op_bind.mpr ⟨trivial, ?_⟩
  rintro r ⟨c, k, L⟩ ⟨hc, E, hL⟩
  obtain rfl : c = g.cells := hc
  obtain rfl : L = _ := hL
  cases E with
  | read hp hacc => exact hok _ hp hacc
  | notRead hst =>
      have := hno _ hst
      rw [← hst] at this
      exact this

theorem solo_write {h a : Nat} {bytes : List BYTE} {f : NTSTATUS → Code b α}
    (hok : ∀ pid, g.lpc.processOf h = some pid →
      Lpc.accessible (g.lpc.memory pid).writable a bytes.length = true →
      wp (solo t n) (f STATUS_SUCCESS) Q
        ((g.logged (g.log.write (a, bytes) true)).withLpc (g.lpc.writeMemory pid a bytes)))
    (hno : ∀ st, ntSuccess st = false →
      wp (solo t n) (f st) Q (g.logged (g.log.write (a, bytes) false))) :
    wp (solo t n) (ntWriteVirtualMemory h a bytes >>= f) Q g := by
  refine wp_op_bind.mpr ⟨trivial, ?_⟩
  rintro r ⟨c, k, L⟩ ⟨hc, E, hL⟩
  obtain rfl : c = g.cells := hc
  obtain rfl : L = _ := hL
  cases E with
  | wrote hp hacc => exact hok _ hp hacc
  | notWritten hst =>
      have := hno _ hst
      rw [← hst] at this
      exact this

theorem solo_kernel {o : KernelOp} {f : o.Ret b → Code b α}
    (hf : ∀ r k, Lpc.Effect t g.lpc o r k →
      wp (solo t n) (f r) Q ((g.withLpc k).logged (g.log.add (b := b) ⟨.kernel o, r⟩))) :
    wp (solo t n) (Prog.op (Op.kernel o) >>= f) Q g := by
  refine wp_op_bind.mpr ⟨trivial, ?_⟩
  rintro r g' ⟨hc, E, hL⟩
  rw [Local.eq_of hc rfl hL]
  exact hf r g'.lpc E

theorem solo_createThread {l : Label} {f : HANDLE → Code b α}
    (hno : wp (solo t n) (f (0 : Nat)) Q g)
    (hf : ∀ (h : HANDLE) k, h ≠ 0 → g.lpc.handles.lookup h = none →
      wp (solo t n) (f h) Q (({ g with lpc := { g.lpc.opened h (.thread n) with
        lastPort := k } }).logged ((g.log.start l).grant h))) :
    wp (solo t n) (createThread l >>= f) Q g := by
  refine wp_op_bind.mpr ⟨trivial, ?_⟩
  rintro h g' ⟨hc, ⟨h0, hk⟩ | ⟨h0, hfree, k, hk⟩, hL⟩
  · rw [Local.eq_of hc hk hL]
    subst h0
    exact hno
  · rw [Local.eq_of hc hk hL]
    have := hf h k h0 hfree
    have hadd : g.log.add (b := b) ⟨.createThread l, h⟩ = (g.log.start l).grant h := by
      rw [Log.add, if_neg h0]
    rw [hadd]
    exact this

theorem solo_mapFailed {tmp : LPVOID} {i : Nat} {f : Unit → Code b α}
    (hf : wp (solo t n) (f ()) Q (g.logged (g.log.fail i))) :
    wp (solo t n) (note (.mapFailed tmp i) >>= f) Q g := by
  refine wp_op_bind.mpr ⟨trivial, ?_⟩
  rintro r g' ⟨hc, hl, hL⟩
  rw [Local.eq_of hc hl hL]
  exact hf

theorem solo_storeOwn {a : LPVOID} {bytes : List BYTE} {f : Unit → Code b α}
    (hf : wp (solo t n) (f ()) Q
      (g.withLpc (g.lpc.writeMemory g.lpc.self a.toNat bytes))) :
    wp (solo t n) (storeOwn a bytes >>= f) Q g := by
  refine wp_op_bind.mpr ⟨trivial, ?_⟩
  rintro r g' ⟨hc, hk, hL⟩
  rw [Local.eq_of hc hk hL]
  exact hf

/-- A new descriptor. -/
theorem solo_newRoutine {r : ServiceRoutine} {f : LPVOID → Code b α}
    (hf : ∀ a, NewAt b .routine 1 g.cells a (.routine r) →
      wp (solo t n) (f a) Q (g.allocate a 1 (.routine r))) :
    wp (solo t n) (newRoutine r >>= f) Q g := by
  rw [newRoutine, Prog.bind_assoc]
  refine solo_alloc ?_
  intro a x hnew
  rw [Prog.bind_assoc]
  have hx : (g.allocate a 1 x).cells a = some x := Local.put_cells_self ..
  refine solo_store (y := .routine r) hx hnew.kind ?_
  have hput : (g.allocate a 1 x).put a (some (.routine r)) = g.allocate a 1 (.routine r) :=
    Local.eq_of (Function.update_idem ..) rfl rfl
  rw [hput]
  exact hf a ⟨hnew.nonzero, hnew.pointer, hnew.new, rfl, rfl⟩

end Operations

end ScSequential
