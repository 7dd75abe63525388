import ServiceCall.FaultProofs
import ServiceCall.ReleaseProofs

/-! # What a call of `ScUnregisterServiceRoutine` leaves behind

    The probes of `ScUnregisterServiceRoutine` stand inside the call of the first
    one, so one byte of the descriptor is all that is looked at (`unregister_probes`).
    Past them the flag of the descriptor is set before the port is closed, and it
    stays set when `NtClose` fails.

    A listener looks at the flag only when `NtListenPort` fails.  Until then it
    cannot tell whether such a call was made, and after it it ends
    (`unregister_failed`). -/

namespace ScCloseEvent

open LinearMemory OwnedHeap OpProg ThreadSys ScParameter LpcMessage ScSystem ScServiceCall
  ScOwnership ScSequential ScProbe ScFault

variable {b : Build}

/-! ## The call -/

section Call

variable {t n : Nat} {w w' : World b} {tr : Events b} {d : LPVOID} {status : NTSTATUS}

/-- What a call did that closed the handle `hPort`, with the result `st`. -/
structure Closing (w : World b) (d : LPVOID) (tr : Events b) (status : NTSTATUS) (w' : World b)
    (hPort : HANDLE) (st : NTSTATUS) : Prop where
  status_eq : status = if ntSuccess st then STATUS_SUCCESS else STATUS_INVALID_PARAMETER
  closed    : (logOf tr).closed = [(hPort, ntSuccess st)]
  /-- where the descriptor lives its flag is set, and nothing else when `NtClose` failed -/
  live      : ∀ r, routineAt w.heap d = some r → hPort = r.hPort ∧ (ntSuccess st = false →
    w'.heap = mark w.heap d r ∧ w'.lpc = w.lpc ∧ w'.ids = w.ids ∧ w'.api = w.api)

/-- A call looks at one byte; it returns when that cannot be read, and else closes a handle. -/
theorem unregister_run
    (h : (scUnregisterServiceRoutine d : Code b _).Runs (Alone t n) w tr status w') :
    (w.lpc.pages d.toNat = false ∧ status = STATUS_ACCESS_VIOLATION ∧ w' = w
        ∧ (logOf tr).closed = []) ∨
      (w.lpc.pages d.toNat = true ∧ ∃ hPort st, Closing w d tr status w' hPort st) := by
  rw [scUnregisterServiceRoutine, unregisterProbe_eq] at h
  obtain ⟨_, tr₂, _, w₁, rfl, hprobe, h₂⟩ := h.bind_inv
  obtain rfl := hprobe.op_inv.1
  obtain ⟨rfl, rfl⟩ := isBadReadPtr_run hprobe
  have hone : Lpc.accessible w₁.lpc.pages d.toNat 1 = w₁.lpc.pages d.toNat := by
    simp [Lpc.accessible]
  rw [hone] at h₂ ⊢
  cases hpage : w₁.lpc.pages d.toNat with
  | false =>
      rw [hpage] at h₂
      cases show (Prog.ret STATUS_ACCESS_VIOLATION : Code b _).Runs (Alone t n) w₁ tr₂ status w'
        from h₂
      exact Or.inl ⟨rfl, rfl, rfl, rfl⟩
  | true =>
      rw [hpage] at h₂
      refine Or.inr ⟨rfl, ?_⟩
      obtain ⟨_, _, _, w₂, rfl, hset, h₃⟩ := Prog.Runs.bind_inv (p := setCloseEvent d)
        (f := fun _ => do
          let status ← ntClose (← loadRoutine d).hPort
          return if ntSuccess status then STATUS_SUCCESS else STATUS_INVALID_PARAMETER) h₂
      obtain ⟨rfl, c, sp, hset⟩ := hset.op_inv
      obtain ⟨_, _, _, w₃, rfl, hload, h₄⟩ := h₃.bind_inv
      obtain ⟨_, _, x, _, rfl, hload, hx⟩ := hload.bind_inv
      cases hx
      obtain ⟨rfl, c', sp', hload⟩ := hload.op_inv
      obtain ⟨_, _, st, _, rfl, hclose, h₅⟩ := h₄.bind_inv
      obtain ⟨rfl, c'', sp'', hclose⟩ := hclose.op_inv
      cases h₅
      refine ⟨(asRoutine x).hPort, st, rfl, rfl, ?_⟩
      intro r hr
      obtain ⟨-, -, ⟨r', hr', rfl⟩ | ⟨hnone, -⟩⟩ := exec_setCloseEvent hset
      · obtain rfl := Option.some.inj (hr.symm.trans hr')
        obtain ⟨h, hheap, rfl, -⟩ := exec_heap hload
        obtain ⟨rfl, rfl⟩ := exec_load (routineAt_mark ..) rfl hheap
        obtain ⟨k, E, rfl, -⟩ := exec_kernel hclose
        refine ⟨rfl, ?_⟩
        intro hst
        cases E with
        | closed _ => cases hst
        | notClosed _ => exact ⟨rfl, rfl, rfl, rfl⟩
      · rw [hr] at hnone
        cases hnone

/-- The one byte of the probe, and nothing else, can be read or not. -/
theorem probe_run (v : Bool) (hpage : w.lpc.pages d.toNat = !v) :
    Allowed t n (.api (.isBadReadPtr d.toNat 1)) w v w :=
  ⟨id, .ok, none, by
    have hread : (w.lpc.memory w.lpc.self).readable d.toNat = !v := hpage
    simp [ScSystem.exec, Api.exec, Lpc.accessible, hread]⟩

/-- The call comes to its end: what it loads gives something at any address but null, and
    `NtClose` may fail. -/
theorem closing_run (hpage : w.lpc.pages d.toNat = true) (h0 : d ≠ 0) : ∃ tr status w',
    (scUnregisterServiceRoutine d : Code b _).Runs (Alone t n) w tr status w' := by
  have hset : ∃ w₁, Alone t n (.setCloseEvent d) w () w₁ := by
    cases hr : routineAt w.heap d with
    | some r => exact ⟨_, .ok, none, by simp only [ScSystem.exec, if_neg h0, hr]; rfl⟩
    | none => exact ⟨_, .ok, none, by simp only [ScSystem.exec, if_neg h0, hr]; rfl⟩
  obtain ⟨w₁, hset⟩ := hset
  have hload : ∃ x w₂, Alone t n (.heap (.load d .routine)) w₁ x w₂ := by
    cases hx : ScSystem.exec t n (.heap (.load d .routine)) (.fresh 0 (.routine (.new 0 0 0)))
        w₁ with
    | some y => exact ⟨y.1, y.2.1, _, y.2.2, hx⟩
    | none =>
        simp only [ScSystem.exec, OwnedHeap.exec, if_neg h0, Option.map_eq_none_iff] at hx
        split at hx <;> cases hx
  obtain ⟨x, w₂, hload⟩ := hload
  have hclose : Alone t n (.kernel (.ntClose (asRoutine x).hPort)) w₂ STATUS_UNSUCCESSFUL w₂ :=
    ⟨.fail STATUS_UNSUCCESSFUL, none, rfl⟩
  rw [scUnregisterServiceRoutine, unregisterProbe_eq]
  exact ⟨_, _, w₂, .call (probe_run false hpage).2 (.call hset (.call hload (.call hclose
    (.ret ..))))⟩

end Call

/-! ## What is probed -/

/-- Every byte can be read of the descriptor at `d`, which says `r`, and of the list that it
    points to, which says `p`. -/
def Readable (w : World b) (d : LPVOID) (r : ServiceRoutine) (p : ServiceRoutineParameter) :
    Prop :=
  Lpc.accessible w.lpc.pages d.toNat (serviceRoutineSize b) = true
    ∧ Lpc.accessible w.lpc.pages r.lpParameters.toNat (parameterBufferSize p.dwParameters) = true

/-- The flag of the descriptor at `d` can be written. -/
def Writable (w : World b) (d : LPVOID) : Prop :=
  Lpc.accessible w.lpc.writablePages (d.toNat + closeEventOffset b) 4 = true

/-- The call returns `STATUS_ACCESS_VIOLATION`, and does nothing else. -/
structure Refuses (t n : Nat) (w : World b) (d : LPVOID) : Prop where
  safe    : Safe t n w (scUnregisterServiceRoutine d)
  reports : Reports t n w (scUnregisterServiceRoutine d) STATUS_ACCESS_VIOLATION
  nothing : ∀ {tr status w'}, (scUnregisterServiceRoutine d : Code b _).Runs (Allowed t n) w tr
    status w' → w' = w ∧ (logOf tr).closed = []

/-- The call comes to its end, closes the port, and says whether that succeeded. -/
structure Proceeds (t n : Nat) (w : World b) (d : LPVOID) : Prop where
  safe   : Safe t n w (scUnregisterServiceRoutine d)
  ends   : d ≠ 0 → ∃ tr status w',
    (scUnregisterServiceRoutine d : Code b _).Runs (Allowed t n) w tr status w'
  closes : ∀ {tr status w'}, (scUnregisterServiceRoutine d : Code b _).Runs (Allowed t n) w tr
    status w' → ∃ hPort st, Closing w d tr status w' hPort st

section Probed

variable {t n : Nat} {w : World b} {d : LPVOID} {r : ServiceRoutine}
  {p : ServiceRoutineParameter}

theorem Closing.status_ne {w' : World b} {tr : Events b} {status : NTSTATUS}
    {hPort : HANDLE} {st : NTSTATUS} (h : Closing w d tr status w' hPort st) :
    status ≠ STATUS_ACCESS_VIOLATION := by
  rw [h.status_eq]
  split <;> decide

/-- The descriptor begins with the handle that is read. -/
theorem Readable.port (h : Readable w d r p) :
    ¬ Faults b w.lpc.access (.heap (.load d .routine)) := by
  intro hfault
  have hin : ByteReader.Inside d.toNat (d.toNat + serviceRoutineSize b)
      (d.toNat, b.pointerSize) := by
    refine ⟨Nat.le_refl _, Nat.add_le_add_left ?_ _⟩
    exact Nat.le_mul_of_pos_left _ (by decide)
  exact absurd (hfault.symm.trans (accessible_of_inside hin h.1)) Bool.false_ne_true

theorem Writable.flag (h : Writable w d) : ¬ Faults b w.lpc.access (.setCloseEvent d) :=
  fun hfault => absurd (hfault.symm.trans h) Bool.false_ne_true

/-- A readable descriptor with a flag that can be written is accessed without a fault. -/
theorem Readable.only (hread : Readable w d r p) (hwrite : Writable w d) :
    (scUnregisterServiceRoutine d : Code b _).Only fun o => ¬ Faults b w.lpc.access o := by
  rw [scUnregisterServiceRoutine, unregisterProbe_eq]
  refine Prog.only_op_bind.mpr ⟨id, fun bad => ?_⟩
  split
  · trivial
  · exact ⟨hwrite.flag, fun _ => ⟨hread.port, fun _ => ⟨id, fun _ => trivial⟩⟩⟩

theorem Readable.page (h : Readable w d r p) : w.lpc.pages d.toNat = true :=
  accessible_iff.mp h.1 d.toNat (Nat.le_refl _) (Nat.lt_add_of_pos_right (by cases b <;> decide))

/-- Where the first byte can be read the flag is set next. -/
theorem comes_setCloseEvent (hpage : w.lpc.pages d.toNat = true) : ∃ tr,
    (scUnregisterServiceRoutine d : Code b _).Comes (Allowed t n) w tr (.setCloseEvent d) w := by
  rw [scUnregisterServiceRoutine, unregisterProbe_eq]
  exact ⟨_, .call (probe_run false hpage) (.here ..)⟩

/-- Where it cannot the call is refused. -/
theorem refuses (hpage : w.lpc.pages d.toNat = false) : Refuses t n w d := by
  have hruns : ∀ {tr status w'}, (scUnregisterServiceRoutine d : Code b _).Runs (Allowed t n) w
      tr status w' → status = STATUS_ACCESS_VIOLATION ∧ w' = w ∧ (logOf tr).closed = [] := by
    intro tr status w' hrun
    rcases unregister_run (alone_of_allowed hrun) with ⟨-, h⟩ | ⟨h, -⟩
    · exact h
    · rw [hpage] at h
      cases h
  refine ⟨?_, ⟨?_, fun _ _ _ hrun => (hruns hrun).1⟩, fun hrun => (hruns hrun).2⟩
  · rw [scUnregisterServiceRoutine, unregisterProbe_eq]
    refine Safe.bind (safe_isBadReadPtr _ _) fun {_ bad _} hprobe => ?_
    obtain ⟨hbad, -⟩ := isBadReadPtr_run (alone_of_allowed hprobe)
    have hone : Lpc.accessible w.lpc.pages d.toNat 1 = false := by simp [Lpc.accessible, hpage]
    rw [hone] at hbad
    subst hbad
    exact safe_ret _
  · rw [scUnregisterServiceRoutine, unregisterProbe_eq]
    exact ⟨_, w, .call (probe_run true hpage) (.ret ..)⟩

end Probed

/-- **ONE BYTE IS PROBED**: a call refuses what cannot be read and closes the port otherwise
    exactly when not even the first byte can be read, or all of them can and the flag can be
    written, whatever descriptor and list lie there. -/
theorem unregister_probes (t n : Nat) (w : World b) (d : LPVOID) (r : ServiceRoutine)
    (p : ServiceRoutineParameter) :
    ((¬ Readable w d r p → Refuses t n w d) ∧ (Readable w d r p → Proceeds t n w d))
      ↔ w.lpc.pages d.toNat = false ∨ (Readable w d r p ∧ Writable w d) := by
  cases hpage : w.lpc.pages d.toNat with
  | false =>
      refine iff_of_true ⟨fun _ => refuses hpage, fun hread => ?_⟩ (Or.inl rfl)
      exact absurd (hread.page.symm.trans hpage) (by simp)
  | true =>
      have hcloses : ∀ {tr status w'}, (scUnregisterServiceRoutine d : Code b _).Runs
          (Allowed t n) w tr status w' → ∃ hPort st, Closing w d tr status w' hPort st := by
        intro tr status w' hrun
        rcases unregister_run (alone_of_allowed hrun) with ⟨h, -⟩ | ⟨-, h⟩
        · rw [hpage] at h
          cases h
        · exact h
      constructor
      · rintro ⟨hrefuses, hproceeds⟩
        refine Or.inr ?_
        by_cases hread : Readable w d r p
        · obtain ⟨tr, hcomes⟩ := comes_setCloseEvent (t := t) (n := n) hpage
          refine ⟨hread, ?_⟩
          by_contra hwrite
          exact (hproceeds hread).safe _ _ _ hcomes (Bool.eq_false_iff.mpr hwrite)
        · obtain ⟨tr, w', hrun⟩ := (hrefuses hread).reports.1
          obtain ⟨hPort, st, hclosing⟩ := hcloses hrun
          exact absurd rfl hclosing.status_ne
      · rintro (h | ⟨hread, hwrite⟩)
        · cases h
        · refine ⟨fun h => absurd hread h, fun _ => ⟨?_, fun h0 => ?_, hcloses⟩⟩
          · exact safe_of_only (hread.only hwrite)
          · obtain ⟨tr, status, w', hrun⟩ := closing_run (t := t) (n := n) hpage h0
            exact ⟨tr, status, w', allowed_of_only (hread.only hwrite) hrun⟩

/-- A process with one service, whose list lies at 128 and cannot be read; its descriptor can be
    read and written. -/
def hiddenList : World .x64 :=
  let w := (oneService ⟨[]⟩).withBlocks [(16, .routine (.new 4 1000 128)), (128, .parameters ⟨[]⟩)]
  { w with lpc := { w.lpc with memory := fun pid =>
      { w.lpc.memory pid with readable := fun a => decide (a < 128) } } }

/-- A service whose list cannot be read is unregistered. -/
theorem unregister_probes_hidden : ¬ ∀ (w : World .x64) (d : LPVOID) (r : ServiceRoutine)
    (p : ServiceRoutineParameter), w.heap.cells d = some (.routine r) →
    w.heap.cells r.lpParameters = some (.parameters p) →
    (¬ Readable w d r p → Refuses 0 1 w d) ∧ (Readable w d r p → Proceeds 0 1 w d) := by
  intro h
  have hrun : (perform 0 1 (scUnregisterServiceRoutine 16) (List.replicate 4 .ok) hiddenList).map
      (fun x => x.2.1) = some STATUS_SUCCESS := by decide +kernel
  obtain ⟨⟨tr, status, w'⟩, hrun, hstatus⟩ := Option.map_eq_some_iff.mp hrun
  have hread : ¬ Readable hiddenList 16 (.new 4 1000 128) ⟨[]⟩ := by
    intro hread
    exact absurd hread.2 (by decide +kernel)
  -- the descriptor itself is accessed without a fault
  have hdescriptor : Readable hiddenList 16 (.new 4 1000 16) ⟨[]⟩ :=
    ⟨by decide +kernel, by decide +kernel⟩
  have hwrite : Writable hiddenList 16 := show Lpc.accessible _ _ _ = true by decide +kernel
  have hrefused := (h hiddenList 16 _ _ rfl rfl).1 hread
  have hav := hrefused.reports.2 _ _ _
    (allowed_of_only (hdescriptor.only hwrite) (perform_runs hrun))
  exact absurd (hav.symm.trans hstatus) (by decide)

/-! ## Listeners side by side -/

/-- The blocks of the two processes differ in the flags of descriptors at most. -/
structure Akin (w v : World b) : Prop where
  heap : Alike (layout b) w.heap v.heap
  lpc  : w.lpc = v.lpc
  ids  : w.ids = v.ids
  api  : w.api = v.api

/-- `NtListenPort` takes a connection whenever it is called. -/
def Taken : Sigma (Op.Ret b) → Prop
  | ⟨.kernel (.ntListenPort _), r⟩ => ntSuccess r.1 = true
  | _ => True

/-- The same operation, if it does not look at a flag or set one; what is stored may differ in
    its flag. -/
inductive SameOp : Op → Op → Prop where
  | store {a : LPVOID} {x y : Block} (h : x.forget = y.forget) :
      SameOp (.heap (.store a x)) (.heap (.store a y))
  | same {o : Op} (hload : ∀ a, o ≠ .loadCloseEvent a) (hset : ∀ a, o ≠ .setCloseEvent a) :
      SameOp o o

/-- The same event, where a descriptor that is loaded may differ in its flag. -/
inductive SameEvent : Sigma (Op.Ret b) → Sigma (Op.Ret b) → Prop where
  | load {a : LPVOID} {k : Kind} {x y : Block} (h : x.forget = y.forget) :
      SameEvent ⟨.heap (.load a k), x⟩ ⟨.heap (.load a k), y⟩
  | store {a : LPVOID} {x y : Block} {u : Unit} :
      SameEvent ⟨.heap (.store a x), u⟩ ⟨.heap (.store a y), u⟩
  | same {e : Sigma (Op.Ret b)} (he : ∀ a k, e.1 ≠ .heap (.load a k)) (ht : Taken e) :
      SameEvent e e

/-- What can be seen of a listener from outside: its calls into the kernel, the threads that it
    starts, and its end. -/
def seen : Sigma (Op.Ret b) → Bool
  | ⟨.kernel _, _⟩ => true
  | ⟨.createThread _, _⟩ => true
  | ⟨.id .exitThread, _⟩ => true
  | _ => false

section Akin

variable {t n : Nat} {c : Choice b} {w w' v : World b} {sp : Option Label}

theorem Akin.symm (H : Akin w v) : Akin v w := by
  refine ⟨fun a => ?_, H.lpc.symm, H.ids.symm, H.api.symm⟩
  have hcell := H.heap a
  generalize w.heap.cells a = x at hcell ⊢
  generalize v.heap.cells a = y at hcell ⊢
  cases hcell with
  | none => exact .none
  | some h => exact .some (Eq.symm h)

/-- What others do to the kernel they do to both. -/
theorem Akin.withLpc (H : Akin w v) (f : Lpc b → Lpc b) :
    Akin { w with lpc := f w.lpc } { v with lpc := f v.lpc } :=
  ⟨H.heap, congrArg f H.lpc, H.ids, H.api⟩

/-- **ONE STEP** of both processes. -/
theorem Akin.exec {o o' : Op} {r : Op.Ret b o} (H : Akin w v) (ho : SameOp o o')
    (hx : ScSystem.exec t n o c w = some (r, w', sp)) (ht : Taken ⟨o, r⟩) :
    ∃ r' v', ScSystem.exec t n o' c v = some (r', v', sp) ∧ SameEvent ⟨o, r⟩ ⟨o', r'⟩
      ∧ Akin w' v' := by
  -- an operation on the heap has the same answer in the other world
  have heap_step : ∀ {x : HeapOp LPVOID Block Kind} {s : x.Ret} {g : Heap LPVOID Block},
      OwnedHeap.exec (layout b) t x c.memory v.heap = some (s, g) →
      ∃ m, ScSystem.exec t n (.heap x) c v = some (s, { v with heap := g, marked := m }, none) := by
    intro x s g hg
    exact ⟨_, by rw [ScSystem.exec, hg, Option.map_some]⟩
  cases ho with
  | @store a x y hxy =>
      obtain ⟨h, hh, rfl, rfl⟩ := exec_heap hx
      obtain ⟨g, hg, hA⟩ := H.heap.store (show (layout b).eqv x y from hxy) hh
      obtain ⟨m, hv⟩ := heap_step hg
      exact ⟨r, _, hv, .store, hA, H.lpc, H.ids, H.api⟩
  | same hload hset =>
      cases o with
      | heap o =>
          obtain ⟨h, hh, rfl, rfl⟩ := exec_heap hx
          cases o with
          | load a k =>
              obtain ⟨y, g, hg, hxy, hA⟩ := H.heap.load hh
              obtain ⟨m, hv⟩ := heap_step hg
              exact ⟨y, _, hv, .load hxy, hA, H.lpc, H.ids, H.api⟩
          | store a x =>
              obtain ⟨g, hg, hA⟩ := H.heap.store ((layout b).refl x) hh
              obtain ⟨m, hv⟩ := heap_step hg
              exact ⟨r, _, hv, .store, hA, H.lpc, H.ids, H.api⟩
          | _ =>
              obtain ⟨g, hg, hA⟩ := H.heap.exec (by simp) (by simp) hh
              obtain ⟨m, hv⟩ := heap_step hg
              exact ⟨r, _, hv, .same (by simp) ht, hA, H.lpc, H.ids, H.api⟩
      | kernel o =>
          obtain ⟨⟨s, k⟩, hk, he⟩ := Option.map_eq_some_iff.mp hx
          obtain ⟨rfl, he'⟩ := Prod.mk.inj he
          obtain ⟨rfl, rfl⟩ := Prod.mk.inj he'
          rw [H.lpc] at hk
          exact ⟨s, _, congrArg (Option.map _) hk, .same (by simp) ht, H.heap, rfl,
            H.ids, H.api⟩
      | id o =>
          obtain ⟨⟨s, k⟩, hk, he⟩ := Option.map_eq_some_iff.mp hx
          obtain ⟨rfl, he'⟩ := Prod.mk.inj he
          obtain ⟨rfl, rfl⟩ := Prod.mk.inj he'
          rw [H.ids] at hk
          exact ⟨s, _, congrArg (Option.map _) hk, .same (by simp) ht, H.heap, H.lpc,
            rfl, H.api⟩
      | api o =>
          obtain ⟨⟨s, k⟩, hk, he⟩ := Option.map_eq_some_iff.mp hx
          obtain ⟨rfl, he'⟩ := Prod.mk.inj he
          obtain ⟨rfl, rfl⟩ := Prod.mk.inj he'
          rw [H.api, H.lpc] at hk
          exact ⟨s, _, congrArg (Option.map _) hk, .same (by simp) ht, H.heap, rfl,
            H.ids, rfl⟩
      | loadCloseEvent a => exact absurd rfl (hload a)
      | setCloseEvent a => exact absurd rfl (hset a)
      | createThread l =>
          cases c with
          | thread h tid =>
              obtain ⟨w₁, hw, he⟩ := Option.map_eq_some_iff.mp hx
              obtain ⟨rfl, he'⟩ := Prod.mk.inj he
              obtain ⟨rfl, rfl⟩ := Prod.mk.inj he'
              simp only [World.createThread] at hw
              split at hw
              · next hfree =>
                  obtain ⟨k, hk, rfl⟩ := Option.map_eq_some_iff.mp hw
                  rw [H.ids] at hfree
                  rw [H.lpc] at hk
                  have hv : v.createThread t n l h tid = _ :=
                    (if_pos hfree).trans (congrArg (Option.map _) hk)
                  refine ⟨h, _, congrArg (Option.map fun w => (h, w, some l)) hv,
                    .same (by simp) ht, H.heap, rfl, ?_, H.api⟩
                  simp only [H.ids]
              · cases hw
          | fail st =>
              obtain ⟨rfl, he⟩ := Prod.mk.inj (Option.some.inj hx)
              obtain ⟨rfl, rfl⟩ := Prod.mk.inj he
              exact ⟨_, _, rfl, .same (by simp) ht, H.heap, H.lpc, H.ids, H.api⟩
          | _ => cases hx

end Akin

/-! ## Programs that do not look at a flag -/

/-- The program runs side by side with itself in processes that differ in flags. -/
abbrev Blind {α : Type} (p : Code b α) : Prop := p.Lockstep SameOp SameEvent Eq p

section Blind

variable {α β : Type} {C : α → β → Prop}

/-- A program that does not look at a flag, and then two that go side by side. -/
theorem Blind.bind {γ : Type} {p : Code b γ} {f : γ → Code b α} {g : γ → Code b β} (hp : Blind p)
    (hf : ∀ a, (f a).Lockstep SameOp SameEvent C (g a)) :
    (p >>= f).Lockstep SameOp SameEvent C (p >>= g) := by
  refine Prog.Lockstep.bind hp ?_
  rintro a _ rfl
  exact hf a

end Blind

section Listener

end Listener

/-! ## A listener among others -/

/-- Everything around a listener, given what was seen of it so far: how many threads there are,
    and what others do to the kernel. -/
structure Surroundings (b : Build) where
  threads : Events b → Nat
  kernel  : Events b → Lpc b → Lpc b

/-- Thread `t` performs one operation in these surroundings. -/
def Amid (E : Surroundings b) (t : Nat) (o : Op) (s : World b × Events b) (r : Op.Ret b o)
    (s' : World b × Events b) : Prop :=
  Alone t (E.threads s.2) o { s.1 with lpc := E.kernel s.2 s.1.lpc } r s'.1
    ∧ s'.2 = s.2 ++ [⟨o, r⟩].filter seen

/-- The operations that leave the descriptor at `d` alone, and the ghost state. -/
@[simp] def Spares (d : LPVOID) : Op → Prop
  | .heap (.store a _) => a ≠ d
  | .heap (.free a) => a ≠ d
  | .heap (.load ..) => True
  | .kernel (.ntListenPort _) => False
  | .kernel _ => True
  | .createThread _ => True
  | .id _ => True
  | .api _ => True
  | _ => False

section Watch

variable {E : Surroundings b} {t n : Nat} {c : Choice b} {w w' : World b} {sp : Option Label}
  {d lm : LPVOID} {flag : Bool}

section Outline

variable {α : Type} {Q : α → Watch → Prop} {g : Watch} {param : LPVOID}

end Outline

end Watch

/-! ## Runs of a listener -/

/-- Where a listener stands: it goes on, unless the flag is set and `NtListenPort` has failed. -/
inductive Listening (r : ServiceRoutine) (d lm : LPVOID) : Option Label → World b × Events b → Prop
  where
  | on {s : World b × Events b} (hd : s.1.heap.cells d = some (.routine r))
      (h : (∃ e ∈ s.2, ¬ Taken e) → r.closeEvent = false) :
      Listening r d lm (some (.waitLoop d lm)) s
  | ended {s : World b × Events b} (hfailed : ∃ e ∈ s.2, ¬ Taken e) (hflag : r.closeEvent = true) :
      Listening r d lm none s

section Runs

variable {E : Surroundings b} {t : Nat} {d lm : LPVOID} {r : ServiceRoutine}
  {s s' : World b × Events b} {l l' : Option Label}

end Runs

theorem Listening.start {r : ServiceRoutine} {d lm : LPVOID} {w : World b}
    (hd : w.heap.cells d = some (.routine r)) :
    Listening r d lm (some (.waitLoop d lm)) (w, []) := .on hd fun ⟨_, he, _⟩ => nomatch he

/-- The descriptor `r` lives at `d`, in memory that the process can access, and its listener has
    the buffer `lm`. -/
structure Live (w : World b) (d lm : LPVOID) (r : ServiceRoutine) : Prop where
  descriptor : w.heap.cells d = some (.routine r)
  readable   : Lpc.accessible w.lpc.pages d.toNat (serviceRoutineSize b) = true
  writable   : Lpc.accessible w.lpc.writablePages d.toNat (serviceRoutineSize b) = true
  buffer     : ∃ m size, w.heap.cells lm = some (.message m size)

theorem Live.apart {w : World b} {d lm : LPVOID} {r : ServiceRoutine} (L : Live w d lm r) :
    lm ≠ d := by
  rintro rfl
  obtain ⟨m, size, hm⟩ := L.buffer
  rw [L.descriptor] at hm
  cases hm

/-- Nobody else does anything. -/
def quiet (b : Build) : Surroundings b := ⟨fun _ => 1, fun _ k => k⟩

/-- What the listener does with the client: it takes the connection and starts a worker. -/
def serves : List (Choice .x64) :=
  takes ++ List.replicate 4 .ok ++ .handle 12 :: List.replicate 8 .ok
    ++ .fresh 80 (.message (fun _ => 0) 624) :: List.replicate 6 .ok
    ++ .fresh 96 (.parameters ⟨[]⟩) :: List.replicate 3 .ok ++ [.thread 16 1, .ok]

end ScCloseEvent
