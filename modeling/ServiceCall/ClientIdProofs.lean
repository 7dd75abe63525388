import Mathlib.Data.List.InsertIdx
import ServiceCall.ServiceCallProofs

/-! # The list of client ids

    Workers of all services share one list: each pushes its client's handle
    under its own thread id, looks it up while its routine runs, and takes it
    out again.  Thread ids come back once a thread has exited.

    The outline gives a thread the content of the list while it is in the
    critical section; the invariant says that the list is, in some order, the
    entries of the workers between their push and their erase. -/

namespace ScClientId

open OpProg ThreadSys ScParameter LpcMessage ScSystem ScServiceCall

variable {b : Build}

/-- What a thread knows: the list while it is in the critical section, where it
    stands, its id, whether it has exited and whether it has closed a handle. -/
structure Ghost where
  view   : Option (List (HANDLE × Nat))
  phase  : Phase
  tid    : Nat
  exited : Bool
  closed : Bool

/-- The list has an entry with the id of this thread exactly when it is between
    push and erase, and then with the handle it pushed. -/
def Sees (g : Ghost) (l : List (HANDLE × Nat)) : Prop :=
  (∀ e ∈ l, e.2 = g.tid → g.phase = .between e.1) ∧
  ∀ h, g.phase = .between h → (h, g.tid) ∈ l

/-- What a lookup owes a thread. -/
def Answer (phase : Phase) (status : NTSTATUS) (hProcess : HANDLE) : Prop :=
  match phase with
  | .between h => status = STATUS_SUCCESS ∧ hProcess = h
  | _ => status = STATUS_NOT_FOUND

/-- Labels a new thread may be started at. -/
def Start : Label → Prop
  | .waitThread _ => True
  | .waitLoop .. => True
  | .workerThread _ => True
  | .app _ => True
  | _ => False

/-- What holds where a label is entered. -/
def Entry (l : Label) (g : Ghost) : Prop :=
  g.view = none ∧ g.exited = false ∧
  match l with
  | .routine _ _ dwThread _ => dwThread = g.tid ∧ ∃ h, g.phase = .between h
  | .workerReturn _ _ dwThread _ => dwThread = g.tid ∧ ∃ h, g.phase = .between h
  | .workerThread _ => g.phase = .before ∧ g.closed = false
  | _ => g.phase = .before

/-- What has to hold where an operation is performed. -/
def Pre : Op → Ghost → Prop
  | .id .enterCriticalSection, g => g.view = none ∧ g.exited = false
  | .id .leaveCriticalSection, g => g.view ≠ none
  | .id (.pushBack _ dwThread), g =>
      g.view ≠ none ∧ g.phase = .before ∧ dwThread = g.tid ∧ g.exited = false
        ∧ g.closed = false
  | .id (.erase i), g => ∃ l h, g.view = some l ∧ g.phase = .between h
      ∧ l[i]? = some (h, g.tid)
  | .id .exitThread, g => g.view = none ∧ ∀ h, g.phase ≠ .between h
  | .id .initializeCriticalSection, _ => False
  | .id .newClientIdList, _ => False
  | .kernel (.ntClose _), g => ∀ h, g.phase ≠ .between h
  | .api (.note (.clientId status h)), g => Answer g.phase status h
  | .createThread l, _ => Start l
  | _, _ => True

/-- What holds after it. -/
def Post : (o : Op) → Ghost → Op.Ret b o → Ghost → Prop
  | .id .enterCriticalSection, g, _, g' => ∃ l, Sees g l ∧ g' = { g with view := some l }
  | .id .leaveCriticalSection, g, _, g' => g' = { g with view := none }
  | .id (.pushBack h dwThread), g, _, g' =>
      g' = { g with view := g.view.map (· ++ [(h, dwThread)]), phase := .between h }
  | .id (.erase i), g, _, g' =>
      g' = { g with view := g.view.map (·.eraseIdx i), phase := .after }
  | .id .exitThread, g, _, g' => g' = { g with exited := true }
  | .id .uniqueThread, g, r, g' => g' = g ∧ r = g.tid
  | .id .lpCriticalSection, g, r, g' => g' = g ∧ r = true
  | .id .clientIdListNew, g, r, g' => g' = g ∧ r = true
  | .id .size, g, r, g' => g' = g ∧ ∀ l, g.view = some l → r = l.length
  | .id (.at i), g, r, g' => g' = g ∧ ∀ l, g.view = some l → l[i]? = some r
  | .kernel (.ntClose _), g, _, g' => g' = { g with closed := true }
  | _, g, _, g' => g' = g

/-- The proof outline of the list. -/
def outline (b : Build) : Outline Op (Op.Ret b) Ghost where
  pre := Pre
  post := Post

/-- Nothing else matters to it. -/
theorem ignores : Ignores (outline b) Inner where
  pre := by
    intro o g ho
    cases o with
    | createThread l => exact ho.elim
    | kernel o => cases o <;> first | exact trivial | exact ho.elim
    | id o => cases o <;> first | exact trivial | exact ho.elim
    | api o =>
        cases o with
        | note n => cases n <;> first | exact trivial | exact ho.elim
        | _ => exact trivial
    | _ => exact trivial
  post := by
    intro o g r g' ho h
    cases o with
    | id o => cases o <;> first | exact h | exact ho.elim
    | kernel o => cases o <;> first | exact h | exact ho.elim
    | _ => exact h

/-! ## The code meets the outline -/

variable {α : Type} {Q : α → Ghost → Prop} {g : Ghost}

/-- A loop over the list that has not met the thread's id yet: when the id is
    not in the list at all, the thread is not between push and erase. -/
theorem sees_not_found {l : List (HANDLE × Nat)} (hs : Sees g l)
    (hno : ∀ i, i < l.length → ∀ e, l[i]? = some e → e.2 ≠ g.tid) :
    ∀ h, g.phase ≠ .between h := by
  intro h hp
  obtain ⟨i, hi⟩ := List.getElem?_of_mem (hs.2 h hp)
  exact hno i (List.getElem?_eq_some_iff.mp hi).1 _ hi rfl

/-- `RtlSafeThreadServiceClientId` from index `i` on. -/
theorem wp_clientIdLoop {l : List (HANDLE × Nat)} (hv : g.view = some l)
    (hs : Sees g l) {f : NTSTATUS × HANDLE × Nat → Code b α}
    (hf : ∀ r, Answer g.phase r.1 r.2.1 → wp (outline b) (f r) Q g) :
    ∀ k i, i + k = l.length →
      (∀ j, j < i → ∀ e, l[j]? = some e → e.2 ≠ g.tid) →
      wp (outline b) (clientIdLoop g.tid k i >>= f) Q g := by
  intro k
  induction k with
  | zero =>
      intro i hi hno
      have hout := sees_not_found hs (fun j hj => hno j (by omega))
      refine hf _ ?_
      show Answer g.phase STATUS_NOT_FOUND 0
      unfold Answer
      split
      · next h hp => exact absurd hp (hout h)
      · rfl
  | succ k ih =>
      intro i hi hno
      refine ⟨trivial, ?_⟩
      rintro e g' ⟨rfl, he⟩
      have hget := he l hv
      by_cases hid : e.2 = g'.tid
      · show wp (outline b) ((if e.2 = g'.tid then _ else _) >>= f) Q g'
        rw [if_pos hid]
        refine ⟨trivial, ?_⟩
        rintro pid g₂ rfl
        refine hf _ ?_
        show Answer g₂.phase STATUS_SUCCESS e.1
        rw [hs.1 e (List.mem_of_getElem? hget) hid]
        exact ⟨rfl, rfl⟩
      · show wp (outline b) ((if e.2 = g'.tid then _ else _) >>= f) Q g'
        rw [if_neg hid]
        refine ih (i + 1) (by omega) ?_
        intro j hj e' he'
        by_cases hji : j = i
        · subst hji
          rw [hget] at he'
          rw [← Option.some.inj he']
          exact hid
        · exact hno j (by omega) e' he'

/-- **A LOOKUP** gives the thread its answer and changes nothing. -/
theorem wp_lookup (hv : g.view = none) (hx : g.exited = false)
    {f : NTSTATUS × HANDLE × Nat → Code b α}
    (hf : ∀ r, Answer g.phase r.1 r.2.1 → wp (outline b) (f r) Q g) :
    wp (outline b) (rtlSafeThreadServiceClientId >>= f) Q g := by
  refine ⟨trivial, ?_⟩
  rintro _ _ ⟨rfl, rfl⟩
  refine ⟨trivial, ?_⟩
  rintro _ _ ⟨rfl, rfl⟩
  refine ⟨trivial, ?_⟩
  rintro _ g₁ ⟨rfl, rfl⟩
  refine ⟨⟨hv, hx⟩, ?_⟩
  rintro _ _ ⟨l, hs, rfl⟩
  refine ⟨trivial, ?_⟩
  rintro n _ ⟨rfl, hn⟩
  rw [hn l rfl]
  show wp (outline b) ((clientIdLoop g₁.tid l.length 0 >>= _) >>= f) Q _
  rw [wp_bind]
  refine wp_clientIdLoop (g := { g₁ with view := some l }) rfl hs ?_ l.length 0
    (Nat.zero_add _) ?_
  · intro r hr
    refine ⟨Option.some_ne_none l, ?_⟩
    rintro _ _ rfl
    have hg : ({ g₁ with view := none } : Ghost) = g₁ := by rw [← hv]
    show wp (outline b) (f r) Q { g₁ with view := none }
    rw [hg]
    exact hf r hr
  · intro j hj
    exact absurd hj (Nat.not_lt_zero j)

/-- `WorkerThread`'s erase, from index `i` on: the thread's entry is there. -/
theorem wp_eraseLoop {l : List (HANDLE × Nat)} (hv : g.view = some l)
    (hs : Sees g l) {h : HANDLE} (hp : g.phase = .between h) {f : Unit → Code b α}
    (hf : ∀ g', g'.view ≠ none → g'.tid = g.tid → g'.exited = g.exited →
      g'.phase = .after → wp (outline b) (f ()) Q g') :
    ∀ k i, i + k = l.length →
      (∀ j, j < i → ∀ e, l[j]? = some e → e.2 ≠ g.tid) →
      wp (outline b) (eraseLoop g.tid k i >>= f) Q g := by
  intro k
  induction k with
  | zero =>
      intro i hi hno
      exact absurd hp (sees_not_found hs (fun j hj => hno j (by omega)) h)
  | succ k ih =>
      intro i hi hno
      refine ⟨trivial, ?_⟩
      rintro e g₁ ⟨rfl, he⟩
      have hget := he l hv
      by_cases hid : e.2 = g₁.tid
      · show wp (outline b) ((if e.2 = g₁.tid then _ else _) >>= f) Q g₁
        rw [if_pos hid]
        have hhe : Phase.between h = .between e.1 :=
          hp.symm.trans (hs.1 e (List.mem_of_getElem? hget) hid)
        refine ⟨⟨l, h, hv, hp, ?_⟩, ?_⟩
        · rw [hget, Phase.between.inj hhe, ← hid]
        · rintro _ g₂ rfl
          refine hf _ ?_ rfl rfl rfl
          show g₁.view.map (·.eraseIdx i) ≠ none
          rw [hv]
          exact Option.some_ne_none _
      · show wp (outline b) ((if e.2 = g₁.tid then _ else _) >>= f) Q g₁
        rw [if_neg hid]
        refine ih (i + 1) (by omega) ?_
        intro j hj e' he'
        by_cases hji : j = i
        · subst hji
          rw [hget] at he'
          rw [← Option.some.inj he']
          exact hid
        · exact hno j (by omega) e' he'

/-- The last part of `WorkerThread`. -/
theorem wp_workerFinish (lpService : LPVOID) {h : HANDLE} (hv : g.view = none)
    (hp : g.phase = .between h) (hx : g.exited = false) :
    wp (outline b) (workerFinish lpService g.tid) (leave Entry) g := by
  unfold workerFinish
  apply ignores.bind (by simp)
  intro n
  apply ignores.bind (by simp)
  intro r₁
  apply ignores.bind (by simp)
  intro _
  apply ignores.bind (by simp)
  intro r₂
  apply ignores.bind (by simp)
  intro _
  apply ignores.bind (by simp)
  intro r₃
  apply ignores.bind (by simp)
  intro lm
  refine wp_op_bind.mpr ⟨trivial, ?_⟩
  rintro x g₂ rfl
  apply ignores.bind (by simp)
  intro _
  refine wp_op_bind.mpr ⟨⟨hv, hx⟩, ?_⟩
  rintro _ _ ⟨l, hs, rfl⟩
  refine wp_op_bind.mpr ⟨trivial, ?_⟩
  rintro k _ ⟨rfl, hk⟩
  rw [hk l rfl]
  refine wp_eraseLoop (g := { g₂ with view := some l }) rfl hs hp ?_ l.length 0
    (Nat.zero_add _) (fun j hj => absurd hj (Nat.not_lt_zero j))
  intro g₃ hv₃ ht₃ hx₃ hp₃
  have hout : ∀ h, g₃.phase ≠ .between h := by
    intro h'
    rw [hp₃]
    exact Phase.noConfusion
  refine wp_op_bind.mpr ⟨hv₃, ?_⟩
  rintro _ _ rfl
  apply ignores.bind (by simp)
  intro r₄
  refine wp_op_bind.mpr ⟨hout, ?_⟩
  rintro _ _ rfl
  apply ignores.bind (by simp)
  intro r₅
  refine wp_op_bind.mpr ⟨hout, ?_⟩
  rintro _ _ rfl
  apply ignores.bind (by simp)
  intro r₆
  apply ignores.bind (by simp)
  intro _
  apply ignores.bind (by simp)
  intro _
  refine wp_op_bind.mpr ⟨⟨rfl, hout⟩, ?_⟩
  intro _ _ _
  trivial

/-- `WorkerThread` up to the call of the routine. -/
theorem wp_workerThread (lpService : LPVOID) (hg : Entry (.workerThread lpService) g) :
    wp (outline b) (workerThread lpService) (leave Entry) g := by
  obtain ⟨hv, hx, hp, hc⟩ := hg
  unfold workerThread
  refine wp_op_bind.mpr ⟨⟨hv, hx⟩, ?_⟩
  rintro _ _ ⟨l, hs, rfl⟩
  apply ignores.bind (by simp)
  intro r
  refine wp_op_bind.mpr ⟨trivial, ?_⟩
  rintro _ _ ⟨rfl, rfl⟩
  refine wp_op_bind.mpr ⟨⟨Option.some_ne_none l, hp, rfl, hx, hc⟩, ?_⟩
  rintro _ _ rfl
  refine wp_op_bind.mpr ⟨Option.some_ne_none _, ?_⟩
  rintro _ _ rfl
  apply ignores.bind (by simp)
  intro _
  apply ignores.bind (by simp)
  intro r'
  apply ignores.bind (by simp)
  intro lpMappedParam
  by_cases h0 : lpMappedParam = 0
  · rw [if_pos h0]
    apply ignores.bind (by simp)
    intro _
    exact wp_workerFinish lpService rfl rfl hx
  · rw [if_neg h0]
    apply ignores.bind (by simp)
    intro r''
    apply ignores.bind (by simp)
    intro p
    refine wp_op_bind.mpr ⟨trivial, ?_⟩
    rintro _ _ rfl
    exact ⟨rfl, hx, rfl, r.hClientProcess, rfl⟩

/-- The service routine. -/
theorem wp_routine (lpService lpMappedParam : LPVOID) (dwThread : Nat)
    (bufs : List LPVOID)
    (hg : Entry (.routine lpService lpMappedParam dwThread bufs) g) :
    wp (outline b) (routine lpService lpMappedParam dwThread bufs) (leave Entry) g := by
  unfold routine
  refine wp_op_bind.mpr ⟨trivial, ?_⟩
  rintro a g₁ rfl
  cases a with
  | write i k v =>
      apply ignores.bind (by simp)
      intro _
      exact hg
  | clientId =>
      refine wp_lookup hg.1 hg.2.1 ?_
      intro r hr
      refine wp_op_bind.mpr ⟨hr, ?_⟩
      rintro _ _ rfl
      exact hg
  | ret status => exact hg

/-- `WorkerThread` from the return of the routine on. -/
theorem wp_workerReturn (lpService lpMappedParam : LPVOID) (dwThread : Nat)
    (status : NTSTATUS)
    (hg : Entry (.workerReturn lpService lpMappedParam dwThread status) g) :
    wp (outline b) (workerReturn lpService lpMappedParam dwThread status)
      (leave Entry) g := by
  obtain ⟨hv, hx, rfl, h, hp⟩ := hg
  unfold workerReturn
  apply ignores.bind (by simp)
  intro _
  apply ignores.bind (by simp)
  intro r
  apply ignores.bind (by simp)
  intro ok
  by_cases hok : ok = true
  · rw [if_pos hok]
    apply ignores.bind (by simp)
    intro _
    exact wp_workerFinish lpService hv hp hx
  · rw [if_neg hok]
    apply ignores.bind (by simp)
    intro _
    apply ignores.bind (by simp)
    intro _
    exact wp_workerFinish lpService hv hp hx

/-! ### What is pushed -/

/-- The operations that push no entry. -/
@[simp] def PushesNot : Op → Prop
  | .id (.pushBack ..) => False
  | _ => True

theorem pushesNot_of_inner {p : Code b α} (hp : p.Only Inner) : p.Only PushesNot := by
  refine hp.mono ?_
  intro o ho
  cases o with
  | id o => cases o <;> first | exact trivial | exact ho.elim
  | _ => exact trivial

theorem pushesNot_eraseLoop (dwThread k i : Nat) :
    (eraseLoop dwThread k i : Code b Unit).Only PushesNot := by
  induction k generalizing i with
  | zero => trivial
  | succ k ih =>
      refine Prog.only_op_bind.mpr ⟨trivial, fun e => ?_⟩
      split
      · exact ⟨trivial, fun _ => trivial⟩
      · exact ih (i + 1)

theorem pushesNot_workerFinish (lpService : LPVOID) (dwThread : Nat) :
    (workerFinish lpService dwThread : Code b _).Only PushesNot := by
  have hload : ∀ {a}, (loadRoutine a : Code b _).Only PushesNot := only_loadRoutine.mpr trivial
  have hmodify : ∀ {a f}, (modifyMessage a f : Code b _).Only PushesNot :=
    only_modifyMessage.mpr ⟨trivial, fun _ => trivial⟩
  refine Prog.only_op_bind.mpr ⟨trivial, fun n => ?_⟩
  refine hload.bind fun _ => hmodify.bind fun _ => hload.bind fun _ => hmodify.bind fun _ => ?_
  refine hload.bind fun r => (only_loadMessage.mpr trivial).bind fun lm => ⟨trivial, fun x => ?_⟩
  refine (pushesNot_of_inner (inner_receiveInto ..)).bind fun _ => ?_
  refine ⟨trivial, fun _ => ⟨trivial, fun k => (pushesNot_eraseLoop ..).bind fun _ => ?_⟩⟩
  refine ⟨trivial, fun _ => hload.bind fun _ => ⟨trivial, fun _ => hload.bind fun _ => ?_⟩⟩
  exact ⟨trivial, fun _ => hload.bind fun _ => ⟨trivial, fun _ => ⟨trivial, fun _ =>
    ⟨trivial, fun _ => trivial⟩⟩⟩⟩

/-- **THE PUSHED ENTRY**: a worker comes to a push once, in the critical section it has
    just entered, with the handle of the client of its descriptor and its own id. -/
theorem workerThread_pushes {W : Type} {R : (o : Op) → W → Op.Ret b o → W → Prop} {w w' : W}
    {tr : List (Sigma (Op.Ret b))} {lpService : LPVOID} {h : HANDLE} {dwThread : Nat}
    (hc : (workerThread lpService : Code b _).Comes R w tr (.id (.pushBack h dwThread)) w') :
    ∃ x : Block, h = (asRoutine x).hClientProcess ∧
      tr = [⟨.id .enterCriticalSection, ()⟩, ⟨.heap (.load lpService .routine), x⟩,
        ⟨.id .uniqueThread, dwThread⟩] := by
  unfold workerThread at hc
  rcases hc.bind_inv with hc | ⟨_, _, _, _, rfl, h₁, hc₁⟩
  · cases hc.op_inv.2.1
  obtain ⟨rfl, -⟩ := h₁.op_inv
  rcases hc₁.bind_inv with hc | ⟨_, _, r, _, rfl, h₂, hc₂⟩
  · exact ((only_loadRoutine.mpr trivial : (loadRoutine lpService : Code b _).Only
      PushesNot).comes hc).elim
  obtain ⟨_, _, x, _, rfl, h₃, h₄⟩ := h₂.bind_inv
  obtain ⟨rfl, -⟩ := h₃.op_inv
  cases h₄
  rcases hc₂.bind_inv with hc | ⟨_, _, dw, _, rfl, h₅, hc₃⟩
  · cases hc.op_inv.2.1
  obtain ⟨rfl, -⟩ := h₅.op_inv
  rcases hc₃.bind_inv with hc | ⟨_, _, _, _, rfl, -, hc₄⟩
  · obtain ⟨rfl, ho, -⟩ := hc.op_inv
    cases ho
    exact ⟨x, rfl, rfl⟩
  · -- there is no second push
    refine (Prog.Only.comes (S := PushesNot) ?_ hc₄).elim
    refine ⟨trivial, fun _ => (pushesNot_of_inner (inner_normalize _)).bind fun _ => ?_⟩
    refine (only_loadRoutine.mpr trivial).bind fun r' => ?_
    refine (pushesNot_of_inner (inner_rtlMapPtrParameters ..)).bind fun lpMappedParam => ?_
    split
    · exact (pushesNot_of_inner (inner_setStatus ..)).bind fun _ => pushesNot_workerFinish ..
    · exact (only_loadRoutine.mpr trivial).bind fun _ =>
        (only_loadParameters.mpr trivial).bind fun _ => ⟨trivial, fun _ => trivial⟩

/-! ### Everybody else -/

/-- A thread that is no worker is never between push and erase. -/
theorem outside (hp : g.phase = .before) : ∀ h, g.phase ≠ .between h := by
  intro h
  rw [hp]
  exact Phase.noConfusion

theorem wp_acceptConnectPort (param lm : LPVOID) (accept : Bool)
    {f : NTSTATUS → Code b α} (hf : ∀ status, wp (outline b) (f status) Q g) :
    wp (outline b) (acceptConnectPort param lm accept >>= f) Q g := by
  unfold acceptConnectPort
  rw [wp_bind]
  apply ignores.bind (by simp)
  intro m
  refine wp_op_bind.mpr ⟨trivial, ?_⟩
  rintro x g₁ rfl
  by_cases hx : (ntSuccess x.1 && accept) = true
  · rw [if_pos hx]
    apply ignores.bind (by simp)
    intro _
    exact hf x.1
  · rw [if_neg hx]
    exact hf x.1

theorem wp_waitRefuse (lpService lm param : LPVOID) (hg : Entry (.waitLoop lpService lm) g) :
    wp (outline b) (waitRefuse lpService lm param) (leave Entry) g := by
  unfold waitRefuse
  apply wp_acceptConnectPort
  intro _
  apply ignores.bind (by simp)
  intro r
  by_cases hr : r.hClientProcess ≠ 0
  · rw [if_pos hr]
    apply ignores.bind (by simp)
    intro r'
    refine wp_op_bind.mpr ⟨outside hg.2.2, ?_⟩
    rintro _ _ rfl
    apply ignores.bind (by simp)
    intro _
    exact hg
  · rw [if_neg hr]
    apply ignores.bind (by simp)
    intro _
    exact hg

theorem wp_waitAbandon (lpService lm param : LPVOID)
    (hg : Entry (.waitLoop lpService lm) g) :
    wp (outline b) (waitAbandon lpService lm param) (leave Entry) g := by
  unfold waitAbandon
  apply ignores.bind (by simp)
  intro r
  refine wp_op_bind.mpr ⟨outside hg.2.2, ?_⟩
  rintro _ _ rfl
  apply ignores.bind (by simp)
  intro _
  exact hg

theorem wp_waitDispatch (lpService lm param : LPVOID) (callparam : Nat)
    (hg : Entry (.waitLoop lpService lm) g) :
    wp (outline b) (waitDispatch lpService lm param callparam) (leave Entry) g := by
  unfold waitDispatch
  apply ignores.bind (by simp)
  intro copy
  apply ignores.bind (by simp)
  intro m
  apply ignores.bind (by simp)
  intro _
  apply ignores.bind (by simp)
  intro _
  apply ignores.bind (by simp)
  intro captured
  apply ignores.bind (by simp)
  intro _
  refine wp_op_bind.mpr ⟨trivial, ?_⟩
  rintro h _ rfl
  exact hg

theorem wp_waitAccept (lpService lm param : LPVOID) (callparam : Nat)
    (hg : Entry (.waitLoop lpService lm) g) :
    wp (outline b) (waitAccept lpService lm param callparam) (leave Entry) g := by
  unfold waitAccept
  apply wp_acceptConnectPort
  intro status
  split
  · apply ignores.bind (by simp)
    intro r
    refine wp_op_bind.mpr ⟨trivial, ?_⟩
    rintro status _ rfl
    split
    · unfold waitReceive
      apply ignores.bind (by simp)
      intro r'
      refine wp_op_bind.mpr ⟨trivial, ?_⟩
      rintro x _ rfl
      apply ignores.bind (by simp)
      intro status
      split
      · exact wp_waitDispatch lpService lm param callparam hg
      · exact wp_waitAbandon lpService lm param hg
    · exact wp_waitAbandon lpService lm param hg
  · exact wp_waitAbandon lpService lm param hg

theorem wp_waitConnection (lpService lm : LPVOID) (hg : Entry (.waitLoop lpService lm) g) :
    wp (outline b) (waitConnection lpService lm) (leave Entry) g := by
  unfold waitConnection
  apply ignores.bind (by simp)
  intro r
  apply ignores.bind (by simp)
  intro param
  apply ignores.bind (by simp)
  intro m
  refine wp_op_bind.mpr ⟨trivial, ?_⟩
  rintro hClientProcess _ rfl
  apply ignores.bind (by simp)
  intro _
  apply ignores.bind (by simp)
  intro m'
  apply ignores.bind (by simp)
  intro refused
  split
  · exact wp_waitRefuse lpService lm param hg
  · exact wp_waitAccept lpService lm param (callparam m') hg

theorem wp_waitLoop (lpService lm : LPVOID) (hg : Entry (.waitLoop lpService lm) g) :
    wp (outline b) (waitLoop lpService lm) (leave Entry) g := by
  unfold waitLoop
  refine wp_op_bind.mpr ⟨trivial, ?_⟩
  rintro _ _ rfl
  apply ignores.bind (by simp)
  intro r
  refine wp_op_bind.mpr ⟨trivial, ?_⟩
  rintro x _ rfl
  apply ignores.bind (by simp)
  intro status
  split
  · exact wp_waitConnection lpService lm hg
  · refine wp_op_bind.mpr ⟨trivial, ?_⟩
    rintro closeEvent _ rfl
    split
    · unfold waitExit
      apply ignores.bind (by simp)
      intro _
      apply ignores.bind (by simp)
      intro r
      apply ignores.bind (by simp)
      intro _
      apply ignores.bind (by simp)
      intro _
      refine wp_op_bind.mpr ⟨⟨hg.1, outside hg.2.2⟩, ?_⟩
      rintro _ _ rfl
      exact trivial
    · exact hg

theorem wp_waitThread (lpService : LPVOID) (hg : Entry (.waitThread lpService) g) :
    wp (outline b) (waitThread lpService) (leave Entry) g := by
  unfold waitThread
  apply ignores.bind (by simp)
  intro lm
  apply ignores.bind (by simp)
  intro _
  exact hg

/-- Nothing but the record of closed handles has changed. -/
def Same (g g' : Ghost) : Prop :=
  g'.view = g.view ∧ g'.phase = g.phase ∧ g'.tid = g.tid ∧ g'.exited = g.exited

theorem Same.refl (g : Ghost) : Same g g := ⟨rfl, rfl, rfl, rfl⟩

theorem wp_notInitialized {f : Bool → Code b α} (hf : wp (outline b) (f false) Q g) :
    wp (outline b) (notInitialized >>= f) Q g := by
  refine ⟨trivial, ?_⟩
  rintro _ _ ⟨rfl, rfl⟩
  refine ⟨trivial, ?_⟩
  rintro _ _ ⟨rfl, rfl⟩
  exact hf

theorem wp_scRegisterServiceRoutineW (hServiceRoutine lpServiceRoutine
    lpParameters : LPVOID) (name : Option (List WCHAR)) (hp : g.phase = .before)
    {f : NTSTATUS → Code b α}
    (hf : ∀ status g', Same g g' → wp (outline b) (f status) Q g') :
    wp (outline b) (scRegisterServiceRoutineW hServiceRoutine lpServiceRoutine
      lpParameters name >>= f) Q g := by
  unfold scRegisterServiceRoutineW
  rw [wp_bind]
  apply wp_notInitialized
  rw [if_neg Bool.false_ne_true]
  apply ignores.bind (by simp)
  intro bad
  split
  · exact hf _ _ (Same.refl _)
  · apply ignores.bind (by simp)
    intro us
    apply ignores.bind (by simp)
    intro _
    apply ignores.bind (by simp)
    intro captured
    split
    · apply ignores.bind (by simp)
      intro _
      exact hf _ _ (Same.refl _)
    · refine wp_op_bind.mpr ⟨trivial, ?_⟩
      rintro x _ rfl
      split
      · apply ignores.bind (by simp)
        intro _
        apply ignores.bind (by simp)
        intro hResult
        refine wp_op_bind.mpr ⟨trivial, ?_⟩
        rintro h _ rfl
        split
        · apply ignores.bind (by simp)
          intro _
          apply ignores.bind (by simp)
          intro _
          refine wp_op_bind.mpr ⟨outside hp, ?_⟩
          rintro _ _ rfl
          exact hf _ _ ⟨rfl, rfl, rfl, rfl⟩
        · apply ignores.bind (by simp)
          intro _
          exact hf _ _ (Same.refl _)
      · apply ignores.bind (by simp)
        intro _
        apply ignores.bind (by simp)
        intro _
        exact hf _ _ (Same.refl _)

theorem wp_scUnregisterServiceRoutine (lpService : LPVOID) (hp : g.phase = .before)
    {f : NTSTATUS → Code b α}
    (hf : ∀ status g', Same g g' → wp (outline b) (f status) Q g') :
    wp (outline b) (scUnregisterServiceRoutine lpService >>= f) Q g := by
  unfold scUnregisterServiceRoutine
  rw [wp_bind]
  apply ignores.bind (by simp)
  intro bad
  split
  · exact hf _ _ (Same.refl _)
  · apply ignores.bind (by simp)
    intro _
    apply ignores.bind (by simp)
    intro r
    refine wp_op_bind.mpr ⟨outside hp, ?_⟩
    rintro status _ rfl
    exact hf _ _ ⟨rfl, rfl, rfl, rfl⟩

theorem wp_app (calls : List Call) (hg : Entry (.app calls) g) :
    wp (outline b) (app calls) (leave Entry) g := by
  cases calls with
  | nil =>
      refine wp_op_bind.mpr ⟨⟨hg.1, outside hg.2.2⟩, ?_⟩
      rintro _ _ rfl
      exact trivial
  | cons c calls =>
      refine wp_op_bind.mpr ⟨trivial, ?_⟩
      rintro _ _ rfl
      show wp (outline b) (makeCall c >>= _) (leave Entry) _
      rw [wp_bind]
      cases c with
      | register h r p name =>
          apply wp_scRegisterServiceRoutineW h r p name hg.2.2
          rintro status g' ⟨hv, hp, -, hx⟩
          refine wp_op_bind.mpr ⟨trivial, ?_⟩
          rintro _ _ rfl
          exact ⟨hv.trans hg.1, hx.trans hg.2.1, hp.trans hg.2.2⟩
      | unregister h =>
          apply wp_scUnregisterServiceRoutine h hg.2.2
          rintro status g' ⟨hv, hp, -, hx⟩
          refine wp_op_bind.mpr ⟨trivial, ?_⟩
          rintro _ _ rfl
          exact ⟨hv.trans hg.1, hx.trans hg.2.1, hp.trans hg.2.2⟩
      | clientId =>
          apply wp_lookup hg.1 hg.2.1
          intro r hr
          refine wp_op_bind.mpr ⟨hr, ?_⟩
          rintro _ _ rfl
          refine wp_op_bind.mpr ⟨trivial, ?_⟩
          rintro _ _ rfl
          exact hg

/-- **EVERY LABEL** meets the outline. -/
theorem wp_code (l : Label) (hg : Entry l g) :
    wp (outline b) (code l) (leave Entry) g := by
  cases l with
  | waitThread d => exact wp_waitThread d hg
  | waitLoop d lm => exact wp_waitLoop d lm hg
  | workerThread p => exact wp_workerThread p hg
  | routine p m d bufs => exact wp_routine p m d bufs hg
  | workerReturn p m d status => exact wp_workerReturn p m d status hg
  | app calls => exact wp_app calls hg

/-! ## The invariant -/

/-- The entry a worker pushes. -/
def entryOf (s : Ids) (t : Nat) : HANDLE × Nat :=
  match s.phase t with
  | .between h => (h, s.tid t)
  | _ => (0, s.tid t)

/-- The list has exactly one entry for each worker between push and erase, and
    no other entry. -/
def Listed (s : Ids) : Prop :=
  ∃ order : List Nat, order.Nodup ∧ (∀ t, t ∈ order ↔ ∃ h, s.phase t = .between h)
    ∧ s.clientIdList = order.map (entryOf s)

/-- Ids are distinct among the first `n` threads as far as they live. -/
def Apart (n : Nat) (s : Ids) : Prop :=
  ∀ t u, t < n → u < n → s.exited t = false → s.exited u = false →
    s.tid t = s.tid u → t = u

/-- What holds at any time, among `n` threads, of the statics of the library and
    the record of closed handles. -/
structure Inv (n : Nat) (s : Ids) (closes : List (Nat × HANDLE))
    (gs : Nat → Ghost) : Prop where
  ready  : s.lpCriticalSection = true ∧ s.clientIdListNew = true
  owner  : s.owner = [] ∨ ∃ t, t < n ∧ s.owner = [t]
  view   : ∀ t, t < n →
    (gs t).view = if s.owner = [t] then some s.clientIdList else none
  phase  : ∀ t, t < n → s.phase t = (gs t).phase
  tid    : ∀ t, t < n → s.tid t = (gs t).tid
  exited : ∀ t, t < n → s.exited t = (gs t).exited
  idle   : ∀ t, n ≤ t → s.phase t = .before
  apart  : Apart n s
  alive  : ∀ t h, s.phase t = .between h → s.exited t = false
  listed : Listed s
  closed : ∀ t h', t < n → (gs t).closed = false → (t, h') ∉ closes
  unclosed : ∀ t h, s.phase t = .between h → (gs t).closed = false
  closes : ∀ t h, (t, h) ∈ closes → t < n

theorem entryOf_between {s : Ids} {t : Nat} {h : HANDLE} (hp : s.phase t = .between h) :
    entryOf s t = (h, s.tid t) := by
  unfold entryOf
  rw [hp]

/-- An entry depends on the id and the phase of its worker only. -/
theorem entryOf_congr {s s' : Ids} {u : Nat} (htid : s'.tid u = s.tid u)
    (hphase : s'.phase u = s.phase u) : entryOf s' u = entryOf s u := by
  unfold entryOf
  rw [htid, hphase]

/-- Pushing the entry of a worker that has none. -/
theorem Listed.push {s : Ids} {t : Nat} (H : Listed s) (hp : s.phase t = .before)
    (h : HANDLE) :
    Listed { s with clientIdList := s.clientIdList ++ [(h, s.tid t)],
                    phase := Function.update s.phase t (.between h) } := by
  obtain ⟨order, hnd, hmem, hlist⟩ := H
  have hnot : t ∉ order := by
    intro ht
    obtain ⟨h', hp'⟩ := (hmem t).mp ht
    rw [hp] at hp'
    exact nomatch hp'
  refine ⟨order ++ [t], ?_, ?_, ?_⟩
  · refine List.Nodup.append hnd (List.nodup_singleton t) ?_
    rw [List.disjoint_singleton]
    exact hnot
  · intro u
    rw [List.mem_append, List.mem_singleton, hmem u]
    show _ ↔ ∃ h', Function.update s.phase t (.between h) u = .between h'
    by_cases hut : u = t
    · subst hut
      rw [Function.update_self]
      exact ⟨fun _ => ⟨h, rfl⟩, fun _ => Or.inr rfl⟩
    · rw [Function.update_of_ne hut]
      exact ⟨fun hu => hu.resolve_right hut, Or.inl⟩
  · rw [List.map_append, List.map_singleton]
    show s.clientIdList ++ [(h, s.tid t)] = _
    rw [hlist]
    refine congrArg₂ (· ++ ·) (List.map_congr_left ?_) ?_
    · intro u hu
      have hut : u ≠ t := by
        rintro rfl
        exact hnot hu
      refine (entryOf_congr ?_ ?_).symm
      · rfl
      · exact Function.update_of_ne hut ..
    · rw [entryOf_between (Function.update_self ..)]

/-- Erasing the entry of a worker at its index. -/
theorem Listed.erase {s : Ids} {t i : Nat} {h : HANDLE} (H : Listed s)
    (huniq : ∀ u h', s.phase u = .between h' → s.tid u = s.tid t → u = t)
    (hi : s.clientIdList[i]? = some (h, s.tid t)) :
    Listed { s with clientIdList := s.clientIdList.eraseIdx i,
                    phase := Function.update s.phase t .after } := by
  obtain ⟨order, hnd, hmem, hlist⟩ := H
  rw [hlist, List.getElem?_map] at hi
  obtain ⟨u, hu, hentry⟩ := Option.map_eq_some_iff.mp hi
  have hut : u = t := by
    obtain ⟨h', hp⟩ := (hmem u).mp (List.mem_of_getElem? hu)
    rw [entryOf_between hp] at hentry
    exact huniq u h' hp (congrArg Prod.snd hentry)
  subst hut
  obtain ⟨hlt, hget⟩ := List.getElem?_eq_some_iff.mp hu
  have herase : order.eraseIdx i = order.erase u := by
    rw [← hget]
    exact (List.Nodup.erase_getElem hnd i hlt).symm
  refine ⟨order.erase u, hnd.erase u, ?_, ?_⟩
  · intro v
    rw [hnd.mem_erase_iff, hmem v]
    show _ ↔ ∃ h', Function.update s.phase u .after v = .between h'
    by_cases hvu : v = u
    · subst hvu
      rw [Function.update_self]
      exact ⟨fun hv => absurd rfl hv.1, fun hv => nomatch hv⟩
    · rw [Function.update_of_ne hvu]
      exact ⟨fun hv => hv.2, fun hv => ⟨hvu, hv⟩⟩
  · show s.clientIdList.eraseIdx i = _
    rw [hlist, List.eraseIdx_map, herase]
    refine List.map_congr_left ?_
    intro v hv
    have hvu : v ≠ u := (hnd.mem_erase_iff.mp hv).1
    refine (entryOf_congr ?_ ?_).symm
    · rfl
    · exact Function.update_of_ne hvu ..

/-- A part of the ghost state that the step leaves alone. -/
theorem update_part {γ : Type} (π : Ghost → γ) {gs : Nat → Ghost} {t : Nat} {g : Ghost}
    (h : π g = π (gs t)) (u : Nat) : π (Function.update gs t g u) = π (gs u) := by
  by_cases hu : u = t
  · subst hu
    rw [Function.update_self]
    exact h
  · rw [Function.update_of_ne hu]

namespace Inv

variable {n t : Nat} {s s' : Ids} {closes : List (Nat × HANDLE)} {gs : Nat → Ghost}

/-- A worker between push and erase is one of the threads. -/
theorem lt (H : Inv n s closes gs) {h : HANDLE} (hp : s.phase t = .between h) :
    t < n := by
  by_contra hge
  rw [H.idle t (Nat.le_of_not_lt hge)] at hp
  exact nomatch hp

/-- What a living thread sees in the list. -/
theorem sees (H : Inv n s closes gs) (ht : t < n) (hx : (gs t).exited = false) :
    Sees (gs t) s.clientIdList := by
  obtain ⟨order, hnd, hmem, hlist⟩ := H.listed
  constructor
  · intro e he hid
    rw [hlist] at he
    obtain ⟨u, hu, rfl⟩ := List.mem_map.mp he
    obtain ⟨h, hp⟩ := (hmem u).mp hu
    rw [entryOf_between hp] at hid ⊢
    have hut : u = t := by
      refine H.apart u t (H.lt hp) ht (H.alive u h hp) ?_ ?_
      · rw [H.exited t ht]
        exact hx
      · rw [H.tid t ht]
        exact hid
    subst hut
    rw [← H.phase u ht]
    exact hp
  · intro h hp
    rw [← H.phase t ht] at hp
    rw [hlist]
    refine List.mem_map.mpr ⟨t, (hmem t).mpr ⟨h, hp⟩, ?_⟩
    rw [entryOf_between hp, H.tid t ht]

/-- Outside the critical section a thread sees nothing. -/
theorem owner_of_view (H : Inv n s closes gs) (ht : t < n) (hv : (gs t).view ≠ none) :
    s.owner = [t] ∧ (gs t).view = some s.clientIdList := by
  have := H.view t ht
  split at this
  · next ho => exact ⟨ho, this⟩
  · exact absurd this hv

/-- Entering the critical section. -/
theorem enter (H : Inv n s closes gs) (ht : t < n) (hv : (gs t).view = none)
    (howner : ∀ u ∈ s.owner, u = t) :
    Inv n { s with owner := t :: s.owner } closes
      (Function.update gs t { gs t with view := some s.clientIdList }) := by
  have hfree : s.owner = [] := by
    rcases H.owner with h | ⟨u, -, h⟩
    · exact h
    · have hut : u = t := howner u (by rw [h]; exact List.mem_singleton_self u)
      have := H.view t ht
      rw [h, hut, if_pos rfl, hv] at this
      exact nomatch this
  refine ⟨H.ready, Or.inr ⟨t, ht, by rw [hfree]⟩, ?_, ?_, ?_, ?_, H.idle, H.apart,
    H.alive, H.listed, ?_, ?_, H.closes⟩
  · intro u hu
    by_cases hut : u = t
    · subst hut
      rw [Function.update_self, hfree, if_pos rfl]
    · have := H.view u hu
      rw [hfree, if_neg (by simp)] at this
      rw [Function.update_of_ne hut, this, hfree, if_neg]
      intro h
      exact hut (List.cons.inj h).1.symm
  · intro u hu
    exact (H.phase u hu).trans (update_part Ghost.phase (by rfl) u).symm
  · intro u hu
    exact (H.tid u hu).trans (update_part Ghost.tid (by rfl) u).symm
  · intro u hu
    exact (H.exited u hu).trans (update_part Ghost.exited (by rfl) u).symm
  · intro u h' hu
    rw [update_part Ghost.closed (by rfl) u]
    exact H.closed u h' hu
  · intro u h' hu
    rw [update_part Ghost.closed (by rfl) u]
    exact H.unclosed u h' hu

/-- Leaving it. -/
theorem leave' (H : Inv n s closes gs) (ht : t < n) (hv : (gs t).view ≠ none) :
    Inv n { s with owner := s.owner.tail } closes
      (Function.update gs t { gs t with view := none }) := by
  obtain ⟨ho, -⟩ := H.owner_of_view ht hv
  refine ⟨H.ready, Or.inl (by rw [ho]; rfl), ?_, ?_, ?_, ?_, H.idle, H.apart,
    H.alive, H.listed, ?_, ?_, H.closes⟩
  · intro u hu
    rw [ho, List.tail_cons, if_neg (by simp)]
    by_cases hut : u = t
    · subst hut
      rw [Function.update_self]
    · have := H.view u hu
      rw [ho, if_neg] at this
      · rw [Function.update_of_ne hut, this]
      · intro h
        exact hut (List.cons.inj h).1.symm
  · intro u hu
    exact (H.phase u hu).trans (update_part Ghost.phase (by rfl) u).symm
  · intro u hu
    exact (H.tid u hu).trans (update_part Ghost.tid (by rfl) u).symm
  · intro u hu
    exact (H.exited u hu).trans (update_part Ghost.exited (by rfl) u).symm
  · intro u h' hu
    rw [update_part Ghost.closed (by rfl) u]
    exact H.closed u h' hu
  · intro u h' hu
    rw [update_part Ghost.closed (by rfl) u]
    exact H.unclosed u h' hu

/-- Steps of the thread in the critical section that change the list and its
    own phase. -/
theorem relist (H : Inv n s closes gs) (ht : t < n) (hv : (gs t).view ≠ none)
    {l : List (HANDLE × Nat)} {p : Phase}
    (hlisted : Listed { s with clientIdList := l, phase := Function.update s.phase t p })
    (halive : ∀ h, p = .between h → s.exited t = false)
    (hopen : ∀ h, p = .between h → (gs t).closed = false) :
    Inv n { s with clientIdList := l, phase := Function.update s.phase t p } closes
      (Function.update gs t { gs t with view := some l, phase := p }) := by
  obtain ⟨ho, -⟩ := H.owner_of_view ht hv
  have hphase : ∀ {u h}, Function.update s.phase t p u = .between h →
      (u = t ∧ p = .between h) ∨ s.phase u = .between h := by
    intro u h hu
    by_cases hut : u = t
    · subst hut
      rw [Function.update_self] at hu
      exact Or.inl ⟨rfl, hu⟩
    · rw [Function.update_of_ne hut] at hu
      exact Or.inr hu
  refine ⟨H.ready, H.owner, ?_, ?_, ?_, ?_, ?_, H.apart, ?_, hlisted, ?_, ?_, H.closes⟩
  -- only the owner sees the list
  · intro u hu
    by_cases hut : u = t
    · subst hut
      rw [Function.update_self, if_pos ho]
    · have := H.view u hu
      have hne : s.owner ≠ [u] := by
        rw [ho]
        intro h
        exact hut (List.cons.inj h).1.symm
      rw [if_neg hne] at this
      rw [Function.update_of_ne hut, this, if_neg hne]
  · intro u hu
    by_cases hut : u = t
    · subst hut
      show Function.update s.phase u p u = _
      rw [Function.update_self, Function.update_self]
    · show Function.update s.phase t p u = _
      rw [Function.update_of_ne hut, Function.update_of_ne hut]
      exact H.phase u hu
  · intro u hu
    exact (H.tid u hu).trans (update_part Ghost.tid (by rfl) u).symm
  · intro u hu
    exact (H.exited u hu).trans (update_part Ghost.exited (by rfl) u).symm
  · intro u hu
    have hut : u ≠ t := by omega
    show Function.update s.phase t p u = .before
    rw [Function.update_of_ne hut]
    exact H.idle u hu
  · intro u h hu
    rcases hphase hu with ⟨rfl, hp⟩ | hu
    · exact halive h hp
    · exact H.alive u h hu
  · intro u h' hu
    rw [update_part Ghost.closed (by rfl) u]
    exact H.closed u h' hu
  · intro u h hu
    rw [update_part Ghost.closed (by rfl) u]
    rcases hphase hu with ⟨rfl, hp⟩ | hu
    · exact hopen h hp
    · exact H.unclosed u h hu

/-- A thread that exits. -/
theorem exit (H : Inv n s closes gs) (ht : t < n) (hp : ∀ h, (gs t).phase ≠ .between h) :
    Inv n { s with exited := Function.update s.exited t true } closes
      (Function.update gs t { gs t with exited := true }) := by
  have hlive : ∀ {u}, Function.update s.exited t true u = false →
      u ≠ t ∧ s.exited u = false := by
    intro u hu
    by_cases hut : u = t
    · subst hut
      rw [Function.update_self] at hu
      exact nomatch hu
    · rw [Function.update_of_ne hut] at hu
      exact ⟨hut, hu⟩
  refine ⟨H.ready, H.owner, ?_, ?_, ?_, ?_, H.idle, ?_, ?_, H.listed, ?_, ?_, H.closes⟩
  · intro u hu
    exact (update_part Ghost.view (by rfl) u).trans (H.view u hu)
  · intro u hu
    exact (H.phase u hu).trans (update_part Ghost.phase (by rfl) u).symm
  · intro u hu
    exact (H.tid u hu).trans (update_part Ghost.tid (by rfl) u).symm
  · intro u hu
    show Function.update s.exited t true u = _
    by_cases hut : u = t
    · subst hut
      rw [Function.update_self, Function.update_self]
    · rw [Function.update_of_ne hut, Function.update_of_ne hut]
      exact H.exited u hu
  · intro u v hu hv hxu hxv
    exact H.apart u v hu hv (hlive hxu).2 (hlive hxv).2
  · intro u h hu
    have hut : u ≠ t := by
      rintro rfl
      exact hp h ((H.phase u ht).symm.trans hu)
    show Function.update s.exited t true u = false
    rw [Function.update_of_ne hut]
    exact H.alive u h hu
  · intro u h' hu
    rw [update_part Ghost.closed (by rfl) u]
    exact H.closed u h' hu
  · intro u h' hu
    rw [update_part Ghost.closed (by rfl) u]
    exact H.unclosed u h' hu

/-- **A STEP ON THE LIST** keeps the invariant. -/
theorem exec (H : Inv n s closes gs) (ht : t < n) {o : IdOp} {r : o.Ret}
    (hpre : Pre (.id o) (gs t)) (hx : Ids.exec t o s = some (r, s')) :
    ∃ g', Post (b := b) (.id o) (gs t) r g' ∧ Inv n s' closes (Function.update gs t g') := by
  have hself : Function.update gs t (gs t) = gs := Function.update_eq_self t gs
  cases o with
  | enterCriticalSection =>
      simp only [Ids.exec] at hx
      split at hx
      · next hc =>
          obtain ⟨-, rfl⟩ := Prod.mk.inj (Option.some.inj hx)
          exact ⟨_, ⟨_, H.sees ht hpre.2, rfl⟩, H.enter ht hpre.1 hc.2⟩
      · exact nomatch hx
  | leaveCriticalSection =>
      obtain ⟨-, rfl⟩ := Prod.mk.inj (Option.some.inj hx)
      exact ⟨_, rfl, H.leave' ht hpre⟩
  | pushBack h dwThread =>
      obtain ⟨hv, hp, rfl, hxt, hct⟩ := hpre
      obtain ⟨-, rfl⟩ := Prod.mk.inj (Option.some.inj hx)
      obtain ⟨-, hview⟩ := H.owner_of_view ht hv
      -- the entry goes to the end of the list
      have hpush := H.listed.push ((H.phase t ht).trans hp) h
      rw [H.tid t ht] at hpush
      refine ⟨_, rfl, ?_⟩
      rw [hview, Option.map_some]
      refine H.relist ht hv hpush ?_ ?_
      · intro _ _
        exact (H.exited t ht).trans hxt
      · intro _ _
        exact hct
  | erase i =>
      obtain ⟨l, h, hl, hp, hi⟩ := hpre
      have hv : (gs t).view ≠ none := by rw [hl]; exact Option.some_ne_none l
      obtain ⟨-, hview⟩ := H.owner_of_view ht hv
      obtain rfl : l = s.clientIdList := Option.some.inj (hl.symm.trans hview)
      simp only [Ids.exec] at hx
      split at hx
      · obtain ⟨-, rfl⟩ := Prod.mk.inj (Option.some.inj hx)
        refine ⟨_, rfl, ?_⟩
        rw [hview, Option.map_some]
        refine H.relist ht hv (H.listed.erase ?_ (h := h) ?_) ?_ ?_
        -- the living have different identifiers, so the entry is its own
        · intro u h' hu htid
          have hpt : s.phase t = .between h := (H.phase t ht).trans hp
          exact H.apart u t (H.lt hu) ht (H.alive u h' hu) (H.alive t h hpt) htid
        · rw [H.tid t ht]
          exact hi
        · intro _ hc
          exact nomatch hc
        · intro _ hc
          exact nomatch hc
      · exact nomatch hx
  | exitThread =>
      obtain ⟨-, rfl⟩ := Prod.mk.inj (Option.some.inj hx)
      exact ⟨_, rfl, H.exit ht hpre.2⟩
  | uniqueThread =>
      obtain ⟨rfl, rfl⟩ := Prod.mk.inj (Option.some.inj hx)
      exact ⟨gs t, ⟨rfl, H.tid t ht⟩, by rwa [hself]⟩
  | lpCriticalSection =>
      obtain ⟨rfl, rfl⟩ := Prod.mk.inj (Option.some.inj hx)
      exact ⟨gs t, ⟨rfl, H.ready.1⟩, by rwa [hself]⟩
  | clientIdListNew =>
      obtain ⟨rfl, rfl⟩ := Prod.mk.inj (Option.some.inj hx)
      exact ⟨gs t, ⟨rfl, H.ready.2⟩, by rwa [hself]⟩
  | size =>
      obtain ⟨rfl, rfl⟩ := Prod.mk.inj (Option.some.inj hx)
      refine ⟨gs t, ⟨rfl, ?_⟩, by rwa [hself]⟩
      intro l hl
      obtain ⟨-, hview⟩ := H.owner_of_view ht (by rw [hl]; exact Option.some_ne_none l)
      rw [← Option.some.inj (hl.symm.trans hview)]
  | «at» i =>
      obtain ⟨e, he, hes⟩ := Option.map_eq_some_iff.mp hx
      obtain ⟨rfl, rfl⟩ := Prod.mk.inj hes
      refine ⟨gs t, ⟨rfl, ?_⟩, by rwa [hself]⟩
      intro l hl
      obtain ⟨-, hview⟩ := H.owner_of_view ht (by rw [hl]; exact Option.some_ne_none l)
      rw [Option.some.inj (hl.symm.trans hview)]
      exact he
  | getNativeSystemInfo =>
      obtain ⟨rfl, rfl⟩ := Prod.mk.inj (Option.some.inj hx)
      exact ⟨gs t, rfl, by rwa [hself]⟩
  | systemLpcMessageLength =>
      obtain ⟨rfl, rfl⟩ := Prod.mk.inj (Option.some.inj hx)
      exact ⟨gs t, rfl, by rwa [hself]⟩
  | setSystemLpcMessageLength k =>
      obtain ⟨-, rfl⟩ := Prod.mk.inj (Option.some.inj hx)
      refine ⟨gs t, rfl, ?_⟩
      rw [hself]
      exact ⟨H.ready, H.owner, H.view, H.phase, H.tid, H.exited, H.idle, H.apart,
        H.alive, H.listed, H.closed, H.unclosed, H.closes⟩
  | initializeCriticalSection => exact hpre.elim
  | newClientIdList => exact hpre.elim

/-- A kernel call keeps the invariant. -/
theorem kernel {k k' : Lpc b} (H : Inv n s k.closes gs) (ht : t < n) {o : KernelOp}
    {r : o.Ret b} (hpre : Pre (.kernel o) (gs t)) (E : k.Effect t o r k') :
    ∃ g', Post (.kernel o) (gs t) r g' ∧ Inv n s k'.closes (Function.update gs t g') := by
  have hself : Function.update gs t (gs t) = gs := Function.update_eq_self t gs
  cases o with
  | ntClose h =>
      have hcloses : ∀ u h', (u, h') ∈ k'.closes → u = t ∨ (u, h') ∈ k.closes := by
        intro u h' hm
        rcases E.closes with hc | ⟨h₀, -, hc⟩
        · rw [hc] at hm
          exact Or.inr hm
        · rw [hc] at hm
          rcases List.mem_cons.mp hm with heq | hm
          · exact Or.inl (congrArg Prod.fst heq)
          · exact Or.inr hm
      refine ⟨_, rfl, H.ready, H.owner, ?_, ?_, ?_, ?_, H.idle, H.apart, H.alive,
        H.listed, ?_, ?_, ?_⟩
      · intro u hu
        exact (update_part Ghost.view (by rfl) u).trans (H.view u hu)
      · intro u hu
        exact (H.phase u hu).trans (update_part Ghost.phase (by rfl) u).symm
      · intro u hu
        exact (H.tid u hu).trans (update_part Ghost.tid (by rfl) u).symm
      · intro u hu
        exact (H.exited u hu).trans (update_part Ghost.exited (by rfl) u).symm
      · intro u h' hu hc hm
        have hut : u ≠ t := by
          rintro rfl
          rw [Function.update_self] at hc
          exact nomatch hc
        rw [Function.update_of_ne hut] at hc
        exact H.closed u h' hu hc ((hcloses u h' hm).resolve_left hut)
      · intro u h' hu
        have hut : u ≠ t := by
          rintro rfl
          exact hpre h' ((H.phase u ht).symm.trans hu)
        rw [Function.update_of_ne hut]
        exact H.unclosed u h' hu
      · intro u h' hm
        rcases hcloses u h' hm with rfl | hm
        · exact ht
        · exact H.closes u h' hm
  | _ =>
      refine ⟨gs t, rfl, ?_⟩
      rw [hself]
      rcases E.closes with hc | ⟨h₀, ho, -⟩
      · rwa [hc]
      · exact nomatch ho

/-- A thread that is created stands at the beginning. -/
def initial (tid : Nat) : Ghost where
  view := none
  phase := .before
  tid := tid
  exited := false
  closed := false

/-- Creating thread `n`. -/
theorem create (H : Inv n s closes gs) {tid : Nat}
    (hfree : ∀ u < n, s.exited u = false → s.tid u ≠ tid) :
    Inv (n + 1) { s with tid := Function.update s.tid n tid,
                         exited := Function.update s.exited n false,
                         phase := Function.update s.phase n .before }
      closes (Function.update gs n (initial tid)) := by
  have hold : ∀ {u}, u < n + 1 → u ≠ n → u < n := by
    intro u h₁ h₂
    omega
  have hphase : ∀ u, Function.update s.phase n .before u = s.phase u := by
    intro u
    by_cases hun : u = n
    · subst hun
      rw [Function.update_self, H.idle u (Nat.le_refl u)]
    · rw [Function.update_of_ne hun]
  have hne : ∀ {u h}, s.phase u = .between h → u ≠ n := by
    intro u h hu
    have := H.lt hu
    omega
  refine ⟨H.ready, ?_, ?_, ?_, ?_, ?_, ?_, ?_, ?_, ?_, ?_, ?_, ?_⟩
  -- the owner of the lock is one of the old threads
  · rcases H.owner with h | ⟨t, ht, h⟩
    · exact Or.inl h
    · exact Or.inr ⟨t, by omega, h⟩
  -- the new thread does not see the list
  · intro u hu
    by_cases hun : u = n
    · subst hun
      rw [Function.update_self, if_neg]
      · rfl
      · intro ho
        rcases H.owner with h | ⟨t, ht, h⟩
        · rw [h] at ho
          exact nomatch ho
        · rw [h] at ho
          have := (List.cons.inj ho).1
          omega
    · rw [Function.update_of_ne hun]
      exact H.view u (hold hu hun)
  · intro u hu
    by_cases hun : u = n
    · subst hun
      rw [Function.update_self]
      exact Function.update_self ..
    · rw [Function.update_of_ne hun]
      exact (hphase u).trans (H.phase u (hold hu hun))
  · intro u hu
    by_cases hun : u = n
    · subst hun
      rw [Function.update_self]
      exact Function.update_self ..
    · rw [Function.update_of_ne hun]
      exact (Function.update_of_ne hun ..).trans (H.tid u (hold hu hun))
  · intro u hu
    by_cases hun : u = n
    · subst hun
      rw [Function.update_self]
      exact Function.update_self ..
    · rw [Function.update_of_ne hun]
      exact (Function.update_of_ne hun ..).trans (H.exited u (hold hu hun))
  · intro u hu
    exact (hphase u).trans (H.idle u (by omega))
  -- its identifier was free among the living
  · intro u v hu hv hxu hxv htid
    have htid : Function.update s.tid n tid u = Function.update s.tid n tid v := htid
    have hxu : Function.update s.exited n false u = false := hxu
    have hxv : Function.update s.exited n false v = false := hxv
    by_cases hun : u = n
    · by_cases hvn : v = n
      · rw [hun, hvn]
      · rw [Function.update_of_ne hvn] at hxv
        rw [hun, Function.update_self, Function.update_of_ne hvn] at htid
        exact absurd htid.symm (hfree v (hold hv hvn) hxv)
    · rw [Function.update_of_ne hun] at hxu
      by_cases hvn : v = n
      · rw [hvn, Function.update_self, Function.update_of_ne hun] at htid
        exact absurd htid (hfree u (hold hu hun) hxu)
      · rw [Function.update_of_ne hvn] at hxv
        rw [Function.update_of_ne hun, Function.update_of_ne hvn] at htid
        exact H.apart u v (hold hu hun) (hold hv hvn) hxu hxv htid
  -- who has an entry is an old thread
  · intro u h hu
    have hu : s.phase u = .between h := (hphase u).symm.trans hu
    exact (Function.update_of_ne (hne hu) ..).trans (H.alive u h hu)
  -- so the list is that of the old threads
  · obtain ⟨order, hnd, hmem, hlist⟩ := H.listed
    refine ⟨order, hnd, ?_, ?_⟩
    · intro u
      rw [hmem u]
      show _ ↔ ∃ h, Function.update s.phase n .before u = .between h
      rw [hphase u]
    · show s.clientIdList = _
      rw [hlist]
      refine List.map_congr_left ?_
      intro u hu
      obtain ⟨h, hp⟩ := (hmem u).mp hu
      refine (entryOf_congr ?_ (hphase u)).symm
      exact Function.update_of_ne (hne hp) ..
  · intro u h' hu hc hm
    have hun : u ≠ n := by
      have := H.closes u h' hm
      omega
    rw [Function.update_of_ne hun] at hc
    exact H.closed u h' (hold hu hun) hc hm
  · intro u h hu
    have hu : s.phase u = .between h := (hphase u).symm.trans hu
    rw [Function.update_of_ne (hne hu)]
    exact H.unclosed u h hu
  · intro u h' hm
    have := H.closes u h' hm
    omega

end Inv

/-- A new thread may start. -/
theorem entry_initial {l : Label} (hl : Start l) (tid : Nat) :
    Entry l (Inv.initial tid) := by
  cases l with
  | waitThread d => exact ⟨rfl, rfl, rfl⟩
  | waitLoop d lm => exact ⟨rfl, rfl, rfl⟩
  | workerThread p => exact ⟨rfl, rfl, rfl, rfl⟩
  | app calls => exact ⟨rfl, rfl, rfl⟩
  | _ => exact hl.elim

/-- **THE PROOF RULE APPLIES** to every run of the whole process. -/
theorem method : Method (system b) (outline b) Entry Entry
    (fun n w gs => Inv n w.ids w.lpc.closes gs) (fun _ => True) (fun _ _ => True) where
  steps _ _ := trivial
  code hg := wp_code _ hg
  jump := by
    intro s gs t c th l _ _ _ H hgoto
    refine ⟨gs t, hgoto, ?_⟩
    rw [Function.update_eq_self]
    exact H
  env := by
    intro s gs c w _ H he
    rcases env_cases he with ⟨p, m, -, -, -, rfl⟩ | ⟨a, d, -, -, rfl⟩ | ⟨pid, a, v, -, rfl⟩
    · exact H
    · exact H
    · exact H
  op := by
    intro s gs t c th o k r w sp _ hth hcur H hpre hx
    have ht : t < s.threads.length := (List.getElem?_eq_some_iff.mp hth).1
    have hx : exec t s.threads.length o c s.world = some (r, w, sp) := hx
    have hself : Function.update gs t (gs t) = gs := Function.update_eq_self t gs
    -- what is left to show when no thread was started
    have done : ∀ {w' : World b} {g'}, Post o (gs t) r g' →
        Inv s.threads.length w'.ids w'.lpc.closes (Function.update gs t g') → w = w' →
        sp = none → ∃ g' gn, Post o (gs t) r g' ∧ (gn.isSome = sp.isSome)
          ∧ (∀ l ∈ sp, ∀ g ∈ gn, True → Entry l g)
          ∧ Inv (s.threads.length + sp.toList.length) w.ids w.lpc.closes
              (after gs t s.threads.length g' gn) := by
      rintro w' g' hpost H' rfl rfl
      exact ⟨g', none, hpost, rfl, fun l hl => (nomatch hl), H'⟩
    cases o with
    | heap o =>
        obtain ⟨h, -, rfl, hsp⟩ := exec_heap hx
        exact done rfl (by rwa [hself]) rfl hsp
    | kernel o =>
        obtain ⟨k', E, rfl, hsp⟩ := exec_kernel hx
        obtain ⟨g', hpost, H'⟩ := H.kernel ht hpre E
        exact done hpost H' rfl hsp
    | id o =>
        obtain ⟨s', hx', rfl, hsp⟩ := exec_id hx
        obtain ⟨g', hpost, H'⟩ := H.exec (b := b) ht hpre hx'
        exact done hpost H' rfl hsp
    | api o =>
        obtain ⟨⟨a, m, rfl⟩, hsp⟩ := exec_api hx
        exact done rfl (by rwa [hself]) rfl hsp
    | loadCloseEvent a =>
        obtain ⟨-, hsp, ⟨d, -, -, rfl⟩ | ⟨-, rfl⟩⟩ := exec_loadCloseEvent hx
        · exact done rfl (by rwa [hself]) rfl hsp
        · exact done rfl (by rwa [hself]) rfl hsp
    | setCloseEvent a =>
        obtain ⟨-, hsp, ⟨d, -, rfl⟩ | ⟨-, rfl⟩⟩ := exec_setCloseEvent hx
        · exact done rfl (by rwa [hself]) rfl hsp
        · exact done rfl (by rwa [hself]) rfl hsp
    | createThread l =>
        rcases exec_createThread hx with ⟨-, rfl, hsp⟩ | ⟨tid, rfl, -, hfree, rfl⟩
        · exact done rfl (by rwa [hself]) rfl hsp
        · refine ⟨gs t, some (Inv.initial tid), rfl, rfl, ?_, ?_⟩
          · intro l' hl g hg _
            obtain rfl := Option.mem_some_iff.mp hl
            obtain rfl := Option.mem_some_iff.mp hg
            exact entry_initial hpre tid
          · show Inv _ _ _ (Function.update (Function.update gs t (gs t)) _ _)
            rw [hself]
            exact H.create hfree

/-! ## The result -/

/-- `ScInitializeService` is done and no worker has pushed yet; the first `n`
    threads live and have different ids. -/
structure Ready (w : World b) (n : Nat) : Prop where
  ready  : w.ids.lpCriticalSection = true ∧ w.ids.clientIdListNew = true
  owner  : w.ids.owner = []
  empty  : w.ids.clientIdList = []
  phase  : ∀ t, w.ids.phase t = .before
  exited : ∀ t, t < n → w.ids.exited t = false
  tid    : ∀ t u, t < n → u < n → w.ids.tid t = w.ids.tid u → t = u
  closes : w.lpc.closes = []

/-- What is promised of the list. -/
structure Exact (s : State b) : Prop where
  /-- one entry for each worker between push and erase, and no other -/
  listed : Listed s.world.ids
  /-- a lookup that has returned gave the thread its own client, or nothing -/
  answer : ∀ {t th status h}
    {k : Op.Ret b (.api (.note (.clientId status h))) → Code b (Option Label)},
    s.threads[t]? = some th → th.cur = .call (.api (.note (.clientId status h))) k →
    Answer (s.world.ids.phase t) status h
  /-- a worker between push and erase has not exited -/
  alive : ∀ {t h}, s.world.ids.phase t = .between h → s.world.ids.exited t = false
  /-- no worker has closed the handle it has in the list -/
  unclosed : ∀ {t h}, s.world.ids.phase t = .between h → (t, h) ∉ s.world.lpc.closes

/-- The invariant where every thread is about to start. -/
theorem inv_ready {w : World b} {n : Nat} (H : Ready w n) :
    Inv n w.ids w.lpc.closes (fun t => Inv.initial (w.ids.tid t)) := by
  have hphase : ∀ {t h}, w.ids.phase t ≠ .between h := by
    intro t h hp
    rw [H.phase t] at hp
    exact nomatch hp
  refine ⟨H.ready, Or.inl H.owner, ?_, fun t _ => H.phase t, fun t _ => rfl, H.exited,
    fun t _ => H.phase t, fun t u ht hu _ _ => H.tid t u ht hu, ?_, ?_, ?_, ?_, ?_⟩
  · intro t _
    rw [H.owner]
    rfl
  · intro t h hp
    exact absurd hp hphase
  · refine ⟨[], List.nodup_nil, ?_, H.empty⟩
    intro t
    exact ⟨fun hm => (nomatch hm), fun ⟨h, hp⟩ => absurd hp hphase⟩
  · intro t h _ _
    rw [H.closes]
    exact List.not_mem_nil
  · intro t h hp
    exact absurd hp hphase
  · intro t h hm
    rw [H.closes] at hm
    exact nomatch hm

/-- **THE LIST OF CLIENT IDS IS EXACT**: in every state that any interleaving of
    listeners, workers and other threads reaches, the list has exactly one entry
    for each worker between its push and its erase, none of which has exited; a
    lookup gives a worker its own client and everybody else nothing; no handle
    in the list was closed by its worker. -/
theorem clientIdList_exact {w : World b} {ls : List Label} {s : State b}
    (hl : ∀ l ∈ ls, Start l) (hw : Ready w ls.length)
    (hr : (system b).Run (fun _ _ => True) ⟨w, ls.map (system b).begin⟩ s) :
    Exact s := by
  have hstart := holds_begin (method (b := b)) (inv_ready hw) (by
    intro t l hlt _
    exact entry_initial (hl l (List.mem_of_getElem? hlt)) _)
  obtain ⟨gs, H⟩ := (method (b := b)).run hr hstart
  refine ⟨H.1.listed, ?_, fun {t h} => H.1.alive t h, ?_⟩
  · intro t th status h k hth hcur
    have hpre := H.pre hth trivial hcur
    have ht : t < s.threads.length := (List.getElem?_eq_some_iff.mp hth).1
    rw [H.1.phase t ht]
    exact hpre
  · intro t h hp
    have ht := H.1.lt hp
    exact H.1.closed t h ht (H.1.unclosed t h hp)

/-- A worker and a thread of the application that asks for its client. -/
def twoThreads : State .x64 where
  world := (World.initialized .x64).withBlocks
    [(16, .routine { ServiceRoutine.new 4 0 0 with hClientProcess := 7 })]
  threads := [.workerThread 16, .app [.clientId]].map (system .x64).begin

/-- The worker has pushed, and the other thread has looked for its client. -/
theorem clientIdList_exact_two_threads : ∃ s : State .x64,
    (system .x64).runIf (fun _ _ => true)
      (List.replicate 5 (.thread 0 .ok) ++ List.replicate 8 (.thread 1 .ok)) twoThreads
      = some s
    ∧ s.world.ids.clientIdList = [(7, 0)] ∧ Exact s := by
  obtain ⟨s, hs, hlist⟩ : ∃ s : State .x64, (system .x64).runIf (fun _ _ => true)
      (List.replicate 5 (.thread 0 .ok) ++ List.replicate 8 (.thread 1 .ok)) twoThreads
      = some s ∧ s.world.ids.clientIdList = [(7, 0)] := ⟨_, rfl, rfl⟩
  refine ⟨s, hs, hlist, clientIdList_exact ?_ ?_ (Sys.run_of_runIf (fun _ _ _ => trivial) hs)⟩
  · intro l hl
    rcases List.mem_pair.mp hl with rfl | rfl
    · trivial
    · trivial
  · exact ⟨⟨rfl, rfl⟩, rfl, rfl, fun _ => rfl, fun _ _ => rfl, fun _ _ _ _ h => h, rfl⟩

end ScClientId
