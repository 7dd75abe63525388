import ServiceCall.AccessProofs

/-! # The handles of a worker

    A worker is given two handles with its descriptor, one for the process of the
    client and one for the connection, and closes both at its end.  The outline of
    the library is given a guard: a worker uses what is left of these handles, each
    for what it is for (`wp_code`).  Everybody else touches the memory of no client
    and replies to nobody. -/

namespace ScHandle

open LinearMemory OwnedHeap OpProg ThreadSys ScParameter LpcMessage ScSystem
  ScServiceCall ScOwnership

variable {b : Build} {α β : Type}

/-! ## The handles of a worker -/

/-- The client of a worker, the handles that were opened for it, and those of them that
    are not closed yet. -/
structure Session where
  client         : ClientId
  hClientProcess : HANDLE
  hServerPort    : HANDLE
  left           : List HANDLE

/-- A worker uses its own handles, and only before it closed them; nobody else reads or
    writes the memory of a client or sends a reply.  Nobody sets the length of messages. -/
def Guard (o : Op) (g : Ghost b) (x : Option Session) : Prop :=
  match o with
  | .kernel (.ntReadVirtualMemory h ..) =>
      ∃ S, x = some S ∧ h = S.hClientProcess ∧ h ∈ S.left
  | .kernel (.ntWriteVirtualMemory h ..) =>
      ∃ S, x = some S ∧ h = S.hClientProcess ∧ h ∈ S.left
  | .kernel (.ntReplyWaitReplyPort h _) =>
      ∃ S, x = some S ∧ h = S.hServerPort ∧ h ∈ S.left ∧ h ≠ S.hClientProcess
  | .kernel (.ntClose h) => g.stage = .worker → ∃ S, x = some S ∧ h ∈ S.left
  | .id (.setSystemLpcMessageLength _) => False
  | _ => True

/-- A handle that was closed is no longer used, whatever the kernel said. -/
def closeOne (x : Option Session) : Sigma (Op.Ret b) → Option Session
  | ⟨.kernel (.ntClose h), _⟩ => x.map fun S => { S with left := S.left.filter (· ≠ h) }
  | _ => x

/-- The outline of the library with this guard. -/
def outline (b : Build) : Outline Op (Op.Ret b) (Ghost b × Option Session) :=
  (ScOwnership.outline b).guarded Guard closeOne

/-- The descriptor of a worker has the handles of `S`. -/
structure Holds (r : ServiceRoutine) (S : Session) : Prop where
  client : r.hClientProcess = S.hClientProcess
  server : r.hServerPort = S.hServerPort
  apart  : S.hClientProcess ≠ S.hServerPort
  left   : S.left = [S.hClientProcess, S.hServerPort]

/-- What holds of the handles where a label is jumped to. -/
def Goto : Label → Ghost b × Option Session → Prop
  | .routine lpService tmp _ bufs, (g, x) => ∃ r lm n p q S,
      Working g lpService r lm n (some p) ∧ MappedAt g r tmp p q ∧ bufs = buffers b q
        ∧ x = some S ∧ Holds r S
  | .workerReturn lpService tmp _ _, (g, x) => ∃ r lm n p q S,
      Working g lpService r lm n (some p) ∧ MappedAt g r tmp p q
        ∧ x = some S ∧ Holds r S
  | l, (g, x) => ScOwnership.Goto l g ∧ x = none

/-- What holds of them where a label is entered. -/
def Entry : Label → Ghost b × Option Session → Prop
  | .waitThread lpService, (g, x) => ScOwnership.Entry (.waitThread lpService) g ∧ x = none
  | .waitLoop lpService lm, (g, x) => ScOwnership.Entry (.waitLoop lpService lm) g ∧ x = none
  | .workerThread lpService, (g, x) => ∃ r lm n p S,
      Working g lpService r lm n p ∧ x = some S ∧ Holds r S
  | l, y => Goto l y

/-! ## Parts that keep to one handle -/

/-- The operations that use no handle but `h`, if there is one, and that for memory. -/
@[simp] def Using (h : Option HANDLE) : Op → Prop
  | .kernel o =>
      match o with
      | .ntReadVirtualMemory h' .. => h = some h'
      | .ntWriteVirtualMemory h' .. => h = some h'
      | .getProcessId _ => True
      | _ => False
  | .id (.setSystemLpcMessageLength _) => False
  | _ => True

section Using

variable {h : Option HANDLE}

theorem using_guard {o : Op} {g : Ghost b} {x : Option Session} (ho : Using h o)
    (hx : ∀ h' ∈ h, ∃ S, x = some S ∧ h' = S.hClientProcess ∧ h' ∈ S.left) : Guard o g x := by
  cases o with
  | kernel o =>
      cases o with
      | ntReadVirtualMemory h' a n => exact hx h' ho
      | ntWriteVirtualMemory h' a bytes => exact hx h' ho
      | getProcessId h' => exact trivial
      | _ => exact ho.elim
  | id o => cases o <;> first | exact trivial | exact ho.elim
  | _ => exact trivial

theorem using_closeOne {o : Op} (r : Op.Ret b o) {x : Option Session} (ho : Using h o) :
    closeOne x ⟨o, r⟩ = x := by
  cases o with
  | kernel o =>
      cases o with
      | ntClose h' => exact ho.elim
      | _ => rfl
  | _ => rfl

theorem using_onBlocks {o : Op} (ho : OnBlocks o) : Using h o := by
  cases o with
  | heap o => trivial
  | api o => trivial
  | _ => exact ho.elim

theorem using_of_onBlocks {p : Code b α} (hp : p.Only OnBlocks) : p.Only (Using h) :=
  hp.mono fun _ => using_onBlocks

theorem using_of_copies {h : HANDLE} {p : Code b α} (hp : p.Only (Copies h)) :
    p.Only (Using (some h)) := by
  refine hp.mono fun o ho => ?_
  cases o with
  | kernel o =>
      cases o with
      | ntReadVirtualMemory h' a n => exact congrArg some (Eq.symm ho)
      | ntWriteVirtualMemory h' a bytes => exact congrArg some (Eq.symm ho)
      | _ => exact ho.elim
  | id o => exact ho.elim
  | _ => trivial

theorem using_setStatus (lpService : LPVOID) (status : NTSTATUS) :
    (setStatus lpService status : Code b Unit).Only (Using h) :=
  only_setStatus (fun _ _ => trivial) trivial (fun _ _ => trivial) status

/-- What does not matter at all uses no handle. -/
theorem using_of_silent {o : Op} (ho : Silent o) : Using h o := by
  cases o with
  | kernel o => cases o <;> first | exact trivial | exact ho.elim
  | id o => cases o <;> first | exact trivial | exact ho.elim
  | _ => exact trivial

end Using

/-! ## Single operations of a worker -/

section Operations

variable {Q : β → Ghost b × Option Session → Prop} {g : Ghost b} {x : Option Session}
  {S : Session}

/-- A part that uses no handle. -/
theorem wp_plain {p : Code b α} (hp : p.Only (Using none)) {f : α → Code b β}
    (hw : wp (ScOwnership.outline b) (p >>= Prog.ret)
      (fun a g' => wp (outline b) (f a) Q (g', x)) g) :
    wp (outline b) (p >>= f) Q (g, x) := by
  unfold outline at hw ⊢
  refine wp_guarded_bind (I := fun _ => True) ?_ ?_ (fun _ _ _ _ => trivial) hp trivial hw
  · intro o g ho _ _
    exact using_guard ho (by simp)
  · intro o g r ho _ _
    exact using_closeOne r ho

/-- A part that uses the handle of the client. -/
theorem wp_using (hleft : S.hClientProcess ∈ S.left) {p : Code b α}
    (hp : p.Only (Using (some S.hClientProcess))) {f : α → Code b β}
    (hw : wp (ScOwnership.outline b) (p >>= Prog.ret)
      (fun a g' => wp (outline b) (f a) Q (g', some S)) g) :
    wp (outline b) (p >>= f) Q (g, some S) := by
  unfold outline at hw ⊢
  refine wp_guarded_bind (I := fun _ => True) ?_ ?_ (fun _ _ _ _ => trivial) hp trivial hw
  · intro o g ho _ _
    refine using_guard ho ?_
    rintro h' ⟨⟩
    exact ⟨S, rfl, rfl, hleft⟩
  · intro o g r ho _ _
    exact using_closeOne r ho

theorem wp_silent {p : Code b α} (hp : p.Only Silent) {f : α → Code b β}
    (hf : ∀ a, wp (outline b) (f a) Q (g, x)) : wp (outline b) (p >>= f) Q (g, x) :=
  wp_plain (hp.mono fun _ => using_of_silent) (ignores.bind hp hf)

theorem wp_loadRoutine {a : LPVOID} {r : ServiceRoutine} (h : g.own a = some (.routine r))
    {f : ServiceRoutine → Code b β}
    (hf : ∀ c, a ≠ 0 → wp (outline b) (f { r with closeEvent := c }) Q (g, x)) :
    wp (outline b) (loadRoutine a >>= f) Q (g, x) :=
  wp_plain (only_loadRoutine.mpr trivial) (ScOwnership.wp_loadRoutine h hf)

theorem wp_loadMessage {a : LPVOID} {lm : Nat → BYTE} {n : Nat}
    (h : g.own a = some (.message lm n)) {f : (Nat → BYTE) → Code b β}
    (hf : a ≠ 0 → wp (outline b) (f lm) Q (g, x)) :
    wp (outline b) (loadMessage a >>= f) Q (g, x) :=
  wp_plain (only_loadMessage.mpr trivial) (ScOwnership.wp_loadMessage h hf)

theorem wp_loadParameters {a : LPVOID} {p : ServiceRoutineParameter}
    (h : g.own a = some (.parameters p)) {f : ServiceRoutineParameter → Code b β}
    (hf : a ≠ 0 → wp (outline b) (f p) Q (g, x)) :
    wp (outline b) (loadParameters a >>= f) Q (g, x) :=
  wp_plain (only_loadParameters.mpr trivial) (ScOwnership.wp_loadParameters h hf)

theorem wp_modifyMessage {a : LPVOID} {lm : Nat → BYTE} {n : Nat}
    (h : g.own a = some (.message lm n)) (hs : g.Spares a)
    {φ : (Nat → BYTE) → Nat → BYTE} {f : Unit → Code b β}
    (hf : a ≠ 0 → wp (outline b) (f ()) Q (g.put a (some (.message (φ lm) n)), x)) :
    wp (outline b) (modifyMessage a φ >>= f) Q (g, x) :=
  wp_plain (only_modifyMessage.mpr ⟨trivial, fun _ => trivial⟩)
    (ScOwnership.wp_modifyMessage h hs hf)

theorem wp_free {a : LPVOID} {y : Block} (h : g.own a = some y) (h0 : a ≠ 0) (hs : g.Spares a)
    {f : Unit → Code b β} (hf : wp (outline b) (f ()) Q (g.put a none, x)) :
    wp (outline b) (free a >>= f) Q (g, x) :=
  wp_plain (by simp) (ScOwnership.wp_free h h0 hs hf)

/-- A handle of the worker is closed. -/
theorem wp_ntClose (hst : g.stage = .worker) {h : HANDLE} (hleft : h ∈ S.left)
    {f : NTSTATUS → Code b β} (hf : ∀ status,
      wp (outline b) (f status) Q (g, some { S with left := S.left.filter (· ≠ h) })) :
    wp (outline b) (ntClose h >>= f) Q (g, some S) := by
  refine wp_op_bind.mpr ⟨⟨Or.inr (Or.inr (Or.inr (Or.inr hst))), fun _ => ⟨S, rfl, hleft⟩⟩, ?_⟩
  rintro status ⟨g', x'⟩ ⟨⟨-, hg'⟩, rfl⟩
  have hg' : g' = { g with stage := g.stage.next (.ntClose h) status } := hg'
  have hnext : g.stage.next (.ntClose h) status = g.stage := by
    rw [hst]
    rfl
  rw [hnext] at hg'
  rw [hg']
  exact hf status

/-- The reply of the worker is sent. -/
theorem wp_ntReplyWaitReplyPort (hst : g.stage = .worker) {h : HANDLE} (hh : h = S.hServerPort)
    (hleft : h ∈ S.left) (hne : h ≠ S.hClientProcess) {lm : Nat → BYTE}
    {f : NTSTATUS × Option (Message b) → Code b β}
    (hf : ∀ answer replies,
      wp (outline b) (f answer) Q ({ g with replies := replies }, some S)) :
    wp (outline b) (ntReplyWaitReplyPort h lm >>= f) Q (g, some S) := by
  refine wp_op_bind.mpr ⟨⟨trivial, S, rfl, hh, hleft, hne⟩, ?_⟩
  rintro answer ⟨g', x'⟩ ⟨⟨-, hg'⟩, rfl⟩
  have hg' : g' = { g with stage := g.stage.next (.ntReplyWaitReplyPort h lm) answer,
                           replies := lm :: g.replies } := hg'
  have hnext : g.stage.next (.ntReplyWaitReplyPort h lm) answer = g.stage := by
    rw [hst]
    rfl
  rw [hnext] at hg'
  rw [hg']
  exact hf answer _

end Operations

/-! ## The worker -/

section Worker

variable {g : Ghost b} {S : Session} {lpService tmp : LPVOID} {r : ServiceRoutine}
  {lm : Nat → BYTE} {n dwThread : Nat} {p q : ServiceRoutineParameter}
  {l : Option ServiceRoutineParameter}

theorem Holds.client_left (H : Holds r S) : S.hClientProcess ∈ S.left := by
  rw [H.left]
  exact List.mem_cons_self

theorem Holds.server_left (H : Holds r S) : S.hServerPort ∈ S.left := by
  rw [H.left]
  exact List.mem_cons_of_mem _ List.mem_cons_self

/-- The other handle is left when one is closed. -/
theorem Holds.server_after (H : Holds r S) :
    S.hServerPort ∈ S.left.filter (· ≠ S.hClientProcess) :=
  List.mem_filter.mpr ⟨H.server_left, by simpa using H.apart.symm⟩

/-- The reply goes to the port of the client, and both handles are closed once. -/
theorem wp_workerFinish (hself : g.self = none) (hst : g.stage = .worker)
    (hr : g.own lpService = some (.routine r)) (hlm : g.own r.lm = some (.message lm n))
    (H : Holds r S) :
    wp (outline b) (workerFinish lpService dwThread) (leave Goto) (g, some S) := by
  have hne : lpService ≠ r.lm := by
    intro h
    rw [h, hlm] at hr
    cases hr
  have hput : ∀ y, (g.put r.lm y).own lpService = some (.routine r) := by
    intro y
    rw [g.put_own_ne hne]
    exact hr
  unfold workerFinish
  refine wp_silent (by simp [Silent]) ?_
  intro k
  refine wp_loadRoutine hr ?_
  intro _ _
  refine wp_modifyMessage hlm (Ghost.spares_of_none hself _) ?_
  intro _
  refine wp_loadRoutine (hput _) ?_
  intro _ _
  refine wp_modifyMessage (g.put_own_self ..) (Ghost.spares_of_none hself _) ?_
  intro h0
  rw [Ghost.put_put]
  refine wp_loadRoutine (hput _) ?_
  intro _ _
  refine wp_loadMessage (g.put_own_self ..) ?_
  intro _
  refine wp_ntReplyWaitReplyPort (by exact hst) H.server (H.server ▸ H.server_left)
    (H.server ▸ H.apart.symm) ?_
  intro answer replies
  -- what is left to do needs the descriptor and a message
  have rest : ∀ g' : Ghost b, g'.self = none → g'.stage = .worker →
      g'.own lpService = some (.routine r) → (∃ lm', g'.own r.lm = some (.message lm' n)) →
      wp (outline b) (do
        enterCriticalSection
        let k ← listSize
        eraseLoop dwThread k 0
        leaveCriticalSection
        let _ ← ntClose (← loadRoutine lpService).hClientProcess
        let _ ← ntClose (← loadRoutine lpService).hServerPort
        free (← loadRoutine lpService).lm
        free lpService
        exitThread
        return none) (leave Goto) (g', some S) := by
    rintro g' hself' hst' hr' ⟨lm', hlm'⟩
    refine wp_silent (by simp [Silent]) ?_
    intro _
    refine wp_silent (by simp [Silent]) ?_
    intro k'
    refine wp_silent (silent_eraseLoop ..) ?_
    intro _
    refine wp_silent (by simp [Silent]) ?_
    intro _
    refine wp_loadRoutine hr' ?_
    intro _ _
    refine wp_ntClose hst' (by rw [H.client]; exact H.client_left) ?_
    intro _
    refine wp_loadRoutine hr' ?_
    intro _ _
    refine wp_ntClose hst' ?_ ?_
    · show r.hServerPort ∈ S.left.filter (· ≠ r.hClientProcess)
      rw [H.client, H.server]
      exact H.server_after
    intro _
    refine wp_loadRoutine hr' ?_
    intro _ hs0
    refine wp_free hlm' h0 (Ghost.spares_of_none hself' _) ?_
    refine wp_free (y := .routine r) ?_ hs0 (Ghost.spares_of_none (by exact hself') _) ?_
    · rw [Ghost.put_own_ne _ hne]
      exact hr'
    · refine wp_op_bind.mpr ⟨⟨Or.inl hself', trivial⟩, ?_⟩
      intro _ _ _
      trivial
  refine wp_plain (using_of_onBlocks (onBlocks_receiveInto ..)) (ScOwnership.wp_receiveInto
    (g := { g.put r.lm _ with replies := replies }) (g.put_own_self ..)
    (Ghost.spares_of_none hself _) ?_ ?_)
  · intro m _
    refine rest _ hself hst ?_ ⟨_, Function.update_self ..⟩
    exact (Function.update_of_ne hne ..).trans (hput _)
  · intro _
    exact rest _ hself hst (hput _) ⟨_, g.put_own_self ..⟩

/-- The status of the call is set. -/
theorem wp_setStatus {x : Option Session} (hr : g.own lpService = some (.routine r))
    (hlm : g.own r.lm = some (.message lm n)) (hs : g.Spares r.lm) {status : NTSTATUS}
    {f : Unit → Code b α} {Q : α → Ghost b × Option Session → Prop}
    (hf : ∀ lm', wp (outline b) (f ()) Q (g.put r.lm (some (.message lm' n)), x)) :
    wp (outline b) (setStatus lpService status >>= f) Q (g, x) :=
  wp_plain (using_setStatus ..) (ScOwnership.wp_setStatus hr hlm hs fun _ _ => hf _)

/-- `WorkerThread` up to the call of the routine. -/
theorem wp_workerThread (W : Working g lpService r lm n l) (H : Holds r S) :
    wp (outline b) (workerThread lpService) (leave Goto) (g, some S) := by
  unfold workerThread
  refine wp_silent (by simp [Silent]) ?_
  intro _
  refine wp_loadRoutine W.routine ?_
  intro _ _
  refine wp_silent (by simp [Silent]) ?_
  intro dwThread
  refine wp_silent (by simp [Silent]) ?_
  intro _
  refine wp_silent (by simp [Silent]) ?_
  intro _
  cases l with
  | none =>
      -- without a captured list the worker reads through the null address
      refine wp_plain (using_of_onBlocks (onBlocks_normalize _))
        (wp_normalize_null W.routine W.list ?_)
      refine wp_loadRoutine W.routine ?_
      intro _ _
      refine wp_using H.client_left (H.client ▸ using_of_copies (copies_rtlMapPtrParameters ..)) ?_
      show wp (ScOwnership.outline b)
        (rtlMapPtrParameters r.hClientProcess r.lpParameters >>= Prog.ret) _ g
      rw [show r.lpParameters = 0 from W.list, rtlMapPtrParameters, Prog.bind_assoc]
      exact wp_load_null
  | some p =>
      have hlist : g.own r.lpParameters = some (.parameters p) := W.list
      have hne₁ : lpService ≠ r.lpParameters := by
        intro h
        rw [← h, W.routine] at hlist
        cases hlist
      have hne₂ : r.lm ≠ r.lpParameters := by
        intro h
        rw [← h, W.message] at hlist
        cases hlist
      refine wp_plain (using_of_onBlocks (onBlocks_normalize _))
        (wp_normalize W.routine hlist (W.spares _) ?_)
      have W₁ : Working (g.put r.lpParameters (some (.parameters (normalized b p))))
          lpService r lm n (some (normalized b p)) := by
        refine ⟨W.self, W.stage, ?_, ?_, g.put_own_self .., W.client⟩
        · rw [g.put_own_ne hne₁]
          exact W.routine
        · rw [g.put_own_ne hne₂]
          exact W.message
      refine wp_loadRoutine W₁.routine ?_
      intro _ _
      refine wp_using H.client_left (H.client ▸ using_of_copies (copies_rtlMapPtrParameters ..))
        (wp_rtlMapPtrParameters W₁.self W₁.stage W₁.client W₁.list ?_ ?_)
      · intro own q tmp A hq hmaps
        have W₂ := W₁.holding A.frame
        show wp (outline b) (if tmp = 0 then _ else _) (leave Goto) (_, some S)
        rw [if_neg A.list.1]
        refine wp_loadRoutine W₂.routine ?_
        intro _ _
        refine wp_loadParameters hq ?_
        intro _
        refine wp_op_bind.mpr ⟨⟨W.stage, trivial⟩, ?_⟩
        rintro _ ⟨g', x'⟩ ⟨hg', rfl⟩
        have hg' : g' = { g with own := own, calls := (r.lpRoutine, arguments b q) :: g.calls } :=
          hg'
        have hp₀ : (g.put r.lpParameters (some (.parameters (normalized b p)))).own
            r.lpParameters ≠ none := by
          rw [Ghost.put_own_self]
          exact Option.some_ne_none _
        have M := mappedAt_of_allocated (g := g) A hp₀ hq hmaps
        rw [hg']
        exact ⟨r, lm, n, normalized b p, q, S,
          ⟨W₂.self, W₂.stage, W₂.routine, W₂.message, W₂.list, W₂.client⟩,
          ⟨M.nonzero, M.list, M.apart, M.nodup, M.held, M.entries⟩, rfl, rfl, H⟩
      · intro own hframe _
        have W₂ := W₁.holding hframe
        show wp (outline b) (if (0 : LPVOID) = 0 then _ else _) (leave Goto) (_, some S)
        rw [if_pos rfl]
        refine wp_setStatus W₂.routine W₂.message (W₂.spares _) ?_
        intro lm'
        have W₃ := W₂.put_message lm'
        exact wp_workerFinish W₃.self W₃.stage W₃.routine W₃.message H

/-- The service routine uses no handle. -/
theorem wp_routine {bufs : List LPVOID} {x : Option Session}
    (hg : Goto (.routine lpService tmp dwThread bufs) (g, x)) :
    wp (outline b) (routine lpService tmp dwThread bufs) (leave Goto) (g, x) := by
  obtain ⟨r, lm, n, p, q, S, W, M, rfl, rfl, H⟩ := hg
  unfold routine
  refine wp_silent (by simp [Silent]) ?_
  intro a
  cases a with
  | write i k v =>
      refine wp_plain (using_of_onBlocks (onBlocks_routineWrite ..))
        (wp_routineWrite M.held W.self ?_ ?_)
      · intro _
        exact ⟨r, lm, n, p, q, S, W, M, rfl, rfl, H⟩
      · intro a bytes _ hown _
        obtain ⟨h₁, h₂, h₃⟩ := W.ne_of_buffer hown
        exact ⟨r, lm, n, p, q, S, W.put h₁ h₂ (fun _ => h₃), M.put_buffer hown _, rfl, rfl, H⟩
  | clientId =>
      refine wp_silent silent_lookup ?_
      intro result
      refine wp_silent (by simp [Silent]) ?_
      intro _
      exact ⟨r, lm, n, p, q, S, W, M, rfl, rfl, H⟩
  | ret status => exact ⟨r, lm, n, p, q, S, W, M, rfl, H⟩

/-- A mapping is given up; the descriptor and the message stay. -/
theorem wp_unmap {x : Option Session} (hself : g.self = none)
    (hr : g.own lpService = some (.routine r)) (hlm : g.own r.lm = some (.message lm n))
    (M : MappedAt g r tmp p q) {f : Unit → Code b α}
    {Q : α → Ghost b × Option Session → Prop}
    (hf : ∀ own, own lpService = some (.routine r) → own r.lm = some (.message lm n) →
      wp (outline b) (f ()) Q ({ g with own := own }, x)) :
    wp (outline b) (rtlUnmapPtrParameters tmp >>= f) Q (g, x) := by
  have apart : ∀ {a y}, g.own a = some y → (∀ q', y ≠ .parameters q') →
      (∀ bytes, y ≠ .buffer bytes) → a ≠ tmp ∧ a ∉ freed b q.parameters := by
    intro a y ha h₁ h₂
    constructor
    · rintro rfl
      exact h₁ q (Option.some.inj (ha.symm.trans M.list))
    · intro hmem
      obtain ⟨bytes, hown⟩ := M.held a ((freed_sublist q.parameters).mem hmem)
      exact h₂ bytes (Option.some.inj (ha.symm.trans hown))
  refine wp_plain (using_of_onBlocks (onBlocks_rtlUnmapPtrParameters _))
    (wp_rtlUnmapPtrParameters hself M.list ((freed_sublist q.parameters).nodup M.nodup) ?_ ?_)
  · intro a ha
    obtain ⟨bytes, hown⟩ := M.held a ((freed_sublist q.parameters).mem ha)
    refine ⟨(M.list_ne hown).symm, ?_⟩
    rw [hown]
    exact Option.some_ne_none _
  · intro own hframe
    refine hf own ?_ ?_
    · obtain ⟨h₁, h₂⟩ := apart hr (by simp) (by simp)
      exact (hframe _ h₁ h₂).trans hr
    · obtain ⟨h₁, h₂⟩ := apart hlm (by simp) (by simp)
      exact (hframe _ h₁ h₂).trans hlm

/-- `WorkerThread` from the return of the routine on. -/
theorem wp_workerReturn {status : NTSTATUS} {x : Option Session}
    (hg : Goto (.workerReturn lpService tmp dwThread status) (g, x)) :
    wp (outline b) (workerReturn lpService tmp dwThread status) (leave Goto) (g, x) := by
  obtain ⟨r, lm, n, p, q, S, W, M, rfl, H⟩ := hg
  -- the message is no part of the mapping
  have hlm : r.lm ≠ tmp ∧ r.lm ∉ buffers b q := by
    constructor
    · intro h
      have hm := W.message
      rw [h, M.list] at hm
      cases hm
    · intro hmem
      obtain ⟨bytes, hown⟩ := M.held _ hmem
      exact (W.ne_of_buffer hown).2.1 rfl
  -- what happens to the mapping and to the call, whatever has become of the client
  have finish : ∀ lm' client, wp (outline b) (rtlUnmapPtrParameters tmp >>= fun _ =>
      workerFinish lpService dwThread) (leave Goto)
      ({ g.put r.lm (some (.message lm' n)) with client := client }, some S) := by
    intro lm' client
    have W' := W.put_message lm'
    have M' := M.put_other hlm.1 hlm.2 (some (.message lm' n))
    refine wp_unmap (g := { g.put r.lm (some (.message lm' n)) with client := client }) W'.self
      W'.routine W'.message ⟨M'.nonzero, M'.list, M'.apart, M'.nodup, M'.held, M'.entries⟩ ?_
    intro own hr hm
    exact wp_workerFinish W'.self W'.stage hr hm H
  unfold workerReturn
  refine wp_setStatus W.routine W.message (W.spares _) ?_
  intro lm₁
  have W₁ := W.put_message lm₁
  have M₁ := M.put_other hlm.1 hlm.2 (some (.message lm₁ n))
  refine wp_loadRoutine W₁.routine ?_
  intro _ _
  refine wp_using H.client_left (H.client ▸ using_of_copies (copies_rtlSyncMappedPtrParameters ..))
    (wp_rtlSyncMappedPtrParameters W₁.client W₁.list M₁.list ?_ ?_ ?_)
  · refine M₁.entries.imp ?_
    intro e m hem he
    exact M₁.held _ (hem he)
  · intro _
    exact finish lm₁ _
  · -- a write failed
    intro ws _ _
    refine wp_setStatus (g := { g.put r.lm (some (.message lm₁ n)) with
      client := written g.client ws }) W₁.routine W₁.message
      (Ghost.spares_of_none W₁.self _) ?_
    intro lm₂
    have hput := finish lm₂ (written g.client ws)
    rw [← Ghost.put_put (y := some (.message lm₂ n))] at hput
    exact hput

end Worker

/-! ## Every label -/

/-- What threads do that are no workers: they do not touch the memory of a client and
    reply to nobody. -/
@[simp] def Elsewhere : Op → Prop
  | .kernel o =>
      match o with
      | .ntReadVirtualMemory .. => False
      | .ntWriteVirtualMemory .. => False
      | .ntReplyWaitReplyPort .. => False
      | _ => True
  | .id (.setSystemLpcMessageLength _) => False
  | _ => True

section Elsewhere

variable (lpService lm param : LPVOID)

/-- What uses no handle is done elsewhere too. -/
theorem elsewhere_of_using {p : Code b α} (hp : p.Only (Using none)) : p.Only Elsewhere := by
  refine hp.mono ?_
  intro o ho
  cases o with
  | kernel o => cases o <;> first | exact trivial | exact ho.elim | cases ho
  | id o => cases o <;> first | exact trivial | exact ho.elim
  | _ => exact trivial

theorem elsewhere_of_onBlocks {p : Code b α} (hp : p.Only OnBlocks) : p.Only Elsewhere :=
  elsewhere_of_using (using_of_onBlocks hp)

theorem elsewhere_waitThread : (waitThread lpService : Code b _).Only Elsewhere :=
  ⟨trivial, fun _ => (only_modifyMessage.mpr ⟨trivial, fun _ => trivial⟩).bind fun _ => trivial⟩

theorem elsewhere_waitExit : (waitExit lpService lm : Code b _).Only Elsewhere :=
  ⟨trivial, fun _ => (only_loadRoutine.mpr trivial).bind fun _ =>
    ⟨trivial, fun _ => ⟨trivial, fun _ => ⟨trivial, fun _ => trivial⟩⟩⟩⟩

theorem elsewhere_acceptConnectPort (accept : Bool) :
    (acceptConnectPort param lm accept : Code b _).Only Elsewhere := by
  refine (only_loadMessage.mpr trivial).bind fun m => ?_
  refine Prog.only_op_bind.mpr ⟨trivial, fun x => ?_⟩
  split
  · exact (only_modifyRoutine.mpr ⟨trivial, fun _ => trivial⟩).bind fun _ => trivial
  · trivial

theorem elsewhere_waitRefuse : (waitRefuse lpService lm param : Code b _).Only Elsewhere := by
  refine (elsewhere_acceptConnectPort ..).bind fun _ => ?_
  refine (only_loadRoutine.mpr trivial).bind fun r => ?_
  split
  · exact (only_loadRoutine.mpr trivial).bind fun _ =>
      ⟨trivial, fun _ => ⟨trivial, fun _ => trivial⟩⟩
  · exact ⟨trivial, fun _ => trivial⟩

theorem elsewhere_waitAbandon : (waitAbandon lpService lm param : Code b _).Only Elsewhere :=
  (only_loadRoutine.mpr trivial).bind fun _ => ⟨trivial, fun _ => ⟨trivial, fun _ => trivial⟩⟩

theorem elsewhere_waitDispatch (callparam : Nat) :
    (waitDispatch lpService lm param callparam : Code b _).Only Elsewhere := by
  refine ⟨trivial, fun copy => (only_loadMessage.mpr trivial).bind fun m => ?_⟩
  refine (only_modifyMessage.mpr ⟨trivial, fun _ => trivial⟩).bind fun _ => ?_
  refine (only_modifyRoutine.mpr ⟨trivial, fun _ => trivial⟩).bind fun _ => ?_
  refine (elsewhere_of_onBlocks (onBlocks_rtlCaptureParameters ..)).bind fun _ => ?_
  refine (only_modifyRoutine.mpr ⟨trivial, fun _ => trivial⟩).bind fun _ => ?_
  exact ⟨trivial, fun _ => trivial⟩

theorem elsewhere_waitAccept (callparam : Nat) :
    (waitAccept lpService lm param callparam : Code b _).Only Elsewhere := by
  refine (elsewhere_acceptConnectPort ..).bind fun status => ?_
  split
  · refine (only_loadRoutine.mpr trivial).bind fun r => ?_
    refine Prog.only_op_bind.mpr ⟨trivial, fun status => ?_⟩
    split
    · refine (only_loadRoutine.mpr trivial).bind fun r => ?_
      refine Prog.only_op_bind.mpr ⟨trivial, fun x => ?_⟩
      refine (elsewhere_of_onBlocks (onBlocks_receiveInto ..)).bind fun status => ?_
      split
      · exact elsewhere_waitDispatch ..
      · exact elsewhere_waitAbandon ..
    · exact elsewhere_waitAbandon ..
  · exact elsewhere_waitAbandon ..

theorem elsewhere_waitConnection : (waitConnection lpService lm : Code b _).Only Elsewhere := by
  refine (only_loadRoutine.mpr trivial).bind fun r => ?_
  refine (only_newRoutine.mpr ⟨trivial, fun _ => trivial⟩).bind fun param => ?_
  refine (only_loadMessage.mpr trivial).bind fun m => ?_
  refine Prog.only_op_bind.mpr ⟨trivial, fun hClientProcess => ?_⟩
  refine (only_modifyRoutine.mpr ⟨trivial, fun _ => trivial⟩).bind fun _ => ?_
  refine (only_loadMessage.mpr trivial).bind fun m => ?_
  have hrefused := (fetches_refused (b := b) lpService lm hClientProcess m).mono
    fun _ => Fetches.onBlocks
  refine (elsewhere_of_onBlocks hrefused).bind fun v => ?_
  split
  · exact elsewhere_waitRefuse ..
  · exact elsewhere_waitAccept ..

theorem elsewhere_waitLoop : (waitLoop lpService lm : Code b _).Only Elsewhere := by
  refine ⟨trivial, fun _ => (only_loadRoutine.mpr trivial).bind fun r => ?_⟩
  refine Prog.only_op_bind.mpr ⟨trivial, fun x => ?_⟩
  refine (elsewhere_of_onBlocks (onBlocks_receiveInto ..)).bind fun status => ?_
  split
  · exact elsewhere_waitConnection ..
  · refine Prog.only_op_bind.mpr ⟨trivial, fun v => ?_⟩
    split
    · exact elsewhere_waitExit ..
    · trivial

theorem elsewhere_register (h lpRoutine a : LPVOID) (name : Option (List WCHAR)) :
    (scRegisterServiceRoutineW h lpRoutine a name : Code b NTSTATUS).Only Elsewhere := by
  have silent : ∀ {α : Type} {p : Code b α}, p.Only Silent → p.Only Elsewhere := fun hp =>
    elsewhere_of_using (hp.mono fun _ => using_of_silent)
  refine (silent silent_notInitialized).bind fun v => ?_
  split
  · trivial
  · refine (silent (silent_registerProbe ..)).bind fun v => ?_
    split
    · trivial
    · refine Prog.only_op_bind.mpr ⟨trivial, fun us => ⟨trivial, fun _ => ?_⟩⟩
      refine (elsewhere_of_onBlocks (onBlocks_rtlCaptureParameters ..)).bind fun captured => ?_
      split
      · exact ⟨trivial, fun _ => trivial⟩
      · refine Prog.only_op_bind.mpr ⟨trivial, fun x => ?_⟩
        split
        · refine ⟨trivial, fun _ => ?_⟩
          refine (only_newRoutine.mpr ⟨trivial, fun _ => trivial⟩).bind fun hResult => ?_
          refine Prog.only_op_bind.mpr ⟨trivial, fun hThread => ?_⟩
          split
          · exact ⟨trivial, fun _ => ⟨trivial, fun _ => ⟨trivial, fun _ => trivial⟩⟩⟩
          · exact ⟨trivial, fun _ => trivial⟩
        · exact ⟨trivial, fun _ => ⟨trivial, fun _ => trivial⟩⟩

theorem elsewhere_unregister :
    (scUnregisterServiceRoutine lpService : Code b _).Only Elsewhere := by
  have hload : ∀ {a}, (loadRoutine a : Code b _).Only Elsewhere := only_loadRoutine.mpr trivial
  refine Prog.Only.bind ?_ fun v => ?_
  · refine Prog.Only.bind (only_orElse trivial (only_orElse ?_ ?_))
      fun _ => ⟨trivial, fun _ => trivial⟩
    · exact hload.bind fun _ => ⟨trivial, fun _ => trivial⟩
    · exact hload.bind fun _ => (only_loadParameters.mpr trivial).bind fun _ =>
        hload.bind fun _ => ⟨trivial, fun _ => trivial⟩
  · split
    · trivial
    · exact ⟨trivial, fun _ => hload.bind fun _ => ⟨trivial, fun _ => trivial⟩⟩

theorem elsewhere_app (calls : List Call) : (app calls : Code b _).Only Elsewhere := by
  cases calls with
  | nil => exact ⟨trivial, fun _ => trivial⟩
  | cons call calls =>
      have hmake : (makeCall call : Code b Unit).Only Elsewhere →
          (app (call :: calls) : Code b _).Only Elsewhere :=
        fun h => ⟨trivial, fun _ => h.bind fun _ => trivial⟩
      refine hmake ?_
      cases call with
      | register h lpRoutine a name =>
          exact (elsewhere_register ..).bind fun _ => ⟨trivial, fun _ => trivial⟩
      | unregister a => exact (elsewhere_unregister ..).bind fun _ => ⟨trivial, fun _ => trivial⟩
      | clientId =>
          refine (elsewhere_of_using (silent_lookup.mono fun _ => using_of_silent)).bind fun _ => ?_
          exact ⟨trivial, fun _ => ⟨trivial, fun _ => trivial⟩⟩

end Elsewhere

/-- Who is no worker has nothing to guard. -/
theorem wp_outside {g : Ghost b} (hst : g.stage ≠ .worker) {p : Code b (Option Label)}
    (hp : p.Only Elsewhere) (hw : wp (ScOwnership.outline b) p (leave ScOwnership.Goto) g) :
    wp (outline b) p (leave Goto) (g, none) := by
  refine wp_guarded (I := fun g => g.stage ≠ .worker) ?_ ?_ ?_ hp hst hw ?_
  · intro o g ho hg _
    cases o with
    | kernel o =>
        cases o with
        | ntClose h => exact fun hworker => absurd hworker hg
        | ntReadVirtualMemory | ntWriteVirtualMemory | ntReplyWaitReplyPort => exact ho.elim
        | _ => exact trivial
    | id o => cases o <;> first | exact trivial | exact ho.elim
    | _ => exact trivial
  · intro o g r _ _ _
    unfold closeOne
    split <;> rfl
  · intro o g r g' _ hg _ hpost hworker
    rw [hpost.fields.2.1] at hworker
    exact hg (Stage.after_final (Or.inl rfl) hworker)
  · intro l g hg hl
    cases l with
    | none => trivial
    | some l =>
        cases l with
        | routine lpService tmp dwThread bufs =>
            obtain ⟨r, lm, n, p, q, W, -⟩ := hl
            exact absurd W.stage hg
        | workerReturn lpService tmp dwThread status =>
            obtain ⟨r, lm, n, p, q, W, -⟩ := hl
            exact absurd W.stage hg
        | _ => exact ⟨hl, rfl⟩

/-- **EVERY LABEL** keeps to the guarded outline. -/
theorem wp_code {l : Label} {y : Ghost b × Option Session} (hg : Entry l y) :
    wp (outline b) (code l) (leave Goto) y := by
  obtain ⟨g, x⟩ := y
  cases l with
  | waitThread lpService =>
      obtain ⟨hg, rfl⟩ := hg
      exact wp_outside (by rw [hg.1]; simp) (elsewhere_waitThread _) (ScOwnership.wp_code hg)
  | waitLoop lpService lm =>
      obtain ⟨hg, rfl⟩ := hg
      exact wp_outside (by rw [hg.1]; simp) (elsewhere_waitLoop _ _) (ScOwnership.wp_code hg)
  | workerThread lpService =>
      obtain ⟨r, lm, n, p, S, W, rfl, H⟩ := hg
      exact wp_workerThread W H
  | routine lpService tmp dwThread bufs => exact wp_routine hg
  | workerReturn lpService tmp dwThread status => exact wp_workerReturn hg
  | app calls =>
      obtain ⟨hg, rfl⟩ := hg
      refine wp_outside ?_ (elsewhere_app calls) (ScOwnership.wp_code (l := .app calls) hg)
      rw [hg.2.1]
      simp

end ScHandle
