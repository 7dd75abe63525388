import ServiceCall.BufferProofs
import ServiceCall.CaptureProofs
import ServiceCall.SharingProofs

/-! # One iteration of the listener

    An iteration that takes a connection makes a descriptor for it and opens its
    client; both are given back where the connection is refused or not accepted.
    From the moment it is accepted there is a server port as well, and no path of
    the loop closes it: what is left open is given to the worker, or to nobody
    (`iteration_releases`). -/

namespace ScSequential

open LinearMemory OwnedHeap OpProg ThreadSys ScParameter LpcMessage ScSystem
  ScServiceCall ScOwnership

variable {b : Build}

/-- The same handles are open and the same blocks live. -/
def SameResources (g g' : Local b) : Prop :=
  (∀ h, g'.lpc.handles.lookup h ≠ none ↔ g.lpc.handles.lookup h ≠ none)
    ∧ ∀ a, g'.cells a ≠ none ↔ g.cells a ≠ none

/-! ## What the log says -/

/-- The operations that close no handle. -/
@[simp] def ClosesNot : Op → Prop
  | .kernel (.ntClose _) => False
  | _ => True

/-- The operations that do not listen. -/
@[simp] def ListensNot : Op → Prop
  | .kernel (.ntListenPort _) => False
  | _ => True

theorem accepted_grant (L : Log) (h : HANDLE) : (L.grant h).accepted = L.accepted := by
  unfold Log.grant
  split <;> rfl

theorem closed_grant (L : Log) (h : HANDLE) : (L.grant h).closed = L.closed := by
  unfold Log.grant
  split <;> rfl

theorem listened_grant (L : Log) (h : HANDLE) : (L.grant h).listened = L.listened := by
  unfold Log.grant
  split <;> rfl

/-- A connection that was accepted stays in the log. -/
theorem accepted_add (e : Sigma (Op.Ret b)) (L : Log) (h : L.accepted ≠ []) :
    (L.add e).accepted ≠ [] := by
  unfold Log.add
  split <;> (try split) <;> first
    | exact h
    | (rw [accepted_grant]; exact h)
    | (rw [accepted_grant]; exact List.append_ne_nil_of_right_ne_nil _ (List.cons_ne_nil _ _))

/-- Only listening records that. -/
theorem listened_add {e : Sigma (Op.Ret b)} (he : ListensNot e.1) (L : Log) :
    (L.add e).listened = L.listened := by
  unfold Log.add
  split <;> (try split) <;> first | rfl | exact listened_grant .. | exact he.elim

/-! ## A connection that is not accepted -/

/-- The iteration has a descriptor `param` with the content `r`, and the process of its
    client open, if that could be opened. -/
structure Connecting (g₀ : Local b) (lm param : LPVOID) (r : ServiceRoutine) (g : Local b) :
    Prop where
  routine  : g.cells param = some (.routine r)
  new      : param ≠ 0 ∧ g₀.cells param = none
  buffer   : ∃ m size, g.cells lm = some (.message m size)
  before   : g₀.cells lm ≠ none
  keep     : ∀ a, a ≠ param → a ≠ lm → g.cells a = g₀.cells a
  handles  : ∀ h, g.lpc.handles.lookup h ≠ none
    ↔ g₀.lpc.handles.lookup h ≠ none ∨ (h = r.hClientProcess ∧ h ≠ 0)
  fresh    : r.hClientProcess ≠ 0 → g₀.lpc.handles.lookup r.hClientProcess = none
  accepted : g.log.accepted = []
  closed   : g.log.closed = []

/-- What the iteration has to show for itself. -/
def Released (g₀ g : Local b) : Prop :=
  SameResources g₀ g ↔ g.log.accepted = [] ∧ ∀ x ∈ g.log.closed, x.2 = true

namespace Connecting

variable {g₀ g : Local b} {lm param : LPVOID} {r : ServiceRoutine}

/-- Nothing that counts changes. -/
theorem congr (W : Connecting g₀ lm param r g) {g' : Local b} (hc : g'.cells = g.cells)
    (hh : g'.lpc.handles = g.lpc.handles) (ha : g'.log.accepted = g.log.accepted)
    (hl : g'.log.closed = g.log.closed) : Connecting g₀ lm param r g' where
  routine := by rw [hc]; exact W.routine
  new := W.new
  buffer := by rw [hc]; exact W.buffer
  before := W.before
  keep := by rw [hc]; exact W.keep
  handles := by rw [hh]; exact W.handles
  fresh := W.fresh
  accepted := by rw [ha]; exact W.accepted
  closed := by rw [hl]; exact W.closed

theorem ne (W : Connecting g₀ lm param r g) : lm ≠ param := by
  rintro rfl
  exact W.before W.new.2

/-- The descriptor is deleted, and the client is not open. -/
theorem delete (W : Connecting g₀ lm param r g) {g' : Local b} (hc : g'.cells = g.cells)
    (hh : ∀ h, g'.lpc.handles.lookup h ≠ none ↔ g₀.lpc.handles.lookup h ≠ none) :
    SameResources g₀ (g'.delete param) := by
  refine ⟨?_, ?_⟩
  · intro h
    rw [Local.delete_lpc]
    exact hh h
  · intro a
    rw [Local.delete_cells]
    by_cases hp : a = param
    · rw [if_pos ⟨hp, W.new.1⟩, hp, W.new.2]
    · rw [if_neg (fun h => hp h.1), hc]
      by_cases hl : a = lm
      · obtain ⟨m, size, hm⟩ := W.buffer
        rw [hl, hm]
        exact ⟨fun _ => W.before, fun _ => Option.some_ne_none _⟩
      · rw [W.keep a hp hl]

end Connecting

section Ends

variable {t n : Nat} {Q : Option Label → Local b → Prop} {g₀ g : Local b}
  {lpService lm param : LPVOID} {r : ServiceRoutine}

/-- Closing the client and deleting the descriptor. -/
theorem solo_giveBack (W : Connecting g₀ lm param r g) (h0 : r.hClientProcess ≠ 0)
    {l : Option Label} :
    wp (solo t n) (ntClose r.hClientProcess >>= fun _ => free param >>= fun _ =>
      (pure l : Code b _)) (fun _ g' => Released g₀ g') g := by
  refine solo_kernel ?_
  intro st k E
  refine solo_free ?_
  have hopen : g.lpc.handles.lookup r.hClientProcess ≠ none :=
    (W.handles _).mpr (Or.inr ⟨rfl, h0⟩)
  show Released g₀ _
  rw [Released, Local.delete_log]
  cases E with
  | @closed _ obj hl =>
      have hsame : SameResources g₀ (Local.delete ((g.withLpc
          (g.lpc.close t r.hClientProcess obj)).logged
          (g.log.close r.hClientProcess true)) param) := by
        refine W.delete rfl ?_
        intro h
        show (Lpc.close ..).handles.lookup h ≠ none ↔ _
        rw [Lpc.lookup_close]
        by_cases hh : h = r.hClientProcess
        · rw [if_pos hh, hh, W.fresh h0]
        · rw [if_neg hh, W.handles h]
          exact ⟨fun h => h.resolve_right fun h' => hh h'.1, Or.inl⟩
      refine ⟨fun _ => ⟨W.accepted, ?_⟩, fun _ => hsame⟩
      intro x hx
      have hx : x ∈ g.log.closed ++ [(r.hClientProcess, true)] := hx
      rw [W.closed] at hx
      rw [List.mem_singleton.mp hx]
  | notClosed hst =>
      constructor
      · -- the process stays open
        intro hsame
        refine absurd (W.fresh h0) ((hsame.1 r.hClientProcess).mp ?_)
        rw [Local.delete_lpc]
        exact hopen
      · rintro ⟨-, hall⟩
        have := hall (r.hClientProcess, ntSuccess st) (List.mem_append_right _ List.mem_cons_self)
        exact absurd (hst.symm.trans this) Bool.false_ne_true

/-- Deleting the descriptor where there is no client. -/
theorem solo_giveNothing (W : Connecting g₀ lm param r g) (h0 : r.hClientProcess = 0)
    {l : Option Label} :
    wp (solo t n) (free param >>= fun _ => (pure l : Code b _))
      (fun _ g' => Released g₀ g') g := by
  refine solo_free ?_
  show Released g₀ _
  have hsame : SameResources g₀ (g.delete param) := by
    refine W.delete rfl ?_
    intro h
    rw [W.handles h, h0]
    exact ⟨fun h' => h'.resolve_right fun h' => h'.2 h'.1, Or.inl⟩
  rw [Released, Local.delete_log]
  refine ⟨fun _ => ⟨W.accepted, ?_⟩, fun _ => hsame⟩
  intro x hx
  have hx : x ∈ g.log.closed := hx
  rw [W.closed] at hx
  exact nomatch hx

/-- `NtAcceptConnectPort` is told to refuse. -/
theorem solo_refuse (W : Connecting g₀ lm param r g) {α : Type} {P : α → Local b → Prop}
    {f : NTSTATUS → Code b α}
    (hf : ∀ st g', Connecting g₀ lm param r g' → wp (solo t n) (f st) P g') :
    wp (solo t n) (acceptConnectPort param lm false >>= f) P g := by
  obtain ⟨m, size, hm⟩ := W.buffer
  rw [acceptConnectPort, Prog.bind_assoc]
  refine solo_loadMessage hm ?_
  intro _
  rw [Prog.bind_assoc]
  refine solo_kernel ?_
  intro x k E
  rw [Bool.and_false, if_neg Bool.false_ne_true]
  refine hf _ _ (W.congr rfl ?_ rfl rfl)
  cases E with
  | refused => rfl
  | notAccepted hst => rfl

theorem solo_waitRefuse (W : Connecting g₀ lm param r g) :
    wp (solo t n) (waitRefuse lpService lm param : Code b _)
      (fun _ g' => Released g₀ g') g := by
  rw [waitRefuse]
  refine solo_refuse W ?_
  intro st g₁ W
  refine solo_loadRoutine W.routine ?_
  intro _
  split
  · next h0 =>
      refine solo_loadRoutine W.routine ?_
      intro _
      exact solo_giveBack W h0
  · next h0 => exact solo_giveNothing W (not_not.mp h0)

/-! ## A connection that is accepted -/

/-- The server port `s` was opened, and is open. -/
def Leaked (g₀ : Local b) (s : HANDLE) (g : Local b) : Prop :=
  g₀.lpc.handles.lookup s = none ∧ g.lpc.handles.lookup s ≠ none ∧ g.log.accepted ≠ []

theorem Leaked.released {s : HANDLE} (h : Leaked g₀ s g) : Released g₀ g := by
  constructor
  · intro hsame
    exact absurd h.1 ((hsame.1 s).mp h.2.1)
  · rintro ⟨hacc, -⟩
    exact absurd hacc h.2.2

/-- Operations other than closing it leave it open. -/
theorem Leaked.step {s : HANDLE} (h : Leaked g₀ s g) {o : Op} {x : Op.Ret b o} {g' : Local b}
    (ho : o ≠ .kernel (.ntClose s)) (hpost : (solo t n).post o g x g') : Leaked g₀ s g' := by
  obtain ⟨-, hlpc, hlog⟩ := hpost
  refine ⟨h.1, ?_, ?_⟩
  · cases o with
    | kernel o =>
        have E : Lpc.Effect t g.lpc o x g'.lpc := hlpc
        rcases E.lookup s with he | ⟨-, hnone, -⟩ | ⟨rfl, -⟩
        · rw [he]
          exact h.2.1
        · exact absurd hnone h.2.1
        · exact absurd rfl ho
    | createThread l =>
        rcases hlpc with ⟨-, hk⟩ | ⟨-, hfree, k, hk⟩
        · rw [hk]
          exact h.2.1
        · rw [hk]
          show (g.lpc.opened x (.thread n)).handles.lookup s ≠ none
          rw [Lpc.lookup_opened]
          split
          · exact Option.some_ne_none _
          · exact h.2.1
    | api o =>
        cases o with
        | loadOwn a k =>
            rw [show g'.lpc = g.lpc from hlpc.1]
            exact h.2.1
        | storeOwn a bytes =>
            rw [show g'.lpc = _ from hlpc]
            exact h.2.1
        | _ =>
            rw [show g'.lpc = g.lpc from hlpc]
            exact h.2.1
    | _ =>
        rw [show g'.lpc = g.lpc from hlpc]
        exact h.2.1
  · rw [hlog]
    exact accepted_add _ _ h.2.2

/-- A program that closes nothing leaves it open. -/
theorem Leaked.keep {s : HANDLE} (h : Leaked g₀ s g) {α : Type} {p : Code b α}
    (hp : p.Only ClosesNot) : wp (solo t n) p (fun _ g' => Leaked g₀ s g') g := by
  refine wp_invariant hp (fun _ _ _ _ => trivial) ?_ h (fun _ _ h => h)
  rintro o g x g' ho h hpost
  refine h.step ?_ hpost
  rintro rfl
  exact ho

theorem closesNot_of_inner {o : Op} (ho : Inner o) : ClosesNot o := by
  cases o with
  | kernel o => cases o <;> trivial
  | _ => trivial

theorem closesNot_waitDispatch (lpService lm param : LPVOID) (a : Nat) :
    (waitDispatch lpService lm param a : Code b _).Only ClosesNot := by
  have inner : ∀ {α : Type} {p : Code b α}, p.Only Inner → p.Only ClosesNot :=
    fun hp => hp.mono fun _ => closesNot_of_inner
  refine Prog.only_op_bind.mpr ⟨trivial, fun copy => ?_⟩
  refine (inner (only_loadMessage.mpr trivial)).bind fun m => ?_
  refine (inner (only_modifyMessage.mpr ⟨trivial, fun _ => trivial⟩)).bind fun _ => ?_
  refine (inner (only_modifyRoutine.mpr ⟨trivial, fun _ => trivial⟩)).bind fun _ => ?_
  refine (inner (inner_rtlCaptureParameters _)).bind fun captured => ?_
  refine (inner (only_modifyRoutine.mpr ⟨trivial, fun _ => trivial⟩)).bind fun _ => ?_
  exact Prog.only_op_bind.mpr ⟨trivial, fun _ => trivial⟩

/-- The connection is given up: the client is closed, the port is not. -/
theorem solo_waitAbandon_leaked {s : HANDLE} (h : Leaked g₀ s g)
    (hr : g.cells param = some (.routine r)) (hs : r.hClientProcess ≠ s) :
    wp (solo t n) (waitAbandon lpService lm param : Code b _)
      (fun _ g' => Leaked g₀ s g') g := by
  rw [waitAbandon]
  refine solo_loadRoutine hr ?_
  intro _
  refine wp_op_bind.mpr ⟨trivial, ?_⟩
  intro x g' hpost
  refine (h.step ?_ hpost).keep (Prog.only_op_bind.mpr ⟨trivial, fun _ => trivial⟩)
  rintro ⟨rfl⟩
  exact hs rfl

theorem solo_waitReceive_leaked {s : HANDLE} (h : Leaked g₀ s g)
    (hr : g.cells param = some (.routine r)) (hs : r.hClientProcess ≠ s) {m : Nat → BYTE}
    {size : Nat} (hm : g.cells lm = some (.message m size)) {a : Nat} :
    wp (solo t n) (waitReceive lpService lm param a : Code b _)
      (fun _ g' => Leaked g₀ s g') g := by
  rw [waitReceive]
  refine solo_loadRoutine hr ?_
  intro _
  refine wp_op_bind.mpr ⟨trivial, ?_⟩
  rintro ⟨st, received⟩ g₁ hpost
  have hc : g₁.cells = g.cells := hpost.1
  have h₁ := h.step (by exact fun h => nomatch h) hpost
  have hne : param ≠ lm := by
    rintro rfl
    rw [hr] at hm
    exact nomatch hm
  refine solo_receiveInto (by rw [hc]; exact hm) ?_ ?_
  · intro _
    split
    · exact h₁.keep (closesNot_waitDispatch ..)
    · exact solo_waitAbandon_leaked h₁ (by rw [hc]; exact hr) hs
  · intro m' _
    have h₂ : Leaked g₀ s (g₁.put lm (some (.message (deliver m m') size))) := h₁
    split
    · exact h₂.keep (closesNot_waitDispatch ..)
    · refine solo_waitAbandon_leaked h₂ ?_ hs
      rw [Local.put_cells_ne _ hne, hc]
      exact hr

/-- The connection is accepted, or given up. -/
theorem solo_waitAccept (W : Connecting g₀ lm param r g) (h0 : r.hClientProcess ≠ 0) {a : Nat} :
    wp (solo t n) (waitAccept lpService lm param a : Code b _)
      (fun _ g' => Released g₀ g') g := by
  obtain ⟨m, size, hm⟩ := W.buffer
  rw [waitAccept, acceptConnectPort, Prog.bind_assoc]
  refine solo_loadMessage hm ?_
  intro _
  rw [Prog.bind_assoc]
  refine solo_kernel ?_
  intro x k E
  cases E with
  | @accepted _ _ p m' pending s hmem hs hnew =>
      -- from here on the server port is open
      have hleak : Leaked g₀ s ((g.withLpc { g.lpc.opened s
          (.communicationPort p (clientId b m)) with pending := pending }).logged
            ((g.log.accept s).grant s)) := by
        refine ⟨?_, ?_, ?_⟩
        · have := (not_congr (W.handles s)).mp (not_not.mpr hnew.2)
          exact not_not.mp (not_or.mp this).1
        · show (g.lpc.opened s (.communicationPort p (clientId b m))).handles.lookup s ≠ none
          rw [Lpc.lookup_opened, if_pos rfl]
          exact Option.some_ne_none _
        · show (Log.grant _ s).accepted ≠ []
          rw [accepted_grant]
          exact List.append_ne_nil_of_right_ne_nil _ (List.cons_ne_nil _ _)
      have hs : r.hClientProcess ≠ s := by
        intro h
        by_cases h0 : r.hClientProcess = 0
        · exact hnew.1 (h ▸ h0)
        · exact (W.handles s).mpr (Or.inr ⟨h.symm, h ▸ h0⟩) hnew.2
      refine wp_mono (Q := fun _ g' => Leaked g₀ s g') (fun _ _ h => h.released) ?_
      rw [if_pos (by rfl), Prog.bind_assoc]
      refine solo_modifyRoutine (by exact W.routine) ?_
      intro _
      rw [Prog.pure_eq, Prog.bind_ret, if_pos (by rfl)]
      refine solo_loadRoutine (Local.put_cells_self ..) ?_
      intro _
      refine wp_op_bind.mpr ⟨trivial, ?_⟩
      intro st g₁ hpost
      have h₁ : Leaked g₀ s g₁ :=
        Leaked.step (by exact hleak) (by simp) hpost
      have hc : g₁.cells = _ := hpost.1
      have hr₁ : g₁.cells param = some (.routine { r with hServerPort := s }) := by
        rw [hc]
        exact Local.put_cells_self ..
      split
      · have hm₁ : g₁.cells lm = some (.message m size) := by
          rw [hc]
          exact (Local.put_cells_ne _ W.ne _).trans hm
        exact solo_waitReceive_leaked h₁ hr₁ hs hm₁
      · exact solo_waitAbandon_leaked h₁ hr₁ hs
  | @notAccepted _ _ _ st hst =>
      have hadd : g.log.add (b := b) ⟨.kernel (.ntAcceptConnectPort (clientId b m)
          (messageId b m) true), (st, (0 : Nat))⟩ = g.log := by simp [Log.add, hst]
      have W' : Connecting _ _ _ _ ((g.withLpc g.lpc).logged g.log) := W.congr rfl rfl rfl rfl
      rw [hadd, hst, Bool.false_and, if_neg Bool.false_ne_true, Prog.pure_eq, Prog.bind_ret, hst,
        if_neg Bool.false_ne_true, waitAbandon]
      refine solo_loadRoutine W'.routine ?_
      intro _
      exact solo_giveBack W' h0

/-! ## The iteration -/

/-- Without a client the connection is refused. -/
theorem refused_zero (lpService lm : LPVOID) (m : Nat → BYTE) :
    (refused lpService lm 0 m : Code b Bool) = pure true := rfl

theorem quiet_refused (lpService lm : LPVOID) (h : HANDLE) (m : Nat → BYTE) :
    (refused lpService lm h m : Code b Bool).Only Quiet := by
  refine only_orElse trivial (only_orElse trivial ?_)
  simp [equalParameterType, loadRoutine, loadParameters, loadMessage]

/-- A connection was taken, and nothing was done for it yet. -/
theorem solo_waitConnection {r₀ : ServiceRoutine} {m₀ : Nat → BYTE} {size₀ : Nat}
    (hr₀ : g₀.cells lpService = some (.routine r₀))
    (hm₀ : g₀.cells lm = some (.message m₀ size₀))
    (hkeep : ∀ a, a ≠ lm → g.cells a = g₀.cells a)
    (hm : ∃ m size, g.cells lm = some (.message m size))
    (hhandles : g.lpc.handles = g₀.lpc.handles) (hacc : g.log.accepted = [])
    (hclosed : g.log.closed = []) :
    wp (solo t n) (waitConnection lpService lm : Code b _) (fun _ g' => Released g₀ g') g := by
  obtain ⟨m, size, hm⟩ := hm
  have hne : lpService ≠ lm := by
    rintro rfl
    rw [hm₀] at hr₀
    exact nomatch hr₀
  rw [waitConnection]
  refine solo_loadRoutine ((hkeep _ hne).trans hr₀) ?_
  intro _
  refine solo_newRoutine ?_
  intro param hnew
  have hpm : param ≠ lm := by
    rintro rfl
    rw [hnew.new] at hm
    exact nomatch hm
  have hlm : ∀ g' : Local b, g'.cells = Function.update g.cells param (some (.routine r₀)) →
      g'.cells lm = some (.message m size) := by
    intro g' hg'
    rw [hg', Function.update_of_ne hpm.symm, hm]
  refine solo_loadMessage (hlm _ rfl) ?_
  intro _
  -- `OpenProcess` may fail: then the handle is null
  refine solo_kernel ?_
  intro h k E
  refine solo_modifyRoutine (r := r₀) (Function.update_self ..) ?_
  intro _
  have W : Connecting g₀ lm param { r₀ with hClientProcess := h }
      ((((g.allocate param 1 (.routine r₀)).withLpc k).logged
        ((g.log.allocate param 1).grant h)).put param
          (some (.routine { r₀ with hClientProcess := h }))) := by
    have hcells : ∀ a, a ≠ param → Function.update (Function.update g.cells param
        (some (.routine r₀))) param (some (.routine { r₀ with hClientProcess := h })) a
        = g.cells a := by
      intro a ha
      rw [Function.update_of_ne ha, Function.update_of_ne ha]
    refine ⟨Local.put_cells_self .., ⟨hnew.nonzero, ?_⟩, ⟨m, size, ?_⟩, ?_, ?_, ?_, ?_, ?_, ?_⟩
    · rw [← hkeep param hpm]
      exact hnew.new
    · exact (hcells lm hpm.symm).trans hm
    · rw [hm₀]
      exact Option.some_ne_none _
    · intro a ha hal
      exact (hcells a ha).trans (hkeep a hal)
    -- the handles are those of before, and the new one if there is one
    · intro h'
      show k.handles.lookup h' ≠ none ↔ _
      cases E with
      | openedProcess hfree =>
          show (g.lpc.opened h _).handles.lookup h' ≠ none ↔ _
          rw [Lpc.lookup_opened, ← hhandles]
          by_cases hh : h' = h
          · rw [if_pos hh]
            exact ⟨fun _ => Or.inr ⟨hh, hh ▸ hfree.1⟩, fun _ => Option.some_ne_none _⟩
          · rw [if_neg hh]
            exact ⟨Or.inl, fun h => h.resolve_right fun h => hh h.1⟩
      | notOpened =>
          rw [← hhandles]
          exact ⟨Or.inl, fun h => h.resolve_right fun h => h.2 h.1⟩
    · intro h0
      cases E with
      | openedProcess hfree =>
          rw [← hhandles]
          exact hfree.2
      | notOpened => exact absurd rfl h0
    · exact (accepted_grant ..).trans hacc
    · exact (closed_grant ..).trans hclosed
  obtain ⟨m', size', hm'⟩ := W.buffer
  refine solo_loadMessage hm' ?_
  intro _
  -- without a handle, or with another list, the connection is refused
  by_cases h0 : h = 0
  · subst h0
    rw [refused_zero]
    exact solo_waitRefuse W
  · refine solo_quiet.bind (quiet_refused ..) ?_
    intro v
    split
    · exact solo_waitRefuse W
    · exact solo_waitAccept W h0

/-- An iteration that listens in vain. -/
theorem solo_listensNot {p : Code b (Option Label)} (hp : p.Only ListensNot)
    (hg : g.log.listened = [false]) :
    wp (solo t n) p (fun _ g' => g'.log.listened = [true] → Released g₀ g') g := by
  refine wp_invariant (I := fun g => g.log.listened = [false]) hp (fun _ _ _ _ => trivial) ?_ hg ?_
  · rintro o g x g' ho h ⟨-, -, hlog⟩
    rw [hlog, listened_add (e := ⟨o, x⟩) ho, h]
  · intro _ g h h'
    rw [h] at h'
    exact absurd (List.singleton_injective h') Bool.false_ne_true

end Ends

/-- An iteration that took a connection. -/
theorem waitLoop_released {t n : Nat} {w w' : World b} {tr : Events b} {l : Option Label}
    {lpService lm : LPVOID} {r : ServiceRoutine} {m : Nat → BYTE} {size : Nat}
    (hr : w.heap.cells lpService = some (.routine r))
    (hm : w.heap.cells lm = some (.message m size))
    (hrun : (waitLoop lpService lm : Code b _).Runs (Alone t n) w tr l w')
    (htaken : (logOf tr).listened = [true]) : Released (Local.of w []) (Local.of w' tr) := by
  have hwp : wp (solo t n) (waitLoop lpService lm : Code b _)
      (fun _ g => g.log.listened = [true] → Released (Local.of w []) g) (Local.of w []) := by
    rw [waitLoop]
    refine solo_quiet.bind (by simp) ?_
    intro _
    refine solo_loadRoutine hr ?_
    intro _
    refine solo_kernel ?_
    intro x k E
    cases E with
    | listened _ _ _ _ =>
        refine solo_receiveInto (by exact hm) (fun h => nomatch h) ?_
        intro m' _
        rw [if_pos (by rfl)]
        refine wp_mono (fun _ _ h _ => h) (solo_waitConnection hr hm ?_
          ⟨_, _, Local.put_cells_self ..⟩ rfl rfl rfl)
        intro a ha
        exact Local.put_cells_ne _ ha _
    | @notListened _ st hst =>
        refine solo_receiveInto (by exact hm) ?_ (fun _ h => nomatch h)
        intro _
        show wp _ (if ntSuccess st = true then _ else _) _ _
        rw [if_neg (by simpa using hst)]
        refine solo_listensNot ?_ ?_
        · simp [waitExit, loadRoutine]
        · show [ntSuccess st] = [false]
          rw [hst]
  exact solo_sound hwp hrun htaken

/-- **AN ITERATION RELEASES WHAT IT TOOK**, handles and blocks, exactly when the connection
    was not accepted and what it closed could be closed. -/
theorem iteration_releases {t n : Nat} {w w' : World b} {tr : Events b} {l : Option Label}
    {lpService lm : LPVOID} {r : ServiceRoutine} {m : Nat → BYTE} {size : Nat}
    (hr : w.heap.cells lpService = some (.routine r))
    (hm : w.heap.cells lm = some (.message m size))
    (hrun : (waitLoop lpService lm : Code b _).Runs (Alone t n) w tr l w')
    (htaken : (logOf tr).listened = [true]) :
    ((∀ h, w'.lpc.handles.lookup h ≠ none ↔ w.lpc.handles.lookup h ≠ none)
        ∧ ∀ a, w'.heap.cells a ≠ none ↔ w.heap.cells a ≠ none)
      ↔ (logOf tr).accepted = [] ∧ ∀ x ∈ (logOf tr).closed, x.2 = true :=
  waitLoop_released hr hm hrun htaken

/-- A request with these data waits for the listener of a service, which has its buffer at
    48. -/
def requested (p : ServiceRoutineParameter) (data : List BYTE) (h : data.length ≤ 32) :
    World .x64 :=
  let w := (oneService p).withBlocks [(16, .routine (.new 4 1000 32)), (32, .parameters p),
    (48, .message (fun _ => 0) 624)]
  { w with lpc := w.lpc.enqueue 0 (.compose .x64 LPC_CONNECTION_REQUEST ⟨7, 7⟩ 1 data
      (Message.small_fits h)) }

/-- The request is taken, and its client opened. -/
def takes : List (Choice .x64) :=
  [.ok, .ok, .take true, .ok, .ok, .ok, .fresh 64 (.routine (.new 0 0 0)), .ok, .ok, .handle 8,
    .ok, .ok, .ok]

/-- A request without data is refused, and nothing is left. -/
theorem iteration_releases_refused : ∃ (w' : World .x64) (tr : Events .x64) (l : Option Label),
    (waitLoop 16 48 : Code .x64 _).Runs (Alone 0 1) (requested (onePointer 1) [] (by decide)) tr
        l w'
      ∧ ∀ h, w'.lpc.handles.lookup h ≠ none
        ↔ (requested (onePointer 1) [] (by decide)).lpc.handles.lookup h ≠ none := by
  have hrun : (perform 0 1 (waitLoop 16 48) (takes ++ [.ok, .ok, .ok, .ok, .ok, .ok])
      (requested (onePointer 1) [] (by decide))).map
        (fun x => ((logOf x.1).listened, (logOf x.1).accepted, (logOf x.1).closed))
      = some ([true], [], [(8, true)]) := by decide +kernel
  obtain ⟨⟨tr, l, w'⟩, hrun, he⟩ := Option.map_eq_some_iff.mp hrun
  simp only [Prod.mk.injEq] at he
  obtain ⟨hlistened, hacc, hclosed⟩ := he
  have hrun := perform_runs hrun
  refine ⟨w', tr, l, hrun, ((iteration_releases rfl rfl hrun hlistened).mpr ⟨hacc, ?_⟩).1⟩
  rw [hclosed]
  decide

/-- The connection is accepted but cannot be completed: its port stays open. -/
theorem iteration_leaks : ¬ ∀ (w w' : World .x64) (tr : Events .x64) (l : Option Label)
    (r : ServiceRoutine) (m : Nat → BYTE), w.heap.cells 16 = some (.routine r) →
    w.heap.cells 48 = some (.message m 624) →
    (waitLoop 16 48 : Code .x64 _).Runs (Alone 0 1) w tr l w' →
    (logOf tr).listened = [true] → (logOf tr).started.length = 0 →
    (∀ h, w'.lpc.handles.lookup h ≠ none ↔ w.lpc.handles.lookup h ≠ none)
      ∧ ∀ a, w'.heap.cells a ≠ none ↔ w.heap.cells a ≠ none := by
  intro h
  have hrun : (perform 0 1 (waitLoop 16 48) (takes ++ [.ok, .ok, .ok, .ok, .handle 12, .ok, .ok,
      .ok, .fail STATUS_UNSUCCESSFUL, .ok, .ok, .ok])
      (requested (onePointer 1) (parameterBytes (onePointer 1)) (by decide))).map
        (fun x => ((logOf x.1).listened, (logOf x.1).started.length, (logOf x.1).accepted))
      = some ([true], 0, [12]) := by decide +kernel
  obtain ⟨⟨tr, l, w'⟩, hrun, he⟩ := Option.map_eq_some_iff.mp hrun
  simp only [Prod.mk.injEq] at he
  obtain ⟨hlistened, hstarted, hacc⟩ := he
  have hrun := perform_runs hrun
  obtain ⟨hnone, -⟩ := (waitLoop_released rfl rfl hrun hlistened).mp
    (h _ w' tr l _ _ rfl rfl hrun hlistened hstarted)
  exact nomatch hacc.symm.trans hnone

end ScSequential
