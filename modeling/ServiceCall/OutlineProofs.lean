import ServiceCall.MappingProofs

/-! # The code keeps to the outline

    Every label of the code from a state in which it may be entered (`Entry`) to
    the states in which it goes on (`Goto`): the listener with its buffer, its
    descriptor and its list; the worker with the descriptor, the message and the
    captured list it was given, and its mapping while the routine runs; the
    application around its calls. -/

namespace ScOwnership

open LinearMemory OwnedHeap OpProg ThreadSys ScParameter LpcMessage ScSystem
  ScServiceCall

variable {b : Build} {α : Type} {Q : α → Ghost b → Prop} {g : Ghost b}

/-! ## Where labels are entered -/

/-- A listener with its buffer `lm`, which contains `M`. -/
structure Serving (g : Ghost b) (s : Served) (lm : LPVOID) (M : Nat → BYTE) (n : Nat) :
    Prop where
  self    : g.self = some s
  kept    : g.Kept
  nonzero : s.address ≠ 0 ∧ lm ≠ 0
  buffer  : g.own lm = some (.message M n)

/-- A worker with the descriptor `r`, the message and the list `p`, if there is
    one. -/
structure Working (g : Ghost b) (lpService : LPVOID) (r : ServiceRoutine)
    (lm : Nat → BYTE) (n : Nat) (p : Option ServiceRoutineParameter) : Prop where
  self    : g.self = none
  stage   : g.stage = .worker
  routine : g.own lpService = some (.routine r)
  message : g.own r.lm = some (.message lm n)
  list    : match p with
    | some p => g.own r.lpParameters = some (.parameters p)
    | none => r.lpParameters = 0
  client  : ∀ x, g.client = some x → x.1 = r.hClientProcess

/-- The mapping `q` of the list `p` while the routine runs: each pointer that is
    written back has a buffer of its own. -/
structure MappedAt (g : Ghost b) (r : ServiceRoutine) (tmp : LPVOID)
    (p q : ServiceRoutineParameter) : Prop where
  nonzero : tmp ≠ 0
  list    : g.own tmp = some (.parameters q)
  apart   : tmp ≠ r.lpParameters
  nodup   : (buffers b q).Nodup
  held    : ∀ a ∈ buffers b q, ∃ bytes, g.own a = some (.buffer bytes)
  entries : List.Forall₂ (fun e m => writesEntry e = true →
    b.toPointer m.ulParameter ∈ buffers b q) p.parameters q.parameters

/-- What holds where a label is jumped to. -/
def Goto : Label → Ghost b → Prop
  | .waitThread _, _ => False
  | .waitLoop lpService lm, g =>
      g.stage ≠ .leaving ∧ ∃ s M n, lpService = s.address ∧ Serving g s lm M n
  | .workerThread _, _ => False
  | .routine lpService tmp _ bufs, g => ∃ r lm n p q,
      Working g lpService r lm n (some p) ∧ MappedAt g r tmp p q ∧ bufs = buffers b q
  | .workerReturn lpService tmp _ _, g => ∃ r lm n p q,
      Working g lpService r lm n (some p) ∧ MappedAt g r tmp p q
  | .app calls, g => g.self = none ∧ g.stage = .app ∧ g.todo = calls

/-- What holds where a label is entered. -/
def Entry : Label → Ghost b → Prop
  | .waitThread lpService, g =>
      g.stage = .idle ∧ ∃ s, lpService = s.address ∧ s.address ≠ 0
        ∧ g.self = some s ∧ g.Kept
  | .waitLoop lpService lm, g => g.stage = .idle ∧ Goto (.waitLoop lpService lm) g
  | .workerThread lpService, g => ∃ r lm n p, Working g lpService r lm n p
  | l, g => Goto l g

/-- The stage a label is entered at. -/
def land : Label → Ghost b → Ghost b
  | .waitLoop .., g => g.at' .idle
  | _, g => g

/-! ## The listener -/

namespace Serving

variable {s : Served} {lm : LPVOID} {M : Nat → BYTE} {n : Nat}

/-- Addresses of other blocks. -/
def Apart (s : Served) (lm a : LPVOID) : Prop :=
  a ≠ s.address ∧ a ≠ s.routine.lpParameters ∧ a ≠ lm

theorem apart_of_fresh (S : Serving g s lm M n) {a : LPVOID} (ha : g.own a = none) :
    Apart s lm a := by
  obtain ⟨h₁, h₂⟩ := S.kept s S.self
  refine ⟨?_, ?_, ?_⟩
  · rintro rfl
    rw [h₁] at ha
    exact nomatch ha
  · rintro rfl
    rw [h₂] at ha
    exact nomatch ha
  · rintro rfl
    rw [S.buffer] at ha
    exact nomatch ha

theorem put (S : Serving g s lm M n) {a : LPVOID} (ha : Apart s lm a) (x : Option Block) :
    Serving (g.put a x) s lm M n := by
  refine ⟨S.self, S.kept.put ?_, S.nonzero, ?_⟩
  · intro s' hs'
    rw [S.self] at hs'
    obtain rfl := Option.some.inj hs'
    exact ⟨ha.1, ha.2.1⟩
  · rw [g.put_own_ne ha.2.2.symm]
    exact S.buffer

theorem at_stage (S : Serving g s lm M n) (st : Stage b) : Serving (g.at' st) s lm M n :=
  ⟨S.self, S.kept, S.nonzero, S.buffer⟩

theorem spares (S : Serving g s lm M n) {a : LPVOID} (ha : Apart s lm a) : g.Spares a := by
  intro s' hs' _
  rw [S.self] at hs'
  obtain rfl := Option.some.inj hs'
  exact ⟨ha.1, ha.2.1⟩

/-- The buffer itself is no descriptor and no list. -/
theorem buffer_apart (S : Serving g s lm M n) :
    lm ≠ s.address ∧ lm ≠ s.routine.lpParameters := by
  obtain ⟨h₁, h₂⟩ := S.kept s S.self
  constructor
  · rintro rfl
    rw [S.buffer] at h₁
    exact nomatch h₁
  · rintro rfl
    rw [S.buffer] at h₂
    exact nomatch h₂

theorem spares_buffer (S : Serving g s lm M n) : g.Spares lm := by
  intro s' hs' _
  rw [S.self] at hs'
  obtain rfl := Option.some.inj hs'
  exact S.buffer_apart

theorem put_buffer (S : Serving g s lm M n) (M' : Nat → BYTE) :
    Serving (g.put lm (some (.message M' n))) s lm M' n := by
  refine ⟨S.self, S.kept.put ?_, S.nonzero, g.put_own_self ..⟩
  intro s' hs'
  rw [S.self] at hs'
  obtain rfl := Option.some.inj hs'
  exact S.buffer_apart

theorem goto (S : Serving g s lm M n) (hst : g.stage ≠ .leaving) :
    Goto (.waitLoop s.address lm) g := ⟨hst, s, M, n, rfl, S⟩

theorem address_own (S : Serving g s lm M n) :
    g.own s.address = some (.routine s.routine) := (S.kept s S.self).1

theorem parameters_own (S : Serving g s lm M n) :
    g.own s.routine.lpParameters = some (.parameters s.parameters) := (S.kept s S.self).2

end Serving

section Listener

variable {s : Served} {lm param : LPVOID} {M : Nat → BYTE} {n : Nat} {r : ServiceRoutine}

/-- The connection is refused: nothing changes. -/
theorem wp_acceptConnectPort_false {lm₀ : Nat → BYTE} {m : Message b} {h : HANDLE}
    (S : Serving g s lm (deliver lm₀ m) n) (hst : g.stage = .opened m h)
    {f : NTSTATUS → Code b α} (hf : ∀ status, wp (outline b) (f status) Q g) :
    wp (outline b) (acceptConnectPort param lm false >>= f) Q g := by
  rw [acceptConnectPort, Prog.bind_assoc]
  refine wp_loadMessage S.buffer ?_
  intro _
  rw [clientId_deliver, messageId_deliver, Prog.bind_assoc]
  refine wp_op_bind.mpr ⟨⟨m, h, hst, rfl, rfl, fun hf => nomatch hf⟩, ?_⟩
  rintro x _ ⟨-, rfl⟩
  rw [if_neg (by simp)]
  have hnext : g.stage.next (.ntAcceptConnectPort m.sender (messageId b m.image) false) x
      = g.stage := by
    rw [hst]
    rfl
  rw [hnext]
  exact hf x.1

/-- The connection is accepted, and the new handle stored; or it is not. -/
theorem wp_acceptConnectPort_true {lm₀ : Nat → BYTE} {m : Message b} {h : HANDLE}
    (S : Serving g s lm (deliver lm₀ m) n) (hst : g.stage = .opened m h) (h0 : h ≠ 0)
    (heq : rtlEqualParameterType s.parameters
      (readParameters (deliver lm₀ m) (callparam m.image)) = true)
    (hr : g.own param = some (.routine r)) (ha : Serving.Apart s lm param)
    {f : NTSTATUS → Code b α}
    (hok : ∀ status h' c, ntSuccess status = true → wp (outline b) (f status) Q
      ((g.at' (.accepted m h h')).put param
        (some (.routine { r with closeEvent := c, hServerPort := h' }))))
    (hno : ∀ status, ntSuccess status = false → wp (outline b) (f status) Q g) :
    wp (outline b) (acceptConnectPort param lm true >>= f) Q g := by
  rw [acceptConnectPort, Prog.bind_assoc]
  refine wp_loadMessage S.buffer ?_
  intro _
  rw [clientId_deliver, messageId_deliver, Prog.bind_assoc]
  refine wp_op_bind.mpr ⟨⟨m, h, hst, rfl, rfl, fun _ =>
    ⟨h0, s, lm, lm₀, n, S.self, S.buffer, heq⟩⟩, ?_⟩
  rintro x _ ⟨-, rfl⟩
  by_cases hx : ntSuccess x.1 = true
  · rw [if_pos (by simp [hx]), Prog.bind_assoc]
    have hnext : g.stage.next (.ntAcceptConnectPort m.sender (messageId b m.image) true) x
        = .accepted m h x.2 := by
      rw [hst]
      exact if_pos hx
    rw [hnext]
    refine wp_modifyRoutine (g := g.at' (.accepted m h x.2)) hr
      ((S.at_stage _).spares ha) ?_
    intro c _
    exact hok x.1 x.2 c hx
  · have hx : ntSuccess x.1 = false := by simpa using hx
    rw [if_neg (by simp [hx])]
    have hnext : g.stage.next (.ntAcceptConnectPort m.sender (messageId b m.image) true) x
        = g.stage := by
      rw [hst]
      exact if_neg (by simp [hx])
    rw [hnext]
    exact hno x.1 hx

/-- A handle of a connection is closed. -/
theorem wp_ntClose_connection {h : HANDLE}
    (hst : (∃ m, g.stage = .opened m h) ∨ (∃ m h', g.stage = .accepted m h h'))
    {f : NTSTATUS → Code b α} (hf : ∀ status, wp (outline b) (f status) Q (g.at' .idle)) :
    wp (outline b) (ntClose h >>= f) Q g := by
  have hpre : KernelPre (.ntClose h) g := by
    rcases hst with hst | hst
    · exact Or.inl hst
    · exact Or.inr (Or.inl hst)
  refine wp_op_bind.mpr ⟨hpre, ?_⟩
  rintro status _ ⟨-, rfl⟩
  have hnext : g.stage.next (.ntClose h) status = .idle := by
    rcases hst with ⟨m, hst⟩ | ⟨m, h', hst⟩
    · rw [hst]
      rfl
    · rw [hst]
      rfl
  rw [hnext]
  exact hf status

theorem wp_ntCompleteConnectPort {h' : HANDLE} (hst : ∃ m h, g.stage = .accepted m h h')
    {f : NTSTATUS → Code b α} (hf : ∀ status, wp (outline b) (f status) Q g) :
    wp (outline b) (ntCompleteConnectPort h' >>= f) Q g := by
  refine wp_op_bind.mpr ⟨hst, ?_⟩
  rintro status _ ⟨-, rfl⟩
  have hnext : g.stage.next (.ntCompleteConnectPort h') status = g.stage := by
    cases g.stage <;> rfl
  rw [hnext]
  exact hf status

theorem wp_waitRefuse {lm₀ : Nat → BYTE} {m : Message b}
    (S : Serving g s lm (deliver lm₀ m) n) (hst : g.stage = .opened m r.hClientProcess)
    (hr : g.own param = some (.routine r)) (ha : Serving.Apart s lm param) :
    wp (outline b) (waitRefuse s.address lm param) (leave Goto) g := by
  unfold waitRefuse
  refine wp_acceptConnectPort_false S hst ?_
  intro _
  refine wp_loadRoutine hr ?_
  intro c h0
  by_cases hh : r.hClientProcess ≠ 0
  · rw [if_pos hh]
    refine wp_loadRoutine hr ?_
    intro c' _
    refine wp_ntClose_connection (Or.inl ⟨m, hst⟩) ?_
    intro _
    refine wp_free (g := g.at' .idle) hr h0 ((S.at_stage _).spares ha) ?_
    exact ((S.at_stage .idle).put ha none).goto (fun h => nomatch h)
  · rw [if_neg hh]
    refine wp_free hr h0 (S.spares ha) ?_
    refine (S.put ha none).goto ?_
    rw [Ghost.put_stage, hst]
    exact fun h => nomatch h

theorem wp_waitAbandon
    (S : Serving g s lm M n) (hst : (∃ m, g.stage = .opened m r.hClientProcess) ∨
      (∃ m h', g.stage = .accepted m r.hClientProcess h'))
    (hr : g.own param = some (.routine r)) (ha : Serving.Apart s lm param) :
    wp (outline b) (waitAbandon s.address lm param) (leave Goto) g := by
  unfold waitAbandon
  refine wp_loadRoutine hr ?_
  intro c h0
  refine wp_ntClose_connection hst ?_
  intro _
  refine wp_free (g := g.at' .idle) hr h0 ((S.at_stage _).spares ha) ?_
  exact ((S.at_stage .idle).put ha none).goto (fun h => nomatch h)

/-- Blocks are handed over. -/
theorem Serving.without (S : Serving g s lm M n) {l : List LPVOID}
    (hl : ∀ a ∈ l, Serving.Apart s lm a) (st : Stage b) :
    Serving { g with own := fun a => if a ∈ l then none else g.own a, stage := st }
      s lm M n := by
  have hkeep : ∀ a, a = s.address ∨ a = s.routine.lpParameters ∨ a = lm →
      (if a ∈ l then none else g.own a) = g.own a := by
    intro a ha
    refine if_neg ?_
    intro hmem
    obtain ⟨h₁, h₂, h₃⟩ := hl a hmem
    rcases ha with rfl | rfl | rfl
    · exact h₁ rfl
    · exact h₂ rfl
    · exact h₃ rfl
  refine ⟨S.self, ?_, S.nonzero, ?_⟩
  · intro s' hs'
    have hs' : g.self = some s' := hs'
    rw [S.self] at hs'
    obtain rfl := Option.some.inj hs'
    exact ⟨(hkeep _ (Or.inl rfl)).trans S.address_own,
      (hkeep _ (Or.inr (Or.inl rfl))).trans S.parameters_own⟩
  · exact (hkeep _ (Or.inr (Or.inr rfl))).trans S.buffer

/-- A worker is started, or not. -/
theorem wp_createWorker (S : Serving g s lm M n) (hD : Dispatch g param)
    (hr : g.own param = some (.routine r)) (h₁ : Serving.Apart s lm param)
    (h₂ : Serving.Apart s lm r.lm) (h₃ : Serving.Apart s lm r.lpParameters) :
    wp (outline b) (createThread (.workerThread param) >>= fun _ =>
      return some (.waitLoop s.address lm)) (leave Goto) g := by
  have hgiven : ∀ a ∈ (Label.workerThread param).given g.own, Serving.Apart s lm a := by
    intro a ha
    have hgiven : Label.given g.own (.workerThread param) = [param, r.lm, r.lpParameters] := by
      simp [Label.given, hr]
    rw [hgiven] at ha
    simp only [List.mem_cons, List.not_mem_nil, or_false] at ha
    rcases ha with rfl | rfl | rfl
    · exact h₁
    · exact h₂
    · exact h₃
  refine wp_op_bind.mpr ⟨⟨hD, fun a ha => S.spares (hgiven a ha)⟩, ?_⟩
  rintro h _ rfl
  by_cases h0 : h = 0
  · rw [if_pos h0]
    exact (S.at_stage .idle).goto (fun h => nomatch h)
  · rw [if_neg h0]
    exact (S.without hgiven .idle).goto (fun h => nomatch h)

/-- Reading a list from an offset on. -/
theorem readParameters_offset (m : Nat → BYTE) (a : Nat) :
    readParameters (fun k => m (a + k)) 0 = readParameters m a := by
  refine readParameters_congr rfl ?_
  intro k _
  rw [Nat.zero_add]

/-- A worker gets a copy of the message, the captured list and the handles. -/
theorem wp_waitDispatch {lm₀ : Nat → BYTE} {m m' : Message b}
    (S : Serving g s lm (deliver (deliver lm₀ m) m') n)
    (hst : g.stage = .received m r.hClientProcess r.hServerPort m')
    (hh : r.hClientProcess ≠ 0) (heq : rtlEqualParameterType s.parameters
      (readParameters (deliver lm₀ m) (callparam m.image)) = true)
    (hp0 : s.routine.lpParameters ≠ 0) (hr : g.own param = some (.routine r))
    (hrt : r.lpRoutine = s.routine.lpRoutine) (ha : Serving.Apart s lm param) :
    wp (outline b) (waitDispatch s.address lm param (callparam m.image)) (leave Goto) g := by
  unfold waitDispatch
  refine wp_alloc ?_
  intro copy x hcopy0 _ hcopy hk _
  obtain ⟨c₀, k, rfl⟩ : ∃ c₀ k, x = .message c₀ k := by
    cases x with
    | message c₀ k => exact ⟨c₀, k, rfl⟩
    | _ => exact nomatch hk
  have hacopy := S.apart_of_fresh hcopy
  have hpc : param ≠ copy := by
    rintro rfl
    rw [hr] at hcopy
    exact nomatch hcopy
  -- the whole message is copied, and the copy is the worker's
  have S₁ := S.put hacopy (some (.message c₀ k))
  refine wp_loadMessage S₁.buffer ?_
  intro _
  refine wp_modifyMessage (g.put_own_self ..) (S₁.spares hacopy) ?_
  intro _
  rw [Ghost.put_put]
  have S₂ := S.put hacopy (some (.message
    (copyMemory b.lpcpMaxMessageSize (deliver (deliver lm₀ m) m') c₀) k))
  refine wp_modifyRoutine (by rw [g.put_own_ne hpc]; exact hr) (S₂.spares ha) ?_
  intro c _
  have S₃ := S₂.put ha (some (.routine { r with closeEvent := c, lm := copy }))
  generalize hg₃ : (g.put copy (some (.message (copyMemory b.lpcpMaxMessageSize
    (deliver (deliver lm₀ m) m') c₀) k))).put param
      (some (.routine { r with closeEvent := c, lm := copy })) = g₃ at S₃
  have hstage₃ : g₃.stage = .received m r.hClientProcess r.hServerPort m' := by
    rw [← hg₃]
    exact hst
  have hparam₃ : g₃.own param = some (.routine { r with closeEvent := c, lm := copy }) := by
    rw [← hg₃]
    exact Ghost.put_own_self ..
  have hcopy₃ : g₃.own copy = some (.message
      (copyMemory b.lpcpMaxMessageSize (deliver (deliver lm₀ m) m') c₀) k) := by
    rw [← hg₃, Ghost.put_own_ne _ hpc.symm]
    exact Ghost.put_own_self ..
  have hbytes : ∀ i < b.lpcpMaxMessageSize,
      copyMemory b.lpcpMaxMessageSize (deliver (deliver lm₀ m) m') c₀ i
        = deliver (deliver lm₀ m) m' i := by
    intro i hi
    exact if_pos hi
  refine wp_rtlCaptureParameters S₃.kept ?_ (readsAs_message S₃.buffer _) ?_ ?_
  · intro a y ha
    exact readsAs_message (S₃.put (S₃.apart_of_fresh ha) y).buffer _
  · -- a captured list
    intro a p _ hfresh hcap
    have hacap := S₃.apart_of_fresh hfresh
    have hpa : param ≠ a := by
      rintro rfl
      rw [hparam₃] at hfresh
      exact nomatch hfresh
    have hca : copy ≠ a := by
      rintro rfl
      rw [hcopy₃] at hfresh
      exact nomatch hfresh
    have S₄ := S₃.put hacap (some (.parameters p))
    refine wp_modifyRoutine (by rw [g₃.put_own_ne hpa]; exact hparam₃) (S₄.spares ha) ?_
    intro c' _
    have hcap := hcap _ rfl
    rw [readParameters_offset] at hcap
    refine wp_createWorker (S₄.put ha _) ?_ (Ghost.put_own_self ..) ha hacopy hacap
    refine ⟨s, m, r.hClientProcess, r.hServerPort, m', lm₀, _, _, k, S₃.self, hstage₃, hh, heq,
      Ghost.put_own_self .., rfl, rfl, hrt, ?_, hbytes, ?_⟩
    · rw [Ghost.put_own_ne _ hpc.symm, g₃.put_own_ne hca]
      exact hcopy₃
    · rw [hcap]
      show ((g₃.put a (some (.parameters p))).put param _).own a = some (.parameters p)
      rw [Ghost.put_own_ne _ hpa.symm]
      exact g₃.put_own_self ..
  · -- a mask was not valid
    intro hcap
    refine wp_modifyRoutine hparam₃ (S₃.spares ha) ?_
    intro c' _
    have hcap := hcap _ rfl
    rw [readParameters_offset] at hcap
    refine wp_createWorker (S₃.put ha _) ?_ (Ghost.put_own_self ..) ha hacopy
      ⟨S.nonzero.1.symm, hp0.symm, S.nonzero.2.symm⟩
    refine ⟨s, m, r.hClientProcess, r.hServerPort, m', lm₀, _, _, k, S₃.self, hstage₃, hh, heq,
      Ghost.put_own_self .., rfl, rfl, hrt, ?_, hbytes, ?_⟩
    · rw [Ghost.put_own_ne _ hpc.symm]
      exact hcopy₃
    · rw [hcap]

/-- The request of the client is received over the connection message. -/
theorem wp_waitReceive {lm₀ : Nat → BYTE} {m : Message b}
    (S : Serving g s lm (deliver lm₀ m) n)
    (hst : g.stage = .accepted m r.hClientProcess r.hServerPort)
    (hh : r.hClientProcess ≠ 0) (heq : rtlEqualParameterType s.parameters
      (readParameters (deliver lm₀ m) (callparam m.image)) = true)
    (hp0 : s.routine.lpParameters ≠ 0) (hr : g.own param = some (.routine r))
    (hrt : r.lpRoutine = s.routine.lpRoutine) (ha : Serving.Apart s lm param) :
    wp (outline b) (waitReceive s.address lm param (callparam m.image)) (leave Goto) g := by
  unfold waitReceive
  refine wp_loadRoutine hr ?_
  intro c _
  refine wp_op_bind.mpr ⟨⟨m, r.hClientProcess, hst⟩, ?_⟩
  rintro x _ ⟨hx, rfl⟩
  rcases hx with ⟨m', rfl⟩ | ⟨hfail, hnone⟩
  · -- a message was received
    have hnext : g.stage.next (.ntReplyWaitReceivePort r.hServerPort)
        (STATUS_SUCCESS, some m') = .received m r.hClientProcess r.hServerPort m' := by
      rw [hst]
      rfl
    rw [hnext]
    have S' := S.at_stage (.received m r.hClientProcess r.hServerPort m')
    refine wp_receiveInto S'.buffer S'.spares_buffer ?_ (fun hf => nomatch hf)
    rintro _ ⟨rfl⟩
    show wp (outline b) (waitDispatch _ _ _ _) _ _
    refine wp_waitDispatch (S'.put_buffer _) rfl hh heq hp0 ?_ hrt ha
    rw [Ghost.put_own_ne _ ha.2.2]
    exact hr
  · have hnext : g.stage.next (.ntReplyWaitReceivePort r.hServerPort) x = g.stage := by
      rw [hst]
      simp [Stage.next, hnone]
    rw [hnext]
    refine wp_receiveInto (g := g) S.buffer S.spares_buffer ?_ ?_
    · intro m' hm'
      rw [hnone] at hm'
      exact nomatch hm'
    · intro _
      rw [hfail]
      exact wp_waitAbandon S (Or.inr ⟨m, _, hst⟩) hr ha

theorem wp_waitAccept {lm₀ : Nat → BYTE} {m : Message b}
    (S : Serving g s lm (deliver lm₀ m) n) (hst : g.stage = .opened m r.hClientProcess)
    (hh : r.hClientProcess ≠ 0) (heq : rtlEqualParameterType s.parameters
      (readParameters (deliver lm₀ m) (callparam m.image)) = true)
    (hp0 : s.routine.lpParameters ≠ 0) (hr : g.own param = some (.routine r))
    (hrt : r.lpRoutine = s.routine.lpRoutine) (ha : Serving.Apart s lm param) :
    wp (outline b) (waitAccept s.address lm param (callparam m.image)) (leave Goto) g := by
  unfold waitAccept
  refine wp_acceptConnectPort_true S hst hh heq hr ha ?_ ?_
  · intro status h' c hok
    rw [if_pos hok]
    have S' := (S.at_stage (.accepted m r.hClientProcess h')).put ha
      (some (.routine { r with closeEvent := c, hServerPort := h' }))
    have hr' : ((g.at' (.accepted m r.hClientProcess h')).put param
        (some (.routine { r with closeEvent := c, hServerPort := h' }))).own param
        = some (.routine { r with closeEvent := c, hServerPort := h' }) :=
      Ghost.put_own_self ..
    refine wp_loadRoutine hr' ?_
    intro c' _
    refine wp_ntCompleteConnectPort ⟨m, r.hClientProcess, rfl⟩ ?_
    intro status'
    split
    · exact wp_waitReceive (r := { r with closeEvent := c, hServerPort := h' }) S' rfl hh heq
        hp0 hr' hrt ha
    · exact wp_waitAbandon (r := { r with closeEvent := c, hServerPort := h' }) S'
        (Or.inr ⟨m, h', rfl⟩) hr' ha
  · intro status hfail
    rw [hfail]
    exact wp_waitAbandon S (Or.inl ⟨m, hst⟩) hr ha

/-- The checks of a connection; when they pass, there is a client and its list is
    of the registered type. -/
theorem wp_refused {lm₀ : Nat → BYTE} {m : Message b} {h : HANDLE} {m₀ : Nat → BYTE}
    (S : Serving g s lm (deliver lm₀ m) n) (hcall : callparam m₀ = callparam m.image)
    {f : Bool → Code b α} (hyes : wp (outline b) (f true) Q g)
    (hno : h ≠ 0 → s.routine.lpParameters ≠ 0 → rtlEqualParameterType s.parameters
      (readParameters (deliver lm₀ m) (callparam m.image)) = true →
      wp (outline b) (f false) Q g) :
    wp (outline b) (refused s.address lm h m₀ >>= f) Q g := by
  unfold refused orElse
  by_cases h0 : h = 0
  · subst h0
    exact hyes
  · have hne : (h == 0) = false := by simpa using h0
    rw [hne]
    by_cases hd : (dataLength m₀ == 0) = true
    · rw [hd]
      exact hyes
    · have hd : (dataLength m₀ == 0) = false := by simpa using hd
      rw [hd]
      show wp (outline b) (loadRoutine s.address >>= fun r =>
        loadParameters r.lpParameters >>= fun p => loadMessage lm >>= fun m₁ =>
          f (!rtlEqualParameterType p (readParameters m₁ (callparam m₀)))) Q g
      refine wp_loadRoutine S.address_own ?_
      intro c _
      refine wp_loadParameters S.parameters_own ?_
      intro hp0
      refine wp_loadMessage S.buffer ?_
      intro _
      rw [hcall]
      cases heq : rtlEqualParameterType s.parameters
          (readParameters (deliver lm₀ m) (callparam m.image)) with
      | false => exact hyes
      | true => exact hno h0 hp0 heq

/-- A connection was taken. -/
theorem wp_waitConnection {lm₀ : Nat → BYTE} {m : Message b}
    (S : Serving g s lm (deliver lm₀ m) n) (hst : g.stage = .listened m) :
    wp (outline b) (waitConnection s.address lm) (leave Goto) g := by
  unfold waitConnection
  refine wp_loadRoutine S.address_own ?_
  intro c _
  refine wp_newRoutine S.kept ?_
  intro param hparam0 hfresh
  have ha := S.apart_of_fresh hfresh
  have S₁ := S.put ha (some (.routine { s.routine with closeEvent := c }))
  refine wp_loadMessage S₁.buffer ?_
  intro _
  refine wp_op_bind.mpr ⟨⟨m, hst, by rw [clientId_deliver]⟩, ?_⟩
  rintro h _ ⟨-, rfl⟩
  have hnext : (g.put param (some (.routine { s.routine with closeEvent := c }))).stage.next
      (.openProcess ((clientId b (deliver lm₀ m)).uniqueProcess % 2 ^ 32)) h
      = .opened m h := by
    rw [Ghost.put_stage, hst]
    rfl
  rw [hnext]
  have S₂ := S₁.at_stage (.opened m h)
  refine wp_modifyRoutine (g := (g.put param _).at' (.opened m h)) (g.put_own_self ..)
    (S₂.spares ha) ?_
  intro c' _
  have S₃ := S₂.put ha (some (.routine { s.routine with closeEvent := c', hClientProcess := h }))
  refine wp_loadMessage S₃.buffer ?_
  intro _
  refine wp_refused S₃ (callparam_deliver lm₀ m) ?_ ?_
  · exact wp_waitRefuse S₃ rfl (Ghost.put_own_self ..) ha
  · intro hh hp0 heq
    rw [callparam_deliver]
    exact wp_waitAccept S₃ rfl hh heq hp0 (Ghost.put_own_self ..) rfl ha

/-- The listener sees the flag. -/
theorem wp_waitExit (hself : g.self = some s) (hstage : g.stage = .leaving)
    (hk : g.Kept) (hlm : g.own lm = some (.message M n)) (h0 : lm ≠ 0) :
    wp (outline b) (waitExit s.address lm) (leave Goto) g := by
  have hspares : ∀ a x, (g.put a x).stage = .leaving := fun _ _ => hstage
  have hall : ∀ {g' : Ghost b} a, g'.stage = .leaving → g'.Spares a :=
    fun a h s' _ hne => absurd h hne
  obtain ⟨hd, hp⟩ := hk s hself
  have hdlm : s.address ≠ lm := by
    rintro h
    rw [h, hlm] at hd
    exact nomatch hd
  have hplm : s.routine.lpParameters ≠ lm := by
    intro h
    rw [h, hlm] at hp
    exact nomatch hp
  have hpd : s.routine.lpParameters ≠ s.address := by
    intro h
    rw [h, hd] at hp
    exact nomatch hp
  unfold waitExit
  refine wp_free hlm h0 (hall _ hstage) ?_
  have hd₁ : (g.put lm none).own s.address = some (.routine s.routine) := by
    rw [g.put_own_ne hdlm]
    exact hd
  refine wp_loadRoutine hd₁ ?_
  intro c hd0
  refine wp_free_any (g := g.put lm none) (Or.inr ?_) (hall _ hstage) ?_
  · show (g.put lm none).own s.routine.lpParameters ≠ none
    rw [g.put_own_ne hplm, hp]
    exact Option.some_ne_none _
  · intro g' hg'
    have hstage' : g'.stage = .leaving := by
      rcases hg' with rfl | rfl
      · exact hstage
      · exact hstage
    have hd₂ : g'.own s.address = some (.routine s.routine) := by
      rcases hg' with rfl | rfl
      · exact hd₁
      · rw [Ghost.put_own_ne _ hpd.symm]
        exact hd₁
    refine wp_free hd₂ hd0 (hall _ hstage') ?_
    refine wp_op_bind.mpr ⟨Or.inr hstage', ?_⟩
    intro _ _ _
    trivial

/-- The loop of `WaitThread`. -/
theorem wp_waitLoop {lpService : LPVOID} (hg : Entry (.waitLoop lpService lm) g) :
    wp (outline b) (waitLoop lpService lm) (leave Goto) g := by
  obtain ⟨hst, -, s, M, n, rfl, S⟩ := hg
  unfold waitLoop
  refine wp_op_bind.mpr ⟨trivial, ?_⟩
  rintro _ g₁ rfl
  refine wp_loadRoutine S.address_own ?_
  intro c hd0
  refine wp_op_bind.mpr ⟨⟨hst, s, S.self, rfl⟩, ?_⟩
  rintro x _ ⟨hx, rfl⟩
  rcases hx with ⟨⟨m, rfl, hm⟩⟩ | ⟨hfail, hnone⟩
  · have hnext : g₁.stage.next (.ntListenPort s.routine.hPort) (STATUS_SUCCESS, some m)
        = .listened m := by
      rw [hst]
      rfl
    rw [hnext]
    have S' := S.at_stage (.listened m)
    refine wp_receiveInto S'.buffer S'.spares_buffer ?_ (fun hf => nomatch hf)
    rintro _ ⟨rfl⟩
    show wp (outline b) (waitConnection _ _) _ _
    exact wp_waitConnection (S'.put_buffer _) rfl
  · have hnext : g₁.stage.next (.ntListenPort s.routine.hPort) x = g₁.stage := by
      rw [hst]
      simp [Stage.next, hnone]
    rw [hnext]
    refine wp_receiveInto (g := g₁) S.buffer S.spares_buffer ?_ ?_
    · intro m' hm'
      rw [hnone] at hm'
      exact nomatch hm'
    · intro _
      rw [hfail]
      refine wp_op_bind.mpr ⟨⟨hst, s, S.self, rfl, S.address_own⟩, ?_⟩
      rintro closeEvent _ rfl
      cases closeEvent with
      | true => exact wp_waitExit (g := g₁.at' .leaving) S.self rfl S.kept S.buffer S.nonzero.2
      | false =>
          refine S.goto ?_
          rw [show g₁.stage = .idle from hst]
          exact fun h => nomatch h

/-- `WaitThread` up to its loop. -/
theorem wp_waitThread {lpService : LPVOID} (hg : Entry (.waitThread lpService) g) :
    wp (outline b) (waitThread lpService) (leave Goto) g := by
  obtain ⟨hst, s, rfl, hd0, hself, hk⟩ := hg
  unfold waitThread
  refine wp_alloc ?_
  intro lm x h0 _ hfresh hkind _
  obtain ⟨M, n, rfl⟩ : ∃ M n, x = .message M n := by
    cases x with
    | message M n => exact ⟨M, n, rfl⟩
    | _ => exact nomatch hkind
  have hs := hk.spares hfresh
  refine wp_modifyMessage (g.put_own_self ..) hs ?_
  intro _
  rw [Ghost.put_put]
  refine Serving.goto ⟨hself, hk.put ?_, ⟨hd0, h0⟩, Ghost.put_own_self ..⟩ ?_
  swap
  · rw [Ghost.put_stage, hst]
    exact fun h => nomatch h
  intro s' hs'
  obtain ⟨h₁, h₂⟩ := hk s' hs'
  constructor
  · rintro rfl
    rw [h₁] at hfresh
    exact nomatch hfresh
  · rintro rfl
    rw [h₂] at hfresh
    exact nomatch hfresh

end Listener

/-! ## The worker -/

theorem wp_ntClose_worker {h : HANDLE} (hst : g.stage = .worker) {f : NTSTATUS → Code b α}
    (hf : ∀ status, wp (outline b) (f status) Q g) :
    wp (outline b) (ntClose h >>= f) Q g := by
  refine wp_op_bind.mpr ⟨Or.inr (Or.inr (Or.inr (Or.inr hst))), ?_⟩
  rintro status _ ⟨-, rfl⟩
  have hnext : g.stage.next (.ntClose h) status = g.stage := by
    rw [hst]
    rfl
  rw [hnext]
  exact hf status

section Worker

variable {lpService tmp : LPVOID} {r : ServiceRoutine} {lm : Nat → BYTE} {n : Nat}
  {p q : ServiceRoutineParameter} {l : Option ServiceRoutineParameter}

namespace Working

theorem spares (W : Working g lpService r lm n l) (a : LPVOID) : g.Spares a :=
  Ghost.spares_of_none W.self a

/-- Another block changes. -/
theorem put (W : Working g lpService r lm n l) {a : LPVOID} {x : Option Block}
    (h₁ : a ≠ lpService) (h₂ : a ≠ r.lm) (h₃ : l ≠ none → a ≠ r.lpParameters) :
    Working (g.put a x) lpService r lm n l := by
  refine ⟨W.self, W.stage, ?_, ?_, ?_, W.client⟩
  · rw [g.put_own_ne h₁.symm]
    exact W.routine
  · rw [g.put_own_ne h₂.symm]
    exact W.message
  · have := W.list
    cases l with
    | none => exact this
    | some p =>
        show (g.put a x).own r.lpParameters = some (.parameters p)
        rw [g.put_own_ne (h₃ (Option.some_ne_none p)).symm]
        exact this

/-- Blocks of other kinds lie elsewhere. -/
theorem ne_of_buffer (W : Working g lpService r lm n (some p)) {a : LPVOID}
    {bytes : List BYTE} (ha : g.own a = some (.buffer bytes)) :
    a ≠ lpService ∧ a ≠ r.lm ∧ a ≠ r.lpParameters := by
  refine ⟨?_, ?_, ?_⟩
  · rintro rfl
    rw [W.routine] at ha
    exact nomatch ha
  · rintro rfl
    rw [W.message] at ha
    exact nomatch ha
  · rintro rfl
    rw [W.list] at ha
    exact nomatch ha

theorem routine_ne_message (W : Working g lpService r lm n l) : lpService ≠ r.lm := by
  intro h
  have := W.routine
  rw [h, W.message] at this
  exact nomatch this

theorem put_message (W : Working g lpService r lm n l) (lm' : Nat → BYTE) :
    Working (g.put r.lm (some (.message lm' n))) lpService r lm' n l := by
  refine ⟨W.self, W.stage, ?_, g.put_own_self .., ?_, W.client⟩
  · rw [g.put_own_ne W.routine_ne_message]
    exact W.routine
  · have := W.list
    cases l with
    | none => exact this
    | some p =>
        show (g.put r.lm _).own r.lpParameters = some (.parameters p)
        rw [g.put_own_ne]
        · exact this
        · intro h
          have h' : g.own r.lpParameters = some (.parameters p) := this
          rw [h, W.message] at h'
          exact nomatch h'

/-- The blocks of a worker stay where they are. -/
theorem holding (W : Working g lpService r lm n l) {own : Blocks}
    (h : ∀ a, g.own a ≠ none → own a = g.own a) :
    Working { g with own := own } lpService r lm n l := by
  refine ⟨W.self, W.stage, ?_, ?_, ?_, W.client⟩
  · exact (h _ (by rw [W.routine]; exact Option.some_ne_none _)).trans W.routine
  · exact (h _ (by rw [W.message]; exact Option.some_ne_none _)).trans W.message
  · have := W.list
    cases l with
    | none => exact this
    | some p =>
        have : g.own r.lpParameters = some (.parameters p) := this
        exact (h _ (by rw [this]; exact Option.some_ne_none _)).trans this

end Working

/-- The lengths of a reply are written in front of its status. -/
theorem readStatus_lengths {k : Nat} (hk : 4 ≤ k) (v w : Nat) (lm : Nat → BYTE) :
    readStatus k (writeDataLength w (writeTotalLength v lm)) = readStatus k lm := by
  refine readDword_congr ?_
  intro i _
  rw [writeDataLength, writeTotalLength, overlay_uncovered, overlay_uncovered]
  · rintro ⟨-, h⟩
    rw [toLE_length] at h
    omega
  · rintro ⟨-, h⟩
    rw [toLE_length] at h
    omega

/-- A reply carries a status and nothing else; `length` is the recorded length of a message,
    where it is known. -/
structure Reports (length : Option Nat) (status : NTSTATUS) (reply : Nat → BYTE) : Prop where
  data   : dataLength reply = 4
  status : ∀ k, length = some k → 4 ≤ k → readStatus k reply = status

theorem dataLength_writeDataLength {v : Nat} (hv : v < 256 ^ 2) (lm : Nat → BYTE) :
    dataLength (writeDataLength v lm) = v := by
  have h := slice_overlay lm 0 (toLE 2 v)
  rw [toLE_length] at h
  rw [dataLength, readNumber, writeDataLength, h, fromLE_toLE, Nat.mod_eq_of_lt hv]

/-- The end of `WorkerThread`: the reply is sent, and the worker's descriptor and
    message are freed. -/
theorem wp_workerFinish (hself : g.self = none) (hst : g.stage = .worker)
    (hr : g.own lpService = some (.routine r)) (hlm : g.own r.lm = some (.message lm n))
    {dwThread : Nat} {Q : Option Label → Ghost b → Prop}
    (hQ : ∀ own reply, dataLength reply = 4 →
      (∀ k, 4 ≤ k → readStatus k reply = readStatus k lm) →
      Q none { g with own := own, replies := reply :: g.replies }) :
    wp (outline b) (workerFinish lpService dwThread) Q g := by
  have hspares : ∀ a, g.Spares a := Ghost.spares_of_none hself
  have hne : lpService ≠ r.lm := by
    intro h
    rw [h, hlm] at hr
    exact nomatch hr
  have hput : ∀ x, (g.put r.lm x).own lpService = some (.routine r) := by
    intro x
    rw [g.put_own_ne hne]
    exact hr
  unfold workerFinish
  refine wp_silent (by trivial) ?_
  intro k
  refine wp_loadRoutine hr ?_
  intro c _
  refine wp_modifyMessage hlm (hspares _) ?_
  intro _
  refine wp_loadRoutine (hput _) ?_
  intro c' _
  refine wp_modifyMessage (g.put_own_self ..) (hspares _) ?_
  intro _
  rw [Ghost.put_put]
  refine wp_loadRoutine (hput _) ?_
  intro c'' _
  refine wp_loadMessage (g.put_own_self ..) ?_
  intro _
  refine wp_op_bind.mpr ⟨trivial, ?_⟩
  rintro x _ ⟨-, rfl⟩
  have hnext : (g.put r.lm (some (.message
      (writeDataLength 4 (writeTotalLength (k + 4) lm)) n))).stage.next
      (.ntReplyWaitReplyPort r.hServerPort
        (writeDataLength 4 (writeTotalLength (k + 4) lm))) x = g.stage := by
    rw [Ghost.put_stage, hst]
    rfl
  rw [hnext]
  -- from here on only the blocks change
  have rest : ∀ own : Blocks, own lpService = some (.routine r) →
      (∃ lm', own r.lm = some (.message lm' n)) → r.lm ≠ 0 →
      wp (outline b) (do
        enterCriticalSection
        let k ← listSize
        eraseLoop dwThread k 0
        leaveCriticalSection
        let _ ← ntClose (← loadRoutine lpService).hClientProcess
        let _ ← ntClose (← loadRoutine lpService).hServerPort
        free (← loadRoutine lpService).lm
        free lpService
        exitThread
        return none) Q { g with
          own := own
          replies := writeDataLength 4 (writeTotalLength (k + 4) lm) :: g.replies } := by
    rintro own hr' ⟨lm', hlm'⟩ h0
    refine wp_silent (by trivial) ?_
    intro _
    refine wp_silent (by trivial) ?_
    intro k'
    apply ignores.bind (silent_eraseLoop _ _ _)
    intro _
    refine wp_silent (by trivial) ?_
    intro _
    refine wp_loadRoutine hr' ?_
    intro _ _
    refine wp_ntClose_worker (by exact hst) ?_
    intro _
    refine wp_loadRoutine hr' ?_
    intro _ _
    refine wp_ntClose_worker (by exact hst) ?_
    intro _
    refine wp_loadRoutine hr' ?_
    intro _ hs0
    refine wp_free (g := { g with own := own, replies := _ }) hlm' h0
      (Ghost.spares_of_none hself _) ?_
    refine wp_free (x := .routine r) ?_ hs0 (Ghost.spares_of_none (by exact hself) _) ?_
    · rw [Ghost.put_own_ne _ hne]
      exact hr'
    · refine wp_op_bind.mpr ⟨Or.inl hself, ?_⟩
      rintro _ _ rfl
      refine hQ _ _ (dataLength_writeDataLength (by decide) _) ?_
      intro k₀ hk₀
      exact readStatus_lengths hk₀ ..
  -- an answer to the reply is put where the reply was
  refine wp_receiveInto (g := { g.put r.lm _ with
    stage := g.stage
    client := g.client
    replies := writeDataLength 4 (writeTotalLength (k + 4) lm) :: g.replies })
    (g.put_own_self ..) (Ghost.spares_of_none hself _) ?_ ?_
  · intro m _
    refine rest _ ?_ ⟨_, Function.update_self ..⟩ (by assumption)
    rw [Function.update_of_ne hne]
    exact hput _
  · intro _
    exact rest _ (hput _) ⟨_, g.put_own_self ..⟩ (by assumption)

/-- `WorkerThread` up to the call of the routine: it is called with the mapped
    list, or the call is answered. -/
theorem wp_workerThread (W : Working g lpService r lm n l)
    {Q : Option Label → Ghost b → Prop}
    (hok : ∀ p own q tmp dwThread, l = some p →
      Working { g with own := own } lpService r lm n (some (normalized b p)) →
      Allocated (g.put r.lpParameters (some (.parameters (normalized b p)))) own tmp
        q.parameters →
      own tmp = some (.parameters q) →
      List.Forall₂ (MapsTo b g.client own) (normalized b p).parameters q.parameters →
      Q (some (.routine lpService tmp dwThread (buffers b q)))
        { g with own := own, calls := (r.lpRoutine, arguments b q) :: g.calls })
    (hno : ∀ p own reply, l = some p → Unreadable g (normalized b p) →
      Reports g.length STATUS_INVALID_PARAMETER reply →
      Q none { g with own := own, replies := reply :: g.replies }) :
    wp (outline b) (workerThread lpService) Q g := by
  unfold workerThread
  refine wp_silent (by trivial) ?_
  intro _
  refine wp_loadRoutine W.routine ?_
  intro c _
  refine wp_silent (by trivial) ?_
  intro dwThread
  refine wp_silent (by trivial) ?_
  intro _
  refine wp_silent (by trivial) ?_
  intro _
  cases l with
  | none =>
      -- without a captured list the worker reads through the null address
      refine wp_normalize_null W.routine W.list ?_
      refine wp_loadRoutine W.routine ?_
      intro c' _
      have hlist : r.lpParameters = 0 := W.list
      show wp (outline b) (rtlMapPtrParameters r.hClientProcess r.lpParameters >>= _) Q g
      rw [hlist, rtlMapPtrParameters, Prog.bind_assoc]
      exact wp_load_null
  | some p =>
      have hlist : g.own r.lpParameters = some (.parameters p) := W.list
      have hne₁ : lpService ≠ r.lpParameters := by
        intro h
        rw [← h, W.routine] at hlist
        cases hlist
      have hne₂ : r.lm ≠ r.lpParameters := by
        intro h
        rw [← h, W.message] at hlist
        cases hlist
      refine wp_normalize W.routine hlist (W.spares _) ?_
      have W₁ : Working (g.put r.lpParameters (some (.parameters (normalized b p))))
          lpService r lm n (some (normalized b p)) := by
        refine ⟨W.self, W.stage, ?_, ?_, g.put_own_self .., W.client⟩
        · rw [g.put_own_ne hne₁]
          exact W.routine
        · rw [g.put_own_ne hne₂]
          exact W.message
      refine wp_loadRoutine W₁.routine ?_
      intro c' _
      refine wp_rtlMapPtrParameters W₁.self W₁.stage W₁.client W₁.list ?_ ?_
      -- mapped: the routine is called
      · intro own q tmp A hq hmaps
        have W₂ := W₁.holding A.frame
        rw [if_neg A.list.1]
        refine wp_loadRoutine W₂.routine ?_
        intro c'' _
        refine wp_loadParameters hq ?_
        intro _
        refine wp_op_bind.mpr ⟨W.stage, ?_⟩
        rintro _ _ rfl
        exact hok p own q tmp dwThread rfl W₂ A hq hmaps
      -- not mapped: the reply says so
      · intro own hframe hun
        have W₂ := W₁.holding hframe
        rw [if_pos rfl]
        refine wp_setStatus W₂.routine W₂.message (W₂.spares _) ?_
        intro k hk
        have W₃ := W₂.put_message (writeStatus k STATUS_INVALID_PARAMETER lm)
        refine wp_workerFinish W₃.self W₃.stage W₃.routine W₃.message ?_
        intro own' reply hdata hreply
        refine hno p own' reply rfl hun ⟨hdata, ?_⟩
        intro k' hk' h4
        rw [hreply k' h4, ← hk k' hk', readStatus_writeStatus]

/-- A mapping is one the routine can work with. -/
theorem mappedAt_of_allocated {own : Blocks} {g₀ : Ghost b} (A : Allocated g₀ own tmp q.parameters)
    (hp₀ : g₀.own r.lpParameters ≠ none) (hq : own tmp = some (.parameters q))
    {client : Option (HANDLE × VirtualMemory)}
    (hmaps : List.Forall₂ (MapsTo b client own) p.parameters q.parameters) :
    MappedAt { g with own := own } r tmp p q := by
  have hpointer : ∀ {e m}, MapsTo b client own e m → isPtr m.parameterMask = true →
      m.ulParameter ≠ 0 → needsBuffer e = true ∧
        ∃ bytes, own (b.toPointer m.ulParameter) = some (.buffer bytes) := by
    intro e m hem hptr hne
    by_cases hn : needsBuffer e = true
    · unfold MapsTo at hem
      rw [if_pos hn] at hem
      obtain ⟨a, bytes, rfl, -, ha, hown, -⟩ := hem
      exact ⟨hn, bytes, by rw [ha]; exact hown⟩
    · unfold MapsTo at hem
      rw [if_neg hn] at hem
      subst hem
      refine absurd ?_ hn
      rw [needsBuffer, Bool.and_eq_true, Bool.or_eq_true]
      exact ⟨hptr, Or.inr (by simpa using hne)⟩
  refine ⟨A.list.1, hq, ?_, A.nodup, ?_, ?_⟩
  · rintro rfl
    exact hp₀ A.list.2
  · intro a ha
    obtain ⟨m, hm, hptr, hne, rfl⟩ := mem_buffers.mp ha
    obtain ⟨i, hi⟩ := List.getElem?_of_mem hm
    have hlen := hmaps.length_eq
    have hlt : i < p.parameters.length := by
      rw [hlen]
      exact (List.getElem?_eq_some_iff.mp hi).1
    have := List.Forall₂.get hmaps hlt (by rw [← hlen]; exact hlt)
    have hget : q.parameters.get ⟨i, by rw [← hlen]; exact hlt⟩ = m := by
      rw [List.getElem?_eq_some_iff] at hi
      exact hi.2
    rw [hget] at this
    exact (hpointer this hptr hne).2
  · refine List.forall₂_iff_get.mpr ⟨hmaps.length_eq, ?_⟩
    intro i h₁ h₂ hw
    have hem := hmaps.get h₁ h₂
    have hn : needsBuffer (p.parameters.get ⟨i, h₁⟩) = true := by
      rw [writesEntry, Bool.and_eq_true] at hw
      rw [needsBuffer, Bool.and_eq_true, Bool.or_eq_true]
      exact ⟨hw.1, Or.inr hw.2⟩
    have hptr := isPtr_of_needsBuffer hn
    unfold MapsTo at hem
    rw [if_pos hn] at hem
    obtain ⟨a, bytes, hm, h0, ha, -, -⟩ := hem
    refine mem_buffers.mpr ⟨q.parameters.get ⟨i, h₂⟩, List.get_mem .., ?_, ?_, rfl⟩
    · rw [hm]
      exact hptr
    · rw [hm]
      exact h0

/-! ### While the routine runs -/

namespace MappedAt

/-- The list of a mapping is no buffer. -/
theorem list_ne (M : MappedAt g r tmp p q) {a : LPVOID} {bytes : List BYTE}
    (ha : g.own a = some (.buffer bytes)) : tmp ≠ a := by
  rintro rfl
  rw [M.list] at ha
  exact nomatch ha

/-- A buffer gets another content. -/
theorem put_buffer (M : MappedAt g r tmp p q) {a : LPVOID} {bytes : List BYTE}
    (ha : g.own a = some (.buffer bytes)) (bytes' : List BYTE) :
    MappedAt (g.put a (some (.buffer bytes'))) r tmp p q := by
  refine ⟨M.nonzero, ?_, M.apart, M.nodup, ?_, M.entries⟩
  · rw [g.put_own_ne (M.list_ne ha)]
    exact M.list
  · intro c hc
    by_cases hca : c = a
    · rw [hca]
      exact ⟨bytes', g.put_own_self ..⟩
    · rw [g.put_own_ne hca]
      exact M.held c hc

/-- Blocks that are no part of the mapping change. -/
theorem put_other (M : MappedAt g r tmp p q) {a : LPVOID} (h₁ : a ≠ tmp)
    (h₂ : a ∉ buffers b q) (x : Option Block) : MappedAt (g.put a x) r tmp p q := by
  refine ⟨M.nonzero, ?_, M.apart, M.nodup, ?_, M.entries⟩
  · rw [g.put_own_ne h₁.symm]
    exact M.list
  · intro c hc
    rw [g.put_own_ne]
    · exact M.held c hc
    · rintro rfl
      exact h₂ hc

end MappedAt

/-- A service routine writes into a buffer it was given. -/
theorem wp_routineWrite {bufs : List LPVOID}
    (hheld : ∀ a ∈ bufs, ∃ bytes, g.own a = some (.buffer bytes))
    (hself : g.self = none) {i k : Nat} {v : BYTE} {f : Unit → Code b α}
    (hsame : (∀ a bytes, bufs[i]? = some a → g.own a = some (.buffer bytes) →
      bytes.length ≤ k) → wp (outline b) (f ()) Q g)
    (hwrite : ∀ a bytes, bufs[i]? = some a → g.own a = some (.buffer bytes) →
      k < bytes.length →
      wp (outline b) (f ()) Q (g.put a (some (.buffer (bytes.set k v))))) :
    wp (outline b) (routineWrite bufs i k v >>= f) Q g := by
  unfold routineWrite
  cases ha : bufs[i]? with
  | none => exact hsame fun a bytes h => by cases ha.symm.trans h
  | some a =>
      obtain ⟨bytes, hown⟩ := hheld a (List.mem_of_getElem? ha)
      rw [Prog.bind_assoc]
      refine wp_loadBuffer hown ?_
      intro _
      by_cases hk : k < bytes.length
      · rw [if_pos hk]
        refine wp_store hown (by rfl) (Ghost.spares_of_none hself a) ?_
        intro _
        exact hwrite a bytes ha hown hk
      · rw [if_neg hk]
        refine hsame ?_
        intro a' bytes' ha' hown'
        obtain rfl := Option.some.inj (ha.symm.trans ha')
        obtain rfl := Block.buffer.inj (Option.some.inj (hown.symm.trans hown'))
        exact Nat.le_of_not_lt hk

/-- The service routine. -/
theorem wp_routine {dwThread : Nat} {bufs : List LPVOID}
    (hg : Goto (.routine lpService tmp dwThread bufs) g) :
    wp (outline b) (routine lpService tmp dwThread bufs) (leave Goto) g := by
  obtain ⟨r, lm, n, p, q, W, M, rfl⟩ := hg
  unfold routine
  refine wp_silent (by trivial) ?_
  intro a
  cases a with
  | write i k v =>
      refine wp_routineWrite M.held W.self ?_ ?_
      · intro _
        exact ⟨r, lm, n, p, q, W, M, rfl⟩
      · intro a bytes _ hown _
        obtain ⟨h₁, h₂, h₃⟩ := W.ne_of_buffer hown
        exact ⟨r, lm, n, p, q, W.put h₁ h₂ (fun _ => h₃), M.put_buffer hown _, rfl⟩
  | clientId =>
      refine ignores.bind silent_lookup ?_
      intro result
      refine wp_silent (by trivial) ?_
      intro _
      exact ⟨r, lm, n, p, q, W, M, rfl⟩
  | ret status => exact ⟨r, lm, n, p, q, W, M⟩

/-- The writes back only depend on the buffers. -/
theorem syncWrites_congr {own own' : Blocks} {es ms : List ServiceParameterBlob}
    (h : List.Forall₂ (fun e m => writesEntry e = true →
      own (b.toPointer m.ulParameter) = own' (b.toPointer m.ulParameter)) es ms) :
    syncWrites b own es ms = syncWrites b own' es ms := by
  induction h with
  | nil => rfl
  | @cons e m es ms hem _ ih =>
      unfold syncWrites
      rw [ih]
      by_cases he : writesEntry e = true
      · rw [if_pos he, if_pos he, entryWrite, entryWrite, bufferAt, bufferAt, hem he]
      · rw [if_neg he, if_neg he]

/-- `WorkerThread` from the return of the routine on: what the routine left in the
    buffers is written back and the call is answered. -/
theorem wp_workerReturn (W : Working g lpService r lm n (some p))
    (M : MappedAt g r tmp p q) {dwThread : Nat} {status : NTSTATUS}
    {Q : Option Label → Ghost b → Prop}
    (hok : ∀ own reply, (∀ x, g.client = some x →
        ∀ w ∈ syncWrites b g.own p.parameters q.parameters, Writable x.2 w = true) →
      Reports g.length status reply →
      Q none { g with
        own := own
        client := written g.client (syncWrites b g.own p.parameters q.parameters)
        replies := reply :: g.replies })
    (hno : ∀ own reply ws, ws <+: syncWrites b g.own p.parameters q.parameters →
      (∀ x, g.client = some x →
        ws = (syncWrites b g.own p.parameters q.parameters).takeWhile (Writable x.2)
          ∧ ∃ w ∈ syncWrites b g.own p.parameters q.parameters, Writable x.2 w = false) →
      Reports g.length STATUS_ACCESS_DENIED reply →
      Q none { g with
        own := own
        client := written g.client ws
        replies := reply :: g.replies }) :
    wp (outline b) (workerReturn lpService tmp dwThread status) Q g := by
  unfold workerReturn
  refine wp_setStatus W.routine W.message (W.spares _) ?_
  intro k hk
  have hlm₁ : r.lm ≠ tmp := by
    intro h
    have := M.list
    rw [← h, W.message] at this
    exact nomatch this
  have hlm₂ : r.lm ∉ buffers b q := by
    intro hmem
    obtain ⟨bytes, hown⟩ := M.held _ hmem
    exact (W.ne_of_buffer hown).2.1 rfl
  have W₁ := W.put_message (writeStatus k status lm)
  have M₁ := M.put_other hlm₁ hlm₂ (some (.message (writeStatus k status lm) n))
  -- the status is not in a buffer, so what is written back is as before
  have hsame : ∀ x, syncWrites b (g.put r.lm x).own p.parameters q.parameters
      = syncWrites b g.own p.parameters q.parameters := by
    intro x
    refine syncWrites_congr (M.entries.imp ?_)
    intro e m hem he
    refine g.put_own_ne ?_ x
    intro h
    exact hlm₂ (h ▸ hem he)
  -- what unmapping needs, wherever the blocks of the mapping are
  have unmap : ∀ {g' : Ghost b} {f : Unit → Code b (Option Label)},
      MappedAt g' r tmp p q → g'.self = none →
      (∀ own, (∀ a, a ≠ tmp → a ∉ buffers b q → own a = g'.own a) →
        wp (outline b) (f ()) Q { g' with own := own }) →
      wp (outline b) (rtlUnmapPtrParameters tmp >>= f) Q g' := by
    intro g' f M' hself' hf
    refine wp_rtlUnmapPtrParameters hself' M'.list
      ((freed_sublist q.parameters).nodup M'.nodup) ?_ ?_
    · intro a ha
      obtain ⟨bytes, hown⟩ := M'.held a ((freed_sublist q.parameters).mem ha)
      refine ⟨(M'.list_ne hown).symm, ?_⟩
      rw [hown]
      exact Option.some_ne_none _
    · intro own hframe
      refine hf own ?_
      intro a h₁ h₂
      exact hframe a h₁ (fun h => h₂ ((freed_sublist q.parameters).mem h))
  have hroutine : lpService ≠ tmp ∧ lpService ∉ buffers b q := by
    constructor
    · intro h
      have := M.list
      rw [← h, W.routine] at this
      exact nomatch this
    · intro hmem
      obtain ⟨bytes, hown⟩ := M.held _ hmem
      exact (W.ne_of_buffer hown).1 rfl
  refine wp_loadRoutine W₁.routine ?_
  intro c _
  refine wp_rtlSyncMappedPtrParameters W₁.client W₁.list M₁.list ?_ ?_ ?_
  · refine M₁.entries.imp ?_
    intro e m hem he
    exact M₁.held _ (hem he)
  · -- everything was written back
    rw [hsame]
    intro hall
    rw [if_pos rfl]
    refine unmap
      ⟨M₁.nonzero, M₁.list, M₁.apart, M₁.nodup, M₁.held, M₁.entries⟩ W₁.self ?_
    intro own hframe
    refine wp_workerFinish (g := { g with own := own, client := _ }) W.self W.stage
      ((hframe _ hroutine.1 hroutine.2).trans W₁.routine)
      ((hframe _ hlm₁ hlm₂).trans W₁.message) ?_
    intro own' reply hdata hreply
    refine hok own' reply hall ⟨hdata, ?_⟩
    intro k' hk' h4
    rw [hreply k' h4, ← hk k' hk', readStatus_writeStatus]
  · -- a write failed
    rw [hsame]
    intro ws hpre hbad
    rw [if_neg Bool.false_ne_true]
    refine wp_setStatus (g := { g.put r.lm (some (.message (writeStatus k status lm) n)) with
      client := written g.client ws }) W₁.routine W₁.message
      (Ghost.spares_of_none W₁.self _) ?_
    intro k₂ hk₂
    have M₂ := M₁.put_other hlm₁ hlm₂ (some (.message
      (writeStatus k₂ STATUS_ACCESS_DENIED (writeStatus k status lm)) n))
    have W₂ := W₁.put_message (writeStatus k₂ STATUS_ACCESS_DENIED (writeStatus k status lm))
    refine unmap
      ⟨M₂.nonzero, M₂.list, M₂.apart, M₂.nodup, M₂.held, M₂.entries⟩ W₂.self ?_
    intro own hframe
    refine wp_workerFinish (g := { g with own := own, client := _ }) W.self W.stage
      ((hframe _ hroutine.1 hroutine.2).trans W₂.routine)
      ((hframe _ hlm₁ hlm₂).trans W₂.message) ?_
    intro own' reply hdata hreply
    refine hno own' reply ws hpre hbad ⟨hdata, ?_⟩
    intro k' hk' h4
    rw [hreply k' h4, ← hk₂ k' hk', readStatus_writeStatus]

end Worker

/-! ## The application -/

section Application

theorem wp_storeOwn {a : LPVOID} {bytes : List BYTE} {f : Unit → Code b α}
    (hf : wp (outline b) (f ()) Q { g with mine := g.mine.map fun vm =>
      { vm with byte := overlay vm.byte a.toNat bytes } }) :
    wp (outline b) (storeOwn a bytes >>= f) Q g := by
  refine wp_op_bind.mpr ⟨trivial, ?_⟩
  rintro _ _ rfl
  exact hf

/-- A registration ends at the stage it began at. -/
theorem wp_scRegisterServiceRoutineW {hServiceRoutine lpServiceRoutine lpParameters : LPVOID}
    {name : Option (List WCHAR)} (hself : g.self = none) (hst : g.stage = .app)
    (htodo : g.todo.head?
      = some (.register hServiceRoutine lpServiceRoutine lpParameters name))
    {f : NTSTATUS → Code b α}
    (hf : ∀ g' status, g'.self = none → g'.stage = .app → g'.todo = g.todo →
      wp (outline b) (f status) Q g') :
    wp (outline b) (scRegisterServiceRoutineW hServiceRoutine lpServiceRoutine
      lpParameters name >>= f) Q g := by
  rw [scRegisterServiceRoutineW, Prog.bind_assoc]
  refine ignores.bind silent_notInitialized ?_
  intro v
  split
  · exact hf g _ hself hst rfl
  · rw [Prog.bind_assoc]
    refine ignores.bind (silent_registerProbe ..) ?_
    intro bad
    split
    · exact hf g _ hself hst rfl
    · rw [Prog.bind_assoc]
      refine wp_silent (by trivial) ?_
      intro us
      rw [Prog.bind_assoc]
      refine wp_storeOwn ?_
      -- the result is null until there is a service
      generalize hg₁ : ({ g with mine := g.mine.map fun vm => { vm with
        byte := overlay vm.byte hServiceRoutine.toNat (toLE b.pointerSize 0) } } : Ghost b) = g₁
      have hself₁ : g₁.self = none := by
        rw [← hg₁]
        exact hself
      have hst₁ : g₁.stage = .app := by
        rw [← hg₁]
        exact hst
      have htodo₁ : g₁.todo = g.todo := by rw [← hg₁]
      rw [Prog.bind_assoc]
      refine wp_rtlCaptureParameters (Ghost.kept_of_none (by exact hself₁))
        (fun a x _ => readsAs_own_unknown _) (readsAs_own_unknown _) ?_ ?_
      · intro captured p hc0 hfresh _
        rw [if_neg hc0, Prog.bind_assoc]
        refine wp_op_bind.mpr ⟨⟨hst₁, _, _, _, _, (congrArg List.head? htodo₁).trans htodo⟩, ?_⟩
        rintro x _ ⟨-, rfl⟩
        by_cases hx : ntSuccess x.1 = true
        · -- the port was created
          rw [if_pos hx, Prog.bind_assoc]
          refine wp_silent (by trivial) ?_
          intro _
          rw [Prog.bind_assoc]
          refine wp_newRoutine (Ghost.kept_of_none (by exact hself₁)) ?_
          intro hResult hr0 hrfresh
          have hcr : captured ≠ hResult := by
            rintro rfl
            have : Function.update g₁.own captured (some (Block.parameters p)) captured = none :=
              hrfresh
            rw [Function.update_self] at this
            exact nomatch this
          have hcown : ∀ y, Function.update (Function.update g₁.own captured
              (some (Block.parameters p))) hResult y captured
              = some (.parameters p) := by
            intro y
            rw [Function.update_of_ne hcr, Function.update_self]
          have hnext : g₁.stage.next (.ntCreatePort us b.ulMaxConnectionSize
              b.ulMaxMessageSize) x = .created x.2 := by
            rw [hst₁]
            exact if_pos hx
          rw [Prog.bind_assoc]
          refine wp_op_bind.mpr ⟨⟨hr0, x.2, lpServiceRoutine, captured, p, hnext,
            Ghost.put_own_self .., hcown _⟩, ?_⟩
          rintro h _ rfl
          by_cases h0 : h = 0
          · -- no thread: everything is given back
            subst h0
            rw [if_pos rfl, Prog.bind_assoc]
            refine wp_free (x := .parameters p) ?_ hc0
              (Ghost.spares_of_none (by exact hself₁) _) ?_
            · rw [if_pos rfl]
              exact hcown _
            rw [Prog.bind_assoc]
            refine wp_free (x := .routine (.new x.2 lpServiceRoutine captured)) ?_ hr0
              (Ghost.spares_of_none (by exact hself₁) _) ?_
            · rw [Ghost.put_own_ne _ hcr.symm, if_pos rfl]
              exact Ghost.put_own_self ..
            rw [Prog.bind_assoc]
            refine wp_op_bind.mpr ⟨Or.inr (Or.inr (Or.inr (Or.inl hnext))), ?_⟩
            rintro status _ ⟨-, rfl⟩
            refine hf _ _ hself₁ ?_ htodo₁
            show (g₁.stage.next (.ntCreatePort us b.ulMaxConnectionSize b.ulMaxMessageSize)
              x).next (.ntClose x.2) status = .app
            rw [hnext]
            rfl
          -- the listener has the descriptor and the list now
          · rw [if_neg h0, Prog.bind_assoc]
            refine wp_storeOwn ?_
            refine hf _ _ hself₁ ?_ htodo₁
            exact if_neg h0
        · -- there is such a port already
          rw [if_neg hx, Prog.bind_assoc]
          refine wp_free (x := .parameters p) (by exact g₁.put_own_self ..) hc0
            (Ghost.spares_of_none (by exact hself₁) _) ?_
          rw [Prog.bind_assoc]
          refine wp_silent (by trivial) ?_
          intro _
          refine hf _ _ hself₁ ?_ htodo₁
          have hnext : g₁.stage.next (.ntCreatePort us b.ulMaxConnectionSize
              b.ulMaxMessageSize) x = .app := by
            rw [hst₁]
            exact if_neg hx
          exact hnext
      -- the list was not captured
      · intro _
        rw [if_pos rfl, Prog.bind_assoc]
        refine wp_silent (by trivial) ?_
        intro _
        exact hf _ _ hself₁ hst₁ htodo₁

/-- `ScUnregisterServiceRoutine`: it fails before it did anything, or it has asked
    for the handle in the descriptor to be closed. -/
theorem wp_scUnregisterServiceRoutine {lpService : LPVOID} (hself : g.self = none)
    (hst : g.stage = .app) (htodo : g.todo.head? = some (.unregister lpService))
    {f : NTSTATUS → Code b α}
    (hno : (∀ ok, g.pages = some ok → Lpc.accessible ok lpService.toNat 1 = false) →
      wp (outline b) (f STATUS_ACCESS_VIOLATION) Q g)
    (hf : ∀ g' status, g'.self = none → g'.stage = .closed lpService → g'.todo = g.todo →
      wp (outline b) (f status) Q g') :
    wp (outline b) (scUnregisterServiceRoutine lpService >>= f) Q g := by
  rw [scUnregisterServiceRoutine, Prog.bind_assoc, unregisterProbe_eq]
  refine wp_op_bind.mpr ⟨trivial, ?_⟩
  rintro bad g₁ ⟨hg₁, -, hbad⟩
  rw [hg₁]
  split
  · next h =>
      refine hno ?_
      intro ok hok
      simpa [h] using (hbad ok hok).symm
  · rw [Prog.bind_assoc]
    refine wp_op_bind.mpr ⟨⟨hst, htodo⟩, ?_⟩
    rintro _ _ rfl
    refine wp_op_bind.mpr ⟨⟨Or.inr ⟨lpService, rfl, rfl⟩, trivial⟩, ?_⟩
    rintro x _ ⟨⟨own, ⟨rfl, -, -⟩, rfl⟩, -⟩
    have hseen : (Stage.flagged lpService : Stage b).seen g.own (.load lpService .routine) x
        = .read lpService (asRoutine x).hPort ∨
        ((Stage.flagged lpService : Stage b).seen g.own (.load lpService .routine) x
          = .flagged lpService ∧ g.own lpService ≠ none) := by
      cases h : g.own lpService with
      | none => exact Or.inl (by simp [Stage.seen, h])
      | some y => exact Or.inr ⟨by simp [Stage.seen, h], Option.some_ne_none y⟩
    refine wp_op_bind.mpr ⟨Or.inr (Or.inr (Or.inl ⟨lpService, hseen⟩)), ?_⟩
    rintro status _ ⟨-, rfl⟩
    refine hf _ _ hself ?_ rfl
    show ((Stage.flagged lpService : Stage b).seen g.own (.load lpService .routine) x).next
      (.ntClose (asRoutine x).hPort) status = .closed lpService
    rcases hseen with h | ⟨h, -⟩
    · rw [h]
      rfl
    · rw [h]
      rfl

/-- An application thread makes its next call. -/
theorem wp_app {calls : List Call} (hg : Goto (.app calls) g) :
    wp (outline b) (app calls) (leave Goto) g := by
  obtain ⟨hself, hst, htodo⟩ := hg
  unfold app
  cases calls with
  | nil =>
      refine wp_op_bind.mpr ⟨Or.inl hself, ?_⟩
      intro _ _ _
      trivial
  | cons c calls =>
      refine wp_silent (by trivial) ?_
      intro _
      have hhead : g.todo.head? = some c := by rw [htodo, List.head?_cons]
      have htail : ∀ {g' : Ghost b}, g'.todo = g.todo → g'.todo.tail = calls := by
        intro g' h
        rw [h, htodo, List.tail_cons]
      cases c with
      | register hServiceRoutine lpServiceRoutine lpParameters name =>
          show wp (outline b) (scRegisterServiceRoutineW hServiceRoutine lpServiceRoutine
            lpParameters name >>= _ >>= _) _ g
          rw [Prog.bind_assoc]
          refine wp_scRegisterServiceRoutineW hself hst hhead ?_
          intro g' status hself' hst' htodo'
          refine wp_op_bind.mpr ⟨⟨(congrArg List.head? htodo').trans hhead, hst'⟩, ?_⟩
          rintro _ _ rfl
          exact ⟨hself', rfl, htail htodo'⟩
      | unregister h =>
          show wp (outline b) (scUnregisterServiceRoutine h >>= _ >>= _) _ g
          rw [Prog.bind_assoc]
          refine wp_scUnregisterServiceRoutine hself hst hhead ?_ ?_
          · intro hbad
            refine wp_op_bind.mpr ⟨⟨hhead, Or.inr ⟨hst, rfl, hbad⟩⟩, ?_⟩
            rintro _ _ rfl
            exact ⟨hself, rfl, htail rfl⟩
          · intro g' status hself' hst' htodo'
            refine wp_op_bind.mpr ⟨⟨(congrArg List.head? htodo').trans hhead, Or.inl hst'⟩, ?_⟩
            rintro _ _ rfl
            exact ⟨hself', rfl, htail htodo'⟩
      | clientId =>
          show wp (outline b) (rtlSafeThreadServiceClientId >>= _ >>= _) _ g
          rw [Prog.bind_assoc]
          refine ignores.bind silent_lookup ?_
          intro result
          refine wp_silent (by trivial) ?_
          intro _
          refine wp_op_bind.mpr ⟨⟨hhead, hst⟩, ?_⟩
          rintro _ _ rfl
          exact ⟨hself, rfl, htail rfl⟩

end Application

/-- **EVERY LABEL** keeps to the outline. -/
theorem wp_code {l : Label} (hg : Entry l g) :
    wp (outline b) (code l) (leave Goto) g := by
  cases l with
  | waitThread lpService => exact wp_waitThread hg
  | waitLoop lpService lm => exact wp_waitLoop hg
  | workerThread lpService =>
      obtain ⟨r, lm, n, p, W⟩ := hg
      refine wp_workerThread W ?_ ?_
      · rintro p own q tmp dwThread rfl W' A hq hmaps
        have hp₀ : (g.put r.lpParameters (some (.parameters (normalized b p)))).own
            r.lpParameters ≠ none := by
          rw [Ghost.put_own_self]
          exact Option.some_ne_none _
        have M := mappedAt_of_allocated (g := g) A hp₀ hq hmaps
        exact ⟨r, lm, n, normalized b p, q,
          ⟨W'.self, W'.stage, W'.routine, W'.message, W'.list, W'.client⟩,
          ⟨M.nonzero, M.list, M.apart, M.nodup, M.held, M.entries⟩, rfl⟩
      · intro p own reply _ _ _
        trivial
  | routine lpService tmp dwThread bufs => exact wp_routine hg
  | workerReturn lpService tmp dwThread status =>
      obtain ⟨r, lm, n, p, q, W, M⟩ := hg
      refine wp_workerReturn W M ?_ ?_
      · intro own reply _ _
        trivial
      · intro own reply ws _ _ _
        trivial
  | app calls => exact wp_app hg

end ScOwnership
