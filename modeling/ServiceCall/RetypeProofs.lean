import ServiceCall.FootprintProofs
import ServiceCall.ReleaseProofs

/-! # The list that is checked and the list that is captured

    `WaitThread` compares the list of a connection message with the list of the
    service, receives the next message into the same buffer, and captures the list
    after that.  What is captured has the type that was checked exactly when the
    second message leaves the count and the masks as they were (`dispatch_typed`). -/

namespace ScRetype

open LinearMemory OwnedHeap OpProg ThreadSys ScParameter LpcMessage ScSystem
  ScServiceCall ScOwnership ScSequential ScFootprint ScRelease

variable {b : Build}

/-! ## The bytes that make a type -/

/-- The bytes of the count of a list at `a` and of the masks of its `n` entries. -/
def TypeByte (n a i : Nat) : Prop :=
  (a ≤ i ∧ i < a + 4) ∨ ∃ k < n, i = a + parametersOffset + blobSize * k

/-- The message leaves the count and the masks of the list at `a` as they are in `lm`. -/
def KeepsType (lm : Nat → BYTE) (a : Nat) (m : Message b) : Prop :=
  ∀ i < m.bytes.length, TypeByte (readDword lm a).toNat a i → m.image i = lm i

theorem masks_readParameters (m : Nat → BYTE) (a : Nat) :
    (readParameters m a).masks
      = (List.range (readDword m a).toNat).map
        fun k => m (a + parametersOffset + blobSize * k) := by
  rw [ServiceRoutineParameter.masks, readParameters, List.map_map]
  rfl

/-- Lists have the same masks when their counts and their mask bytes are the same. -/
theorem masks_eq_iff (m m' : Nat → BYTE) (a : Nat) :
    (readParameters m' a).masks = (readParameters m a).masks
      ↔ ∀ i, TypeByte (readDword m a).toNat a i → m' i = m i := by
  constructor
  · intro h
    have hlen := congrArg List.length h
    have hcount : fromLE (slice m' a 4) = fromLE (slice m a 4) := by
      rw [← readParameters_count, ← readParameters_count]
      exact dwParameters_eq_of_masks h
    have hslice : slice m' a 4 = slice m a 4 := fromLE_inj (by simp) hcount
    rintro i (⟨hlo, hhi⟩ | ⟨k, hk, rfl⟩)
    · have := congrArg (fun l => l[i - a]?) hslice
      simp only [slice, List.getElem?_map, List.getElem?_range (show i - a < 4 by omega),
        Option.map_some, Option.some.injEq] at this
      rwa [Nat.add_sub_cancel' hlo] at this
    · rw [masks_readParameters, masks_readParameters] at h
      have hk' : k < (readDword m' a).toNat := by
        rw [masks_readParameters, masks_readParameters, List.length_map, List.length_map,
          List.length_range, List.length_range] at hlen
        omega
      have := congrArg (fun l => l[k]?) h
      simpa only [List.getElem?_map, List.getElem?_range hk, List.getElem?_range hk',
        Option.map_some, Option.some.injEq] using this
  · intro h
    have hcount : readDword m' a = readDword m a :=
      readDword_congr fun k hk => h _ (Or.inl ⟨Nat.le_add_right .., Nat.add_lt_add_left hk a⟩)
    rw [masks_readParameters, masks_readParameters, hcount]
    refine List.map_congr_left ?_
    intro k hk
    exact h _ (Or.inr ⟨k, List.mem_range.mp hk, rfl⟩)

/-- A message keeps the type of a list exactly when the list in the buffer keeps its masks. -/
theorem keepsType_iff (lm : Nat → BYTE) (a : Nat) (m : Message b) :
    KeepsType lm a m ↔ (readParameters (deliver lm m) a).masks = (readParameters lm a).masks := by
  rw [masks_eq_iff]
  constructor
  · intro h i hi
    by_cases hlt : i < m.bytes.length
    · rw [deliver_covered lm hlt]
      exact h i hlt hi
    · exact deliver_uncovered lm (Nat.not_lt.mp hlt)
  · intro h i hlt hi
    rw [← deliver_covered lm hlt]
    exact h i hi

/-! ## The messages of an iteration -/

/-- The messages that a thread took from its port: those it listened for, and those it
    received. -/
structure Taken (b : Build) where
  listened : List (Message b)
  received : List (Message b)

namespace Taken

def empty : Taken b := ⟨[], []⟩

/-- One more event. -/
def add (T : Taken b) : Sigma (Op.Ret b) → Taken b
  | ⟨.kernel (.ntListenPort _), r⟩ => { T with listened := T.listened ++ r.2.toList }
  | ⟨.kernel (.ntReplyWaitReceivePort _), r⟩ => { T with received := T.received ++ r.2.toList }
  | _ => T

end Taken

/-- The messages of a run. -/
def takenOf (tr : Events b) : Taken b := tr.foldl Taken.add .empty

/-- The operations that take no message. -/
@[simp] def TakesNot : Op → Prop
  | .kernel (.ntListenPort _) => False
  | .kernel (.ntReplyWaitReceivePort _) => False
  | _ => True

theorem add_takesNot {o : Op} {r : Op.Ret b o} {T : Taken b} (ho : TakesNot o) :
    T.add ⟨o, r⟩ = T := by
  cases o with
  | kernel o => cases o <;> first | rfl | exact ho.elim
  | _ => rfl

theorem takesNot_of_inner {o : Op} (ho : Inner o) : TakesNot o := by
  cases o with
  | kernel o => cases o <;> trivial
  | _ => trivial

/-- The outline of a thread by itself, with the messages it takes. -/
def told (t n : Nat) : Outline Op (Op.Ret b) (Local b × Taken b) := (solo t n).recording Taken.add

/-! ## What a worker is handed -/

/-- The list `q` was captured at `a`, or its masks refused. -/
structure Captured (cells : Blocks) (a : LPVOID) (q : ServiceRoutineParameter) : Prop where
  valid   : q.Valid → a ≠ 0 ∧ cells a = some (.parameters q)
  refused : ¬ q.Valid → a = 0

/-- A worker that was started has the list `q`. -/
def HandedList (q : ServiceRoutineParameter) (g : Local b) : Prop :=
  ∀ param, .workerThread param ∈ g.log.started →
    ∃ r, g.cells param = some (.routine r) ∧ Captured g.cells r.lpParameters q

/-- What the listener works on while it has a descriptor `param` for a connection: the
    service `r₀` with the list `p`, and its buffer with the content `M`. -/
structure Preparing (lpService lm : LPVOID) (r₀ : ServiceRoutine) (p : ServiceRoutineParameter)
    (M : Nat → BYTE) (param : LPVOID) (g : Local b) : Prop where
  routine : g.cells lpService = some (.routine r₀)
  list    : g.cells r₀.lpParameters = some (.parameters p)
  buffer  : ∃ size, g.cells lm = some (.message M size)
  new     : ∃ r, g.cells param = some (.routine r)
  apart   : param ≠ lpService
  started : g.log.started = []

namespace Preparing

variable {lpService lm param : LPVOID} {r₀ : ServiceRoutine} {p : ServiceRoutineParameter}
  {M : Nat → BYTE} {g : Local b}

/-- Nothing that counts changes. -/
theorem congr (P : Preparing lpService lm r₀ p M param g) {g' : Local b}
    (hc : g'.cells = g.cells) (hs : g'.log.started = g.log.started) :
    Preparing lpService lm r₀ p M param g' := by
  refine ⟨?_, ?_, ?_, ?_, P.apart, hs.trans P.started⟩
  · rw [hc]
    exact P.routine
  · rw [hc]
    exact P.list
  · rw [hc]
    exact P.buffer
  · rw [hc]
    exact P.new

/-- The kernel is called. -/
theorem kernel (P : Preparing lpService lm r₀ p M param g) (k : Lpc b) {o : KernelOp}
    (x : o.Ret b) : Preparing lpService lm r₀ p M param
      ((g.withLpc k).logged (g.log.add (b := b) ⟨.kernel o, x⟩)) :=
  P.congr rfl (started_add (b := b) (e := ⟨.kernel o, x⟩) trivial _)

theorem ne_list (P : Preparing lpService lm r₀ p M param g) : r₀.lpParameters ≠ param := by
  obtain ⟨r, hr⟩ := P.new
  rintro h
  have := P.list
  rw [h, hr] at this
  cases this

theorem ne_buffer (P : Preparing lpService lm r₀ p M param g) : lm ≠ param := by
  obtain ⟨r, hr⟩ := P.new
  obtain ⟨size, hm⟩ := P.buffer
  rintro h
  rw [h, hr] at hm
  cases hm

/-- The descriptor changes. -/
theorem put (P : Preparing lpService lm r₀ p M param g) (r : ServiceRoutine) :
    Preparing lpService lm r₀ p M param (g.put param (some (.routine r))) := by
  refine ⟨?_, ?_, ?_, ⟨r, Local.put_cells_self ..⟩, P.apart, P.started⟩
  · rw [Local.put_cells_ne _ P.apart.symm]
    exact P.routine
  · rw [Local.put_cells_ne _ P.ne_list]
    exact P.list
  · rw [Local.put_cells_ne _ P.ne_buffer]
    exact P.buffer

/-- A message is written into the buffer. -/
theorem deliver (P : Preparing lpService lm r₀ p M param g) (M' : Nat → BYTE) (size : Nat) :
    Preparing lpService lm r₀ p M' param (g.put lm (some (.message M' size))) := by
  obtain ⟨size', hm⟩ := P.buffer
  have hne : ∀ {a x}, g.cells a = some x → x.kind ≠ .message → a ≠ lm := by
    rintro a x ha hk rfl
    rw [hm] at ha
    obtain rfl := Option.some.inj ha
    exact hk rfl
  obtain ⟨r, hr⟩ := P.new
  refine ⟨?_, ?_, ⟨size, Local.put_cells_self ..⟩, ⟨r, ?_⟩, P.apart, P.started⟩
  · rw [Local.put_cells_ne _ (hne P.routine (by simp [Block.kind]))]
    exact P.routine
  · rw [Local.put_cells_ne _ (hne P.list (by simp [Block.kind]))]
    exact P.list
  · rw [Local.put_cells_ne _ P.ne_buffer.symm]
    exact hr

/-- A block is allocated. -/
theorem allocate (P : Preparing lpService lm r₀ p M param g) {a : LPVOID} {k : Nat} {x : Block}
    (ha : g.cells a = none) : Preparing lpService lm r₀ p M param (g.allocate a k x) := by
  have hkeep : ∀ {c y}, g.cells c = some y → (g.allocate a k x).cells c = some y := by
    intro c y hc
    refine (Function.update_of_ne ?_ ..).trans hc
    rintro rfl
    rw [ha] at hc
    cases hc
  obtain ⟨size, hm⟩ := P.buffer
  obtain ⟨r, hr⟩ := P.new
  exact ⟨hkeep P.routine, hkeep P.list, ⟨size, hkeep hm⟩, ⟨r, hkeep hr⟩, P.apart, P.started⟩

end Preparing

section Programs

variable {t n : Nat} {α β : Type} {lpService lm param : LPVOID} {r₀ : ServiceRoutine}
  {p : ServiceRoutineParameter} {M : Nat → BYTE} {g : Local b}

/-- The worker is started, or not. -/
theorem solo_started {q : ServiceRoutineParameter} {l : Option Label}
    (hs : g.log.started = [])
    (hq : ∃ r, g.cells param = some (.routine r) ∧ Captured g.cells r.lpParameters q) :
    wp (solo t n) (createThread (.workerThread param) >>= fun _ => (pure l : Code b _))
      (fun _ => HandedList q) g := by
  refine solo_createThread ?_ ?_
  · intro param' hmem
    rw [hs] at hmem
    exact absurd hmem List.not_mem_nil
  · intro h k h0 _ param' hmem
    have hstarted : ((g.log.start (.workerThread param)).grant h).started
        = [.workerThread param] := by
      rw [Log.grant_of_ne _ h0]
      show g.log.started ++ _ = _
      rw [hs]
      rfl
    rw [Local.logged, hstarted, List.mem_singleton] at hmem
    cases hmem
    exact hq

/-- A connection that is not refused has a list of the service's type. -/
theorem solo_refused {a : LPVOID} {size : Nat} (hr : g.cells a = some (.routine r₀))
    (hp : g.cells r₀.lpParameters = some (.parameters p))
    (hm : g.cells lm = some (.message M size)) {h : HANDLE} {f : Bool → Code b α}
    {Q : α → Local b → Prop}
    (hf : ∀ v, (v = false → rtlEqualParameterType p (readParameters M (callparam M)) = true) →
      wp (solo t n) (f v) Q g) : wp (solo t n) (refused a lm h M >>= f) Q g := by
  rw [refused, orElse, orElse]
  by_cases h0 : h = 0
  · rw [h0]
    exact hf true (by simp)
  · rw [Prog.bind_assoc, Prog.pure_eq, Prog.bind_ret, if_neg (by simpa using h0)]
    by_cases hd : dataLength M = 0
    · rw [hd]
      exact hf true (by simp)
    · rw [Prog.bind_assoc, Prog.pure_eq, Prog.bind_ret, if_neg (by simpa using hd),
        Prog.bind_assoc]
      refine solo_equalParameterType hr hp hm (hf _ ?_)
      simp

/-- A worker gets what is captured from the buffer. -/
theorem solo_waitDispatch (P : Preparing lpService lm r₀ p M param g) (a : Nat) :
    wp (solo t n) (waitDispatch lpService lm param a : Code b _)
      (fun _ => HandedList (readParameters M a)) g := by
  obtain ⟨r, hr⟩ := P.new
  rw [waitDispatch]
  refine solo_alloc ?_
  intro copy x hnew
  have P₁ := P.allocate (k := b.lpcpMaxMessageSize) (x := x) hnew.new
  obtain ⟨size, hm⟩ := P₁.buffer
  refine solo_loadMessage hm ?_
  intro _
  have hx : (g.allocate copy b.lpcpMaxMessageSize x).cells copy = some x :=
    Local.put_cells_self ..
  obtain ⟨m₁, size₁, rfl⟩ : ∃ m₁ size₁, x = .message m₁ size₁ := by
    have := hnew.kind
    cases x <;> first | exact ⟨_, _, rfl⟩ | cases this
  refine solo_modifyMessage hx ?_
  intro _
  have hput : ∀ y, (g.allocate copy b.lpcpMaxMessageSize (.message m₁ size₁)).put copy (some y)
      = g.allocate copy b.lpcpMaxMessageSize y :=
    fun y => Local.eq_of (Function.update_idem ..) rfl rfl
  rw [hput]
  obtain ⟨r₁, hr₁⟩ := (P.allocate (k := b.lpcpMaxMessageSize) (x := .message
    (copyMemory b.lpcpMaxMessageSize M m₁) size₁) hnew.new).new
  refine solo_modifyRoutine hr₁ ?_
  intro _
  have P₂ := (P.allocate (k := b.lpcpMaxMessageSize) (x := .message
    (copyMemory b.lpcpMaxMessageSize M m₁) size₁) hnew.new).put { r₁ with lm := copy }
  obtain ⟨size₂, hm₂⟩ := P₂.buffer
  have hbytes : ListBytes _ (.message lm a) M a := ⟨⟨size₂, hm₂⟩, rfl⟩
  refine solo_rtlCaptureParameters hbytes ?_ ?_
  · intro hv c hc
    have P₃ := P₂.allocate (k := (readDword M a).toNat) (x := .parameters (readParameters M a))
      hc.new
    obtain ⟨r₃, hr₃⟩ := P₃.new
    have hne : c ≠ param := by
      rintro rfl
      have := hc.new
      rw [Local.put_cells_self] at this
      cases this
    refine solo_modifyRoutine hr₃ ?_
    intro _
    refine solo_started (P₃.put { r₃ with lpParameters := c }).started ?_
    refine ⟨_, Local.put_cells_self .., fun _ => ⟨hc.nonzero, ?_⟩, fun hno => absurd hv hno⟩
    rw [Local.put_cells_ne _ hne]
    exact Function.update_self ..
  · intro hv c _
    obtain ⟨r₃, hr₃⟩ := P₂.new
    refine solo_modifyRoutine (by exact hr₃) ?_
    intro _
    refine solo_started (by exact P₂.started) ?_
    exact ⟨_, Local.put_cells_self .., fun h => absurd h hv, fun _ => rfl⟩

/-! ## The iteration -/

/-- A worker that the iteration started has the list that was captured from the buffer, with
    the connection message `m` and the next message `m'` in it; the list of the service had
    been compared with the one in the buffer before `m'` came. -/
def Dispatched (p : ServiceRoutineParameter) (lm₀ : Nat → BYTE) (x : Local b × Taken b) : Prop :=
  ∀ param, .workerThread param ∈ x.1.log.started → ∃ m m', x.2 = ⟨[m], [m']⟩
    ∧ rtlEqualParameterType p (readParameters (deliver lm₀ m) (callparam m.image)) = true
    ∧ ∃ r, x.1.cells param = some (.routine r)
      ∧ Captured x.1.cells r.lpParameters
        (readParameters (deliver (deliver lm₀ m) m') (callparam m.image))

variable {T : Taken b} {lm₀ : Nat → BYTE}

/-- A program that takes no message. -/
theorem told_keep {q : Code b α} (hq : q.Only TakesNot) {f : α → Code b β}
    {Q : β → Local b × Taken b → Prop}
    (hw : wp (solo t n) (q >>= Prog.ret) (fun a g' => wp (told t n) (f a) Q (g', T)) g) :
    wp (told t n) (q >>= f) Q (g, T) := recording_keep add_takesNot hq hw

/-- A program whose operations do not matter. -/
theorem told_quiet {q : Code b α} (hq : q.Only Quiet) {f : α → Code b β}
    {Q : β → Local b × Taken b → Prop} (hf : ∀ a, wp (told t n) (f a) Q (g, T)) :
    wp (told t n) (q >>= f) Q (g, T) := by
  have takesNot : ∀ o, Quiet o → TakesNot o := by
    intro o ho
    cases o with
    | kernel o => cases o <;> trivial
    | _ => trivial
  exact told_keep (hq.mono takesNot) (solo_quiet.bind hq fun a => (wp_ret ..).mpr (hf a))

/-- A program that starts no thread. -/
theorem told_startsNot (hs : g.log.started = []) {q : Code b (Option Label)}
    (hq : q.Only StartsNot) : wp (told t n) q (fun _ => Dispatched p lm₀) (g, T) := by
  refine wp_invariant (I := fun x => x.1.log.started = []) hq (fun _ _ _ _ => trivial) ?_ hs ?_
  · rintro o x r y ho h ⟨⟨-, -, hlog⟩, -⟩
    rw [hlog, started_add (e := ⟨o, r⟩) ho, h]
  · intro _ x h param hmem
    rw [h] at hmem
    exact absurd hmem List.not_mem_nil

theorem takesNot_waitDispatch (a : Nat) :
    (waitDispatch lpService lm param a : Code b _).Only TakesNot := by
  have inner : ∀ {α : Type} {p : Code b α}, p.Only Inner → p.Only TakesNot :=
    fun hp => hp.mono fun _ => takesNot_of_inner
  refine Prog.only_op_bind.mpr ⟨trivial, fun copy => ?_⟩
  refine (inner (only_loadMessage.mpr trivial)).bind fun m => ?_
  refine (inner (only_modifyMessage.mpr ⟨trivial, fun _ => trivial⟩)).bind fun _ => ?_
  refine (inner (only_modifyRoutine.mpr ⟨trivial, fun _ => trivial⟩)).bind fun _ => ?_
  refine (inner (inner_rtlCaptureParameters _)).bind fun captured => ?_
  refine (inner (only_modifyRoutine.mpr ⟨trivial, fun _ => trivial⟩)).bind fun _ => ?_
  exact Prog.only_op_bind.mpr ⟨trivial, fun _ => trivial⟩

theorem told_waitReceive {m : Message b}
    (P : Preparing lpService lm r₀ p (deliver lm₀ m) param g)
    (heq : rtlEqualParameterType p (readParameters (deliver lm₀ m) (callparam m.image)) = true) :
    wp (told t n) (waitReceive lpService lm param (callparam m.image) : Code b _)
      (fun _ => Dispatched p lm₀) (g, ⟨[m], []⟩) := by
  rw [waitReceive]
  refine told_quiet (by simp [loadRoutine]) fun r => ?_
  refine recording_op (solo_kernel ?_)
  intro x k E
  have P₁ := P.kernel k x
  obtain ⟨size, hm⟩ := P₁.buffer
  cases E with
  | @received _ _ m' rest _ _ =>
      refine told_keep ((inner_receiveInto ..).mono fun _ => takesNot_of_inner) ?_
      refine solo_receiveInto hm (by simp) ?_
      rintro _ ⟨⟩
      refine (wp_ret ..).mpr ?_
      rw [if_pos (by rfl)]
      refine recording_end add_takesNot (takesNot_waitDispatch _) ?_
      refine wp_mono ?_ (solo_waitDispatch (P₁.deliver _ size) _)
      intro _ g' H param' hmem
      exact ⟨m, m', rfl, heq, H param' hmem⟩
  | @notReceived _ st hst =>
      refine told_keep ((inner_receiveInto ..).mono fun _ => takesNot_of_inner) ?_
      refine solo_receiveInto hm ?_ (by simp)
      intro _
      refine (wp_ret ..).mpr ?_
      rw [if_neg (by simpa using hst)]
      exact told_startsNot P₁.started startsNot_waitAbandon

theorem told_waitAccept {m : Message b}
    (P : Preparing lpService lm r₀ p (deliver lm₀ m) param g)
    (heq : rtlEqualParameterType p (readParameters (deliver lm₀ m) (callparam m.image)) = true) :
    wp (told t n) (waitAccept lpService lm param (callparam m.image) : Code b _)
      (fun _ => Dispatched p lm₀) (g, ⟨[m], []⟩) := by
  have inner : ∀ {α : Type} {p : Code b α}, p.Only Inner → p.Only TakesNot :=
    fun hp => hp.mono fun _ => takesNot_of_inner
  rw [waitAccept, acceptConnectPort, Prog.bind_assoc]
  refine told_quiet (by simp [loadMessage]) fun M => ?_
  rw [Prog.bind_assoc]
  refine told_keep (by simp) (solo_kernel ?_)
  intro x k E
  refine (wp_ret ..).mpr ?_
  have P₁ := P.kernel k x
  rw [Bool.and_true]
  by_cases hst : ntSuccess x.1 = true
  · rw [if_pos hst, Prog.bind_assoc]
    obtain ⟨r, hr⟩ := P₁.new
    refine told_keep (inner (only_modifyRoutine.mpr ⟨trivial, fun _ => trivial⟩))
      (solo_modifyRoutine hr ?_)
    intro _
    refine (wp_ret ..).mpr ?_
    have P₂ := P₁.put { r with hServerPort := x.2 }
    rw [Prog.pure_eq, Prog.bind_ret, if_pos hst]
    refine told_quiet (by simp [loadRoutine]) fun r' => ?_
    refine told_keep (by simp) (solo_kernel ?_)
    intro st k' E'
    refine (wp_ret ..).mpr ?_
    have P₃ := P₂.kernel (o := .ntCompleteConnectPort r'.hServerPort) k' st
    split
    · exact told_waitReceive P₃ heq
    · exact told_startsNot P₃.started startsNot_waitAbandon
  · rw [if_neg hst, Prog.pure_eq, Prog.bind_ret, if_neg hst]
    exact told_startsNot P₁.started startsNot_waitAbandon

theorem told_waitConnection {m : Message b} {size : Nat}
    (hr : g.cells lpService = some (.routine r₀))
    (hp : g.cells r₀.lpParameters = some (.parameters p))
    (hm : g.cells lm = some (.message (deliver lm₀ m) size)) (hs : g.log.started = []) :
    wp (told t n) (waitConnection lpService lm : Code b _) (fun _ => Dispatched p lm₀)
      (g, ⟨[m], []⟩) := by
  have inner : ∀ {α : Type} {p : Code b α}, p.Only Inner → p.Only TakesNot :=
    fun hp => hp.mono fun _ => takesNot_of_inner
  rw [waitConnection]
  refine told_quiet (by simp [loadRoutine]) fun r => ?_
  refine told_keep (inner (only_newRoutine.mpr ⟨trivial, fun _ => trivial⟩)) (solo_newRoutine ?_)
  intro param hnew
  refine (wp_ret ..).mpr ?_
  -- from here on there is a descriptor for the worker
  have P : Preparing lpService lm r₀ p (deliver lm₀ m) param
      (g.allocate param 1 (.routine r)) := by
    have hkeep : ∀ {c y}, g.cells c = some y → c ≠ param := by
      rintro c y hc rfl
      rw [hnew.new] at hc
      cases hc
    have hcells : ∀ {c y}, g.cells c = some y →
        (g.allocate param 1 (.routine r)).cells c = some y :=
      fun hc => (Function.update_of_ne (hkeep hc) ..).trans hc
    exact ⟨hcells hr, hcells hp, ⟨size, hcells hm⟩, ⟨r, Function.update_self ..⟩,
      (hkeep hr).symm, hs⟩
  obtain ⟨size₁, hm₁⟩ := P.buffer
  refine told_keep (by simp [loadMessage]) (solo_loadMessage hm₁ ?_)
  intro _
  refine (wp_ret ..).mpr ?_
  refine told_keep (by simp) (solo_kernel ?_)
  intro h k E
  refine (wp_ret ..).mpr ?_
  have P₁ := P.kernel (o := .openProcess ((clientId b (deliver lm₀ m)).uniqueProcess % 2 ^ 32))
    k h
  obtain ⟨r₁, hr₁⟩ := P₁.new
  refine told_keep (inner (only_modifyRoutine.mpr ⟨trivial, fun _ => trivial⟩))
    (solo_modifyRoutine hr₁ ?_)
  intro _
  refine (wp_ret ..).mpr ?_
  have P₂ := P₁.put { r₁ with hClientProcess := h }
  obtain ⟨size₂, hm₂⟩ := P₂.buffer
  refine told_keep (by simp [loadMessage]) (solo_loadMessage hm₂ ?_)
  intro _
  refine (wp_ret ..).mpr ?_
  refine told_keep (inner (inner_refused ..)) (solo_refused P₂.routine P₂.list hm₂ ?_)
  intro v hv
  refine (wp_ret ..).mpr ?_
  split
  · exact told_startsNot P₂.started startsNot_waitRefuse
  -- the types agreed, in the bytes that the message has now
  · next h =>
      have heq := hv (Bool.eq_false_iff.mpr h)
      rw [callparam_deliver] at heq ⊢
      exact told_waitAccept P₂ heq

theorem told_waitLoop {size : Nat} (hr : g.cells lpService = some (.routine r₀))
    (hp : g.cells r₀.lpParameters = some (.parameters p))
    (hm : g.cells lm = some (.message lm₀ size)) (hs : g.log.started = []) :
    wp (told t n) (waitLoop lpService lm : Code b _) (fun _ => Dispatched p lm₀) (g, .empty) := by
  rw [waitLoop]
  refine told_quiet (by simp) fun _ => ?_
  refine told_quiet (by simp [loadRoutine]) fun r => ?_
  refine recording_op (solo_kernel ?_)
  intro x k E
  have hs₁ : (g.log.add (b := b) ⟨.kernel (.ntListenPort r.hPort), x⟩).started = [] :=
    (started_add (b := b) (e := ⟨.kernel (.ntListenPort r.hPort), x⟩) trivial _).trans hs
  have hne : ∀ {a y}, g.cells a = some y → y.kind ≠ .message → a ≠ lm := by
    rintro a y ha hk rfl
    rw [hm] at ha
    obtain rfl := Option.some.inj ha
    exact hk rfl
  refine told_keep ((inner_receiveInto ..).mono fun _ => takesNot_of_inner) ?_
  cases E with
  | @listened _ _ _ m post rest _ _ _ _ =>
      refine solo_receiveInto (by exact hm) (by simp) ?_
      rintro _ ⟨⟩
      refine (wp_ret ..).mpr ?_
      rw [if_pos (by rfl)]
      have hkeep : ∀ (g' : Local b) y {a x}, g'.cells = g.cells → g.cells a = some x →
          x.kind ≠ .message → (g'.put lm y).cells a = some x := by
        intro g' y a x hc ha hk
        rw [Local.put_cells_ne _ (hne ha hk), hc, ha]
      exact told_waitConnection (hkeep _ _ rfl hr (by simp [Block.kind]))
        (hkeep _ _ rfl hp (by simp [Block.kind])) (Local.put_cells_self ..) hs₁
  | @notListened _ st hst =>
      refine solo_receiveInto (by exact hm) ?_ (by simp)
      intro _
      refine (wp_ret ..).mpr ?_
      rw [if_neg (by simpa using hst)]
      refine told_startsNot (by exact hs₁) ?_
      simp [waitExit, loadRoutine]

end Programs

/-! ## Check and use -/

/-- The list at `a` is there and has the type of `p`: as many entries, with the same masks in
    order. -/
structure Typed (cells : Blocks) (a : LPVOID) (p : ServiceRoutineParameter) : Prop where
  nonzero : a ≠ 0
  list    : ∃ q, cells a = some (.parameters q) ∧ q.dwParameters = p.dwParameters
    ∧ q.masks = p.masks

/-- What was captured has the type of `p` exactly when its masks are those of `p`. -/
theorem Captured.typed_iff {cells : Blocks} {a : LPVOID} {q p : ServiceRoutineParameter}
    (C : Captured cells a q) (hp : p.Valid) : Typed cells a p ↔ q.masks = p.masks := by
  constructor
  · intro T
    have hq : q.Valid := by
      by_contra hq
      exact T.nonzero (C.refused hq)
    obtain ⟨q', hq', -, hmasks⟩ := T.list
    obtain ⟨-, hcells⟩ := C.valid hq
    rw [hcells] at hq'
    obtain rfl : q = q' := by simpa using hq'
    exact hmasks
  · intro h
    obtain ⟨h0, hcells⟩ := C.valid (Valid.of_masks hp h.symm)
    exact ⟨h0, q, hcells, dwParameters_eq_of_masks h, h⟩

section Runs

variable {t n : Nat} {w w' : World b} {tr : Events b} {l : Option Label}
  {lpService lm param : LPVOID} {r₀ : ServiceRoutine} {p : ServiceRoutineParameter}
  {lm₀ : Nat → BYTE} {size : Nat}

/-- **WHAT WAS CHECKED IS WHAT IS CAPTURED** exactly when the message that was received over
    the connection message leaves the count and the masks of its list as they were. -/
theorem dispatch_typed (hr : w.heap.cells lpService = some (.routine r₀))
    (hp : w.heap.cells r₀.lpParameters = some (.parameters p)) (hv : p.Valid)
    (hm : w.heap.cells lm = some (.message lm₀ size))
    (hrun : (waitLoop lpService lm : Code b _).Runs (Alone t n) w tr l w')
    (hstart : .workerThread param ∈ (logOf tr).started) :
    ∃ m m' r, takenOf tr = ⟨[m], [m']⟩
      ∧ rtlEqualParameterType p (readParameters (deliver lm₀ m) (callparam m.image)) = true
      ∧ w'.heap.cells param = some (.routine r)
      ∧ (Typed w'.heap.cells r.lpParameters p
        ↔ KeepsType (deliver lm₀ m) (callparam m.image) m') := by
  obtain ⟨m, m', htaken, heq, r, hr', C⟩ :=
    solo_recorded (told_waitLoop (g := Local.of w []) hr hp hm rfl) hrun param hstart
  refine ⟨m, m', r, htaken, heq, hr', ?_⟩
  have htyped : Typed w'.heap.cells r.lpParameters p ↔ _ := C.typed_iff hv
  rw [htyped, keepsType_iff, rtlEqualParameterType_eq_true.mp heq]

end Runs

/-- The connection is accepted and the worker started, with its descriptor at 64. -/
def startsWorker (leftover : ServiceRoutineParameter) (k : Nat) : List (Choice .x64) :=
  takes ++ [.ok, .ok, .ok, .ok, .handle 12, .ok, .ok, .ok, .ok, .ok, .ok, .ok, .ok,
    .fresh 80 (.message (fun _ => 0) 624), .ok, .ok, .ok, .ok, .ok, .ok,
    .fresh 96 (.parameters leftover)] ++ List.replicate k .ok ++ [.thread 16 9]

/-- One qword. -/
def oneQword (v : ULONG64) : ServiceRoutineParameter := ⟨[⟨0x88, 0, v⟩]⟩

theorem oneQword_le (v : ULONG64) : (parameterBytes (oneQword v)).length ≤ 32 := by
  simp [parameterBytes, oneQword]

/-- A connection to a service with one qword, and after it the request with the list
    again: the count and the mask are the same, the value is another. -/
def rewrites : World .x64 :=
  let w := requested (oneQword 1) (parameterBytes (oneQword 1)) (oneQword_le 1)
  { w with lpc := w.lpc.enqueue 0 (.compose .x64 LPC_REQUEST ⟨7, 7⟩ 2
      (parameterBytes (oneQword 2)) (Message.small_fits (oneQword_le 2))) }

/-- A request that writes over the whole list keeps its type: what is captured is the
    second list. -/
theorem dispatch_typed_rewritten : ∃ (w' : World .x64) (tr : Events .x64) (l : Option Label)
    (r : ServiceRoutine),
    (waitLoop 16 48 : Code .x64 _).Runs (Alone 0 1) rewrites tr l w'
      ∧ w'.heap.cells 64 = some (.routine r) ∧ Typed w'.heap.cells r.lpParameters (oneQword 1)
      ∧ (w'.heap.cells 96).map asParameters = some (oneQword 2) := by
  have hrun : (perform 0 1 (waitLoop 16 48) (startsWorker ⟨[⟨0, 0, 0⟩]⟩ 7) rewrites).map
        (fun x => ((logOf x.1).started.map workerOf,
          ((takenOf x.1).listened.zip (takenOf x.1).received).map (fun y =>
            decide ((readParameters (deliver (deliver (fun _ => 0) y.1) y.2)
                (callparam y.1.image)).masks
              = (readParameters (deliver (fun _ => 0) y.1) (callparam y.1.image)).masks)),
          (x.2.2.heap.cells 96).map asParameters))
      = some ([some 64], [true], some (oneQword 2)) := by decide +kernel
  obtain ⟨⟨tr, l, w'⟩, hrun, he⟩ := Option.map_eq_some_iff.mp hrun
  simp only [Prod.mk.injEq] at he
  obtain ⟨hstarted, hmasks, hlist⟩ := he
  have hrun := perform_runs hrun
  obtain ⟨m, m', r, htaken, -, hr, hiff⟩ :=
    dispatch_typed rfl rfl (by decide) rfl hrun (mem_of_workerOf hstarted)
  refine ⟨w', tr, l, r, hrun, hr, hiff.mpr ?_, hlist⟩
  rw [htaken] at hmasks
  exact (keepsType_iff ..).mpr (of_decide_eq_true (List.singleton_injective hmasks))

/-- A request with the list of a pointer in it replaces the empty list that was checked. -/
theorem dispatch_retyped : ¬ ∀ (w w' : World .x64) (tr : Events .x64) (l : Option Label)
    (r₀ r : ServiceRoutine) (p : ServiceRoutineParameter) (lm₀ : Nat → BYTE),
    w.heap.cells 16 = some (.routine r₀) →
    w.heap.cells r₀.lpParameters = some (.parameters p) → p.Valid →
    w.heap.cells 48 = some (.message lm₀ 624) →
    (waitLoop 16 48 : Code .x64 _).Runs (Alone 0 1) w tr l w' →
    .workerThread 64 ∈ (logOf tr).started → w'.heap.cells 64 = some (.routine r) →
    Typed w'.heap.cells r.lpParameters p := by
  intro h
  have hrun : (perform 0 1 (waitLoop 16 48) (startsWorker ⟨[⟨0, 0, 0⟩]⟩ 7)
      (thenSends (parameterBytes (onePointer 1)) (by decide))).map
        (fun x => ((logOf x.1).started.map workerOf,
          (x.2.2.heap.cells 64).map fun y => (asRoutine y).lpParameters,
          (x.2.2.heap.cells 96).map fun y => (asParameters y).dwParameters))
      = some ([some 64], some 96, some 1) := by decide +kernel
  obtain ⟨⟨tr, l, w'⟩, hrun, he⟩ := Option.map_eq_some_iff.mp hrun
  simp only [Prod.mk.injEq] at he
  obtain ⟨hstarted, hroutine, hlist⟩ := he
  obtain ⟨y, hy, ha⟩ := Option.map_eq_some_iff.mp hroutine
  obtain ⟨r, rfl⟩ : ∃ r, y = .routine r := by
    cases y with
    | routine r => exact ⟨r, rfl⟩
    | _ => exact absurd (show (0 : LPVOID) = 96 from ha) (by decide)
  obtain ⟨-, q, hq, hcount, -⟩ := h _ w' tr l _ r ⟨[]⟩ _ rfl rfl (by decide) rfl
    (perform_runs hrun) (mem_of_workerOf hstarted) hy
  rw [show r.lpParameters = 96 from ha] at hq
  rw [hq] at hlist
  exact absurd ((Option.some.inj hlist).symm.trans hcount) (by decide)

end ScRetype
