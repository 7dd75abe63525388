import ServiceCall.IterationProofs
import ServiceCall.StringProofs

/-! # What a call leaves behind

    For a call that gets a worker, three handles are given out: the process of the
    client, the server port and the thread of the worker.  The worker closes two of
    them, and nobody closes the third (`call_releases`), whatever the other threads do
    meanwhile and however the mapping, the write back and the reply end.

    `tally` is the outline that keeps the log of one thread among others. -/

namespace ScRelease

open LinearMemory OwnedHeap OpProg ThreadSys ScParameter LpcMessage ScSystem
  ScServiceCall ScOwnership ScSequential ScString

variable {b : Build}

/-! ## The outline -/

/-- A connection that is accepted has a handle. -/
def Opens : Sigma (Op.Ret b) → Prop
  | ⟨.kernel (.ntAcceptConnectPort _ _ true), r⟩ => ntSuccess r.1 = true → r.2 ≠ 0
  | _ => True

theorem opens_of_among {t : Nat} {o : Op} {w w' : World b} {r : Op.Ret b o}
    (h : Among t o w r w') : Opens ⟨o, r⟩ := by
  obtain ⟨n, w₁, c, sp, hx⟩ := h
  cases o with
  | kernel o =>
      cases o with
      | ntAcceptConnectPort client id accept =>
          cases accept with
          | false => trivial
          | true =>
              obtain ⟨k, E, -, -⟩ := exec_kernel hx
              intro hst
              cases E with
              | accepted _ _ hnew => exact hnew.1
              | notAccepted hno => exact absurd (hno.symm.trans hst) Bool.false_ne_true
      | _ => trivial
  | _ => trivial

/-- The outline that keeps the log. -/
def tally : Outline Op (Op.Ret b) Log := .record Opens Log.add

/-! ## Handles and threads -/

/-- What a log says about handles and threads. -/
structure Handled where
  started : List Label
  granted : List HANDLE
  closed  : List (HANDLE × Bool)

def Log.handled (L : Log) : Handled := ⟨L.started, L.granted, L.closed⟩

/-- The operations that open or close no handle and start no thread. -/
@[simp] def Unhandled : Op → Prop
  | .createThread _ => False
  | .kernel o =>
      match o with
      | .ntCreatePort .. => False
      | .openProcess _ => False
      | .ntAcceptConnectPort _ _ true => False
      | .ntClose _ => False
      | .ntConnectPort .. => False
      | _ => True
  | _ => True

theorem handled_add {e : Sigma (Op.Ret b)} (he : Unhandled e.1) (L : Log) :
    Log.handled (L.add e) = Log.handled L := by
  unfold Log.add
  split <;> (try split) <;> first | rfl | exact he.elim

theorem unhandled_of_inner {o : Op} (ho : Inner o) : Unhandled o := by
  cases o with
  | kernel o => cases o <;> trivial
  | createThread _ => exact ho.elim
  | _ => trivial

theorem unhandled_of_silent {o : Op} (ho : Silent o) : Unhandled o := by
  cases o with
  | kernel o => cases o <;> trivial
  | createThread _ => exact ho.elim
  | _ => trivial

/-- The operations that start no thread. -/
@[simp] def StartsNot : Op → Prop
  | .createThread _ => False
  | _ => True

theorem started_add {e : Sigma (Op.Ret b)} (he : StartsNot e.1) (L : Log) :
    (L.add e).started = L.started := by
  have hgrant : ∀ (L : Log) (h : HANDLE), (L.grant h).started = L.started := by
    intro L h
    unfold Log.grant
    split <;> rfl
  unfold Log.add
  split <;> (try split) <;> first | rfl | exact hgrant .. | exact he.elim

section Programs

variable {α β : Type} {L : Log}

/-- A program that opens and closes nothing, then the rest. -/
theorem tally_unhandled {p : Code b α} (hp : p.Only Unhandled) {f : α → Code b β}
    {Q : β → Log → Prop}
    (hf : ∀ a L', Log.handled L' = Log.handled L → wp tally (f a) Q L') :
    wp tally (p >>= f) Q L := by
  rw [wp_bind]
  refine wp_invariant (I := fun L' => Log.handled L' = Log.handled L) hp
    (fun _ _ _ _ => trivial) ?_ rfl hf
  rintro o L₁ r _ ho h ⟨-, rfl⟩
  rw [handled_add (e := ⟨o, r⟩) ho, h]

theorem tally_inner {p : Code b α} (hp : p.Only Inner) {f : α → Code b β}
    {Q : β → Log → Prop}
    (hf : ∀ a L', Log.handled L' = Log.handled L → wp tally (f a) Q L') :
    wp tally (p >>= f) Q L :=
  tally_unhandled (hp.mono fun _ => unhandled_of_inner) hf

theorem tally_op {o : Op} {f : Op.Ret b o → Code b β} {Q : β → Log → Prop}
    (hf : ∀ r, Opens ⟨o, r⟩ → wp tally (f r) Q (L.add ⟨o, r⟩)) :
    wp tally (Prog.op o >>= f) Q L := by
  refine wp_op_bind.mpr ⟨trivial, ?_⟩
  rintro r _ ⟨hr, rfl⟩
  exact hf r hr

end Programs

/-! ## The handles of an iteration -/

/-- The iteration was given `k` handles, closed none and started no thread. -/
structure Holding (k : Nat) (L : Log) : Prop where
  started : L.started = []
  granted : L.granted.length = k
  closed  : L.closed = []

namespace Holding

variable {k : Nat} {L L' : Log}

theorem congr (H : Holding k L) (h : Log.handled L' = Log.handled L) : Holding k L' where
  started := (congrArg Handled.started h).trans H.started
  granted := (congrArg (fun x => x.granted.length) h).trans H.granted
  closed := (congrArg Handled.closed h).trans H.closed

/-- One more handle. -/
theorem grant (H : Holding k L) {h : HANDLE} (h0 : h ≠ 0) : Holding (k + 1) (L.grant h) := by
  rw [Log.grant_of_ne L h0]
  refine ⟨H.started, ?_, H.closed⟩
  rw [List.length_append, H.granted]
  rfl

end Holding

/-- An iteration that starts a thread was given three handles and closed none. -/
def Begun (L : Log) : Prop := L.started ≠ [] → L.granted.length = 3 ∧ L.closed = []

section Iteration

variable {k : Nat} {L : Log} {lpService lm param : LPVOID}

/-- A program that starts no thread. -/
theorem tally_startsNot (H : Holding k L) {p : Code b (Option Label)} (hp : p.Only StartsNot) :
    wp tally p (fun _ => Begun) L := by
  refine wp_invariant (I := fun L => L.started = []) hp (fun _ _ _ _ => trivial) ?_ H.started ?_
  · rintro o L r _ ho h ⟨-, rfl⟩
    rw [started_add (e := ⟨o, r⟩) ho, h]
  · intro _ L h hne
    exact absurd h hne

theorem startsNot_waitAbandon :
    (waitAbandon lpService lm param : Code b _).Only StartsNot := by
  simp [waitAbandon, loadRoutine]

theorem startsNot_waitRefuse :
    (waitRefuse lpService lm param : Code b _).Only StartsNot := by
  have hload : ∀ a, (loadRoutine a : Code b _).Only StartsNot := by simp [loadRoutine]
  refine Prog.Only.bind ?_ fun _ => (hload _).bind fun r => ?_
  · simp [acceptConnectPort, loadMessage]
  · split
    · exact (hload _).bind fun _ => by simp
    · simp

theorem tally_waitDispatch (H : Holding 2 L) (a : Nat) :
    wp tally (waitDispatch lpService lm param a : Code b _) (fun _ => Begun) L := by
  rw [waitDispatch]
  refine tally_inner (by simp) fun copy _ h₁ => ?_
  refine tally_inner (by simp) fun m _ h₂ => ?_
  refine tally_inner (by simp) fun _ _ h₃ => ?_
  refine tally_inner (by simp) fun _ _ h₄ => ?_
  refine tally_inner (by simp) fun captured _ h₅ => ?_
  refine tally_inner (by simp) fun _ L₆ h₆ => ?_
  have H₆ := (((((H.congr h₁).congr h₂).congr h₃).congr h₄).congr h₅).congr h₆
  refine tally_op ?_
  intro h _
  show Begun (Log.add (b := b) L₆ ⟨.createThread (.workerThread param), h⟩)
  by_cases h0 : h = (0 : Nat)
  · rw [show Log.add (b := b) L₆ ⟨.createThread (.workerThread param), h⟩ = L₆ from if_pos h0]
    exact fun hne => absurd H₆.started hne
  · rw [show Log.add (b := b) L₆ ⟨.createThread (.workerThread param), h⟩
      = (L₆.start (.workerThread param)).grant h from if_neg h0, Log.grant_of_ne _ h0]
    refine fun _ => ⟨?_, H₆.closed⟩
    show (L₆.granted ++ [h]).length = 3
    rw [List.length_append, H₆.granted]
    rfl

theorem tally_waitAccept (H : Holding 1 L) (a : Nat) :
    wp tally (waitAccept lpService lm param a : Code b _) (fun _ => Begun) L := by
  rw [waitAccept, acceptConnectPort, Prog.bind_assoc]
  refine tally_inner (by simp) fun m L₁ h₁ => ?_
  rw [Prog.bind_assoc]
  refine tally_op ?_
  intro x hx
  have hadd : Log.add (b := b) L₁ ⟨.kernel (.ntAcceptConnectPort (clientId b m) (messageId b m)
    true), x⟩ = if ntSuccess x.1 then (L₁.accept x.2).grant x.2 else L₁ := rfl
  rw [hadd]
  cases hst : ntSuccess x.1 with
  | false =>
      rw [if_neg Bool.false_ne_true, Bool.false_and, if_neg Bool.false_ne_true, Prog.pure_eq,
        Prog.bind_ret, hst, if_neg Bool.false_ne_true]
      exact tally_startsNot (H.congr h₁) startsNot_waitAbandon
  | true =>
      have H₂ : Holding 2 ((L₁.accept x.2).grant x.2) :=
        Holding.grant (L := L₁.accept x.2) ⟨(H.congr h₁).started, (H.congr h₁).granted,
          (H.congr h₁).closed⟩ (hx hst)
      rw [if_pos rfl, Bool.true_and, if_pos rfl, Prog.bind_assoc]
      refine tally_inner (by simp) fun _ L₃ h₃ => ?_
      rw [Prog.pure_eq, Prog.bind_ret, hst, if_pos rfl]
      refine tally_inner (by simp) fun r L₄ h₄ => ?_
      refine tally_inner (by simp) fun st L₅ h₅ => ?_
      have H₅ := ((H₂.congr h₃).congr h₄).congr h₅
      split
      · rw [waitReceive]
        refine tally_inner (by simp) fun _ L₆ h₆ => ?_
        refine tally_unhandled (by simp) fun x L₇ h₇ => ?_
        refine tally_inner (by simp) fun status L₈ h₈ => ?_
        have H₈ := ((H₅.congr h₆).congr h₇).congr h₈
        split
        · exact tally_waitDispatch H₈ a
        · exact tally_startsNot H₈ startsNot_waitAbandon
      · exact tally_startsNot H₅ startsNot_waitAbandon

theorem tally_waitConnection (H : Holding 0 L) :
    wp tally (waitConnection lpService lm : Code b _) (fun _ => Begun) L := by
  rw [waitConnection]
  refine tally_inner (by simp) fun r L₁ h₁ => ?_
  refine tally_inner (by simp) fun param L₂ h₂ => ?_
  refine tally_inner (by simp) fun m L₃ h₃ => ?_
  have H₃ := ((H.congr h₁).congr h₂).congr h₃
  refine tally_op ?_
  intro h _
  refine tally_inner (by simp) fun _ L₄ h₄ => ?_
  refine tally_inner (by simp) fun m' L₅ h₅ => ?_
  by_cases h0 : h = (0 : Nat)
  · -- a client that could not be opened is refused
    have hadd : Log.add (b := b) L₃ ⟨.kernel (.openProcess ((clientId b m).uniqueProcess % 2 ^ 32)),
        h⟩ = L₃ := if_pos h0
    rw [hadd] at h₄
    have H₅ := (H₃.congr h₄).congr h₅
    rw [h0, refused_zero]
    exact tally_startsNot H₅ startsNot_waitRefuse
  · have H₅ := ((H₃.grant h0).congr h₄).congr h₅
    refine tally_inner (by simp) fun v L₆ h₆ => ?_
    split
    · exact tally_startsNot (H₅.congr h₆) startsNot_waitRefuse
    · exact tally_waitAccept (H₅.congr h₆) _

theorem tally_waitLoop : wp tally (waitLoop lpService lm : Code b _) (fun _ => Begun) .empty := by
  have H : Holding 0 Log.empty := ⟨rfl, rfl, rfl⟩
  rw [waitLoop]
  refine tally_inner (by simp) fun _ L₁ h₁ => ?_
  refine tally_inner (by simp) fun r L₂ h₂ => ?_
  refine tally_unhandled (by simp) fun x L₃ h₃ => ?_
  refine tally_inner (by simp) fun status L₄ h₄ => ?_
  have H₄ := (((H.congr h₁).congr h₂).congr h₃).congr h₄
  split
  · exact tally_waitConnection H₄
  · refine tally_startsNot H₄ ?_
    simp [waitExit, loadRoutine]

end Iteration

/-! ## The handles of a worker -/

/-- The labels of a worker. -/
def IsWorker : Label → Prop
  | .workerThread _ => True
  | .routine .. => True
  | .workerReturn .. => True
  | _ => False

/-- A worker was given no handle, and has closed two of them when it ends. -/
def Working (granted : List HANDLE) (k : Nat) : Option Label → Log → Prop
  | some l, L => IsWorker l ∧ L.granted = granted ∧ L.closed.length = k
  | none, L => L.granted = granted ∧ L.closed.length = k + 2

section Worker

variable {granted : List HANDLE} {k : Nat} {L L' : Log} {lpService : LPVOID}

theorem Working.congr {l : Label} (W : Working granted k (some l) L)
    (h : Log.handled L' = Log.handled L) : Working granted k (some l) L' :=
  ⟨W.1, (congrArg Handled.granted h).trans W.2.1,
    (congrArg (fun x => x.closed.length) h).trans W.2.2⟩

/-- Another label of the worker. -/
theorem Working.goto {l l' : Label} (W : Working granted k (some l) L) (hl' : IsWorker l') :
    Working granted k (some l') L := ⟨hl', W.2⟩

/-- A handle is closed, or not. -/
theorem tally_close {h : HANDLE} {α : Type} {f : NTSTATUS → Code b α} {Q : α → Log → Prop}
    (hf : ∀ st, wp tally (f st) Q (L.close h (ntSuccess st))) :
    wp tally (ntClose h >>= f) Q L := tally_op fun st _ => hf st

theorem tally_workerFinish {l : Label} (W : Working granted k (some l) L) (dwThread : Nat) :
    wp tally (workerFinish lpService dwThread : Code b _) (Working granted k) L := by
  have silent : ∀ {α : Type} {p : Code b α}, p.Only Silent → p.Only Unhandled :=
    fun hp => hp.mono fun _ => unhandled_of_silent
  rw [workerFinish]
  refine tally_inner (by simp) fun n _ h₁ => ?_
  refine tally_inner (by simp) fun r _ h₂ => ?_
  refine tally_inner (by simp) fun _ _ h₃ => ?_
  refine tally_inner (by simp) fun r _ h₄ => ?_
  refine tally_inner (by simp) fun _ _ h₅ => ?_
  refine tally_inner (by simp) fun r _ h₆ => ?_
  refine tally_inner (by simp) fun m _ h₇ => ?_
  refine tally_inner (by simp) fun x _ h₈ => ?_
  refine tally_inner (by simp) fun _ _ h₉ => ?_
  have W := ((((((((W.congr h₁).congr h₂).congr h₃).congr h₄).congr h₅).congr h₆).congr
    h₇).congr h₈).congr h₉
  refine tally_unhandled (by simp) fun _ _ h₁ => ?_
  refine tally_unhandled (by simp) fun n _ h₂ => ?_
  refine tally_unhandled (silent (silent_eraseLoop ..)) fun _ _ h₃ => ?_
  refine tally_unhandled (by simp) fun _ _ h₄ => ?_
  refine tally_inner (by simp) fun r L₅ h₅ => ?_
  have W := ((((W.congr h₁).congr h₂).congr h₃).congr h₄).congr h₅
  -- the client and the server port are all it closes
  refine tally_close fun st => ?_
  refine tally_inner (by simp) fun r' L₆ h₆ => ?_
  have hclosed : ∀ {L L' : Log}, Log.handled L = Log.handled L' → L.closed.length
      = L'.closed.length := fun h => congrArg (fun x => x.closed.length) h
  have hgranted : ∀ {L L' : Log}, Log.handled L = Log.handled L' → L.granted = L'.granted :=
    fun h => congrArg Handled.granted h
  refine tally_close fun st' => ?_
  refine tally_unhandled (by simp [loadRoutine]) fun r L₇ h₇ => ?_
  refine tally_unhandled (by simp) fun _ L₈ h₈ => ?_
  refine tally_unhandled (by simp) fun _ L₉ h₉ => ?_
  refine tally_unhandled (by simp) fun _ L₁₀ h₁₀ => ?_
  constructor
  · rw [hgranted h₁₀, hgranted h₉, hgranted h₈, hgranted h₇]
    exact (hgranted h₆).trans W.2.1
  · rw [hclosed h₁₀, hclosed h₉, hclosed h₈, hclosed h₇]
    show (L₆.closed ++ [_]).length = k + 2
    rw [List.length_append, hclosed h₆]
    show (L₅.closed ++ [_]).length + 1 = k + 2
    rw [List.length_append, W.2.2]
    rfl

theorem tally_workerThread (W : Working granted k (some (.workerThread lpService)) L) :
    wp tally (workerThread lpService : Code b _) (Working granted k) L := by
  rw [workerThread]
  refine tally_unhandled (by simp) fun _ _ h₁ => ?_
  refine tally_inner (by simp) fun r _ h₂ => ?_
  refine tally_unhandled (by simp) fun dwThread _ h₃ => ?_
  refine tally_unhandled (by simp) fun _ _ h₄ => ?_
  refine tally_unhandled (by simp) fun _ _ h₅ => ?_
  refine tally_inner (by simp) fun _ _ h₆ => ?_
  refine tally_inner (by simp) fun r _ h₇ => ?_
  refine tally_inner (by simp) fun lpMappedParam _ h₈ => ?_
  have W := (((((((W.congr h₁).congr h₂).congr h₃).congr h₄).congr h₅).congr h₆).congr
    h₇).congr h₈
  split
  · refine tally_inner (by simp) fun _ _ h₉ => ?_
    exact tally_workerFinish (W.congr h₉) dwThread
  · refine tally_inner (by simp) fun r _ h₉ => ?_
    refine tally_inner (by simp) fun p _ h₁₀ => ?_
    refine tally_unhandled (by simp) fun _ _ h₁₁ => ?_
    exact (((W.congr h₉).congr h₁₀).congr h₁₁).goto trivial

theorem tally_routine {tmp : LPVOID} {dwThread : Nat} {bufs : List LPVOID}
    (W : Working granted k (some (.routine lpService tmp dwThread bufs)) L) :
    wp tally (routine lpService tmp dwThread bufs : Code b _) (Working granted k) L := by
  rw [routine]
  refine tally_unhandled (by simp) fun act _ h₁ => ?_
  have W := W.congr h₁
  cases act with
  | write i j v =>
      refine tally_inner (by simp) fun _ _ h₂ => ?_
      exact W.congr h₂
  | clientId =>
      refine tally_unhandled (silent_lookup.mono fun _ => unhandled_of_silent) fun x _ h₂ => ?_
      refine tally_unhandled (by simp) fun _ _ h₃ => ?_
      exact (W.congr h₂).congr h₃
  | ret status => exact W.goto trivial

theorem tally_workerReturn {tmp : LPVOID} {dwThread : Nat} {status : NTSTATUS}
    (W : Working granted k (some (.workerReturn lpService tmp dwThread status)) L) :
    wp tally (workerReturn lpService tmp dwThread status : Code b _) (Working granted k) L := by
  rw [workerReturn]
  refine tally_inner (by simp) fun _ _ h₁ => ?_
  refine tally_inner (by simp) fun r _ h₂ => ?_
  refine tally_inner (by simp) fun synced _ h₃ => ?_
  have W := ((W.congr h₁).congr h₂).congr h₃
  split
  · refine tally_inner (by simp) fun _ _ h₄ => ?_
    exact tally_workerFinish (W.congr h₄) dwThread
  · refine tally_inner (by simp) fun _ _ h₄ => ?_
    refine tally_inner (by simp) fun _ _ h₅ => ?_
    exact tally_workerFinish ((W.congr h₄).congr h₅) dwThread

/-- Whichever label the worker is at. -/
theorem tally_code {l : Label} (W : Working granted k (some l) L) :
    wp tally (code l : Code b _) (Working granted k) L := by
  cases l with
  | workerThread lpService => exact tally_workerThread W
  | routine lpService tmp dwThread bufs => exact tally_routine W
  | workerReturn lpService tmp dwThread status => exact tally_workerReturn W
  | waitThread lpService => exact W.1.elim
  | waitLoop lpService lm => exact W.1.elim
  | app calls => exact W.1.elim

end Worker

/-! ## Everything was acquired in vain -/

/-- Everything that was acquired was released, once. -/
structure ReleasedOnce (L : Log) : Prop where
  blocks  : L.deleted.Perm L.addresses
  handles : ((L.closed.filter Prod.snd).map Prod.fst).Perm L.granted

/-- Fewer handles were closed than given out. -/
theorem ReleasedOnce.length_le {L : Log} (R : ReleasedOnce L) :
    L.granted.length ≤ L.closed.length := by
  rw [← R.handles.length_eq, List.length_map]
  exact List.length_filter_le ..

/-- An iteration that starts a worker is given three handles, and the worker closes two. -/
theorem call_handled {t t₁ : Nat} {lpService lm param : LPVOID} {w w' v v' : World b}
    {tr tr₁ : Events b} {l : Option Label}
    (hrun : (waitLoop lpService lm : Code b _).Runs (Among t) w tr l w')
    (hstart : .workerThread param ∈ (logOf tr).started)
    (hwalk : Walks code (Among t₁) (some (.workerThread param)) v tr₁ none v') :
    (logOf (tr ++ tr₁)).granted.length = 3 ∧ (logOf (tr ++ tr₁)).closed.length = 2 := by
  obtain ⟨hgranted, hclosed⟩ : (logOf tr).granted.length = 3 ∧ (logOf tr).closed = [] :=
    record_sound (Q := fun _ => Begun) opens_of_among tally_waitLoop hrun
      (List.ne_nil_of_mem hstart)
  obtain ⟨L, W, rfl⟩ := walks_of_wp (O := tally) (F := fun _ tr L => L = logOf tr)
    (I := Working (logOf tr).granted 0) (fun hg _ hx => record_step (opens_of_among hx) hg)
    (fun _ _ => tally_code) tr (by exact ⟨trivial, rfl, by rw [hclosed]; rfl⟩) rfl hwalk
  exact ⟨by rw [W.1, hgranted], W.2⟩

/-- **A CALL LEAVES A HANDLE BEHIND**: where a worker was started and has ended, not
    everything that was acquired for the call was released. -/
theorem call_releases {t t₁ : Nat} {lpService lm param : LPVOID} {w w' v v' : World b}
    {tr tr₁ : Events b} {l : Option Label}
    (hrun : (waitLoop lpService lm : Code b _).Runs (Among t) w tr l w')
    (hstart : .workerThread param ∈ (logOf tr).started)
    (hwalk : Walks code (Among t₁) (some (.workerThread param)) v tr₁ none v') :
    ¬ ReleasedOnce (logOf (tr ++ tr₁)) := by
  intro R
  obtain ⟨hgranted, hclosed⟩ := call_handled hrun hstart hwalk
  have := R.length_le
  omega

/-! ## A call without parameters -/

/-- Carry out a thread from label to label, each with the choices of a list. -/
def travel (t n : Nat) : List (List (Choice b)) → Option Label → World b →
    Option (Events b × Option Label × World b)
  | [], l, w => some ([], l, w)
  | cs :: css, some l, w =>
      (perform t n (code l) cs w).bind fun x =>
        (travel t n css x.2.1 x.2.2).map fun y => (x.1 ++ y.1, y.2)
  | _ :: _, none, _ => none

/-- What is carried out is a walk. -/
theorem travel_walks {t n : Nat} {css : List (List (Choice b))} {l l' : Option Label}
    {w w' : World b} {tr : Events b} (h : travel t n css l w = some (tr, l', w')) :
    Walks code (Among t) l w tr l' w' := by
  induction css generalizing l w tr with
  | nil =>
      obtain ⟨rfl, he⟩ := Prod.mk.inj (Option.some.inj h)
      obtain ⟨rfl, rfl⟩ := Prod.mk.inj he
      exact .refl ..
  | cons cs css ih =>
      cases l with
      | none => cases h
      | some l =>
          obtain ⟨⟨tr₁, l₁, w₁⟩, hrun, h⟩ := Option.bind_eq_some_iff.mp h
          obtain ⟨⟨tr₂, l₂, w₂⟩, hrest, he⟩ := Option.map_eq_some_iff.mp h
          cases he
          exact .step ((perform_runs hrun).mono among_of_alone) (ih hrest)

/-- The descriptor of a worker that is about to start. -/
def workerOf : Label → Option LPVOID
  | .workerThread lpService => some lpService
  | _ => none

theorem mem_of_workerOf {ls : List Label} {a : LPVOID} (h : ls.map workerOf = [some a]) :
    .workerThread a ∈ ls := by
  obtain ⟨l, rfl, hl⟩ := List.map_eq_singleton_iff.mp h
  cases l with
  | workerThread lpService =>
      cases hl
      exact List.mem_singleton_self _
  | _ => cases hl

/-- The bytes of a list without parameters are few. -/
theorem emptyBytes_le : (parameterBytes ⟨[]⟩).length ≤ 32 := by decide

theorem noBytes_le : ([] : List BYTE).length ≤ 32 := Nat.zero_le 32

/-- A service without parameters that is about to take the connection of a client with an
    empty list, and the request with these data after it. -/
def thenSends (data : List BYTE) (h : data.length ≤ 32) : World .x64 :=
  let w := requested ⟨[]⟩ (parameterBytes ⟨[]⟩) emptyBytes_le
  { w with lpc := w.lpc.enqueue 0 (.compose .x64 LPC_REQUEST ⟨7, 7⟩ 2 data
      (Message.small_fits h)) }

/-- A connection to a service without parameters, and the request without data after it. -/
def calledOnce : World .x64 := thenSends [] noBytes_le

/-- The connection is accepted and the worker started, with its descriptor at 64. -/
def dispatchesCall : List (Choice .x64) :=
  takes ++ [.ok, .ok, .ok, .ok, .handle 12, .ok, .ok, .ok, .ok, .ok, .ok, .ok, .ok,
    .fresh 80 (.message (fun _ => 0) 624), .ok, .ok, .ok, .ok, .ok, .ok,
    .fresh 96 (.parameters ⟨[]⟩), .ok, .ok, .ok, .thread 16 9]

/-- The worker calls the routine, which returns at once, and everything succeeds. -/
def servesCall : List (List (Choice .x64)) :=
  [List.replicate 7 .ok ++ .fresh 112 (.parameters ⟨[]⟩) :: List.replicate 3 .ok,
    [.act (.ret STATUS_SUCCESS)],
    List.replicate 17 .ok ++ .reply STATUS_SUCCESS none :: List.replicate 13 .ok]

theorem call_performed : ∃ (tr tr₁ : Events .x64) (l : Option Label) (w' v' : World .x64),
    (waitLoop 16 48 : Code .x64 _).Runs (Among 0) calledOnce tr l w'
      ∧ .workerThread 64 ∈ (logOf tr).started
      ∧ Walks code (Among 1) (some (.workerThread 64)) w' tr₁ none v' := by
  have hrun : ((perform 0 1 (waitLoop 16 48) dispatchesCall calledOnce).bind fun x =>
      (travel 1 2 servesCall (some (.workerThread 64)) x.2.2).map fun y => (x, y)).map
        (fun z => ((logOf z.1.1).started.map workerOf, z.2.2.1.isSome))
      = some ([some 64], false) := by decide +kernel
  obtain ⟨⟨⟨tr, l, w'⟩, tr₁, l₁, v'⟩, hrun, he⟩ := Option.map_eq_some_iff.mp hrun
  obtain ⟨⟨tr, l, w'⟩, hwait, hrun⟩ := Option.bind_eq_some_iff.mp hrun
  obtain ⟨⟨tr₁, l₁, v'⟩, hwalk, he'⟩ := Option.map_eq_some_iff.mp hrun
  cases he'
  obtain ⟨hstarted, hl⟩ := Prod.mk.inj he
  obtain rfl : l₁ = none := by simpa using hl
  exact ⟨tr, tr₁, l, w', v', (perform_runs hwait).mono among_of_alone,
    mem_of_workerOf hstarted, travel_walks hwalk⟩

/-- Not even a call without parameters gives everything back. -/
theorem call_releases_empty : ∃ (tr tr₁ : Events .x64) (l : Option Label)
    (w' v' : World .x64), (waitLoop 16 48 : Code .x64 _).Runs (Among 0) calledOnce tr l w'
      ∧ Walks code (Among 1) (some (.workerThread 64)) w' tr₁ none v'
      ∧ ¬ ReleasedOnce (logOf (tr ++ tr₁)) := by
  obtain ⟨tr, tr₁, l, w', v', hrun, hstart, hwalk⟩ := call_performed
  exact ⟨tr, tr₁, l, w', v', hrun, hwalk, call_releases hrun hstart hwalk⟩

/-- A call that goes well is not released. -/
theorem call_leaks : ¬ ∀ (tr tr₁ : Events .x64) (l : Option Label) (w w' v' : World .x64),
    (waitLoop 16 48 : Code .x64 _).Runs (Among 0) w tr l w' →
    .workerThread 64 ∈ (logOf tr).started →
    Walks code (Among 1) (some (.workerThread 64)) w' tr₁ none v' →
    ReleasedOnce (logOf (tr ++ tr₁)) := by
  intro h
  obtain ⟨tr, tr₁, l, w', v', hrun, hstart, hwalk⟩ := call_performed
  have hle := (h tr tr₁ l _ w' v' hrun hstart hwalk).length_le
  obtain ⟨hgranted, hclosed⟩ := call_handled hrun hstart hwalk
  omega

end ScRelease
