import ServiceCall.SessionProofs

/-! # What the handles refer to

    A handle is a number.  That the right object is behind it, whenever the library
    uses it, is a matter of who opened it, who closes it and what the kernel may give
    out again in between.

    As long as no service is unregistered, every listener listens on its own port,
    every connection is accepted, every reply sent and every memory accessed through a
    handle that is open and was opened for it, and no handle is closed that somebody
    else has or that was closed before (`handles_proper`). -/

namespace ScHandle

open LinearMemory OwnedHeap OpProg ThreadSys ScParameter LpcMessage ScSystem
  ScServiceCall ScOwnership

variable {b : Build}

/-! ## The handles of all threads -/

/-- What a handle was opened for. -/
inductive Role where
  | port
  | process (pid : Nat)
  | server (client : ClientId)

/-- The object behind a handle is of the kind it was opened for, and of that client. -/
def Refers : Role → KObject → Prop
  | .port, .connectionPort _ => True
  | .process pid, .process pid' => pid' = pid
  | .server client, .communicationPort _ client' => client' = client
  | _, _ => False

/-- The process of a client, as the listener opens it. -/
def processOf (client : ClientId) : Nat := client.uniqueProcess % 2 ^ 32

namespace Session

/-- What a worker has a handle for. -/
def role (S : Session) (h : HANDLE) : Role :=
  if h = S.hClientProcess then .process (processOf S.client) else .server S.client

def held (S : Session) : List (HANDLE × Role) := S.left.map fun h => (h, S.role h)

end Session

/-- The handles a thread has at a stage, besides its port. -/
def heldAt (x : Option Session) : Stage b → List (HANDLE × Role)
  | .created h => [(h, .port)]
  | .opened m h => if h = 0 then [] else [(h, .process (processOf m.sender))]
  | .accepted m h h' => [(h, .process (processOf m.sender)), (h', .server m.sender)]
  | .received m h h' _ => [(h, .process (processOf m.sender)), (h', .server m.sender)]
  | .worker => (x.map Session.held).getD []
  | _ => []

/-- The handles a thread has. -/
def held (y : Ghost b × Option Session) : List (HANDLE × Role) :=
  (y.1.self.map fun s => (s.routine.hPort, Role.port)).toList ++ heldAt y.2 y.1.stage

/-- The stages outside `ScUnregisterServiceRoutine`. -/
def Unmarked : Stage b → Prop
  | .flagged _ => False
  | .read .. => False
  | .closed _ => False
  | _ => True

/-- The thread neither unregisters a service nor will. -/
structure Registers (g : Ghost b) : Prop where
  todo  : ∀ a, .unregister a ∉ g.todo
  stage : Unmarked g.stage

/-- The service is the one that the listener serves. -/
structure Matches (v : Service) (s : Served) : Prop where
  port       : v.hPort = s.routine.hPort
  routine    : v.lpRoutine = s.routine.lpRoutine
  parameters : v.lpParameters = s.parameters

/-- **EVERY HANDLE** that a thread has is open, for what it was opened, and nobody else
    has it. -/
structure Handles (w : World b) (ys : Nat → Ghost b × Option Session) : Prop where
  nonzero   : ∀ t, ∀ x ∈ held (ys t), x.1 ≠ 0
  refers    : ∀ t, ∀ x ∈ held (ys t), ∃ o, w.lpc.handles.lookup x.1 = some o ∧ Refers x.2 o
  apart     : ∀ t u, t ≠ u → ∀ x ∈ held (ys t), ∀ x' ∈ held (ys u), x.1 ≠ x'.1
  nodup     : ∀ t, ((held (ys t)).map Prod.fst).Nodup
  service   : ∀ t s, (ys t).1.self = some s → ∃ v, w.services t = some v
    ∧ Matches v s ∧ w.lpc.handles.lookup v.hPort = some (.connectionPort v.port)
  created   : ∀ t h, (ys t).1.stage = .created h → ∃ p, w.lpc.lastPort t = some (p, h)
    ∧ w.lpc.handles.lookup h = some (.connectionPort p)
  registers : ∀ t, Registers (ys t).1
  session   : ∀ t, (ys t).2 ≠ none → (ys t).1.stage = .worker

section Handles

variable {w w' : World b} {n t : Nat} {ys : Nat → Ghost b × Option Session}
  {y : Ghost b × Option Session} {o : Op} {c : Choice b} {r : Op.Ret b o} {sp : Option Label}

/-- A handle another thread has is not touched. -/
theorem Handles.others (H : Handles w ys) (hx : exec t n o c w = some (r, w', sp))
    (hclose : ∀ h, o = .kernel (.ntClose h) → h ≠ 0 → ∃ ρ, (h, ρ) ∈ held (ys t))
    {u : Nat} (hu : u ≠ t) {x : HANDLE × Role} (hmem : x ∈ held (ys u)) :
    w'.lpc.handles.lookup x.1 = w.lpc.handles.lookup x.1 := by
  obtain ⟨obj, hobj, -⟩ := H.refers u x hmem
  rcases exec_lookup hx x.1 with he | ⟨-, hnone, -⟩ | ⟨ho, -⟩
  · exact he
  · rw [hobj] at hnone
    cases hnone
  · obtain ⟨ρ, hρ⟩ := hclose _ ho (H.nonzero u x hmem)
    exact (H.apart u t hu x hmem (x.1, ρ) hρ rfl).elim

/-- A handle the thread has and does not close is not touched either. -/
theorem Handles.own (H : Handles w ys) (hx : exec t n o c w = some (r, w', sp))
    {x : HANDLE × Role} (hmem : x ∈ held (ys t)) (hne : o ≠ .kernel (.ntClose x.1)) :
    w'.lpc.handles.lookup x.1 = w.lpc.handles.lookup x.1 := by
  obtain ⟨obj, hobj, -⟩ := H.refers t x hmem
  rcases exec_lookup hx x.1 with he | ⟨-, hnone, -⟩ | ⟨ho, -⟩
  · exact he
  · rw [hobj] at hnone
    cases hnone
  · exact absurd ho hne

/-- A handle comes into being with an object of its role. -/
def Opened (w w' : World b) (x : HANDLE × Role) : Prop :=
  x.1 ≠ 0 ∧ w.lpc.handles.lookup x.1 = none
    ∧ ∃ o, w'.lpc.handles.lookup x.1 = some o ∧ Refers x.2 o

/-- The handles of one thread change, as handles may. -/
structure Changes (w w' : World b) (o : Op) (y y' : Ghost b × Option Session) : Prop where
  close : ∀ h, o = .kernel (.ntClose h) → h ≠ 0 → ∃ ρ, (h, ρ) ∈ held y
  gain  : ∀ x ∈ held y', (x ∈ held y ∧ o ≠ .kernel (.ntClose x.1)) ∨ Opened w w' x
  nodup : ((held y').map Prod.fst).Nodup

/-- What a new thread is given of the handles of the one that starts it. -/
structure Given (o : Op) (y y' z : Ghost b × Option Session) : Prop where
  own   : ∀ x ∈ held z, x ∈ held y ∧ o ≠ .kernel (.ntClose x.1)
  apart : ∀ x ∈ held z, ∀ x' ∈ held y', x.1 ≠ x'.1
  nodup : ((held z).map Prod.fst).Nodup

/-- Who has a handle after a step. -/
theorem mem_after {y' : Ghost b × Option Session} {gn : Option (Ghost b × Option Session)}
    {u : Nat} {x : HANDLE × Role} (h : x ∈ held (after ys t n y' gn u)) :
    (u ≠ t ∧ x ∈ held (ys u)) ∨ (u = t ∧ x ∈ held y') ∨ (u = n ∧ ∃ z ∈ gn, x ∈ held z) := by
  rcases after_cases ys t n y' gn u with ⟨hu, -, he⟩ | ⟨hu, he⟩ | ⟨hu, z, hz, he⟩ <;> rw [he] at h
  · exact Or.inl ⟨hu, h⟩
  · exact Or.inr (Or.inl ⟨hu, h⟩)
  · exact Or.inr (Or.inr ⟨hu, z, hz, h⟩)

/-- **A STEP** in which the handles of one thread change as they may keeps the handles of
    all threads open and apart. -/
theorem Handles.step (H : Handles w ys) (hx : exec t n o c w = some (r, w', sp))
    {y' : Ghost b × Option Session} {gn : Option (Ghost b × Option Session)}
    (C : Changes w w' o (ys t) y') (hgiven : ∀ z ∈ gn, Given o (ys t) y' z) :
    (∀ u, ∀ x ∈ held (after ys t n y' gn u),
        x.1 ≠ 0 ∧ ∃ obj, w'.lpc.handles.lookup x.1 = some obj ∧ Refers x.2 obj)
      ∧ (∀ u u', u ≠ u' → ∀ x ∈ held (after ys t n y' gn u),
        ∀ x' ∈ held (after ys t n y' gn u'), x.1 ≠ x'.1)
      ∧ ∀ u, ((held (after ys t n y' gn u)).map Prod.fst).Nodup := by
  -- a handle of another thread is not one of the handles of this one
  have other : ∀ {u x x'}, u ≠ t → x ∈ held (ys u) →
      x' ∈ held y' ∨ (∃ z ∈ gn, x' ∈ held z) → x.1 ≠ x'.1 := by
    intro u x x' hu hmem hx' heq
    have hold : x' ∈ held (ys t) → False := fun h => H.apart u t hu x hmem x' h heq
    rcases hx' with hx' | ⟨z, hz, hx'⟩
    · rcases C.gain x' hx' with ⟨h, -⟩ | ⟨-, hnone, -⟩
      · exact hold h
      · obtain ⟨obj, hobj, -⟩ := H.refers u x hmem
        rw [heq, hnone] at hobj
        cases hobj
    · exact hold ((hgiven z hz).own x' hx').1
  refine ⟨?_, ?_, ?_⟩
  · intro u x hmem
    have keep : ∀ {u'}, x ∈ held (ys u') →
        w'.lpc.handles.lookup x.1 = w.lpc.handles.lookup x.1 →
        x.1 ≠ 0 ∧ ∃ obj, w'.lpc.handles.lookup x.1 = some obj ∧ Refers x.2 obj := by
      intro u' h he
      rw [he]
      exact ⟨H.nonzero u' x h, H.refers u' x h⟩
    rcases mem_after hmem with ⟨hu, h⟩ | ⟨-, h⟩ | ⟨-, z, hz, h⟩
    · exact keep h (H.others hx C.close hu h)
    · rcases C.gain x h with ⟨h, hne⟩ | ⟨h0, -, h⟩
      · exact keep h (H.own hx h hne)
      · exact ⟨h0, h⟩
    · obtain ⟨h, hne⟩ := (hgiven z hz).own x h
      exact keep h (H.own hx h hne)
  · intro u u' huu x hmem x' hmem'
    rcases mem_after hmem with ⟨hu, h⟩ | ⟨hu, h⟩ | ⟨hu, z, hz, h⟩ <;>
      rcases mem_after hmem' with ⟨hu', h'⟩ | ⟨hu', h'⟩ | ⟨hu', z', hz', h'⟩
    · exact H.apart u u' huu x h x' h'
    · exact other hu h (Or.inl h')
    · exact other hu h (Or.inr ⟨z', hz', h'⟩)
    · exact (other hu' h' (Or.inl h)).symm
    · exact absurd (hu.trans hu'.symm) huu
    · exact ((hgiven z' hz').apart x' h' x h).symm
    · exact (other hu' h' (Or.inr ⟨z, hz, h⟩)).symm
    · exact (hgiven z hz).apart x h x' h'
    · exact absurd (hu.trans hu'.symm) huu
  · exact after_forall (P := fun _ z => ((held z).map Prod.fst).Nodup) (fun u _ => H.nodup u)
      C.nodup fun z hz => (hgiven z hz).nodup

end Handles

/-! ## What an operation does to them -/

/-- A handle that a kernel call gives out, with what it is for. -/
def Grant (o : KernelOp) (r : o.Ret b) (x : HANDLE × Role) : Prop :=
  match o, r with
  | .ntCreatePort .., r => ntSuccess r.1 = true ∧ x = (r.2, .port)
  | .openProcess pid, r => r ≠ (0 : Nat) ∧ x = (r, .process pid)
  | .ntAcceptConnectPort client _ true, r => ntSuccess r.1 = true ∧ x = (r.2, .server client)
  | _, _ => False

/-- It is new. -/
theorem Grant.opened {t : Nat} {k k' : Lpc b} {o : KernelOp} {r : o.Ret b}
    {x : HANDLE × Role} (hg : Grant o r x) (E : k.Effect t o r k') :
    x.1 ≠ 0 ∧ k.handles.lookup x.1 = none
      ∧ ∃ obj, k'.handles.lookup x.1 = some obj ∧ Refers x.2 obj := by
  have hself : ∀ {h : HANDLE} {obj : KObject}, (k.opened h obj).handles.lookup h = some obj := by
    intro h obj
    rw [Lpc.lookup_opened, if_pos rfl]
  cases E with
  | created hnew =>
      obtain ⟨-, rfl⟩ := hg
      exact ⟨hnew.1, hnew.2, _, hself, trivial⟩
  | notCreated hst =>
      rw [hg.1] at hst
      cases hst
  | openedProcess hnew =>
      obtain ⟨-, rfl⟩ := hg
      exact ⟨hnew.1, hnew.2, _, hself, rfl⟩
  | notOpened => exact absurd rfl hg.1
  | accepted hm hs hnew =>
      obtain ⟨-, rfl⟩ := hg
      exact ⟨hnew.1, hnew.2, _, hself, rfl⟩
  | @notAccepted client id accept st hst =>
      cases accept with
      | true =>
          rw [hg.1] at hst
          cases hst
      | false => exact hg.elim
  | _ => exact hg.elim

/-- The handles a thread has after a kernel call: some of those it had, and those that it
    was given out. -/
theorem heldAt_next {g : Ghost b} {x : Option Session} {o : KernelOp} {r : o.Ret b}
    (hpre : KernelPre o g) (hworker : g.stage = .worker → ∀ h, o ≠ .ntClose h) :
    ∃ new, (∀ z ∈ new, Grant o r z) ∧ new.length ≤ 1
      ∧ (heldAt x (g.stage.next o r)).Sublist (heldAt x g.stage ++ new)
      ∧ ∀ h, o = .ntClose h → ∀ z ∈ heldAt x (g.stage.next o r), z.1 ≠ h := by
  -- an operation that leaves the stage as it is
  have same : g.stage.next o r = g.stage → (∀ h, o ≠ .ntClose h) →
      ∃ new, (∀ z ∈ new, Grant o r z) ∧ new.length ≤ 1
        ∧ (heldAt x (g.stage.next o r)).Sublist (heldAt x g.stage ++ new)
        ∧ ∀ h, o = .ntClose h → ∀ z ∈ heldAt x (g.stage.next o r), z.1 ≠ h := by
    intro hs hne
    refine ⟨[], by simp, Nat.zero_le _, ?_, fun h ho => absurd ho (hne h)⟩
    rw [hs, List.append_nil]
  cases o with
  | ntCreatePort us m₁ m₂ =>
      rw [hpre.1]
      by_cases hr : ntSuccess r.1 = true
      · refine ⟨[(r.2, .port)], ?_, le_rfl, ?_, fun h ho => by cases ho⟩
        · rintro z hz
          exact ⟨hr, List.mem_singleton.mp hz⟩
        · rw [show Stage.next (b := b) .app (.ntCreatePort us m₁ m₂) r = .created r.2 from
            if_pos hr]
          exact List.Sublist.refl _
      · refine ⟨[], by simp, Nat.zero_le _, ?_, fun h ho => by cases ho⟩
        rw [show Stage.next (b := b) .app (.ntCreatePort us m₁ m₂) r = .app from if_neg hr]
        exact List.nil_sublist _
  | ntListenPort h =>
      refine ⟨[], by simp, Nat.zero_le _, ?_, fun h ho => by cases ho⟩
      rw [hpre.1]
      obtain ⟨st, m⟩ := r
      cases m <;> exact List.nil_sublist _
  | openProcess pid =>
      obtain ⟨m, hst, rfl⟩ := hpre
      rw [hst]
      by_cases h0 : r = (0 : Nat)
      · refine ⟨[], by simp, Nat.zero_le _, ?_, fun h ho => by cases ho⟩
        show (if r = 0 then [] else _ : List (HANDLE × Role)).Sublist _
        rw [if_pos h0]
        exact List.nil_sublist _
      · refine ⟨[(r, .process (processOf m.sender))], ?_, le_rfl, ?_, fun h ho => by cases ho⟩
        · rintro z hz
          exact ⟨h0, List.mem_singleton.mp hz⟩
        · show (if r = 0 then [] else _ : List (HANDLE × Role)).Sublist _
          rw [if_neg h0]
          exact List.Sublist.refl _
  | ntAcceptConnectPort client id accept =>
      obtain ⟨m, h, hst, rfl, -, hacc⟩ := hpre
      cases accept with
      | false => exact same (by rw [hst]; rfl) (by simp)
      | true =>
          by_cases hr : ntSuccess r.1 = true
          · rw [hst, show Stage.next (b := b) (.opened m h)
              (.ntAcceptConnectPort m.sender id true) r = .accepted m h r.2 from if_pos hr]
            refine ⟨[(r.2, .server m.sender)], ?_, le_rfl, ?_, fun h ho => by cases ho⟩
            · rintro z hz
              exact ⟨hr, List.mem_singleton.mp hz⟩
            · show List.Sublist _ ((if h = 0 then [] else _) ++ _)
              rw [if_neg (hacc rfl).1]
              exact List.Sublist.refl _
          · exact same (by rw [hst]; exact if_neg hr) (by simp)
  | ntReplyWaitReceivePort h' =>
      obtain ⟨m, h, hst⟩ := hpre
      refine ⟨[], by simp, Nat.zero_le _, ?_, fun h ho => by cases ho⟩
      rw [hst, List.append_nil]
      obtain ⟨st, m'⟩ := r
      cases m' <;> exact List.Sublist.refl _
  | ntClose h =>
      -- who closes the handle of its stage has none left
      have gone : heldAt x (g.stage.next (.ntClose h) r) = [] →
          ∃ new, (∀ z ∈ new, Grant (.ntClose h) r z) ∧ new.length ≤ 1
            ∧ (heldAt x (g.stage.next (.ntClose h) r)).Sublist (heldAt x g.stage ++ new)
            ∧ ∀ h₁, KernelOp.ntClose h = .ntClose h₁ →
              ∀ z ∈ heldAt x (g.stage.next (.ntClose h) r), z.1 ≠ h₁ := by
        intro he
        rw [he]
        exact ⟨[], by simp, Nat.zero_le _, List.nil_sublist _, by simp⟩
      rcases hpre with ⟨m, hst⟩ | ⟨m, h', hst⟩ | ⟨a, hst | ⟨hst, -⟩⟩ | hst | hst
      · exact gone (by rw [hst]; rfl)
      · exact gone (by rw [hst]; rfl)
      · exact gone (by rw [hst]; rfl)
      · exact gone (by rw [hst]; rfl)
      · exact gone (by rw [hst]; rfl)
      · exact absurd rfl (hworker hst h)
  | _ => exact same (by cases g.stage <;> rfl) (by simp)

section Operations

variable {w w' : World b} {n t : Nat} {ys : Nat → Ghost b × Option Session}
  {y' : Ghost b × Option Session} {c : Choice b} {sp : Option Label}

theorem mem_held {y : Ghost b × Option Session} {x : HANDLE × Role} : x ∈ held y ↔
    (∃ s, y.1.self = some s ∧ x = (s.routine.hPort, .port)) ∨ x ∈ heldAt y.2 y.1.stage := by
  rw [held, List.mem_append, Option.mem_toList, Option.map_eq_some_iff]
  refine or_congr_left ⟨?_, ?_⟩
  · rintro ⟨s, hs, rfl⟩
    exact ⟨s, hs, rfl⟩
  · rintro ⟨s, hs, rfl⟩
    exact ⟨s, hs, rfl⟩

/-- The handle that is closed is one the thread has besides its port. -/
theorem closes_own {h : HANDLE} (hreg : Registers (ys t).1) (h0 : h ≠ 0)
    (hpre : (outline b).pre (.kernel (.ntClose h)) (ys t)) :
    ∃ ρ, (h, ρ) ∈ heldAt (ys t).2 (ys t).1.stage := by
  obtain ⟨hpre, hguard⟩ := hpre
  have hpre : KernelPre (.ntClose h) (ys t).1 := hpre
  have hstage := hreg.stage
  rcases hpre with ⟨m, hst⟩ | ⟨m, h', hst⟩ | ⟨a, hst | ⟨hst, -⟩⟩ | hst | hst
  · refine ⟨.process (processOf m.sender), ?_⟩
    rw [hst, heldAt, if_neg h0]
    exact List.mem_singleton_self _
  · rw [hst]
    exact ⟨_, List.mem_cons_self⟩
  · rw [hst] at hstage
    exact hstage.elim
  · rw [hst] at hstage
    exact hstage.elim
  · rw [hst]
    exact ⟨_, List.mem_singleton_self _⟩
  · obtain ⟨S, hS, hleft⟩ := hguard hst
    rw [hst, hS]
    exact ⟨S.role h, List.mem_map.mpr ⟨h, hleft, rfl⟩⟩

/-- What is left of a session when a handle is closed. -/
theorem heldAt_closeOne {S : Session} {h : HANDLE} {r : NTSTATUS} :
    heldAt (closeOne (b := b) (some S) ⟨.kernel (.ntClose h), r⟩) (.worker : Stage b)
      = S.held.filter (·.1 ≠ h) := by
  show ((S.left.filter (· ≠ h)).map fun h' => (h', S.role h')) = _
  rw [Session.held, List.filter_map]
  rfl

/-- What a thread has besides its port after a kernel call. -/
theorem kernel_held {o : KernelOp} {r : o.Ret b}
    (hpre : (outline b).pre (.kernel o) (ys t))
    (hpost : (outline b).post (.kernel o) (ys t) r y') :
    ∃ new, (∀ z ∈ new, Grant o r z) ∧ new.length ≤ 1
      ∧ (heldAt y'.2 y'.1.stage).Sublist (heldAt (ys t).2 (ys t).1.stage ++ new)
      ∧ ∀ h, o = .ntClose h → ∀ z ∈ heldAt y'.2 y'.1.stage, z.1 ≠ h := by
  obtain ⟨hpost, hy'⟩ := hpost
  have hpost : Post (.kernel o) (ys t).1 r y'.1 := hpost
  have hstage : y'.1.stage = (ys t).1.stage.next o r := hpost.fields.2.1
  by_cases hw : (ys t).1.stage = .worker ∧ ∃ h, o = .ntClose h
  · -- a worker closes one of its two handles
    obtain ⟨hst, h, rfl⟩ := hw
    obtain ⟨S, hS, -⟩ := hpre.2 hst
    have hnext : y'.1.stage = .worker := by
      rw [hstage, hst]
      rfl
    have hheld : heldAt y'.2 y'.1.stage = S.held.filter (·.1 ≠ h) := by
      rw [hnext, hy', hS]
      exact heldAt_closeOne
    refine ⟨[], by simp, Nat.zero_le _, ?_, ?_⟩
    · rw [hheld, hst, hS, List.append_nil]
      exact List.filter_sublist
    · rintro h' ho z hz
      obtain rfl := KernelOp.ntClose.inj ho
      rw [hheld] at hz
      simpa using (List.mem_filter.mp hz).2
  · have hx : y'.2 = (ys t).2 ∨ ∀ x x' : Option Session,
        heldAt x (y'.1.stage) = heldAt x' y'.1.stage := by
      by_cases hst : (ys t).1.stage = .worker
      · refine Or.inl (hy'.trans ?_)
        unfold closeOne
        split
        · next h _ he =>
            obtain rfl : o = .ntClose h := by
              cases he
              rfl
            exact absurd ⟨hst, h, rfl⟩ hw
        · rfl
      · refine Or.inr ?_
        intro x x'
        have hne : y'.1.stage ≠ .worker := by
          rw [hpost.fields.2.1]
          exact fun h => hst (Stage.after_final (Or.inl rfl) h)
        cases hs : y'.1.stage with
        | worker => exact absurd hs hne
        | _ => rfl
    have hnext : heldAt y'.2 y'.1.stage = heldAt (ys t).2 ((ys t).1.stage.next o r) := by
      rw [hstage] at hx ⊢
      rcases hx with hx | hx
      · rw [hx]
      · exact hx ..
    rw [hnext]
    exact heldAt_next hpre.1 fun hst h ho => hw ⟨hst, h, ho⟩

/-- The port of a listener is none of the handles it has of a client. -/
theorem port_apart {y : Ghost b × Option Session} (hnodup : ((held y).map Prod.fst).Nodup)
    {s : Served} (hself : y.1.self = some s) {x : HANDLE × Role} (hx : x ∈ heldAt y.2 y.1.stage) :
    s.routine.hPort ≠ x.1 := by
  rw [held, hself, List.map_append, List.nodup_append] at hnodup
  exact hnodup.2.2 _ List.mem_cons_self _ (List.mem_map_of_mem hx)

/-- A kernel call changes the handles of the thread that makes it, as handles may. -/
theorem Handles.kernel (H : Handles w ys) {o : KernelOp} {r : o.Ret b}
    (hpre : (outline b).pre (.kernel o) (ys t))
    (hpost : (outline b).post (.kernel o) (ys t) r y')
    (hx : exec t n (.kernel o) c w = some (r, w', sp)) :
    Changes w w' (.kernel o) (ys t) y' := by
  obtain ⟨new, hnew, hlen, hsub, hgone⟩ := kernel_held hpre hpost
  obtain ⟨k, E, rfl, -⟩ := exec_kernel hx
  have hpost : Post (.kernel o) (ys t).1 r y'.1 := hpost.1
  have hself : y'.1.self = (ys t).1.self := hpost.fields.1
  have hheld : (held y').Sublist (held (ys t) ++ new) := by
    rw [held, held, hself, List.append_assoc]
    exact (List.Sublist.refl _).append hsub
  have closes : ∀ h, o = .ntClose h → h ≠ 0 → ∃ ρ, (h, ρ) ∈ heldAt (ys t).2 (ys t).1.stage := by
    rintro h rfl h0
    exact closes_own (H.registers t) h0 hpre
  refine ⟨?_, ?_, ?_⟩
  · intro h ho h0
    obtain ⟨ρ, hρ⟩ := closes h (Op.kernel.inj ho) h0
    exact ⟨ρ, mem_held.mpr (Or.inr hρ)⟩
  · intro x hmem
    rcases List.mem_append.mp (hheld.mem hmem) with hold | hx'
    · refine Or.inl ⟨hold, ?_⟩
      intro ho
      have ho : o = .ntClose x.1 := Op.kernel.inj ho
      rcases mem_held.mp hmem with ⟨s, hs, rfl⟩ | hat
      · -- the port of a listener is not what it closes
        obtain ⟨ρ, hρ⟩ := closes _ ho (H.nonzero t _ hold)
        exact port_apart (H.nodup t) (hself ▸ hs) hρ rfl
      · exact hgone _ ho x hat rfl
    · exact Or.inr ((hnew x hx').opened E)
  · refine (hheld.map Prod.fst).nodup ?_
    rw [List.map_append, List.nodup_append]
    refine ⟨H.nodup t, ?_, ?_⟩
    · cases new with
      | nil => exact List.nodup_nil
      | cons z l =>
          obtain rfl := List.length_eq_zero_iff.mp (Nat.le_zero.mp (Nat.le_of_succ_le_succ hlen))
          exact List.nodup_singleton _
    · intro a ha a' ha' heq
      obtain ⟨x, hx', rfl⟩ := List.mem_map.mp ha
      obtain ⟨z, hz, rfl⟩ := List.mem_map.mp ha'
      obtain ⟨obj, hobj, -⟩ := H.refers t x hx'
      have hnone : w.lpc.handles.lookup z.1 = none := ((hnew z hz).opened E).2.1
      rw [heq, hnone] at hobj
      cases hobj

end Operations

/-! ## Stages that go on -/

/-- The operations that start no thread and are no kernel calls. -/
def Local : Op → Prop
  | .kernel _ => False
  | .createThread _ => False
  | _ => True

section Stages

variable {o : Op} {g g' : Ghost b} {r : Op.Ret b o} {x : Option Session}

/-- A worker stays a worker. -/
theorem worker_stays (hpre : Pre o g) (hst : g.stage = .worker) :
    Stage.after g o r = .worker := by
  cases o with
  | heap o =>
      show g.stage.seen g.own o r = .worker
      rw [hst]
      cases o <;> rfl
  | kernel o =>
      show g.stage.next o r = .worker
      rw [hst]
      cases o <;> rfl
  | id o => exact hst
  | api o =>
      cases o with
      | note z =>
          cases z with
          | returned call status =>
              have hstage := hpre.2
              rw [hst] at hstage
              cases call <;> simp at hstage
          | _ => exact hst
      | _ => exact hst
  | loadCloseEvent a =>
      have hstage := hpre.1
      rw [hst] at hstage
      cases hstage
  | setCloseEvent a =>
      have hstage := hpre.1
      rw [hst] at hstage
      cases hstage
  | createThread l =>
      cases l with
      | workerThread param =>
          obtain ⟨⟨s, m, h, h', m', lm, r, copy, size, -, hstage, -⟩, -⟩ := hpre
          rw [hst] at hstage
          cases hstage
      | waitThread d =>
          obtain ⟨-, h, lpRoutine, a, p, hstage, -⟩ := hpre
          rw [hst] at hstage
          cases hstage
      | _ => exact hpre.elim

/-- It closes no handle. -/
theorem closeOne_local (ho : Local o) : closeOne x ⟨o, r⟩ = x := by
  cases o with
  | kernel o => exact ho.elim
  | _ => rfl

/-- A local operation leaves the handles of a thread as they are. -/
theorem heldAt_local (ho : Local o) (hpre : Pre o g) :
    heldAt x (Stage.after g o r) = heldAt x g.stage := by
  cases o with
  | heap o =>
      show heldAt x (g.stage.seen g.own o r) = _
      unfold Stage.seen
      split
      · split
        · next hs =>
            rw [hs]
            split <;> rfl
        · rfl
      · rfl
  | kernel o => exact ho.elim
  | id o => rfl
  | api o =>
      cases o with
      | note z =>
          cases z with
          | returned call status =>
              have hstage : g.stage = .app ∨ ∃ a, g.stage = .closed a := by
                cases call with
                | unregister a =>
                    rcases hpre.2 with h | ⟨h, -⟩
                    · exact Or.inr ⟨a, h⟩
                    · exact Or.inl h
                | _ => exact Or.inl hpre.2
              rcases hstage with h | ⟨a, h⟩ <;>
                · rw [h]
                  rfl
          | _ => rfl
      | _ => rfl
  | loadCloseEvent a =>
      rw [show g.stage = .idle from hpre.1]
      show heldAt x (if r then .leaving else g.stage) = _
      rw [show g.stage = .idle from hpre.1]
      cases r <;> rfl
  | setCloseEvent a =>
      rw [show g.stage = .app from hpre.1]
      rfl
  | createThread l => exact ho.elim

/-- Only `ScUnregisterServiceRoutine` gets into these stages. -/
theorem Unmarked.after (hg : Unmarked g.stage) (hset : ∀ a, o ≠ .setCloseEvent a) :
    Unmarked (Stage.after g o r) := by
  cases o with
  | heap o =>
      show Unmarked (g.stage.seen g.own o r)
      unfold Stage.seen
      split
      · split
        · next hs =>
            rw [hs] at hg
            exact hg.elim
        · exact hg
      · exact hg
  | kernel o =>
      show Unmarked (g.stage.next o r)
      generalize g.stage = st at hg
      unfold Stage.next
      split <;> first | exact trivial | exact hg.elim | exact hg | (split <;> exact trivial)
  | id o => exact hg
  | api o =>
      cases o with
      | note z =>
          cases z with
          | returned call status => exact trivial
          | _ => exact hg
      | _ => exact hg
  | loadCloseEvent a =>
      cases r with
      | true => exact trivial
      | false => exact hg
  | setCloseEvent a => exact absurd rfl (hset a)
  | createThread l =>
      cases l with
      | workerThread param => exact trivial
      | _ =>
          show Unmarked (if r = 0 then g.stage else .app)
          split
          · exact hg
          · exact trivial

/-- Who registers services only goes on doing so. -/
theorem Registers.after (hg : Registers g) (hpre : Pre o g) (hpost : Post o g r g') :
    Registers g' := by
  obtain ⟨-, hstage, htodo, -⟩ := hpost.fields
  refine ⟨?_, ?_⟩
  · intro a ha
    rw [htodo] at ha
    refine hg.todo a ?_
    unfold todoAfter at ha
    split at ha
    · exact List.mem_of_mem_tail ha
    · exact ha
  · rw [hstage]
    refine hg.stage.after ?_
    rintro a rfl
    exact hg.todo a (List.mem_of_mem_head? hpre.2)

/-- A new thread calls nothing. -/
theorem Registers.born (l : Label) (g : Ghost b) : Registers (ScOwnership.born l g) := by
  refine ⟨fun a ha => (List.not_mem_nil ha).elim, ?_⟩
  cases l <;> exact trivial

end Stages

/-! ## The ports of the threads -/

section Ports

variable {w w' : World b} {n t : Nat} {o : Op} {c : Choice b} {r : Op.Ret b o}
  {sp : Option Label} {g : Ghost b}

/-- Only creating and closing changes the port that a thread has created last. -/
theorem effect_lastPort {k k' : Lpc b} {o : KernelOp} {r : o.Ret b} (E : k.Effect t o r k') :
    (∀ u, u ≠ t → k'.lastPort u = k.lastPort u)
      ∧ (k'.lastPort t = k.lastPort t ∨ (∃ h, o = .ntClose h)
        ∨ ∃ us m₁ m₂, o = .ntCreatePort us m₁ m₂) := by
  cases E with
  | @created us m₁ m₂ h hnew =>
      exact ⟨fun u hu => Function.update_of_ne hu .., Or.inr (Or.inr ⟨us, m₁, m₂, rfl⟩)⟩
  | @closed h obj hl =>
      refine ⟨?_, Or.inr (Or.inl ⟨h, rfl⟩)⟩
      intro u hu
      cases obj <;> exact Function.update_of_ne hu ..
  | _ => exact ⟨fun u hu => rfl, Or.inl rfl⟩

/-- A thread creates ports for itself. -/
theorem exec_lastPort (hx : exec t n o c w = some (r, w', sp)) {u : Nat} (hu : u ≠ t) :
    w'.lpc.lastPort u = w.lpc.lastPort u := by
  cases o with
  | heap o =>
      obtain ⟨h, -, rfl, -⟩ := exec_heap hx
      rfl
  | kernel o =>
      obtain ⟨k, E, rfl, -⟩ := exec_kernel hx
      exact (effect_lastPort E).1 u hu
  | id o =>
      obtain ⟨s, -, rfl, -⟩ := exec_id hx
      rfl
  | api o =>
      obtain ⟨⟨a, m, rfl⟩, -⟩ := exec_api hx
      rfl
  | loadCloseEvent a =>
      obtain ⟨-, -, ⟨d, -, -, rfl⟩ | ⟨-, rfl⟩⟩ := exec_loadCloseEvent hx <;> rfl
  | setCloseEvent a =>
      obtain ⟨-, -, ⟨d, -, rfl⟩ | ⟨-, rfl⟩⟩ := exec_setCloseEvent hx <;> rfl
  | createThread l =>
      rcases exec_createThread hx with ⟨-, rfl, -⟩ | ⟨tid, -, -, -, rfl⟩
      · rfl
      · exact Function.update_of_ne hu ..

/-- A thread has a port of its own only from creating to closing it. -/
theorem next_created {s : Stage b} {o : KernelOp} {r : o.Ret b} {h : HANDLE}
    (hs : s.next o r = .created h) :
    (s = .created h ∧ ∀ h', o ≠ .ntClose h') ∨ ∃ us m₁ m₂, o = .ntCreatePort us m₁ m₂ := by
  cases o with
  | ntCreatePort us m₁ m₂ => exact Or.inr ⟨us, m₁, m₂, rfl⟩
  | ntClose h' => cases s <;> cases hs
  | _ =>
      refine Or.inl ⟨?_, by simp⟩
      unfold Stage.next at hs
      split at hs <;> first | contradiction | exact hs | (split at hs <;> cases hs)

/-- Who has created a port has just done so, or had it before and has it still. -/
theorem exec_created (hx : exec t n o c w = some (r, w', sp)) (hpre : Pre o g) {h : HANDLE}
    (hst : Stage.after g o r = .created h) :
    (g.stage = .created h ∧ w'.lpc.lastPort t = w.lpc.lastPort t) ∨
      ∃ p, w'.lpc.lastPort t = some (p, h)
        ∧ w'.lpc.handles.lookup h = some (.connectionPort p) := by
  cases o with
  | heap o =>
      obtain ⟨h', -, rfl, -⟩ := exec_heap hx
      refine Or.inl ⟨?_, rfl⟩
      have hst : g.stage.seen g.own o r = .created h := hst
      unfold Stage.seen at hst
      split at hst
      · split at hst
        · split at hst <;> cases hst
        · exact hst
      · exact hst
  | kernel o =>
      obtain ⟨k, E, rfl, -⟩ := exec_kernel hx
      have hst : g.stage.next o r = .created h := hst
      rcases next_created hst with ⟨hs, hne⟩ | ⟨us, m₁, m₂, rfl⟩
      · rcases (effect_lastPort E).2 with he | ⟨h', rfl⟩ | ⟨us, m₁, m₂, rfl⟩
        · exact Or.inl ⟨hs, he⟩
        · exact absurd rfl (hne h')
        · rw [show g.stage = .app from hpre.1] at hs
          cases hs
      -- the port is new, and so is its handle
      · rw [show g.stage = .app from hpre.1] at hst
        have hst : (if ntSuccess r.1 then Stage.created r.2 else .app) = .created h := hst
        split at hst
        · next hr =>
            obtain rfl := Stage.created.inj hst
            cases E with
            | @created us m₁ m₂ h hnew =>
                refine Or.inr ⟨w.lpc.ports, Function.update_self .., ?_⟩
                exact (w.lpc.lookup_opened h h _).trans (if_pos rfl)
            | notCreated hfail =>
                rw [hfail] at hr
                cases hr
        · cases hst
  | id o =>
      obtain ⟨s, -, rfl, -⟩ := exec_id hx
      exact Or.inl ⟨hst, rfl⟩
  | api o =>
      obtain ⟨⟨a, m, rfl⟩, -⟩ := exec_api hx
      refine Or.inl ⟨?_, rfl⟩
      cases o with
      | note z =>
          cases z with
          | returned call status => cases hst
          | _ => exact hst
      | _ => exact hst
  | loadCloseEvent a =>
      have hst : (if r then Stage.leaving else g.stage) = .created h := hst
      rw [show g.stage = .idle from hpre.1] at hst
      cases r <;> cases hst
  | setCloseEvent a => cases hst
  | createThread l =>
      have hstage : r = 0 ∧ g.stage = .created h := by
        cases l with
        | workerThread param => cases hst
        | _ =>
            have hst : (if r = 0 then g.stage else .app) = .created h := hst
            split at hst
            · next h0 => exact ⟨h0, hst⟩
            · cases hst
      rcases exec_createThread hx with ⟨-, rfl, -⟩ | ⟨tid, -, ⟨h0, -⟩, -⟩
      · exact Or.inl ⟨hstage.2, rfl⟩
      · exact absurd hstage.1 h0

/-- Only starting a thread changes who serves what. -/
theorem exec_services (hx : exec t n o c w = some (r, w', sp)) {u : Nat} (hu : u ≠ n ∨ sp = none) :
    w'.services u = w.services u := by
  cases o with
  | heap o =>
      obtain ⟨h, -, rfl, -⟩ := exec_heap hx
      rfl
  | kernel o =>
      obtain ⟨k, E, rfl, -⟩ := exec_kernel hx
      rfl
  | id o =>
      obtain ⟨s, -, rfl, -⟩ := exec_id hx
      rfl
  | api o =>
      obtain ⟨⟨a, m, rfl⟩, -⟩ := exec_api hx
      rfl
  | loadCloseEvent a =>
      obtain ⟨-, -, ⟨d, -, -, rfl⟩ | ⟨-, rfl⟩⟩ := exec_loadCloseEvent hx <;> rfl
  | setCloseEvent a =>
      obtain ⟨-, -, ⟨d, -, rfl⟩ | ⟨-, rfl⟩⟩ := exec_setCloseEvent hx <;> rfl
  | createThread l =>
      rcases exec_createThread hx with ⟨-, rfl, -⟩ | ⟨tid, rfl, -, -, rfl⟩
      · rfl
      · exact Function.update_of_ne (hu.resolve_right (by simp)) ..

end Ports

/-! ## The invariant -/

/-- What a thread that is started knows of handles: a worker takes over those of its
    client. -/
def bornSession (l : Label) (g : Ghost b) : Option Session :=
  match l, g.stage with
  | .workerThread _, .received m h h' _ => some ⟨m.sender, h, h', [h, h']⟩
  | _, _ => none

/-- What a thread knows that is started at a label by a thread in `g`. -/
def born (l : Label) (g : Ghost b) : Ghost b × Option Session :=
  (ScOwnership.born l g, bornSession l g)

section Invariant

variable {w w' : World b} {n t : Nat} {ys : Nat → Ghost b × Option Session}
  {y y' : Ghost b × Option Session} {o : Op} {c : Choice b} {r : Op.Ret b o} {sp : Option Label}

/-- A new thread takes over what its creator has besides the port. -/
theorem held_born {l : Label} (hpre : Pre (b := b) (.createThread l) y.1)
    (hnodup : ((held y).map Prod.fst).Nodup) :
    held (born l y.1) = heldAt y.2 y.1.stage := by
  cases l with
  | workerThread param =>
      obtain ⟨⟨s, m, h, h', m', lm, r, copy, size, -, hstage, -⟩, -⟩ := hpre
      rw [held, hstage, List.map_append, List.nodup_append] at hnodup
      have hne : h' ≠ h := fun he => (List.nodup_cons.mp hnodup.2.1).1 (by rw [he]; simp)
      rw [hstage]
      simp [held, born, bornSession, ScOwnership.born, hstage, heldAt, Session.held, Session.role,
        hne]
  | waitThread d =>
      obtain ⟨-, h, lpRoutine, a, p, hstage, hd, ha⟩ := hpre
      rw [hstage]
      simp [held, born, bornSession, ScOwnership.born, serves, hd, ServiceRoutine.new, ha, heldAt]
  | _ => exact hpre.elim

/-- Handles that a thread has no more, or still has, are no matter. -/
theorem changes_of_sublist (hs : (held y').Sublist (held y))
    (hnodup : ((held y).map Prod.fst).Nodup) (ho : ∀ h, o ≠ .kernel (.ntClose h)) :
    Changes w w' o y y' :=
  ⟨fun h hclose => absurd hclose (ho h), fun x hx => Or.inl ⟨hs.mem hx, ho x.1⟩,
    (hs.map Prod.fst).nodup hnodup⟩

/-- **EVERY OPERATION** changes the handles of its thread as they may change. -/
theorem Handles.op (H : Handles w ys) (hpre : (outline b).pre o (ys t))
    (hpost : (outline b).post o (ys t) r y') (hx : exec t n o c w = some (r, w', sp)) :
    Changes w w' o (ys t) y'
      ∧ ∀ z ∈ sp.map fun l => born l (ys t).1, Given o (ys t) y' z := by
  have hfields := (show Post o (ys t).1 r y'.1 from hpost.1).fields
  have hself := hfields.1
  have hstage := hfields.2.1
  have hy' : y'.2 = closeOne (ys t).2 ⟨o, r⟩ := hpost.2
  have quiet : sp = none → ∀ z ∈ sp.map fun l => born l (ys t).1, Given o (ys t) y' z := by
    rintro rfl z hz
    cases hz
  have hlocal : Local o → sp = none → Changes w w' o (ys t) y'
      ∧ ∀ z ∈ sp.map fun l => born l (ys t).1, Given o (ys t) y' z := by
    intro ho hsp
    refine ⟨changes_of_sublist ?_ (H.nodup t) ?_, quiet hsp⟩
    · have hsame : y'.2 = (ys t).2 := hy'.trans (closeOne_local ho)
      rw [held, held, hself, hstage, hsame, heldAt_local ho hpre.1]
    · rintro h rfl
      exact ho
  cases o with
  | kernel o =>
      obtain ⟨k, -, -, hsp⟩ := exec_kernel hx
      exact ⟨H.kernel hpre hpost hx, quiet hsp⟩
  | createThread l =>
      have hpre : Pre (.createThread l) (ys t).1 := hpre.1
      have hsame : y'.2 = (ys t).2 := hy'
      -- what the thread has afterwards is its port, and the rest if it started nobody
      have hheld : (r = 0 ∨ heldAt y'.2 y'.1.stage = []) ∧ (held y').Sublist (held (ys t)) := by
        have hat : (r = 0 ∧ heldAt y'.2 y'.1.stage = heldAt (ys t).2 (ys t).1.stage)
            ∨ heldAt y'.2 y'.1.stage = [] := by
          rw [hstage, hsame]
          cases l with
          | workerThread param => exact Or.inr rfl
          | _ =>
              show (r = 0 ∧ heldAt _ (if r = 0 then _ else _) = _)
                ∨ heldAt _ (if r = 0 then _ else _) = _
              split
              · next h0 => exact Or.inl ⟨h0, rfl⟩
              · exact Or.inr rfl
        refine ⟨hat.imp_left And.left, ?_⟩
        rw [held, held, hself]
        refine (List.Sublist.refl _).append ?_
        rcases hat with ⟨-, he⟩ | he <;> rw [he]
        exact List.nil_sublist _
      rcases exec_createThread hx with ⟨rfl, -, hsp⟩ | ⟨tid, rfl, ⟨h0, -⟩, -⟩
      · exact ⟨changes_of_sublist hheld.2 (H.nodup t) (by simp), quiet hsp⟩
      · refine ⟨changes_of_sublist hheld.2 (H.nodup t) (by simp), ?_⟩
        intro z hz
        obtain rfl := Option.some.inj hz
        have hborn := held_born hpre (H.nodup t)
        refine ⟨?_, ?_, ?_⟩
        · intro x hmem
          rw [hborn] at hmem
          exact ⟨mem_held.mpr (Or.inr hmem), by simp⟩
        · intro x hmem x' hmem' heq
          rw [hborn] at hmem
          rcases mem_held.mp hmem' with ⟨s, hs, rfl⟩ | hat
          · exact port_apart (H.nodup t) (hself ▸ hs) hmem heq.symm
          · rw [hheld.1.resolve_left h0] at hat
            cases hat
        · rw [hborn]
          have hn := H.nodup t
          rw [held, List.map_append, List.nodup_append] at hn
          exact hn.2.1
  | heap o =>
      obtain ⟨h, -, -, hsp⟩ := exec_heap hx
      exact hlocal trivial hsp
  | id o =>
      obtain ⟨s, -, -, hsp⟩ := exec_id hx
      exact hlocal trivial hsp
  | api o => exact hlocal trivial (exec_api hx).2
  | loadCloseEvent a => exact hlocal trivial (exec_loadCloseEvent hx).2.1
  | setCloseEvent a => exact hlocal trivial (exec_setCloseEvent hx).2.1

/-- What a new listener serves is its service, at the port that was created for it. -/
theorem exec_served {gs : Nat → Ghost b} (K : Known n w gs) {l : Label} {r : HANDLE}
    (hpre : Pre (b := b) (.createThread l) (gs t))
    (hlast : ∀ h, (gs t).stage = .created h → ∃ p, w.lpc.lastPort t = some (p, h))
    (hx : exec t n (.createThread l) c w = some (r, w', some l)) {s : Served}
    (hs : (ScOwnership.born l (gs t)).self = some s) : ∃ v, w'.services n = some v
      ∧ Matches v s ∧ (gs t).stage = .created v.hPort
      ∧ w.lpc.lastPort t = some (v.port, v.hPort) := by
  cases l with
  | waitThread d =>
      obtain ⟨-, h, lpRoutine, a, p, hstage, hd, ha⟩ := hpre
      rcases exec_createThread hx with ⟨-, -, hsp⟩ | ⟨tid, -, -, -, rfl⟩
      · cases hsp
      obtain ⟨cl, hcell⟩ := K.routine hd
      obtain ⟨p', hlast⟩ := hlast h hstage
      have hlist := K.parametersAt ha
      have hserves : serves (gs t).own d = some s := hs
      simp only [serves, hd, ServiceRoutine.new, ha, Option.some.injEq] at hserves
      obtain rfl := hserves
      refine ⟨⟨p', h, lpRoutine, p⟩, ?_, ⟨rfl, rfl, rfl⟩, hstage, hlast⟩
      refine (Function.update_self ..).trans ?_
      have hroutine : routineAt w.heap d
          = some { ServiceRoutine.new h lpRoutine a with closeEvent := cl } := by
        simp only [routineAt, hcell]
      simp [Label.service, hroutine, hlist, hlast, ServiceRoutine.new]
  | workerThread param => cases hs
  | _ => exact hpre.elim

/-- Only `createThread` starts a thread. -/
theorem exec_starts {l : Label} (hx : exec t n o c w = some (r, w', some l)) :
    o = .createThread l := by
  cases o with
  | heap o => cases (exec_heap hx).choose_spec.2.2
  | kernel o => cases (exec_kernel hx).choose_spec.2.2
  | id o => cases (exec_id hx).choose_spec.2.2
  | api o => cases (exec_api hx).2
  | loadCloseEvent a => cases (exec_loadCloseEvent hx).2.1
  | setCloseEvent a => cases (exec_setCloseEvent hx).2.1
  | createThread l' =>
      rcases exec_createThread hx with ⟨-, -, hsp⟩ | ⟨tid, hsp, -⟩
      · cases hsp
      · rw [Option.some.inj hsp]

/-- A handle that the thread still has refers to what it referred to. -/
theorem Handles.still (H : Handles w ys) (hx : exec t n o c w = some (r, w', sp))
    (C : Changes w w' o (ys t) y') {x : HANDLE × Role} (hmem : x ∈ held y') {obj : KObject}
    (hobj : w.lpc.handles.lookup x.1 = some obj) : w'.lpc.handles.lookup x.1 = some obj := by
  rcases C.gain x hmem with ⟨hold, hne⟩ | ⟨-, hnone, -⟩
  · rw [H.own hx hold hne, hobj]
  · rw [hnone] at hobj
    cases hobj

/-- Only a worker has a session. -/
theorem closeOne_none (z : Sigma (Op.Ret b)) : closeOne none z = none := by
  unfold closeOne
  split <;> rfl

/-- **THE INVARIANT** is kept by every operation. -/
theorem Handles.after (H : Handles w ys) (K : Known n w fun u => (ys u).1) (ht : t < n)
    (hpre : (outline b).pre o (ys t)) (hpost : (outline b).post o (ys t) r y')
    (hx : exec t n o c w = some (r, w', sp)) :
    Handles w' (after ys t n y' (sp.map fun l => born l (ys t).1)) := by
  obtain ⟨C, hgiven⟩ := H.op hpre hpost hx
  obtain ⟨hrefers, hapart, hnodup⟩ := H.step hx C hgiven
  have hpost₁ : Post o (ys t).1 r y'.1 := hpost.1
  have hpre₁ : Pre o (ys t).1 := hpre.1
  obtain ⟨hself, hstage, -⟩ := hpost₁.fields
  have hcases := after_cases ys t n y' (sp.map fun l => born l (ys t).1)
  refine ⟨fun u x hx => (hrefers u x hx).1, fun u x hx => (hrefers u x hx).2, hapart, hnodup,
    ?_, ?_, ?_, ?_⟩
  -- the service of a listener: an old one, this thread, a new one
  · intro u s hs
    rcases hcases u with ⟨hu, hn, he⟩ | ⟨rfl, he⟩ | ⟨rfl, z, hz, he⟩ <;> rw [he] at hs
    · obtain ⟨v, hv, hmatches, hl⟩ := H.service u s hs
      refine ⟨v, (exec_services hx (hn.imp_right ?_)).trans hv, hmatches, ?_⟩
      · exact Option.map_eq_none_iff.mp
      · have hmem : (v.hPort, Role.port) ∈ held (ys u) :=
          mem_held.mpr (Or.inl ⟨s, hs, by rw [hmatches.port]⟩)
        rw [H.others hx C.close hu hmem, hl]
    · have hs' := hs
      rw [hself] at hs
      obtain ⟨v, hv, hmatches, hl⟩ := H.service u s hs
      refine ⟨v, (exec_services hx (Or.inl (Nat.ne_of_lt ht))).trans hv, hmatches, ?_⟩
      exact H.still hx C (x := (v.hPort, .port))
        (mem_held.mpr (Or.inl ⟨s, hs', by rw [hmatches.port]⟩)) hl
    · obtain ⟨l, rfl, rfl⟩ := Option.map_eq_some_iff.mp hz
      obtain rfl := exec_starts hx
      obtain ⟨v, hv, hmatches, hst, hlast⟩ := exec_served K hpre₁
        (fun h hst => (H.created t h hst).imp fun _ h => h.1) hx hs
      obtain ⟨p, hp, hl⟩ := H.created t v.hPort hst
      obtain rfl : p = v.port := (Prod.mk.inj (Option.some.inj (hp.symm.trans hlast))).1
      refine ⟨v, hv, hmatches, ?_⟩
      have hmem : (v.hPort, Role.port) ∈ held (born l (ys t).1) :=
        mem_held.mpr (Or.inl ⟨s, hs, by rw [hmatches.port]⟩)
      obtain ⟨hold, hne⟩ := (hgiven _ rfl).own _ hmem
      rw [H.own hx hold hne, hl]
  -- a port that is not handed over yet
  · intro u h hst
    rcases hcases u with ⟨hu, hn, he⟩ | ⟨rfl, he⟩ | ⟨rfl, z, hz, he⟩ <;> rw [he] at hst
    · obtain ⟨p, hlast, hl⟩ := H.created u h hst
      have hmem : (h, Role.port) ∈ held (ys u) := by
        refine mem_held.mpr (Or.inr ?_)
        rw [hst]
        exact List.mem_singleton_self _
      refine ⟨p, (exec_lastPort hx hu).trans hlast, ?_⟩
      rw [H.others hx C.close hu hmem, hl]
    · rw [hstage] at hst
      rcases exec_created hx hpre₁ hst with ⟨hold, hlast⟩ | h
      · obtain ⟨p, hp, hl⟩ := H.created u h hold
        refine ⟨p, hlast.trans hp, H.still hx C (x := (h, .port)) (mem_held.mpr (Or.inr ?_)) hl⟩
        rw [hstage, hst]
        exact List.mem_singleton_self _
      · exact h
    · obtain ⟨l, -, rfl⟩ := Option.map_eq_some_iff.mp hz
      cases l <;> cases hst
  -- a caller still registers only
  · refine after_forall (P := fun _ (z : Ghost b × Option Session) => Registers z.1)
      (fun u _ => H.registers u) ((H.registers t).after hpre₁ hpost₁) ?_
    intro z hz
    obtain ⟨l, -, rfl⟩ := Option.map_eq_some_iff.mp hz
    exact Registers.born l _
  -- a session is that of a worker
  · refine after_forall
      (P := fun _ (z : Ghost b × Option Session) => z.2 ≠ none → z.1.stage = .worker)
      (fun u _ => H.session u) ?_ ?_
    · intro hne
      rw [hstage]
      refine worker_stays hpre₁ (H.session t ?_)
      intro hnone
      rw [show y'.2 = _ from hpost.2, hnone, closeOne_none] at hne
      exact hne rfl
    · intro z hz hne
      obtain ⟨l, -, rfl⟩ := Option.map_eq_some_iff.mp hz
      cases l with
      | workerThread param => rfl
      | _ => exact absurd rfl hne

/-- A listener that turns to the next connection has its port only. -/
theorem Handles.idle (H : Handles w ys) (hnone : (ys t).2 = none) :
    Handles w (Function.update ys t ((ys t).1.at' .idle, (ys t).2)) := by
  -- whoever has a handle now had it before
  have old : ∀ {u x}, x ∈ held (Function.update ys t ((ys t).1.at' .idle, (ys t).2) u) →
      x ∈ held (ys u) := by
    intro u x hx
    by_cases hu : u = t
    · rw [hu, Function.update_self] at hx
      rw [hu]
      exact mem_held.mpr ((mem_held.mp hx).imp_right fun h => (List.not_mem_nil h).elim)
    · rwa [Function.update_of_ne hu] at hx
  refine ⟨fun u x hx => H.nonzero u x (old hx), fun u x hx => H.refers u x (old hx),
    fun u u' hu x hx x' hx' => H.apart u u' hu x (old hx) x' (old hx'), ?_, ?_, ?_, ?_, ?_⟩
  · refine (Function.forall_update_iff ys
      fun _ (z : Ghost b × Option Session) => ((held z).map Prod.fst).Nodup).mpr
      ⟨?_, fun u _ => H.nodup u⟩
    refine List.Sublist.nodup ?_ (H.nodup t)
    exact ((List.Sublist.refl _).append (List.nil_sublist _)).map Prod.fst
  · exact (Function.forall_update_iff ys fun u (z : Ghost b × Option Session) => ∀ s,
      z.1.self = some s → ∃ v, w.services u = some v ∧ Matches v s
        ∧ w.lpc.handles.lookup v.hPort = some (.connectionPort v.port)).mpr
      ⟨H.service t, fun u _ => H.service u⟩
  · refine (Function.forall_update_iff ys fun u (z : Ghost b × Option Session) => ∀ h,
      z.1.stage = .created h → ∃ p, w.lpc.lastPort u = some (p, h)
        ∧ w.lpc.handles.lookup h = some (.connectionPort p)).mpr ⟨?_, fun u _ => H.created u⟩
    intro h hst
    cases hst
  · exact (Function.forall_update_iff ys fun _ (z : Ghost b × Option Session) =>
      Registers z.1).mpr ⟨⟨(H.registers t).todo, trivial⟩, fun u _ => H.registers u⟩
  · refine (Function.forall_update_iff ys fun _ (z : Ghost b × Option Session) =>
      z.2 ≠ none → z.1.stage = .worker).mpr ⟨fun hne => absurd hnone hne, fun u _ => H.session u⟩

/-- A jump leaves the handles alone, but that a listener has dropped those of a client. -/
theorem Handles.land (H : Handles w ys) {l : Label} (hg : Goto l (ys t)) :
    Handles w (Function.update ys t (land l (ys t).1, (ys t).2)) := by
  cases l with
  | waitLoop lpService lm => exact H.idle hg.2
  | _ =>
      rw [show (ScOwnership.land _ (ys t).1, (ys t).2) = ys t from rfl, Function.update_eq_self]
      exact H

/-- The label that is jumped to may be entered. -/
theorem entry_land {l : Label} (hg : Goto l y) : Entry l (land l y.1, y.2) := by
  obtain ⟨g, x⟩ := y
  cases l with
  | waitThread lpService => exact hg.1.elim
  | workerThread lpService => exact hg.1.elim
  | waitLoop lpService lm => exact ⟨ScOwnership.entry_land hg.1, hg.2⟩
  | _ => exact hg

/-- The environment touches no handle. -/
theorem Handles.env (H : Handles w ys) (he : env c w = some w') : Handles w' ys := by
  rcases env_cases he with ⟨p, m, -, -, -, rfl⟩ | ⟨a, d, -, -, rfl⟩ | ⟨pid, a, v, -, rfl⟩ <;>
    exact ⟨H.nonzero, H.refers, H.apart, H.nodup, H.service, H.created, H.registers, H.session⟩

/-- The label a thread is started at may be entered. -/
theorem entry_born {l : Label} (hpre : Pre (b := b) (.createThread l) y.1)
    (hnodup : ((held y).map Prod.fst).Nodup) : Entry l (born l y.1) := by
  have hentry := ScOwnership.entry_born hpre
  cases l with
  | waitThread d => exact ⟨hentry, rfl⟩
  | workerThread param =>
      obtain ⟨⟨s, m, h, h', m', lm, r, copy, size, -, hstage, -, -, hr, hh, hh', -⟩, -⟩ := hpre
      obtain ⟨r', lm', size', p, W⟩ := hentry
      have hown : (ScOwnership.born (.workerThread param) y.1).own param = y.1.own param := by
        refine born_own ?_
        rw [given_workerThread hr]
        exact List.mem_cons_self
      obtain rfl : r' = r := by
        have hr' := W.routine
        rw [hown, hr] at hr'
        exact (Block.routine.inj (Option.some.inj hr')).symm
      rw [held, hstage, List.map_append, List.nodup_append] at hnodup
      have hne : h ≠ h' := fun he => (List.nodup_cons.mp hnodup.2.1).1 (by rw [he]; simp)
      refine ⟨r', lm', size', p, ⟨m.sender, h, h', [h, h']⟩, W, ?_, hh, hh', hne, rfl⟩
      show bornSession (.workerThread param) y.1 = _
      simp only [bornSession, hstage]
  | _ => exact hpre.elim

end Invariant

/-! ## Runs -/

section Runs

variable {n : Nat} {w : World b} {s : State b} {calls : List (List Call)}

/-- **THE RULE FOR HANDLES**: a further invariant that every step keeps holds with the first
    one in all runs whose steps satisfy `cond`, in which failed mappings do no harm. -/
theorem method {X : Nat → World b → (Nat → Ghost b × Option Session) → Prop}
    {cond : State b → Event (Choice b) → Prop} (hharm : ∀ {s e}, cond s e → Harmlessly s e)
    (hjump : ∀ {n w ys t l}, X n w ys → X n w (Function.update ys t (land l (ys t).1, (ys t).2)))
    (hop : ∀ {s : State b} {ys t c o w' sp} {r : Op.Ret b o} {y' : Ghost b × Option Session},
      cond s (.thread t c) → s.next t = some o → t < s.threads.length →
      X s.threads.length s.world ys → Handles s.world ys → Pre o (ys t).1 →
      exec t s.threads.length o c s.world = some (r, w', sp) →
      (outline b).post o (ys t) r y' →
      X (s.threads.length + sp.toList.length) w'
        (after ys t s.threads.length y' (sp.map fun l => born l (ys t).1)))
    (henv : ∀ {s : State b} {ys c w'}, cond s (.env c) → X s.threads.length s.world ys →
      env c s.world = some w' → X s.threads.length w' ys) :
    Method (system b) (outline b) Entry Goto
      (fun n w ys => (Shared n w (Prod.fst ∘ ys) ∧ Handles w ys) ∧ X n w ys) (fun _ => True)
      cond where
  steps _ _ := trivial
  code h := wp_code h
  jump := by
    intro s ys t c th l hc hth hcur ⟨⟨hS, hH⟩, hX⟩ hgoto
    have ht : t < s.threads.length := (List.getElem?_eq_some_iff.mp hth).1
    refine ⟨(land l (ys t).1, (ys t).2), entry_land hgoto, ⟨?_, hH.land hgoto⟩, hjump hX⟩
    rw [Function.comp_update]
    exact hS.land ht l
  op := by
    intro s ys t c th o k r w' sp hc hth hcur ⟨⟨hS, hH⟩, hX⟩ hpre hx
    have ht : t < s.threads.length := (List.getElem?_eq_some_iff.mp hth).1
    have hnext := Config.next_of_cur hth hcur
    have hagree : Agrees (ys t).1 o r := hS.known.agrees (hS.blind t) (hS.sees t)
      (hharm hc o hnext) hx
    obtain ⟨g', hpost, hcreate, K⟩ := hS.known.op ht hpre.1 hagree hx
    have hpost' : (outline b).post o (ys t) r (g', closeOne (ys t).2 ⟨o, r⟩) := ⟨hpost, rfl⟩
    refine ⟨(g', closeOne (ys t).2 ⟨o, r⟩), sp.map fun l => born l (ys t).1, hpost',
      by cases sp <;> rfl, ?_, ⟨?_, hH.after hS.known ht hpre hpost' hx⟩,
      hop hc hnext ht hX hH hpre.1 hx hpost'⟩
    · intro l hl y hy _
      obtain rfl := Option.mem_def.mp hl
      obtain rfl := Option.mem_some_iff.mp hy
      exact entry_born (hcreate l rfl) (hH.nodup t)
    · rw [comp_after, Option.map_map]
      exact hS.after hpost (exec_pages hx) K
  env := by
    intro s ys c w' hc ⟨⟨hS, hH⟩, hX⟩ he
    exact ⟨⟨hS.env he, hH.env he⟩, henv hc hX he⟩

/-- The threads of the application in the beginning, with the calls they will make. -/
def starting (w : World b) (calls : List (List Call)) : State b :=
  ⟨w, (calls.map Label.app).map (system b).begin⟩

/-- What they know then. -/
def ghosts (w : World b) (calls : List (List Call)) (t : Nat) : Ghost b × Option Session :=
  match calls[t]? with
  | some cs => (.blank .app cs (some w.lpc.pages), none)
  | none => (.blank .worker [] none, none)

/-- No call unregisters a service. -/
def RegistersOnly (calls : List (List Call)) : Prop := ∀ cs ∈ calls, ∀ a, .unregister a ∉ cs

/-- What holds of every thread in the beginning. -/
theorem ghosts_forall {P : Ghost b × Option Session → Prop}
    (happ : ∀ cs ∈ calls, P (.blank .app cs (some w.lpc.pages), none))
    (hnone : P (.blank .worker [] none, none)) (t : Nat) : P (ghosts w calls t) := by
  unfold ghosts
  split
  · next cs h => exact happ cs (List.mem_of_getElem? h)
  · exact hnone

/-- The application has no block in the beginning and knows what can be read. -/
theorem shared_starting : Shared n w (Prod.fst ∘ ghosts w calls) := by
  have hown : ∀ t a, (ghosts w calls t).1.own a = none := fun t a =>
    ghosts_forall (P := fun y => y.1.own a = none) (fun _ _ => rfl) rfl t
  refine ⟨⟨⟨?_, ?_⟩, fun t => hown t 0, fun t _ => hown t⟩, ?_, ?_⟩
  · intro t a x hx
    rw [show (Prod.fst ∘ ghosts w calls) t = (ghosts w calls t).1 from rfl, hown] at hx
    cases hx
  · intro t a x hx
    rw [show (Prod.fst ∘ ghosts w calls) t = (ghosts w calls t).1 from rfl, hown] at hx
    cases hx
  · exact ghosts_forall (P := fun y => y.1.Blind) (fun _ _ => ⟨rfl, rfl, rfl, rfl⟩)
      ⟨rfl, rfl, rfl, rfl⟩
  · refine ghosts_forall (P := fun y => y.1.Sees w) ?_ ?_
    · intro cs _ ok hok
      exact (Option.some.inj hok).symm
    · intro ok hok
      cases hok

/-- No thread has a handle in the beginning. -/
theorem handles_starting (hcalls : RegistersOnly calls) : Handles w (ghosts w calls) := by
  have hheld : ∀ t, held (ghosts w calls t) = [] :=
    ghosts_forall (P := fun y => held y = []) (fun _ _ => rfl) rfl
  have hmem : ∀ {t x}, x ∉ held (ghosts w calls t) := by
    intro t x hx
    rw [hheld] at hx
    cases hx
  refine ⟨fun t x hx => (hmem hx).elim, fun t x hx => (hmem hx).elim,
    fun t u _ x hx => (hmem hx).elim, ?_, ?_, ?_, ?_, ?_⟩
  · intro t
    rw [hheld]
    exact List.nodup_nil
  · intro t s hs
    have hself : (ghosts w calls t).1.self = none :=
      ghosts_forall (P := fun y => y.1.self = none) (fun _ _ => rfl) rfl t
    rw [hself] at hs
    cases hs
  · intro t h hst
    have hstage : ∀ h, (ghosts w calls t).1.stage ≠ .created h :=
      ghosts_forall (P := fun y => ∀ h, y.1.stage ≠ .created h) (by simp [Ghost.blank])
        (by simp [Ghost.blank]) t
    exact absurd hst (hstage h)
  · refine ghosts_forall (P := fun y => Registers y.1) ?_
      ⟨fun _ ha => (List.not_mem_nil ha).elim, trivial⟩
    intro cs hcs
    exact ⟨hcalls cs hcs, trivial⟩
  · exact ghosts_forall (P := fun y => y.2 ≠ none → y.1.stage = .worker)
      (fun _ _ h => absurd rfl h) fun h => absurd rfl h

/-- **WHAT RUNS KEEP** that register services only, from any state of the process. -/
theorem run {X : Nat → World b → (Nat → Ghost b × Option Session) → Prop}
    (M : Method (system b) (outline b) Entry Goto
      (fun n w ys => (Shared n w (Prod.fst ∘ ys) ∧ Handles w ys) ∧ X n w ys) (fun _ => True)
      Harmlessly) (hcalls : RegistersOnly calls) (hX : X calls.length w (ghosts w calls))
    (hr : (system b).Run Harmlessly (starting w calls) s) :
    ∃ ys, ThreadSys.Holds (outline b) Goto
      (fun n w ys => (Shared n w (Prod.fst ∘ ys) ∧ Handles w ys) ∧ X n w ys)
      (fun _ => True) s ys := by
  have hstart : X (calls.map Label.app).length w (ghosts w calls) := by
    rw [List.length_map]
    exact hX
  refine M.run hr (holds_begin M ⟨⟨shared_starting, handles_starting hcalls⟩, hstart⟩ ?_)
  intro t l hl _
  rw [List.getElem?_map] at hl
  obtain ⟨cs, hcs, rfl⟩ := Option.map_eq_some_iff.mp hl
  simp only [ghosts, hcs]
  exact ⟨⟨rfl, rfl, rfl⟩, rfl⟩

/-- The invariant alone. -/
theorem plain_method : Method (system b) (outline b) Entry Goto
    (fun n w ys => (Shared n w (Prod.fst ∘ ys) ∧ Handles w ys) ∧ True) (fun _ => True)
    Harmlessly :=
  method (X := fun _ _ _ => True) id (fun _ => trivial) (fun _ _ _ _ _ _ _ _ => trivial)
    fun _ _ _ => trivial

theorem run_plain (hcalls : RegistersOnly calls)
    (hr : (system b).Run Harmlessly (starting w calls) s) :
    ∃ ys, ThreadSys.Holds (outline b) Goto
      (fun n w ys => (Shared n w (Prod.fst ∘ ys) ∧ Handles w ys) ∧ True)
      (fun _ => True) s ys :=
  run plain_method hcalls trivial hr

end Runs

/-! ## What handles are used for -/

/-- The handle of the connection an operation goes on with. -/
def connects : Op → Option HANDLE
  | .kernel (.ntCompleteConnectPort h) => some h
  | .kernel (.ntReplyWaitReceivePort h) => some h
  | .kernel (.ntReplyWaitReplyPort h _) => some h
  | _ => none

/-- The handle of the process whose memory an operation accesses. -/
def accesses : Op → Option HANDLE
  | .kernel (.ntReadVirtualMemory h ..) => some h
  | .kernel (.ntWriteVirtualMemory h ..) => some h
  | _ => none

/-- The handle an operation listens with, goes on with, accesses memory with or closes. -/
def uses : Op → Option HANDLE
  | .kernel (.ntListenPort h) => some h
  | .kernel (.ntClose h) => some h
  | o => connects o <|> accesses o

/-- What is promised of the handles of all threads. -/
structure Proper (s : State b) : Prop where
  /-- a listener listens on the port it was started with -/
  listens : ∀ {t h}, s.next t = some (.kernel (.ntListenPort h)) →
    ∃ v, s.world.services t = some v ∧ h = v.hPort
      ∧ s.world.lpc.handles.lookup h = some (.connectionPort v.port)
  /-- connections are completed, received from and replied to while they are open -/
  connects : ∀ {t o h}, s.next t = some o → connects o = some h →
    ∃ p client, s.world.lpc.handles.lookup h = some (.communicationPort p client)
  /-- memory is read and written through the open handle of a process -/
  accesses : ∀ {t o h}, s.next t = some o → accesses o = some h →
    ∃ pid, s.world.lpc.handles.lookup h = some (.process pid)
  /-- nothing is closed twice -/
  closes : ∀ {t h}, s.next t = some (.kernel (.ntClose h)) → h ≠ 0 →
    s.world.lpc.handles.lookup h ≠ none
  /-- nor used by one thread while another one uses or closes it -/
  apart : ∀ {t u o o' h}, t ≠ u → s.next t = some o → s.next u = some o' →
    uses o = some h → uses o' = some h → h = 0

section Results

variable {n t : Nat} {w : World b} {ys : Nat → Ghost b × Option Session} {o : Op} {h : HANDLE}

/-- What a handle is used for is what it was opened for. -/
def Fits (o : Op) (ρ : Role) : Prop :=
  (connects o ≠ none → ∃ client, ρ = .server client)
    ∧ (accesses o ≠ none → ∃ pid, ρ = .process pid)

/-- To go on with a connection is a use of its handle, and so is to access memory. -/
theorem uses_of_some (ho : connects o = some h ∨ accesses o = some h) :
    uses o = some h ∧ o ≠ .kernel (.ntClose h) := by
  cases o with
  | kernel o =>
      cases o with
      | ntCompleteConnectPort | ntReplyWaitReceivePort | ntReplyWaitReplyPort =>
          exact ⟨ho.resolve_right (by simp [accesses]), by simp⟩
      | ntReadVirtualMemory | ntWriteVirtualMemory =>
          exact ⟨ho.resolve_left (by simp [connects]), by simp⟩
      | _ => exact ho.elim (by simp [connects]) (by simp [accesses])
  | _ => exact ho.elim (by simp [connects]) (by simp [accesses])

/-- A handle of the session that is left is one the thread has. -/
theorem held_session {y : Ghost b × Option Session} (hsession : y.2 ≠ none → y.1.stage = .worker)
    {S : Session} (hS : y.2 = some S) (hleft : h ∈ S.left) : (h, S.role h) ∈ held y := by
  refine mem_held.mpr (Or.inr ?_)
  rw [hsession (by rw [hS]; exact Option.some_ne_none S), hS]
  exact List.mem_map.mpr ⟨h, hleft, rfl⟩

/-- Memory is accessed with the handle of the session. -/
theorem Guard.accesses {g : Ghost b} {x : Option Session} (hg : Guard o g x)
    (ho : accesses o = some h) : ∃ S, x = some S ∧ h = S.hClientProcess ∧ h ∈ S.left := by
  cases o with
  | kernel o =>
      cases o with
      | ntReadVirtualMemory | ntWriteVirtualMemory =>
          obtain rfl := Option.some.inj ho
          exact hg
      | _ => cases ho
  | _ => cases ho

/-- **A HANDLE THAT IS USED** is one that the thread has, for that use. -/
theorem uses_held (hreg : Registers (ys t).1) (hpre : (outline b).pre o (ys t))
    (hsession : (ys t).2 ≠ none → (ys t).1.stage = .worker) (ho : uses o = some h)
    (h0 : o = .kernel (.ntClose h) → h ≠ 0) : ∃ ρ, (h, ρ) ∈ held (ys t) ∧ Fits o ρ := by
  have session : ∀ {S : Session}, (ys t).2 = some S → h ∈ S.left → (h, S.role h) ∈ held (ys t) :=
    fun hS => held_session hsession hS
  have client : ∀ {S : Session}, h = S.hClientProcess → S.role h = .process (processOf S.client) :=
    fun he => if_pos he
  have accepted : ∀ {m h₁}, (ys t).1.stage = .accepted m h₁ h →
      (h, .server m.sender) ∈ held (ys t) := by
    intro m h₁ hst
    refine mem_held.mpr (Or.inr ?_)
    rw [hst]
    exact List.mem_cons_of_mem _ List.mem_cons_self
  have hpre₁ : Pre o (ys t).1 := hpre.1
  cases o with
  | kernel o =>
      cases o with
      | ntListenPort h' =>
          obtain rfl := Option.some.inj ho
          obtain ⟨-, s, hs, rfl⟩ := hpre₁
          exact ⟨_, mem_held.mpr (Or.inl ⟨s, hs, rfl⟩), fun hne => absurd rfl hne,
            fun hne => absurd rfl hne⟩
      | ntClose h' =>
          obtain rfl := Option.some.inj ho
          obtain ⟨ρ, hρ⟩ := closes_own hreg (h0 rfl) hpre
          exact ⟨ρ, mem_held.mpr (Or.inr hρ), fun hne => absurd rfl hne, fun hne => absurd rfl hne⟩
      | ntCompleteConnectPort h' =>
          obtain rfl := Option.some.inj ho
          obtain ⟨m, h₁, hst⟩ := hpre₁
          exact ⟨_, accepted hst, fun _ => ⟨_, rfl⟩, fun hne => absurd rfl hne⟩
      | ntReplyWaitReceivePort h' =>
          obtain rfl := Option.some.inj ho
          obtain ⟨m, h₁, hst⟩ := hpre₁
          exact ⟨_, accepted hst, fun _ => ⟨_, rfl⟩, fun hne => absurd rfl hne⟩
      | ntReplyWaitReplyPort h' lm =>
          obtain rfl := Option.some.inj ho
          obtain ⟨S, hS, -, hleft, hne⟩ := hpre.2
          exact ⟨_, session hS hleft, fun _ => ⟨S.client, if_neg hne⟩, fun hne => absurd rfl hne⟩
      | ntReadVirtualMemory h' a k =>
          obtain rfl := Option.some.inj ho
          obtain ⟨S, hS, he, hleft⟩ := hpre.2
          exact ⟨_, session hS hleft, fun hne => absurd rfl hne, fun _ => ⟨_, client he⟩⟩
      | ntWriteVirtualMemory h' a bytes =>
          obtain rfl := Option.some.inj ho
          obtain ⟨S, hS, he, hleft⟩ := hpre.2
          exact ⟨_, session hS hleft, fun hne => absurd rfl hne, fun _ => ⟨_, client he⟩⟩
      | _ => cases ho
  | _ => cases ho

theorem Refers.process {pid : Nat} {x : KObject} (h : Refers (.process pid) x) :
    x = .process pid := by
  cases x with
  | process pid' => exact congrArg KObject.process h
  | _ => exact h.elim

theorem Refers.server {client : ClientId} {x : KObject} (h : Refers (.server client) x) :
    ∃ p, x = .communicationPort p client := by
  cases x with
  | communicationPort p client' => exact ⟨p, congrArg (KObject.communicationPort p) h⟩
  | _ => exact h.elim

/-- **HANDLES ARE PROPER** in every state that a process reaches in which threads of the
    application register services and nobody unregisters one. -/
theorem handles_proper {s : State b} {calls : List (List Call)} (hcalls : RegistersOnly calls)
    (hr : (system b).Run Harmlessly (starting w calls) s) : Proper s := by
  obtain ⟨ys, hys⟩ := run_plain hcalls hr
  obtain ⟨⟨⟨hS, H⟩, -⟩, -⟩ := id hys
  -- what is used is held, so it is open
  have found : ∀ {t o h}, s.next t = some o → uses o = some h →
      (o = .kernel (.ntClose h) → h ≠ 0) → ∃ ρ, (h, ρ) ∈ held (ys t) ∧ Fits o ρ
        ∧ ∃ x, s.world.lpc.handles.lookup h = some x ∧ Refers ρ x := by
    intro t o h hn ho h0
    obtain ⟨ρ, hmem, hfits⟩ := uses_held (H.registers t) (hys.pre_next hn) (H.session t) ho h0
    exact ⟨ρ, hmem, hfits, H.refers t _ hmem⟩
  refine ⟨?_, ?_, ?_, ?_, ?_⟩
  · intro t h hn
    have hpre : Pre (.kernel (.ntListenPort h)) (ys t).1 := (hys.pre_next hn).1
    obtain ⟨-, self, hself, rfl⟩ := hpre
    obtain ⟨v, hv, hmatches, hl⟩ := H.service t self hself
    exact ⟨v, hv, hmatches.port.symm, hmatches.port ▸ hl⟩
  · intro t o h hn ho
    obtain ⟨huse, hclose⟩ := uses_of_some (Or.inl ho)
    obtain ⟨ρ, -, hfits, x, hx, hrefers⟩ := found hn huse fun h => absurd h hclose
    obtain ⟨client, rfl⟩ := hfits.1 (by rw [ho]; exact Option.some_ne_none h)
    obtain ⟨p, rfl⟩ := hrefers.server
    exact ⟨p, client, hx⟩
  · intro t o h hn ho
    obtain ⟨huse, hclose⟩ := uses_of_some (Or.inr ho)
    obtain ⟨ρ, -, hfits, x, hx, hrefers⟩ := found hn huse fun h => absurd h hclose
    obtain ⟨pid, rfl⟩ := hfits.2 (by rw [ho]; exact Option.some_ne_none h)
    exact ⟨pid, hrefers.process ▸ hx⟩
  · intro t h hn h0
    obtain ⟨ρ, -, -, x, hx, -⟩ := found hn rfl fun _ => h0
    rw [hx]
    exact Option.some_ne_none x
  · intro t u o o' h htu hn hn' ho ho'
    by_contra h0
    obtain ⟨ρ, hmem, -⟩ := found hn ho fun _ => h0
    obtain ⟨ρ', hmem', -⟩ := found hn' ho' fun _ => h0
    exact H.apart t u htu _ hmem _ hmem' rfl

/-- A thread registers a routine with one pointer to a byte. -/
def registering : State .x64 :=
  starting (World.initialized .x64) [[.register 100 200 300 (some [])]]

/-- What the listener does when it is thread `1`. -/
def byListener : Event (Choice .x64) → Event (Choice .x64)
  | .thread t c => .thread (t + 1) c
  | .env c => .env c

theorem calling_fits : (parameterBytes ⟨[⟨0x40, 1, 100⟩]⟩).length + Build.x64.portMessageSize
    ≤ Build.x64.lpcpMaxMessageSize := by decide

/-- The service is registered, a client with id 8 calls, and its worker is about to read what
    the pointer leads to. -/
def reading : List (Event (Choice .x64)) :=
  [.env (.poke 0 300 1), .env (.poke 0 308 0x40), .env (.poke 0 312 1)] ++ turns 0 11
    ++ .thread 0 (.fresh 32 (.parameters ⟨[⟨0, 0, 0⟩]⟩)) :: turns 0 5
    ++ .thread 0 (.handle 4) :: turns 0 1
    ++ .thread 0 (.fresh 16 (.routine (.new 0 0 0))) :: turns 0 1
    ++ .thread 0 (.thread 8 1) :: turns 0 4
    ++ [.env (.send 0 (.compose .x64 LPC_CONNECTION_REQUEST ⟨8, 9⟩ 1
        (parameterBytes ⟨[⟨0x40, 1, 100⟩]⟩) calling_fits)),
      .env (.send 0 (.compose .x64 LPC_REQUEST ⟨8, 9⟩ 2 [] nothing_fits))]
    ++ (begins 48 ++ accepts 64 12 20 ++ dispatches 1 80 96 24 2).map byListener
    ++ turns 2 7 ++ .thread 2 (.fresh 112 (.parameters ⟨[⟨0, 0, 0⟩]⟩)) :: turns 2 3
    ++ .thread 2 (.fresh 128 (.buffer [0])) :: turns 2 2

/-- The routine returns, and the worker is about to reply. -/
def replying : List (Event (Choice .x64)) :=
  turns 2 6 ++ .thread 2 (.act (.ret 0)) :: turns 2 24

theorem registersOnly : RegistersOnly [[.register 100 200 300 (some [])]] := by
  simp [RegistersOnly]

theorem handles_proper_once : ∃ s : State .x64,
    (system .x64).runIf (fun s e => decide (Harmlessly s e)) (reading ++ replying)
        registering = some s ∧ Proper s := by
  obtain ⟨s, hs⟩ := Option.isSome_iff_exists.mp (show ((system .x64).runIf
    (fun s e => decide (Harmlessly s e)) (reading ++ replying) registering).isSome = true by
      decide +kernel)
  exact ⟨s, hs, handles_proper registersOnly
    (Sys.run_of_runIf (fun _ _ h => of_decide_eq_true h) hs)⟩

/-- Closing handles does not change whose they are. -/
theorem closeOne_client (S : Session) (z : Sigma (Op.Ret b)) :
    ∃ S', closeOne (some S) z = some S' ∧ S'.client = S.client
      ∧ S'.hClientProcess = S.hClientProcess := by
  unfold closeOne
  split
  · exact ⟨_, rfl, rfl, rfl⟩
  · exact ⟨S, rfl, rfl, rfl⟩

/-- Thread `t` is a worker for `client`, with the handle `h` for its process. -/
def ClientOf (t : Nat) (client : ClientId) (h : HANDLE) (n : Nat) (_ : World b)
    (ys : Nat → Ghost b × Option Session) : Prop :=
  t < n ∧ ∃ S, (ys t).2 = some S ∧ S.client = client ∧ S.hClientProcess = h

/-- It stays that. -/
theorem client_method (t : Nat) (client : ClientId) (h : HANDLE) :
    Method (system b) (outline b) Entry Goto
      (fun n w ys => (Shared n w (Prod.fst ∘ ys) ∧ Handles w ys) ∧ ClientOf t client h n w ys)
      (fun _ => True) Harmlessly := by
  refine method id ?_ ?_ fun _ h _ => h
  · rintro n w ys u l ⟨ht, S, hS, he⟩
    refine ⟨ht, S, ?_, he⟩
    by_cases hu : t = u
    · rw [← hu, Function.update_self]
      exact hS
    · rw [Function.update_of_ne hu]
      exact hS
  · rintro s ys u c o w' sp r y' - - - ⟨ht, S, hS, he⟩ - - - ⟨-, hy'⟩
    refine ⟨Nat.lt_of_lt_of_le ht (Nat.le_add_right ..), ?_⟩
    by_cases hu : t = u
    · subst hu
      rw [after_self (Nat.ne_of_lt ht), hy', hS]
      obtain ⟨S', hS', he'⟩ := closeOne_client S ⟨o, r⟩
      exact ⟨S', hS', he'.1.trans he.1, he'.2.trans he.2⟩
    · rw [after_ne hu (Nat.ne_of_lt ht)]
      exact ⟨S, hS, he⟩

/-- The handle of the session that is left is that of the client's process. -/
theorem Handles.process (H : Handles w ys) {S : Session} (hS : (ys t).2 = some S)
    (hleft : S.hClientProcess ∈ S.left) :
    w.lpc.handles.lookup S.hClientProcess = some (.process (processOf S.client)) := by
  obtain ⟨x, hx, hrefers⟩ := H.refers t _ (held_session (H.session t) hS hleft)
  rw [Session.role, if_pos rfl] at hrefers
  exact hrefers.process ▸ hx

/-- **A WORKER SERVES ONE CLIENT**: when it accesses memory, that is the memory of the process
    of a client; it accesses no other memory later on, and whoever it replies to is that
    client. -/
theorem worker_client {s₁ s₂ : State b} {calls : List (List Call)} (hcalls : RegistersOnly calls)
    (hr₁ : (system b).Run Harmlessly (starting w calls) s₁) (hr₂ : (system b).Run Harmlessly s₁ s₂)
    (hn : s₁.next t = some o) (ho : accesses o = some h) :
    ∃ client, s₁.world.lpc.handles.lookup h = some (.process (processOf client))
      ∧ (∀ o₂ h₂, s₂.next t = some o₂ → accesses o₂ = some h₂ → h₂ = h
        ∧ s₂.world.lpc.handles.lookup h = some (.process (processOf client)))
      ∧ ∀ h₂ lm, s₂.next t = some (.kernel (.ntReplyWaitReplyPort h₂ lm)) →
        ∃ p, s₂.world.lpc.handles.lookup h₂ = some (.communicationPort p client) := by
  obtain ⟨ys, hys⟩ := run_plain hcalls hr₁
  obtain ⟨⟨hJ, -⟩, hwp⟩ := id hys
  obtain ⟨S, hS, rfl, hleft⟩ := (hys.pre_next hn).2.accesses ho
  have ht : t < s₁.threads.length := by
    obtain ⟨th, k, hth, -⟩ := Config.next_eq_some hn
    exact (List.getElem?_eq_some_iff.mp hth).1
  obtain ⟨ys', hys'⟩ := (client_method t S.client S.hClientProcess).run hr₂
    ⟨⟨hJ, ht, S, hS, rfl, rfl⟩, hwp⟩
  obtain ⟨⟨⟨-, H'⟩, -, S', hS', hclient, hprocess⟩, -⟩ := id hys'
  refine ⟨S.client, hJ.2.process hS hleft, ?_, ?_⟩
  · intro o₂ h₂ hn₂ ho₂
    obtain ⟨S₂, hS₂, rfl, hleft₂⟩ := (hys'.pre_next hn₂).2.accesses ho₂
    obtain rfl := Option.some.inj (hS'.symm.trans hS₂)
    refine ⟨hprocess, ?_⟩
    rw [← hprocess, ← hclient]
    exact H'.process hS' hleft₂
  · intro h₂ lm hn₂
    obtain ⟨S₂, hS₂, rfl, hleft₂, hne⟩ := (hys'.pre_next hn₂).2
    obtain rfl := Option.some.inj (hS'.symm.trans hS₂)
    obtain ⟨x, hx, hrefers⟩ := H'.refers t _ (held_session (H'.session t) hS' hleft₂)
    rw [Session.role, if_neg hne] at hrefers
    obtain ⟨p, rfl⟩ := hrefers.server
    exact ⟨p, hclient ▸ hx⟩

theorem worker_client_once : ∃ (s₁ s₂ : State .x64) (client : ClientId),
    (system .x64).runIf (fun s e => decide (Harmlessly s e)) reading registering = some s₁
      ∧ (system .x64).runIf (fun s e => decide (Harmlessly s e)) replying s₁ = some s₂
      ∧ s₁.world.lpc.handles.lookup 12 = some (.process (processOf client))
      ∧ ∀ h lm, s₂.next 2 = some (.kernel (.ntReplyWaitReplyPort h lm)) →
        ∃ p, s₂.world.lpc.handles.lookup h = some (.communicationPort p client) := by
  have hruns : ((system .x64).runIf (fun s e => decide (Harmlessly s e)) reading registering).map
      (fun s => ((s.next 2).bind accesses,
        ((system .x64).runIf (fun s e => decide (Harmlessly s e)) replying s).isSome))
      = some (some 12, true) := by decide +kernel
  obtain ⟨s₁, hs₁, he⟩ := Option.map_eq_some_iff.mp hruns
  obtain ⟨hread, hreply⟩ := Prod.mk.inj he
  obtain ⟨o, hn, ho⟩ := Option.bind_eq_some_iff.mp hread
  obtain ⟨s₂, hs₂⟩ := Option.isSome_iff_exists.mp hreply
  obtain ⟨client, hprocess, -, hport⟩ := worker_client registersOnly
    (Sys.run_of_runIf (fun _ _ h => of_decide_eq_true h) hs₁)
    (Sys.run_of_runIf (fun _ _ h => of_decide_eq_true h) hs₂) hn ho
  exact ⟨s₁, s₂, client, hs₁, hs₂, hprocess, hport⟩

end Results

end ScHandle
