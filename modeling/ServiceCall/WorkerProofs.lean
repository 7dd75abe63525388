import ServiceCall.WriteBackProofs

/-! # A worker by itself

    `WorkerThread` rewrites its captured list in the 32-bit build, maps it, and calls
    the routine with what the mapping made of it, or does without the routine when
    the mapping fails (`solo_workerThread`).  Apart from that it reads and writes no
    process, so what it did to its client is in five fields of the log (`Access`),
    which everything else leaves alone (`Aside`). -/

namespace ScSequential

open LinearMemory OwnedHeap OpProg ThreadSys ScParameter LpcMessage ScSystem
  ScServiceCall ScOwnership

variable {b : Build}

/-- What a worker owns: its descriptor, the message it answers and its list. -/
structure Employed (cells : Blocks) (lpService : LPVOID) (r : ServiceRoutine)
    (p : ServiceRoutineParameter) : Prop where
  routine : cells lpService = some (.routine r)
  message : ∃ m size, cells r.lm = some (.message m size)
  list    : cells r.lpParameters = some (.parameters p)

namespace Employed

variable {cells : Blocks} {lpService : LPVOID} {r : ServiceRoutine} {p : ServiceRoutineParameter}

/-- Blocks that stay are still its own. -/
theorem congr (E : Employed cells lpService r p) {cells' : Blocks}
    (h : ∀ a, cells a ≠ none → cells' a = cells a) : Employed cells' lpService r p := by
  obtain ⟨m, size, hm⟩ := E.message
  refine ⟨?_, ⟨m, size, ?_⟩, ?_⟩
  · rw [h _ (by rw [E.routine]; exact Option.some_ne_none _)]
    exact E.routine
  · rw [h _ (by rw [hm]; exact Option.some_ne_none _)]
    exact hm
  · rw [h _ (by rw [E.list]; exact Option.some_ne_none _)]
    exact E.list

/-- The content of a buffer changes. -/
theorem put_buffer (E : Employed cells lpService r p) {a : LPVOID} {bytes bytes' : List BYTE}
    (ha : cells a = some (.buffer bytes)) :
    Employed (Function.update cells a (some (.buffer bytes'))) lpService r p := by
  obtain ⟨m, size, hm⟩ := E.message
  have hne : ∀ c x, cells c = some x → x.kind ≠ .buffer → c ≠ a := by
    rintro c x hc hk rfl
    rw [ha] at hc
    obtain rfl := Option.some.inj hc
    exact hk rfl
  refine ⟨?_, ⟨m, size, ?_⟩, ?_⟩
  · rw [Function.update_of_ne (hne _ _ E.routine (by exact fun h => nomatch h))]
    exact E.routine
  · rw [Function.update_of_ne (hne _ _ hm (by exact fun h => nomatch h))]
    exact hm
  · rw [Function.update_of_ne (hne _ _ E.list (by exact fun h => nomatch h))]
    exact E.list

/-- The message is written. -/
theorem put_message (E : Employed cells lpService r p) (m : Nat → BYTE) (size : Nat) :
    Employed (Function.update cells r.lm (some (.message m size))) lpService r p := by
  obtain ⟨m₀, size₀, hm⟩ := E.message
  have hne : ∀ c x, cells c = some x → x.kind ≠ .message → c ≠ r.lm := by
    rintro c x hc hk rfl
    rw [hm] at hc
    obtain rfl := Option.some.inj hc
    exact hk rfl
  refine ⟨?_, ⟨m, size, Function.update_self ..⟩, ?_⟩
  · rw [Function.update_of_ne (hne _ _ E.routine (by exact fun h => nomatch h))]
    exact E.routine
  · rw [Function.update_of_ne (hne _ _ E.list (by exact fun h => nomatch h))]
    exact E.list

/-- The list is rewritten. -/
theorem put_list (E : Employed cells lpService r p) (q : ServiceRoutineParameter) :
    Employed (Function.update cells r.lpParameters (some (.parameters q))) lpService r q := by
  obtain ⟨m, size, hm⟩ := E.message
  have hne : ∀ c x, cells c = some x → x.kind ≠ .parameters → c ≠ r.lpParameters := by
    rintro c x hc hk rfl
    rw [E.list] at hc
    obtain rfl := Option.some.inj hc
    exact hk rfl
  refine ⟨?_, ⟨m, size, ?_⟩, Function.update_self ..⟩
  · rw [Function.update_of_ne (hne _ _ E.routine (by exact fun h => nomatch h))]
    exact E.routine
  · rw [Function.update_of_ne (hne _ _ hm (by exact fun h => nomatch h))]
    exact hm

end Employed

/-! ## What a worker does to its client -/

/-- The fields of a log about a client. -/
structure Access where
  reads   : List ((Nat × Nat) × Bool)
  writes  : List ((Nat × List BYTE) × Bool)
  refused : List Nat
  failed  : List Nat
  invoked : List (LPVOID × List ULONG64)

def Log.access (L : Log) : Access := ⟨L.reads, L.writes, L.refused, L.failed, L.invoked⟩

/-- The operations that do not touch them. -/
@[simp] def Aside : Op → Prop
  | .heap (.allocNothrow ..) => False
  | .kernel o =>
      match o with
      | .ntReadVirtualMemory .. => False
      | .ntWriteVirtualMemory .. => False
      | _ => True
  | .api o =>
      match o with
      | .note (.mapFailed ..) => False
      | .note (.invoked ..) => False
      | _ => True
  | _ => True

theorem access_grant (L : Log) (h : HANDLE) : (L.grant h).access = L.access := by
  unfold Log.grant
  split <;> rfl

theorem access_add {e : Sigma (Op.Ret b)} (he : Aside e.1) (L : Log) :
    (L.add e).access = L.access := by
  unfold Log.add
  split <;> (try split) <;> first | rfl | exact access_grant .. | exact he.elim

section Programs

variable {t n : Nat} {α : Type} {Q : α → Local b → Prop} {g : Local b}

/-- A program that keeps aside. -/
theorem solo_aside {p : Code b α} (hp : p.Only Aside)
    (hQ : ∀ a g', g'.log.access = g.log.access → Q a g') : wp (solo t n) p Q g := by
  refine wp_invariant (I := fun g' => g'.log.access = g.log.access) hp (fun _ _ _ _ => trivial)
    ?_ rfl hQ
  rintro o g₁ r g₂ ho h ⟨-, -, hlog⟩
  rw [hlog, access_add (e := ⟨o, r⟩) ho, h]

theorem aside_setStatus (lpService : LPVOID) (status : NTSTATUS) :
    (setStatus lpService status : Code b _).Only Aside :=
  only_setStatus (fun _ _ => trivial) trivial (fun _ _ => trivial) status

theorem aside_eraseLoop (dwThread k i : Nat) :
    (eraseLoop dwThread k i : Code b Unit).Only Aside := by
  induction k generalizing i with
  | zero => trivial
  | succ k ih =>
      refine Prog.only_op_bind.mpr ⟨trivial, fun e => ?_⟩
      split
      · exact ⟨trivial, fun _ => trivial⟩
      · exact ih (i + 1)

theorem aside_workerFinish (lpService : LPVOID) (dwThread : Nat) :
    (workerFinish lpService dwThread : Code b _).Only Aside := by
  refine Prog.only_op_bind.mpr ⟨trivial, fun n => ?_⟩
  have hload : ∀ {a}, (loadRoutine a : Code b _).Only Aside := only_loadRoutine.mpr trivial
  have hmodify : ∀ {a f}, (modifyMessage a f : Code b _).Only Aside :=
    only_modifyMessage.mpr ⟨trivial, fun _ => trivial⟩
  refine hload.bind fun _ => hmodify.bind fun _ => hload.bind fun _ => hmodify.bind fun _ => ?_
  refine hload.bind fun r => (only_loadMessage.mpr trivial).bind fun lm => ?_
  refine Prog.only_op_bind.mpr ⟨trivial, fun x => ?_⟩
  refine (only_receiveInto trivial (fun _ => trivial) x).bind fun _ => ?_
  refine Prog.only_op_bind.mpr ⟨trivial, fun _ => Prog.only_op_bind.mpr ⟨trivial, fun k => ?_⟩⟩
  refine (aside_eraseLoop ..).bind fun _ => Prog.only_op_bind.mpr ⟨trivial, fun _ => ?_⟩
  refine hload.bind fun _ => Prog.only_op_bind.mpr ⟨trivial, fun _ => ?_⟩
  refine hload.bind fun _ => Prog.only_op_bind.mpr ⟨trivial, fun _ => ?_⟩
  refine hload.bind fun _ => Prog.only_op_bind.mpr ⟨trivial, fun _ => ?_⟩
  exact Prog.only_op_bind.mpr ⟨trivial, fun _ => ⟨trivial, fun _ => trivial⟩⟩

/-- There is nothing after it. -/
theorem solo_workerFinish_none (lpService : LPVOID) (dwThread : Nat) :
    wp (solo t n) (workerFinish lpService dwThread : Code b _) (fun l _ => l = none) g := by
  unfold workerFinish
  repeat refine solo_any fun _ _ => ?_
  exact rfl

/-- The end of a worker. -/
theorem solo_finish {p : Code b α} (hp : p.Only Aside) {lpService : LPVOID} {dwThread : Nat}
    {P : Option Label → Local b → Prop}
    (hP : ∀ g', g'.log.access = g.log.access → P none g') :
    wp (solo t n) (p >>= fun _ => workerFinish lpService dwThread) P g := by
  have h₁ : wp (solo t n) (p >>= fun _ => workerFinish lpService dwThread)
      (fun _ g' => g'.log.access = g.log.access) g :=
    solo_aside (hp.bind fun _ => aside_workerFinish ..) fun _ _ h => h
  have h₂ : wp (solo t n) (p >>= fun _ => workerFinish lpService dwThread)
      (fun l _ => l = none) g := solo_any fun _ _ => solo_workerFinish_none ..
  refine wp_mono ?_ (wp_and h₁ h₂)
  rintro _ g' ⟨h, rfl⟩
  exact hP g' h

theorem aside_rtlUnmapPtrParameters (a : LPVOID) :
    (rtlUnmapPtrParameters a : Code b Unit).Only Aside :=
  only_rtlUnmapPtrParameters trivial fun _ => trivial

/-! ## The 32-bit build -/

theorem solo_normalizeLoop {a : LPVOID} {p : ServiceRoutineParameter} {f : Unit → Code b α}
    (hf : wp (solo t n) (f ()) Q (g.put a (some (.parameters (normalizeParameters p))))) :
    ∀ k pre post, post.length = k → p.parameters = pre ++ post →
      wp (solo t n) (normalizeLoop a k pre.length >>= f) Q
        (g.put a (some (.parameters ⟨pre.map normalizeBlob ++ post⟩))) := by
  intro k
  induction k with
  | zero =>
      intro pre post hlen hp
      obtain rfl := List.length_eq_zero_iff.mp hlen
      rw [List.append_nil] at hp
      rw [List.append_nil, ← hp]
      exact hf
  | succ k ih =>
      intro pre post hlen hp
      obtain ⟨e, post, rfl, hpost⟩ := exists_cons hlen
      rw [normalizeLoop, Prog.bind_assoc]
      refine solo_loadParameters (Local.put_cells_self ..) ?_
      intro _
      have he : entry ⟨pre.map normalizeBlob ++ e :: post⟩ pre.length = e := by
        have := entry_append (pre.map normalizeBlob) e post
        rwa [List.length_map] at this
      rw [Prog.bind_assoc, he]
      refine solo_storeEntry (Local.put_cells_self ..) ?_
      have hset : (pre.map normalizeBlob ++ e :: post).set pre.length (normalizeBlob e)
          = (pre ++ [e]).map normalizeBlob ++ post := by
        have := set_append_cons (pre.map normalizeBlob) e (normalizeBlob e) post
        rw [List.length_map] at this
        rw [this]
        simp
      rw [Local.put_put, hset]
      have := ih (pre ++ [e]) post hpost (by rw [hp]; simp)
      rwa [List.length_append] at this

theorem put_eq_self {a : LPVOID} {x : Option Block} (h : g.cells a = x) : g.put a x = g := by
  refine Local.eq_of ?_ rfl rfl
  rw [← h]
  exact Function.update_eq_self ..

theorem solo_normalize {lpService : LPVOID} {r : ServiceRoutine} {p : ServiceRoutineParameter}
    (hr : g.cells lpService = some (.routine r))
    (hp : g.cells r.lpParameters = some (.parameters p)) {f : Unit → Code b α}
    (hf : wp (solo t n) (f ()) Q
      (g.put r.lpParameters (some (.parameters (normalized b p))))) :
    wp (solo t n) (normalize lpService >>= f) Q g := by
  unfold ScServiceCall.normalize
  cases b with
  | x64 =>
      rw [show normalized .x64 p = p from rfl, put_eq_self hp] at hf
      exact hf
  | x86 =>
      rw [Prog.bind_assoc]
      refine solo_loadRoutine hr ?_
      intro _
      rw [Prog.bind_assoc]
      refine solo_loadParameters hp ?_
      intro _
      have := solo_normalizeLoop (f := f) hf p.dwParameters [] p.parameters rfl rfl
      rwa [List.map_nil, List.nil_append, put_eq_self hp] at this

/-! ## Up to the routine -/

/-- What the mapping of `ps` does to the client. -/
def Access.mapped (b : Build) (A : Access) (ps : List ServiceParameterBlob) : Access :=
  { A with reads := A.reads ++ (mapRanges b ps).map (·, true) }

/-- A mapping that fails behind the entries `pre` at the entry `e`. -/
def Access.FailsAt (b : Build) (A : Access) (pre : List ServiceParameterBlob)
    (e : ServiceParameterBlob) (A' : Access) : Prop :=
  A' = { A.mapped b pre with refused := A.refused ++ [e.dwMaxBufferSize.toNat]
                             failed := A.failed ++ [pre.length] } ∨
  A' = { A.mapped b pre with reads := (A.mapped b pre).reads ++ [(clientRange b e, false)]
                             failed := A.failed ++ [pre.length] }

/-- **A WORKER** maps its list and calls the routine with it, or the mapping fails and it
    ends. -/
theorem solo_workerThread {lpService : LPVOID} {r : ServiceRoutine}
    {p : ServiceRoutineParameter} {Q : Option Label → Local b → Prop}
    (E : Employed g.cells lpService r p)
    (hok : ∀ g' tmp q dwThread, Employed g'.cells lpService r (normalized b p) →
      g'.cells tmp = some (.parameters ⟨q⟩) →
      List.Forall₂ (MapsTo b (clientOf g.lpc r.hClientProcess) g'.cells)
        (normalized b p).parameters q →
      g'.log.access = { g.log.access.mapped b (normalized b p).parameters with
        invoked := g.log.invoked ++ [(r.lpRoutine, arguments b ⟨q⟩)] } →
      Q (some (.routine lpService tmp dwThread (buffers b ⟨q⟩))) g')
    (hno : ∀ g' pre e post, (normalized b p).parameters = pre ++ e :: post →
      needsBuffer e = true → g.log.access.FailsAt b pre e g'.log.access → Q none g') :
    wp (solo t n) (workerThread lpService) Q g := by
  rw [workerThread]
  refine solo_quiet.bind (by simp) ?_
  intro _
  refine solo_loadRoutine E.routine ?_
  intro _
  refine solo_quiet.bind (by simp) ?_
  intro dwThread
  refine solo_quiet.bind (by simp) ?_
  intro _
  refine solo_quiet.bind (by simp) ?_
  intro _
  refine solo_normalize E.routine E.list ?_
  have E' : Employed (g.put r.lpParameters (some (.parameters (normalized b p)))).cells
      lpService r (normalized b p) := E.put_list _
  refine solo_loadRoutine E'.routine ?_
  intro _
  refine solo_rtlMapPtrParameters E'.list ?_ ?_
  -- mapped: the routine is called
  · intro g' tmp q H hlog hmaps
    rw [if_neg H.fresh.1]
    have E'' : Employed g'.cells lpService r (normalized b p) := E'.congr fun a ha => H.old ha
    refine solo_loadRoutine E''.routine ?_
    intro _
    have hlist : g'.cells tmp = some (.parameters ⟨q⟩) := by
      rw [← List.append_nil q]
      exact H.list
    refine solo_loadParameters hlist ?_
    intro _
    refine wp_op_bind.mpr ⟨trivial, ?_⟩
    rintro _ g'' ⟨hc, hk, hL⟩
    refine hok g'' tmp q dwThread (hc ▸ E'') (hc ▸ hlist) (hc ▸ hmaps) ?_
    rw [hL]
    show (g'.log.invoke _ _).access = _
    rw [hlog]
    rfl
  -- not mapped: the rest touches no buffer of the client
  · intro g' tmp leftover pre e post done e' hp hlen he H hfail
    rw [if_pos rfl]
    rw [← Prog.bind_assoc]
    refine solo_finish ((aside_rtlUnmapPtrParameters tmp).bind fun _ => aside_setStatus ..) ?_
    intro g'' hg''
    refine hno g'' pre e post hp he ?_
    rw [hg'']
    rcases hfail with h | h
    · refine Or.inl ?_
      rw [h]
      rfl
    · refine Or.inr ?_
      rw [h]
      rfl

end Programs

end ScSequential
