import ServiceCall.DispatchProofs

/-! # The addresses of a worker

    A worker reads where the pointers of its list point, and writes there after the
    routine returned, from its start to its end (`worker_touched`).  The list is the
    one that the client sent with each pointer cut to the width of the service, so
    these are the addresses that the client named exactly when nothing was cut off a
    pointer that the mapping came to (`addresses_exact`). -/

namespace ScSequential

open LinearMemory OwnedHeap OpProg ThreadSys ScParameter LpcMessage ScSystem
  ScServiceCall ScOwnership

variable {b : Build}

/-! ## Writing back whatever the routine left -/

/-- A write to the start of a range, of no more than the range. -/
def WriteIn (range : Nat × Nat) (x : (Nat × List BYTE) × Bool) : Prop :=
  x.1.1 = range.1 ∧ x.1.2.length ≤ range.2

/-- The writes for the first entries of a list. -/
def WritesFor (range : ServiceParameterBlob → Nat × Nat) (es : List ServiceParameterBlob)
    (ws : List ((Nat × List BYTE) × Bool)) : Prop :=
  ∃ k, List.Forall₂ WriteIn (((es.take k).filter writesEntry).map range) ws

theorem writesFor_nil (range : ServiceParameterBlob → Nat × Nat)
    (es : List ServiceParameterBlob) : WritesFor range es [] := ⟨0, .nil⟩

namespace WritesFor

variable {range : ServiceParameterBlob → Nat × Nat} {e : ServiceParameterBlob}
  {es : List ServiceParameterBlob} {x : (Nat × List BYTE) × Bool}
  {ws : List ((Nat × List BYTE) × Bool)}

theorem cons (h : WritesFor range es ws) (he : writesEntry e = true)
    (hx : WriteIn (range e) x) : WritesFor range (e :: es) (x :: ws) := by
  obtain ⟨k, hk⟩ := h
  refine ⟨k + 1, ?_⟩
  rw [List.take_succ_cons, List.filter_cons_of_pos he]
  exact .cons hx hk

theorem skip (h : WritesFor range es ws) (he : ¬ writesEntry e = true) :
    WritesFor range (e :: es) ws := by
  obtain ⟨k, hk⟩ := h
  refine ⟨k + 1, ?_⟩
  rw [List.take_succ_cons, List.filter_cons_of_neg he]
  exact hk

end WritesFor

section Sync

variable {t n : Nat} {α : Type} {Q : α → Local b → Prop} {h : HANDLE} {src tmp : LPVOID}
  {f : Bool → Code b α}

/-- The loop of `RtlSyncMappedPtrParameters` writes for the entries of the first list,
    whatever the second one is. -/
theorem solo_syncLoop_any {own : Blocks} : ∀ k pre post (g : Local b),
    g.cells = own → own src = some (.parameters ⟨pre ++ post⟩) → post.length = k →
    (∀ ok ws g', g'.cells = own → WritesFor (clientRange b) post ws →
      g'.log.access = { g.log.access with writes := g.log.access.writes ++ ws } →
      wp (solo t n) (f ok) Q g') →
    wp (solo t n) (syncLoop h src tmp k pre.length >>= f) Q g := by
  intro k
  induction k with
  | zero =>
      intro pre post g hown _ _ hf
      refine hf true [] g hown (writesFor_nil _ post) ?_
      rw [List.append_nil]
  | succ k ih =>
      intro pre post g hown hsrc hpost hf
      obtain ⟨e, post, rfl, hpost'⟩ := exists_cons hpost
      have hsrc' : own src = some (.parameters ⟨(pre ++ [e]) ++ post⟩) := by
        rw [List.append_assoc]
        exact hsrc
      have hnext : pre.length + 1 = (pre ++ [e]).length := by simp
      rw [syncLoop, Prog.bind_assoc]
      refine solo_loadParameters (by rw [hown]; exact hsrc) ?_
      intro _
      rw [entry_append]
      show wp _ ((if writesEntry e = true then _ else _) >>= f) Q g
      by_cases he : writesEntry e = true
      · rw [if_pos he, Prog.bind_assoc]
        refine solo_quiet.bind (by simp [loadParameters]) ?_
        intro q
        rw [Prog.bind_assoc]
        refine solo_quiet.bind (by simp [loadBuffer]) ?_
        intro bytes
        rw [Prog.bind_assoc]
        have hwrite : ∀ ok, WriteIn (clientRange b e) (((b.toPointer e.ulParameter).toNat,
            bytes.take e.dwMaxBufferSize.toNat), ok) :=
          fun ok => ⟨rfl, List.length_take_le _ _⟩
        refine solo_write ?_ ?_
        · intro pid _ _
          rw [if_pos (by rfl), hnext]
          refine ih (pre ++ [e]) post _ hown hsrc' hpost' ?_
          intro ok ws g' hcells hws hlog
          refine hf ok _ g' hcells (hws.cons he (hwrite true)) ?_
          rw [hlog]
          simp [Local.withLpc, Local.logged, Log.write, Log.access]
        · intro st hst
          rw [if_neg (by rw [hst]; exact Bool.false_ne_true)]
          exact hf false _ _ hown ((writesFor_nil _ post).cons he (hwrite false)) rfl
      · rw [if_neg he, hnext]
        refine ih (pre ++ [e]) post g hown hsrc' hpost' ?_
        intro ok ws g' hcells hws hlog
        exact hf ok ws g' hcells (hws.skip he) hlog

end Sync

/-! ## From the start of a worker to its end -/

/-- How many entries of its list a worker came to: all of them unless the mapping failed, at
    an entry that it may have got a buffer for. -/
def reached (p : ServiceRoutineParameter) (A : Access) : Nat :=
  match A.failed with
  | [] => p.dwParameters
  | j :: _ => if A.refused = [] then j + 1 else j

/-- What a worker with the list `p` did to its client. -/
structure Touched (b : Build) (p : ServiceRoutineParameter) (A : Access) : Prop where
  reads  : A.reads.map (·.1) = mapRanges b ((normalized b p).parameters.take (reached p A))
  writes : WritesFor (clientRange b) (normalized b p).parameters A.writes
  whole  : reached p A = p.dwParameters ∨ (A.invoked = [] ∧ A.writes = [])

@[simp] theorem normalized_dwParameters (b : Build) (p : ServiceRoutineParameter) :
    (normalized b p).dwParameters = p.dwParameters := by
  rw [ServiceRoutineParameter.dwParameters, normalized_parameters, List.length_map]
  rfl

/-- The mapping came to the end. -/
theorem touched_called {p : ServiceRoutineParameter} {A : Access}
    (hreads : A.reads = (mapRanges b (normalized b p).parameters).map (·, true))
    (hfailed : A.failed = [])
    (hwrites : WritesFor (clientRange b) (normalized b p).parameters A.writes) :
    Touched b p A := by
  have hreached : reached p A = p.dwParameters := by rw [reached, hfailed]
  refine ⟨?_, hwrites, Or.inl hreached⟩
  rw [hreached, ← normalized_dwParameters b p, ServiceRoutineParameter.dwParameters,
    List.take_length, hreads, List.map_map]
  exact List.map_id _

/-- The mapping failed. -/
theorem touched_failed {p : ServiceRoutineParameter} {A : Access}
    {pre post : List ServiceParameterBlob} {e : ServiceParameterBlob}
    (hp : (normalized b p).parameters = pre ++ e :: post) (he : needsBuffer e = true)
    (hfail : Access.FailsAt b ⟨[], [], [], [], []⟩ pre e A) : Touched b p A := by
  have hpre : ∀ es : List ServiceParameterBlob,
      ((mapRanges b es).map fun x => (x, true)).map Prod.fst = mapRanges b es := by
    intro es
    rw [List.map_map]
    exact List.map_id _
  rcases hfail with rfl | rfl
  · refine ⟨?_, writesFor_nil .., Or.inr ⟨rfl, rfl⟩⟩
    show _ = mapRanges b ((normalized b p).parameters.take pre.length)
    rw [hp, List.take_left]
    exact hpre pre
  · refine ⟨?_, writesFor_nil .., Or.inr ⟨rfl, rfl⟩⟩
    show (((mapRanges b pre).map fun x => (x, true)) ++ [(clientRange b e, false)]).map
      Prod.fst = mapRanges b ((normalized b p).parameters.take (pre.length + 1))
    have htake : (normalized b p).parameters.take (pre.length + 1) = pre ++ [e] := by
      rw [hp, List.take_length_add_append]
      rfl
    rw [htake, List.map_append, hpre]
    simp [mapRanges, he]

/-- The client of the worker while and after its routine runs. -/
def Called (b : Build) (r : ServiceRoutine) (p : ServiceRoutineParameter) (A : Access) : Prop :=
  ∃ q, A = ⟨(mapRanges b (normalized b p).parameters).map (·, true), [], [], [],
    [(r.lpRoutine, arguments b q)]⟩

/-- A worker at a label. -/
def At (b : Build) (lpService : LPVOID) (r : ServiceRoutine) (p : ServiceRoutineParameter) :
    Option Label → Local b → Prop
  | some (.routine d _ _ bufs), g => d = lpService ∧ Employed g.cells lpService r (normalized b p)
      ∧ (∀ a ∈ bufs, ∃ bytes, g.cells a = some (.buffer bytes)) ∧ Called b r p g.log.access
  | some (.workerReturn d _ _ _), g => d = lpService
      ∧ Employed g.cells lpService r (normalized b p) ∧ Called b r p g.log.access
  | none, g => Touched b p g.log.access
  | _, _ => False

section Labels

variable {t n : Nat} {g : Local b} {lpService tmp : LPVOID} {dwThread : Nat}
  {bufs : List LPVOID} {r : ServiceRoutine} {p : ServiceRoutineParameter}

/-- The routine changes buffers. -/
theorem solo_routine (h : At b lpService r p (some (.routine lpService tmp dwThread bufs)) g) :
    wp (solo t n) (routine lpService tmp dwThread bufs) (At b lpService r p) g := by
  obtain ⟨-, E, hbufs, hcalled⟩ := h
  unfold routine
  refine solo_quiet.bind (by simp) ?_
  intro act
  cases act with
  | write i k v =>
      show wp _ (routineWrite bufs i k v >>= _) _ _
      unfold routineWrite
      cases hi : bufs[i]? with
      | none => exact ⟨rfl, E, hbufs, hcalled⟩
      | some a =>
          obtain ⟨bytes, ha⟩ := hbufs a (List.mem_of_getElem? hi)
          show wp _ ((loadBuffer a >>= _) >>= _) _ _
          rw [Prog.bind_assoc]
          refine solo_loadBuffer ha ?_
          split
          · refine solo_store (y := .buffer (bytes.set k v)) ha rfl ?_
            refine ⟨rfl, E.put_buffer ha, ?_, hcalled⟩
            intro a' ha'
            by_cases heq : a' = a
            · subst heq
              exact ⟨_, Local.put_cells_self ..⟩
            · rw [Local.put_cells_ne _ heq]
              exact hbufs a' ha'
          · exact ⟨rfl, E, hbufs, hcalled⟩
  | clientId =>
      refine solo_quiet.bind quiet_rtlSafeThreadServiceClientId ?_
      intro result
      refine solo_quiet.bind (by simp) ?_
      intro _
      exact ⟨rfl, E, hbufs, hcalled⟩
  | ret status => exact ⟨rfl, E, hcalled⟩

/-- The buffers are written back, and the worker ends. -/
theorem solo_workerReturn {status : NTSTATUS}
    (h : At b lpService r p (some (.workerReturn lpService tmp dwThread status)) g) :
    wp (solo t n) (workerReturn lpService tmp dwThread status) (At b lpService r p) g := by
  obtain ⟨-, E, q, hcalled⟩ := h
  obtain ⟨m, size, hm⟩ := E.message
  unfold workerReturn setStatus
  rw [Prog.bind_assoc]
  refine solo_loadRoutine E.routine ?_
  intro _
  rw [Prog.bind_assoc]
  refine solo_quiet.bind (by simp) ?_
  intro k
  refine solo_modifyMessage hm ?_
  intro _
  have E' := E.put_message (writeStatus k status m) size
  refine solo_loadRoutine E'.routine ?_
  intro _
  rw [rtlSyncMappedPtrParameters, Prog.bind_assoc]
  refine solo_loadParameters E'.list ?_
  intro _
  refine solo_syncLoop_any _ [] (normalized b p).parameters _ rfl E'.list rfl ?_
  intro ok ws g' _ hws hlog
  have htouched : Touched b p g'.log.access := by
    have hlog' : g'.log.access = { g.log.access with writes := g.log.access.writes ++ ws } := hlog
    rw [hcalled] at hlog'
    rw [hlog']
    exact touched_called rfl rfl hws
  cases ok with
  | true =>
      refine solo_finish (aside_rtlUnmapPtrParameters tmp) ?_
      intro g'' hg''
      show Touched b p g''.log.access
      rw [hg'']
      exact htouched
  | false =>
      show wp _ (setStatus lpService STATUS_ACCESS_DENIED >>= fun _ =>
        rtlUnmapPtrParameters tmp >>= fun _ => workerFinish lpService dwThread) _ _
      rw [← Prog.bind_assoc]
      refine solo_finish ((aside_setStatus ..).bind fun _ => aside_rtlUnmapPtrParameters tmp) ?_
      intro g'' hg''
      show Touched b p g''.log.access
      rw [hg'']
      exact htouched

/-- Every label keeps it. -/
theorem solo_at {l : Label} (h : At b lpService r p (some l) g) :
    wp (solo t n) (code l) (At b lpService r p) g := by
  cases l with
  | routine d tmp dwThread bufs =>
      obtain rfl : d = lpService := h.1
      exact solo_routine h
  | workerReturn d tmp dwThread status =>
      obtain rfl : d = lpService := h.1
      exact solo_workerReturn h
  | _ => exact h.elim

end Labels

/-- A mapped list points to buffers. -/
theorem buffers_live {client : Option (HANDLE × VirtualMemory)} {own : Blocks}
    {ps qs : List ServiceParameterBlob} (h : List.Forall₂ (MapsTo b client own) ps qs) :
    ∀ a ∈ buffers b ⟨qs⟩, ∃ bytes, own a = some (.buffer bytes) := by
  induction h with
  | nil =>
      intro a ha
      exact nomatch ha
  | @cons e e' ps qs hmaps _ ih =>
      intro a ha
      obtain ⟨e'', he'', hptr, h0, rfl⟩ := mem_buffers.mp ha
      rcases List.mem_cons.mp he'' with rfl | hmem
      · unfold MapsTo at hmaps
        split at hmaps
        · obtain ⟨a, bytes, rfl, -, ha', hlive, -⟩ := hmaps
          exact ⟨bytes, by rw [ha']; exact hlive⟩
        · next hb =>
            subst hmaps
            have := unbuffered hb
            rw [hptr] at this
            simp [h0] at this
      · exact ih _ (mem_buffers.mpr ⟨e'', hmem, hptr, h0, rfl⟩)

section Runs

variable {t n : Nat} {w w₁ w₂ : World b} {tr₁ tr₂ : Events b} {lpService : LPVOID}
  {r : ServiceRoutine} {p : ServiceRoutineParameter} {l₁ l₂ : Option Label}

/-- A worker between its labels. -/
theorem At.touched {g : Local b} {l : Option Label} (h : At b lpService r p l g) :
    Touched b p g.log.access := by
  have hcalled : ∀ {A}, Called b r p A → Touched b p A := by
    rintro _ ⟨q, rfl⟩
    exact touched_called rfl rfl (writesFor_nil ..)
  match l with
  | none => exact h
  | some (.routine ..) => exact hcalled h.2.2.2
  | some (.workerReturn ..) => exact hcalled h.2.2

/-- **A WORKER TOUCHES** what the pointers of its list say, wherever it is. -/
theorem worker_touched (E : Employed w.heap.cells lpService r p)
    (hrun : (workerThread lpService : Code b _).Runs (Alone t n) w tr₁ l₁ w₁)
    (hsteps : Steps t n l₁ w₁ tr₂ l₂ w₂) : Touched b p (logOf (tr₁ ++ tr₂)).access := by
  suffices H : At b lpService r p l₂ (Local.of w₂ (tr₁ ++ tr₂)) from H.touched
  refine steps_sound (fun _ _ => solo_at) ?_ hsteps
  rcases workerThread_run E hrun with ⟨tmp, q, dwThread, rfl, E', -, hmaps, hlog⟩
    | ⟨rfl, pre, e, post, hp, he, hfail⟩
  · exact ⟨rfl, E', buffers_live hmaps, q, hlog⟩
  · exact touched_failed hp he hfail

end Runs

/-! ## What the client sent -/

/-- The range that the client named. -/
def sentRange (e : ServiceParameterBlob) : Nat × Nat :=
  (e.ulParameter.toNat, e.dwMaxBufferSize.toNat)

/-- The addresses that a worker reads and writes are those that the client sent, each for
    its parameter, and a pointer that the service cannot represent makes the call fail. -/
structure Exact (b : Build) (p : ServiceRoutineParameter) (A : Access) : Prop where
  reads  : A.reads.map (·.1)
    = ((p.parameters.take (reached p A)).filter needsBuffer).map sentRange
  writes : WritesFor sentRange p.parameters A.writes
  fails  : (∃ e ∈ p.parameters, needsBuffer e = true
    ∧ b.toPointer e.ulParameter ≠ e.ulParameter) → A.invoked = []

section Ranges

variable {e : ServiceParameterBlob} {es : List ServiceParameterBlob}

theorem needsBuffer_of_normalized (h : maskRefused e.parameterMask = false)
    (hb : needsBuffer (normalizedBlob b e) = true) : needsBuffer e = true := by
  rw [needsBuffer, Bool.and_eq_true, Bool.or_eq_true] at hb ⊢
  rw [normalizedBlob_mask] at hb
  refine ⟨hb.1, hb.2.imp_right ?_⟩
  intro h0
  rw [normalizedBlob_pointer h hb.1] at h0
  rw [bne_iff_ne] at h0 ⊢
  rintro h0'
  exact h0 (by rw [h0']; exact toPointer_zero b)

/-- A pointer that can be represented stays. -/
theorem normalizedBlob_of_representable (h : maskRefused e.parameterMask = false)
    (hb : hasBits e.parameterMask 0b01000000 = true)
    (hu : b.toPointer e.ulParameter = e.ulParameter) : normalizedBlob b e = e := by
  rw [normalizedBlob_pointer h hb, hu]

theorem clientRange_of_representable (hu : b.toPointer e.ulParameter = e.ulParameter) :
    clientRange b e = sentRange e := by rw [clientRange, hu, sentRange]

/-- No more is read than is to be read. -/
theorem length_mapRanges_le (h : ∀ e ∈ es, maskRefused e.parameterMask = false) :
    (mapRanges b (es.map (normalizedBlob b))).length
      ≤ ((es.filter needsBuffer).map sentRange).length := by
  rw [mapRanges, List.length_map, List.length_map, List.filter_map, List.length_map]
  rw [← List.countP_eq_length_filter, ← List.countP_eq_length_filter]
  exact List.countP_mono_left fun e he => needsBuffer_of_normalized (h e he)

/-- **WHAT IS READ IS WHAT WAS NAMED** when all pointers that are to be read can be
    represented. -/
theorem mapRanges_eq_iff (h : ∀ e ∈ es, maskRefused e.parameterMask = false) :
    mapRanges b (es.map (normalizedBlob b)) = (es.filter needsBuffer).map sentRange
      ↔ ∀ e ∈ es, needsBuffer e = true → b.toPointer e.ulParameter = e.ulParameter := by
  induction es with
  | nil => simp [mapRanges]
  | cons e es ih =>
      have hvalid := h e List.mem_cons_self
      have hes : ∀ e ∈ es, maskRefused e.parameterMask = false :=
        fun e he => h e (List.mem_cons_of_mem _ he)
      rw [List.forall_mem_cons, ← ih hes]
      by_cases he : needsBuffer e = true
      · have hptr : hasBits e.parameterMask 0b01000000 = true := by
          rw [needsBuffer, Bool.and_eq_true] at he
          exact he.1
        rw [List.filter_cons_of_pos he, List.map_cons, List.map_cons]
        by_cases hb : needsBuffer (normalizedBlob b e) = true
        · rw [mapRanges, List.filter_cons_of_pos hb, List.map_cons, List.cons.injEq,
            clientRange_normalizedBlob hvalid hptr]
          refine and_congr ⟨?_, fun hu => clientRange_of_representable (hu he)⟩ Iff.rfl
          intro hrange _
          exact UInt64.toNat_inj.mp (congrArg Prod.fst hrange)
        · -- it was cut to null, so the rest is too short
          rw [mapRanges, List.filter_cons_of_neg hb]
          constructor
          · intro heq
            have hle := length_mapRanges_le (b := b) hes
            have hlen := congrArg List.length heq
            rw [mapRanges] at hle
            rw [List.length_cons] at hlen
            omega
          · rintro ⟨hu, -⟩
            rw [normalizedBlob_of_representable hvalid hptr (hu he)] at hb
            exact absurd he hb
      · have hb : ¬ needsBuffer (normalizedBlob b e) = true :=
          fun hb => he (needsBuffer_of_normalized hvalid hb)
        rw [List.filter_cons_of_neg he, List.map_cons, mapRanges, List.filter_cons_of_neg hb]
        exact ⟨fun heq => ⟨fun hb => absurd hb he, heq⟩, And.right⟩

/-- So it is with what is written. -/
theorem writesFor_of_representable {ws : List ((Nat × List BYTE) × Bool)}
    (h : ∀ e ∈ es, maskRefused e.parameterMask = false)
    (hu : ∀ e ∈ es, needsBuffer e = true → b.toPointer e.ulParameter = e.ulParameter)
    (hws : WritesFor (clientRange b) (es.map (normalizedBlob b)) ws) :
    WritesFor sentRange es ws := by
  obtain ⟨k, hk⟩ := hws
  refine ⟨k, ?_⟩
  have hfilter : ∀ es' : List ServiceParameterBlob, (∀ e ∈ es', e ∈ es) →
      ((es'.map (normalizedBlob b)).filter writesEntry).map (clientRange b)
        = (es'.filter writesEntry).map sentRange := by
    intro es' hsub
    rw [List.filter_map, List.map_map]
    have hcongr : ∀ e ∈ es', (writesEntry ∘ normalizedBlob b) e = writesEntry e := by
      intro e he
      show writesEntry (normalizedBlob b e) = writesEntry e
      by_cases hptr : hasBits e.parameterMask 0b01000000 = true
      · rw [normalizedBlob_of_representable (h e (hsub e he)) hptr]
        by_cases h0 : e.ulParameter = 0
        · rw [h0]
          exact toPointer_zero b
        · refine hu e (hsub e he) ?_
          rw [needsBuffer, hptr]
          simp [h0]
      · rw [Bool.not_eq_true] at hptr
        rw [writesEntry, writesEntry, normalizedBlob_mask, hptr]
        rfl
    rw [List.filter_congr hcongr]
    refine List.map_congr_left ?_
    intro e he
    obtain ⟨he, hw⟩ := List.mem_filter.mp he
    have hneeds := needsBuffer_of_writesEntry hw
    have hptr : hasBits e.parameterMask 0b01000000 = true := by
      rw [writesEntry, Bool.and_eq_true] at hw
      exact hw.1
    have hrep := hu e (hsub e he) hneeds
    show clientRange b (normalizedBlob b e) = sentRange e
    rw [normalizedBlob_of_representable (h e (hsub e he)) hptr hrep,
      clientRange_of_representable hrep]
  rw [← List.map_take, hfilter _ fun e he => List.mem_of_mem_take he] at hk
  exact hk

end Ranges

/-- What is touched is what the client named when the pointers that count can be
    represented. -/
theorem Touched.exact_iff {p : ServiceRoutineParameter} {A : Access} (T : Touched b p A)
    (hp : p.Valid) : Exact b p A ↔ ∀ e ∈ p.parameters.take (reached p A), needsBuffer e = true →
      b.toPointer e.ulParameter = e.ulParameter := by
  have htake : ∀ e ∈ p.parameters.take (reached p A), maskRefused e.parameterMask = false :=
    fun e he => hp e (List.mem_of_mem_take he)
  have hreads := T.reads
  rw [normalized_parameters, ← List.map_take] at hreads
  constructor
  · intro X
    exact (mapRanges_eq_iff htake).mp (hreads.symm.trans X.reads)
  · intro hu
    refine ⟨hreads.trans ((mapRanges_eq_iff htake).mpr hu), ?_, ?_⟩
    · rcases T.whole with hwhole | ⟨-, hnone⟩
      · rw [hwhole, ServiceRoutineParameter.dwParameters, List.take_length] at hu
        have hwrites := T.writes
        rw [normalized_parameters] at hwrites
        exact writesFor_of_representable hp hu hwrites
      · rw [hnone]
        exact writesFor_nil ..
    · rintro ⟨e, he, hb, hne⟩
      rcases T.whole with hwhole | ⟨hnone, -⟩
      · rw [hwhole, ServiceRoutineParameter.dwParameters, List.take_length] at hu
        exact absurd (hu e he hb) hne
      · exact hnone

/-- **THE ADDRESSES ARE THE CLIENT'S** exactly when every pointer that the worker came to can
    be represented. -/
theorem addresses_exact {t n : Nat} {w w₁ w₂ : World b} {tr₁ tr₂ : Events b}
    {lpService : LPVOID} {r : ServiceRoutine} {p : ServiceRoutineParameter}
    {l₁ l₂ : Option Label} (E : Employed w.heap.cells lpService r p) (hp : p.Valid)
    (hrun : (workerThread lpService : Code b _).Runs (Alone t n) w tr₁ l₁ w₁)
    (hsteps : Steps t n l₁ w₁ tr₂ l₂ w₂) :
    Exact b p (logOf (tr₁ ++ tr₂)).access ↔
      ∀ e ∈ p.parameters.take (reached p (logOf (tr₁ ++ tr₂)).access), needsBuffer e = true →
        b.toPointer e.ulParameter = e.ulParameter :=
  (worker_touched E hrun hsteps).exact_iff hp

/-- A pointer to one byte. -/
def pointerTo (u : ULONG64) : ServiceRoutineParameter := ⟨[⟨0x40, 1, u⟩]⟩

/-- The choices of a worker of the 32-bit build with one pointer. -/
def dispatchesPointer : List (Choice .x86) :=
  List.replicate 12 .ok ++ .fresh 64 (.parameters ⟨[⟨0, 0, 0⟩]⟩) :: .ok :: .ok :: .ok ::
    .fresh 80 (.buffer [0]) :: List.replicate 7 .ok

/-- A pointer below 4 GiB is read where it points. -/
theorem addresses_exact_low : ∃ (w' : World .x86) (tr : Events .x86) (l : Option Label),
    (workerThread 16 : Code .x86 _).Runs (Alone 0 1) (employee .x86 (pointerTo 100)) tr l w'
      ∧ Exact .x86 (pointerTo 100) (logOf (tr ++ [])).access := by
  have hrun : (perform 0 1 (workerThread 16) dispatchesPointer
      (employee .x86 (pointerTo 100))).map (fun x => (logOf x.1).failed)
      = some [] := by decide +kernel
  obtain ⟨⟨tr, l, w'⟩, hrun, -⟩ := Option.map_eq_some_iff.mp hrun
  have hrun := perform_runs hrun
  refine ⟨w', tr, l, hrun,
    (addresses_exact (employed_employee ..) (by decide) hrun (.refl ..)).mpr ?_⟩
  intro e he _
  obtain rfl := List.mem_singleton.mp (List.mem_of_mem_take he)
  rfl

/-- One above is cut to a pointer to something else. -/
theorem addresses_cut : ¬ ∀ (w w' : World .x86) (tr : Events .x86) (l : Option Label)
    (r : ServiceRoutine) (p : ServiceRoutineParameter), Employed w.heap.cells 16 r p → p.Valid →
    (workerThread 16 : Code .x86 _).Runs (Alone 0 1) w tr l w' →
    Exact .x86 p (logOf (tr ++ [])).access := by
  intro h
  have hrun : (perform 0 1 (workerThread 16) dispatchesPointer
      (employee .x86 (pointerTo 0x100000064))).map (fun x => (logOf x.1).failed)
      = some [] := by decide +kernel
  obtain ⟨⟨tr, l, w'⟩, hrun, hfailed⟩ := Option.map_eq_some_iff.mp hrun
  have hrun := perform_runs hrun
  have hp : (pointerTo 0x100000064).Valid := by decide
  have hreached : reached (pointerTo 0x100000064) (logOf (tr ++ [])).access = 1 := by
    have : (logOf (tr ++ [])).access.failed = [] := by
      rw [List.append_nil]
      exact hfailed
    rw [reached, this]
    rfl
  have T := worker_touched (employed_employee ..) hrun (.refl ..)
  have := (T.exact_iff hp).mp (h _ w' tr l _ _ (employed_employee ..) hp hrun)
    ⟨0x40, 1, 0x100000064⟩ (by rw [hreached]; exact List.mem_singleton_self _) rfl
  exact absurd this (by decide)

end ScSequential
