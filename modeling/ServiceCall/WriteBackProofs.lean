import ServiceCall.BufferProofs

/-! # Writing back

    `RtlSyncMappedPtrParameters` writes the buffers of a mapped list to the
    addresses of the client, in the order of their indices, until a write fails.
    Outside the regions of the parameters written the memory of the client stays as
    it was; inside, the parameter with the highest index decides (`WrittenBack`).

    Each parameter has its own snapshot, so a change that the service routine made
    through one pointer is lost when a pointer with a higher index covers the same
    address and its snapshot was not changed there (`overlap_kept`). -/

namespace ScSequential

open LinearMemory OwnedHeap OpProg ThreadSys ScParameter LpcMessage ScSystem
  ScServiceCall ScOwnership

variable {b : Build}

/-! ## The writes of a list -/

/-- Address `a` lies in the region of an entry that is written back. -/
def Region (b : Build) (e : ServiceParameterBlob) (a : Nat) : Prop :=
  writesEntry e = true ∧ Covers (clientRange b e).1 (clientRange b e).2 a

/-- The buffer of each entry that is written back has the size of the entry. -/
def FullBuffers (b : Build) (own : Blocks) (es ms : List ServiceParameterBlob) : Prop :=
  List.Forall₂ (fun e m => writesEntry e = true →
    ∃ bytes, own (b.toPointer m.ulParameter) = some (.buffer bytes)
      ∧ bytes.length = e.dwMaxBufferSize.toNat) es ms

section Writes

variable {own : Blocks} {es ms es' ms' : List ServiceParameterBlob}

theorem syncWrites_append (h : es.length = ms.length) :
    syncWrites b own (es ++ es') (ms ++ ms')
      = syncWrites b own es ms ++ syncWrites b own es' ms' := by
  induction es generalizing ms with
  | nil =>
      obtain rfl := List.length_eq_zero_iff.mp h.symm
      rfl
  | cons e es ih =>
      cases ms with
      | nil => exact nomatch h
      | cons m ms =>
          have := ih (Nat.succ.inj h)
          rw [List.cons_append, List.cons_append, syncWrites, syncWrites, this]
          split <;> rfl

/-- What is written for an entry is its whole buffer. -/
theorem entryWrite_full {e m : ServiceParameterBlob} {bytes : List BYTE}
    (h : own (b.toPointer m.ulParameter) = some (.buffer bytes))
    (hlen : bytes.length = e.dwMaxBufferSize.toNat) :
    entryWrite b own e m = ((clientRange b e).1, bytes) := by
  rw [entryWrite, bufferAt, h]
  dsimp only
  rw [List.take_of_length_le (by omega)]
  rfl

/-- Outside the regions nothing is written. -/
theorem lastWrite_outside {a : Nat} (hfull : FullBuffers b own es ms)
    (h : ∀ e ∈ es, ¬ Region b e a) : lastWrite a (syncWrites b own es ms) = none := by
  induction hfull with
  | nil => rfl
  | @cons e m es ms hem _ ih =>
      have hrest := ih fun e' he' => h e' (List.mem_cons_of_mem _ he')
      rw [syncWrites]
      split
      · next he =>
          obtain ⟨bytes, hbytes, hlen⟩ := hem he
          have hnot := h e List.mem_cons_self
          rw [entryWrite_full hbytes hlen]
          rw [lastWrite_eq_none] at hrest ⊢
          intro w hw
          rcases List.mem_cons.mp hw with rfl | hw
          · intro hcov
            refine hnot ⟨he, ?_⟩
            rwa [show (clientRange b e).2 = bytes.length from hlen.symm]
          · exact hrest w hw
      · exact hrest

/-- Inside, the last entry whose region it is decides. -/
theorem lastWrite_inside {a : Nat} {e m : ServiceParameterBlob} {bytes : List BYTE}
    (hlen : es.length = ms.length) (he : Region b e a)
    (hbytes : own (b.toPointer m.ulParameter) = some (.buffer bytes))
    (hsize : bytes.length = e.dwMaxBufferSize.toNat) (hfull : FullBuffers b own es' ms')
    (h : ∀ e' ∈ es', ¬ Region b e' a) :
    lastWrite a (syncWrites b own (es ++ e :: es') (ms ++ m :: ms'))
      = bytes[a - (clientRange b e).1]? := by
  have hsplit : syncWrites b own (e :: es') (m :: ms')
      = ((clientRange b e).1, bytes) :: syncWrites b own es' ms' := by
    rw [syncWrites, if_pos he.1, entryWrite_full hbytes hsize]
  rw [syncWrites_append hlen, hsplit, lastWrite_append]
  have hone : lastWrite a (((clientRange b e).1, bytes) :: syncWrites b own es' ms')
      = bytes[a - (clientRange b e).1]? := by
    rw [lastWrite, lastWrite_outside hfull h, Option.none_or, if_pos he.2.1]
  rw [hone]
  have hlt : a - (clientRange b e).1 < bytes.length := by
    obtain ⟨h₁, h₂⟩ := he.2
    rw [show (clientRange b e).2 = bytes.length from hsize.symm] at h₂
    omega
  rw [List.getElem?_eq_getElem hlt, Option.some_or]

end Writes

/-! ## The loop -/

/-- The same after writes to process `pid` that all succeeded. -/
def Local.wrote (g : Local b) (pid : Nat) (ws : List (Nat × List BYTE)) : Local b :=
  ws.foldl (fun g w =>
    (g.logged (g.log.write w true)).withLpc (g.lpc.writeMemory pid w.1 w.2)) g

namespace Local

variable (g : Local b) (pid : Nat) (w : Nat × List BYTE) (ws : List (Nat × List BYTE))

@[simp] theorem wrote_nil : g.wrote pid [] = g := rfl

@[simp] theorem wrote_cons : g.wrote pid (w :: ws)
    = ((g.logged (g.log.write w true)).withLpc (g.lpc.writeMemory pid w.1 w.2)).wrote pid ws :=
  rfl

@[simp] theorem wrote_cells : (g.wrote pid ws).cells = g.cells := by
  induction ws generalizing g with
  | nil => rfl
  | cons w ws ih => exact ih _

@[simp] theorem wrote_processOf (h : HANDLE) :
    (g.wrote pid ws).lpc.processOf h = g.lpc.processOf h := by
  induction ws generalizing g with
  | nil => rfl
  | cons w ws ih => exact ih _

theorem wrote_byte : ((g.wrote pid ws).lpc.memory pid).byte
    = overlayAll (g.lpc.memory pid).byte ws := by
  induction ws generalizing g with
  | nil => rfl
  | cons w ws ih =>
      refine (ih _).trans ?_
      rw [overlayAll_cons]
      refine congrArg (overlayAll · ws) ?_
      show (Function.update g.lpc.memory pid _ pid).byte = _
      rw [Function.update_self]

theorem wrote_log : (g.wrote pid ws).log
    = { g.log with writes := g.log.writes ++ ws.map (·, true) } := by
  induction ws generalizing g with
  | nil => simp
  | cons w ws ih =>
      rw [wrote_cons, ih]
      simp [logged, withLpc, Log.write]

end Local

section Sync

variable {t n : Nat} {α : Type} {Q : α → Local b → Prop} {h : HANDLE} {src tmp : LPVOID}
  {pid : Nat} {f : Bool → Code b α} {own : Blocks}

/-- The loop of `RtlSyncMappedPtrParameters`: every write succeeds, or one fails and the
    entries before it were written. -/
theorem solo_syncLoop : ∀ k pre post preM postM (g : Local b), g.cells = own →
    g.lpc.processOf h = some pid → own src = some (.parameters ⟨pre ++ post⟩) →
    own tmp = some (.parameters ⟨preM ++ postM⟩) → pre.length = preM.length →
    post.length = k → FullBuffers b own post postM →
    wp (solo t n) (f true) Q (g.wrote pid (syncWrites b own post postM)) →
    (∀ post₁ e post₂ postM₁ m postM₂, post = post₁ ++ e :: post₂ →
      postM = postM₁ ++ m :: postM₂ → post₁.length = postM₁.length → writesEntry e = true →
      wp (solo t n) (f false) Q ((g.wrote pid (syncWrites b own post₁ postM₁)).logged
        ((g.wrote pid (syncWrites b own post₁ postM₁)).log.write (entryWrite b own e m)
          false))) →
    wp (solo t n) (syncLoop h src tmp k pre.length >>= f) Q g := by
  intro k
  induction k with
  | zero =>
      intro pre post preM postM g _ _ _ _ _ hpost _ hok _
      obtain rfl := List.length_eq_zero_iff.mp hpost
      exact hok
  | succ k ih =>
      intro pre post preM postM g hown hproc hsrc htmp hlen hpost hfull hok hno
      obtain ⟨e, post, rfl, hpost'⟩ := exists_cons hpost
      obtain ⟨m, postM, hem, hfull', rfl⟩ := List.forall₂_cons_left_iff.mp hfull
      have hsrc' : own src = some (.parameters ⟨(pre ++ [e]) ++ post⟩) := by
        rw [List.append_assoc]
        exact hsrc
      have htmp' : own tmp = some (.parameters ⟨(preM ++ [m]) ++ postM⟩) := by
        rw [List.append_assoc]
        exact htmp
      have hlen' : (pre ++ [e]).length = (preM ++ [m]).length := by
        rw [List.length_append, List.length_append, hlen]
        rfl
      have hnext : pre.length + 1 = (pre ++ [e]).length := by simp
      rw [syncLoop, Prog.bind_assoc]
      refine solo_loadParameters (by rw [hown]; exact hsrc) ?_
      intro _
      rw [entry_append]
      show wp _ ((if writesEntry e = true then _ else _) >>= f) Q g
      -- a pointer that is not null is written back
      by_cases he : writesEntry e = true
      · have hws : syncWrites b own (e :: post) (m :: postM)
            = entryWrite b own e m :: syncWrites b own post postM := by
          rw [syncWrites, if_pos he]
        obtain ⟨bytes, hbytes, hsize⟩ := hem he
        have hwrite : entryWrite b own e m = ((b.toPointer e.ulParameter).toNat,
            bytes.take e.dwMaxBufferSize.toNat) := by
          rw [entryWrite, bufferAt, hbytes]
        rw [if_pos he, Prog.bind_assoc]
        refine solo_loadParameters (by rw [hown]; exact htmp) ?_
        intro _
        rw [hlen, entry_append, Prog.bind_assoc]
        refine solo_loadBuffer (by rw [hown]; exact hbytes) ?_
        rw [Prog.bind_assoc, ← hlen]
        refine solo_write ?_ ?_
        · intro pid' hproc' _
          obtain rfl := Option.some.inj (hproc.symm.trans hproc')
          rw [if_pos (by rfl), hnext]
          refine ih (pre ++ [e]) post (preM ++ [m]) postM _ hown hproc hsrc' htmp' hlen' hpost'
            hfull' ?_ ?_
          · rw [hws, hwrite] at hok
            exact hok
          · intro post₁ e₁ post₂ postM₁ m₁ postM₂ h₁ h₂ hlen₁ he₁
            have := hno (e :: post₁) e₁ post₂ (m :: postM₁) m₁ postM₂ (by rw [h₁]; rfl)
              (by rw [h₂]; rfl) (by simp [hlen₁]) he₁
            rw [syncWrites, if_pos he, Local.wrote_cons, hwrite] at this
            exact this
        -- the write was refused: nothing behind it is written
        · intro st hst
          rw [if_neg (by rw [hst]; exact Bool.false_ne_true)]
          have := hno [] e post [] m postM rfl rfl rfl he
          rw [hwrite] at this
          exact this
      · have hws : ∀ es ms, syncWrites b own (e :: es) (m :: ms) = syncWrites b own es ms := by
          intro es ms
          rw [syncWrites, if_neg he]
        rw [hws] at hok
        rw [if_neg he, hnext]
        refine ih (pre ++ [e]) post (preM ++ [m]) postM g hown hproc hsrc' htmp' hlen' hpost'
          hfull' hok ?_
        intro post₁ e₁ post₂ postM₁ m₁ postM₂ h₁ h₂ hlen₁ he₁
        have := hno (e :: post₁) e₁ post₂ (m :: postM₁) m₁ postM₂ (by rw [h₁]; rfl)
          (by rw [h₂]; rfl) (by simp [hlen₁]) he₁
        rwa [hws] at this

end Sync

/-! ## Mapping, the routine, writing back -/

/-- What a mapping makes of an entry for a client with memory `m`: mask and size stay; a
    pointer that is to be read points to a buffer with what the client has there, any
    other value stays. -/
def SnapshotOf (b : Build) (m : Nat → BYTE) (own : Blocks) (e e' : ServiceParameterBlob) :
    Prop :=
  e'.parameterMask = e.parameterMask ∧ e'.dwMaxBufferSize = e.dwMaxBufferSize
    ∧ if needsBuffer e then e'.ulParameter ≠ 0 ∧ own (b.toPointer e'.ulParameter)
          = some (.buffer (slice m (clientRange b e).1 (clientRange b e).2))
      else e'.ulParameter = e.ulParameter

/-- What a mapping made of the list `p`: a list with an entry for each, and a buffer of
    its own for each pointer that was read. -/
structure Snapshot (w : World b) (m : Nat → BYTE) (tmp : LPVOID)
    (p q : ServiceRoutineParameter) (w₁ : World b) : Prop where
  list     : w₁.heap.cells tmp = some (.parameters q)
  entries  : List.Forall₂ (SnapshotOf b m w₁.heap.cells) p.parameters q.parameters
  separate : ∀ (i j : Nat) (e₁ e₂ m₁ m₂ : ServiceParameterBlob), i < j →
    p.parameters[i]? = some e₁ → p.parameters[j]? = some e₂ →
    q.parameters[i]? = some m₁ → q.parameters[j]? = some m₂ →
    needsBuffer e₁ = true → needsBuffer e₂ = true →
    b.toPointer m₁.ulParameter ≠ b.toPointer m₂.ulParameter
  new      : ∀ a ∈ buffers b q, w.heap.cells a = none

/-- The service routine ran: it changed the content of the buffers and no list, and the
    client has the memory `m`. -/
structure RoutineRan (h : HANDLE) (pid : Nat) (m : Nat → BYTE) (src tmp : LPVOID)
    (p q : ServiceRoutineParameter) (w₁ w₂ : World b) : Prop where
  source  : w₂.heap.cells src = some (.parameters p)
  mapped  : w₂.heap.cells tmp = some (.parameters q)
  content : ∀ a bytes, w₁.heap.cells a = some (.buffer bytes) → a ∈ buffers b q →
    ∃ bytes', w₂.heap.cells a = some (.buffer bytes') ∧ bytes'.length = bytes.length
  process : w₂.lpc.processOf h = some pid
  memory  : (w₂.lpc.memory pid).byte = m

/-- The parameters below index `k` were written back over the memory `m`: outside of
    their regions it stayed, inside the one with the highest index decides. -/
structure WrittenBack (b : Build) (own : Blocks) (p q : ServiceRoutineParameter) (k : Nat)
    (m m' : Nat → BYTE) : Prop where
  outside : ∀ a, (∀ i e, i < k → p.parameters[i]? = some e → ¬ Region b e a) → m' a = m a
  inside  : ∀ a j e e', j < k → p.parameters[j]? = some e → q.parameters[j]? = some e' →
    Region b e a → (∀ i e'', j < i → i < k → p.parameters[i]? = some e'' →
      ¬ Region b e'' a) →
    some (m' a) = (bufferAt own (b.toPointer e'.ulParameter))[a - (clientRange b e).1]?

section

variable {t n : Nat} {h : HANDLE} {pid : Nat} {src tmp : LPVOID}
  {p q : ServiceRoutineParameter} {w w₁ w₂ w₃ : World b} {tr : Events b}

/-- A pointer that is written back was read. -/
theorem needsBuffer_of_writesEntry {e : ServiceParameterBlob} (h : writesEntry e = true) :
    needsBuffer e = true := by
  rw [writesEntry, Bool.and_eq_true] at h
  rw [needsBuffer, h.1, h.2, Bool.or_true, Bool.and_self]

/-- A mapped entry is a snapshot of the entry. -/
theorem snapshotOf_mapsTo {vm : VirtualMemory} {own : Blocks} {e e' : ServiceParameterBlob}
    (h : MapsTo b (some (n, vm)) own e e') : SnapshotOf b vm.byte own e e' := by
  unfold MapsTo at h
  unfold SnapshotOf
  by_cases he : needsBuffer e = true
  · rw [if_pos he] at h ⊢
    obtain ⟨a, bytes, rfl, h0, hp, hown, hx⟩ := h
    refine ⟨rfl, rfl, h0, ?_⟩
    rw [hp, hown, (hx _ rfl).2]
    rfl
  · rw [if_neg he] at h ⊢
    rw [h]
    exact ⟨rfl, rfl, rfl⟩

/-- The buffer of a pointer that was read is one of those of the list. -/
theorem SnapshotOf.isBuffer {m : Nat → BYTE} {own : Blocks} {e e' : ServiceParameterBlob}
    (h : SnapshotOf b m own e e') (he : needsBuffer e = true) :
    (isPtr e'.parameterMask && e'.ulParameter != 0) = true := by
  obtain ⟨hmask, -, hx⟩ := h
  rw [if_pos he] at hx
  rw [hmask, isPtr_of_needsBuffer he]
  simpa using hx.1

/-- Entries at one index of lists that are related are related. -/
theorem forall₂_getElem? {β γ : Type} {R : β → γ → Prop} {xs : List β} {ys : List γ}
    (h : List.Forall₂ R xs ys) {i : Nat} {x : β} {y : γ} (hx : xs[i]? = some x)
    (hy : ys[i]? = some y) : R x y := by
  obtain ⟨hi, rfl⟩ := List.getElem?_eq_some_iff.mp hx
  obtain ⟨hj, rfl⟩ := List.getElem?_eq_some_iff.mp hy
  exact h.get hi hj

/-- The buffers of different entries of a list are different when the list of them has
    no duplicates. -/
theorem buffers_separate {q : List ServiceParameterBlob} (h : (buffers b ⟨q⟩).Nodup)
    {i j : Nat} {m₁ m₂ : ServiceParameterBlob} (hij : i < j) (h₁ : q[i]? = some m₁)
    (h₂ : q[j]? = some m₂) (hb₁ : (isPtr m₁.parameterMask && m₁.ulParameter != 0) = true)
    (hb₂ : (isPtr m₂.parameterMask && m₂.ulParameter != 0) = true) :
    b.toPointer m₁.ulParameter ≠ b.toPointer m₂.ulParameter := by
  obtain ⟨hi, rfl⟩ := List.getElem?_eq_some_iff.mp h₁
  obtain ⟨hj, rfl⟩ := List.getElem?_eq_some_iff.mp h₂
  rw [List.Nodup, buffers, List.pairwise_filterMap, List.pairwise_iff_getElem] at h
  exact h i j hi hj hij _ (if_pos hb₁) _ (if_pos hb₂)

/-- A mapping that succeeded is a snapshot of the client. -/
theorem snapshot_of_map (hproc : w.lpc.processOf h = some pid)
    (hsrc : w.heap.cells src = some (.parameters p))
    (hmap : (rtlMapPtrParameters h src : Code b LPVOID).Runs (Alone t n) w tr tmp w₁)
    (h0 : tmp ≠ 0) :
    ∃ q, Snapshot w (w.lpc.memory pid).byte tmp p q w₁ := by
  obtain ⟨q, H, -, hmaps⟩ := rtlMapPtrParameters_run hsrc hmap h0
  have hclient : clientOf w.lpc h = some (h, w.lpc.memory pid) := by rw [clientOf, hproc]; rfl
  rw [hclient] at hmaps
  have hentries := hmaps.imp fun _ _ hm => snapshotOf_mapsTo hm
  refine ⟨⟨q⟩, ?_, hentries, ?_, ?_⟩
  · rw [← List.append_nil q]
    exact H.list
  · intro i j e₁ e₂ m₁ m₂ hij hp₁ hp₂ hq₁ hq₂ he₁ he₂
    exact buffers_separate H.nodup hij hq₁ hq₂
      ((forall₂_getElem? hentries hp₁ hq₁).isBuffer he₁)
      ((forall₂_getElem? hentries hp₂ hq₂).isBuffer he₂)
  · intro a ha
    exact (H.held a ha).2.2.1

/-- After the routine the buffers still have the sizes of their entries. -/
theorem Snapshot.full {m : Nat → BYTE} (S : Snapshot w m tmp p q w₁)
    (R : RoutineRan h pid m src tmp p q w₁ w₂) :
    FullBuffers b w₂.heap.cells p.parameters q.parameters := by
  refine List.forall₂_iff_get.mpr ⟨S.entries.length_eq, ?_⟩
  intro i hi hi' he
  have hx := S.entries.get hi hi'
  have hb := hx.isBuffer (needsBuffer_of_writesEntry he)
  have hbuf := hx.2.2
  rw [if_pos (needsBuffer_of_writesEntry he)] at hbuf
  rw [Bool.and_eq_true] at hb
  obtain ⟨bytes, hbytes, hlen⟩ := R.content _ _ hbuf.2
    (mem_buffers.mpr ⟨_, List.get_mem .., hb.1, by simpa using hb.2, rfl⟩)
  refine ⟨bytes, hbytes, ?_⟩
  rw [hlen, slice_length]
  rfl

/-- The entries below an index, split at one of them. -/
theorem take_split {β : Type} {xs : List β} {j k : Nat} {x : β} (hj : j < k)
    (hx : xs[j]? = some x) : xs.take k = xs.take j ++ x :: (xs.take k).drop (j + 1) := by
  obtain ⟨hlt, rfl⟩ := List.getElem?_eq_some_iff.mp hx
  have hlt' : j < (xs.take k).length := by
    rw [List.length_take]
    omega
  have hget : (xs.take k)[j] = xs[j] := List.getElem_take
  have htake : (xs.take k).take j = xs.take j := by
    rw [List.take_take, Nat.min_eq_left (Nat.le_of_lt hj)]
  have hdrop := List.drop_eq_getElem_cons hlt'
  rw [hget] at hdrop
  rw [← hdrop, ← htake, List.take_append_drop]

/-- Overlaying the writes of the parameters below an index writes them back. -/
theorem writtenBack_overlayAll {own : Blocks}
    (hfull : FullBuffers b own p.parameters q.parameters) (k : Nat) (m : Nat → BYTE) :
    WrittenBack b own p q k m
      (overlayAll m (syncWrites b own (p.parameters.take k) (q.parameters.take k))) := by
  constructor
  · intro a hnone
    rw [overlayAll_apply, lastWrite_outside (List.forall₂_take k hfull) ?_]
    · rfl
    · intro e he
      obtain ⟨i, hi, rfl⟩ := List.mem_take_iff_getElem.mp he
      exact hnone i _ (by omega) (List.getElem?_eq_getElem _)
  · intro a j e e' hj he he' hreg htop
    obtain ⟨bytes, hbytes, hlen⟩ := forall₂_getElem? hfull he he' hreg.1
    have hlt : a - (clientRange b e).1 < bytes.length := by
      obtain ⟨h₁, h₂⟩ := hreg.2
      rw [show (clientRange b e).2 = bytes.length from hlen.symm] at h₂
      omega
    have hbuf : bufferAt own (b.toPointer e'.ulParameter) = bytes := by rw [bufferAt, hbytes]
    rw [take_split hj he, take_split hj he', overlayAll_apply,
      lastWrite_inside ?_ hreg hbytes hlen ?_ ?_, hbuf, List.getElem?_eq_getElem hlt]
    · rfl
    · rw [List.length_take, List.length_take, hfull.length_eq]
    · exact List.forall₂_drop _ (List.forall₂_take k hfull)
    · intro e'' he''
      obtain ⟨i, hi, rfl⟩ := List.mem_drop_iff_getElem.mp he''
      rw [List.length_take] at hi
      refine htop (j + 1 + i) _ (by omega) (by omega) ?_
      rw [List.getElem_take]
      exact List.getElem?_eq_getElem _

/-- Of writes that all succeeded all succeeded. -/
theorem succeeded_true (ws : List (Nat × List BYTE)) :
    ((ws.map (·, true)).filter (·.2)).map (·.1) = ws := by
  induction ws with
  | nil => rfl
  | cons w ws ih => rw [List.map_cons, List.filter_cons_of_pos (by rfl), List.map_cons, ih]

/-- **WRITING BACK** after the routine: the result says whether every write succeeded;
    the parameters below an index were written, which is the end of the list when the
    result is true and names a pointer when it is false. -/
theorem sync_run {m : Nat → BYTE} {ok : Bool} (S : Snapshot w m tmp p q w₁)
    (R : RoutineRan h pid m src tmp p q w₁ w₂)
    (hsync : (rtlSyncMappedPtrParameters h src tmp : Code b Bool).Runs (Alone t n) w₂ tr ok w₃) :
    (ok = true ↔ ∀ x ∈ (logOf tr).writes, x.2 = true) ∧
    ∃ k, (ok = true → k = p.dwParameters)
      ∧ (ok = false → ∃ e, p.parameters[k]? = some e ∧ writesEntry e = true)
      ∧ ((logOf tr).writes.filter (·.2)).map (·.1)
        = syncWrites b w₂.heap.cells (p.parameters.take k) (q.parameters.take k)
      ∧ (w₃.lpc.memory pid).byte = overlayAll (w₂.lpc.memory pid).byte
        (syncWrites b w₂.heap.cells (p.parameters.take k) (q.parameters.take k)) := by
  have hwp : wp (solo t n) (rtlSyncMappedPtrParameters h src tmp : Code b Bool)
      (fun ok g => (ok = true ↔ ∀ x ∈ g.log.writes, x.2 = true) ∧
        ∃ k, (ok = true → k = p.dwParameters)
          ∧ (ok = false → ∃ e, p.parameters[k]? = some e ∧ writesEntry e = true)
          ∧ (g.log.writes.filter (·.2)).map (·.1)
            = syncWrites b w₂.heap.cells (p.parameters.take k) (q.parameters.take k)
          ∧ (g.lpc.memory pid).byte = overlayAll (w₂.lpc.memory pid).byte
            (syncWrites b w₂.heap.cells (p.parameters.take k) (q.parameters.take k)))
      (Local.of w₂ []) := by
    rw [← Prog.bind_pure (rtlSyncMappedPtrParameters ..), rtlSyncMappedPtrParameters,
      Prog.bind_assoc]
    refine solo_loadParameters R.source ?_
    intro _
    refine solo_syncLoop p.dwParameters [] p.parameters [] q.parameters _ rfl
      R.process R.source R.mapped rfl rfl (S.full R) ?_ ?_
    -- the loop went through all entries
    · have hq : q.parameters.take p.dwParameters = q.parameters := by
        refine List.take_of_length_le ?_
        rw [← S.entries.length_eq]
        rfl
      refine ⟨⟨?_, fun _ => rfl⟩, p.dwParameters, fun _ => rfl, by simp, ?_, ?_⟩
      · intro _ x hx
        rw [Local.wrote_log] at hx
        obtain ⟨y, -, rfl⟩ := List.mem_map.mp hx
        rfl
      · rw [Local.wrote_log, hq, ServiceRoutineParameter.dwParameters, List.take_length]
        exact succeeded_true _
      · rw [Local.wrote_byte, hq, ServiceRoutineParameter.dwParameters, List.take_length]
        rfl
    -- the loop stopped at this entry
    · intro post₁ e post₂ postM₁ m₁ postM₂ hp hq hlen he
      have hpk : p.parameters.take post₁.length = post₁ := by rw [hp, List.take_left]
      have hqk : q.parameters.take post₁.length = postM₁ := by rw [hq, hlen, List.take_left]
      refine ⟨⟨by simp, ?_⟩, post₁.length, by simp,
        fun _ => ⟨e, ?_, he⟩, ?_, ?_⟩
      · intro hall
        refine absurd (hall (entryWrite b w₂.heap.cells e m₁, false) ?_) Bool.false_ne_true
        exact List.mem_append_right _ List.mem_cons_self
      · rw [hp, List.getElem?_append_right (Nat.le_refl _), Nat.sub_self]
        rfl
      · show ((((Local.of w₂ []).wrote pid _).log.writes ++ _).filter _).map _ = _
        rw [Local.wrote_log, hpk, hqk, List.filter_append, List.map_append]
        refine Eq.trans ?_ (List.append_nil _)
        exact congrArg (· ++ []) (succeeded_true _)
      · show (((Local.of w₂ []).wrote pid _).lpc.memory pid).byte = _
        rw [Local.wrote_byte, hpk, hqk]
        rfl
  exact solo_sound hwp hsync

/-- The parameters below an index are written back. -/
theorem Snapshot.sync {m : Nat → BYTE} {ok : Bool} (S : Snapshot w m tmp p q w₁)
    (R : RoutineRan h pid m src tmp p q w₁ w₂)
    (hsync : (rtlSyncMappedPtrParameters h src tmp : Code b Bool).Runs (Alone t n) w₂ tr ok w₃) :
    (ok = true ↔ ∀ x ∈ (logOf tr).writes, x.2 = true) ∧
    ∃ k, (ok = true → k = p.dwParameters)
      ∧ (ok = false → ∃ e, p.parameters[k]? = some e ∧ writesEntry e = true)
      ∧ ((logOf tr).writes.filter (·.2)).map (·.1)
        = syncWrites b w₂.heap.cells (p.parameters.take k) (q.parameters.take k)
      ∧ WrittenBack b w₂.heap.cells p q k m (w₃.lpc.memory pid).byte := by
  obtain ⟨hall, k, htrue, hfalse, hwritten, hbyte⟩ := sync_run S R hsync
  refine ⟨hall, k, htrue, hfalse, hwritten, ?_⟩
  rw [hbyte, R.memory]
  exact writtenBack_overlayAll (S.full R) k _

/-- The routine changed the byte of client address `a` to `v` in the buffer of parameter
    `j`. -/
def Changed (b : Build) (p q : ServiceRoutineParameter) (own own' : Blocks) (j a : Nat)
    (v : BYTE) : Prop :=
  ∃ e e', p.parameters[j]? = some e ∧ q.parameters[j]? = some e' ∧ needsBuffer e = true
    ∧ Covers (clientRange b e).1 (clientRange b e).2 a
    ∧ (bufferAt own' (b.toPointer e'.ulParameter))[a - (clientRange b e).1]? = some v
    ∧ (bufferAt own (b.toPointer e'.ulParameter))[a - (clientRange b e).1]? ≠ some v

/-- The byte of client address `a` was changed, and all buffers in which it was changed
    have `v` there. -/
def Agreed (b : Build) (p q : ServiceRoutineParameter) (own own' : Blocks) (a : Nat)
    (v : BYTE) : Prop :=
  (∃ j, Changed b p q own own' j a v) ∧ ∀ j v', Changed b p q own own' j a v' → v' = v

/-- Before the routine a buffer has the byte that the client has. -/
theorem Snapshot.byte {m : Nat → BYTE} (S : Snapshot w m tmp p q w₁) {j a : Nat}
    {e e' : ServiceParameterBlob} (he : p.parameters[j]? = some e)
    (he' : q.parameters[j]? = some e') (hn : needsBuffer e = true)
    (hcov : Covers (clientRange b e).1 (clientRange b e).2 a) :
    (bufferAt w₁.heap.cells (b.toPointer e'.ulParameter))[a - (clientRange b e).1]?
      = some (m a) := by
  have hx := (forall₂_getElem? S.entries he he').2.2
  rw [if_pos hn] at hx
  have h₁ := hcov.1
  have h₂ := hcov.2
  rw [bufferAt, hx.2]
  dsimp only
  rw [slice_getElem? (by omega), Nat.add_sub_cancel' h₁]

/-- The parameter with the highest index whose region an address is in. -/
theorem exists_top {a j : Nat} {e : ServiceParameterBlob} (he : p.parameters[j]? = some e)
    (hreg : Region b e a) :
    ∃ i e', p.parameters[i]? = some e' ∧ Region b e' a
      ∧ ∀ (k : Nat) e'', i < k → p.parameters[k]? = some e'' → ¬ Region b e'' a := by
  induction hd : p.parameters.length - j using Nat.strong_induction_on generalizing j e with
  | _ d ih =>
      by_cases hup : ∃ k e'', j < k ∧ p.parameters[k]? = some e'' ∧ Region b e'' a
      · obtain ⟨k, e'', hjk, hk, hr⟩ := hup
        have hlt := (List.getElem?_eq_some_iff.mp hk).1
        exact ih (p.parameters.length - k) (by omega) hk hr rfl
      · exact ⟨j, e, he, hreg, fun k e'' hjk hk hr => hup ⟨k, e'', hjk, hk, hr⟩⟩

/-- **OVERLAPPING POINTERS** keep what the routine changed, where the buffers in which a
    byte was changed agree on it, exactly when for each such byte the pointer with the
    highest index that covers it is one through which it was changed. -/
theorem overlap_kept (hproc : w.lpc.processOf h = some pid)
    (hsrc : w.heap.cells src = some (.parameters p))
    (hmap : (rtlMapPtrParameters h src : Code b LPVOID).Runs (Alone t n) w tr tmp w₁)
    (h0 : tmp ≠ 0) (hq : w₁.heap.cells tmp = some (.parameters q)) {tr' : Events b}
    (R : RoutineRan h pid (w.lpc.memory pid).byte src tmp p q w₁ w₂)
    (hsync : (rtlSyncMappedPtrParameters h src tmp : Code b Bool).Runs (Alone t n) w₂ tr' true
      w₃) :
    (∀ a v, Agreed b p q w₁.heap.cells w₂.heap.cells a v → (w₃.lpc.memory pid).byte a = v)
      ↔ ∀ a v, Agreed b p q w₁.heap.cells w₂.heap.cells a v →
        ∃ j e, Changed b p q w₁.heap.cells w₂.heap.cells j a v
          ∧ p.parameters[j]? = some e ∧ Region b e a
          ∧ ∀ i e', j < i → p.parameters[i]? = some e' → ¬ Region b e' a := by
  obtain ⟨q', S⟩ := snapshot_of_map hproc hsrc hmap h0
  obtain rfl : q' = q := Block.parameters.inj (Option.some.inj (S.list.symm.trans hq))
  obtain ⟨-, k, hk, -, -, W⟩ := S.sync R hsync
  obtain rfl := hk rfl
  have hlt : ∀ {i : Nat} {e : ServiceParameterBlob}, p.parameters[i]? = some e →
      i < p.dwParameters := fun he => (List.getElem?_eq_some_iff.mp he).1
  constructor
  · intro hkept a v hagreed
    obtain ⟨⟨j, e, e', he, he', hn, hcov, hnew, hold⟩, hothers⟩ := id hagreed
    have hv : (w₃.lpc.memory pid).byte a = v := hkept a v hagreed
    have hne : v ≠ (w.lpc.memory pid).byte a := by
      rintro rfl
      exact hold (S.byte he he' hn hcov)
    -- some region covers the address, or it would have kept its byte
    obtain ⟨i, e₁, he₁, hreg, htop⟩ : ∃ i e', p.parameters[i]? = some e' ∧ Region b e' a
        ∧ ∀ (k : Nat) e'', i < k → p.parameters[k]? = some e'' → ¬ Region b e'' a := by
      by_contra hnone
      refine hne (hv.symm.trans (W.outside a ?_))
      intro i e₁ _ he₁ hreg
      exact hnone (exists_top he₁ hreg)
    obtain ⟨m₁, hm₁⟩ : ∃ m₁, q'.parameters[i]? = some m₁ := by
      refine ⟨_, List.getElem?_eq_getElem ?_⟩
      rw [← S.entries.length_eq]
      exact hlt he₁
    have hn₁ := needsBuffer_of_writesEntry hreg.1
    refine ⟨i, e₁, ⟨e₁, m₁, he₁, hm₁, hn₁, hreg.2, ?_, ?_⟩, he₁, hreg, htop⟩
    · rw [← W.inside a i e₁ m₁ (hlt he₁) he₁ hm₁ hreg fun k e'' hk _ => htop k e'' hk, hv]
    · rw [S.byte he₁ hm₁ hn₁ hreg.2]
      exact fun h => hne (Option.some.inj h).symm
  · rintro hcond a v hagreed
    obtain ⟨j, e, ⟨e₁, e', he₁, he', -, -, hnew, -⟩, he, hreg, htop⟩ := hcond a v hagreed
    obtain rfl := Option.some.inj (he.symm.trans he₁)
    have := W.inside a j e e' (hlt he) he he' hreg fun i e'' hi _ => htop i e'' hi
    rw [hnew] at this
    exact Option.some.inj this

/-! ## The routine -/

/-- Each buffer of a snapshot is there. -/
theorem Snapshot.buffer {m : Nat → BYTE} (S : Snapshot w m tmp p q w₁) {a : LPVOID}
    (ha : a ∈ buffers b q) : ∃ bytes, w₁.heap.cells a = some (.buffer bytes) := by
  obtain ⟨e', he', hptr, h0, rfl⟩ := mem_buffers.mp ha
  obtain ⟨i, hi, rfl⟩ := List.mem_iff_getElem.mp he'
  have hi₀ : i < p.parameters.length := by rwa [S.entries.length_eq]
  obtain ⟨hmask, -, hx⟩ := S.entries.get hi₀ hi
  by_cases hn : needsBuffer (p.parameters.get ⟨i, hi₀⟩) = true
  · rw [if_pos hn] at hx
    exact ⟨_, hx.2⟩
  · rw [if_neg hn] at hx
    have hun := unbuffered hn
    rw [← hmask, ← hx, Bool.and_eq_false_iff] at hun
    rcases hun with hun | hun
    · exact absurd hptr (by simpa using hun)
    · exact absurd (by simpa using hun) h0

/-- After a mapping the routine has not changed anything yet. -/
theorem RoutineRan.start (hproc : w.lpc.processOf h = some pid)
    (hsrc : w.heap.cells src = some (.parameters p))
    (hmap : (rtlMapPtrParameters h src : Code b LPVOID).Runs (Alone t n) w tr tmp w₁)
    (h0 : tmp ≠ 0) (hq : w₁.heap.cells tmp = some (.parameters q)) :
    RoutineRan h pid (w.lpc.memory pid).byte src tmp p q w₁ w₁ := by
  obtain ⟨q', H, -, -⟩ := rtlMapPtrParameters_run hsrc hmap h0
  have hlpc : w₁.lpc = w.lpc := H.lpc
  refine ⟨?_, hq, fun a bytes hbytes _ => ⟨bytes, hbytes, rfl⟩, ?_, by rw [hlpc]⟩
  · have hne : (Local.of w []).cells src ≠ none := by
      show w.heap.cells src ≠ none
      rw [hsrc]
      exact Option.some_ne_none _
    exact (H.old hne).trans hsrc
  · rw [hlpc]
    exact hproc

/-- What the routine writes keeps what is known. -/
theorem RoutineRan.write {m : Nat → BYTE} (S : Snapshot w m tmp p q w₁)
    (R : RoutineRan h pid m src tmp p q w₁ w₂) {i k : Nat} {v : BYTE} {u : Unit}
    (hrun : (routineWrite (buffers b q) i k v : Code b Unit).Runs (Alone t n) w₂ tr u w₃) :
    RoutineRan h pid m src tmp p q w₁ w₃ := by
  have hwp : wp (solo t n) (routineWrite (buffers b q) i k v)
      (fun _ g => g.lpc = w₂.lpc ∧ (g.cells = w₂.heap.cells ∨
        ∃ a ∈ buffers b q, ∃ bytes bytes', w₂.heap.cells a = some (.buffer bytes)
          ∧ bytes'.length = bytes.length
          ∧ g.cells = Function.update w₂.heap.cells a (some (.buffer bytes'))))
      (Local.of w₂ []) := by
    unfold routineWrite
    cases hb : (buffers b q)[i]? with
    | none => exact ⟨rfl, Or.inl rfl⟩
    | some a =>
        have ha := List.mem_of_getElem? hb
        obtain ⟨bytes₁, h₁⟩ := S.buffer ha
        obtain ⟨bytes, hbytes, -⟩ := R.content a bytes₁ h₁ ha
        refine solo_loadBuffer hbytes ?_
        split
        · rw [← Prog.bind_pure (store ..)]
          refine solo_store (x := .buffer bytes) hbytes (by rfl) ?_
          exact ⟨rfl, Or.inr ⟨a, ha, bytes, bytes.set k v, hbytes, List.length_set, rfl⟩⟩
        · exact ⟨rfl, Or.inl rfl⟩
  obtain ⟨hlpc, hcells⟩ := solo_sound hwp hrun
  have hlpc : w₃.lpc = w₂.lpc := hlpc
  -- nothing has changed, or one buffer of the mapping
  rcases hcells with hcells | ⟨a, ha, bytes, bytes', hbytes, hlen, hcells⟩
  · have hcells : w₃.heap.cells = w₂.heap.cells := hcells
    refine ⟨?_, ?_, ?_, ?_, ?_⟩
    · rw [hcells]
      exact R.source
    · rw [hcells]
      exact R.mapped
    · rw [hcells]
      exact R.content
    · rw [hlpc]
      exact R.process
    · rw [hlpc]
      exact R.memory
  · have hcells : w₃.heap.cells = Function.update w₂.heap.cells a _ := hcells
    have hne : ∀ {c x}, w₂.heap.cells c = some (.parameters x) → c ≠ a := by
      rintro c x hc rfl
      rw [hbytes] at hc
      exact nomatch hc
    refine ⟨?_, ?_, ?_, ?_, ?_⟩
    · rw [hcells, Function.update_of_ne (hne R.source)]
      exact R.source
    · rw [hcells, Function.update_of_ne (hne R.mapped)]
      exact R.mapped
    · intro c bytes₀ hc hmem
      obtain ⟨bytes₁, h₁, h₂⟩ := R.content c bytes₀ hc hmem
      by_cases hca : c = a
      · subst hca
        rw [hbytes] at h₁
        obtain rfl := Block.buffer.inj (Option.some.inj h₁)
        rw [hcells, Function.update_self]
        exact ⟨bytes', rfl, hlen.trans h₂⟩
      · rw [hcells, Function.update_of_ne hca]
        exact ⟨bytes₁, h₁, h₂⟩
    · rw [hlpc]
      exact R.process
    · rw [hlpc]
      exact R.memory

end

/-! ## Two pointers that overlap -/

/-- Two pointers to two bytes each, one byte apart. -/
def overlapping : ServiceRoutineParameter := ⟨[⟨0x40, 2, 100⟩, ⟨0x40, 2, 101⟩]⟩

/-- What a mapping makes of them with buffers at 48 and 64. -/
def overlappingMapped : ServiceRoutineParameter := ⟨[⟨0x40, 2, 48⟩, ⟨0x40, 2, 64⟩]⟩

/-- The pointers are mapped, the routine writes 5 to byte `k` of the buffer of parameter
    `i`, the buffers are written back: a run of each. -/
def OverlapRun (i k : Nat) (w₁ w₂ w₃ : World .x64) (tr₁ tr₂ tr₃ : Events .x64) : Prop :=
  (rtlMapPtrParameters 4 16 : Code .x64 LPVOID).Runs (Alone 0 1)
      (openedClient .x64 overlapping) tr₁ 32 w₁
    ∧ w₁.heap.cells 32 = some (.parameters overlappingMapped)
    ∧ (routineWrite (buffers .x64 overlappingMapped) i k 5 : Code .x64 Unit).Runs (Alone 0 1)
      w₁ tr₂ () w₂
    ∧ (rtlSyncMappedPtrParameters 4 16 32 : Code .x64 Bool).Runs (Alone 0 1) w₂ tr₃ true w₃

/-- The buffers before and after the routine, and a byte of the client in the end. -/
structure Outcome where
  before : Option Block × Option Block
  after  : Option Block × Option Block
  byte   : BYTE

/-- There are such runs, over a memory of zeros. -/
theorem overlapRun (i k a : Nat) (x : Outcome)
    (hrun : ((perform 0 1 (rtlMapPtrParameters 4 16) [.ok, .fresh 32 (.parameters
      ⟨[⟨0, 0, 0⟩, ⟨0, 0, 0⟩]⟩), .ok, .ok, .ok, .fresh 48 (.buffer [0, 0]), .ok, .ok, .ok, .ok,
      .ok, .ok, .ok, .fresh 64 (.buffer [0, 0]), .ok, .ok, .ok, .ok]
      (openedClient .x64 overlapping)).bind fun x =>
        (perform 0 1 (routineWrite [48, 64] i k 5) [.ok, .ok] x.2.2).bind fun y =>
          (perform 0 1 (rtlSyncMappedPtrParameters 4 16 32) (List.replicate 9 .ok)
            y.2.2).map fun z => (x.2.1, x.2.2.heap.cells 32, z.2.1, (⟨(x.2.2.heap.cells 48,
              x.2.2.heap.cells 64), (y.2.2.heap.cells 48, y.2.2.heap.cells 64),
              (z.2.2.lpc.memory 7).byte a⟩ : Outcome)))
      = some (32, some (.parameters overlappingMapped), true, x)) :
    ∃ w₁ w₂ w₃ tr₁ tr₂ tr₃, OverlapRun i k w₁ w₂ w₃ tr₁ tr₂ tr₃
      ∧ x = ⟨(w₁.heap.cells 48, w₁.heap.cells 64), (w₂.heap.cells 48, w₂.heap.cells 64),
        (w₃.lpc.memory 7).byte a⟩ := by
  obtain ⟨⟨tr₁, tmp, w₁⟩, h₁, hrun⟩ := Option.bind_eq_some_iff.mp hrun
  obtain ⟨⟨tr₂, ⟨⟩, w₂⟩, h₂, hrun⟩ := Option.bind_eq_some_iff.mp hrun
  obtain ⟨⟨tr₃, ok, w₃⟩, h₃, he⟩ := Option.map_eq_some_iff.mp hrun
  obtain ⟨rfl, he⟩ := Prod.mk.inj he
  obtain ⟨hq, he⟩ := Prod.mk.inj he
  obtain ⟨rfl, rfl⟩ := Prod.mk.inj he
  exact ⟨w₁, w₂, w₃, tr₁, tr₂, tr₃,
    ⟨perform_runs h₁, hq, perform_runs h₂, perform_runs h₃⟩, rfl⟩

theorem openedClient_overlapping :
    (openedClient .x64 overlapping).lpc.processOf 4 = some 7
      ∧ (openedClient .x64 overlapping).heap.cells 16 = some (.parameters overlapping) :=
  ⟨rfl, rfl⟩

/-- What the routine leaves in such a run. -/
theorem OverlapRun.ran {i k : Nat} {w₁ w₂ w₃ : World .x64} {tr₁ tr₂ tr₃ : Events .x64}
    (hrun : OverlapRun i k w₁ w₂ w₃ tr₁ tr₂ tr₃) :
    RoutineRan 4 7 ((openedClient .x64 overlapping).lpc.memory 7).byte 16 32 overlapping
      overlappingMapped w₁ w₂ := by
  obtain ⟨hmap, hq, hwrite, -⟩ := hrun
  obtain ⟨hproc, hsrc⟩ := openedClient_overlapping
  obtain ⟨q, S⟩ := snapshot_of_map hproc hsrc hmap (by decide)
  obtain rfl : q = overlappingMapped :=
    Block.parameters.inj (Option.some.inj (S.list.symm.trans hq))
  exact (RoutineRan.start hproc hsrc hmap (by decide) hq).write S hwrite

/-- A change is one in the buffer at 48 or one in the buffer at 64. -/
theorem changed_overlapping {own own' : Blocks} {j a : Nat} {v : BYTE}
    (hc : Changed .x64 overlapping overlappingMapped own own' j a v) :
    (j = 0 ∧ (bufferAt own' 48)[a - 100]? = some v ∧ (bufferAt own 48)[a - 100]? ≠ some v) ∨
    (j = 1 ∧ Covers 101 2 a ∧ (bufferAt own' 64)[a - 101]? = some v
      ∧ (bufferAt own 64)[a - 101]? ≠ some v) := by
  obtain ⟨e, e', he, he', -, hcov, hnew, hold⟩ := hc
  match j with
  | 0 =>
      obtain rfl := Option.some.inj he
      obtain rfl := Option.some.inj he'
      exact Or.inl ⟨rfl, hnew, hold⟩
  | 1 =>
      obtain rfl := Option.some.inj he
      obtain rfl := Option.some.inj he'
      exact Or.inr ⟨rfl, hcov, hnew, hold⟩
  | j + 2 => exact nomatch he

/-- A change through the second of the pointers is kept. -/
theorem overlap_kept_second : ∃ w₁ w₂ w₃ tr₁ tr₂ tr₃, OverlapRun 1 0 w₁ w₂ w₃ tr₁ tr₂ tr₃
    ∧ ∀ a v, Agreed .x64 overlapping overlappingMapped w₁.heap.cells w₂.heap.cells a v →
      (w₃.lpc.memory 7).byte a = v := by
  obtain ⟨w₁, w₂, w₃, tr₁, tr₂, tr₃, hrun, hx⟩ := overlapRun 1 0 101
    ⟨(some (.buffer [0, 0]), some (.buffer [0, 0])),
      (some (.buffer [0, 0]), some (.buffer [5, 0])), 5⟩ rfl
  refine ⟨w₁, w₂, w₃, tr₁, tr₂, tr₃, hrun, ?_⟩
  have R := hrun.ran
  obtain ⟨hmap, hq, -, hsync⟩ := hrun
  obtain ⟨hproc, hsrc⟩ := openedClient_overlapping
  refine (overlap_kept hproc hsrc hmap (by decide) hq R hsync).mpr ?_
  rintro a v ⟨⟨j, hc⟩, -⟩
  obtain ⟨hbefore, hafter, -⟩ := Outcome.mk.inj hx
  obtain ⟨h₁, -⟩ := Prod.mk.inj hbefore
  obtain ⟨h₂, -⟩ := Prod.mk.inj hafter
  rcases changed_overlapping hc with ⟨-, hnew, hold⟩ | ⟨rfl, hcov, -⟩
  · rw [bufferAt, ← h₂] at hnew
    rw [bufferAt, ← h₁] at hold
    exact absurd hnew hold
  · refine ⟨1, ⟨0x40, 2, 101⟩, hc, rfl, ⟨by decide, hcov⟩, ?_⟩
    intro i e' hi he'
    obtain rfl | rfl | ⟨k, rfl⟩ : i = 0 ∨ i = 1 ∨ ∃ k, i = k + 2 := by
      rcases i with _ | _ | k
      · exact Or.inl rfl
      · exact Or.inr (Or.inl rfl)
      · exact Or.inr (Or.inr ⟨k, rfl⟩)
    · cases hi
    · exact absurd hi (by decide)
    · cases he'

/-- A change through the first of the pointers is lost. -/
theorem overlap_lost : ¬ ∀ (w₁ w₂ w₃ : World .x64) tr₁ tr₂ tr₃,
    OverlapRun 0 1 w₁ w₂ w₃ tr₁ tr₂ tr₃ →
    ∀ a v, Agreed .x64 overlapping overlappingMapped w₁.heap.cells w₂.heap.cells a v →
      (w₃.lpc.memory 7).byte a = v := by
  intro h
  obtain ⟨w₁, w₂, w₃, tr₁, tr₂, tr₃, hrun, hx⟩ := overlapRun 0 1 101
    ⟨(some (.buffer [0, 0]), some (.buffer [0, 0])),
      (some (.buffer [0, 5]), some (.buffer [0, 0])), 0⟩ rfl
  obtain ⟨hbefore, hafter, hbyte⟩ := Outcome.mk.inj hx
  obtain ⟨h₁, h₂⟩ := Prod.mk.inj hbefore
  obtain ⟨h₃, h₄⟩ := Prod.mk.inj hafter
  refine absurd (hbyte.trans (h w₁ w₂ w₃ tr₁ tr₂ tr₃ hrun 101 5 ⟨⟨0, ?_⟩, ?_⟩)) (by decide)
  · refine ⟨⟨0x40, 2, 100⟩, ⟨0x40, 2, 48⟩, rfl, rfl, by decide, by decide, ?_, ?_⟩
    · show (bufferAt w₂.heap.cells 48)[1]? = some 5
      rw [bufferAt, ← h₃]
      rfl
    · show (bufferAt w₁.heap.cells 48)[1]? ≠ some 5
      rw [bufferAt, ← h₁]
      decide
  · intro j v' hc
    rcases changed_overlapping hc with ⟨-, hnew, -⟩ | ⟨-, -, hnew, hold⟩
    · rw [bufferAt, ← h₃] at hnew
      exact (Option.some.inj hnew).symm
    · rw [bufferAt, ← h₄] at hnew
      rw [bufferAt, ← h₂] at hold
      exact absurd hnew hold

end ScSequential
