import ServiceCall.SequentialProofs

/-! # Who allocates a buffer and who deletes it

    `RtlMapPtrParameters` and `RtlUnmapPtrParameters` decide separately which
    entries of a list have a buffer: the one from the mask and the pointer, the
    other from the mask, the size and the pointer of the mapped entry.  `sized`
    names the buffers of a list with their sizes; a mapping under way holds the
    buffers of the entries it is through with (`Held`), and unmapping deletes those
    that are not of size zero (`freed`).

    After a mapping that succeeded the two agree exactly when no buffer has size
    zero (`unmap_releases`).  When a mapping fails, the entries behind the one that
    failed are what `new[]` found in memory, and it is they that decide what is
    deleted besides (`map_cleanup`). -/

namespace ScSequential

open LinearMemory OwnedHeap OpProg ThreadSys ScParameter LpcMessage ScSystem
  ScServiceCall ScOwnership

variable {b : Build}

/-! ## The buffers of a list -/

/-- The buffers of a list with their sizes. -/
def sized (b : Build) (es : List ServiceParameterBlob) : List (LPVOID × Nat) :=
  es.filterMap fun e =>
    if isPtr e.parameterMask && e.ulParameter != 0 then
      some (b.toPointer e.ulParameter, e.dwMaxBufferSize.toNat)
    else none

@[simp] theorem sized_nil : sized b [] = [] := rfl

theorem sized_append (es es' : List ServiceParameterBlob) :
    sized b (es ++ es') = sized b es ++ sized b es' := List.filterMap_append ..

theorem buffers_append (es es' : List ServiceParameterBlob) :
    buffers b ⟨es ++ es'⟩ = buffers b ⟨es⟩ ++ buffers b ⟨es'⟩ := List.filterMap_append ..

theorem freed_append (es es' : List ServiceParameterBlob) :
    freed b (es ++ es') = freed b es ++ freed b es' := by
  rw [freed, List.filter_append, List.map_append]
  rfl

theorem sized_fst (es : List ServiceParameterBlob) :
    (sized b es).map Prod.fst = buffers b ⟨es⟩ := by
  rw [sized, buffers, List.map_filterMap]
  refine List.filterMap_congr ?_
  intro e _
  split <;> rfl

/-- The buffer of one entry. -/
theorem sized_singleton (e : ServiceParameterBlob) :
    sized b [e] = if isPtr e.parameterMask && e.ulParameter != 0 then
      [(b.toPointer e.ulParameter, e.dwMaxBufferSize.toNat)] else [] := by
  rw [sized, List.filterMap_cons]
  split <;> simp_all

theorem size_eq_zero {n : DWORD} : n.toNat = 0 ↔ n = 0 := UInt32.toNat_inj (b := 0)

/-- What unmapping deletes are the buffers that are not of size zero. -/
theorem freed_eq (es : List ServiceParameterBlob) :
    freed b es = ((sized b es).filter fun x => x.2 != 0).map Prod.fst := by
  induction es with
  | nil => rfl
  | cons e es ih =>
      have hone : freed b [e] = ((sized b [e]).filter fun x => x.2 != 0).map Prod.fst := by
        by_cases hptr : (isPtr e.parameterMask && e.ulParameter != 0) = true
        · have hs : sized b [e] = [(b.toPointer e.ulParameter, e.dwMaxBufferSize.toNat)] := by
            rw [sized_singleton, if_pos hptr]
          rw [Bool.and_eq_true, isPtr] at hptr
          by_cases h0 : e.dwMaxBufferSize = 0
          · simp [hs, freed, freesEntry, h0]
          · have hn : e.dwMaxBufferSize.toNat ≠ 0 := fun h => h0 (size_eq_zero.mp h)
            simp [hs, freed, freesEntry, h0, hn, hptr.1, by simpa using hptr.2]
        · have hs : sized b [e] = [] := by rw [sized_singleton, if_neg hptr]
          have hf : freesEntry e = false := by
            rw [Bool.not_eq_true, Bool.and_eq_false_iff, isPtr] at hptr
            rw [freesEntry, Bool.and_eq_false_iff, Bool.and_eq_false_iff]
            exact hptr.imp_left Or.inl
          simp [hs, freed, hf]
      rw [← List.singleton_append, freed_append, sized_append, List.filter_append,
        List.map_append, hone, ih]

/-- The buffers of size zero of a list. -/
def emptyBuffers (b : Build) (es : List ServiceParameterBlob) : List LPVOID :=
  ((sized b es).filter fun x => x.2 == 0).map Prod.fst

/-- Every buffer is deleted by unmapping or of size zero. -/
theorem buffers_perm (es : List ServiceParameterBlob) :
    (freed b es ++ emptyBuffers b es).Perm (buffers b ⟨es⟩) := by
  rw [freed_eq, emptyBuffers, ← sized_fst, ← List.map_append]
  refine List.Perm.map _ ?_
  have := List.filter_append_perm (fun x : LPVOID × Nat => x.2 != 0) (sized b es)
  simpa [bne] using this

/-! ## Unmapping -/

/-- Several deletions. -/
def Log.deletes (L : Log) (as : List LPVOID) : Log := { L with deleted := L.deleted ++ as }

@[simp] theorem Log.deletes_nil (L : Log) : L.deletes [] = L := by simp [Log.deletes]

@[simp] theorem Log.deletes_deletes (L : Log) (as as' : List LPVOID) :
    (L.deletes as).deletes as' = L.deletes (as ++ as') := by simp [Log.deletes]

/-- The same without some blocks, deleted in order. -/
def Local.deleteAll (g : Local b) (as : List LPVOID) : Local b := as.foldl Local.delete g

namespace Local

@[simp] theorem deleteAll_nil (g : Local b) : g.deleteAll [] = g := rfl

@[simp] theorem deleteAll_cons (g : Local b) (a : LPVOID) (as : List LPVOID) :
    g.deleteAll (a :: as) = (g.delete a).deleteAll as := rfl

theorem delete_log (g : Local b) (a : LPVOID) :
    (g.delete a).log = g.log.deletes ([a].filter (· != 0)) := by
  unfold delete
  by_cases h0 : a = 0
  · simp [h0]
  · simp [h0, logged, Log.delete, Log.deletes]

@[simp] theorem delete_lpc (g : Local b) (a : LPVOID) : (g.delete a).lpc = g.lpc := by
  unfold delete
  split <;> rfl

theorem delete_cells (g : Local b) (a c : LPVOID) :
    (g.delete a).cells c = if c = a ∧ a ≠ 0 then none else g.cells c := by
  unfold delete
  by_cases h0 : a = 0
  · simp [h0]
  · by_cases hc : c = a
    · simp [h0, hc, logged]
    · simp [h0, hc, logged, put_cells_ne g hc]

theorem deleteAll_log (g : Local b) (as : List LPVOID) :
    (g.deleteAll as).log = g.log.deletes (as.filter (· != 0)) := by
  induction as generalizing g with
  | nil => simp
  | cons a as ih => simp [ih, delete_log, ← List.filter_append]

theorem deleteAll_cells (g : Local b) (as : List LPVOID) (c : LPVOID) :
    (g.deleteAll as).cells c = if c ∈ as ∧ c ≠ 0 then none else g.cells c := by
  induction as generalizing g with
  | nil => simp
  | cons a as ih =>
      rw [deleteAll_cons, ih, delete_cells]
      by_cases hc : c = a
      · subst hc
        by_cases h0 : c = 0 <;> simp [h0]
      · simp [hc]

end Local

section Unmap

variable {t n : Nat} {α : Type} {Q : α → Local b → Prop} {tmp : LPVOID}
  {f : Unit → Code b α}

theorem freed_cons (e : ServiceParameterBlob) (es : List ServiceParameterBlob) :
    freed b (e :: es)
      = if freesEntry e then b.toPointer e.ulParameter :: freed b es else freed b es := by
  by_cases he : freesEntry e = true
  · simp [freed, he]
  · simp [freed, he]

/-- The loop of `RtlUnmapPtrParameters`, on a list that does not name itself. -/
theorem solo_unmapLoop : ∀ k pre post (g : Local b), post.length = k →
    g.cells tmp = some (.parameters ⟨pre ++ post⟩) → tmp ∉ freed b post →
    wp (solo t n) (f ()) Q (g.deleteAll (freed b post)) →
    wp (solo t n) (unmapLoop tmp k pre.length >>= f) Q g := by
  intro k
  induction k with
  | zero =>
      intro pre post g hpost _ _ hf
      obtain rfl := List.length_eq_zero_iff.mp hpost
      exact hf
  | succ k ih =>
      intro pre post g hpost hcells htmp hf
      obtain ⟨e, post, rfl, hpost'⟩ := exists_cons hpost
      have hlist : g.cells tmp = some (.parameters ⟨(pre ++ [e]) ++ post⟩) := by
        rw [hcells, List.append_assoc]
        rfl
      have hnext : pre.length + 1 = (pre ++ [e]).length := by simp
      rw [freed_cons] at htmp hf
      rw [unmapLoop, Prog.bind_assoc]
      refine solo_loadParameters hcells ?_
      intro _
      rw [entry_append]
      show wp _ ((if freesEntry e = true then _ else _) >>= f) Q g
      by_cases he : freesEntry e = true
      · rw [if_pos he] at htmp hf ⊢
        rw [List.mem_cons, not_or] at htmp
        rw [Prog.bind_assoc]
        refine solo_free ?_
        rw [hnext]
        refine ih (pre ++ [e]) post _ hpost' ?_ htmp.2 hf
        rw [Local.delete_cells, if_neg (fun h => htmp.1 h.1), hlist]
      · rw [if_neg he] at htmp hf ⊢
        rw [hnext]
        exact ih (pre ++ [e]) post g hpost' hlist htmp hf

/-- Whatever the loop finds, it only deletes. -/
theorem solo_unmapLoop_any : ∀ k i (g : Local b),
    (∀ ds g', g'.log = g.log.deletes ds →
      wp (solo t n) (f ()) Q g') → wp (solo t n) (unmapLoop tmp k i >>= f) Q g := by
  intro k
  induction k with
  | zero =>
      intro i g hf
      exact hf [] g (by simp)
  | succ k ih =>
      intro i g hf
      rw [unmapLoop, Prog.bind_assoc, loadParameters, Prog.bind_assoc]
      refine wp_op_bind.mpr ⟨trivial, ?_⟩
      rintro x g₁ ⟨-, -, hlog⟩
      have hlog : g₁.log = g.log := hlog
      dsimp only
      show wp _ ((if freesEntry (entry (asParameters x) i) = true then _ else _) >>= f) Q g₁
      split
      · rw [Prog.bind_assoc]
        refine solo_free (ih _ _ ?_)
        intro ds g' hg'
        refine hf ([b.toPointer (entry (asParameters x) i).ulParameter].filter (· != 0) ++ ds)
          g' ?_
        rw [hg', Local.delete_log, hlog, Log.deletes_deletes]
      · refine ih _ _ ?_
        intro ds g' hg'
        exact hf ds g' (by rw [hg', hlog])

/-- A list that names itself is deleted by the loop already. -/
theorem solo_unmapLoop_self : ∀ k pre post (g : Local b), post.length = k → tmp ≠ 0 →
    g.cells tmp = some (.parameters ⟨pre ++ post⟩) → tmp ∈ freed b post →
    (∀ ds g', tmp ∈ ds → g'.log = g.log.deletes ds →
      wp (solo t n) (f ()) Q g') →
    wp (solo t n) (unmapLoop tmp k pre.length >>= f) Q g := by
  intro k
  induction k with
  | zero =>
      intro pre post g hpost _ _ hmem _
      obtain rfl := List.length_eq_zero_iff.mp hpost
      exact nomatch hmem
  | succ k ih =>
      intro pre post g hpost h0 hcells hmem hf
      obtain ⟨e, post, rfl, hpost'⟩ := exists_cons hpost
      have hlist : g.cells tmp = some (.parameters ⟨(pre ++ [e]) ++ post⟩) := by
        rw [hcells, List.append_assoc]
        rfl
      have hnext : pre.length + 1 = (pre ++ [e]).length := by simp
      rw [freed_cons] at hmem
      rw [unmapLoop, Prog.bind_assoc]
      refine solo_loadParameters hcells ?_
      intro _
      rw [entry_append]
      show wp _ ((if freesEntry e = true then _ else _) >>= f) Q g
      by_cases he : freesEntry e = true
      · rw [if_pos he] at hmem ⊢
        rw [Prog.bind_assoc]
        refine solo_free ?_
        have hlog := g.delete_log (b.toPointer e.ulParameter)
        by_cases htmp : tmp = b.toPointer e.ulParameter
        · refine solo_unmapLoop_any _ _ _ ?_
          intro ds g' hg'
          refine hf (tmp :: ds) g' List.mem_cons_self ?_
          rw [hg', hlog, ← htmp, Log.deletes_deletes]
          simp [h0]
        · rw [hnext]
          refine ih (pre ++ [e]) post _ hpost' h0 ?_ ((List.mem_cons.mp hmem).resolve_left htmp)
            ?_
          · rw [Local.delete_cells, if_neg (fun h => htmp h.1), hlist]
          · intro ds g' hds hg'
            refine hf ([b.toPointer e.ulParameter].filter (· != 0) ++ ds) g'
              (List.mem_append_right _ hds) ?_
            rw [hg', hlog, Log.deletes_deletes]
      · rw [if_neg he] at hmem ⊢
        rw [hnext]
        exact ih (pre ++ [e]) post g hpost' h0 hlist hmem hf

/-- **UNMAPPING** a list that does not name itself deletes its buffers that are not of
    size zero, and the list. -/
theorem solo_rtlUnmapPtrParameters {q : ServiceRoutineParameter} {g : Local b}
    (hcells : g.cells tmp = some (.parameters q)) (htmp : tmp ∉ freed b q.parameters)
    (hf : wp (solo t n) (f ()) Q ((g.deleteAll (freed b q.parameters)).delete tmp)) :
    wp (solo t n) (rtlUnmapPtrParameters tmp >>= f) Q g := by
  rw [rtlUnmapPtrParameters, Prog.bind_assoc]
  refine solo_loadParameters hcells ?_
  intro _
  rw [Prog.bind_assoc]
  exact solo_unmapLoop q.dwParameters [] q.parameters g rfl hcells htmp (solo_free hf)

/-- Unmapping a list that names itself deletes it twice. -/
theorem solo_rtlUnmapPtrParameters_self {q : ServiceRoutineParameter} {g : Local b}
    (hcells : g.cells tmp = some (.parameters q)) (htmp : tmp ∈ freed b q.parameters)
    (hf : ∀ ds g', tmp ∈ ds →
      g'.log = g.log.deletes (ds ++ [tmp]) →
      wp (solo t n) (f ()) Q g') : wp (solo t n) (rtlUnmapPtrParameters tmp >>= f) Q g := by
  rw [rtlUnmapPtrParameters, Prog.bind_assoc]
  refine solo_loadParameters hcells ?_
  intro h0
  rw [Prog.bind_assoc]
  refine solo_unmapLoop_self q.dwParameters [] q.parameters g rfl h0 hcells htmp ?_
  intro ds g' hds hg'
  refine solo_free (hf ds _ hds ?_)
  rw [Local.delete_log, hg']
  simp [h0]

end Unmap

/-! ## Mapping -/

/-- The range of the client that an entry points to. -/
def clientRange (b : Build) (e : ServiceParameterBlob) : Nat × Nat :=
  ((b.toPointer e.ulParameter).toNat, e.dwMaxBufferSize.toNat)

/-- The ranges that a mapping reads, in order. -/
def mapRanges (b : Build) (es : List ServiceParameterBlob) : List (Nat × Nat) :=
  (es.filter needsBuffer).map (clientRange b)

/-- The process behind a handle, with its memory. -/
def clientOf (k : Lpc b) (h : HANDLE) : Option (HANDLE × VirtualMemory) :=
  (k.processOf h).map fun pid => (h, k.memory pid)

/-- A mapping under way has allocated the list `tmp` and the buffers of the entries
    `es`; what is left of the list is `rest`. -/
structure Held (g₀ : Local b) (tmp : LPVOID) (es rest : List ServiceParameterBlob)
    (g : Local b) : Prop where
  list  : g.cells tmp = some (.parameters ⟨es ++ rest⟩)
  fresh : tmp ≠ 0 ∧ g₀.cells tmp = none
  nodup : (buffers b ⟨es⟩).Nodup
  held  : ∀ a ∈ buffers b ⟨es⟩, a ≠ tmp ∧ a ≠ 0 ∧ g₀.cells a = none ∧ g.cells a ≠ none
  frame : ∀ a, a ≠ tmp → a ∉ buffers b ⟨es⟩ → g.cells a = g₀.cells a
  lpc   : g.lpc = g₀.lpc

/-- The log of a mapping that is through with the entries `ps`, now `es`. -/
def mapLog (b : Build) (L : Log) (tmp : LPVOID) (n : Nat)
    (ps es : List ServiceParameterBlob) : Log :=
  { L with allocated := L.allocated ++ (tmp, n) :: sized b es
           reads := L.reads ++ (mapRanges b ps).map (·, true) }

/-- Why an entry is not mapped: there is no memory, or the client cannot be read. -/
def FailLog (b : Build) (L : Log) (e : ServiceParameterBlob) (L' : Log) : Prop :=
  L' = L.refuse e.dwMaxBufferSize.toNat ∨ L' = L.read (clientRange b e) false

namespace Held

/-- A new list, with what was left in its memory. -/
theorem start {g : Local b} {tmp : LPVOID} {m : Nat} {leftover : ServiceRoutineParameter}
    (hnew : NewAt b .parameters m g.cells tmp (.parameters leftover)) :
    Held g tmp [] leftover.parameters (g.allocate tmp m (.parameters leftover)) := by
  refine ⟨Function.update_self .., ⟨hnew.nonzero, hnew.new⟩, List.nodup_nil, ?_, ?_, rfl⟩
  · intro a ha
    exact nomatch ha
  · intro a ha _
    exact Function.update_of_ne ha ..

variable {g₀ g : Local b} {tmp : LPVOID} {es rest : List ServiceParameterBlob}
  {e e' : ServiceParameterBlob}

/-- The blocks of before are as they were. -/
theorem old (H : Held g₀ tmp es rest g) {a : LPVOID} (ha : g₀.cells a ≠ none) :
    g.cells a = g₀.cells a := by
  refine H.frame a ?_ ?_
  · rintro rfl
    exact ha H.fresh.2
  · intro hmem
    exact ha (H.held a hmem).2.2.1

/-- An entry of the list is written. -/
theorem write (H : Held g₀ tmp es (e :: rest) g) (e' : ServiceParameterBlob) :
    Held g₀ tmp es (e' :: rest) (g.put tmp (some (.parameters ⟨es ++ e' :: rest⟩))) := by
  refine ⟨g.put_cells_self .., H.fresh, H.nodup, ?_, ?_, H.lpc⟩
  · intro a ha
    obtain ⟨h₁, h₂, h₃, h₄⟩ := H.held a ha
    exact ⟨h₁, h₂, h₃, by rwa [g.put_cells_ne h₁]⟩
  · intro a ha hmem
    rw [g.put_cells_ne ha]
    exact H.frame a ha hmem

/-- An entry without a buffer. -/
theorem plain (H : Held g₀ tmp es (e :: rest) g)
    (he : (isPtr e.parameterMask && e.ulParameter != 0) = false) :
    Held g₀ tmp (es ++ [e]) rest g := by
  have hbuf : buffers b ⟨es ++ [e]⟩ = buffers b ⟨es⟩ := by
    rw [buffers_append, ← sized_fst [e], sized_singleton, he, if_neg Bool.false_ne_true]
    exact List.append_nil _
  refine ⟨?_, H.fresh, ?_, ?_, ?_, H.lpc⟩
  · rw [H.list, List.append_assoc]
    rfl
  · rw [hbuf]
    exact H.nodup
  · rw [hbuf]
    exact H.held
  · rw [hbuf]
    exact H.frame

/-- An entry with a new buffer. -/
theorem buffer (H : Held g₀ tmp es (e :: rest) g) {a : LPVOID} {m : Nat} {x : Block}
    (hnew : NewAt b .buffer m g.cells a x) (he : isPtr e.parameterMask = true) :
    Held g₀ tmp (es ++ [{ e with ulParameter := a }]) rest ((g.allocate a m x).put tmp
      (some (.parameters ⟨es ++ { e with ulParameter := a } :: rest⟩))) := by
  have hbuf : buffers b ⟨es ++ [{ e with ulParameter := a }]⟩ = buffers b ⟨es⟩ ++ [a] := by
    simp [buffers, he, hnew.nonzero, hnew.pointer]
  have hat : a ≠ tmp := by
    rintro rfl
    have hlist := H.list
    rw [hnew.new] at hlist
    cases hlist
  have hcells : ∀ c, c ≠ tmp → ((g.allocate a m x).put tmp (some (.parameters
      ⟨es ++ { e with ulParameter := a } :: rest⟩))).cells c
      = if c = a then some x else g.cells c := by
    intro c hc
    rw [Local.put_cells_ne _ hc]
    show Function.update g.cells a (some x) c = _
    by_cases hca : c = a
    · rw [hca, Function.update_self, if_pos rfl]
    · rw [Function.update_of_ne hca, if_neg hca]
  have hold : a ∉ buffers b ⟨es⟩ := fun hmem => (H.held a hmem).2.2.2 hnew.new
  refine ⟨?_, H.fresh, ?_, ?_, ?_, H.lpc⟩
  · rw [Local.put_cells_self, List.append_assoc]
    rfl
  · rw [hbuf]
    refine List.Nodup.append H.nodup (List.nodup_singleton a) ?_
    intro c hc hca
    rw [List.mem_singleton.mp hca] at hc
    exact hold hc
  · rw [hbuf]
    intro c hc
    rcases List.mem_append.mp hc with hc | hc
    · obtain ⟨h₁, h₂, h₃, h₄⟩ := H.held c hc
      refine ⟨h₁, h₂, h₃, ?_⟩
      rw [hcells c h₁, if_neg (fun h : c = a => hold (h ▸ hc))]
      exact h₄
    · obtain rfl := List.mem_singleton.mp hc
      refine ⟨hat, hnew.nonzero, ?_, ?_⟩
      · rw [← H.frame c hat hold]
        exact hnew.new
      · rw [hcells c hat, if_pos rfl]
        exact Option.some_ne_none x
  · rw [hbuf]
    intro c hct hc
    rw [List.mem_append, not_or, List.mem_singleton] at hc
    rw [hcells c hct, if_neg hc.2]
    exact H.frame c hct hc.1

/-- The content of a buffer is written. -/
theorem fill (H : Held g₀ tmp es rest g) {a : LPVOID} (ha : a ∈ buffers b ⟨es⟩) (x : Block) :
    Held g₀ tmp es rest (g.put a (some x)) := by
  refine ⟨?_, H.fresh, H.nodup, ?_, ?_, H.lpc⟩
  · rw [g.put_cells_ne (H.held a ha).1.symm]
    exact H.list
  · intro c hc
    obtain ⟨h₁, h₂, h₃, h₄⟩ := H.held c hc
    refine ⟨h₁, h₂, h₃, ?_⟩
    by_cases hca : c = a
    · rw [hca, g.put_cells_self]
      exact Option.some_ne_none x
    · rwa [g.put_cells_ne hca]
  · intro c hct hc
    have hca : c ≠ a := fun h => hc (h ▸ ha)
    rw [g.put_cells_ne hca]
    exact H.frame c hct hc

/-- The log is no part of it. -/
theorem congr (H : Held g₀ tmp es rest g) {g' : Local b} (hc : g'.cells = g.cells)
    (hk : g'.lpc = g.lpc) : Held g₀ tmp es rest g' := by
  refine ⟨?_, H.fresh, H.nodup, ?_, ?_, ?_⟩
  · rw [hc]
    exact H.list
  · rw [hc]
    exact H.held
  · rw [hc]
    exact H.frame
  · rw [hk]
    exact H.lpc

end Held

/-- An entry that needs no buffer has none. -/
theorem unbuffered {e : ServiceParameterBlob} (he : ¬ needsBuffer e = true) :
    (isPtr e.parameterMask && e.ulParameter != 0) = false := by
  rw [needsBuffer, Bool.and_eq_true, Bool.or_eq_true, not_and, not_or] at he
  rw [Bool.and_eq_false_iff]
  by_cases hptr : isPtr e.parameterMask = true
  · exact Or.inr (by simpa using (he hptr).2)
  · exact Or.inl (by simpa using hptr)

section Map

variable {t n : Nat} {α : Type} {Q : α → Local b → Prop} {g₀ : Local b} {h : HANDLE}
  {src tmp : LPVOID} {m : Nat}

/-- A buffer for one entry, at the end of those that have one. -/
theorem solo_mapBuffer {ps done rest : List ServiceParameterBlob} {e : ServiceParameterBlob}
    {g : Local b} (H : Held g₀ tmp done (e :: rest) g)
    (hlog : g.log = mapLog b g₀.log tmp m ps done) (he : needsBuffer e = true)
    {f : Bool → Code b α}
    (htrue : ∀ g' e', Held g₀ tmp (done ++ [e']) rest g' →
      g'.log = mapLog b g₀.log tmp m (ps ++ [e]) (done ++ [e']) →
      MapsTo b (clientOf g₀.lpc h) g'.cells e e' →
      (∀ a, a ≠ tmp → g.cells a ≠ none → g'.cells a = g.cells a) →
      wp (solo t n) (f true) Q g')
    (hfalse : ∀ g' e', Held g₀ tmp (done ++ [e']) rest g' →
      FailLog b (mapLog b g₀.log tmp m ps (done ++ [e'])) e g'.log →
      wp (solo t n) (f false) Q g') :
    wp (solo t n) (mapBuffer h tmp done.length e >>= f) Q g := by
  have hptr := isPtr_of_needsBuffer he
  have hranges : mapRanges b (ps ++ [e]) = mapRanges b ps ++ [clientRange b e] := by
    simp [mapRanges, List.filter_append, he]
  rw [mapBuffer, Prog.bind_assoc]
  refine solo_allocNothrow ?_ ?_
  · -- no memory: the entry gets the null address
    rw [Prog.bind_assoc]
    refine solo_storeEntry (p := ⟨done ++ e :: rest⟩) (by exact H.list) ?_
    rw [set_append_cons, if_pos rfl]
    have H' := (H.write { e with ulParameter := 0 }).plain (by simp)
    refine hfalse _ { e with ulParameter := 0 } (H'.congr rfl rfl) (Or.inl ?_)
    have hs : sized b (done ++ [{ e with ulParameter := 0 }]) = sized b done := by
      rw [sized_append, sized_singleton]
      simp
    show g.log.refuse _ = _
    rw [hlog, mapLog, mapLog, hs]
  -- the buffer is in the entry before the client is read
  · intro a x hnew
    have H' := H.buffer hnew hptr
    have hsized : sized b (done ++ [{ e with ulParameter := a }])
        = sized b done ++ [(a, e.dwMaxBufferSize.toNat)] := by
      rw [sized_append, sized_singleton]
      simp [hptr, hnew.nonzero, hnew.pointer]
    have hmem : a ∈ buffers b ⟨done ++ [{ e with ulParameter := a }]⟩ := by
      rw [← sized_fst, hsized, List.map_append]
      exact List.mem_append_right _ List.mem_cons_self
    have hat : a ≠ tmp := (H'.held a hmem).1
    have hlist : (g.allocate a e.dwMaxBufferSize.toNat x).cells tmp
        = some (.parameters ⟨done ++ e :: rest⟩) := by
      rw [← H.list]
      exact Function.update_of_ne hat.symm ..
    rw [Prog.bind_assoc]
    refine solo_storeEntry hlist ?_
    rw [set_append_cons, if_neg hnew.nonzero, Prog.bind_assoc]
    refine solo_read ?_ ?_
    · intro pid hp hacc
      rw [if_pos (by rfl), Prog.bind_assoc]
      refine solo_store (x := x) (y := .buffer _) ?_ hnew.kind ?_
      · show ((g.allocate a e.dwMaxBufferSize.toNat x).put tmp _).cells a = some x
        rw [Local.put_cells_ne _ hat]
        exact Local.put_cells_self ..
      · refine htrue _ _ ((H'.fill hmem _).congr rfl rfl) ?_ ?_ ?_
        · show (g.log.allocate a _).read _ true = _
          rw [hlog, mapLog, mapLog, hsized, hranges]
          simp [Log.allocate, Log.read, clientRange]
        · unfold MapsTo
          rw [if_pos he]
          refine ⟨a, _, rfl, hnew.nonzero, hnew.pointer, Function.update_self .., ?_⟩
          intro y hy
          have hp₀ : g₀.lpc.processOf h = some pid := by
            rw [← H.lpc]
            exact hp
          rw [clientOf, hp₀] at hy
          obtain rfl := Option.some.inj hy
          rw [← H.lpc]
          exact ⟨hacc, rfl⟩
        · intro c hct hc
          have hca : c ≠ a := by
            rintro rfl
            exact hc hnew.new
          show Function.update (Function.update (Function.update g.cells a _) tmp _) a _ c = _
          rw [Function.update_of_ne hca, Function.update_of_ne hct, Function.update_of_ne hca]
    -- the read failed: the buffer stays in the entry
    · intro st hst
      show wp _ ((if ntSuccess st = true then _ else _) >>= f) Q _
      rw [hst, if_neg Bool.false_ne_true]
      refine hfalse _ _ (H'.congr rfl rfl) (Or.inr ?_)
      show (g.log.allocate a _).read _ false = _
      rw [hlog, mapLog, mapLog, hsized]
      simp [Log.allocate, Log.read, clientRange]

/-- The loop of `RtlMapPtrParameters`, up to the undoing of a mapping that failed. -/
theorem solo_mapLoop {p : ServiceRoutineParameter} {leftover : List ServiceParameterBlob}
    (hsrc : g₀.cells src = some (.parameters p)) {f : LPVOID → Code b α}
    (hok : ∀ g q, Held g₀ tmp q [] g → g.log = mapLog b g₀.log tmp m p.parameters q →
      List.Forall₂ (MapsTo b (clientOf g₀.lpc h) g.cells) p.parameters q →
      wp (solo t n) (f tmp) Q g)
    (hno : ∀ g pre e post done e', p.parameters = pre ++ e :: post →
      done.length = pre.length → needsBuffer e = true →
      Held g₀ tmp (done ++ [e']) (leftover.drop (pre.length + 1)) g →
      FailLog b (mapLog b g₀.log tmp m pre (done ++ [e'])) e g.log →
      wp (solo t n) (rtlUnmapPtrParameters tmp >>= fun _ => f 0) Q
        (g.logged (g.log.fail pre.length))) :
    ∀ k pre post done rest g, p.parameters = pre ++ post → post.length = k →
      rest.length = k → rest = leftover.drop done.length →
      List.Forall₂ (MapsTo b (clientOf g₀.lpc h) g.cells) pre done →
      Held g₀ tmp done rest g → g.log = mapLog b g₀.log tmp m pre done →
      wp (solo t n) (mapLoop h src tmp k done.length >>= f) Q g := by
  intro k
  induction k with
  | zero =>
      intro pre post done rest g hp hpost hrest _ hmaps H hlog
      obtain rfl := List.length_eq_zero_iff.mp hpost
      obtain rfl := List.length_eq_zero_iff.mp hrest
      rw [List.append_nil] at hp
      rw [← hp] at hmaps hlog
      exact hok g done H hlog hmaps
  | succ k ih =>
      intro pre post done rest g hp hpost hrest hleft hmaps H hlog
      obtain ⟨e, post, rfl, hpost'⟩ := exists_cons hpost
      obtain ⟨e₀, rest, rfl, hrest'⟩ := exists_cons hrest
      have hlen : pre.length = done.length := hmaps.length_eq
      have hentry : entry p done.length = e := by
        rw [← hlen]
        have := entry_append pre e post
        rwa [← hp] at this
      have hsrc' : g.cells src = some (.parameters p) := by
        rw [H.old (by rw [hsrc]; exact Option.some_ne_none _), hsrc]
      have hleft' : rest = leftover.drop (done.length + 1) := by
        rw [← List.tail_drop, ← hleft]
        rfl
      -- the next iteration, once this entry is mapped to `e'`
      have hnext : ∀ g' e', Held g₀ tmp (done ++ [e']) rest g' →
          g'.log = mapLog b g₀.log tmp m (pre ++ [e]) (done ++ [e']) →
          MapsTo b (clientOf g₀.lpc h) g'.cells e e' →
          (∀ a, a ≠ tmp → g.cells a ≠ none → g'.cells a = g.cells a) →
          wp (solo t n) (mapLoop h src tmp k (done.length + 1) >>= f) Q g' := by
        intro g' e' H' hlog' he hframe
        have := ih (pre ++ [e]) post (done ++ [e']) rest g' (by simpa using hp) hpost'
          hrest' (by simpa using hleft') ?_ H' hlog'
        · rwa [List.length_append] at this
        · refine List.rel_append ?_ (.cons he .nil)
          refine hmaps.imp ?_
          intro e₁ e₂ h₁₂
          refine h₁₂.frame ?_
          intro a x hx hk
          refine hframe a ?_ (by rw [hx]; exact Option.some_ne_none x)
          rintro rfl
          rw [H.list] at hx
          obtain rfl := Option.some.inj hx
          exact nomatch hk
      rw [mapLoop, Prog.bind_assoc, mapEntry_eq, Prog.bind_assoc]
      refine solo_loadParameters hsrc' ?_
      intro _
      rw [hentry, Prog.bind_assoc]
      refine solo_storeEntry H.list ?_
      rw [set_append_cons]
      have H' := H.write e
      have hlog' : (g.put tmp (some (.parameters ⟨done ++ e :: rest⟩))).log
          = mapLog b g₀.log tmp m pre done := hlog
      have hframe : ∀ a, a ≠ tmp →
          (g.put tmp (some (.parameters ⟨done ++ e :: rest⟩))).cells a = g.cells a :=
        fun a ha => g.put_cells_ne ha _
      -- a pointer gets a buffer; anything else stays as it is
      by_cases he : needsBuffer e = true
      · rw [if_pos he]
        refine solo_mapBuffer H' hlog' he ?_ ?_
        · intro g' e' H'' hlog'' hme hf
          rw [if_pos rfl]
          refine hnext g' e' H'' hlog'' hme ?_
          intro a hat ha
          rw [hf a hat (by rw [hframe a hat]; exact ha), hframe a hat]
        · -- the mapping is undone
          intro g' e' H'' hfail
          rw [if_neg Bool.false_ne_true, Prog.bind_assoc]
          refine solo_mapFailed ?_
          rw [Prog.bind_assoc, ← hlen]
          refine hno g' pre e post done e' hp hlen.symm he ?_ hfail
          rw [hlen, ← hleft']
          exact H''
      · rw [if_neg he]
        show wp (solo t n) ((if true = true then _ else _) >>= f) Q _
        rw [if_pos rfl]
        refine hnext _ e (H'.plain (unbuffered he)) ?_ ?_ (fun a hat _ => hframe a hat)
        · have hs : sized b (done ++ [e]) = sized b done := by
            rw [sized_append, sized_singleton, unbuffered he, if_neg Bool.false_ne_true,
              List.append_nil]
          have hr : mapRanges b (pre ++ [e]) = mapRanges b pre := by
            simp [mapRanges, List.filter_append, he]
          rw [hlog', mapLog, mapLog, hs, hr]
        · unfold MapsTo
          rw [if_neg he]

/-- `RtlMapPtrParameters` on the list `p`: it succeeds with every pointer mapped, or the
    mapping fails at an entry and is undone. -/
theorem solo_rtlMapPtrParameters {p : ServiceRoutineParameter} {g : Local b}
    (hsrc : g.cells src = some (.parameters p)) {f : LPVOID → Code b α}
    (hok : ∀ g' tmp q, Held g tmp q [] g' →
      g'.log = mapLog b g.log tmp p.dwParameters p.parameters q →
      List.Forall₂ (MapsTo b (clientOf g.lpc h) g'.cells) p.parameters q →
      wp (solo t n) (f tmp) Q g')
    (hno : ∀ g' tmp leftover pre e post done e', p.parameters = pre ++ e :: post →
      done.length = pre.length → needsBuffer e = true →
      Held g tmp (done ++ [e']) leftover g' →
      FailLog b (mapLog b g.log tmp p.dwParameters pre (done ++ [e'])) e g'.log →
      wp (solo t n) (rtlUnmapPtrParameters tmp >>= fun _ => f 0) Q
        (g'.logged (g'.log.fail pre.length))) :
    wp (solo t n) (rtlMapPtrParameters h src >>= f) Q g := by
  rw [rtlMapPtrParameters, Prog.bind_assoc]
  refine solo_loadParameters hsrc ?_
  intro _
  rw [Prog.bind_assoc]
  refine solo_alloc ?_
  intro tmp x hnew
  obtain ⟨leftover, rfl⟩ : ∃ leftover, x = .parameters leftover := by
    cases hx : x with
    | parameters leftover => exact ⟨leftover, rfl⟩
    | _ => cases (hx ▸ hnew.kind)
  have H : Held g tmp [] leftover.parameters (g.allocate tmp p.dwParameters (.parameters leftover))
      := Held.start hnew
  exact solo_mapLoop hsrc (fun g' q => hok g' tmp q)
    (fun g' pre e post done e' hp hl he H' hf => hno g' tmp _ pre e post done e' hp hl he H' hf)
    p.dwParameters [] p.parameters [] leftover.parameters _ rfl rfl hnew.size rfl .nil H
    (by simp [mapLog, mapRanges, Local.allocate, Local.logged, Log.allocate])

end Map

/-! ## Runs of a mapping -/

section Runs

variable {t n : Nat} {h : HANDLE} {src tmp : LPVOID} {p : ServiceRoutineParameter}
  {w w₁ w₂ : World b} {tr tr₁ tr₂ : Events b}

/-- What a mapping that succeeded leaves: a list with its buffers, and their content. -/
theorem rtlMapPtrParameters_run (hsrc : w.heap.cells src = some (.parameters p))
    (hrun : (rtlMapPtrParameters h src : Code b LPVOID).Runs (Alone t n) w tr tmp w₁)
    (h0 : tmp ≠ 0) :
    ∃ q, Held (Local.of w []) tmp q [] (Local.of w₁ tr)
      ∧ logOf tr = mapLog b .empty tmp p.dwParameters p.parameters q
      ∧ List.Forall₂ (MapsTo b (clientOf w.lpc h) w₁.heap.cells) p.parameters q := by
  have hwp : wp (solo t n) (rtlMapPtrParameters h src : Code b LPVOID)
      (fun tmp g => tmp ≠ 0 → ∃ q, Held (Local.of w []) tmp q [] g
        ∧ g.log = mapLog b .empty tmp p.dwParameters p.parameters q
        ∧ List.Forall₂ (MapsTo b (clientOf w.lpc h) g.cells) p.parameters q)
      (Local.of w []) := by
    rw [← Prog.bind_pure (rtlMapPtrParameters h src)]
    refine solo_rtlMapPtrParameters hsrc ?_ ?_
    · intro g tmp q H hlog hmaps _
      exact ⟨q, H, hlog, hmaps⟩
    · intro g tmp leftover pre e post done e' _ _ _ _ _
      rw [wp_bind]
      exact wp_always (fun _ _ => trivial) (fun _ _ h0 => absurd rfl h0) _
  exact solo_sound hwp hrun h0

/-- The buffers of size zero of a mapped list are those of the entries of size zero. -/
theorem emptyBuffers_eq_nil {client : Option (HANDLE × VirtualMemory)} {own : Blocks}
    {ps es : List ServiceParameterBlob} (h : List.Forall₂ (MapsTo b client own) ps es) :
    emptyBuffers b es = [] ↔ ∀ e ∈ ps, needsBuffer e = true → e.dwMaxBufferSize ≠ 0 := by
  induction h with
  | nil => simp [emptyBuffers]
  | @cons e e' ps es hmaps _ ih =>
      have hone : emptyBuffers b [e'] = [] ↔ (needsBuffer e = true → e.dwMaxBufferSize ≠ 0) := by
        rw [emptyBuffers, sized_singleton]
        unfold MapsTo at hmaps
        by_cases he : needsBuffer e = true
        · rw [if_pos he] at hmaps
          obtain ⟨a, bytes, rfl, h0, -⟩ := hmaps
          have hptr : (isPtr e.parameterMask && a != 0) = true := by
            simp [isPtr_of_needsBuffer he, h0]
          rw [if_pos hptr]
          simp [he, size_eq_zero]
        · rw [if_neg he] at hmaps
          subst hmaps
          rw [unbuffered he, if_neg Bool.false_ne_true]
          simp [he]
      have happend : emptyBuffers b (e' :: es) = emptyBuffers b [e'] ++ emptyBuffers b es := by
        rw [emptyBuffers, ← List.singleton_append, sized_append, List.filter_append,
          List.map_append]
        rfl
      rw [happend, List.append_eq_nil_iff, hone, ih, List.forall_mem_cons]

/-- What is deleted besides the buffers that are not of size zero, and the list, has to
    be the buffers of size zero. -/
theorem deleted_perm {tmp : LPVOID} {es : List ServiceParameterBlob} {ds : List LPVOID} :
    (freed b es ++ ds ++ [tmp]).Perm (tmp :: buffers b ⟨es⟩)
      ↔ ds.Perm (emptyBuffers b es) := by
  have h₁ : (freed b es ++ ds ++ [tmp]).Perm (tmp :: (freed b es ++ ds)) :=
    List.perm_append_singleton ..
  have h₂ : (tmp :: (freed b es ++ emptyBuffers b es)).Perm (tmp :: buffers b ⟨es⟩) :=
    (buffers_perm es).cons tmp
  constructor
  · intro h
    have := (h₁.symm.trans h).trans h₂.symm
    rwa [List.perm_cons, List.perm_append_left_iff] at this
  · intro h
    refine h₁.trans (List.Perm.trans ?_ h₂)
    rwa [List.perm_cons, List.perm_append_left_iff]

/-- Nothing that a mapping holds is null. -/
theorem Held.filter_freed {g₀ g : Local b} {tmp : LPVOID} {es rest : List ServiceParameterBlob}
    (H : Held g₀ tmp es rest g) : (freed b es).filter (· != 0) = freed b es := by
  rw [List.filter_eq_self]
  intro a ha
  simpa using (H.held a ((freed_sublist es).mem ha)).2.1

/-- **UNMAPPING RELEASES A MAPPING**, every block of it once and nothing else, exactly
    when no pointer that was given a buffer has size zero. -/
theorem unmap_releases (hsrc : w.heap.cells src = some (.parameters p))
    (hmap : (rtlMapPtrParameters h src : Code b LPVOID).Runs (Alone t n) w tr₁ tmp w₁)
    (h0 : tmp ≠ 0)
    (hunmap : (rtlUnmapPtrParameters tmp : Code b Unit).Runs (Alone t n) w₁ tr₂ () w₂) :
    ((logOf tr₁).addresses.Nodup ∧ (logOf tr₂).deleted.Perm (logOf tr₁).addresses
        ∧ w₂.heap.cells = w.heap.cells)
      ↔ ∀ e ∈ p.parameters, needsBuffer e = true → e.dwMaxBufferSize ≠ 0 := by
  obtain ⟨q, H, hlog, hmaps⟩ := rtlMapPtrParameters_run hsrc hmap h0
  have htmp : tmp ∉ freed b q := fun hmem => (H.held tmp ((freed_sublist q).mem hmem)).1 rfl
  have hcells : w₁.heap.cells tmp = some (.parameters ⟨q⟩) := by
    rw [← List.append_nil q]
    exact H.list
  -- what unmapping does
  have hwp : wp (solo t n) (rtlUnmapPtrParameters tmp : Code b Unit)
      (fun _ g => g = ((Local.of w₁ []).deleteAll (freed b q)).delete tmp) (Local.of w₁ []) := by
    rw [← Prog.bind_pure (rtlUnmapPtrParameters tmp)]
    exact solo_rtlUnmapPtrParameters hcells htmp rfl
  have hend : Local.of w₂ tr₂ = ((Local.of w₁ []).deleteAll (freed b q)).delete tmp :=
    solo_sound hwp hunmap
  have haddr : (logOf tr₁).addresses = tmp :: buffers b ⟨q⟩ := by
    rw [hlog, ← sized_fst]
    rfl
  have hnodup : (tmp :: buffers b ⟨q⟩).Nodup :=
    List.nodup_cons.mpr ⟨fun hmem => (H.held tmp hmem).1 rfl, H.nodup⟩
  have hdel : (logOf tr₂).deleted = freed b q ++ [] ++ [tmp] := by
    have := congrArg (fun g => g.log.deleted) hend
    refine this.trans ?_
    rw [Local.delete_log, Local.deleteAll_log, H.filter_freed, List.append_nil]
    simp [Log.deletes, Local.of, logOf, Log.empty, h0]
  rw [haddr, hdel, deleted_perm, ← emptyBuffers_eq_nil hmaps, List.nil_perm]
  refine ⟨fun hx => hx.2.1, fun hempty => ⟨hnodup, hempty, ?_⟩⟩
  have hall : ∀ a, a ∈ freed b q ↔ a ∈ buffers b ⟨q⟩ := by
    intro a
    have := (buffers_perm (b := b) q).mem_iff (a := a)
    rwa [hempty, List.append_nil] at this
  funext a
  have := congrArg (fun g => g.cells a) hend
  refine this.trans ?_
  rw [Local.delete_cells, Local.deleteAll_cells]
  by_cases hat : a = tmp
  · rw [if_pos ⟨hat, h0⟩, hat]
    exact H.fresh.2.symm
  · rw [if_neg (fun h => hat h.1)]
    by_cases hmem : a ∈ buffers b ⟨q⟩
    · obtain ⟨-, h₂, h₃, -⟩ := H.held a hmem
      rw [if_pos ⟨(hall a).mpr hmem, h₂⟩]
      exact h₃.symm
    · rw [if_neg (fun h => hmem ((hall a).mp h.1))]
      exact H.frame a hat hmem

/-! ## A mapping that fails -/

/-- `RtlMapPtrParameters` up to its loop. -/
def newList (lpParametersToMap : LPVOID) : Code b LPVOID := do
  let p ← loadParameters lpParametersToMap
  alloc .parameters p.dwParameters

/-- A run of `RtlMapPtrParameters` on the list `p` in which the memory of the new list
    contains `leftover`. -/
def MapRun (t n : Nat) (h : HANDLE) (src : LPVOID) (p leftover : ServiceRoutineParameter)
    (w : World b) (tr : Events b) (result : LPVOID) (w' : World b) : Prop :=
  w.heap.cells src = some (.parameters p) ∧ ∃ tr₁ tr₂ tmp w₁, tr = tr₁ ++ tr₂
    ∧ (newList src : Code b LPVOID).Runs (Alone t n) w tr₁ tmp w₁
    ∧ w₁.heap.cells tmp = some (.parameters leftover)
    ∧ (mapLoop h src tmp p.dwParameters 0 : Code b LPVOID).Runs (Alone t n) w₁ tr₂ result w'

/-- The new list, with what was left in its memory. -/
theorem newList_run (hsrc : w.heap.cells src = some (.parameters p))
    (hrun : (newList src : Code b LPVOID).Runs (Alone t n) w tr tmp w₁) :
    ∃ leftover, NewAt b .parameters p.dwParameters w.heap.cells tmp (.parameters leftover)
      ∧ Local.of w₁ tr
        = (Local.of w []).allocate tmp p.dwParameters (.parameters leftover) := by
  have hwp : wp (solo t n) (newList src : Code b LPVOID) (fun tmp g => ∃ leftover,
      NewAt b .parameters p.dwParameters w.heap.cells tmp (.parameters leftover)
        ∧ g = (Local.of w []).allocate tmp p.dwParameters (.parameters leftover))
      (Local.of w []) := ?_
  · exact solo_sound hwp hrun
  refine solo_loadParameters hsrc ?_
  intro _
  rw [← Prog.bind_pure (alloc ..)]
  refine solo_alloc ?_
  intro a x hnew
  cases hx : x with
  | parameters leftover =>
      subst hx
      exact ⟨leftover, hnew, rfl⟩
  | _ => exact nomatch (hx ▸ hnew.kind)

/-- A list that is loaded is the one that is there. -/
theorem loadParameters_run {p' : ServiceRoutineParameter}
    (hsrc : w.heap.cells src = some (.parameters p))
    (hrun : (loadParameters src : Code b _).Runs (Alone t n) w tr p' w₁) : p' = p := by
  have hwp : wp (solo t n) (loadParameters src : Code b _) (fun p' _ => p' = p)
      (Local.of w []) := by
    rw [← Prog.bind_pure (loadParameters src)]
    refine solo_loadParameters hsrc ?_
    intro _
    exact rfl
  exact solo_sound hwp hrun

/-- Every run of `RtlMapPtrParameters` finds something in the memory of its new list. -/
theorem mapRun_iff : (∃ leftover, MapRun t n h src p leftover w tr tmp w₂)
    ↔ w.heap.cells src = some (.parameters p)
      ∧ (rtlMapPtrParameters h src : Code b LPVOID).Runs (Alone t n) w tr tmp w₂ := by
  constructor
  · rintro ⟨leftover, hsrc, tr₁, tr₂, tmp₁, w₁, rfl, hnew, -, hloop⟩
    refine ⟨hsrc, ?_⟩
    obtain ⟨tr₃, tr₄, p', w₃, rfl, hload, halloc⟩ := hnew.bind_inv
    obtain rfl := loadParameters_run hsrc hload
    rw [List.append_assoc]
    exact hload.bind (halloc.bind hloop)
  · rintro ⟨hsrc, hrun⟩
    obtain ⟨tr₁, tr₂, p', w₁, rfl, hload, hrun⟩ := hrun.bind_inv
    obtain rfl := loadParameters_run hsrc hload
    obtain ⟨tr₂, tr₃, tmp₁, w₃, rfl, halloc, hloop⟩ := hrun.bind_inv
    have hnew : (newList src : Code b LPVOID).Runs (Alone t n) w (tr₁ ++ tr₂) tmp₁ w₃ :=
      hload.bind halloc
    obtain ⟨leftover, hat, hof⟩ := newList_run hsrc hnew
    refine ⟨leftover, hsrc, tr₁ ++ tr₂, tr₃, tmp₁, w₃, (List.append_assoc ..).symm, hnew, ?_,
      hloop⟩
    have := congrArg (fun g => g.cells tmp₁) hof
    exact this.trans (Local.put_cells_self ..)

/-- What a failed mapping deletes is what it allocated exactly when the entries behind
    the one that failed name the buffers of size zero. -/
def Cleanup (rest : List LPVOID) (L : Log) : Prop :=
  L.addresses.Nodup ∧ (L.deleted.Perm L.addresses ↔ rest.Perm L.zeroSized)

/-- Undoing a mapping that holds the buffers of `es`. -/
theorem solo_cleanup {g₀ g : Local b} {m : Nat} {es rest : List ServiceParameterBlob}
    (H : Held g₀ tmp es rest g) (hm : m ≠ 0) (halloc : g.log.allocated = (tmp, m) :: sized b es)
    (hdel : g.log.deleted = []) :
    wp (solo t n) (rtlUnmapPtrParameters tmp >>= fun _ => pure (0 : LPVOID))
      (fun _ g' => g'.log.failed = g.log.failed
        ∧ Cleanup ((freed b rest).filter (· != 0)) g'.log) g := by
  have hnodup : (tmp :: buffers b ⟨es⟩).Nodup :=
    List.nodup_cons.mpr ⟨fun hmem => (H.held tmp hmem).1 rfl, H.nodup⟩
  have haddr : ∀ ds, (g.log.deletes ds).addresses = tmp :: buffers b ⟨es⟩ := by
    intro ds
    show g.log.allocated.map Prod.fst = _
    rw [halloc, ← sized_fst]
    rfl
  have hzero : ∀ ds, (g.log.deletes ds).zeroSized = emptyBuffers b es := by
    intro ds
    show (g.log.allocated.filter _).map Prod.fst = _
    rw [halloc, List.filter_cons_of_neg (by simpa using hm)]
    rfl
  have hdeleted : ∀ ds, (g.log.deletes ds).deleted = ds := by
    intro ds
    show g.log.deleted ++ ds = ds
    rw [hdel, List.nil_append]
  have hself : tmp ∉ freed b es := fun hmem => (H.held tmp ((freed_sublist es).mem hmem)).1 rfl
  by_cases htmp : tmp ∈ freed b (es ++ rest)
  · -- the list names itself: it is deleted twice
    refine solo_rtlUnmapPtrParameters_self H.list htmp ?_
    intro ds g' hds hg'
    refine ⟨by rw [hg']; rfl, ?_⟩
    rw [Cleanup, hg', haddr, hzero, hdeleted]
    refine ⟨hnodup, ?_, ?_⟩
    · intro hperm
      have := (hperm.nodup_iff.mpr hnodup)
      rw [List.nodup_append] at this
      exact absurd rfl (this.2.2 tmp hds tmp List.mem_cons_self)
    · intro hperm
      rw [freed_append] at htmp
      have hrest : tmp ∈ (freed b rest).filter (· != 0) :=
        List.mem_filter.mpr ⟨(List.mem_append.mp htmp).resolve_left hself,
          by simpa using H.fresh.1⟩
      have hempty := (buffers_perm es).subset
        (List.mem_append_right (freed b es) (hperm.subset hrest))
      exact absurd hempty (List.nodup_cons.mp hnodup).1
  · refine solo_rtlUnmapPtrParameters H.list htmp ?_
    have hlog : ((g.deleteAll (freed b (es ++ rest))).delete tmp).log
        = g.log.deletes (freed b es ++ (freed b rest).filter (· != 0) ++ [tmp]) := by
      rw [Local.delete_log, Local.deleteAll_log, freed_append, List.filter_append,
        H.filter_freed]
      simp [H.fresh.1]
    refine ⟨by rw [hlog]; rfl, ?_⟩
    rw [Cleanup, hlog, haddr, hzero, hdeleted]
    exact ⟨hnodup, deleted_perm⟩

/-- **A MAPPING THAT FAILS** at an entry deletes what it allocated, each block once and
    nothing else, exactly when the entries that the new list happened to contain behind
    that entry name, of buffers they would have deleted, those of size zero that were
    allocated. -/
theorem map_cleanup {leftover : ServiceRoutineParameter}
    (hrun : MapRun t n h src p leftover w tr 0 w₂) :
    ∃ i, (logOf tr).failed = [i] ∧ i < p.dwParameters ∧ (logOf tr).addresses.Nodup
      ∧ ((logOf tr).deleted.Perm (logOf tr).addresses
        ↔ ((freed b (leftover.parameters.drop (i + 1))).filter (· != 0)).Perm
            (logOf tr).zeroSized) := by
  obtain ⟨hsrc, tr₁, tr₂, tmp, w₁, rfl, hnew, hleft, hloop⟩ := hrun
  obtain ⟨leftover', hat, hof⟩ := newList_run hsrc hnew
  obtain rfl : leftover' = leftover := by
    have := congrArg (fun g => g.cells tmp) hof
    have hcells : w₁.heap.cells tmp = some (.parameters leftover') :=
      this.trans (Local.put_cells_self ..)
    rw [hleft] at hcells
    exact (Block.parameters.inj (Option.some.inj hcells)).symm
  have hwp : wp (solo t n) (mapLoop h src tmp p.dwParameters 0 : Code b LPVOID)
      (fun result g => result = 0 → ∃ i, g.log.failed = [i] ∧ i < p.dwParameters
        ∧ Cleanup ((freed b (leftover'.parameters.drop (i + 1))).filter (· != 0)) g.log)
      (Local.of w₁ tr₁) := by
    rw [hof, ← Prog.bind_pure (mapLoop ..)]
    have hsrc : (Local.of w []).cells src = some (.parameters p) := hsrc
    refine solo_mapLoop (m := p.dwParameters) hsrc ?_ ?_ p.dwParameters []
      p.parameters [] leftover'.parameters _ rfl rfl hat.size rfl .nil (.start hat) ?_
    · intro g q H _ _ h0
      exact absurd h0 H.fresh.1
    · intro g pre e post done e' hp hlen _ H hfail
      have hlt : pre.length < p.dwParameters := by
        rw [ServiceRoutineParameter.dwParameters, hp, List.length_append, List.length_cons]
        omega
      have hlog : g.log.allocated = (tmp, p.dwParameters) :: sized b (done ++ [e'])
          ∧ g.log.deleted = [] ∧ g.log.failed = [] := by
        rcases hfail with hlog | hlog
        · rw [hlog]
          exact ⟨rfl, rfl, rfl⟩
        · rw [hlog]
          exact ⟨rfl, rfl, rfl⟩
      have H' : Held _ tmp _ _ (g.logged (g.log.fail pre.length)) := H.congr rfl rfl
      refine wp_mono ?_ (solo_cleanup (m := p.dwParameters) H' (by omega) hlog.1 hlog.2.1)
      rintro result g' ⟨hfailed, hclean⟩ _
      refine ⟨pre.length, ?_, hlt, hclean⟩
      rw [hfailed]
      show g.log.failed ++ [pre.length] = [pre.length]
      rw [hlog.2.2]
      rfl
    · simp [mapLog, mapRanges, Local.allocate, Local.logged, Log.allocate, Local.of, logOf]
  exact solo_sound hwp hloop rfl

end Runs

/-! ## Two runs -/

/-- The list `p` at address 16, and a handle of process 7. -/
def openedClient (b : Build) (p : ServiceRoutineParameter) : World b :=
  let w := (World.initialized b).withBlocks [(16, .parameters p)]
  { w with lpc := w.lpc.opened 4 (.process 7) }

/-- One pointer, to `size` bytes at address 100. -/
def onePointer (size : DWORD) : ServiceRoutineParameter := ⟨[⟨0x40, size, 100⟩]⟩

/-- Map a list of one pointer into a list at 32 and a buffer at 48. -/
def mapsOne (content : List BYTE) : List (Choice .x64) :=
  [.ok, .fresh 32 (.parameters ⟨[⟨0, 0, 0⟩]⟩), .ok, .ok, .ok,
    .fresh 48 (.buffer content), .ok, .ok, .ok, .ok]

/-- A list with the pointer to one byte is mapped and unmapped. -/
theorem unmap_releases_one : ∃ (w₁ w₂ : World .x64) (tr₁ tr₂ : Events .x64),
    (rtlMapPtrParameters 4 16 : Code .x64 LPVOID).Runs (Alone 0 1)
        (openedClient .x64 (onePointer 1)) tr₁ 32 w₁
      ∧ (rtlUnmapPtrParameters 32 : Code .x64 Unit).Runs (Alone 0 1) w₁ tr₂ () w₂
      ∧ (logOf tr₂).deleted.Perm (logOf tr₁).addresses := by
  have hrun : ((perform 0 1 (rtlMapPtrParameters 4 16) (mapsOne [0])
      (openedClient .x64 (onePointer 1))).bind fun x =>
        (perform 0 1 (rtlUnmapPtrParameters 32) [.ok, .ok, .ok, .ok] x.2.2).map fun _ =>
          x.2.1) = some 32 := by decide +kernel
  obtain ⟨⟨tr₁, tmp, w₁⟩, hmap, hrun⟩ := Option.bind_eq_some_iff.mp hrun
  obtain ⟨⟨tr₂, ⟨⟩, w₂⟩, hunmap, rfl⟩ := Option.map_eq_some_iff.mp hrun
  have hmap := perform_runs hmap
  have hunmap := perform_runs hunmap
  exact ⟨w₁, w₂, tr₁, tr₂, hmap, hunmap,
    ((unmap_releases rfl hmap (by decide) hunmap).mpr (by decide)).2.1⟩

/-- A pointer to no bytes gets a buffer, and unmapping leaves it behind. -/
theorem unmap_leaks : ¬ ∀ (w w₁ w₂ : World .x64) (p : ServiceRoutineParameter) (tmp : LPVOID)
    (tr₁ tr₂ : Events .x64), w.heap.cells 16 = some (.parameters p) →
    (rtlMapPtrParameters 4 16 : Code .x64 LPVOID).Runs (Alone 0 1) w tr₁ tmp w₁ → tmp ≠ 0 →
    (rtlUnmapPtrParameters tmp : Code .x64 Unit).Runs (Alone 0 1) w₁ tr₂ () w₂ →
    (logOf tr₂).deleted.Perm (logOf tr₁).addresses := by
  intro h
  have hrun : ((perform 0 1 (rtlMapPtrParameters 4 16) (mapsOne [])
      (openedClient .x64 (onePointer 0))).bind fun x =>
        (perform 0 1 (rtlUnmapPtrParameters 32) [.ok, .ok, .ok] x.2.2).map fun y =>
          (x.2.1, (logOf x.1).addresses, (logOf y.1).deleted))
      = some (32, [32, 48], [32]) := by decide +kernel
  obtain ⟨⟨tr₁, tmp, w₁⟩, hmap, hrun⟩ := Option.bind_eq_some_iff.mp hrun
  obtain ⟨⟨tr₂, ⟨⟩, w₂⟩, hunmap, he⟩ := Option.map_eq_some_iff.mp hrun
  obtain ⟨rfl, he⟩ := Prod.mk.inj he
  obtain ⟨haddr, hdel⟩ := Prod.mk.inj he
  have := (h _ w₁ w₂ _ 32 tr₁ tr₂ rfl (perform_runs hmap) (by decide)
    (perform_runs hunmap)).length_eq
  rw [haddr, hdel] at this
  exact nomatch this

/-- Two pointers to one byte each. -/
def pointerPair : ServiceRoutineParameter := ⟨[⟨0x40, 1, 100⟩, ⟨0x40, 1, 200⟩]⟩

/-- The pair is mapped, but its first pointer cannot be read; the memory of the new list
    contained null pointers. -/
theorem map_cleanup_null : ∃ (w : World .x64) (tr : Events .x64),
    MapRun 0 1 4 16 pointerPair ⟨[⟨0, 0, 0⟩, ⟨0, 0, 0⟩]⟩ (openedClient .x64 pointerPair) tr 0 w
      ∧ (logOf tr).deleted.Perm (logOf tr).addresses := by
  have hrun : ((perform 0 1 (newList 16) [.ok, .fresh 32 (.parameters
      ⟨[⟨0, 0, 0⟩, ⟨0, 0, 0⟩]⟩)] (openedClient .x64 pointerPair)).bind fun x =>
        (perform 0 1 (mapLoop 4 16 32 2 0) [.ok, .ok, .ok, .fresh 48 (.buffer [0]), .ok, .ok,
          .fail STATUS_ACCESS_VIOLATION, .ok, .ok, .ok, .ok, .ok, .ok] x.2.2).map fun y =>
            (x.2.1, x.2.2.heap.cells 32, y.2.1, (logOf (x.1 ++ y.1)).failed,
              (logOf (x.1 ++ y.1)).zeroSized))
      = some (32, some (.parameters ⟨[⟨0, 0, 0⟩, ⟨0, 0, 0⟩]⟩), 0, [0], []) := by rfl
  obtain ⟨⟨tr₁, tmp, w₁⟩, hnew, hrun⟩ := Option.bind_eq_some_iff.mp hrun
  obtain ⟨⟨tr₂, result, w₂⟩, hloop, he⟩ := Option.map_eq_some_iff.mp hrun
  obtain ⟨rfl, he⟩ := Prod.mk.inj he
  obtain ⟨hleft, he⟩ := Prod.mk.inj he
  obtain ⟨rfl, he⟩ := Prod.mk.inj he
  obtain ⟨hfailed, hzero⟩ := Prod.mk.inj he
  have hmap : MapRun 0 1 4 16 pointerPair ⟨[⟨0, 0, 0⟩, ⟨0, 0, 0⟩]⟩
      (openedClient .x64 pointerPair) (tr₁ ++ tr₂) 0 w₂ :=
    ⟨rfl, tr₁, tr₂, 32, w₁, rfl, perform_runs hnew, hleft, perform_runs hloop⟩
  refine ⟨w₂, tr₁ ++ tr₂, hmap, ?_⟩
  obtain ⟨i, hi, -, -, hiff⟩ := map_cleanup hmap
  obtain rfl : i = 0 := List.singleton_injective (hi.symm.trans hfailed)
  rw [hiff, hzero]
  exact .nil

/-- The memory of the new list contained a pointer to the list that is mapped: undoing
    the mapping deletes that list as well. -/
theorem map_deletes_stray : ¬ ∀ (w w' : World .x64) (p : ServiceRoutineParameter)
    (tr : Events .x64), w.heap.cells 16 = some (.parameters p) →
    (rtlMapPtrParameters 4 16 : Code .x64 LPVOID).Runs (Alone 0 1) w tr 0 w' →
    (logOf tr).deleted.Perm (logOf tr).addresses := by
  intro h
  have hrun : (perform 0 1 (rtlMapPtrParameters 4 16) [.ok, .fresh 32 (.parameters
      ⟨[⟨0, 0, 0⟩, ⟨0x40, 1, 16⟩]⟩), .ok, .ok, .ok, .fresh 48 (.buffer [0]), .ok, .ok,
      .fail STATUS_ACCESS_VIOLATION, .ok, .ok, .ok, .ok, .ok, .ok, .ok]
      (openedClient .x64 pointerPair)).map
        (fun x => (x.2.1, (logOf x.1).addresses, (logOf x.1).deleted))
      = some (0, [32, 48], [48, 16, 32]) := by decide +kernel
  obtain ⟨⟨tr, result, w'⟩, hmap, he⟩ := Option.map_eq_some_iff.mp hrun
  obtain ⟨rfl, he⟩ := Prod.mk.inj he
  obtain ⟨haddr, hdel⟩ := Prod.mk.inj he
  have := (h _ w' _ tr rfl (perform_runs hmap)).length_eq
  rw [haddr, hdel] at this
  exact nomatch this

end ScSequential
