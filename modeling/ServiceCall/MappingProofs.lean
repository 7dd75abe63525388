import ServiceCall.OwnershipProofs

/-! # Capturing, mapping, unmapping and writing back

    What the functions on parameter lists do with the blocks of the thread that
    calls them.  A capture yields a copy exactly when every mask is valid.  A
    mapping gives every pointer that is to be read a buffer of its own
    (`MapsTo`); when it fails, everything it allocated is gone again.  Unmapping
    frees what a mapping allocated.  Writing back performs the writes of
    `syncWrites` in order, until one fails. -/

namespace ScOwnership

open LinearMemory OwnedHeap OpProg ThreadSys ScParameter LpcMessage ScSystem
  ScServiceCall

variable {b : Build} {α : Type} {Q : α → Ghost b → Prop} {g : Ghost b}

/-! ## Reading a list -/

/-- Reading from the list gives the bytes `src`, where these are known. -/
def ReadsAs (g : Ghost b) (la : ListAddress) (src : Option (Nat → BYTE)) : Prop :=
  ∀ {α : Type} {Q : α → Ghost b → Prop} (off n : Nat) {f : (Nat → BYTE) → Code b α},
    (∀ v, (∀ m, src = some m → ∀ k < n, v k = m (off + k)) →
      wp (outline b) (f v) Q g) → wp (outline b) (readBytes la off n >>= f) Q g

/-- A list in a message the thread holds. -/
theorem readsAs_message {lm : LPVOID} {m : Nat → BYTE} {size : Nat}
    (h : g.own lm = some (.message m size)) (offset : Nat) :
    ReadsAs g (.message lm offset) (some fun k => m (offset + k)) := by
  intro α Q off n f hf
  show wp (outline b) (loadMessage lm >>= fun m => f fun k => m (offset + off + k)) Q g
  refine wp_loadMessage h ?_
  intro _
  refine hf _ ?_
  rintro _ ⟨rfl⟩ k _
  rw [Nat.add_assoc]

/-- A list in the memory of the process, which other threads may change. -/
theorem readsAs_own_unknown (a : LPVOID) : ReadsAs g (.own a) none := by
  intro α Q off n f hf
  refine wp_op_bind.mpr ⟨trivial, ?_⟩
  rintro bytes _ ⟨rfl, -⟩
  exact hf _ (fun m hm => nomatch hm)

section Read

variable {la : ListAddress} {src : Option (Nat → BYTE)}

theorem wp_readCount (h : ReadsAs g la src) {f : Nat → Code b α}
    (hf : ∀ n, (∀ m, src = some m → n = (readParameters m 0).dwParameters) →
      wp (outline b) (f n) Q g) : wp (outline b) (readCount la >>= f) Q g := by
  rw [readCount, Prog.bind_assoc]
  refine h 0 4 ?_
  intro v hv
  refine hf _ ?_
  intro m hm
  rw [readParameters_dwParameters]
  refine congrArg _ (readDword_congr ?_)
  intro k hk
  have := hv m hm k hk
  rwa [Nat.zero_add] at this ⊢

theorem wp_readMask (h : ReadsAs g la src) {i : Nat} {f : BYTE → Code b α}
    (hf : ∀ v, (∀ m, src = some m →
      v = (readBlob m (parametersOffset + blobSize * i)).parameterMask) →
      wp (outline b) (f v) Q g) : wp (outline b) (readMask la i >>= f) Q g := by
  rw [readMask, Prog.bind_assoc]
  refine h _ 1 ?_
  intro v hv
  refine hf _ ?_
  intro m hm
  exact hv m hm 0 Nat.one_pos

theorem wp_readEntry (h : ReadsAs g la src) {i : Nat}
    {f : ServiceParameterBlob → Code b α}
    (hf : ∀ e, (∀ m, src = some m → e = readBlob m (parametersOffset + blobSize * i)) →
      wp (outline b) (f e) Q g) : wp (outline b) (readEntry la i >>= f) Q g := by
  rw [readEntry, Prog.bind_assoc]
  refine h _ blobSize ?_
  intro v hv
  refine hf _ ?_
  intro m hm
  refine readBlob_congr ?_
  intro k hk
  rw [Nat.zero_add]
  exact hv m hm k hk

end Read

/-! ## Capturing -/

/-- The first `i` entries of a list were captured, and their masks are valid. -/
def Captured (src : Option (Nat → BYTE)) (i : Nat) (es : List ServiceParameterBlob) : Prop :=
  ∀ m, src = some m →
    es = (List.range i).map (fun j => readBlob m (parametersOffset + blobSize * j))
      ∧ ∀ e ∈ es, maskRefused e.parameterMask = false

theorem Captured.snoc {src : Option (Nat → BYTE)} {i : Nat}
    {es : List ServiceParameterBlob} (h : Captured src i es) {e : ServiceParameterBlob}
    (he : ∀ m, src = some m → e = readBlob m (parametersOffset + blobSize * i)
      ∧ maskRefused e.parameterMask = false) : Captured src (i + 1) (es ++ [e]) := by
  intro m hm
  obtain ⟨h₁, h₂⟩ := h m hm
  obtain ⟨he₁, he₂⟩ := he m hm
  constructor
  · rw [List.range_succ, List.map_append, ← h₁, he₁]
    rfl
  · intro e' he'
    rcases List.mem_append.mp he' with he' | he'
    · exact h₂ e' he'
    · obtain rfl := List.mem_singleton.mp he'
      exact he₂

/-- `readParameters` at address 0, entry by entry. -/
theorem readParameters_zero (m : Nat → BYTE) : readParameters m 0 =
    ⟨(List.range (readParameters m 0).dwParameters).map
      fun j => readBlob m (parametersOffset + blobSize * j)⟩ := by
  rw [readParameters_dwParameters]
  simp [readParameters]

/-- The loop of `RtlCaptureParameters`. -/
theorem wp_captureLoop {la : ListAddress} {src : Option (Nat → BYTE)} {a : LPVOID}
    (hread : ∀ x, ReadsAs (g.put a x) la src) (ha : g.own a = none) (h0 : a ≠ 0)
    (hs : g.Spares a) {f : LPVOID → Code b α}
    (hok : ∀ p, (∀ m, src = some m → capture (readParameters m 0) = some p) →
      wp (outline b) (f a) Q (g.put a (some (.parameters p))))
    (hno : (∀ m, src = some m → capture (readParameters m 0) = none) →
      wp (outline b) (f 0) Q g) :
    ∀ k i es, (∀ m, src = some m → i + k = (readParameters m 0).dwParameters) →
      Captured src i es →
      wp (outline b) (captureLoop la a k i >>= f) Q (g.put a (some (.parameters ⟨es⟩))) := by
  intro k
  induction k with
  | zero =>
      intro i es hn hes
      refine hok ⟨es⟩ ?_
      intro m hm
      obtain ⟨h₁, h₂⟩ := hes m hm
      rw [capture_eq_some, readParameters_zero, ← hn m hm, Nat.add_zero, ← h₁]
      exact ⟨h₂, rfl⟩
  | succ k ih =>
      intro i es hn hes
      have hown : (g.put a (some (.parameters ⟨es⟩))).own a = some (.parameters ⟨es⟩) :=
        g.put_own_self ..
      rw [captureLoop, Prog.bind_assoc]
      refine wp_readMask (hread _) ?_
      intro cbMask hmask
      -- at the first mask that is refused the new list is deleted
      by_cases hbad : maskRefused cbMask = true
      · rw [if_pos hbad]
        show wp (outline b) (free a >>= fun _ => f 0) Q _
        refine wp_free hown h0 hs ?_
        rw [Ghost.put_put, g.put_eq_self ha]
        refine hno ?_
        intro m hm
        have hlt : i < (readParameters m 0).dwParameters := by
          have := hn m hm
          omega
        rw [capture, if_neg]
        intro hvalid
        have := hvalid (readBlob m (parametersOffset + blobSize * i)) (by
          rw [readParameters_zero]
          exact List.mem_map.mpr ⟨i, List.mem_range.mpr hlt, rfl⟩)
        rw [← hmask m hm, hbad] at this
        cases this
      · rw [if_neg hbad]
        rw [Prog.bind_assoc]
        refine wp_readEntry (hread _) ?_
        intro e he
        rw [Prog.bind_assoc]
        refine wp_loadParameters hown ?_
        intro _
        rw [Prog.bind_assoc]
        refine wp_store hown (by rfl) hs ?_
        intro _
        rw [Ghost.put_put]
        refine ih (i + 1) (es ++ [e]) ?_ ?_
        · intro m hm
          have := hn m hm
          omega
        · refine hes.snoc ?_
          intro m hm
          refine ⟨he m hm, ?_⟩
          rw [he m hm, ← hmask m hm]
          simpa using hbad

/-- **A CAPTURE** yields a copy of the list when every mask is valid, and null
    with nothing allocated when one is not. -/
theorem wp_rtlCaptureParameters {la : ListAddress} {src : Option (Nat → BYTE)}
    (hg : g.Kept) (hread : ∀ a x, g.own a = none → ReadsAs (g.put a x) la src)
    (hread₀ : ReadsAs g la src) {f : LPVOID → Code b α}
    (hok : ∀ a p, a ≠ 0 → g.own a = none →
      (∀ m, src = some m → capture (readParameters m 0) = some p) →
      wp (outline b) (f a) Q (g.put a (some (.parameters p))))
    (hno : (∀ m, src = some m → capture (readParameters m 0) = none) →
      wp (outline b) (f 0) Q g) :
    wp (outline b) (rtlCaptureParameters la >>= f) Q g := by
  rw [rtlCaptureParameters, Prog.bind_assoc]
  refine wp_readCount hread₀ ?_
  intro n hn
  rw [Prog.bind_assoc]
  refine wp_alloc ?_
  intro a x h0 _ ha hk _
  rw [Prog.bind_assoc]
  refine wp_store (g.put_own_self a (some x)) (by exact hk) (hg.spares ha) ?_
  intro _
  rw [Ghost.put_put]
  refine wp_captureLoop (fun y => hread a y ha) ha h0 (hg.spares ha)
    (fun p hp => hok a p h0 ha hp) hno n 0 [] ?_ ?_
  · intro m hm
    rw [Nat.zero_add]
    exact hn m hm
  · intro m _
    refine ⟨rfl, ?_⟩
    intro e he
    exact nomatch he

/-! ## Walking along a list -/

@[simp] theorem entry_append (pre : List ServiceParameterBlob) (e : ServiceParameterBlob)
    (post : List ServiceParameterBlob) : entry ⟨pre ++ e :: post⟩ pre.length = e := by
  simp [entry]

@[simp] theorem set_append_cons (pre : List ServiceParameterBlob)
    (e e' : ServiceParameterBlob) (post : List ServiceParameterBlob) :
    (pre ++ e :: post).set pre.length e' = pre ++ e' :: post := by
  simp

/-- A list with an entry to go. -/
theorem exists_cons {es : List ServiceParameterBlob} {k : Nat} (h : es.length = k + 1) :
    ∃ e es', es = e :: es' ∧ es'.length = k := by
  cases es with
  | nil => exact nomatch h
  | cons e es' => exact ⟨e, es', rfl, Nat.succ.inj h⟩

/-! ## The 32-bit build -/

/-- What `WorkerThread` makes of the captured list before it maps it. -/
def normalized (b : Build) (p : ServiceRoutineParameter) : ServiceRoutineParameter :=
  match b with
  | .x64 => p
  | .x86 => normalizeParameters p

theorem wp_normalizeLoop {a : LPVOID} (hs : g.Spares a) {f : Unit → Code b α}
    (hf : ∀ p, g.own a = some (.parameters p) →
      wp (outline b) (f ()) Q (g.put a (some (.parameters (normalizeParameters p))))) :
    ∀ k pre post, post.length = k → g.own a = some (.parameters ⟨pre ++ post⟩) →
      wp (outline b) (normalizeLoop a k pre.length >>= f) Q
        (g.put a (some (.parameters ⟨pre.map normalizeBlob ++ post⟩))) := by
  intro k
  induction k with
  | zero =>
      intro pre post hlen hown
      obtain rfl := List.length_eq_zero_iff.mp hlen
      show wp (outline b) (f ()) Q _
      have := hf _ hown
      simpa [normalizeParameters] using this
  | succ k ih =>
      intro pre post hlen hown
      obtain ⟨e, post, rfl, hpost⟩ := exists_cons hlen
      have hput : ∀ x, (g.put a x).own a = x := g.put_own_self a
      rw [normalizeLoop, Prog.bind_assoc]
      refine wp_loadParameters (hput _) ?_
      intro _
      have he : entry ⟨pre.map normalizeBlob ++ e :: post⟩ pre.length = e := by
        have := entry_append (pre.map normalizeBlob) e post
        rwa [List.length_map] at this
      rw [Prog.bind_assoc, he]
      refine wp_storeEntry (hput _) hs ?_
      intro _
      have hset : (pre.map normalizeBlob ++ e :: post).set pre.length (normalizeBlob e)
          = (pre ++ [e]).map normalizeBlob ++ post := by
        have := set_append_cons (pre.map normalizeBlob) e (normalizeBlob e) post
        rw [List.length_map] at this
        rw [this]
        simp
      rw [Ghost.put_put, hset]
      have := ih (pre ++ [e]) post hpost (by simpa using hown)
      rwa [List.length_append] at this

theorem wp_normalize {lpService : LPVOID} {r : ServiceRoutine}
    {p : ServiceRoutineParameter} (hr : g.own lpService = some (.routine r))
    (hp : g.own r.lpParameters = some (.parameters p)) (hs : g.Spares r.lpParameters)
    {f : Unit → Code b α}
    (hf : wp (outline b) (f ()) Q
      (g.put r.lpParameters (some (.parameters (normalized b p))))) :
    wp (outline b) (normalize lpService >>= f) Q g := by
  unfold ScServiceCall.normalize
  cases b with
  | x64 =>
      rw [g.put_eq_self (by rw [hp]; rfl)] at hf
      exact hf
  | x86 =>
      rw [Prog.bind_assoc]
      refine wp_loadRoutine hr ?_
      intro _ _
      rw [Prog.bind_assoc]
      refine wp_loadParameters hp ?_
      intro _
      have := wp_normalizeLoop (f := f) hs (fun q hq => by
        rw [hp] at hq
        obtain rfl := Block.parameters.inj (Option.some.inj hq)
        exact hf) p.dwParameters [] p.parameters rfl (by simpa using hp)
      rwa [g.put_eq_self (by simpa using hp)] at this

/-- Without a captured list the 32-bit build ends there. -/
theorem wp_normalize_null {lpService : LPVOID} {r : ServiceRoutine}
    (hr : g.own lpService = some (.routine r)) (hp : r.lpParameters = 0)
    {f : Unit → Code b α} (hf : wp (outline b) (f ()) Q g) :
    wp (outline b) (normalize lpService >>= f) Q g := by
  unfold ScServiceCall.normalize
  cases b with
  | x64 => exact hf
  | x86 =>
      rw [Prog.bind_assoc]
      refine wp_loadRoutine hr ?_
      intro _ _
      rw [Prog.bind_assoc]
      show wp _ (loadParameters r.lpParameters >>= _) Q g
      rw [hp]
      exact wp_load_null

/-! ## Unmapping -/

/-- The entry has a buffer that `RtlUnmapPtrParameters` frees. -/
def freesEntry (e : ServiceParameterBlob) : Bool :=
  hasBits e.parameterMask 0b01000000 && e.dwMaxBufferSize != 0 && e.ulParameter != 0

/-- The buffers that are freed with a list. -/
def freed (b : Build) (es : List ServiceParameterBlob) : List LPVOID :=
  (es.filter freesEntry).map fun e => b.toPointer e.ulParameter

/-- The loop of `RtlUnmapPtrParameters`. -/
theorem wp_unmapLoop {tmp : LPVOID} {f : Unit → Code b α} :
    ∀ k pre post (g : Ghost b), post.length = k → g.self = none →
      g.own tmp = some (.parameters ⟨pre ++ post⟩) → (freed b post).Nodup →
      (∀ a ∈ freed b post, a ≠ tmp ∧ g.own a ≠ none) →
      (∀ own, (∀ a, a ∉ freed b post → own a = g.own a) →
        wp (outline b) (f ()) Q { g with own := own }) →
      wp (outline b) (unmapLoop tmp k pre.length >>= f) Q g := by
  intro k
  induction k with
  | zero =>
      intro pre post g hlen _ _ _ _ hf
      exact hf g.own (fun _ _ => rfl)
  | succ k ih =>
      intro pre post g hlen hself hown hnd hheld hf
      obtain ⟨e, post, rfl, hpost⟩ := exists_cons hlen
      have hnext : pre.length + 1 = (pre ++ [e]).length := by simp
      rw [unmapLoop, Prog.bind_assoc]
      refine wp_loadParameters hown ?_
      intro _
      rw [entry_append]
      by_cases he : freesEntry e = true
      · have hfreed : freed b (e :: post) = b.toPointer e.ulParameter :: freed b post := by
          simp [freed, he]
        rw [hfreed] at hnd hheld
        obtain ⟨hne, hnn⟩ := hheld _ List.mem_cons_self
        show wp _ ((if freesEntry e = true then _ else _) >>= f) Q g
        rw [if_pos he, Prog.bind_assoc]
        refine wp_free_any (Or.inr hnn) (Ghost.spares_of_none hself _) ?_
        intro g' hg'
        -- only this buffer is gone
        have hframe : ∀ a, a ≠ b.toPointer e.ulParameter → g'.own a = g.own a := by
          intro a ha
          rcases hg' with rfl | rfl
          · rfl
          · exact g.put_own_ne ha none
        have hsame : g' = { g with own := g'.own } := by
          rcases hg' with rfl | rfl
          · rfl
          · rfl
        rw [hnext]
        refine ih (pre ++ [e]) post g' hpost ?_ ?_ (List.nodup_cons.mp hnd).2 ?_ ?_
        · rw [hsame]
          exact hself
        · rw [hframe tmp hne.symm, hown, List.append_assoc]
          rfl
        · intro a ha
          obtain ⟨h₁, h₂⟩ := hheld a (List.mem_cons_of_mem _ ha)
          refine ⟨h₁, ?_⟩
          rwa [hframe a]
          rintro rfl
          exact (List.nodup_cons.mp hnd).1 ha
        · intro own hown'
          rw [hsame]
          refine hf own ?_
          intro a ha
          rw [hfreed, List.mem_cons, not_or] at ha
          rw [hown' a ha.2, hframe a ha.1]
      · have hfreed : freed b (e :: post) = freed b post := by
          simp [freed, he]
        rw [hfreed] at hnd hheld hf
        show wp _ ((if freesEntry e = true then _ else _) >>= f) Q g
        rw [if_neg he, hnext]
        exact ih (pre ++ [e]) post g hpost hself (by simpa using hown) hnd hheld hf

/-- **UNMAPPING** frees the list and the buffers of its entries. -/
theorem wp_rtlUnmapPtrParameters {tmp : LPVOID} {q : ServiceRoutineParameter}
    (hself : g.self = none) (hown : g.own tmp = some (.parameters q))
    (hnd : (freed b q.parameters).Nodup)
    (hheld : ∀ a ∈ freed b q.parameters, a ≠ tmp ∧ g.own a ≠ none)
    {f : Unit → Code b α}
    (hf : ∀ own, (∀ a, a ≠ tmp → a ∉ freed b q.parameters → own a = g.own a) →
      wp (outline b) (f ()) Q { g with own := own }) :
    wp (outline b) (rtlUnmapPtrParameters tmp >>= f) Q g := by
  rw [rtlUnmapPtrParameters, Prog.bind_assoc]
  refine wp_loadParameters hown ?_
  intro h0
  rw [Prog.bind_assoc]
  refine wp_unmapLoop q.dwParameters [] q.parameters g rfl hself hown hnd hheld ?_
  intro own hframe
  have htmp : own tmp = some (.parameters q) := by
    rw [hframe tmp (fun h => (hheld tmp h).1 rfl), hown]
  refine wp_free (g := { g with own := own }) htmp h0 (Ghost.spares_of_none hself tmp) ?_
  refine hf _ ?_
  intro a ha hnot
  rw [Function.update_of_ne ha]
  exact hframe a hnot

/-! ## Mapping -/

/-- The entry is a pointer to be read: one that may be null and is null is not. -/
def needsBuffer (e : ServiceParameterBlob) : Bool :=
  hasBits e.parameterMask 0b01000000
    && (!hasBits e.parameterMask 0b00100000 || e.ulParameter != 0)

/-- The range of the client that entry `e` points to can be read. -/
def Readable (b : Build) (vm : VirtualMemory) (e : ServiceParameterBlob) : Bool :=
  Lpc.accessible vm.readable (b.toPointer e.ulParameter).toNat e.dwMaxBufferSize.toNat

/-- What a mapping makes of an entry: a pointer that is to be read becomes a
    pointer to a buffer with what the client has there. -/
def MapsTo (b : Build) (client : Option (HANDLE × VirtualMemory)) (own : Blocks)
    (e e' : ServiceParameterBlob) : Prop :=
  if needsBuffer e then
    ∃ a bytes, e' = { e with ulParameter := a } ∧ a ≠ 0 ∧ b.toPointer a = a
      ∧ own a = some (.buffer bytes)
      ∧ ∀ x, client = some x → Readable b x.2 e = true
        ∧ bytes = slice x.2.byte (b.toPointer e.ulParameter).toNat e.dwMaxBufferSize.toNat
  else e' = e

theorem mem_buffers {p : ServiceRoutineParameter} {a : LPVOID} :
    a ∈ buffers b p ↔ ∃ e ∈ p.parameters, isPtr e.parameterMask = true
      ∧ e.ulParameter ≠ 0 ∧ b.toPointer e.ulParameter = a := by
  simp only [buffers, List.mem_filterMap, Option.ite_none_right_eq_some, Bool.and_eq_true,
    bne_iff_ne, ne_eq, Option.some.injEq, and_assoc]

/-- Only pointers with a buffer are freed. -/
theorem freed_sublist (es : List ServiceParameterBlob) :
    (freed b es).Sublist (buffers b ⟨es⟩) := by
  induction es with
  | nil => exact .slnil
  | cons e es ih =>
      have hbuf : buffers b ⟨e :: es⟩
          = (if isPtr e.parameterMask && e.ulParameter != 0 then
              [b.toPointer e.ulParameter] else []) ++ buffers b ⟨es⟩ := by
        simp only [buffers, List.filterMap_cons]
        split
        · next h => split at h <;> simp_all
        · next h => split at h <;> simp_all
      have hfreed : freed b (e :: es)
          = (if freesEntry e then [b.toPointer e.ulParameter] else []) ++ freed b es := by
        simp only [freed, List.filter_cons]
        split <;> simp
      rw [hbuf, hfreed]
      refine List.Sublist.append ?_ ih
      by_cases he : freesEntry e = true
      · have hptr : (isPtr e.parameterMask && e.ulParameter != 0) = true := by
          rw [freesEntry, Bool.and_eq_true, Bool.and_eq_true] at he
          rw [Bool.and_eq_true]
          exact ⟨he.1.1, he.2⟩
        rw [if_pos he, if_pos hptr]
      · rw [if_neg he]
        exact List.nil_sublist _

/-- What a mapping under way has allocated for the entries `es` of its list `tmp`,
    where the thread held `g.own` before. -/
structure Allocated (g : Ghost b) (own : Blocks) (tmp : LPVOID)
    (es : List ServiceParameterBlob) : Prop where
  list  : tmp ≠ 0 ∧ g.own tmp = none
  nodup : (buffers b ⟨es⟩).Nodup
  held  : ∀ a ∈ buffers b ⟨es⟩, a ≠ tmp ∧ g.own a = none ∧ own a ≠ none
  frame : ∀ a, g.own a ≠ none → own a = g.own a

namespace Allocated

variable {own : Blocks} {tmp : LPVOID} {es : List ServiceParameterBlob}

/-- An entry of the list is written. -/
theorem store_list (A : Allocated g own tmp es) (x : Option Block) :
    Allocated g (Function.update own tmp x) tmp es := by
  refine ⟨A.list, A.nodup, ?_, ?_⟩
  · intro a ha
    obtain ⟨h₁, h₂, h₃⟩ := A.held a ha
    rw [Function.update_of_ne h₁]
    exact ⟨h₁, h₂, h₃⟩
  · intro a ha
    rw [Function.update_of_ne]
    · exact A.frame a ha
    · rintro rfl
      exact ha A.list.2

/-- An entry without a buffer. -/
theorem snoc_plain (A : Allocated g own tmp es) {e : ServiceParameterBlob}
    (he : (isPtr e.parameterMask && e.ulParameter != 0) = false) :
    Allocated g own tmp (es ++ [e]) := by
  have hbuf : buffers b ⟨es ++ [e]⟩ = buffers b ⟨es⟩ := by
    simpa [buffers] using he
  refine ⟨A.list, ?_, ?_, A.frame⟩
  · rw [hbuf]
    exact A.nodup
  · rw [hbuf]
    exact A.held

/-- An entry with a new buffer. -/
theorem snoc_buffer (A : Allocated g own tmp es) {e : ServiceParameterBlob} {a : LPVOID}
    {x : Block} (he : isPtr e.parameterMask = true) (h0 : a ≠ 0) (hp : b.toPointer a = a)
    (ha : own a = none) (htmp : own tmp ≠ none) :
    Allocated g (Function.update own a (some x)) tmp (es ++ [{ e with ulParameter := a }]) := by
  have hbuf : buffers b ⟨es ++ [{ e with ulParameter := a }]⟩ = buffers b ⟨es⟩ ++ [a] := by
    simp [buffers, he, h0, hp]
  have hga : g.own a = none := by
    by_contra hne
    rw [← A.frame a hne] at hne
    exact hne ha
  refine ⟨A.list, ?_, ?_, ?_⟩
  · rw [hbuf]
    refine List.Nodup.append A.nodup (List.nodup_singleton a) ?_
    intro c hc hca
    obtain rfl := List.mem_singleton.mp hca
    exact (A.held c hc).2.2 ha
  · rw [hbuf]
    intro c hc
    rcases List.mem_append.mp hc with hc | hc
    · obtain ⟨h₁, h₂, h₃⟩ := A.held c hc
      refine ⟨h₁, h₂, ?_⟩
      rw [Function.update_of_ne]
      · exact h₃
      · rintro rfl
        exact h₃ ha
    · obtain rfl := List.mem_singleton.mp hc
      refine ⟨?_, hga, ?_⟩
      · rintro rfl
        exact htmp ha
      · rw [Function.update_self]
        exact Option.some_ne_none x
  · intro c hc
    rw [Function.update_of_ne]
    · exact A.frame c hc
    · rintro rfl
      exact hc hga

/-- The content of a buffer is written. -/
theorem store_buffer (A : Allocated g own tmp es) {a : LPVOID}
    (ha : a ∈ buffers b ⟨es⟩) (x : Block) :
    Allocated g (Function.update own a (some x)) tmp es := by
  refine ⟨A.list, A.nodup, ?_, ?_⟩
  · intro c hc
    obtain ⟨h₁, h₂, h₃⟩ := A.held c hc
    refine ⟨h₁, h₂, ?_⟩
    by_cases hca : c = a
    · subst hca
      rw [Function.update_self]
      exact Option.some_ne_none x
    · rwa [Function.update_of_ne hca]
  · intro c hc
    rw [Function.update_of_ne]
    · exact A.frame c hc
    · rintro rfl
      exact hc (A.held c ha).2.1

end Allocated

/-- An entry keeps its buffer while other blocks change. -/
theorem MapsTo.frame {client : Option (HANDLE × VirtualMemory)} {own own' : Blocks}
    {e e' : ServiceParameterBlob} (h : MapsTo b client own e e')
    (hframe : ∀ a x, own a = some x → x.kind = .buffer → own' a = own a) :
    MapsTo b client own' e e' := by
  unfold MapsTo at h ⊢
  split
  · next hn =>
      rw [if_pos hn] at h
      obtain ⟨a, bytes, he, h0, hp, hown, hx⟩ := h
      exact ⟨a, bytes, he, h0, hp, (hframe a _ hown rfl).trans hown, hx⟩
  · next hn =>
      rw [if_neg hn] at h
      exact h

/-- `mapEntry` after it copied the entry. -/
theorem mapEntry_eq (hProcess : HANDLE) (src tmp : LPVOID) (i : Nat) :
    (mapEntry hProcess src tmp i : Code b Bool) = (do
      let e := entry (← loadParameters src) i
      storeEntry tmp i e
      if needsBuffer e then mapBuffer hProcess tmp i e else return true) := by
  unfold mapEntry needsBuffer
  refine congrArg _ (funext fun p => congrArg _ (funext fun _ => ?_))
  cases hasBits (entry p i).parameterMask 0b01000000 with
  | false => rfl
  | true =>
      cases hasBits (entry p i).parameterMask 0b00100000 with
      | false => rfl
      | true =>
          simp only [if_true, Bool.true_and, Bool.not_true, Bool.false_or]

/-- A pointer that needs a buffer is a pointer. -/
theorem isPtr_of_needsBuffer {e : ServiceParameterBlob} (h : needsBuffer e = true) :
    isPtr e.parameterMask = true := by
  rw [needsBuffer, Bool.and_eq_true] at h
  exact h.1

/-- Reading and writing the memory of the client is no step of a connection. -/
theorem next_read (s : Stage b) {h a n : Nat} (r : NTSTATUS × List BYTE) :
    s.next (.ntReadVirtualMemory h a n) r = s := by
  cases s <;> rfl

theorem next_write (s : Stage b) {h a : Nat} {bytes : List BYTE} (r : NTSTATUS) :
    s.next (.ntWriteVirtualMemory h a bytes) r = s := by
  cases s <;> rfl

theorem wp_ntReadVirtualMemory {h a n : Nat} (hc : ∀ x, g.client = some x → x.1 = h)
    {f : NTSTATUS × List BYTE → Code b α}
    (hf : ∀ r, (∀ x, g.client = some x → ntSuccess r.1 = Lpc.accessible x.2.readable a n
      ∧ (ntSuccess r.1 = true → r.2 = slice x.2.byte a n)) → wp (outline b) (f r) Q g) :
    wp (outline b) (ntReadVirtualMemory h a n >>= f) Q g := by
  refine wp_op_bind.mpr ⟨hc, ?_⟩
  rintro r _ ⟨hr, rfl⟩
  rw [next_read]
  exact hf r hr

section Map

variable {hProcess : HANDLE} {src tmp : LPVOID} {own : Blocks}
  {done rest : List ServiceParameterBlob} {e : ServiceParameterBlob}

/-- A buffer for one entry, at the end of those that have one. -/
theorem wp_mapBuffer (hself : g.self = none)
    (hclient : ∀ x, g.client = some x → x.1 = hProcess) (A : Allocated g own tmp done)
    (hown : own tmp = some (.parameters ⟨done ++ e :: rest⟩)) (he : needsBuffer e = true)
    {f : Bool → Code b α}
    (htrue : ∀ own' e', Allocated g own' tmp (done ++ [e']) →
      own' tmp = some (.parameters ⟨done ++ e' :: rest⟩) → MapsTo b g.client own' e e' →
      (∀ a, a ≠ tmp → own a ≠ none → own' a = own a) →
      wp (outline b) (f true) Q { g with own := own' })
    (hfalse : ∀ own' e', Allocated g own' tmp (done ++ [e']) →
      own' tmp = some (.parameters ⟨done ++ e' :: rest⟩) →
      (g.ample = true → ∀ x, g.client = some x → Readable b x.2 e = false) →
      wp (outline b) (f false) Q { g with own := own' }) :
    wp (outline b) (mapBuffer hProcess tmp done.length e >>= f) Q { g with own := own } := by
  rw [mapBuffer, Prog.bind_assoc]
  refine wp_allocNothrow ?_ ?_
  · -- no memory: the entry gets the null address
    intro hample
    rw [Prog.bind_assoc]
    refine wp_storeEntry (g := { g with own := own }) hown (Ghost.spares_of_none hself tmp) ?_
    intro _
    rw [if_pos rfl, set_append_cons]
    refine hfalse _ _ ((A.store_list _).snoc_plain ?_) (Function.update_self ..) ?_
    · simp
    · intro ht
      rw [hample] at ht
      exact nomatch ht
  -- the buffer is in the entry before it is filled
  · intro a x h0 hp ha hk _
    have ha : own a = none := ha
    have hne : tmp ≠ a := by
      rintro rfl
      rw [hown] at ha
      exact nomatch ha
    have hlist : (Function.update own a (some x)) tmp
        = some (.parameters ⟨done ++ e :: rest⟩) := by
      rw [Function.update_of_ne hne]
      exact hown
    rw [Prog.bind_assoc]
    refine wp_storeEntry (g := { g with own := Function.update own a (some x) }) hlist
      (Ghost.spares_of_none hself tmp) ?_
    intro _
    rw [if_neg h0, set_append_cons, Prog.bind_assoc]
    have B := (A.snoc_buffer (x := x) (isPtr_of_needsBuffer he) h0 hp ha
      (by rw [hown]; exact Option.some_ne_none _)).store_list
        (some (.parameters ⟨done ++ { e with ulParameter := a } :: rest⟩))
    refine wp_ntReadVirtualMemory (by exact hclient) ?_
    intro r hr
    by_cases hst : ntSuccess r.1 = true
    · rw [if_pos hst, Prog.bind_assoc]
      refine wp_store (x := x) (y := .buffer r.2) ?_ hk
        (Ghost.spares_of_none (by exact hself) a) ?_
      · show Function.update (Function.update own a (some x)) tmp _ a = some x
        rw [Function.update_of_ne hne.symm, Function.update_self]
      · intro _
        refine htrue _ { e with ulParameter := a } (B.store_buffer ?_ (.buffer r.2)) ?_ ?_ ?_
        · rw [mem_buffers]
          refine ⟨_, List.mem_append_right _ (List.mem_singleton_self _),
            ?_, h0, hp⟩
          exact isPtr_of_needsBuffer (e := e) he
        · rw [Function.update_of_ne hne]
          exact Function.update_self ..
        · unfold MapsTo
          rw [if_pos he]
          refine ⟨a, r.2, rfl, h0, hp, Function.update_self .., ?_⟩
          intro y hy
          obtain ⟨hacc, hread⟩ := hr y hy
          exact ⟨hacc.symm.trans hst, hread hst⟩
        · intro c hct hc
          have hca : c ≠ a := by
            rintro rfl
            exact hc ha
          rw [Function.update_of_ne hca]
          show Function.update (Function.update own a (some x)) tmp _ c = own c
          rw [Function.update_of_ne hct, Function.update_of_ne hca]
    -- a read that failed leaves it there, for the cleanup to delete
    · rw [if_neg hst]
      refine hfalse _ _ B (Function.update_self ..) ?_
      intro _ y hy
      rw [Readable, ← (hr y hy).1]
      simpa using hst

/-- Why a mapping fails while memory lasts: a range cannot be read. -/
def Unreadable (g : Ghost b) (p : ServiceRoutineParameter) : Prop :=
  g.ample = true → ∀ x, g.client = some x →
    ∃ e ∈ p.parameters, needsBuffer e = true ∧ Readable b x.2 e = false

/-- The entries that a failed mapping frees are those it allocated for. -/
theorem freed_harmless {es : List ServiceParameterBlob} (h : Harmless ⟨done ++ e :: es⟩
    done.length) : freed b (done ++ e :: es) = freed b (done ++ [e]) := by
  have hdrop : (done ++ e :: es).drop (done.length + 1) = es := by
    rw [show done ++ e :: es = (done ++ [e]) ++ es by simp]
    rw [show done.length + 1 = (done ++ [e]).length by simp]
    exact List.drop_left
  have hnone : es.filter freesEntry = [] := by
    rw [List.filter_eq_nil_iff]
    intro e' he'
    have := h e' (by rw [hdrop]; exact he')
    rw [show freesEntry e' = false from this]
    exact Bool.false_ne_true
  rw [show done ++ e :: es = (done ++ [e]) ++ es by simp, freed, freed, List.filter_append,
    hnone, List.append_nil]

/-- The loop of `RtlMapPtrParameters`. -/
theorem wp_mapLoop {p : ServiceRoutineParameter} (hself : g.self = none)
    (hstage : g.stage = .worker) (hclient : ∀ x, g.client = some x → x.1 = hProcess)
    (hsrc : g.own src = some (.parameters p)) {f : LPVOID → Code b α}
    (hok : ∀ own q, Allocated g own tmp q.parameters → own tmp = some (.parameters q) →
      List.Forall₂ (MapsTo b g.client own) p.parameters q.parameters →
      wp (outline b) (f tmp) Q { g with own := own })
    (hno : ∀ own, (∀ a, g.own a ≠ none → own a = g.own a) → Unreadable g p →
      wp (outline b) (f 0) Q { g with own := own }) :
    ∀ k pre post done rest own, p.parameters = pre ++ post → post.length = k →
      rest.length = k → List.Forall₂ (MapsTo b g.client own) pre done →
      Allocated g own tmp done → own tmp = some (.parameters ⟨done ++ rest⟩) →
      wp (outline b) (mapLoop hProcess src tmp k done.length >>= f) Q
        { g with own := own } := by
  intro k
  induction k with
  | zero =>
      intro pre post done rest own hp hpost hrest hmaps A hown
      obtain rfl := List.length_eq_zero_iff.mp hpost
      obtain rfl := List.length_eq_zero_iff.mp hrest
      rw [List.append_nil] at hp hown
      refine hok own ⟨done⟩ A hown ?_
      rw [hp]
      exact hmaps
  | succ k ih =>
      intro pre post done rest own hp hpost hrest hmaps A hown
      obtain ⟨e, post, rfl, hpost'⟩ := exists_cons hpost
      obtain ⟨e₀, rest, rfl, hrest'⟩ := exists_cons hrest
      have hlen : pre.length = done.length := hmaps.length_eq
      have hentry : entry p done.length = e := by
        rw [← hlen]
        have := entry_append pre e post
        rwa [← hp] at this
      have hsrc' : own src = some (.parameters p) := by
        rw [A.frame src (by rw [hsrc]; exact Option.some_ne_none _), hsrc]
      -- the next iteration, once this entry is mapped to `e'`
      have hnext : ∀ own' e', Allocated g own' tmp (done ++ [e']) →
          own' tmp = some (.parameters ⟨done ++ e' :: rest⟩) → MapsTo b g.client own' e e' →
          (∀ a, a ≠ tmp → own a ≠ none → own' a = own a) →
          wp (outline b) (mapLoop hProcess src tmp k (done.length + 1) >>= f) Q
            { g with own := own' } := by
        intro own' e' A' hown' he hframe
        have := ih (pre ++ [e]) post (done ++ [e']) rest own' (by simpa using hp) hpost'
          hrest' ?_ A' (by simpa using hown')
        · rwa [List.length_append] at this
        · refine List.rel_append ?_ (.cons he .nil)
          refine hmaps.imp ?_
          intro e₁ e₂ h₁₂
          refine h₁₂.frame ?_
          intro a x hx hk
          refine hframe a ?_ (by rw [hx]; exact Option.some_ne_none x)
          rintro rfl
          rw [hown] at hx
          obtain rfl := Option.some.inj hx
          exact nomatch hk
      rw [mapLoop, Prog.bind_assoc, mapEntry_eq, Prog.bind_assoc]
      refine wp_loadParameters hsrc' ?_
      intro _
      rw [hentry, Prog.bind_assoc]
      refine wp_storeEntry (g := { g with own := own }) hown
        (Ghost.spares_of_none hself tmp) ?_
      intro _
      rw [set_append_cons]
      have B := A.store_list (some (.parameters ⟨done ++ e :: rest⟩))
      -- a pointer gets a buffer; anything else stays as it is
      by_cases he : needsBuffer e = true
      · rw [if_pos he]
        refine wp_mapBuffer hself hclient B (Function.update_self ..) he ?_ ?_
        · intro own' e' A' hown' hme hframe
          rw [if_pos rfl]
          refine hnext own' e' A' hown' hme ?_
          intro a hat ha
          have : Function.update own tmp (some (Block.parameters ⟨done ++ e :: rest⟩)) a
              = own a := Function.update_of_ne hat ..
          rw [hframe a hat (by rw [this]; exact ha), this]
        · -- the mapping is undone
          intro own' e' A' hown' hun
          rw [if_neg Bool.false_ne_true, Prog.bind_assoc]
          refine wp_op_bind.mpr ⟨⟨hstage, _, hown'⟩, ?_⟩
          rintro _ _ ⟨rfl, hharm⟩
          have hfreed := freed_harmless (b := b) (hharm _ hown')
          rw [Prog.bind_assoc]
          refine wp_rtlUnmapPtrParameters (g := { g with own := own' }) hself hown' ?_ ?_ ?_
          · rw [hfreed]
            exact (freed_sublist _).nodup A'.nodup
          · intro a ha
            rw [hfreed] at ha
            obtain ⟨h₁, -, h₃⟩ := A'.held a ((freed_sublist _).mem ha)
            exact ⟨h₁, h₃⟩
          · intro own'' hframe
            refine hno own'' ?_ ?_
            · intro a ha
              refine (hframe a ?_ ?_).trans (A'.frame a ha)
              · rintro rfl
                exact ha A'.list.2
              · intro hmem
                rw [hfreed] at hmem
                exact ha (A'.held a ((freed_sublist _).mem hmem)).2.1
            · intro hample x hx
              refine ⟨e, ?_, he, hun hample x hx⟩
              rw [hp]
              exact List.mem_append_right _ List.mem_cons_self
      · rw [if_neg he]
        show wp (outline b) ((if true = true then _ else _) >>= f) Q _
        rw [if_pos rfl]
        refine hnext _ e (B.snoc_plain ?_) (Function.update_self ..) ?_ ?_
        · rw [needsBuffer, Bool.and_eq_true, Bool.or_eq_true, not_and, not_or] at he
          rw [Bool.and_eq_false_iff]
          by_cases hptr : isPtr e.parameterMask = true
          · exact Or.inr (by simpa using (he hptr).2)
          · exact Or.inl (by simpa using hptr)
        · unfold MapsTo
          rw [if_neg he]
        · intro a hat _
          exact Function.update_of_ne hat ..

/-- **MAPPING** gives each pointer that is to be read a buffer, or leaves nothing
    behind. -/
theorem wp_rtlMapPtrParameters {p : ServiceRoutineParameter} (hself : g.self = none)
    (hstage : g.stage = .worker) (hclient : ∀ x, g.client = some x → x.1 = hProcess)
    (hsrc : g.own src = some (.parameters p)) {f : LPVOID → Code b α}
    (hok : ∀ own q tmp, Allocated g own tmp q.parameters →
      own tmp = some (.parameters q) →
      List.Forall₂ (MapsTo b g.client own) p.parameters q.parameters →
      wp (outline b) (f tmp) Q { g with own := own })
    (hno : ∀ own, (∀ a, g.own a ≠ none → own a = g.own a) → Unreadable g p →
      wp (outline b) (f 0) Q { g with own := own }) :
    wp (outline b) (rtlMapPtrParameters hProcess src >>= f) Q g := by
  rw [rtlMapPtrParameters, Prog.bind_assoc]
  refine wp_loadParameters hsrc ?_
  intro _
  rw [Prog.bind_assoc]
  refine wp_alloc ?_
  intro tmp x h0 _ ha hk hn
  obtain ⟨rest, rfl⟩ : ∃ rest, x = .parameters rest := by
    cases x with
    | parameters rest => exact ⟨rest, rfl⟩
    | _ => exact nomatch hk
  refine wp_mapLoop hself hstage hclient hsrc (fun own q => hok own q tmp) hno
    p.dwParameters [] p.parameters [] rest.parameters _ rfl rfl hn .nil ?_ ?_
  · refine ⟨⟨h0, ha⟩, List.nodup_nil, ?_, ?_⟩
    · intro a hmem
      exact nomatch hmem
    · intro a hne
      refine Function.update_of_ne ?_ ..
      rintro rfl
      exact hne ha
  · exact Function.update_self ..

end Map

/-! ## Writing back -/

/-- The entry is written back. -/
def writesEntry (e : ServiceParameterBlob) : Bool :=
  hasBits e.parameterMask 0b01000000 && e.ulParameter != 0

/-- The content of a buffer the thread holds. -/
def bufferAt (own : Blocks) (a : LPVOID) : List BYTE :=
  match own a with
  | some (.buffer bytes) => bytes
  | _ => []

/-- The write for an entry of the client and its mapped entry. -/
def entryWrite (b : Build) (own : Blocks) (e m : ServiceParameterBlob) :
    Nat × List BYTE :=
  ((b.toPointer e.ulParameter).toNat,
    (bufferAt own (b.toPointer m.ulParameter)).take e.dwMaxBufferSize.toNat)

/-- The writes for a list and its mapping, in order. -/
def syncWrites (b : Build) (own : Blocks) :
    List ServiceParameterBlob → List ServiceParameterBlob → List (Nat × List BYTE)
  | e :: es, m :: ms =>
      if writesEntry e then entryWrite b own e m :: syncWrites b own es ms
      else syncWrites b own es ms
  | _, _ => []

/-- The memory of the client after some writes. -/
def written (x : Option (HANDLE × VirtualMemory)) (ws : List (Nat × List BYTE)) :
    Option (HANDLE × VirtualMemory) :=
  x.map fun y => (y.1, { y.2 with byte := overlayAll y.2.byte ws })

@[simp] theorem written_nil (x : Option (HANDLE × VirtualMemory)) : written x [] = x := by
  cases x <;> rfl

theorem written_eq_some {x : Option (HANDLE × VirtualMemory)} {ws : List (Nat × List BYTE)}
    {y : HANDLE × VirtualMemory} (h : written x ws = some y) :
    ∃ z, x = some z ∧ y.1 = z.1 ∧ y.2.writable = z.2.writable := by
  obtain ⟨z, hz, rfl⟩ := Option.map_eq_some_iff.mp h
  exact ⟨z, hz, rfl, rfl⟩

/-- The range of a write can be written. -/
def Writable (vm : VirtualMemory) (w : Nat × List BYTE) : Bool :=
  Lpc.accessible vm.writable w.1 w.2.length

/-- The loop of `RtlSyncMappedPtrParameters`. -/
theorem wp_syncLoop {hProcess : HANDLE} {src tmp : LPVOID} {own : Blocks}
    {f : Bool → Code b α} :
    ∀ k pre post preM postM (g : Ghost b), g.own = own →
      (∀ x, g.client = some x → x.1 = hProcess) →
      own src = some (.parameters ⟨pre ++ post⟩) → own tmp = some (.parameters ⟨preM ++ postM⟩) →
      pre.length = preM.length → post.length = k →
      List.Forall₂ (fun e m => writesEntry e = true →
        ∃ bytes, own (b.toPointer m.ulParameter) = some (.buffer bytes)) post postM →
      ((∀ x, g.client = some x → ∀ w ∈ syncWrites b own post postM, Writable x.2 w = true) →
        wp (outline b) (f true) Q
          { g with client := written g.client (syncWrites b own post postM) }) →
      (∀ ws, ws <+: syncWrites b own post postM →
        (∀ x, g.client = some x → ws = (syncWrites b own post postM).takeWhile (Writable x.2)
          ∧ ∃ w ∈ syncWrites b own post postM, Writable x.2 w = false) →
        wp (outline b) (f false) Q { g with client := written g.client ws }) →
      wp (outline b) (syncLoop hProcess src tmp k pre.length >>= f) Q g := by
  intro k
  induction k with
  | zero =>
      intro pre post preM postM g hown hclient hsrc htmp hlen hpost hbuf hok hno
      obtain rfl := List.length_eq_zero_iff.mp hpost
      have hempty : syncWrites b own [] postM = [] := rfl
      rw [hempty, written_nil] at hok
      refine hok ?_
      intro x _ w hw
      exact nomatch hw
  | succ k ih =>
      intro pre post preM postM g hown hclient hsrc htmp hlen hpost hbuf hok hno
      obtain ⟨e, post, rfl, hpost'⟩ := exists_cons hpost
      obtain ⟨m, postM, hem, hbuf', rfl⟩ := List.forall₂_cons_left_iff.mp hbuf
      -- this entry goes to those the loop has behind it
      have hsrc' : own src = some (.parameters ⟨(pre ++ [e]) ++ post⟩) := by
        rw [List.append_assoc]
        exact hsrc
      have htmp' : own tmp = some (.parameters ⟨(preM ++ [m]) ++ postM⟩) := by
        rw [List.append_assoc]
        exact htmp
      have hlen' : (pre ++ [e]).length = (preM ++ [m]).length := by
        rw [List.length_append, List.length_append, hlen]
        rfl
      have hnext : pre.length + 1 = (pre ++ [e]).length := by simp
      rw [syncLoop, Prog.bind_assoc]
      refine wp_loadParameters (by rw [hown]; exact hsrc) ?_
      intro _
      rw [entry_append]
      by_cases he : writesEntry e = true
      · have hws : syncWrites b own (e :: post) (m :: postM)
            = entryWrite b own e m :: syncWrites b own post postM := by
          rw [syncWrites, if_pos he]
        rw [hws] at hok hno
        obtain ⟨bytes, hbytes⟩ := hem he
        show wp _ ((if writesEntry e = true then _ else _) >>= f) Q g
        rw [if_pos he, Prog.bind_assoc]
        refine wp_loadParameters (by rw [hown]; exact htmp) ?_
        intro _
        rw [hlen, entry_append, Prog.bind_assoc]
        refine wp_loadBuffer (by rw [hown]; exact hbytes) ?_
        intro _
        have hwrite : entryWrite b own e m = ((b.toPointer e.ulParameter).toNat,
            bytes.take e.dwMaxBufferSize.toNat) := by
          rw [entryWrite, bufferAt, hbytes]
        rw [Prog.bind_assoc]
        refine wp_op_bind.mpr ⟨hclient, ?_⟩
        rintro status _ ⟨hstatus, rfl⟩
        have hacc : ∀ x, g.client = some x →
            ntSuccess status = Writable x.2 (entryWrite b own e m) := by
          intro x hx
          rw [hwrite]
          exact hstatus x hx
        -- the loop stops at the first write that is refused
        by_cases hst : ntSuccess status = true
        · have hclient' : clientAfter (b := b) g.client (.ntWriteVirtualMemory hProcess
              (b.toPointer e.ulParameter).toNat (bytes.take e.dwMaxBufferSize.toNat)) status
              = written g.client [entryWrite b own e m] := by
            rw [clientAfter, if_pos hst, hwrite]
            rfl
          rw [if_pos hst, next_write, hclient', ← hlen, hnext]
          refine ih (pre ++ [e]) post (preM ++ [m]) postM _ hown ?_ hsrc' htmp' hlen' hpost'
            hbuf' ?_ ?_
          · intro x hx
            obtain ⟨z, hz, h₁, -⟩ := written_eq_some hx
            rw [h₁]
            exact hclient z hz
          · intro hall
            have hsplit : ∀ ws, written (written g.client [entryWrite b own e m]) ws
                = written g.client (entryWrite b own e m :: ws) := by
              intro ws
              cases g.client <;> rfl
            rw [hsplit]
            refine hok ?_
            intro x hx w hw
            rcases List.mem_cons.mp hw with rfl | hw
            · rw [← hacc x hx, hst]
            · exact hall (x.1, { x.2 with byte := overlayAll x.2.byte _ })
                (by rw [hx]; rfl) w hw
          · intro ws hpre hbad
            have hsplit : written (written g.client [entryWrite b own e m]) ws
                = written g.client (entryWrite b own e m :: ws) := by
              cases g.client <;> rfl
            rw [hsplit]
            refine hno _ (List.cons_prefix_cons.mpr ⟨rfl, hpre⟩) ?_
            intro x hx
            obtain ⟨hws, w, hw, hbad⟩ := hbad (x.1, { x.2 with byte := overlayAll x.2.byte _ })
              (by rw [hx]; rfl)
            refine ⟨?_, w, List.mem_cons_of_mem _ hw, hbad⟩
            rw [List.takeWhile_cons_of_pos (by rw [← hacc x hx, hst])]
            exact congrArg _ hws
        · have hclient' : clientAfter (b := b) g.client (.ntWriteVirtualMemory hProcess
              (b.toPointer e.ulParameter).toNat (bytes.take e.dwMaxBufferSize.toNat)) status
              = written g.client [] := by
            rw [clientAfter, if_neg hst, written_nil]
          rw [if_neg hst, next_write, hclient']
          refine hno [] (List.nil_prefix) ?_
          intro x hx
          have hbad : Writable x.2 (entryWrite b own e m) = false := by
            rw [← hacc x hx]
            simpa using hst
          exact ⟨(List.takeWhile_cons_of_neg (by rw [hbad]; exact Bool.false_ne_true)).symm,
            _, List.mem_cons_self, hbad⟩
      -- a value is not written back, and neither is a null pointer
      · have hws : syncWrites b own (e :: post) (m :: postM) = syncWrites b own post postM := by
          rw [syncWrites, if_neg he]
        rw [hws] at hok hno
        show wp _ ((if writesEntry e = true then _ else _) >>= f) Q g
        rw [if_neg he, hnext]
        exact ih (pre ++ [e]) post (preM ++ [m]) postM g hown hclient hsrc' htmp' hlen' hpost'
          hbuf' hok hno

/-- **WRITING BACK** performs the writes in order until one fails. -/
theorem wp_rtlSyncMappedPtrParameters {hProcess : HANDLE} {src tmp : LPVOID}
    {p q : ServiceRoutineParameter} (hclient : ∀ x, g.client = some x → x.1 = hProcess)
    (hsrc : g.own src = some (.parameters p)) (htmp : g.own tmp = some (.parameters q))
    (hbuf : List.Forall₂ (fun e m => writesEntry e = true →
      ∃ bytes, g.own (b.toPointer m.ulParameter) = some (.buffer bytes))
        p.parameters q.parameters)
    {f : Bool → Code b α}
    (hok : (∀ x, g.client = some x →
        ∀ w ∈ syncWrites b g.own p.parameters q.parameters, Writable x.2 w = true) →
      wp (outline b) (f true) Q { g with
        client := written g.client (syncWrites b g.own p.parameters q.parameters) })
    (hno : ∀ ws, ws <+: syncWrites b g.own p.parameters q.parameters →
      (∀ x, g.client = some x →
        ws = (syncWrites b g.own p.parameters q.parameters).takeWhile (Writable x.2)
          ∧ ∃ w ∈ syncWrites b g.own p.parameters q.parameters, Writable x.2 w = false) →
      wp (outline b) (f false) Q { g with client := written g.client ws }) :
    wp (outline b) (rtlSyncMappedPtrParameters hProcess src tmp >>= f) Q g := by
  rw [rtlSyncMappedPtrParameters, Prog.bind_assoc]
  refine wp_loadParameters hsrc ?_
  intro _
  exact wp_syncLoop p.dwParameters [] p.parameters [] q.parameters g rfl hclient hsrc htmp
    rfl rfl hbuf hok hno

/-! ## The status of a reply -/

theorem wp_setStatus {lpService : LPVOID} {r : ServiceRoutine} {lm : Nat → BYTE} {n : Nat}
    (hr : g.own lpService = some (.routine r)) (hlm : g.own r.lm = some (.message lm n))
    (hs : g.Spares r.lm) {status : NTSTATUS} {f : Unit → Code b α}
    (hf : ∀ k, (∀ k', g.length = some k' → k = k') →
      wp (outline b) (f ()) Q (g.put r.lm (some (.message (writeStatus k status lm) n)))) :
    wp (outline b) (setStatus lpService status >>= f) Q g := by
  rw [setStatus, Prog.bind_assoc]
  refine wp_loadRoutine hr ?_
  intro _ _
  rw [Prog.bind_assoc]
  refine wp_op_bind.mpr ⟨trivial, ?_⟩
  rintro k _ ⟨rfl, hk⟩
  refine wp_modifyMessage hlm hs ?_
  intro _
  exact hf k hk

end ScOwnership
