import ServiceCall.FootprintProofs
import ServiceCall.RegisterProofs

/-! # Probes of the caller's list

    A call and a registration read the list of their caller after `IsBadReadPtr`
    found some bytes readable.  How many are probed is computed apart from how many
    are read, and in other types: the length of a call is an `ULONG`, the size of the
    captured block a `size_t`, and a registration counts a shorter header than the
    list has.

    So a call reads and writes what it probed and allocated exactly up to a count
    whose length fits a `ULONG` (`call_within`), and a registration may read the last
    bytes of a list unprobed (`register_reads`). -/

namespace ScProbe

open LinearMemory OpProg ByteReader ScParameter LpcMessage ScSystem ScServiceCall ScSequential
  ScFootprint

variable {b : Build}

/-! ## Lengths -/

/-- The bytes that `RtlCaptureParameters` allocates for `k` entries. -/
def captureLength (b : Build) (k : Nat) : Nat := sizeT b (parametersOffset + k * blobSize)

/-- The lengths are those of the list for all counts that fit. -/
theorem captureLength_eq {k : Nat} (h : parameterBufferSize k < 2 ^ 32) :
    captureLength b k = parameterBufferSize k := by
  have hsize : 2 ^ 32 ≤ 256 ^ b.pointerSize := by cases b <;> decide
  rw [captureLength, Nat.mul_comm, sizeT]
  exact Nat.mod_eq_of_lt (Nat.lt_of_lt_of_le h hsize)

/-- The length of a call is that of the list exactly for these counts. -/
theorem callLength_eq_iff {k : Nat} :
    callLength b k = parameterBufferSize k ↔ k < 2 ^ 28 := by
  constructor
  · intro h
    have hlt : callLength b k < 2 ^ 32 := Nat.mod_lt _ (by decide)
    rw [h, parameterBufferSize, parametersOffset, blobSize] at hlt
    omega
  · intro h
    refine callLength_eq ?_
    rw [parameterBufferSize, parametersOffset, blobSize]
    omega

/-! ## Calls -/

/-- What a call has probed and allocated so far. -/
structure Asked where
  /-- the lengths that were probed -/
  probed : List Nat
  /-- the lists, with the entries they were allocated for -/
  lists  : List (LPVOID × Nat)

namespace Asked

/-- One more event. -/
def add (H : Asked) : Sigma (Op.Ret b) → Asked
  | ⟨.api (.isBadReadPtr _ len), _⟩ => { H with probed := H.probed ++ [len] }
  | ⟨.heap (.alloc .parameters k), a⟩ => { H with lists := H.lists ++ [(a, k)] }
  | _ => H

/-- What the events of a run asked for. -/
def of (tr : Events b) : Asked := tr.foldl add ⟨[], []⟩

end Asked

/-- What an operation of a call has to keep to, for the list at `a` of `n` entries, when `H` was
    asked for: the probes are of the count and then of the whole list, what is read was probed,
    what is written into a list was allocated, and the connection data are the whole list. -/
def Keeps (b : Build) (n : Nat) (a : LPVOID) (H : Asked) : Op → Prop
  | .api (.isBadReadPtr x len) =>
      x = a.toNat ∧ H.probed ++ [len] <+: [4, parameterBufferSize n]
  | .api (.loadOwn x len) => ∃ l ∈ H.probed, Inside a.toNat (a.toNat + l) (x, len)
  | .heap (.store x (.parameters p)) =>
      ∃ k, (x, k) ∈ H.lists ∧ parameterBufferSize p.dwParameters ≤ captureLength b k
  | .kernel (.ntConnectPort _ info) => info.length = parameterBufferSize n
  | _ => True

/-- An entry lies in the list. -/
theorem inside_entry {a k i len : Nat} (off : Nat) (hi : i < k) (hlen : off + len ≤ blobSize) :
    Inside a (a + parameterBufferSize k) (entryAddress a i + off, len) := by
  refine ⟨Nat.le_trans (Nat.le_add_right ..) (Nat.le_add_right ..), ?_⟩
  show entryAddress a i + off + len ≤ _
  rw [entryAddress, parameterBufferSize]
  rw [blobSize] at *
  omega

section Keeping

variable {t k n : Nat} {a c : LPVOID} {H : Asked} {α : Type} {g : Local b}

/-- The outline of a call: one thread that keeps to what it asked for. -/
def keeping (b : Build) (t k n : Nat) (a : LPVOID) :
    Outline Op (Op.Ret b) (Local b × Asked) :=
  (solo t k).guarded (fun o _ H => Keeps b n a H o) Asked.add

/-- The operations that ask for nothing and need nothing that was asked for. -/
@[simp] def Plain : Op → Prop
  | .heap (.alloc .parameters _) => False
  | .heap (.store _ (.parameters _)) => False
  | .kernel (.ntConnectPort ..) => False
  | .api (.isBadReadPtr ..) => False
  | .api (.loadOwn ..) => False
  | _ => True

theorem keeps_of_plain {o : Op} (ho : Plain o) : Keeps b n a H o := by
  unfold Keeps
  split <;> trivial

theorem add_of_plain {o : Op} (ho : Plain o) (r : Op.Ret b o) : H.add ⟨o, r⟩ = H := by
  unfold Asked.add
  split
  · next heq =>
      cases heq
      exact ho.elim
  · next heq =>
      cases heq
      exact ho.elim
  · rfl

/-- A part of the code that asks for nothing keeps to what was asked for. -/
theorem keeping_part {S : Op → Prop} (hkeeps : ∀ {o}, S o → Keeps b n a H o)
    (hadd : ∀ {o} (r : Op.Ret b o), S o → H.add ⟨o, r⟩ = H) {β : Type} {p : Code b α}
    (hp : p.Only S) {f : α → Code b β} {Q : β → Local b × Asked → Prop}
    (hw : wp (solo t k) (p >>= Prog.ret) (fun v g' => wp (keeping b t k n a) (f v) Q (g', H)) g) :
    wp (keeping b t k n a) (p >>= f) Q (g, H) := by
  refine wp_guarded_bind (I := fun _ => True) ?_ ?_ ?_ hp trivial hw
  · exact fun ho _ _ => hkeeps ho
  · exact fun r ho _ _ => hadd r ho
  · exact fun _ _ _ _ => trivial

/-- So does the end of a call. -/
theorem keeping_end {p : Code b α} (hp : p.Only Plain) :
    wp (keeping b t k n a) p (fun _ _ => True) (g, H) := by
  have hw : wp (solo t k) p (fun _ _ => True) g :=
    wp_always (fun _ _ => trivial) (fun _ _ => trivial) g
  refine wp_guarded (I := fun _ => True) ?_ ?_ ?_ hp trivial hw fun _ _ _ _ => trivial
  · exact fun ho _ _ => keeps_of_plain ho
  · exact fun r ho _ _ => add_of_plain ho r
  · exact fun _ _ _ _ => trivial

/-- The reads of the `l` bytes at `a`. -/
@[simp] def Reads (a : LPVOID) (l : Nat) : Op → Prop
  | .api (.loadOwn x len) => Inside a.toNat (a.toNat + l) (x, len)
  | _ => False

theorem reads_readCount {l : Nat} (hl : 4 ≤ l) :
    (readCount (.own a) : Code b Nat).Only (Reads a l) :=
  ⟨⟨Nat.le_refl _, Nat.add_le_add_left hl _⟩, fun _ => trivial⟩

theorem reads_readMask {i : Nat} (hi : i < n) :
    (readMask (.own a) i : Code b BYTE).Only (Reads a (parameterBufferSize n)) :=
  ⟨inside_entry 0 hi (by decide), fun _ => trivial⟩

theorem reads_readEntry {i : Nat} (hi : i < n) :
    (readEntry (.own a) i : Code b ServiceParameterBlob).Only
      (Reads a (parameterBufferSize n)) :=
  ⟨inside_entry 0 hi (Nat.le_refl _), fun _ => trivial⟩

theorem reads_nullLoop (k i : Nat) (h : i + k = n) :
    (nullLoop (.own a) k i : Code b Bool).Only (Reads a (parameterBufferSize n)) := by
  induction k generalizing i with
  | zero => trivial
  | succ k ih =>
      refine (reads_readMask (by omega)).bind fun cbMask => ?_
      split
      · refine (reads_readEntry (by omega)).bind fun e => ?_
        split
        · trivial
        · exact ih (i + 1) (by omega)
      · exact ih (i + 1) (by omega)

/-- Reads keep to bytes that were probed. -/
theorem keeping_reads {l : Nat} (hl : l ∈ H.probed) {β : Type} {p : Code b α}
    (hp : p.Only (Reads a l)) {f : α → Code b β} {Q : β → Local b × Asked → Prop}
    (hw : wp (solo t k) (p >>= Prog.ret) (fun v g' => wp (keeping b t k n a) (f v) Q (g', H)) g) :
    wp (keeping b t k n a) (p >>= f) Q (g, H) := by
  refine keeping_part (S := Reads a l) ?_ ?_ hp hw
  · intro o ho
    cases o with
    | api o =>
        cases o with
        | loadOwn x len => exact ⟨_, hl, ho⟩
        | _ => exact ho.elim
    | _ => exact ho.elim
  · intro o r ho
    cases o with
    | api o =>
        cases o with
        | loadOwn x len => rfl
        | _ => exact ho.elim
    | _ => exact ho.elim

/-- So does reading the count. -/
theorem keeping_readCount {l : Nat} (hl : l ∈ H.probed) (h4 : 4 ≤ l)
    (hcount : (readDword (g.lpc.memory g.lpc.self).byte a.toNat).toNat = n) {β : Type}
    {f : Nat → Code b β} {Q : β → Local b × Asked → Prop}
    (hf : wp (keeping b t k n a) (f n) Q (g, H)) :
    wp (keeping b t k n a) (readCount (.own a) >>= f) Q (g, H) := by
  refine keeping_reads hl (reads_readCount h4) ?_
  refine solo_readCount (listBytes_own ..) ?_
  rw [hcount]
  exact hf

theorem four_le_size : 4 ≤ parameterBufferSize n :=
  Nat.le_trans (by decide : 4 ≤ parametersOffset) (Nat.le_add_right ..)

/-- A probe is asked for. -/
theorem keeping_isBadReadPtr {len : Nat} {β : Type} {f : Bool → Code b β}
    {Q : β → Local b × Asked → Prop}
    (hlen : H.probed ++ [len] <+: [4, parameterBufferSize n])
    (hf : ∀ v, wp (keeping b t k n a) (f v) Q (g, { H with probed := H.probed ++ [len] })) :
    wp (keeping b t k n a) (isBadReadPtr a len >>= f) Q (g, H) := by
  refine ⟨⟨trivial, rfl, hlen⟩, ?_⟩
  rintro v ⟨g', H'⟩ ⟨⟨hc, hk, hL⟩, rfl⟩
  rw [show g' = g from Local.eq_of hc hk hL]
  exact hf v

/-- The loop of `RtlCaptureParameters` keeps to the list it copies and to the block it
    allocated. -/
theorem keeping_captureLoop {β : Type} {f : LPVOID → Code b β}
    {Q : β → Local b × Asked → Prop} (hprobed : parameterBufferSize n ∈ H.probed)
    (hlist : (c, n) ∈ H.lists) (hroom : captureLength b n = parameterBufferSize n)
    (hf : ∀ v g, wp (keeping b t k n a) (f v) Q (g, H)) :
    ∀ j i (g : Local b) es, g.cells c = some (.parameters ⟨es⟩) → es.length = i → i + j = n →
      wp (keeping b t k n a) (captureLoop (.own a) c j i >>= f) Q (g, H) := by
  intro j
  induction j with
  | zero =>
      intro i g es _ _ _
      exact hf c g
  | succ j ih =>
      intro i g es hcells hes hij
      rw [captureLoop, Prog.bind_assoc]
      refine keeping_reads hprobed (reads_readMask (by omega)) ?_
      refine solo_quiet.bind (quiet_of_fetches (fetches_readMask ..)) fun cbMask => ?_
      show wp (keeping b t k n a) _ Q (g, H)
      split
      · rw [Prog.bind_assoc]
        refine keeping_part keeps_of_plain (fun r ho => add_of_plain ho r) (by simp) ?_
        exact solo_any fun _ g' => hf 0 g'
      · rw [Prog.bind_assoc]
        refine keeping_reads hprobed (reads_readEntry (by omega)) ?_
        refine solo_quiet.bind (quiet_of_fetches (fetches_readEntry ..)) fun e => ?_
        show wp (keeping b t k n a) _ Q (g, H)
        rw [Prog.bind_assoc]
        refine keeping_part keeps_of_plain (fun r ho => add_of_plain ho r)
          (by simp [loadParameters]) ?_
        refine solo_loadParameters hcells fun _ => ?_
        show wp (keeping b t k n a) _ Q (g, H)
        rw [Prog.bind_assoc]
        refine ⟨⟨trivial, n, hlist, ?_⟩, ?_⟩
        · show parameterBufferSize (es ++ [e]).length ≤ _
          rw [hroom, List.length_append, List.length_singleton, parameterBufferSize,
            parameterBufferSize, blobSize]
          omega
        · rintro r ⟨g', H'⟩ ⟨⟨⟨-, hstore⟩, -, -⟩, rfl⟩
          refine ih (i + 1) g' (es ++ [e]) ?_ (by simp [hes]) (by omega)
          rw [hstore _ hcells rfl, Function.update_self]

/-- `RtlCaptureParameters` does, where the size of the block does not wrap around. -/
theorem keeping_rtlCaptureParameters {β : Type} {f : LPVOID → Code b β}
    {Q : β → Local b × Asked → Prop} (hprobed : parameterBufferSize n ∈ H.probed)
    (hroom : captureLength b n = parameterBufferSize n)
    (hcount : (readDword (g.lpc.memory g.lpc.self).byte a.toNat).toNat = n)
    (hf : ∀ v g c, wp (keeping b t k n a) (f v) Q (g, { H with lists := H.lists ++ [(c, n)] })) :
    wp (keeping b t k n a) (rtlCaptureParameters (.own a) >>= f) Q (g, H) := by
  rw [rtlCaptureParameters, Prog.bind_assoc]
  refine keeping_readCount hprobed four_le_size hcount ?_
  rw [Prog.bind_assoc]
  refine ⟨⟨trivial, trivial⟩, ?_⟩
  rintro c ⟨g', H'⟩ ⟨⟨⟨x, hnew, hcells⟩, -, -⟩, rfl⟩
  have hlist : (c, n) ∈ H.lists ++ [(c, n)] := List.mem_append_right _ (List.mem_singleton_self _)
  refine ⟨⟨trivial, n, hlist, ?_⟩, ?_⟩
  · rw [hroom, parameterBufferSize, parameterBufferSize]
    exact Nat.add_le_add_left (Nat.mul_le_mul_left _ (Nat.zero_le _)) _
  · rintro r ⟨g'', H''⟩ ⟨⟨⟨-, hstore⟩, -, -⟩, rfl⟩
    refine keeping_captureLoop (H := { H with lists := H.lists ++ [(c, n)] }) hprobed hlist hroom
      (fun v g => hf v g c) n 0 g'' [] ?_ rfl (Nat.zero_add n)
    have hx : g'.cells c = some x := by rw [hcells, Function.update_self]
    rw [hstore x hx hnew.kind, Function.update_self]

/-- The operations that leave the blocks alone as well. -/
@[simp] def Aside : Op → Prop
  | .heap _ => False
  | .setCloseEvent _ => False
  | .kernel (.ntConnectPort ..) => False
  | .api (.isBadReadPtr ..) => False
  | .api (.loadOwn ..) => False
  | _ => True

theorem plain_of_aside {o : Op} (ho : Aside o) : Plain o := by
  unfold Plain
  split <;> trivial

/-- They keep a block where it is. -/
theorem keeping_aside {lm : LPVOID} {x : Block} (hlm : g.cells lm = some x) {β : Type}
    {p : Code b α} (hp : p.Only Aside) {f : α → Code b β} {Q : β → Local b × Asked → Prop}
    (hf : ∀ v g, g.cells lm = some x → wp (keeping b t k n a) (f v) Q (g, H)) :
    wp (keeping b t k n a) (p >>= f) Q (g, H) := by
  refine keeping_part (fun ho => keeps_of_plain (plain_of_aside ho))
    (fun r ho => add_of_plain (plain_of_aside ho) r) hp ?_
  rw [Prog.bind_pure]
  refine wp_invariant (I := fun g => g.cells lm = some x) hp (fun _ _ _ _ => trivial) ?_ hlm hf
  rintro o g r g' ho hg ⟨hc, -, -⟩
  cases o with
  | heap o => exact ho.elim
  | setCloseEvent d => exact ho.elim
  | _ => rw [show g'.cells = g.cells from hc, hg]

section Message

variable {lm : LPVOID} {m : Nat → BYTE} {size : Nat} {β : Type} {Q : β → Local b × Asked → Prop}

theorem keeping_loadMessage (hlm : g.cells lm = some (.message m size))
    {f : (Nat → BYTE) → Code b β} (hf : wp (keeping b t k n a) (f m) Q (g, H)) :
    wp (keeping b t k n a) (loadMessage lm >>= f) Q (g, H) :=
  keeping_part keeps_of_plain (fun r ho => add_of_plain ho r) (by simp [loadMessage])
    (solo_loadMessage hlm fun _ => hf)

/-- What is written into a message is no list. -/
theorem keeping_modifyMessage (hlm : g.cells lm = some (.message m size))
    {u : (Nat → BYTE) → Nat → BYTE} {f : Unit → Code b β}
    (hf : ∀ g, g.cells lm = some (.message (u m) size) →
      wp (keeping b t k n a) (f ()) Q (g, H)) :
    wp (keeping b t k n a) (modifyMessage lm u >>= f) Q (g, H) := by
  rw [modifyMessage, Prog.bind_assoc]
  refine keeping_part (p := load lm .message) keeps_of_plain (fun r ho => add_of_plain ho r)
    (by simp) ?_
  refine solo_load hlm fun _ => ?_
  refine keeping_part (p := store lm (.message (u m) size)) keeps_of_plain
    (fun r ho => add_of_plain ho r) (by simp) ?_
  refine solo_store hlm (by rfl) ?_
  exact hf _ (Local.put_cells_self ..)

theorem keeping_receiveInto (hlm : g.cells lm = some (.message m size))
    {x : NTSTATUS × Option (Message b)} {f : NTSTATUS → Code b β}
    (hf : ∀ g m, g.cells lm = some (.message m size) →
      wp (keeping b t k n a) (f x.1) Q (g, H)) :
    wp (keeping b t k n a) (receiveInto lm x >>= f) Q (g, H) := by
  obtain ⟨st, received⟩ := x
  cases received with
  | none => exact hf g m hlm
  | some m' =>
      show wp _ ((modifyMessage lm (deliver · m') >>= fun _ => pure st) >>= f) Q (g, H)
      rw [Prog.bind_assoc]
      exact keeping_modifyMessage hlm fun g hg => hf g _ hg

theorem keeping_requestEnd (hlm : g.cells lm = some (.message m size)) (h : HANDLE)
    (status : NTSTATUS) :
    wp (keeping b t k n a) (requestEnd h lm status) (fun _ _ => True) (g, H) :=
  keeping_modifyMessage hlm fun _ _ => keeping_end (by simp [loadMessage])

end Message

theorem keeping_serviceRequest (h : HANDLE) (len : Nat) (lpServiceStatus : LPVOID) :
    wp (keeping b t k n a) (serviceRequest h len lpServiceStatus) (fun _ _ => True) (g, H) := by
  refine ⟨⟨trivial, trivial⟩, ?_⟩
  rintro lm ⟨g', H'⟩ ⟨⟨⟨x, hnew, hcells⟩, -, -⟩, rfl⟩
  obtain ⟨m, size, rfl⟩ : ∃ m size, x = .message m size := by
    cases hx : x with
    | message m size => exact ⟨m, size, rfl⟩
    | _ => cases (hx ▸ hnew.kind)
  have hlm : g'.cells lm = some (.message m size) := by rw [hcells, Function.update_self]
  refine keeping_modifyMessage hlm fun g hlm => keeping_modifyMessage hlm fun g hlm => ?_
  refine keeping_loadMessage hlm ?_
  refine keeping_aside hlm (p := ntRequestWaitReplyPort ..) (by simp) fun x g hlm => ?_
  refine keeping_receiveInto hlm fun g m hlm => ?_
  split
  · refine keeping_aside hlm (p := ensureMessageLength) ?_ fun _ g hlm => ?_
    · refine Prog.only_op_bind.mpr ⟨trivial, fun n => ?_⟩
      split <;> simp
    rw [storeStatus, Prog.bind_assoc]
    refine keeping_aside hlm (only_orElse (by simp) (by simp)) fun no g hlm => ?_
    split
    · exact keeping_requestEnd hlm ..
    · rw [Prog.bind_assoc]
      refine keeping_aside hlm (p := systemLpcMessageLength) (by simp) fun len g hlm => ?_
      rw [Prog.bind_assoc]
      refine keeping_loadMessage hlm ?_
      exact keeping_aside hlm (p := storeOwn ..) (by simp) fun _ g hlm => keeping_requestEnd hlm ..
  · exact keeping_requestEnd hlm ..

/-- **A CALL KEEPS** to what it asked for, where its length does not wrap around. -/
theorem keeping_scServiceCallW {lpServiceStatus : LPVOID} {name : Option (List WCHAR)}
    {w : World b} (hcount : (readDword (w.lpc.memory w.lpc.self).byte a.toNat).toNat = n)
    (hlength : callLength b n = parameterBufferSize n)
    (hroom : captureLength b n = parameterBufferSize n) :
    wp (keeping b t k n a) (scServiceCallW name a lpServiceStatus) (fun _ _ => True)
      (Local.of w [], ⟨[], []⟩) := by
  have hret : ∀ {g : Local b} {H : Asked} (status : NTSTATUS),
      wp (keeping b t k n a) (.ret status : Code b NTSTATUS) (fun _ _ => True) (g, H) :=
    fun _ => trivial
  rw [scServiceCallW, callProbe, orElse, Prog.bind_assoc]
  refine keeping_isBadReadPtr (by simp) fun v => ?_
  cases v with
  | true => exact hret _
  | false =>
  rw [if_neg Bool.false_ne_true, orElse, Prog.bind_assoc, Prog.bind_assoc]
  show wp (keeping b t k n a) _ _ (Local.of w [], ⟨[4], []⟩)
  refine keeping_readCount (g := Local.of w []) (List.mem_singleton_self 4) (Nat.le_refl 4)
    hcount ?_
  rw [hlength]
  refine keeping_isBadReadPtr (List.prefix_refl _) fun v => ?_
  cases v with
  | true => exact hret _
  | false =>
  cases name with
  | none => exact hret _
  | some name =>
  have hprobed : parameterBufferSize n ∈ [4, parameterBufferSize n] := by simp
  show wp (keeping b t k n a) _ _ (Local.of w [], ⟨[4, parameterBufferSize n], []⟩)
  refine keeping_readCount (g := Local.of w []) hprobed four_le_size hcount ?_
  refine keeping_part keeps_of_plain (fun r ho => add_of_plain ho r) (by simp) ?_
  refine solo_quiet.bind (by simp) fun us => ?_
  refine keeping_reads hprobed (reads_nullLoop n 0 (Nat.zero_add n)) ?_
  refine solo_quiet.bind (quiet_of_fetches (fetches_nullLoop ..)) fun ok => ?_
  show wp (keeping b t k n a) _ _ (_, _)
  split
  · refine keeping_rtlCaptureParameters hprobed hroom hcount fun v g c => ?_
    split
    · exact keeping_end (by simp)
    · refine keeping_part keeps_of_plain (fun r ho => add_of_plain ho r) (by simp) ?_
      refine solo_any fun _ g => ?_
      rw [hlength]
      refine keeping_reads hprobed (p := loadOwn ..)
        ⟨⟨Nat.le_refl _, Nat.le_refl _⟩, fun _ => trivial⟩ ?_
      refine solo_loadOwn ?_
      refine ⟨⟨trivial, slice_length ..⟩, ?_⟩
      rintro x ⟨g', H'⟩ ⟨-, rfl⟩
      refine keeping_part (p := rtlFreeUnicodeString us) keeps_of_plain
        (fun r ho => add_of_plain ho r) (by simp) (solo_any fun _ g => ?_)
      split
      · exact keeping_serviceRequest ..
      · split
        · trivial
        · split <;> trivial
  · exact keeping_end (by simp)

/-- A call comes to its second probe. -/
theorem call_probes (t k : Nat) (lpServiceStatus : LPVOID) (name : Option (List WCHAR))
    {w : World b} (hread : Lpc.accessible w.lpc.pages a.toNat 4 = true)
    (hcount : (callerList w a).dwParameters = n) :
    ∃ tr, (scServiceCallW name a lpServiceStatus : Code b NTSTATUS).Comes (Alone t k) w tr
      (.api (.isBadReadPtr a.toNat (callLength b n))) w ∧ (Asked.of tr).probed = [4] := by
  have hprobe : Alone t k (.api (.isBadReadPtr a.toNat 4)) w false w :=
    ⟨.ok, none, by simp [ScSystem.exec, Api.exec, ← hread, Lpc.pages]⟩
  have hload : Alone t k (.api (.loadOwn a.toNat 4)) w
      (slice (w.lpc.memory w.lpc.self).byte a.toNat 4) w := by
    have hread : Lpc.accessible (w.lpc.memory w.lpc.self).readable a.toNat 4 = true := hread
    exact ⟨.ok, none, by simp [ScSystem.exec, Api.exec, hread]⟩
  have hn : (readDword (view (slice (w.lpc.memory w.lpc.self).byte a.toNat 4)) 0).toNat = n := by
    rw [readDword_view, ← hcount, callerList, readParameters_dwParameters]
  refine ⟨[⟨.api (.isBadReadPtr a.toNat 4), false⟩, ⟨.api (.loadOwn a.toNat 4),
    slice (w.lpc.memory w.lpc.self).byte a.toNat 4⟩], ?_, rfl⟩
  rw [scServiceCallW, callProbe, orElse, Prog.bind_assoc, ← hn]
  exact .call hprobe (.call hload (.here ..))

end Keeping

/-- Code that keeps to what it asked for does so where a run comes to an operation. -/
theorem keeping_comes {α : Type} {t k n : Nat} {a : LPVOID} {p : Code b α} {w w' : World b}
    {tr : Events b} {o : Op}
    (hp : wp (keeping b t k n a) p (fun _ _ => True) (Local.of w [], ⟨[], []⟩))
    (h : p.Comes (Alone t k) w tr o w') : Keeps b n a (Asked.of tr) o := by
  obtain ⟨⟨g, H⟩, ⟨-, hkeeps⟩, -, rfl⟩ := comes_of_wp
    (F := fun w tr (x : Local b × Asked) => x.1 = Local.of w tr ∧ x.2 = Asked.of tr)
    (fun hx hpre hr => guarded_step (R := Alone t k) (F := fun w tr g => g = Local.of w tr)
      (fun hg _ hx => solo_event hg hx) hx hpre hr) [] hp ⟨rfl, rfl⟩ h
  exact hkeeps

/-- A process with a list of `n` entries at address 4096. -/
def counted (b : Build) (n : DWORD) : World b :=
  let w := World.initialized b
  { w with lpc := { w.lpc with memory := fun _ =>
      ⟨overlay (fun _ => 0) 4096 (toLE 4 n.toNat), fun _ => true, fun _ => true⟩ } }

theorem counted_read (b : Build) (n : DWORD) :
    Lpc.accessible (counted b n).lpc.pages (4096 : LPVOID).toNat 4 = true := by rfl

theorem counted_count (b : Build) (n : DWORD) :
    (callerList (counted b n) 4096).dwParameters = n.toNat := by
  have hn : n.toNat % 256 ^ 4 = n.toNat := Nat.mod_eq_of_lt n.toNat_lt
  rw [callerList, readParameters_count]
  show fromLE (slice (overlay (fun _ => 0) 4096 (toLE 4 n.toNat)) 4096 4) = n.toNat
  rw [slice_overlay_toLE, fromLE_toLE, hn]

/-- **A CALL KEEPS TO WHAT IT PROBED AND ALLOCATED** in every run, with the whole length of its
    list as the bytes it probes and connects with, exactly for the counts whose lists are
    shorter than `2 ^ 32` bytes. -/
theorem call_within (b : Build) (n : DWORD) :
    (∀ {t k : Nat} {w w' : World b} {tr : Events b} {o : Op}
        {lpParameters lpServiceStatus : LPVOID} {name : Option (List WCHAR)},
      (callerList w lpParameters).dwParameters = n.toNat →
      (scServiceCallW name lpParameters lpServiceStatus : Code b NTSTATUS).Comes (Alone t k) w tr
        o w' →
      Keeps b n.toNat lpParameters (Asked.of tr) o)
      ↔ n.toNat < 2 ^ 28 := by
  constructor
  · intro h
    obtain ⟨tr, hcomes, hprobed⟩ := call_probes 0 1 0 none (counted_read b n) (counted_count b n)
    obtain ⟨-, hprefix⟩ := h (counted_count b n) hcomes
    rw [hprobed] at hprefix
    obtain ⟨rest, hrest⟩ := hprefix
    simp only [List.cons_append, List.nil_append, List.cons.injEq] at hrest
    exact callLength_eq_iff.mp hrest.2.1
  · intro h t k w w' tr o lpParameters lpServiceStatus name hn hcomes
    have hlength := (callLength_eq_iff (b := b)).mpr h
    have hlt : parameterBufferSize n.toNat < 2 ^ 32 := by
      rw [parameterBufferSize, parametersOffset, blobSize]
      omega
    rw [callerList, readParameters_dwParameters] at hn
    exact keeping_comes (keeping_scServiceCallW hn hlength (captureLength_eq hlt)) hcomes

/-- A call with a list of `2 ^ 28` entries probes eight bytes. -/
theorem call_wraps : ¬ ∀ (b : Build) (n : DWORD) {t k : Nat} {w w' : World b} {tr : Events b}
    {o : Op} {lpParameters lpServiceStatus : LPVOID} {name : Option (List WCHAR)},
    (callerList w lpParameters).dwParameters = n.toNat →
    (scServiceCallW name lpParameters lpServiceStatus : Code b NTSTATUS).Comes (Alone t k) w tr
      o w' → Keeps b n.toNat lpParameters (Asked.of tr) o := by
  intro h
  obtain ⟨tr, hcomes, hprobed⟩ := call_probes 0 1 0 (some []) (counted_read .x64 0x10000000)
    (counted_count .x64 0x10000000)
  obtain ⟨-, hprefix⟩ := h _ _ (counted_count .x64 0x10000000) hcomes
  rw [hprobed] at hprefix
  exact absurd hprefix (by decide +kernel)

/-! ## Registrations -/

section Runs

variable {t n : Nat} {w w' : World b} {tr : Events b}

/-- `IsBadReadPtr` looks at the layout, and changes nothing. -/
theorem isBadReadPtr_run {a : LPVOID} {k : Nat} {v : Bool}
    (h : (isBadReadPtr a k : Code b Bool).Runs (Alone t n) w tr v w') :
    (!Lpc.accessible w.lpc.pages a.toNat k) = v ∧ w' = w := by
  obtain ⟨-, c, sp, hx⟩ := h.op_inv
  obtain ⟨hv, he⟩ := Prod.mk.inj (Option.some.inj hx)
  exact ⟨hv, (Prod.mk.inj he).1.symm⟩

/-- The count is read as it is. -/
theorem readCount_run {lpParameters : LPVOID} {k : Nat}
    (h : (readCount (.own lpParameters) : Code b Nat).Runs (Alone t n) w tr k w') :
    k = (callerList w lpParameters).dwParameters ∧ w' = w := by
  have hwp : wp (solo t n) (readCount (.own lpParameters) : Code b Nat)
      (fun k _ => k = (callerList w lpParameters).dwParameters) (Local.of w []) := by
    rw [← Prog.bind_pure (readCount (.own lpParameters))]
    exact solo_readCount (listBytes_own ..) (readParameters_dwParameters ..).symm
  refine ⟨solo_sound hwp h, ?_⟩
  obtain ⟨tr₁, tr₂, f, w₁, -, h₁, h₂⟩ := h.bind_inv
  obtain ⟨tr₃, tr₄, bytes, w₂, -, h₃, h₄⟩ := h₁.bind_inv
  cases h₂
  cases h₄
  obtain ⟨-, c, sp, hx⟩ := h₃.op_inv
  obtain ⟨x, hx, he⟩ := Option.map_eq_some_iff.mp hx
  simp only [Api.exec] at hx
  split at hx
  · obtain rfl := Option.some.inj hx
    exact (Prod.mk.inj (Prod.mk.inj he).2).1.symm
  · cases hx

end Runs

section Accessible

variable {ok : Nat → Bool} {a k : Nat}

theorem accessible_iff : Lpc.accessible ok a k = true ↔ ∀ i, a ≤ i → i < a + k → ok i = true := by
  rw [Lpc.accessible, List.all_eq_true]
  constructor
  · intro h i hi hlt
    have := h (i - a) (List.mem_range.mpr (by omega))
    rwa [Nat.add_sub_cancel' hi] at this
  · intro h j hj
    have := List.mem_range.mp hj
    exact h (a + j) (by omega) (by omega)

/-- A range within an accessible one. -/
theorem accessible_of_inside {r : Nat × Nat} (hr : Inside a (a + k) r)
    (h : Lpc.accessible ok a k = true) : Lpc.accessible ok r.1 r.2 = true := by
  rw [accessible_iff] at h ⊢
  intro i hi hlt
  have := hr.1
  have := hr.2
  exact h i (by omega) (by omega)

end Accessible

/-- The caller's memory when null was stored in `*hServiceRoutine`. -/
def nulled (w : World b) (hServiceRoutine : LPVOID) : Nat → BYTE :=
  overlay (w.lpc.memory w.lpc.self).byte hServiceRoutine.toNat (toLE b.pointerSize 0)

/-- Storing null makes the count smaller at most. -/
theorem nulled_count (w : World b) (hServiceRoutine lpParameters : LPVOID) :
    (readParameters (nulled w hServiceRoutine) lpParameters.toNat).dwParameters
      ≤ (callerList w lpParameters).dwParameters := by
  rw [callerList, readParameters_count, readParameters_count]
  exact fromLE_slice_mono (overlay_zero_le _ _ _) _ _

end ScProbe
