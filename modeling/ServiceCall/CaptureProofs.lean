import ServiceCall.SequentialProofs

/-! # Capturing a list

    `RtlCaptureParameters` copies a list into a block of its own, entry by entry,
    and gives up at the first mask that is refused.  Wherever the list lies
    (`ListBytes`), the copy is the list as its bytes say, and there is none exactly
    when some mask is refused. -/

namespace ScSequential

open LinearMemory OwnedHeap OpProg ThreadSys ScParameter LpcMessage ScSystem
  ScServiceCall ScOwnership

variable {b : Build}

/-- The bytes that a list is read from: it begins at `base` of the memory `m`. -/
def ListBytes (g : Local b) : ListAddress → (Nat → BYTE) → Nat → Prop
  | .own a, m, base => m = (g.lpc.memory g.lpc.self).byte ∧ base = a.toNat
  | .message lm offset, m, base => (∃ size, g.cells lm = some (.message m size)) ∧ base = offset

/-- The own memory, as it is. -/
theorem listBytes_own (g : Local b) (a : LPVOID) :
    ListBytes g (.own a) (g.lpc.memory g.lpc.self).byte a.toNat := ⟨rfl, rfl⟩

/-- They stay when a block that does not live changes. -/
theorem ListBytes.frame {g g' : Local b} {l : ListAddress} {m : Nat → BYTE} {base : Nat}
    (h : ListBytes g l m base) {a : LPVOID} (ha : g.cells a = none)
    (hcells : ∀ c, c ≠ a → g'.cells c = g.cells c) (hlpc : g'.lpc = g.lpc) :
    ListBytes g' l m base := by
  cases l with
  | own lp =>
      rw [ListBytes, hlpc]
      exact h
  | message lm offset =>
      obtain ⟨⟨size, hlm⟩, hbase⟩ := h
      refine ⟨⟨size, ?_⟩, hbase⟩
      rw [hcells lm ?_, hlm]
      rintro rfl
      rw [ha] at hlm
      exact nomatch hlm

section Read

variable {t n : Nat} {α : Type} {Q : α → Local b → Prop} {g : Local b} {l : ListAddress}
  {m : Nat → BYTE} {base : Nat}

/-- Own memory is read as it is. -/
theorem solo_loadOwn {a k : Nat} {f : List BYTE → Code b α}
    (hf : wp (solo t n) (f (slice (g.lpc.memory g.lpc.self).byte a k)) Q g) :
    wp (solo t n) (loadOwn a k >>= f) Q g := by
  refine wp_op_bind.mpr ⟨trivial, ?_⟩
  rintro r g' ⟨hc, ⟨hk, -, rfl⟩, hL⟩
  rw [Local.eq_of hc hk hL]
  exact hf

theorem solo_readBytes (h : ListBytes g l m base) {off k : Nat} {f : (Nat → BYTE) → Code b α}
    (hf : ∀ r, (∀ i, i < k → r i = m (base + off + i)) → wp (solo t n) (f r) Q g) :
    wp (solo t n) (readBytes l off k >>= f) Q g := by
  cases l with
  | own a =>
      obtain ⟨rfl, rfl⟩ := h
      rw [readBytes, Prog.bind_assoc]
      refine solo_loadOwn (hf _ ?_)
      intro i hi
      rw [List.getD_eq_getElem?_getD, slice_getElem? hi, Option.getD_some]
  | message lm offset =>
      obtain ⟨⟨size, hlm⟩, rfl⟩ := h
      rw [readBytes, Prog.bind_assoc]
      refine solo_loadMessage hlm ?_
      intro _
      exact hf _ fun i _ => rfl

theorem solo_readCount (h : ListBytes g l m base) {f : Nat → Code b α}
    (hf : wp (solo t n) (f (readDword m base).toNat) Q g) :
    wp (solo t n) (readCount l >>= f) Q g := by
  rw [readCount, Prog.bind_assoc]
  refine solo_readBytes h ?_
  intro r hr
  have hdword : readDword r 0 = readDword m base := by
    refine readDword_congr ?_
    intro k hk
    rw [Nat.zero_add, hr k hk, Nat.add_zero]
  show wp _ (f (readDword r 0).toNat) Q g
  rw [hdword]
  exact hf

theorem solo_readMask (h : ListBytes g l m base) {i : Nat} {f : BYTE → Code b α}
    (hf : wp (solo t n) (f (m (base + (parametersOffset + blobSize * i)))) Q g) :
    wp (solo t n) (readMask l i >>= f) Q g := by
  rw [readMask, Prog.bind_assoc]
  refine solo_readBytes h ?_
  intro r hr
  show wp _ (f (r 0)) Q g
  rw [hr 0 Nat.one_pos]
  exact hf

theorem solo_readEntry (h : ListBytes g l m base) {i : Nat} {f : ServiceParameterBlob → Code b α}
    (hf : wp (solo t n) (f (readBlob m (base + (parametersOffset + blobSize * i)))) Q g) :
    wp (solo t n) (readEntry l i >>= f) Q g := by
  rw [readEntry, Prog.bind_assoc]
  refine solo_readBytes h ?_
  intro r hr
  have hblob : readBlob r 0 = readBlob m (base + (parametersOffset + blobSize * i)) := by
    refine readBlob_congr ?_
    intro k hk
    rw [Nat.zero_add]
    exact hr k hk
  show wp _ (f (readBlob r 0)) Q g
  rw [hblob]
  exact hf

/-! ## The loop -/

/-- The entry with index `i` of the list at `base`. -/
theorem readParameters_getElem? {i : Nat} (hi : i < (readDword m base).toNat) :
    (readParameters m base).parameters[i]?
      = some (readBlob m (base + (parametersOffset + blobSize * i))) := by
  rw [readParameters, List.getElem?_map, List.getElem?_range hi, ← Nat.add_assoc]
  rfl

/-- The loop of `RtlCaptureParameters`, with the first `i` entries copied. -/
theorem solo_captureLoop {a : LPVOID} {f : LPVOID → Code b α} :
    ∀ k i (g : Local b) es, (∀ g' : Local b, (∀ c, c ≠ a → g'.cells c = g.cells c) →
        g'.lpc = g.lpc → ListBytes g' l m base) →
      g.cells a = some (.parameters ⟨es⟩) →
      es = (readParameters m base).parameters.take i →
      i + k = (readDword m base).toNat → (∀ e ∈ es, maskRefused e.parameterMask = false) →
      ((readParameters m base).Valid →
        wp (solo t n) (f a) Q (g.put a (some (.parameters (readParameters m base))))) →
      (¬ (readParameters m base).Valid → wp (solo t n) (f 0) Q (g.delete a)) →
      wp (solo t n) (captureLoop l a k i >>= f) Q g := by
  intro k
  induction k with
  | zero =>
      intro i g es _ hcells hes hik hvalid hok _
      have hall : es = (readParameters m base).parameters := by
        rw [hes, List.take_of_length_le]
        have hlen : (readParameters m base).parameters.length = (readDword m base).toNat :=
          readParameters_dwParameters m base
        omega
      have hput : g.put a (some (.parameters (readParameters m base))) = g := by
        refine Local.eq_of ?_ rfl rfl
        rw [show readParameters m base = ⟨es⟩ by rw [hall], ← hcells]
        exact Function.update_eq_self ..
      rw [hput] at hok
      refine hok ?_
      rw [ServiceRoutineParameter.Valid, ← hall]
      exact hvalid
  | succ k ih =>
      intro i g es hstable hcells hes hik hvalid hok hno
      have hbytes := hstable g (fun _ _ => rfl) rfl
      have hi : i < (readDword m base).toNat := by omega
      have hget := readParameters_getElem? hi
      rw [captureLoop, Prog.bind_assoc]
      refine solo_readMask hbytes ?_
      by_cases hmask : maskRefused (m (base + (parametersOffset + blobSize * i))) = true
      · rw [if_pos hmask, Prog.bind_assoc]
        refine solo_free (hno ?_)
        intro hv
        have := hv _ (List.mem_of_getElem? hget)
        exact absurd (hmask.symm.trans this) Bool.noConfusion
      · rw [if_neg hmask, Prog.bind_assoc]
        refine solo_readEntry hbytes ?_
        rw [Prog.bind_assoc]
        refine solo_loadParameters hcells ?_
        intro h0
        rw [Prog.bind_assoc]
        refine solo_store hcells (by rfl) ?_
        -- writing the copy changes nothing that is read
        have hstable' : ∀ y (g' : Local b), (∀ c, c ≠ a → g'.cells c = (g.put a y).cells c) →
            g'.lpc = g.lpc → ListBytes g' l m base := by
          intro y g' hcells' hlpc
          refine hstable g' ?_ hlpc
          intro c hc
          rw [hcells' c hc, Local.put_cells_ne _ hc]
        refine ih (i + 1) _ _ (hstable' _) (Local.put_cells_self ..) ?_ (by omega) ?_ ?_ ?_
        · rw [hes, List.take_add_one, hget]
          rfl
        · intro e he
          rcases List.mem_append.mp he with he | he
          · exact hvalid e he
          · rw [List.mem_singleton.mp he]
            exact Bool.not_eq_true _ ▸ hmask
        · rw [Local.put_put]
          exact hok
        · have hdel : (g.put a (some (.parameters
              ⟨es ++ [readBlob m (base + (parametersOffset + blobSize * i))]⟩))).delete a
              = g.delete a := by
            rw [Local.delete, Local.delete, if_neg h0, if_neg h0, Local.put_put]
            rfl
          rw [hdel]
          exact hno

/-- **CAPTURING** a list copies it when every mask is accepted, and leaves nothing behind
    otherwise. -/
theorem solo_rtlCaptureParameters (h : ListBytes g l m base) {f : LPVOID → Code b α}
    (hok : (readParameters m base).Valid → ∀ a,
      NewAt b .parameters (readDword m base).toNat g.cells a
        (.parameters (readParameters m base)) →
      wp (solo t n) (f a) Q (g.allocate a (readDword m base).toNat
        (.parameters (readParameters m base))))
    (hno : ¬ (readParameters m base).Valid → ∀ a, a ≠ 0 →
      wp (solo t n) (f 0) Q
        (g.logged ((g.log.allocate a (readDword m base).toNat).delete a))) :
    wp (solo t n) (rtlCaptureParameters l >>= f) Q g := by
  rw [rtlCaptureParameters, Prog.bind_assoc]
  refine solo_readCount h ?_
  rw [Prog.bind_assoc]
  refine solo_alloc ?_
  intro a x hnew
  rw [Prog.bind_assoc]
  have hx : (g.allocate a (readDword m base).toNat x).cells a = some x :=
    Local.put_cells_self ..
  refine solo_store (y := .parameters ⟨[]⟩) hx hnew.kind ?_
  have hput : ∀ y, (g.allocate a (readDword m base).toNat x).put a (some y)
      = g.allocate a (readDword m base).toNat y :=
    fun y => Local.eq_of (Function.update_idem ..) rfl rfl
  rw [hput]
  refine solo_captureLoop _ 0 _ [] ?_ (Local.put_cells_self ..) rfl (Nat.zero_add _)
    (fun _ he => absurd he List.not_mem_nil) ?_ ?_
  · intro g' hcells hlpc
    refine h.frame hnew.new ?_ hlpc
    intro c hc
    rw [hcells c hc]
    exact Function.update_of_ne hc ..
  · intro hv
    have hidem : ∀ y z, (g.allocate a (readDword m base).toNat y).put a (some z)
        = g.allocate a (readDword m base).toNat z :=
      fun y z => Local.eq_of (Function.update_idem ..) rfl rfl
    rw [hidem]
    exact hok hv a ⟨hnew.nonzero, hnew.pointer, hnew.new, rfl, readParameters_dwParameters ..⟩
  · intro hv
    have hdel : (g.allocate a (readDword m base).toNat (.parameters ⟨[]⟩)).delete a
        = g.logged ((g.log.allocate a (readDword m base).toNat).delete a) := by
      rw [Local.delete, if_neg hnew.nonzero]
      refine Local.eq_of ?_ rfl rfl
      show Function.update (Function.update g.cells a _) a none = g.cells
      rw [Function.update_idem, ← hnew.new, Function.update_eq_self]
    rw [hdel]
    exact hno hv a hnew.nonzero

end Read

end ScSequential
