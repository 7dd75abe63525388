import ServiceCall.DispatchProofs
import ServiceCall.ReleaseProofs
import ServiceCall.ValueResultProofs
import ServiceCall.WriteBackProofs

/-! # What a call does for its client

    To its client a call is a call by value and result: the regions that its list
    names are fetched, the routine edits the copies, and they are written back; or it
    is refused, because a region cannot be read, or broken off, because one cannot be
    written.  `answer` says so, without threads, blocks or operations.

    `WorkerThread` does just that (`worker_answers`), whatever the other threads do
    meanwhile, as long as they leave the worker what it has (`Amid`).  Where the
    regions lie apart it does what a local call would have done
    (`worker_answers_local`). -/

namespace ScAnswer

open LinearMemory OwnedHeap OpProg ThreadSys ScParameter LpcMessage ScSystem
  ScServiceCall ScOwnership ScSequential
open ValueResult (Edit fetch edit writes valueResult byReference)

variable {b : Build}

/-! ## The call as its client sees it -/

/-- The regions of the client that a list names: the pointers that are read, of which
    those that are not null are written back. -/
def regions (b : Build) (p : ServiceRoutineParameter) : List ValueResult.Region :=
  (p.parameters.filter needsBuffer).map fun e =>
    ⟨(clientRange b e).1, (clientRange b e).2, e.ulParameter != 0⟩

def editOf : RoutineAct → Option (Edit BYTE)
  | .write i k v => some ⟨i, k, v⟩
  | _ => none

/-- What a routine changes. -/
def edits (acts : List RoutineAct) : List (Edit BYTE) := acts.filterMap editOf

def statusOf : RoutineAct → Option NTSTATUS
  | .ret status => some status
  | _ => none

/-- What a routine returns, once it has. -/
def returned (acts : List RoutineAct) : List NTSTATUS := acts.filterMap statusOf

/-- The client can be read there. -/
def CanRead (vm : VirtualMemory) (r : ValueResult.Region) : Bool :=
  Lpc.accessible vm.readable r.address r.length

/-- The status a client gets for a call with the regions `rs` when the routine acts so and
    returns `status`, and the memory it is left with. -/
def answer (vm : VirtualMemory) (rs : List ValueResult.Region) (acts : List RoutineAct)
    (status : NTSTATUS) : NTSTATUS × (Nat → BYTE) :=
  if rs.all (CanRead vm) then
    let ws := writes rs ((edits acts).foldl edit (fetch vm.byte rs))
    if ws.all (Writable vm) then (status, overlayAll vm.byte ws)
    else (STATUS_ACCESS_DENIED, overlayAll vm.byte (ws.takeWhile (Writable vm)))
  else (STATUS_INVALID_PARAMETER, vm.byte)

section Answer

variable {vm : VirtualMemory} {rs : List ValueResult.Region} {acts : List RoutineAct}
  {status : NTSTATUS}

theorem answer_refused (h : rs.all (CanRead vm) = false) :
    answer vm rs acts status = (STATUS_INVALID_PARAMETER, vm.byte) := by
  rw [answer, h, if_neg Bool.false_ne_true]

theorem answer_written (h : rs.all (CanRead vm) = true)
    (hw : ∀ w ∈ writes rs ((edits acts).foldl edit (fetch vm.byte rs)), Writable vm w = true) :
    answer vm rs acts status = (status, valueResult vm.byte rs (edits acts)) := by
  rw [answer, if_pos h]
  exact if_pos (List.all_eq_true.mpr hw)

theorem answer_broken (h : rs.all (CanRead vm) = true)
    (hw : ∃ w ∈ writes rs ((edits acts).foldl edit (fetch vm.byte rs)), Writable vm w = false) :
    answer vm rs acts status = (STATUS_ACCESS_DENIED, overlayAll vm.byte
      ((writes rs ((edits acts).foldl edit (fetch vm.byte rs))).takeWhile (Writable vm))) := by
  obtain ⟨w, hw, hno⟩ := hw
  rw [answer, if_pos h]
  refine if_neg ?_
  rw [List.all_eq_true]
  exact fun hall => Bool.false_ne_true (hno.symm.trans (hall w hw))

end Answer

/-- What the routine is handed for an entry: the address of a copy, or the value. -/
def Passed (b : Build) (e : ServiceParameterBlob) (a : ULONG64) : Prop :=
  if needsBuffer e then a ≠ 0 else a = b.toPointer e.ulParameter

/-- The arguments that are addresses of copies. -/
def pointers (p : ServiceRoutineParameter) (args : List ULONG64) : List LPVOID :=
  ((p.parameters.zip args).filter fun x => needsBuffer x.1).map Prod.snd

/-! ## The events of a worker -/

def actOf : Sigma (Op.Ret b) → Option RoutineAct
  | ⟨.api .routineAct, a⟩ => some a
  | _ => none

def callOf : Sigma (Op.Ret b) → Option (LPVOID × List ULONG64)
  | ⟨.api (.note (.invoked lpRoutine args)), _⟩ => some (lpRoutine, args)
  | _ => none

def replyOf : Sigma (Op.Ret b) → Option (Nat → BYTE)
  | ⟨.kernel (.ntReplyWaitReplyPort _ lm), _⟩ => some lm
  | _ => none

/-- What the routine did. -/
def actsOf (tr : Events b) : List RoutineAct := tr.filterMap actOf

/-- The routines that were called, with their arguments. -/
def callsOf (tr : Events b) : List (LPVOID × List ULONG64) := tr.filterMap callOf

/-- The messages that were sent as replies. -/
def repliesOf (tr : Events b) : List (Nat → BYTE) := tr.filterMap replyOf

/-- What the routine did is recorded. -/
def addAct (acts : List RoutineAct) (e : Sigma (Op.Ret b)) : List RoutineAct :=
  acts ++ (actOf e).toList

theorem filterMap_snoc {γ : Type} (f : Sigma (Op.Ret b) → Option γ) (tr : Events b)
    (e : Sigma (Op.Ret b)) : (tr ++ [e]).filterMap f = tr.filterMap f ++ (f e).toList := by
  rw [List.filterMap_append]
  cases h : f e <;> simp [h]

/-! ## A mapping and its copies -/

/-- What a mapping makes of an entry, but for the content of its buffer. -/
def Mapped (b : Build) (e m : ServiceParameterBlob) : Prop :=
  if needsBuffer e then m.parameterMask = e.parameterMask ∧ m.ulParameter ≠ 0
    ∧ b.toPointer m.ulParameter = m.ulParameter
  else m = e

/-- The copies that a mapped list holds. -/
def copies (b : Build) (own : Blocks) (q : ServiceRoutineParameter) : List (List BYTE) :=
  (buffers b q).map (bufferAt own)

section Mapped

variable {own : Blocks} {e m : ServiceParameterBlob} {es ms : List ServiceParameterBlob}

theorem regions_cons : regions b ⟨e :: es⟩ = if needsBuffer e then
    ⟨(clientRange b e).1, (clientRange b e).2, e.ulParameter != 0⟩ :: regions b ⟨es⟩
    else regions b ⟨es⟩ := by
  by_cases he : needsBuffer e = true <;> simp [regions, he]

theorem Mapped.buffers_cons (h : Mapped b e m) : buffers b ⟨m :: ms⟩ = if needsBuffer e then
    b.toPointer m.ulParameter :: buffers b ⟨ms⟩ else buffers b ⟨ms⟩ := by
  unfold Mapped at h
  by_cases he : needsBuffer e = true
  · rw [if_pos he] at h ⊢
    have hptr : (isPtr m.parameterMask && m.ulParameter != 0) = true := by
      rw [h.1, isPtr_of_needsBuffer he]
      simpa using h.2.1
    simp only [buffers, List.filterMap_cons, hptr, if_true]
  · rw [if_neg he] at h ⊢
    rw [h]
    simp only [buffers, List.filterMap_cons, unbuffered he, Bool.false_eq_true, if_false]

theorem Mapped.passed (h : Mapped b e m) : Passed b e (b.toPointer m.ulParameter) := by
  unfold Mapped at h
  unfold Passed
  by_cases he : needsBuffer e = true
  · rw [if_pos he] at h ⊢
    rw [h.2.2]
    exact h.2.1
  · rw [if_neg he] at h ⊢
    rw [h]

/-- The arguments are what the list names. -/
theorem passed_of_mapped (h : List.Forall₂ (Mapped b) es ms) :
    List.Forall₂ (Passed b) es (arguments b ⟨ms⟩) := by
  induction h with
  | nil => exact .nil
  | cons hem _ ih => exact .cons hem.passed ih

/-- The pointers among them are the buffers of the mapped list. -/
theorem buffers_of_mapped (h : List.Forall₂ (Mapped b) es ms) :
    buffers b ⟨ms⟩ = pointers ⟨es⟩ (arguments b ⟨ms⟩) := by
  induction h with
  | nil => rfl
  | @cons e m es ms hem _ ih =>
      rw [hem.buffers_cons, ih]
      by_cases he : needsBuffer e = true
      · rw [if_pos he]
        simp [pointers, arguments, he]
      · rw [if_neg he]
        simp [pointers, arguments, he]

/-- What is written back for a mapped list are its copies. -/
theorem syncWrites_of_mapped (h : List.Forall₂ (Mapped b) es ms)
    (hlen : (copies b own ⟨ms⟩).map List.length
      = (regions b ⟨es⟩).map ValueResult.Region.length) :
    syncWrites b own es ms = writes (regions b ⟨es⟩) (copies b own ⟨ms⟩) := by
  induction h with
  | nil => rfl
  | @cons e m es ms hem _ ih =>
      rw [copies, hem.buffers_cons, regions_cons] at hlen ⊢
      by_cases he : needsBuffer e = true
      · rw [if_pos he, if_pos he] at hlen ⊢
        obtain ⟨hsize, hlen⟩ := List.cons.inj hlen
        have hback : writesEntry e = (e.ulParameter != 0) := by
          rw [writesEntry, show hasBits e.parameterMask 0b01000000 = true from
            isPtr_of_needsBuffer he, Bool.true_and]
        have hwrite : entryWrite b own e m
            = ((clientRange b e).1, bufferAt own (b.toPointer m.ulParameter)) := by
          have hall : (bufferAt own (b.toPointer m.ulParameter)).take e.dwMaxBufferSize.toNat
              = bufferAt own (b.toPointer m.ulParameter) :=
            List.take_of_length_le (Nat.le_of_eq hsize)
          rw [entryWrite, hall]
          rfl
        rw [syncWrites, List.map_cons, writes, hback, hwrite, ih hlen]
        rfl
      · rw [if_neg he, if_neg he] at hlen ⊢
        have hnot : writesEntry e = false := by
          by_contra hw
          exact he (needsBuffer_of_writesEntry (by simpa using hw))
        rw [syncWrites, hnot, if_neg Bool.false_ne_true]
        exact ih hlen

/-- The mapping has fetched the regions. -/
theorem fetched_of_mapsTo {h : HANDLE} {vm : VirtualMemory}
    (hmaps : List.Forall₂ (MapsTo b (some (h, vm)) own) es ms) :
    List.Forall₂ (Mapped b) es ms ∧ copies b own ⟨ms⟩ = fetch vm.byte (regions b ⟨es⟩)
      ∧ (regions b ⟨es⟩).all (CanRead vm) = true := by
  induction hmaps with
  | nil => exact ⟨.nil, rfl, rfl⟩
  | @cons e m es ms hem _ ih =>
      obtain ⟨hmapped, hcopies, hread⟩ := ih
      unfold MapsTo at hem
      by_cases he : needsBuffer e = true
      · rw [if_pos he] at hem
        obtain ⟨a, bytes, rfl, h0, hp, hown, hx⟩ := hem
        obtain ⟨hcan, hbytes⟩ := hx _ rfl
        have hmap : Mapped b e { e with ulParameter := a } := by
          unfold Mapped
          rw [if_pos he]
          exact ⟨rfl, h0, hp⟩
        refine ⟨.cons hmap hmapped, ?_, ?_⟩
        · rw [copies, hmap.buffers_cons, regions_cons, if_pos he, if_pos he, List.map_cons]
          show bufferAt own (b.toPointer a) :: copies b own ⟨ms⟩ = _
          rw [hcopies, hp, bufferAt, hown]
          show bytes :: _ = _
          rw [hbytes]
          rfl
        · rw [regions_cons, if_pos he, List.all_cons, hread, Bool.and_true]
          exact hcan
      · rw [if_neg he] at hem
        subst hem
        have hmap : Mapped b m m := by
          unfold Mapped
          rw [if_neg he]
        refine ⟨.cons hmap hmapped, ?_, ?_⟩
        · rw [copies, hmap.buffers_cons, regions_cons, if_neg he, if_neg he]
          exact hcopies
        · rw [regions_cons, if_neg he]
          exact hread

/-- A byte of a buffer is written: one of the copies is edited. -/
theorem copies_write {q : ServiceRoutineParameter} (hnd : (buffers b q).Nodup) {i k : Nat}
    {v : BYTE} {a : LPVOID} {bytes : List BYTE} (ha : (buffers b q)[i]? = some a)
    (hown : own a = some (.buffer bytes)) :
    copies b (Function.update own a (some (.buffer (bytes.set k v)))) q
      = edit (copies b own q) ⟨i, k, v⟩ := by
  refine List.ext_getElem? ?_
  intro j
  rw [ValueResult.edit_getElem?, copies, copies, List.getElem?_map, List.getElem?_map,
    Option.map_map]
  cases hj : (buffers b q)[j]? with
  | none => rfl
  | some c =>
      show some _ = some _
      refine congrArg some ?_
      show bufferAt _ c = if i = j then (bufferAt own c).set k v else bufferAt own c
      obtain ⟨hi, rfl⟩ := List.getElem?_eq_some_iff.mp ha
      obtain ⟨hj', rfl⟩ := List.getElem?_eq_some_iff.mp hj
      by_cases hij : i = j
      · subst hij
        rw [if_pos rfl, bufferAt, Function.update_self, bufferAt, hown]
      · have hne : (buffers b q)[j] ≠ (buffers b q)[i] := by
          intro h
          exact hij ((hnd.getElem_inj_iff).mp h).symm
        rw [if_neg hij, bufferAt, Function.update_of_ne hne]
        rfl

/-- An edit that finds nothing to change. -/
theorem copies_keep {q : ServiceRoutineParameter} {i k : Nat} {v : BYTE}
    (h : ∀ a bytes, (buffers b q)[i]? = some a → own a = some (.buffer bytes) →
      bytes.length ≤ k) (hheld : ∀ a ∈ buffers b q, ∃ bytes, own a = some (.buffer bytes)) :
    copies b own q = edit (copies b own q) ⟨i, k, v⟩ := by
  refine List.ext_getElem? ?_
  intro j
  rw [ValueResult.edit_getElem?, copies, List.getElem?_map, Option.map_map]
  cases hj : (buffers b q)[j]? with
  | none => rfl
  | some c =>
      show some _ = some _
      refine congrArg some ?_
      show bufferAt own c = if i = j then (bufferAt own c).set k v else bufferAt own c
      split
      · next hij =>
          subst hij
          obtain ⟨bytes, hown⟩ := hheld c (List.mem_of_getElem? hj)
          rw [bufferAt, hown]
          exact (List.set_eq_of_length_le (h c bytes hj hown)).symm
      · rfl

end Mapped

/-! ## A worker among others -/

/-- What the others leave to thread `t`: its blocks, up to the flags of descriptors, the
    memory of its client `pid`, and the length of messages. -/
structure Left (t pid : Nat) (w w₁ : World b) : Prop where
  blocks : ∀ a x, a ≠ 0 → w.heap.holder a = t → w.heap.cells a = some x →
    w₁.heap.holder a = t ∧ ∃ y, w₁.heap.cells a = some y ∧ x.forget = y.forget
  memory : w₁.lpc.memory pid = w.lpc.memory pid
  length : w₁.ids.systemLpcMessageLength = w.ids.systemLpcMessageLength

theorem Left.refl (t pid : Nat) (w : World b) : Left t pid w w :=
  ⟨fun _ x _ h₁ h₂ => ⟨h₁, x, h₂, rfl⟩, rfl, rfl⟩

theorem Left.trans {t pid : Nat} {w w₁ w₂ : World b} (h₁ : Left t pid w w₁)
    (h₂ : Left t pid w₁ w₂) : Left t pid w w₂ := by
  refine ⟨?_, h₂.memory.trans h₁.memory, h₂.length.trans h₁.length⟩
  intro a x h0 hholder hx
  obtain ⟨hholder₁, y, hy, hxy⟩ := h₁.blocks a x h0 hholder hx
  obtain ⟨hholder₂, z, hz, hyz⟩ := h₂.blocks a y h0 hholder₁ hy
  exact ⟨hholder₂, z, hz, hxy.trans hyz⟩

/-- The heap does not run out, and the handle `h` is one of the process `pid`, which is not
    this one, and can be read and written where its memory can. -/
def Faithful (h : HANDLE) (pid : Nat) (w : World b) : (o : Op) → Op.Ret b o → Prop
  | .heap (.allocNothrow ..), a => a ≠ (0 : LPVOID)
  | .kernel (.ntReadVirtualMemory h' a n), r => h' = h → w.lpc.processOf h = some pid
      ∧ ntSuccess r.1 = Lpc.accessible (w.lpc.memory pid).readable a n
  | .kernel (.ntWriteVirtualMemory h' a bytes), r => h' = h → w.lpc.processOf h = some pid
      ∧ ntSuccess r = Lpc.accessible (w.lpc.memory pid).writable a bytes.length
  | .api (.storeOwn ..), _ => w.lpc.self ≠ pid
  | _, _ => True

/-- An operation of the worker `t`, after the others left it what it has. -/
def Amid (t : Nat) (h : HANDLE) (pid : Nat) (o : Op) (w : World b) (r : Op.Ret b o)
    (w' : World b) : Prop :=
  ∃ n w₁, t < n ∧ Left t pid w w₁ ∧ Alone t n o w₁ r w' ∧ Faithful h pid w₁ o r
    ∧ HarmlessAt w₁ o

/-- The ghost states of all threads, where only what `t` knows matters. -/
def only (t : Nat) (g : Ghost b) : Nat → Ghost b :=
  Function.update (fun _ => .blank .worker [] none) t g

/-- What a worker knows of its world besides its blocks, and of what it has done. -/
structure Tells (h : HANDLE) (pid : Nat) (w : World b) (tr : Events b) (g : Ghost b) :
    Prop where
  stage   : g.stage = .worker
  client  : g.client = some (h, w.lpc.memory pid)
  length  : g.length = some w.ids.systemLpcMessageLength
  ample   : g.ample = true
  mine    : g.mine = none
  pages   : g.pages = none
  calls   : g.calls.reverse = callsOf tr
  replies : g.replies.reverse = repliesOf tr

/-- What a worker knows. -/
structure Sees (t : Nat) (h : HANDLE) (pid : Nat) (w : World b) (tr : Events b)
    (g : Ghost b) : Prop extends Tells h pid w tr g where
  owns : Owns (layout b) w.heap fun u => (only t g u).own
  null : g.own 0 = none

section Sees

variable {t n pid : Nat} {h : HANDLE} {w w₁ w' : World b} {tr : Events b} {g g' : Ghost b}

theorem only_self : only t g t = g := Function.update_self ..

theorem only_ne {u : Nat} (hu : u ≠ t) (a : LPVOID) : (only t g u).own a = none := by
  rw [only, Function.update_of_ne hu]
  rfl

/-- It is what a thread among others knows. -/
theorem Sees.known (S : Sees t h pid w tr g) (ht : t < n) : Known n w (only t g) where
  owns := S.owns
  null u := by
    by_cases hu : u = t
    · rw [hu, only_self]
      exact S.null
    · exact only_ne hu 0
  later u hu a := only_ne (by omega) a

/-- The others leave a worker what it knows. -/
theorem Sees.left (S : Sees t h pid w tr g) (L : Left t pid w w₁) : Sees t h pid w₁ tr g := by
  refine ⟨⟨S.stage, by rw [L.memory, S.client], by rw [L.length, S.length], S.ample, S.mine,
    S.pages, S.calls, S.replies⟩, ⟨?_, ?_⟩, S.null⟩
  all_goals
    intro u a x hx
    obtain rfl : u = t := by
      by_contra hu
      rw [only_ne hu] at hx
      cases hx
    have h0 : a ≠ 0 := by
      rintro rfl
      rw [only_self, S.null] at hx
      cases hx
    obtain ⟨y, hy, he⟩ := S.owns.live hx
    obtain ⟨hholder, z, hz, he'⟩ := L.blocks a y h0 (S.owns.holds hx) hy
  · exact ⟨z, hz, he.trans he'⟩
  · exact hholder

/-- Only `NtWriteVirtualMemory` changes the memory of processes. -/
theorem effect_memory {k k' : Lpc b} {o : KernelOp} {r : o.Ret b} (E : k.Effect t o r k')
    (ho : ∀ h a bytes, o ≠ .ntWriteVirtualMemory h a bytes) : k'.memory = k.memory := by
  cases E with
  | wrote hp hacc => exact (ho _ _ _ rfl).elim
  | @closed h x hl => cases x <;> rfl
  | _ => rfl

/-- Only storing into this process changes memory outside the heap. -/
theorem api_memory {o : ApiOp} {c : Choice b} {r : o.Ret} {a : Api} {m : Nat → VirtualMemory}
    {sp : Option Label} (ho : ∀ x bytes, o = .storeOwn x bytes → w.lpc.self ≠ pid)
    (hx : exec t n (.api o) c w = some (r, { w with api := a, lpc := { w.lpc with memory := m } },
      sp)) : m pid = w.lpc.memory pid := by
  obtain ⟨⟨r', a', k⟩, hr, he⟩ := Option.map_eq_some_iff.mp hx
  obtain ⟨rfl, he'⟩ := Prod.mk.inj he
  have hk : k.memory = m := congrArg (fun x => x.lpc.memory) (Prod.mk.inj he').1
  have hpost := api_lpc (n := n) hr
  rw [← hk]
  cases o with
  | storeOwn x bytes =>
      obtain rfl : k = _ := hpost
      exact Function.update_of_ne (ho x bytes rfl).symm ..
  | loadOwn x j => rw [show k = w.lpc from hpost.1]
  | _ => rw [show k = w.lpc from hpost]

/-- The length of messages is only changed where it is set. -/
theorem ids_length {o : IdOp} {s s' : Ids} {r : o.Ret} (hs : Ids.exec t o s = some (r, s'))
    (ho : ∀ m, o ≠ .setSystemLpcMessageLength m) :
    s'.systemLpcMessageLength = s.systemLpcMessageLength := by
  cases o with
  | setSystemLpcMessageLength m => exact absurd rfl (ho m)
  | enterCriticalSection | erase =>
      simp only [Ids.exec] at hs
      split at hs
      · obtain rfl := (Prod.mk.inj (Option.some.inj hs)).2
        rfl
      · cases hs
  | «at» i =>
      obtain ⟨e, -, he⟩ := Option.map_eq_some_iff.mp hs
      rw [(Prod.mk.inj he).2]
  | _ =>
      obtain rfl := (Prod.mk.inj (Option.some.inj hs)).2
      rfl

/-- No operation changes the host, and the length of messages only the one that sets it. -/
theorem exec_length {o : Op} {c : Choice b} {r : Op.Ret b o} {sp : Option Label}
    (hx : exec t n o c w = some (r, w', sp)) : w'.ids.architecture = w.ids.architecture
      ∧ ((∀ m, o ≠ .id (.setSystemLpcMessageLength m)) →
        w'.ids.systemLpcMessageLength = w.ids.systemLpcMessageLength) := by
  cases o with
  | heap o =>
      obtain ⟨h, -, rfl, -⟩ := exec_heap hx
      exact ⟨rfl, fun _ => rfl⟩
  | kernel o =>
      obtain ⟨k, -, rfl, -⟩ := exec_kernel hx
      exact ⟨rfl, fun _ => rfl⟩
  | id o =>
      obtain ⟨s, hs, rfl, -⟩ := exec_id hx
      refine ⟨?_, fun ho => ids_length hs fun m h => ho m (congrArg Op.id h)⟩
      show s.architecture = w.ids.architecture
      cases o with
      | enterCriticalSection | erase =>
          simp only [Ids.exec] at hs
          split at hs
          · obtain rfl := (Prod.mk.inj (Option.some.inj hs)).2
            rfl
          · cases hs
      | «at» i =>
          obtain ⟨e, -, he⟩ := Option.map_eq_some_iff.mp hs
          rw [(Prod.mk.inj he).2]
      | _ =>
          obtain rfl := (Prod.mk.inj (Option.some.inj hs)).2
          rfl
  | api o =>
      obtain ⟨⟨a, m, rfl⟩, -⟩ := exec_api hx
      exact ⟨rfl, fun _ => rfl⟩
  | loadCloseEvent a =>
      obtain ⟨-, -, ⟨d, -, -, rfl⟩ | ⟨-, rfl⟩⟩ := exec_loadCloseEvent hx <;>
        exact ⟨rfl, fun _ => rfl⟩
  | setCloseEvent a =>
      obtain ⟨-, -, ⟨d, -, rfl⟩ | ⟨-, rfl⟩⟩ := exec_setCloseEvent hx <;>
        exact ⟨rfl, fun _ => rfl⟩
  | createThread l =>
      rcases exec_createThread hx with ⟨-, rfl, -⟩ | ⟨tid, -, -, -, rfl⟩ <;>
        exact ⟨rfl, fun _ => rfl⟩

/-- A worker stays one. -/
theorem next_worker (o : KernelOp) (r : o.Ret b) :
    (Stage.worker : Stage b).next o r = .worker := by
  cases o <;> rfl

/-- What the others did not change, an operation of the worker changes as the outline says. -/
theorem Tells.step {o : Op} {c : Choice b} {r : Op.Ret b o} {sp : Option Label}
    (T : Tells h pid w tr g) (hpre : Pre o g) (hfaith : Faithful h pid w o r)
    (hx : exec t n o c w = some (r, w', sp)) (hpost : Post o g r g') :
    Tells h pid w' (tr ++ [⟨o, r⟩]) g' := by
  have hcalls : callsOf (tr ++ [(⟨o, r⟩ : Sigma (Op.Ret b))])
      = callsOf tr ++ (callOf ⟨o, r⟩).toList := filterMap_snoc ..
  have hreplies : repliesOf (tr ++ [(⟨o, r⟩ : Sigma (Op.Ret b))])
      = repliesOf tr ++ (replyOf ⟨o, r⟩).toList := filterMap_snoc ..
  -- neither a call nor a reply, and the client's memory stays
  have plain : ∀ {w₁ : World b} {g₁ : Ghost b}, callOf ⟨o, r⟩ = none → replyOf ⟨o, r⟩ = none →
      w₁.lpc.memory pid = w.lpc.memory pid →
      w₁.ids.systemLpcMessageLength = w.ids.systemLpcMessageLength →
      g₁.stage = .worker → g₁.client = g.client → g₁.length = g.length → g₁.ample = g.ample →
      g₁.mine = none → g₁.pages = g.pages → g₁.calls = g.calls → g₁.replies = g.replies →
      Tells h pid w₁ (tr ++ [⟨o, r⟩]) g₁ := by
    intro w₁ g₁ hc hr hm hl h₁ h₂ h₃ h₄ h₅ h₆ h₇ h₈
    rw [hc] at hcalls
    rw [hr] at hreplies
    refine ⟨h₁, by rw [h₂, hm, T.client], by rw [h₃, hl, T.length], h₄.trans T.ample, h₅,
      h₆.trans T.pages, ?_, ?_⟩
    · rw [h₇, T.calls, hcalls]
      exact (List.append_nil _).symm
    · rw [h₈, T.replies, hreplies]
      exact (List.append_nil _).symm
  cases o with
  | heap o =>
      obtain ⟨k, -, rfl, -⟩ := exec_heap hx
      obtain ⟨⟨own, -, rfl⟩, -⟩ := hpost
      refine plain rfl rfl rfl rfl ?_ rfl rfl rfl T.mine rfl rfl rfl
      rw [T.stage]
      cases o <;> rfl
  | loadCloseEvent a => cases T.stage.symm.trans hpre.1
  | setCloseEvent a => cases T.stage.symm.trans hpre.1
  | createThread l =>
      cases l with
      | waitThread d =>
          obtain ⟨-, _, _, _, _, hst, -⟩ := hpre
          cases T.stage.symm.trans hst
      | workerThread param =>
          obtain ⟨⟨_, _, _, _, _, _, _, _, _, -, hst, -⟩, -⟩ := hpre
          cases T.stage.symm.trans hst
      | _ => exact hpre.elim
  | id o =>
      obtain ⟨s, hs, rfl, -⟩ := exec_id hx
      cases o with
      | setSystemLpcMessageLength m =>
          obtain ⟨-, rfl⟩ := Prod.mk.inj (Option.some.inj hs)
          obtain rfl : g' = _ := hpost
          exact ⟨T.stage, T.client, by rw [T.length]; rfl, T.ample, T.mine, T.pages,
            T.calls.trans (hcalls.trans (List.append_nil _)).symm,
            T.replies.trans (hreplies.trans (List.append_nil _)).symm⟩
      | systemLpcMessageLength =>
          obtain ⟨rfl, -⟩ := hpost
          obtain ⟨-, rfl⟩ := Prod.mk.inj (Option.some.inj hs)
          exact plain rfl rfl rfl rfl T.stage rfl rfl rfl T.mine rfl rfl rfl
      | _ =>
          obtain rfl : g' = _ := hpost
          refine plain rfl rfl rfl (ids_length hs (by simp)) T.stage rfl rfl rfl T.mine rfl rfl rfl
  | api o =>
      obtain ⟨⟨a, m, rfl⟩, -⟩ := exec_api hx
      have hmem : m pid = w.lpc.memory pid := api_memory (by rintro x bytes rfl; exact hfaith) hx
      cases o with
      | note x =>
          cases x with
          | invoked lpRoutine args =>
              obtain rfl : g' = _ := hpost
              refine ⟨T.stage, T.client.trans (by rw [← hmem]), T.length, T.ample, T.mine,
                T.pages, ?_, ?_⟩
              · rw [hcalls, List.reverse_cons, T.calls]
                rfl
              · rw [hreplies, T.replies]
                exact (List.append_nil _).symm
          | mapFailed tmp i =>
              obtain ⟨rfl, -⟩ := hpost
              exact plain rfl rfl hmem rfl T.stage rfl rfl rfl T.mine rfl rfl rfl
          | returned call status =>
              cases call with
              | unregister a =>
                  rcases hpre.2 with hst | ⟨hst, -⟩ <;> cases T.stage.symm.trans hst
              | _ => cases T.stage.symm.trans hpre.2
          | _ =>
              obtain rfl : g' = _ := hpost
              exact plain rfl rfl hmem rfl T.stage rfl rfl rfl T.mine rfl rfl rfl
      | storeOwn x bytes =>
          obtain rfl : g' = _ := hpost
          refine plain rfl rfl hmem rfl T.stage rfl rfl rfl ?_ rfl rfl rfl
          rw [T.mine]
          rfl
      | isBadReadPtr | isBadWritePtr | loadOwn =>
          obtain ⟨rfl, -⟩ := hpost
          exact plain rfl rfl hmem rfl T.stage rfl rfl rfl T.mine rfl rfl rfl
      | _ =>
          obtain rfl : g' = _ := hpost
          exact plain rfl rfl hmem rfl T.stage rfl rfl rfl T.mine rfl rfl rfl
  | kernel o =>
      obtain ⟨k, E, rfl, -⟩ := exec_kernel hx
      obtain ⟨-, rfl⟩ := hpost
      have hstage : g.stage.next o r = .worker := by
        rw [T.stage]
        exact next_worker o r
      cases o with
      | ntWriteVirtualMemory h' a bytes =>
          obtain ⟨hp, -⟩ := hfaith (hpre _ T.client).symm
          refine ⟨hstage, ?_, T.length, T.ample, T.mine, T.pages,
            T.calls.trans (hcalls.trans (List.append_nil _)).symm,
            T.replies.trans (hreplies.trans (List.append_nil _)).symm⟩
          show clientAfter (b := b) g.client (.ntWriteVirtualMemory h' a bytes) r
            = some (h, k.memory pid)
          rw [T.client]
          cases E with
          | wrote hp' hacc =>
              obtain rfl := hpre _ T.client
              obtain rfl := Option.some.inj (hp.symm.trans hp')
              have hmem : (w.lpc.writeMemory pid a bytes).memory pid
                  = { w.lpc.memory pid with byte := overlay (w.lpc.memory pid).byte a bytes } :=
                Function.update_self ..
              rw [hmem]
              rfl
          | notWritten hst =>
              rw [clientAfter, if_neg (by simp [hst])]
      | ntReplyWaitReplyPort h' lm =>
          refine ⟨hstage, T.client.trans ?_, T.length, T.ample, T.mine, T.pages, ?_, ?_⟩
          · rw [effect_memory E (by simp)]
          · rw [hcalls, T.calls]
            exact (List.append_nil _).symm
          · rw [hreplies]
            show (lm :: g.replies).reverse = _
            rw [List.reverse_cons, T.replies]
            rfl
      | _ =>
          refine plain rfl rfl ?_ rfl hstage rfl rfl rfl T.mine rfl rfl rfl
          show k.memory pid = _
          rw [effect_memory E (by simp)]

/-- What comes back is not against what the worker knows. -/
theorem Sees.agrees {o : Op} {c : Choice b} {r : Op.Ret b o} {sp : Option Label}
    (S : Sees t h pid w tr g) (hpre : Pre o g) (hfaith : Faithful h pid w o r)
    (hharm : HarmlessAt w o) (hx : exec t n o c w = some (r, w', sp)) : Agrees g o r := by
  have K := S.known (Nat.lt_succ_self t)
  cases o with
  | heap o =>
      cases o with
      | allocNothrow k m => exact fun _ => hfaith
      | _ => trivial
  | kernel o =>
      obtain ⟨k, E, -, -⟩ := exec_kernel hx
      -- what the kernel does to the client is what it can do
      cases o with
      | ntReadVirtualMemory h' a m =>
          intro x hcl
          obtain rfl := hpre x hcl
          obtain rfl := Option.some.inj (S.client.symm.trans hcl)
          obtain ⟨hp, hok⟩ := hfaith rfl
          refine ⟨hok, ?_⟩
          intro hst
          cases E with
          | read hp' hacc => rw [Option.some.inj (hp'.symm.trans hp)]
          | notRead hno => cases hst.symm.trans hno
      | ntWriteVirtualMemory h' a bytes =>
          intro x hcl
          obtain rfl := hpre x hcl
          obtain rfl := Option.some.inj (S.client.symm.trans hcl)
          exact (hfaith rfl).2
      | ntListenPort | ntReplyWaitReceivePort =>
          exact answers_of_effect (g := .blank .worker [] none) E rfl
      | _ => trivial
  | id o =>
      cases o with
      | systemLpcMessageLength =>
          intro m hm
          obtain ⟨s, hs, -, -⟩ := exec_id hx
          rw [S.length] at hm
          rw [← Option.some.inj hm]
          exact (congrArg Prod.fst (Option.some.inj hs)).symm
      | _ => trivial
  | api o =>
      cases o with
      | isBadReadPtr =>
          refine ⟨?_, ?_⟩
          · intro vm hvm
            cases S.mine.symm.trans hvm
          · intro ok hok
            cases S.pages.symm.trans hok
      | isBadWritePtr | loadOwn =>
          intro vm hvm
          cases S.mine.symm.trans hvm
      | note x =>
          cases x with
          | mapFailed tmp i =>
              intro p hp
              refine hharm (tmp, i) rfl p (K.parametersAt (t := t) ?_)
              rw [only_self]
              exact hp
          | _ => trivial
      | _ => trivial
  | _ => trivial

/-- Step by step a worker knows what the outline says. -/
theorem Sees.step {o : Op} {r : Op.Ret b o} (S : Sees t h pid w tr g) (hpre : Pre o g)
    (hx : Amid t h pid o w r w') : ∃ g', Post o g r g' ∧ Sees t h pid w' (tr ++ [⟨o, r⟩]) g' := by
  obtain ⟨n, w₁, ht, L, ⟨c, sp, hx⟩, hfaith, hharm⟩ := hx
  have S₁ := S.left L
  have hself : only t g t = g := only_self
  obtain ⟨g', hpost, -, K'⟩ := (S₁.known ht).op (t := t) ht (by rwa [hself])
    (by rw [hself]; exact S₁.agrees hpre hfaith hharm hx) hx
  rw [hself] at hpost
  have hpast : after (only t g) t n g' (sp.map fun l => born l (only t g t)) t = g' :=
    after_self (by omega) ..
  refine ⟨g', hpost, S₁.toTells.step hpre hfaith hx hpost, ⟨?_, ?_⟩, ?_⟩
  · intro u a x hx
    obtain rfl : u = t := by
      by_contra hu
      rw [only_ne hu] at hx
      cases hx
    rw [only_self] at hx
    refine K'.owns.live (t := u) ?_
    rwa [hpast]
  · intro u a x hx
    obtain rfl : u = t := by
      by_contra hu
      rw [only_ne hu] at hx
      cases hx
    rw [only_self] at hx
    refine K'.owns.holds (t := u) (b := x) ?_
    rwa [hpast]
  · rw [← hpast]
    exact K'.null t

end Sees

/-! ## What is no act of the routine -/

/-- The operations in which the routine does nothing. -/
@[simp] def Unacted : Op → Prop
  | .api .routineAct => False
  | _ => True

theorem addAct_unacted {o : Op} {r : Op.Ret b o} {acts : List RoutineAct} (ho : Unacted o) :
    addAct acts ⟨o, r⟩ = acts := by
  have hnone : actOf (⟨o, r⟩ : Sigma (Op.Ret b)) = none := by
    cases o with
    | api o =>
        cases o with
        | routineAct => exact ho.elim
        | _ => rfl
    | _ => rfl
  rw [addAct, hnone]
  exact List.append_nil _

theorem unacted_of_inner {o : Op} (ho : Inner o) : Unacted o := by
  cases o with
  | api o =>
      cases o with
      | routineAct => exact ho.elim
      | _ => trivial
  | _ => trivial

section Unacted

variable {α : Type}

/-- A part that does nothing outside, then the rest. -/
theorem unacted_inner {β : Type} {p : Code b α} (hp : p.Only Inner) {f : α → Code b β}
    (hf : ∀ a, (f a).Only Unacted) : (p >>= f).Only Unacted :=
  (hp.mono fun _ => unacted_of_inner).bind hf

theorem unacted_eraseLoop (dwThread k i : Nat) :
    (eraseLoop dwThread k i : Code b Unit).Only Unacted := by
  induction k generalizing i with
  | zero => trivial
  | succ k ih =>
      refine Prog.only_op_bind.mpr ⟨trivial, fun e => ?_⟩
      split
      · exact ⟨trivial, fun _ => trivial⟩
      · exact ih (i + 1)

theorem unacted_clientIdLoop (dwThreadId k i : Nat) :
    (clientIdLoop dwThreadId k i : Code b _).Only Unacted := by
  induction k generalizing i with
  | zero => trivial
  | succ k ih =>
      refine Prog.only_op_bind.mpr ⟨trivial, fun e => ?_⟩
      split
      · exact ⟨trivial, fun _ => trivial⟩
      · exact ih (i + 1)

theorem unacted_lookup : (rtlSafeThreadServiceClientId : Code b _).Only Unacted := by
  refine Prog.only_op_bind.mpr ⟨trivial, fun dwThreadId => ?_⟩
  refine Prog.Only.bind (only_orElse (by simp) (by simp)) fun v => ?_
  split
  · trivial
  · refine Prog.only_op_bind.mpr ⟨trivial, fun _ => Prog.only_op_bind.mpr ⟨trivial, fun k => ?_⟩⟩
    exact (unacted_clientIdLoop ..).bind fun _ => ⟨trivial, fun _ => trivial⟩

theorem unacted_workerFinish (lpService : LPVOID) (dwThread : Nat) :
    (workerFinish lpService dwThread : Code b _).Only Unacted := by
  refine unacted_inner (by simp) fun n => ?_
  refine unacted_inner (by simp) fun r => ?_
  refine unacted_inner (by simp) fun _ => ?_
  refine unacted_inner (by simp) fun r => ?_
  refine unacted_inner (by simp) fun _ => ?_
  refine unacted_inner (by simp) fun r => ?_
  refine unacted_inner (by simp) fun lm => ?_
  refine unacted_inner (by simp) fun x => ?_
  refine unacted_inner (by simp) fun _ => ?_
  refine Prog.only_op_bind.mpr ⟨trivial, fun _ => Prog.only_op_bind.mpr ⟨trivial, fun k => ?_⟩⟩
  refine (unacted_eraseLoop ..).bind fun _ => Prog.only_op_bind.mpr ⟨trivial, fun _ => ?_⟩
  refine unacted_inner (by simp) fun _ => Prog.only_op_bind.mpr ⟨trivial, fun _ => ?_⟩
  refine unacted_inner (by simp) fun _ => Prog.only_op_bind.mpr ⟨trivial, fun _ => ?_⟩
  exact unacted_inner (by simp) fun _ => by simp

theorem unacted_workerThread (lpService : LPVOID) :
    (workerThread lpService : Code b _).Only Unacted := by
  refine Prog.only_op_bind.mpr ⟨trivial, fun _ => ?_⟩
  refine unacted_inner (by simp) fun r => ?_
  refine Prog.only_op_bind.mpr ⟨trivial, fun dwThread => ?_⟩
  refine Prog.only_op_bind.mpr ⟨trivial, fun _ => Prog.only_op_bind.mpr ⟨trivial, fun _ => ?_⟩⟩
  refine unacted_inner (by simp) fun _ => ?_
  refine unacted_inner (by simp) fun r => ?_
  refine unacted_inner (by simp) fun lpMappedParam => ?_
  split
  · exact unacted_inner (by simp) fun _ => unacted_workerFinish ..
  · refine unacted_inner (by simp) fun r => ?_
    exact unacted_inner (by simp) fun p => by simp

theorem unacted_workerReturn (lpService tmp : LPVOID) (dwThread : Nat) (status : NTSTATUS) :
    (workerReturn lpService tmp dwThread status : Code b _).Only Unacted := by
  refine unacted_inner (by simp) fun _ => ?_
  refine unacted_inner (by simp) fun r => ?_
  refine unacted_inner (by simp) fun synced => ?_
  split
  · exact unacted_inner (by simp) fun _ => unacted_workerFinish ..
  · refine unacted_inner (by simp) fun _ => ?_
    exact unacted_inner (by simp) fun _ => unacted_workerFinish ..

end Unacted

/-! ## The labels of a worker -/

/-- The client has its answer: one reply, with the status and the memory that the routine's
    acts lead to; the routine was called once, if its regions could be read. -/
def Answered (b : Build) (k : Nat) (vm : VirtualMemory) (lpRoutine : LPVOID)
    (p : ServiceRoutineParameter) (calls : List (LPVOID × List ULONG64))
    (replies : List (Nat → BYTE)) (acts : List RoutineAct) (byte : Nat → BYTE) : Prop :=
  ∃ reply status, replies = [reply]
    ∧ (readStatus k reply, byte) = answer vm (regions b p) acts status
    ∧ if (regions b p).all (CanRead vm) then returned acts = [status]
        ∧ ∃ args, calls = [(lpRoutine, args)] ∧ List.Forall₂ (Passed b) p.parameters args
      else acts = [] ∧ calls = []

/-- There is only one call and one reply. -/
theorem Answered.reverse {k : Nat} {vm : VirtualMemory} {lpRoutine : LPVOID}
    {p : ServiceRoutineParameter} {calls : List (LPVOID × List ULONG64)}
    {replies : List (Nat → BYTE)} {acts : List RoutineAct} {byte : Nat → BYTE}
    (h : Answered b k vm lpRoutine p calls replies acts byte) :
    Answered b k vm lpRoutine p calls.reverse replies.reverse acts byte := by
  obtain ⟨reply, status, rfl, hanswer, hcalled⟩ := h
  refine ⟨reply, status, rfl, hanswer, ?_⟩
  split
  · next hread =>
      rw [if_pos hread] at hcalled
      obtain ⟨hret, args, rfl, hargs⟩ := hcalled
      exact ⟨hret, args, rfl, hargs⟩
  · next hread =>
      rw [if_neg hread] at hcalled
      obtain ⟨rfl, rfl⟩ := hcalled
      exact ⟨rfl, rfl⟩

/-- The routine has been called with the mapping `q`, whose buffers hold the copies as it has
    edited them, and the client knows of nothing. -/
structure During (k : Nat) (vm : VirtualMemory) (r : ServiceRoutine)
    (p : ServiceRoutineParameter) (lpService tmp : LPVOID) (q : ServiceRoutineParameter)
    (x : Ghost b × List RoutineAct) : Prop where
  working : ∃ lm n, Working x.1 lpService r lm n (some p)
  mapping : MappedAt x.1 r tmp p q
  mapped  : List.Forall₂ (Mapped b) p.parameters q.parameters
  read    : (regions b p).all (CanRead vm) = true
  copies  : copies b x.1.own q = (edits x.2).foldl edit (fetch vm.byte (regions b p))
  calls   : x.1.calls = [(r.lpRoutine, arguments b q)]
  replies : x.1.replies = []
  client  : x.1.client = some (r.hClientProcess, vm)
  length  : x.1.length = some k

/-- What holds at the labels of a worker with the captured list `p`. -/
def At (k : Nat) (vm : VirtualMemory) (r : ServiceRoutine) (p : ServiceRoutineParameter) :
    Option Label → Ghost b × List RoutineAct → Prop
  | some (.workerThread lpService), x => (∃ lm n, Working x.1 lpService r lm n (some p))
      ∧ x.1.calls = [] ∧ x.1.replies = [] ∧ x.2 = []
      ∧ x.1.client = some (r.hClientProcess, vm) ∧ x.1.length = some k ∧ x.1.ample = true
  | some (.routine lpService tmp _ bufs), x => ∃ q,
      During k vm r (normalized b p) lpService tmp q x ∧ bufs = buffers b q ∧ returned x.2 = []
  | some (.workerReturn lpService tmp _ status), x => ∃ q,
      During k vm r (normalized b p) lpService tmp q x ∧ returned x.2 = [status]
  | some _, _ => False
  | none, x => (∃ vm', x.1.client = some (r.hClientProcess, vm')
        ∧ Answered b k vm r.lpRoutine (normalized b p) x.1.calls x.1.replies x.2 vm'.byte)
      ∧ ∀ reply ∈ x.1.replies, dataLength reply = 4

section Labels

variable {k : Nat} {vm : VirtualMemory} {r : ServiceRoutine} {p : ServiceRoutineParameter}
  {lpService tmp : LPVOID} {q : ServiceRoutineParameter} {g : Ghost b} {acts : List RoutineAct}

/-- What cannot be read is a region. -/
theorem all_canRead_eq_false {es : List ServiceParameterBlob}
    (h : ∃ e ∈ es, needsBuffer e = true ∧ Readable b vm e = false) :
    (regions b ⟨es⟩).all (CanRead vm) = false := by
  obtain ⟨e, he, hb, hr⟩ := h
  refine List.all_eq_false.mpr ⟨_, List.mem_map_of_mem (List.mem_filter.mpr ⟨he, hb⟩), ?_⟩
  exact Bool.eq_false_iff.mp hr

/-- There was no reply before. -/
theorem forall_reply {replies : List (Nat → BYTE)} {reply : Nat → BYTE} (h : replies = [])
    (hdata : dataLength reply = 4) : ∀ x ∈ reply :: replies, dataLength x = 4 := by
  subst h
  intro x hx
  obtain rfl := List.mem_singleton.mp hx
  exact hdata

/-- The mapping is made and the routine called, or the call is refused. -/
theorem at_workerThread (hk : 4 ≤ k) (h : At k vm r p (some (.workerThread lpService)) (g, acts)) :
    wp ((outline b).recording addAct) (workerThread lpService) (At k vm r p) (g, acts) := by
  obtain ⟨⟨lm, n, W⟩, hcalls, hreplies, hacts, hclient, hlength, hample⟩ := h
  refine recording_end addAct_unacted (unacted_workerThread lpService) (wp_workerThread W ?_ ?_)
  · rintro p' own q tmp dwThread hp' W' A hq hmaps
    obtain rfl := Option.some.inj hp'
    have hp₀ : (g.put r.lpParameters (some (.parameters (normalized b p)))).own
        r.lpParameters ≠ none := by
      rw [Ghost.put_own_self]
      exact Option.some_ne_none _
    have M := mappedAt_of_allocated (g := g) A hp₀ hq hmaps
    rw [hclient] at hmaps
    obtain ⟨hmapped, hcopies, hread⟩ := fetched_of_mapsTo hmaps
    refine ⟨q, ⟨⟨lm, n, W'.self, W'.stage, W'.routine, W'.message, W'.list, W'.client⟩,
      ⟨M.nonzero, M.list, M.apart, M.nodup, M.held, M.entries⟩, hmapped, hread, ?_,
      congrArg (_ :: ·) hcalls, hreplies, hclient, hlength⟩, rfl, ?_⟩
    · rw [show acts = [] from hacts]
      exact hcopies
    · rw [show acts = [] from hacts]
      rfl
  · intro p' own reply hp' hun hstatus
    obtain rfl := Option.some.inj hp'
    have hno : (regions b (normalized b p)).all (CanRead vm) = false :=
      all_canRead_eq_false (hun hample _ hclient)
    refine ⟨⟨vm, hclient, reply, 0, congrArg (reply :: ·) hreplies, ?_, ?_⟩, ?_⟩
    · rw [hstatus.status k hlength hk]
      exact (answer_refused hno).symm
    · rw [hno, if_neg Bool.false_ne_true]
      exact ⟨hacts, hcalls⟩
    · exact forall_reply hreplies hstatus.data

/-- An act that writes nothing. -/
theorem During.act {acts' : List RoutineAct} (D : During k vm r p lpService tmp q (g, acts))
    (h : edits acts' = edits acts) : During k vm r p lpService tmp q (g, acts') :=
  ⟨D.working, D.mapping, D.mapped, D.read, by rw [h]; exact D.copies, D.calls, D.replies,
    D.client, D.length⟩

/-- What an act adds. -/
theorem edits_addAct (acts : List RoutineAct) (act : RoutineAct) :
    edits (addAct acts (b := b) ⟨.api .routineAct, act⟩) = edits acts ++ (editOf act).toList := by
  rw [edits, addAct, List.filterMap_append]
  cases act <;> rfl

theorem returned_addAct (acts : List RoutineAct) (act : RoutineAct) :
    returned (addAct acts (b := b) ⟨.api .routineAct, act⟩)
      = returned acts ++ (statusOf act).toList := by
  rw [returned, addAct, List.filterMap_append]
  cases act <;> rfl

/-- The routine writes into its copies, looks up its client or returns. -/
theorem at_routine {dwThread : Nat} {bufs : List LPVOID}
    (h : At k vm r p (some (.routine lpService tmp dwThread bufs)) (g, acts)) :
    wp ((outline b).recording addAct) (routine lpService tmp dwThread bufs) (At k vm r p)
      (g, acts) := by
  obtain ⟨q, D, rfl, hret⟩ := h
  obtain ⟨lm, n, W⟩ := D.working
  unfold routine
  refine recording_op (wp_silent (by trivial) ?_)
  intro act
  have hedits := edits_addAct (b := b) acts act
  have hreturned := returned_addAct (b := b) acts act
  rw [show returned acts = [] from hret] at hreturned
  cases act with
  | write i j v =>
      refine recording_keep addAct_unacted
        ((inner_routineWrite (buffers b q) i j v).mono fun _ =>
          unacted_of_inner)
        (wp_routineWrite D.mapping.held W.self ?_ ?_)
      · intro hsame
        refine ⟨q, ⟨⟨lm, n, W⟩, D.mapping, D.mapped, D.read, ?_, D.calls, D.replies, D.client,
          D.length⟩, rfl, hreturned⟩
        rw [hedits, List.foldl_append, ← D.copies]
        exact copies_keep hsame D.mapping.held
      · intro a bytes ha hown _
        obtain ⟨h₁, h₂, h₃⟩ := W.ne_of_buffer hown
        refine ⟨q, ⟨⟨lm, n, W.put h₁ h₂ fun _ => h₃⟩, D.mapping.put_buffer hown _, D.mapped,
          D.read, ?_, D.calls, D.replies, D.client, D.length⟩, rfl, hreturned⟩
        rw [hedits, List.foldl_append, ← D.copies]
        exact copies_write D.mapping.nodup ha hown
  | clientId =>
      refine recording_end addAct_unacted (unacted_lookup.bind fun _ => by simp)
        (ignores.bind silent_lookup ?_)
      intro result
      refine wp_silent (by trivial) ?_
      intro _
      exact ⟨q, D.act (hedits.trans (List.append_nil _)), rfl, hreturned⟩
  | ret status => exact ⟨q, D.act (hedits.trans (List.append_nil _)), hreturned⟩

/-- What the routine left in the copies is written back. -/
theorem at_workerReturn {dwThread : Nat} {status : NTSTATUS} (hk : 4 ≤ k)
    (h : At k vm r p (some (.workerReturn lpService tmp dwThread status)) (g, acts)) :
    wp ((outline b).recording addAct) (workerReturn lpService tmp dwThread status) (At k vm r p)
      (g, acts) := by
  obtain ⟨q, D, hret⟩ := h
  obtain ⟨lm, n, W⟩ := D.working
  have hlen : (copies b g.own q).map List.length
      = (regions b (normalized b p)).map ValueResult.Region.length := by
    rw [show copies b g.own q = _ from D.copies]
    exact ValueResult.edits_fetch_lengths ..
  have hsync : syncWrites b g.own (normalized b p).parameters q.parameters
      = writes (regions b (normalized b p)) (copies b g.own q) := syncWrites_of_mapped D.mapped hlen
  rw [show copies b g.own q = _ from D.copies] at hsync
  have hpassed : ∃ args, g.calls = [(r.lpRoutine, args)]
      ∧ List.Forall₂ (Passed b) (normalized b p).parameters args :=
    ⟨_, D.calls, passed_of_mapped D.mapped⟩
  refine recording_end addAct_unacted (unacted_workerReturn ..) (wp_workerReturn W D.mapping ?_ ?_)
  · intro own reply hall hstatus
    rw [hsync] at hall ⊢
    refine ⟨⟨_, congrArg (written · _) D.client, reply, status, congrArg (reply :: ·) D.replies,
      ?_, ?_⟩, forall_reply D.replies hstatus.data⟩
    · rw [hstatus.status k D.length hk]
      exact (answer_written D.read (hall _ D.client)).symm
    · rw [D.read, if_pos rfl]
      exact ⟨hret, hpassed⟩
  · intro own reply ws _ hbad hstatus
    rw [hsync] at hbad
    obtain ⟨rfl, hbroken⟩ := hbad _ D.client
    refine ⟨⟨_, congrArg (written · _) D.client, reply, status, congrArg (reply :: ·) D.replies,
      ?_, ?_⟩, forall_reply D.replies hstatus.data⟩
    · rw [hstatus.status k D.length hk]
      exact (answer_broken D.read hbroken).symm
    · rw [D.read, if_pos rfl]
      exact ⟨hret, hpassed⟩

/-- Every label of a worker. -/
theorem at_code (hk : 4 ≤ k) {l : Label} {x : Ghost b × List RoutineAct}
    (h : At k vm r p (some l) x) :
    wp ((outline b).recording addAct) (code l) (At k vm r p) x := by
  obtain ⟨g, acts⟩ := x
  cases l with
  | workerThread lpService => exact at_workerThread hk h
  | routine lpService tmp dwThread bufs => exact at_routine h
  | workerReturn lpService tmp dwThread status => exact at_workerReturn hk h
  | _ => exact h.elim

end Labels

/-! ## Walks of a worker -/

/-- Thread `t` is about to start as the worker with the descriptor `r` at `lpService` and the
    captured list `p`: what it was given is its own. -/
structure Hired (w : World b) (t : Nat) (lpService : LPVOID) (r : ServiceRoutine)
    (p : ServiceRoutineParameter) : Prop where
  employed : Employed w.heap.cells lpService r p
  holder   : ∀ a ∈ [lpService, r.lm, r.lpParameters], w.heap.holder a = t
  nonzero  : (0 : LPVOID) ∉ [lpService, r.lm, r.lpParameters]

/-- What the worker knows at first. -/
def hired (w : World b) (pid : Nat) (lpService : LPVOID) (r : ServiceRoutine) : Ghost b :=
  { Ghost.blank .worker [] none with
    own := fun a => if a ∈ [lpService, r.lm, r.lpParameters] then w.heap.cells a else none
    client := some (r.hClientProcess, w.lpc.memory pid)
    length := some w.ids.systemLpcMessageLength
    ample := true }

section Walks

variable {t pid : Nat} {w w' : World b} {lpService : LPVOID} {r : ServiceRoutine}
  {p : ServiceRoutineParameter} {tr : Events b} {l : Option Label}

theorem Hired.sees (H : Hired w t lpService r p) :
    Sees t r.hClientProcess pid w [] (hired w pid lpService r) := by
  have hcell : ∀ {a x}, (hired w pid lpService r).own a = some x →
      w.heap.cells a = some x ∧ w.heap.holder a = t := by
    intro a x hx
    have hx : (if a ∈ [lpService, r.lm, r.lpParameters] then w.heap.cells a else none)
      = some x := hx
    split at hx
    · next ha => exact ⟨hx, H.holder a ha⟩
    · cases hx
  refine ⟨⟨rfl, rfl, rfl, rfl, rfl, rfl, rfl, rfl⟩, ⟨?_, ?_⟩, if_neg H.nonzero⟩
  all_goals
    intro u a x hx
    obtain rfl : u = t := by
      by_contra hu
      rw [only_ne hu] at hx
      cases hx
    rw [only_self] at hx
  · exact ⟨x, (hcell hx).1, rfl⟩
  · exact (hcell hx).2

theorem Hired.at (H : Hired w t lpService r p) :
    At w.ids.systemLpcMessageLength (w.lpc.memory pid) r p (some (.workerThread lpService))
      (hired w pid lpService r, []) := by
  obtain ⟨lm, n, hlm⟩ := H.employed.message
  refine ⟨⟨lm, n, rfl, rfl, ?_, ?_, ?_, ?_⟩, rfl, rfl, rfl, rfl, rfl, rfl⟩
  · exact (if_pos (by simp)).trans H.employed.routine
  · exact (if_pos (by simp)).trans hlm
  · exact (if_pos (by simp)).trans H.employed.list
  · intro x hx
    rw [← Option.some.inj hx]

/-- The acts that are recorded. -/
theorem foldl_addAct (tr : Events b) (acts : List RoutineAct) :
    tr.foldl addAct acts = acts ++ actsOf tr := by
  induction tr generalizing acts with
  | nil => exact (List.append_nil _).symm
  | cons e tr ih =>
      rw [List.foldl_cons, ih, addAct, List.append_assoc]
      refine congrArg (acts ++ ·) ?_
      show (actOf e).toList ++ tr.filterMap actOf = (e :: tr).filterMap actOf
      rw [List.filterMap_cons]
      cases actOf e <;> rfl

/-- Wherever the worker is, what holds at its label is what happened. -/
theorem Hired.walk (H : Hired w t lpService r p) (hk : 4 ≤ w.ids.systemLpcMessageLength)
    (hwalk : Walks code (Amid t r.hClientProcess pid) (some (.workerThread lpService)) w tr l w') :
    ∃ g, At w.ids.systemLpcMessageLength (w.lpc.memory pid) r p l (g, actsOf tr)
      ∧ Sees t r.hClientProcess pid w' tr g := by
  obtain ⟨⟨g, acts⟩, hat, hsees, hacts⟩ := walks_of_wp (O := (outline b).recording addAct)
    (F := fun w tr x => Sees t r.hClientProcess pid w tr x.1 ∧ x.2 = tr.foldl addAct [])
    (recording_step fun S hpre hx => S.step hpre hx) (fun _ _ => at_code hk) [] H.at
    ⟨H.sees, rfl⟩ hwalk
  rw [foldl_addAct] at hacts
  obtain rfl : acts = actsOf tr := hacts
  exact ⟨g, hat, hsees⟩

/-- **THE ANSWER** to a call is that of a call by value and result. -/
theorem worker_answers (H : Hired w t lpService r p) (hk : 4 ≤ w.ids.systemLpcMessageLength)
    (hwalk : Walks code (Amid t r.hClientProcess pid) (some (.workerThread lpService)) w tr none
      w') :
    Answered b w.ids.systemLpcMessageLength (w.lpc.memory pid) r.lpRoutine (normalized b p)
      (callsOf tr) (repliesOf tr) (actsOf tr) (w'.lpc.memory pid).byte := by
  obtain ⟨g, ⟨⟨vm', hclient, hanswered⟩, -⟩, S⟩ := H.walk hk hwalk
  obtain rfl : w'.lpc.memory pid = vm' :=
    (Prod.mk.inj (Option.some.inj (S.client.symm.trans hclient))).2
  rw [← S.calls, ← S.replies]
  exact hanswered.reverse

/-- The reply carries a status and nothing else. -/
theorem worker_reports (H : Hired w t lpService r p) (hk : 4 ≤ w.ids.systemLpcMessageLength)
    (hwalk : Walks code (Amid t r.hClientProcess pid) (some (.workerThread lpService)) w tr none
      w') : ∀ reply ∈ repliesOf tr, dataLength reply = 4 := by
  obtain ⟨g, ⟨-, hdata⟩, S⟩ := H.walk hk hwalk
  intro reply hreply
  rw [← S.replies, List.mem_reverse] at hreply
  exact hdata reply hreply

/-- **THE ROUTINE** works on copies: its pointers are those of buffers that hold what the
    client had, as it has edited them, and its client knows of nothing. -/
theorem routine_copies {tmp : LPVOID} {dwThread : Nat} {bufs : List LPVOID}
    (H : Hired w t lpService r p) (hk : 4 ≤ w.ids.systemLpcMessageLength)
    (hwalk : Walks code (Amid t r.hClientProcess pid) (some (.workerThread lpService)) w tr
      (some (.routine lpService tmp dwThread bufs)) w') :
    (∃ args, callsOf tr = [(r.lpRoutine, args)]
        ∧ List.Forall₂ (Passed b) (normalized b p).parameters args
        ∧ bufs = pointers (normalized b p) args)
      ∧ bufs.Nodup
      ∧ bufs.map (bufferAt w'.heap.cells) = (edits (actsOf tr)).foldl edit
          (fetch (w.lpc.memory pid).byte (regions b (normalized b p)))
      ∧ repliesOf tr = [] ∧ returned (actsOf tr) = []
      ∧ w'.lpc.memory pid = w.lpc.memory pid := by
  obtain ⟨g, ⟨q, D, rfl, hret⟩, S⟩ := H.walk hk hwalk
  have K := S.known (Nat.lt_succ_self t)
  refine ⟨⟨arguments b q, ?_, passed_of_mapped D.mapped, buffers_of_mapped D.mapped⟩,
    D.mapping.nodup, ?_, ?_, hret, ?_⟩
  · rw [← S.calls, show g.calls = _ from D.calls]
    rfl
  · rw [← show copies b g.own q = _ from D.copies, copies]
    refine List.map_congr_left ?_
    intro a ha
    obtain ⟨bytes, hown⟩ := D.mapping.held a ha
    have hown : g.own a = some (.buffer bytes) := hown
    have hcell := K.exact (t := t) (a := a) (x := .buffer bytes) (by rwa [only_self])
      (by exact Kind.noConfusion)
    rw [bufferAt, bufferAt, hcell, hown]
  · rw [← S.replies, show g.replies = [] from D.replies]
    rfl
  · exact (Prod.mk.inj (Option.some.inj (S.client.symm.trans D.client))).2

/-- **A LOCAL CALL**: where the regions can be read and written, lie apart and are not null, the
    client gets what the routine returned, and the memory is as if the routine had written
    through the client's own pointers. -/
theorem worker_answers_local (H : Hired w t lpService r p)
    (hk : 4 ≤ w.ids.systemLpcMessageLength)
    (hwalk : Walks code (Amid t r.hClientProcess pid) (some (.workerThread lpService)) w tr none
      w')
    (hback : ∀ x ∈ regions b (normalized b p), x.back = true)
    (hapart : (regions b (normalized b p)).Pairwise ValueResult.Apart)
    (hread : ∀ x ∈ regions b (normalized b p),
      Lpc.accessible (w.lpc.memory pid).readable x.address x.length = true)
    (hwrite : ∀ x ∈ regions b (normalized b p),
      Lpc.accessible (w.lpc.memory pid).writable x.address x.length = true) :
    ∃ reply status, repliesOf tr = [reply] ∧ returned (actsOf tr) = [status]
      ∧ readStatus w.ids.systemLpcMessageLength reply = status
      ∧ (w'.lpc.memory pid).byte = byReference (w.lpc.memory pid).byte
          (regions b (normalized b p)) (edits (actsOf tr)) := by
  obtain ⟨reply, status, hreply, hanswer, hcalled⟩ := worker_answers H hk hwalk
  have hall : (regions b (normalized b p)).all (CanRead (w.lpc.memory pid)) = true :=
    List.all_eq_true.mpr hread
  rw [if_pos hall] at hcalled
  rw [answer_written hall, ValueResult.valueResult_eq_byReference hback hapart] at hanswer
  · exact ⟨reply, status, hreply, hcalled.1, (Prod.mk.inj hanswer).1, (Prod.mk.inj hanswer).2⟩
  · intro x hx
    obtain ⟨y, hy, -, h₁, h₂⟩ :=
      ValueResult.mem_writes (ValueResult.edits_fetch_lengths ..) hx
    rw [Writable, h₁, h₂]
    exact hwrite y hy

end Walks

/-! ## A call with two pointers -/

instance (h : HANDLE) (pid : Nat) (w : World b) : (o : Op) → (r : Op.Ret b o) →
    Decidable (Faithful h pid w o r)
  | .heap (.allocNothrow ..), a => inferInstanceAs (Decidable (a ≠ (0 : LPVOID)))
  | .kernel (.ntReadVirtualMemory h' a n), r =>
      inferInstanceAs (Decidable (h' = h → w.lpc.processOf h = some pid
        ∧ ntSuccess r.1 = Lpc.accessible (w.lpc.memory pid).readable a n))
  | .kernel (.ntWriteVirtualMemory h' a bytes), r =>
      inferInstanceAs (Decidable (h' = h → w.lpc.processOf h = some pid
        ∧ ntSuccess r = Lpc.accessible (w.lpc.memory pid).writable a bytes.length))
  | .api (.storeOwn ..), _ => inferInstanceAs (Decidable (w.lpc.self ≠ pid))
  | .heap (.alloc ..), _ | .heap (.load ..), _ | .heap (.store ..), _ | .heap (.free _), _
  | .kernel (.ntCreatePort ..), _ | .kernel (.ntListenPort _), _ | .kernel (.openProcess _), _
  | .kernel (.ntAcceptConnectPort ..), _ | .kernel (.ntCompleteConnectPort _), _
  | .kernel (.ntReplyWaitReceivePort _), _ | .kernel (.ntReplyWaitReplyPort ..), _
  | .kernel (.ntClose _), _ | .kernel (.getProcessId _), _ | .kernel (.ntConnectPort ..), _
  | .kernel (.ntRequestWaitReplyPort ..), _ | .kernel (.ntReplyPort ..), _ | .id _, _
  | .api .sleep, _ | .api (.isBadReadPtr ..), _ | .api (.isBadWritePtr ..), _
  | .api (.loadOwn ..), _ | .api (.rtlCreateUnicodeString _), _
  | .api (.rtlFreeUnicodeString _), _ | .api .routineAct, _ | .api (.note _), _
  | .loadCloseEvent _, _ | .setCloseEvent _, _ | .createThread _, _ => isTrue trivial

/-- Carry out a program of a worker that nobody disturbs, with the choices of a list. -/
def attend {α : Type} (t : Nat) (h : HANDLE) (pid : Nat) :
    Code b α → List (Choice b) → World b → Option (Events b × α × World b)
  | .ret a, _, w => some ([], a, w)
  | .call o k, c :: cs, w =>
      (exec t (t + 1) o c w).bind fun x =>
        if Faithful h pid w o x.1 ∧ HarmlessAt w o then
          (attend t h pid (k x.1) cs x.2.1).map fun y => (⟨o, x.1⟩ :: y.1, y.2)
        else none
  | .call _ _, [], _ => none

/-- Carry out its labels. -/
def attendAll (t : Nat) (h : HANDLE) (pid : Nat) :
    List (List (Choice b)) → Option Label → World b → Option (Events b × Option Label × World b)
  | [], l, w => some ([], l, w)
  | cs :: css, some l, w =>
      (attend t h pid (code l) cs w).bind fun x =>
        (attendAll t h pid css x.2.1 x.2.2).map fun y => (x.1 ++ y.1, y.2)
  | _ :: _, none, _ => none

section Attend

variable {t pid : Nat} {h : HANDLE} {w w' : World b} {tr : Events b}

theorem attend_runs {α : Type} {p : Code b α} {cs : List (Choice b)} {a : α}
    (hx : attend t h pid p cs w = some (tr, a, w')) : p.Runs (Amid t h pid) w tr a w' := by
  induction p generalizing cs w tr with
  | ret a =>
      obtain ⟨rfl, he⟩ := Prod.mk.inj (Option.some.inj hx)
      obtain ⟨rfl, rfl⟩ := Prod.mk.inj he
      exact .ret ..
  | call o k ih =>
      cases cs with
      | nil => cases hx
      | cons c cs =>
          obtain ⟨⟨r, w₁, sp⟩, hexec, hx⟩ := Option.bind_eq_some_iff.mp hx
          split at hx
          · next hok =>
              obtain ⟨⟨tr', a', w₂⟩, hr, he⟩ := Option.map_eq_some_iff.mp hx
              obtain ⟨rfl, he'⟩ := Prod.mk.inj he
              obtain ⟨rfl, rfl⟩ := Prod.mk.inj he'
              exact .call ⟨t + 1, w, t.lt_succ_self, .refl t pid w, ⟨c, sp, hexec⟩, hok⟩ (ih r hr)
          · cases hx

theorem attendAll_walks {css : List (List (Choice b))} {l l' : Option Label}
    (hx : attendAll t h pid css l w = some (tr, l', w')) :
    Walks code (Amid t h pid) l w tr l' w' := by
  induction css generalizing l w tr with
  | nil =>
      obtain ⟨rfl, he⟩ := Prod.mk.inj (Option.some.inj hx)
      obtain ⟨rfl, rfl⟩ := Prod.mk.inj he
      exact .refl ..
  | cons cs css ih =>
      cases l with
      | none => cases hx
      | some l =>
          obtain ⟨⟨tr₁, l₁, w₁⟩, hrun, hx⟩ := Option.bind_eq_some_iff.mp hx
          obtain ⟨⟨tr₂, l₂, w₂⟩, hrest, he⟩ := Option.map_eq_some_iff.mp hx
          cases he
          exact .step (attend_runs hrun) (ih hrest)

end Attend

/-- A pointer to two bytes at 100 and one to a byte at 200. -/
def twoPointers : ServiceRoutineParameter := ⟨[⟨0x40, 2, 100⟩, ⟨0x40, 1, 200⟩]⟩

/-- A worker with this list, and the server port of its client open at handle 8. -/
def hiredTwo : World .x64 :=
  let w := employee .x64 twoPointers
  { w with lpc := w.lpc.opened 8 (.communicationPort 0 ⟨7, 7⟩) }

theorem hired_two : Hired hiredTwo 0 16 { ServiceRoutine.new 12 1000 0 with
    hServerPort := 8, hClientProcess := 4, lm := 32, lpParameters := 48 } twoPointers where
  employed := employed_employee .x64 twoPointers
  holder _ _ := rfl
  nonzero := by decide

/-- Up to the routine, which sets the second byte of the first region to 5. -/
def servesTwo : List (List (Choice .x64)) :=
  [List.replicate 7 .ok ++ .fresh 64 (.parameters ⟨[⟨0, 0, 0⟩, ⟨0, 0, 0⟩]⟩) ::
      [.ok, .ok, .ok, .fresh 80 (.buffer [0, 0])] ++ List.replicate 7 .ok
      ++ .fresh 96 (.buffer [0]) :: List.replicate 7 .ok,
    [.act (.write 0 1 5), .ok, .ok]]

/-- The routine returns, and everything succeeds. -/
def endsTwo : List (List (Choice .x64)) :=
  [[.act (.ret STATUS_SUCCESS)],
    List.replicate 29 .ok ++ .reply STATUS_SUCCESS none :: List.replicate 13 .ok]

/-- What was edited, as numbers. -/
def editNumbers (acts : List RoutineAct) : List (Nat × Nat × BYTE) :=
  (edits acts).map fun e => (e.index, e.offset, e.value)

theorem edits_of_numbers {acts : List RoutineAct} {i k : Nat} {v : BYTE}
    (h : editNumbers acts = [(i, k, v)]) : edits acts = [⟨i, k, v⟩] := by
  obtain ⟨⟨j, k', v'⟩, he, hx⟩ := List.map_eq_singleton_iff.mp h
  cases hx
  exact he

/-- Its regions lie apart. -/
theorem regions_two : (regions .x64 twoPointers).Pairwise ValueResult.Apart :=
  List.pairwise_pair.mpr (ValueResult.apart_of_le (by decide))

theorem two_performed : ∃ (tr : Events .x64) (w' : World .x64),
    Walks code (Amid 0 4 7) (some (.workerThread 16)) hiredTwo tr none w'
      ∧ edits (actsOf tr) = [⟨0, 1, 5⟩] := by
  have hrun : (attendAll 0 4 7 (servesTwo ++ endsTwo) (some (.workerThread 16)) hiredTwo).map
      (fun x => (x.2.1.isSome, editNumbers (actsOf x.1))) = some (false, [(0, 1, 5)]) := by
    decide +kernel
  obtain ⟨⟨tr, l, w'⟩, hrun, he⟩ := Option.map_eq_some_iff.mp hrun
  obtain ⟨hl, hedits⟩ := Prod.mk.inj he
  obtain rfl : l = none := by simpa using hl
  exact ⟨tr, w', attendAll_walks hrun, edits_of_numbers hedits⟩

/-- The routine of a worker that is at it. -/
def routineOf : Option Label → Option (LPVOID × LPVOID × Nat × List LPVOID)
  | some (.routine lpService tmp dwThread bufs) => some (lpService, tmp, dwThread, bufs)
  | _ => none

theorem routineOf_eq_some {l : Option Label} {lpService tmp : LPVOID} {dwThread : Nat}
    {bufs : List LPVOID} (h : routineOf l = some (lpService, tmp, dwThread, bufs)) :
    l = some (.routine lpService tmp dwThread bufs) := by
  unfold routineOf at h
  split at h
  · cases h
    rfl
  · cases h

/-- What `worker_answers` says of this call. -/
theorem worker_answers_two : ∃ (tr : Events .x64) (w' : World .x64),
    Walks code (Amid 0 4 7) (some (.workerThread 16)) hiredTwo tr none w'
      ∧ edits (actsOf tr) = [⟨0, 1, 5⟩]
      ∧ Answered .x64 40 (hiredTwo.lpc.memory 7) 1000 twoPointers (callsOf tr) (repliesOf tr)
        (actsOf tr) (w'.lpc.memory 7).byte := by
  obtain ⟨tr, w', hwalk, hedits⟩ := two_performed
  exact ⟨tr, w', hwalk, hedits, worker_answers hired_two (by decide) hwalk⟩

/-- The buffers of this call lie at 80 and 96. -/
theorem routine_copies_two : ∃ (tr : Events .x64) (w' : World .x64),
    Walks code (Amid 0 4 7) (some (.workerThread 16)) hiredTwo tr
        (some (.routine 16 64 0 [80, 96])) w'
      ∧ [80, 96].map (bufferAt w'.heap.cells) = [[0, 5], [0]] := by
  have hrun : (attendAll 0 4 7 servesTwo (some (.workerThread 16)) hiredTwo).map
      (fun x => (decide (routineOf x.2.1 = some (16, 64, 0, [80, 96])), editNumbers (actsOf x.1)))
      = some (true, [(0, 1, 5)]) := by decide +kernel
  obtain ⟨⟨tr, l, w'⟩, hrun, he⟩ := Option.map_eq_some_iff.mp hrun
  obtain ⟨hl, hedits⟩ := Prod.mk.inj he
  obtain rfl := routineOf_eq_some (of_decide_eq_true hl)
  have hwalk := attendAll_walks hrun
  refine ⟨tr, w', hwalk, ?_⟩
  rw [(routine_copies hired_two (by decide) hwalk).2.2.1, edits_of_numbers hedits]
  rfl

/-- The byte is in the client's memory. -/
theorem worker_answers_local_two : ∃ (tr : Events .x64) (w' : World .x64),
    Walks code (Amid 0 4 7) (some (.workerThread 16)) hiredTwo tr none w'
      ∧ (w'.lpc.memory 7).byte 101 = 5 := by
  obtain ⟨tr, w', hwalk, hedits⟩ := two_performed
  obtain ⟨-, -, -, -, -, hbyte⟩ := worker_answers_local hired_two (by decide) hwalk
    (by decide) regions_two (by decide) (by decide)
  refine ⟨tr, w', hwalk, ?_⟩
  rw [hbyte, hedits]
  rfl

end ScAnswer
