import ServiceCall.RegisterProofs

/-! # The name of a port

    `ScRegisterServiceRoutineW` and `ScServiceCallW` build the name of a port in a
    `UNICODE_STRING` on their stack.  Whether `RtlCreateUnicodeString` succeeded
    neither of them asks: the string is named to the kernel and freed all the same.

    `Strings` is what became of the strings of a run, and `spell` the outline that
    follows it, whatever other threads do meanwhile. -/

namespace ScString

open LinearMemory OwnedHeap OpProg ThreadSys ScParameter LpcMessage ScSystem
  ScServiceCall ScSequential

variable {b : Build}

/-! ## The strings of a run -/

/-- The strings that `RtlCreateUnicodeString` left, those that named a port, and those
    that were freed. -/
structure Strings where
  made  : List UnicodeString
  named : List UnicodeString
  freed : List UnicodeString
deriving DecidableEq

namespace Strings

def empty : Strings := ⟨[], [], []⟩

/-- One more event. -/
def add (S : Strings) : Sigma (Op.Ret b) → Strings
  | ⟨.api (.rtlCreateUnicodeString _), us⟩ => { S with made := S.made ++ [us] }
  | ⟨.api (.rtlFreeUnicodeString us), _⟩ => { S with freed := S.freed ++ [us] }
  | ⟨.kernel (.ntCreatePort us ..), _⟩ => { S with named := S.named ++ [us] }
  | ⟨.kernel (.ntConnectPort us _), _⟩ => { S with named := S.named ++ [us] }
  | _ => S

end Strings

/-- The strings of a run. -/
def stringsOf (tr : Events b) : Strings := tr.foldl Strings.add .empty

/-- What `RtlCreateUnicodeString` leaves for a name: nothing, or a string that says it,
    when the name with its terminator has at most `0xFFFE` bytes. -/
def Left (name : List WCHAR) (us : UnicodeString) : Prop :=
  us = none ∨ (∃ i, us = some (i, name)) ∧ 2 * (name.length + 1) ≤ 0xFFFE

/-- What is known of the value of an operation. -/
def Leaves : (o : Op) → Op.Ret b o → Prop
  | .api (.rtlCreateUnicodeString name), us => Left name us
  | _, _ => True

/-- An operation of thread `t` after the other threads did whatever they do. -/
def Among (t : Nat) (o : Op) (_ : World b) (r : Op.Ret b o) (w' : World b) : Prop :=
  ∃ n w₁, Alone t n o w₁ r w'

/-- Every value is as it is documented. -/
theorem leaves_of_alone {t n : Nat} {o : Op} {w w' : World b} {r : Op.Ret b o}
    (h : Alone t n o w r w') : Leaves o r := by
  obtain ⟨c, sp, hx⟩ := h
  cases o with
  | api o =>
      cases o with
      | rtlCreateUnicodeString name =>
          obtain ⟨⟨us, s, k⟩, hy, he⟩ := Option.map_eq_some_iff.mp hx
          obtain ⟨rfl, -⟩ := Prod.mk.inj he
          cases c with
          | ok =>
              simp only [Api.exec] at hy
              split at hy
              · next hlen =>
                  obtain ⟨rfl, -⟩ := Prod.mk.inj (Option.some.inj hy)
                  exact Or.inr ⟨⟨_, rfl⟩, hlen⟩
              · cases hy
          | fail st =>
              obtain ⟨rfl, -⟩ := Prod.mk.inj (Option.some.inj hy)
              exact Or.inl rfl
          | _ => cases hy
      | _ => trivial
  | _ => trivial

theorem leaves_of_among {t : Nat} {o : Op} {w w' : World b} {r : Op.Ret b o}
    (h : Among t o w r w') : Leaves o r := by
  obtain ⟨n, w₁, h⟩ := h
  exact leaves_of_alone h

/-! ## The outline -/

/-- The outline that follows the strings. -/
def spell : Outline Op (Op.Ret b) Strings where
  pre _ _ := True
  post o S r S' := Leaves o r ∧ S' = S.add ⟨o, r⟩

/-- **THE STRINGS OF A RUN** are what the outline says. -/
theorem spell_sound {α : Type} {R : (o : Op) → World b → Op.Ret b o → World b → Prop}
    (hR : ∀ o w r w', R o w r w' → Leaves o r) {p : Code b α} {Q : α → Strings → Prop}
    {w w' : World b} {tr : Events b} {a : α} (h : wp spell p Q .empty)
    (hr : p.Runs R w tr a w') : Q a (stringsOf tr) := by
  have h : wp (.record (fun e : Sigma (Op.Ret b) => Leaves e.1 e.2) Strings.add) p Q .empty := h
  exact record_sound (hR _ _ _ _) h hr

/-- The operations that have nothing to do with strings. -/
@[simp] def Nameless : Op → Prop
  | .api (.rtlCreateUnicodeString _) => False
  | .api (.rtlFreeUnicodeString _) => False
  | .kernel (.ntCreatePort ..) => False
  | .kernel (.ntConnectPort ..) => False
  | _ => True

theorem spell_nameless : Ignores (spell (b := b)) Nameless := by
  refine ⟨fun _ _ => trivial, ?_⟩
  rintro o S r S' ho ⟨-, rfl⟩
  cases o with
  | kernel o => cases o <;> first | rfl | exact ho.elim
  | api o => cases o <;> first | rfl | exact ho.elim
  | _ => rfl

section Operations

variable {α : Type} {Q : α → Strings → Prop} {S : Strings}

theorem spell_create {name : List WCHAR} {f : UnicodeString → Code b α}
    (hf : ∀ us, Left name us → wp spell (f us) Q { S with made := S.made ++ [us] }) :
    wp spell (rtlCreateUnicodeString name >>= f) Q S := by
  refine wp_op_bind.mpr ⟨trivial, ?_⟩
  rintro us _ ⟨hus, rfl⟩
  exact hf us hus

theorem spell_free {us : UnicodeString} {f : Unit → Code b α}
    (hf : wp spell (f ()) Q { S with freed := S.freed ++ [us] }) :
    wp spell (rtlFreeUnicodeString us >>= f) Q S := by
  refine wp_op_bind.mpr ⟨trivial, ?_⟩
  rintro _ _ ⟨-, rfl⟩
  exact hf

theorem spell_createPort {us : UnicodeString} {m₁ m₂ : Nat} {f : NTSTATUS × HANDLE → Code b α}
    (hf : ∀ x, wp spell (f x) Q { S with named := S.named ++ [us] }) :
    wp spell (ntCreatePort us m₁ m₂ >>= f) Q S := by
  refine wp_op_bind.mpr ⟨trivial, ?_⟩
  rintro x _ ⟨-, rfl⟩
  exact hf x

theorem spell_connectPort {us : UnicodeString} {info : List BYTE}
    {f : NTSTATUS × HANDLE × Nat → Code b α}
    (hf : ∀ x, wp spell (f x) Q { S with named := S.named ++ [us] }) :
    wp spell (ntConnectPort us info >>= f) Q S := by
  refine wp_op_bind.mpr ⟨trivial, ?_⟩
  rintro x _ ⟨-, rfl⟩
  exact hf x

end Operations

/-! ## Code without strings -/

section Nameless

theorem nameless_of_onBlocks {α : Type} {p : Code b α} (hp : p.Only OnBlocks) :
    p.Only Nameless := by
  refine hp.mono fun o ho => ?_
  cases o with
  | heap o => trivial
  | api o => cases o <;> trivial
  | _ => exact ho.elim

theorem nameless_of_fetches {α : Type} {p : Code b α} (hp : p.Only Fetches) : p.Only Nameless :=
  nameless_of_onBlocks (hp.mono fun _ => Fetches.onBlocks)

theorem nameless_notInitialized : (notInitialized : Code b Bool).Only Nameless := by
  refine only_orElse ?_ ?_ <;> simp

theorem nameless_registerProbe (hServiceRoutine lpServiceRoutine lpParameters : LPVOID)
    (name : Option (List WCHAR)) :
    (registerProbe hServiceRoutine lpServiceRoutine lpParameters name
      : Code b Bool).Only Nameless := by
  refine only_orElse (by simp) (only_orElse (by simp) (only_orElse (by simp)
    (only_orElse ?_ trivial)))
  exact (nameless_of_fetches (fetches_readCount _)).bind fun _ => by simp

theorem nameless_storeStatus (lm lpServiceStatus : LPVOID) :
    (storeStatus lm lpServiceStatus : Code b Unit).Only Nameless := by
  refine (only_orElse (by simp) (by simp)).bind ?_
  intro none
  split
  · trivial
  · simp [loadMessage]

theorem nameless_requestEnd (h : HANDLE) (lm : LPVOID) (status : NTSTATUS) :
    (requestEnd h lm status : Code b NTSTATUS).Only Nameless := by
  simp [requestEnd, modifyMessage, loadMessage]

theorem nameless_ensureMessageLength : (ensureMessageLength : Code b Unit).Only Nameless := by
  refine Prog.only_op_bind.mpr ⟨trivial, ?_⟩
  intro r
  split <;> simp

theorem nameless_serviceRequest (h : HANDLE) (len : Nat) (lpServiceStatus : LPVOID) :
    (serviceRequest h len lpServiceStatus : Code b NTSTATUS).Only Nameless := by
  refine Prog.only_op_bind.mpr ⟨trivial, ?_⟩
  intro lm
  refine (only_modifyMessage.mpr ⟨trivial, fun _ => trivial⟩).bind fun _ => ?_
  refine (only_modifyMessage.mpr ⟨trivial, fun _ => trivial⟩).bind fun _ => ?_
  refine Prog.Only.bind (by simp [loadMessage]) ?_
  intro m
  refine Prog.only_op_bind.mpr ⟨trivial, ?_⟩
  intro x
  refine (nameless_of_onBlocks (onBlocks_receiveInto lm x)).bind ?_
  intro status
  split
  · exact nameless_ensureMessageLength.bind fun _ =>
      (nameless_storeStatus ..).bind fun _ => nameless_requestEnd ..
  · exact nameless_requestEnd ..

end Nameless

/-! ## The functions that take a name -/

/-- The functions that take the name of a service. -/
inductive TakesName (name : Option (List WCHAR)) : Code b NTSTATUS → Prop where
  | register (hServiceRoutine lpServiceRoutine lpParameters : LPVOID) :
      TakesName name (scRegisterServiceRoutineW hServiceRoutine lpServiceRoutine lpParameters name)
  | call (lpParameters lpServiceStatus : LPVOID) :
      TakesName name (scServiceCallW name lpParameters lpServiceStatus)

/-- The name of the port of a service. -/
def portName (name : Option (List WCHAR)) : List WCHAR := rpcControl ++ name.getD []

/-- One string at most, made for this name, which names a port at most once and is freed
    once. -/
inductive OneString (name : List WCHAR) : Strings → Prop where
  | unused : OneString name .empty
  | used {us : UnicodeString} {named : List UnicodeString} (hus : Left name us)
      (hnamed : named = [] ∨ named = [us]) : OneString name ⟨[us], named, [us]⟩

section Functions

variable {name : Option (List WCHAR)}

theorem spell_register (hServiceRoutine lpServiceRoutine lpParameters : LPVOID) :
    wp spell (scRegisterServiceRoutineW hServiceRoutine lpServiceRoutine lpParameters name
      : Code b NTSTATUS) (fun _ => OneString (portName name)) .empty := by
  refine spell_nameless.bind nameless_notInitialized ?_
  intro no
  split
  · exact .unused
  refine spell_nameless.bind (nameless_registerProbe ..) ?_
  intro bad
  split
  · exact .unused
  refine spell_create ?_
  intro us hus
  refine spell_nameless.bind (by simp) ?_
  intro _
  refine spell_nameless.bind (nameless_of_onBlocks (onBlocks_rtlCaptureParameters _)) ?_
  intro lpCapturedParameters
  split
  · exact spell_free (.used hus (Or.inl rfl))
  refine spell_createPort ?_
  intro x
  split
  · refine spell_free ?_
    refine spell_nameless.bind (by simp [newRoutine]) ?_
    intro hResult
    refine spell_nameless.bind (by simp) ?_
    intro h
    split
    · refine spell_nameless.bind (by simp) fun _ => spell_nameless.bind (by simp) fun _ =>
        spell_nameless.bind (by simp) fun _ => ?_
      exact .used hus (Or.inr rfl)
    · refine spell_nameless.bind (by simp) fun _ => ?_
      exact .used hus (Or.inr rfl)
  · refine spell_nameless.bind (by simp) fun _ => ?_
    exact spell_free (.used hus (Or.inr rfl))

theorem spell_call (lpParameters lpServiceStatus : LPVOID) :
    wp spell (scServiceCallW name lpParameters lpServiceStatus : Code b NTSTATUS)
      (fun _ => OneString (portName name)) .empty := by
  refine spell_nameless.bind ?_ ?_
  · refine only_orElse (by simp) (only_orElse ?_ trivial)
    exact (nameless_of_fetches (fetches_readCount _)).bind fun _ => by simp
  intro bad
  split
  · exact .unused
  refine spell_nameless.bind (nameless_of_fetches (fetches_readCount _)) ?_
  intro n
  refine spell_create ?_
  intro us hus
  refine spell_nameless.bind (nameless_of_fetches (fetches_nullLoop ..)) ?_
  intro ok
  split
  · refine spell_nameless.bind (nameless_of_onBlocks (onBlocks_rtlCaptureParameters _)) ?_
    intro lpCapture
    split
    · exact spell_free (.used hus (Or.inl rfl))
    refine spell_nameless.bind (by simp) fun _ => spell_nameless.bind (by simp) fun _ => ?_
    refine spell_connectPort ?_
    intro x
    refine spell_free ?_
    have hused : OneString (portName name) ⟨[us], [us], [us]⟩ := .used hus (Or.inr rfl)
    split
    · exact wp_of_only (nameless_serviceRequest ..) (fun _ ho => spell_nameless.pre _ ho)
        (fun _ _ _ ho => spell_nameless.post ho) fun _ => hused
    · split
      · exact hused
      · split <;> exact hused
  · exact spell_free (.used hus (Or.inl rfl))

/-- **ONE STRING** at most is made in a run, and freed once. -/
theorem oneString {R : (o : Op) → World b → Op.Ret b o → World b → Prop}
    (hR : ∀ o w r w', R o w r w' → Leaves o r) {f : Code b NTSTATUS} (hf : TakesName name f)
    {w w' : World b} {tr : Events b} {status : NTSTATUS} (hrun : f.Runs R w tr status w') :
    OneString (portName name) (stringsOf tr) := by
  cases hf with
  | register h r p =>
      exact spell_sound (Q := fun _ => OneString (portName name)) hR (spell_register h r p) hrun
  | call p s =>
      exact spell_sound (Q := fun _ => OneString (portName name)) hR (spell_call p s) hrun

end Functions

/-! ## Strings that were never initialised -/

/-- Every string that was used had been initialised, and ports were named exactly so. -/
structure Spelled (name : List WCHAR) (S : Strings) : Prop where
  initialized : ∀ us ∈ S.named ++ S.freed, us ≠ none
  exact       : ∀ us ∈ S.named, ∃ i, us = some (i, name)

theorem OneString.spelled_iff {name : List WCHAR} {S : Strings} (h : OneString name S) :
    Spelled name S ↔ none ∉ S.made := by
  cases h with
  | unused =>
      refine ⟨fun _ => List.not_mem_nil, fun _ => ?_⟩
      constructor <;> simp [Strings.empty]
  | @used us named hus hnamed =>
      constructor
      · intro H hmem
        -- it is freed in any case
        refine H.initialized us (List.mem_append_right _ (List.mem_singleton_self us)) ?_
        exact (List.mem_singleton.mp hmem).symm
      · intro hmade
        have hne : us ≠ none := fun h => hmade (List.mem_singleton.mpr h.symm)
        have huses : ∀ x ∈ named, x = us := by
          rcases hnamed with rfl | rfl <;> simp
        obtain ⟨hname, -⟩ := hus.resolve_left hne
        constructor
        · intro x hx
          rcases List.mem_append.mp hx with hx | hx
          · rw [huses x hx]
            exact hne
          · rw [List.mem_singleton.mp hx]
            exact hne
        · intro x hx
          rw [huses x hx]
          exact hname

/-- What was made is freed. -/
theorem OneString.freed {name : List WCHAR} {S : Strings} (h : OneString name S) :
    S.freed = S.made := by
  cases h with
  | unused => rfl
  | used => rfl

/-- No string is made for a name that is too long. -/
theorem OneString.too_long {name : List WCHAR} {S : Strings} (h : OneString name S)
    (hlong : 0xFFFE < 2 * (name.length + 1)) : ∀ us ∈ S.made, us = none := by
  cases h with
  | unused => simp [Strings.empty]
  | @used us named hus _ =>
      intro x hx
      rw [List.mem_singleton.mp hx]
      rcases hus with rfl | ⟨-, hle⟩
      · rfl
      · omega

/-- **STRINGS ARE INITIALISED** where they are used, and ports named exactly after the service,
    in the runs in which `RtlCreateUnicodeString` succeeds when it is called, and in no others;
    for a name of more than `0xFFFE` bytes it does not succeed. -/
theorem names_initialized {name : Option (List WCHAR)} {f : Code b NTSTATUS}
    (hf : TakesName name f) {t : Nat} {w w' : World b} {tr : Events b} {status : NTSTATUS}
    (hrun : f.Runs (Among t) w tr status w') :
    (Spelled (portName name) (stringsOf tr) ↔ none ∉ (stringsOf tr).made)
      ∧ (0xFFFE < 2 * ((portName name).length + 1) → ∀ us ∈ (stringsOf tr).made, us = none) := by
  have h := oneString (fun _ _ _ _ => leaves_of_among) hf hrun
  exact ⟨h.spelled_iff, h.too_long⟩

theorem among_of_alone {t n : Nat} {o : Op} {w w' : World b} {r : Op.Ret b o}
    (h : Alone t n o w r w') : Among t o w r w' := ⟨n, w, h⟩

/-- A registration that goes well, but for its string. -/
def registersNamed (create : Choice .x64) : List (Choice .x64) :=
  List.replicate 7 .ok ++ create :: (registers .x64 1).drop 8

/-- The name of the service of the two example programs. -/
def bsQuerySystemInformation : List WCHAR :=
  "BsQuerySystemInformation".toList.map fun c => UInt16.ofNat c.toNat

/-- The service of the example is registered: its port is named after the string that was
    made, and the string is freed. -/
theorem names_initialized_example :
    ∃ (tr : Events .x64) (w' : World .x64),
      (scRegisterServiceRoutineW 8192 4096 4096 (some bsQuerySystemInformation)
        : Code .x64 NTSTATUS).Runs (Among 0) (registrar .x64 1) tr STATUS_SUCCESS w'
      ∧ (stringsOf tr).named = [some (0, rpcControl ++ bsQuerySystemInformation)]
      ∧ Spelled (portName (some bsQuerySystemInformation)) (stringsOf tr) := by
  have hrun : (perform 0 1 (scRegisterServiceRoutineW 8192 4096 4096
      (some bsQuerySystemInformation)) (registersNamed .ok) (registrar .x64 1)).map
        (fun x => (x.2.1, stringsOf x.1))
      = some (STATUS_SUCCESS, ⟨[some (0, rpcControl ++ bsQuerySystemInformation)],
        [some (0, rpcControl ++ bsQuerySystemInformation)],
        [some (0, rpcControl ++ bsQuerySystemInformation)]⟩) := by decide +kernel
  obtain ⟨⟨tr, status, w'⟩, hrun, he⟩ := Option.map_eq_some_iff.mp hrun
  obtain ⟨rfl, hS⟩ := Prod.mk.inj he
  have hrun := (perform_runs hrun).mono among_of_alone
  refine ⟨tr, w', hrun, by rw [hS], ?_⟩
  refine (names_initialized (.register ..) hrun).1.mpr ?_
  rw [hS]
  decide

/-- A name of 32768 characters leaves the string as it was on the stack, and the port is
    created with it. -/
theorem names_uninitialized : ¬ ∀ (name : Option (List WCHAR)) (f : Code .x64 NTSTATUS)
    (w w' : World .x64) (tr : Events .x64) (status : NTSTATUS), TakesName name f →
    f.Runs (Among 0) w tr status w' → Spelled (portName name) (stringsOf tr) := by
  intro h
  have hrun : (perform 0 1 (scRegisterServiceRoutineW 8192 4096 4096
      (some (List.replicate 32768 97))) (registersNamed (.fail 0)) (registrar .x64 1)).map
      (fun x => stringsOf x.1) = some ⟨[none], [none], [none]⟩ := by decide +kernel
  obtain ⟨⟨tr, status, w'⟩, hrun, hS⟩ := Option.map_eq_some_iff.mp hrun
  have H := h _ _ _ _ _ _ (.register ..) ((perform_runs hrun).mono among_of_alone)
  rw [hS] at H
  exact H.initialized none (by simp) rfl

end ScString
