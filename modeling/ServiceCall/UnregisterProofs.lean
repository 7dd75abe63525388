import ServiceCall.AccessProofs

/-! # Unregistering a service

    `ScUnregisterServiceRoutine` sets the flag of the descriptor, reads the handle
    of the port in it and closes that handle, while the listener goes on.  The
    listener looks at the flag whenever `NtListenPort` fails, and then frees the
    descriptor.

    When it does not look between the flag and the reading of the handle, nothing
    is read after it was freed and the port is closed once (`unregister_closes`). -/

namespace ScUnregister

open LinearMemory OwnedHeap OpProg ThreadSys ScParameter LpcMessage ScSystem
  ScServiceCall ScOwnership

variable {b : Build} {n t : Nat} {w w' : World b} {gs : Nat → Ghost b}

/-! ## The port -/

/-- The handle of the client whose connection a listener works on. -/
def client : Stage b → Option HANDLE
  | .opened _ h => some h
  | .accepted _ h _ => some h
  | .received _ h _ _ => some h
  | _ => none

/-- Port `p` is open, and only `hPort` refers to it. -/
structure Open (k : Lpc b) (hPort : HANDLE) (p : Nat) : Prop where
  handle : k.handles.lookup hPort = some (.connectionPort p)
  only   : ∀ h, k.handles.lookup h = some (.connectionPort p) → h = hPort
  closed : p ∉ k.closed

/-- Port `p` was closed once. -/
structure Shut (k : Lpc b) (p : Nat) : Prop where
  none : ∀ h, k.handles.lookup h ≠ some (.connectionPort p)
  once : k.closed.count p = 1

/-- Who creates no port gives out no handle of one. -/
theorem grants_ne {o : Op} (hport : ∀ us m₁ m₂, o ≠ .kernel (.ntCreatePort us m₁ m₂))
    {r : Op.Ret b o} {h : HANDLE} {x : KObject} (hg : Grants w n o r h x) (p : Nat) :
    x ≠ .connectionPort p := by
  rintro rfl
  cases o with
  | kernel o =>
      cases o with
      | ntCreatePort us m₁ m₂ => exact hport us m₁ m₂ rfl
      | ntAcceptConnectPort client id accept =>
          cases accept with
          | true =>
              obtain ⟨-, y, -, hy⟩ := hg
              exact nomatch hy
          | false => exact hg
      | openProcess pid => exact nomatch hg.2
      | ntConnectPort us info => exact nomatch hg.2
      | _ => exact hg
  | createThread l => exact nomatch hg.2
  | _ => exact hg

section Port

variable {o : Op} {r : Op.Ret b o} {c : Choice b} {sp : Option Label} {hPort : HANDLE} {p : Nat}

/-- An operation that creates no port and does not close the handle. -/
theorem Open.exec (H : Open w.lpc hPort p)
    (hport : ∀ us m₁ m₂, o ≠ .kernel (.ntCreatePort us m₁ m₂))
    (hclose : o ≠ .kernel (.ntClose hPort)) (hx : exec t n o c w = some (r, w', sp)) :
    Open w'.lpc hPort p := by
  refine ⟨?_, ?_, ?_⟩
  · rcases exec_lookup hx hPort with he | ⟨-, hnone, -⟩ | ⟨ho, -⟩
    · rw [he]
      exact H.handle
    · rw [H.handle] at hnone
      exact nomatch hnone
    · exact absurd ho hclose
  · intro h hh
    rcases exec_lookup hx h with he | ⟨-, -, x, hx', hg⟩ | ⟨-, hnone⟩
    · rw [he] at hh
      exact H.only h hh
    · rw [hx'] at hh
      exact absurd (Option.some.inj hh) (grants_ne hport hg p)
    · rw [hnone] at hh
      exact nomatch hh
  · rcases exec_closed hx with he | ⟨h, q, rfl, hq, he⟩
    · rw [he]
      exact H.closed
    · rw [he]
      intro hmem
      rcases List.mem_cons.mp hmem with rfl | hmem
      · obtain rfl := H.only h hq
        exact hclose rfl
      · exact H.closed hmem

/-- Closing the handle shuts the port. -/
theorem Open.close {r : NTSTATUS} (H : Open w.lpc hPort p)
    (hx : ScSystem.exec t n (.kernel (.ntClose hPort)) .ok w = some (r, w', sp)) :
    Shut w'.lpc p := by
  simp only [ScSystem.exec, Lpc.exec, H.handle, Option.map_some, Option.some.injEq,
    Prod.mk.injEq] at hx
  obtain ⟨-, rfl, -⟩ := hx
  refine ⟨?_, ?_⟩
  · intro h hh
    have hh : (w.lpc.close t hPort (.connectionPort p)).handles.lookup h = _ := hh
    rw [Lpc.lookup_close] at hh
    split at hh
    · cases hh
    · next hne => exact hne (H.only h hh)
  · show (p :: w.lpc.closed).count p = 1
    rw [List.count_cons_self, List.count_eq_zero_of_not_mem H.closed]

/-- A port that was closed stays closed. -/
theorem Shut.exec (H : Shut w.lpc p) (hport : ∀ us m₁ m₂, o ≠ .kernel (.ntCreatePort us m₁ m₂))
    (hx : exec t n o c w = some (r, w', sp)) : Shut w'.lpc p := by
  refine ⟨?_, ?_⟩
  · intro h hh
    rcases exec_lookup hx h with he | ⟨-, -, x, hx', hg⟩ | ⟨-, hnone⟩
    · rw [he] at hh
      exact H.none h hh
    · rw [hx'] at hh
      exact absurd (Option.some.inj hh) (grants_ne hport hg p)
    · rw [hnone] at hh
      exact nomatch hh
  · rcases exec_closed hx with he | ⟨h, q, rfl, hq, he⟩
    · rw [he]
      exact H.once
    · rw [he, List.count_cons_of_ne]
      · exact H.once
      · rintro rfl
        exact H.none h hq

end Port

/-! ## The listener -/

/-- A listener stays one. -/
theorem listens_after {o : Op} {g : Ghost b} {r : Op.Ret b o} (hpre : Pre o g)
    (h : g.stage.Inside ∧ g.stage ≠ .worker) :
    (Stage.after g o r).Inside ∧ Stage.after g o r ≠ .worker :=
  ⟨h.1.after hpre, fun hw => h.2 (Stage.after_final (Or.inl rfl) hw)⟩

/-- Who is leaving is not called back. -/
theorem leaving_after {o : Op} {g : Ghost b} {r : Op.Ret b o} (hpre : Pre o g)
    (hst : g.stage = .leaving) : Stage.after g o r = .leaving := by
  cases o with
  | heap o =>
      show g.stage.seen g.own o r = .leaving
      rw [hst]
      cases o <;> rfl
  | kernel o =>
      show g.stage.next o r = .leaving
      rw [hst]
      cases o <;> rfl
  | id o => exact hst
  | api o =>
      cases o with
      | note x =>
          cases x with
          | returned call status =>
              obtain ⟨-, h⟩ := hpre
              simp only [hst, reduceCtorEq, false_and, or_self] at h
              cases call <;> exact nomatch h
          | _ => exact hst
      | _ => exact hst
  | loadCloseEvent a =>
      rw [show g.stage = .idle from hpre.1] at hst
      exact nomatch hst
  | setCloseEvent a =>
      rw [show g.stage = .app from hpre.1] at hst
      exact nomatch hst
  | createThread l =>
      cases l with
      | workerThread param =>
          obtain ⟨⟨s, m, h, h', m', lm, r, copy, size, -, hs, -⟩, -⟩ := hpre
          rw [hs] at hst
          exact nomatch hst
      | waitThread d =>
          obtain ⟨-, h, lpRoutine, a, p, hs, -⟩ := hpre
          rw [hs] at hst
          exact nomatch hst
      | _ => exact hpre.elim

/-- The descriptor whose flag an operation looks at. -/
def looking : Op → Option LPVOID
  | .loadCloseEvent a => some a
  | _ => none

/-- Who does not see the flag goes on. -/
theorem live_after {o : Op} {g : Ghost b} {c : Choice b} {r : Op.Ret b o} {sp : Option Label}
    (hst : g.stage ≠ .leaving)
    (hlook : ∀ a ∈ looking o, ∃ d, routineAt w.heap a = some d ∧ d.closeEvent = false)
    (hx : exec t n o c w = some (r, w', sp)) : Stage.after g o r ≠ .leaving := by
  intro hl
  by_cases ho : ∃ a, o = .loadCloseEvent a
  · obtain ⟨a, rfl⟩ := ho
    obtain ⟨d, hd, hflag⟩ := hlook a rfl
    obtain ⟨-, -, ⟨d', hd', rfl, -⟩ | ⟨hd', -⟩⟩ := exec_loadCloseEvent hx
    · obtain rfl := Option.some.inj (hd.symm.trans hd')
      simp only [Stage.after, hflag] at hl
      exact hst hl
    · rw [hd] at hd'
      exact nomatch hd'
  · exact hst (Stage.after_final (Or.inr ⟨rfl, not_exists.mp ho⟩) hl)

/-- A listener creates no port. -/
theorem no_port {o : Op} {g : Ghost b} (hpre : Pre o g) (h : g.stage.Inside) (us m₁ m₂) :
    o ≠ .kernel (.ntCreatePort us m₁ m₂) := by
  rintro rfl
  rw [show g.stage = .app from hpre.1] at h
  exact h

/-- A listener closes the handle of the client it works on. -/
theorem closes_client {h : HANDLE} {g : Ghost b} (hpre : Pre (b := b) (.kernel (.ntClose h)) g)
    (hg : g.stage.Inside ∧ g.stage ≠ .worker) : client g.stage = some h := by
  rcases hpre with ⟨m, hs⟩ | ⟨m, h', hs⟩ | ⟨a, hs | ⟨hs, -⟩⟩ | hs | hs
  · rw [hs]
    rfl
  · rw [hs]
    rfl
  · rw [hs] at hg
    exact hg.1.elim
  · rw [hs] at hg
    exact hg.1.elim
  · rw [hs] at hg
    exact hg.1.elim
  · exact absurd hs hg.2

/-- The handle of a client is new when its process is opened. -/
theorem client_after {o : Op} {g : Ghost b} {c : Choice b} {r : Op.Ret b o} {sp : Option Label}
    (hx : exec t n o c w = some (r, w', sp)) {h : HANDLE}
    (hc : client (Stage.after g o r) = some h) :
    client g.stage = some h ∨ h = 0 ∨ w.lpc.handles.lookup h = none := by
  cases o with
  | heap o =>
      refine Or.inl ?_
      have hc : client (g.stage.seen g.own o r) = some h := hc
      unfold Stage.seen at hc
      split at hc
      · split at hc
        · split at hc
          · exact nomatch hc
          · exact nomatch hc
        · exact hc
      · exact hc
  | kernel o =>
      obtain ⟨k, E, -, -⟩ := exec_kernel hx
      have hc : client (g.stage.next o r) = some h := hc
      unfold Stage.next at hc
      split at hc
      case h_2 =>
        -- the process is opened
        obtain rfl := Option.some.inj hc
        cases E with
        | openedProcess hnew => exact Or.inr (Or.inr hnew.2)
        | notOpened => exact Or.inr (Or.inl rfl)
      all_goals refine Or.inl ?_
      case h_11 => exact hc
      -- the connection stays the same, or there is none
      all_goals (try split at hc) <;> simp_all [client]
  | id o => exact Or.inl hc
  | api o =>
      cases o with
      | note x =>
          cases x with
          | returned call status => exact nomatch hc
          | _ => exact Or.inl hc
      | _ => exact Or.inl hc
  | loadCloseEvent a =>
      cases r with
      | true => exact nomatch hc
      | false => exact Or.inl hc
  | setCloseEvent a => exact nomatch hc
  | createThread l =>
      cases l with
      | workerThread param => exact nomatch hc
      | _ =>
          have hc : client (if r = 0 then g.stage else .app) = some h := hc
          split at hc
          · exact Or.inl hc
          · exact nomatch hc

/-! ## The caller -/

/-- The stages of a call of `ScUnregisterServiceRoutine`. -/
def Calls : Stage b → Prop
  | .app => True
  | .flagged _ => True
  | .read .. => True
  | .closed _ => True
  | _ => False

/-- The operations that leave the state of the call alone. -/
structure Quiet (g : Ghost b) (o : Op) : Prop where
  set      : ∀ a, o ≠ .setCloseEvent a
  load     : ∀ a k, o = .heap (.load a k) → g.own a ≠ none
  close    : ∀ h, o ≠ .kernel (.ntClose h)
  port     : ∀ us m₁ m₂, o ≠ .kernel (.ntCreatePort us m₁ m₂)
  returned : ∀ call status, o ≠ .api (.note (.returned call status))

/-- The operations of no importance to a call. -/
def Aside : Op → Prop
  | .setCloseEvent _ => False
  | .heap (.load ..) => False
  | .kernel (.ntClose _) => False
  | .kernel (.ntCreatePort ..) => False
  | .api (.note (.returned ..)) => False
  | _ => True

theorem Quiet.of_aside {g : Ghost b} {o : Op} (h : Aside o) : Quiet g o := by
  constructor
  · rintro a rfl
    exact h
  · rintro a k rfl
    exact h.elim
  · rintro a rfl
    exact h
  · rintro us m₁ m₂ rfl
    exact h
  · rintro call status rfl
    exact h

/-- The steps of a call. -/
inductive CallStep (g : Ghost b) : (o : Op) → Op.Ret b o → Prop where
  | quiet {o r} (hq : Quiet g o) (hst : Stage.after g o r = g.stage) : CallStep g o r
  | set {a r} (hst : g.stage = .app) (hcall : g.todo.head? = some (.unregister a)) :
      CallStep g (.setCloseEvent a) r
  | load {a r} (hst : g.stage = .flagged a) : CallStep g (.heap (.load a .routine)) r
  | close {a h r} (hst : g.stage = .read a h ∨ (g.stage = .flagged a ∧ g.own a ≠ none)) :
      CallStep g (.kernel (.ntClose h)) r
  | returned {call status r} (hcall : g.todo.head? = some call) :
      CallStep g (.api (.note (.returned call status))) r

/-- **WHAT A CALLER DOES** that is to unregister services only. -/
theorem call_step {o : Op} {g g' : Ghost b} {r : Op.Ret b o} (hpre : Pre o g)
    (hpost : Post o g r g') (hst : Calls g.stage)
    (hcalls : ∀ c ∈ g.todo, ∃ a, c = .unregister a) : CallStep g o r := by
  cases o with
  | heap o =>
      obtain ⟨⟨own, hown, -⟩, -⟩ := hpost
      rcases hpre.1 with hp | ⟨a, rfl, hs⟩
      · cases o with
        | load a k =>
            obtain ⟨x, hx, -⟩ := hp.resolve_left hown.2.1
            refine .quiet ⟨by simp, ?_, by simp, by simp, by simp⟩ (seen_of_some (k := k) _ hx)
            rintro a k ⟨⟩
            rw [hx]
            exact Option.some_ne_none x
        | _ => exact .quiet (.of_aside trivial) rfl
      · exact .load hs
  | kernel o =>
      -- kernel calls of other stages are none of a caller
      cases o with
      | ntCreatePort us m₁ m₂ =>
          obtain ⟨-, h₁, h₂, h₃, name, hhead⟩ := hpre
          obtain ⟨a, ha⟩ := hcalls _ (List.mem_of_mem_head? hhead)
          cases ha
      | ntClose h =>
          rcases hpre with ⟨m, hs⟩ | ⟨m, h', hs⟩ | ⟨a, hs⟩ | hs | hs
          · rw [hs] at hst
            exact hst.elim
          · rw [hs] at hst
            exact hst.elim
          · exact .close hs
          · rw [hs] at hst
            exact hst.elim
          · rw [hs] at hst
            exact hst.elim
      | _ =>
          refine .quiet (.of_aside trivial) ?_
          cases hs : g.stage <;> simp_all [Calls, Stage.after, Stage.next]
  | id o => exact .quiet (.of_aside trivial) rfl
  | api o =>
      cases o with
      | note x =>
          cases x with
          | returned call status => exact .returned hpre.1
          | _ => exact .quiet (.of_aside trivial) rfl
      | _ => exact .quiet (.of_aside trivial) rfl
  | loadCloseEvent a =>
      rw [show g.stage = .idle from hpre.1] at hst
      exact hst.elim
  | setCloseEvent a => exact .set hpre.1 hpre.2
  | createThread l =>
      cases l with
      | waitThread d =>
          obtain ⟨-, h, lpRoutine, a, p, hs, -⟩ := hpre
          rw [hs] at hst
          exact hst.elim
      | workerThread param =>
          obtain ⟨⟨s, m, h, h', m', lm, r, copy, size, -, hs, -⟩, -⟩ := hpre
          rw [hs] at hst
          exact hst.elim
      | _ => exact hpre.elim

/-! ## Both together -/

/-- The call has returned. -/
def Returned (w : World b) (d : LPVOID) : Prop :=
  ∃ status, (1, Note.returned (.unregister d) status) ∈ w.api.history

/-- Only its own note says that the call has returned. -/
theorem returned_exec {o : Op} {c : Choice b} {r : Op.Ret b o} {sp : Option Label} {d : LPVOID}
    (hx : exec t n o c w = some (r, w', sp))
    (ho : t = 1 → ∀ call status, o ≠ .api (.note (.returned call status)))
    (h : Returned w' d) : Returned w d := by
  obtain ⟨status, hmem⟩ := h
  rcases exec_history hx with ⟨he, -⟩ | ⟨x, rfl, he⟩
  · rw [he] at hmem
    exact ⟨status, hmem⟩
  · rw [he] at hmem
    rcases List.mem_cons.mp hmem with heq | hmem
    · obtain ⟨ht, rfl⟩ := Prod.mk.inj heq
      exact absurd rfl (ho ht.symm _ _)
    · exact ⟨status, hmem⟩

/-- The port is open, and the listener works for no client under its handle. -/
def Port (w : World b) (g₀ : Ghost b) (s : Served) (p : Nat) : Prop :=
  Open w.lpc s.routine.hPort p ∧ client g₀.stage ≠ some s.routine.hPort

/-- How far thread 1 has come with unregistering the service `s` of port `p`, and
    what holds while thread 0 listens for it. -/
inductive Progress (s : Served) (p : Nat) (w : World b) (g₀ g₁ : Ghost b) : Prop where
  | before (hst : g₁.stage = .app) (htodo : g₁.todo = [.unregister s.address])
      (hlive : g₀.stage ≠ .leaving)
      (hflag : w.heap.cells s.address = some (.routine { s.routine with closeEvent := false }))
      (hport : Port w g₀ s p) (hno : ¬ Returned w s.address)
  | flagged (hst : g₁.stage = .flagged s.address) (htodo : g₁.todo = [.unregister s.address])
      (hlive : g₀.stage ≠ .leaving) (hmark : w.marked 1 = some s.address)
      (hport : Port w g₀ s p) (hno : ¬ Returned w s.address)
  | read (hst : g₁.stage = .read s.address s.routine.hPort)
      (htodo : g₁.todo = [.unregister s.address])
      (hport : Port w g₀ s p) (hno : ¬ Returned w s.address)
  | closed (hst : g₁.stage = .closed s.address) (htodo : g₁.todo = [.unregister s.address])
      (hshut : Shut w.lpc p)
  | done (hst : g₁.stage = .app) (htodo : g₁.todo = []) (hshut : Shut w.lpc p)

/-- What one listener and one call of `ScUnregisterServiceRoutine` keep. -/
structure Unregistering (s : Served) (p : Nat) (n : Nat) (w : World b) (gs : Nat → Ghost b) :
    Prop where
  two      : 1 < n
  faults   : w.heap.faults = []
  self     : (gs 0).self = some s
  other    : (gs 1).self = none
  listens  : (gs 0).stage.Inside ∧ (gs 0).stage ≠ .worker
  kept     : (gs 0).stage ≠ .leaving → (gs 0).own s.address = some (.routine s.routine)
  pages    : ∃ ok, (gs 1).pages = some ok ∧ Lpc.accessible ok s.address.toNat 1 = true
  progress : Progress s p w (gs 0) (gs 1)

/-- The call only unregisters. -/
theorem Progress.calls {s : Served} {p : Nat} {g₀ g₁ : Ghost b} (H : Progress s p w g₀ g₁) :
    Calls g₁.stage ∧ ∀ c ∈ g₁.todo, ∃ a, c = .unregister a := by
  have only : ∀ {calls}, calls = [Call.unregister s.address] →
      ∀ c ∈ calls, ∃ a, c = .unregister a := by
    rintro _ rfl c hc
    exact ⟨_, List.mem_singleton.mp hc⟩
  cases H with
  | before hst htodo => exact ⟨by rw [hst]; trivial, only htodo⟩
  | flagged hst htodo => exact ⟨by rw [hst]; trivial, only htodo⟩
  | read hst htodo => exact ⟨by rw [hst]; trivial, only htodo⟩
  | closed hst htodo => exact ⟨by rw [hst]; trivial, only htodo⟩
  | done hst htodo =>
      refine ⟨by rw [hst]; trivial, ?_⟩
      rw [htodo]
      exact fun c hc => nomatch hc

/-- Between setting the flag and reading the handle the descriptor is the listener's. -/
theorem Progress.of_flagged {s : Served} {p : Nat} {g₀ g₁ : Ghost b} {a : LPVOID}
    (H : Progress s p w g₀ g₁) (hst : g₁.stage = .flagged a) :
    a = s.address ∧ g₁.todo = [.unregister s.address] ∧ g₀.stage ≠ .leaving
      ∧ Port w g₀ s p ∧ ¬ Returned w s.address := by
  cases H with
  | flagged h htodo hl hmark hP hn =>
      rw [h] at hst
      exact ⟨(Stage.flagged.inj hst).symm, htodo, hl, hP, hn⟩
  | before h | read h | closed h | done h =>
      rw [h] at hst
      exact nomatch hst

/-- The handle that an operation closes. -/
def closing : Op → Option HANDLE
  | .kernel (.ntClose h) => some h
  | _ => none

def isOk : Choice b → Bool
  | .ok => true
  | _ => false

def isSetCloseEvent : Choice b → Bool
  | .setCloseEvent _ => true
  | _ => false

/-- Threads 0 and 1 step, closing an open handle succeeds, and nobody else sets
    flags. -/
def Together (s : State b) : Event (Choice b) → Prop
  | .thread t c => t < 2 ∧ ∀ o ∈ s.next t, ∀ h ∈ closing o,
      s.world.lpc.handles.lookup h ≠ none → isOk c = true
  | .env c => isSetCloseEvent c = false

/-- The listener does not look at the flag while thread 1 is between setting it and
    reading the handle. -/
def Unseen (s : State b) : Event (Choice b) → Prop
  | .thread t _ => ∀ o ∈ s.next t, ∀ a ∈ looking o, s.world.marked 1 ≠ some a
  | .env _ => True

def Undisturbed (s : State b) (e : Event (Choice b)) : Prop := Together s e ∧ Unseen s e

instance (s : State b) : (e : Event (Choice b)) → Decidable (Together s e)
  | .thread t _ => @instDecidableAnd _ _ _
      (@Option.decidableForallMem _ _ (fun o => Option.decidableForallMem (closing o)) (s.next t))
  | .env c => inferInstanceAs (Decidable (isSetCloseEvent c = false))

instance (s : State b) : (e : Event (Choice b)) → Decidable (Unseen s e)
  -- by a search through the option, not through all addresses
  | .thread t _ =>
      @Option.decidableForallMem _ _ (fun o => Option.decidableForallMem (looking o)) (s.next t)
  | .env _ => inferInstanceAs (Decidable True)

instance (s : State b) (e : Event (Choice b)) : Decidable (Undisturbed s e) :=
  inferInstanceAs (Decidable (Together s e ∧ Unseen s e))

/-- The port under a step of the listener. -/
theorem Port.exec {s : Served} {p : Nat} {g g' : Ghost b} {o : Op} {c : Choice b}
    {r : Op.Ret b o} {sp : Option Label} (H : Port w g s p) (h0 : s.routine.hPort ≠ 0)
    (hg : g.stage.Inside ∧ g.stage ≠ .worker) (hpre : Pre o g) (hpost : Post o g r g')
    (hx : exec t n o c w = some (r, w', sp)) : Port w' g' s p := by
  refine ⟨H.1.exec (no_port hpre hg.1) ?_ hx, ?_⟩
  · rintro rfl
    exact H.2 (closes_client hpre hg)
  · intro hc
    rw [hpost.fields.2.1] at hc
    rcases client_after hx hc with hc | hc | hc
    · exact H.2 hc
    · exact h0 hc
    · rw [H.1.handle] at hc
      exact nomatch hc

section Steps

variable {s : Served} {p : Nat} {o : Op} {c : Choice b} {sp : Option Label} {g' : Ghost b}

/-- **A STEP OF THE LISTENER** keeps it, unless it looks at the flag too early. -/
theorem Unregistering.listener (H : Unregistering s p n w gs) (K : Known n w gs)
    (h0 : s.routine.hPort ≠ 0) {r : Op.Ret b o} (hpre : Pre o (gs 0)) (hpost : Post o (gs 0) r g')
    (hx : exec 0 n o c w = some (r, w', sp)) (hlook : ∀ a ∈ looking o, w.marked 1 ≠ some a)
    {m : Nat} (hm : n ≤ m) (gn : Option (Ghost b)) :
    Unregistering s p m w' (after gs 0 n g' gn) := by
  have h2 := H.two
  have hself : after gs 0 n g' gn 0 = g' := after_self (by omega) ..
  have hother : after gs 0 n g' gn 1 = gs 1 := after_ne (by omega) (by omega) ..
  have hstage := hpost.fields.2.1
  have hlive : g'.stage ≠ .leaving → (gs 0).stage ≠ .leaving := by
    intro hg hl
    exact hg (hstage.trans (leaving_after hpre hl))
  have kept : ∀ {x}, (gs 0).stage ≠ .leaving → (gs 0).own s.address = some x →
      g'.own s.address = some x ∧ w'.heap.cells s.address = w.heap.cells s.address :=
    fun hl => K.kept H.self hl H.listens.1 hpre hpost hx (Or.inl rfl)
  have hport := fun hP : Port w (gs 0) s p => hP.exec h0 H.listens hpre hpost hx
  have hshut := fun hS : Shut w.lpc p => hS.exec (no_port hpre H.listens.1) hx
  have hno : ¬ Returned w s.address → ¬ Returned w' s.address :=
    fun hn hr => hn (returned_exec hx (fun h => nomatch h) hr)
  -- the only flag it looks at is that of its own descriptor
  have laddress : ∀ a ∈ looking o, a = s.address := by
    intro a ha
    cases o with
    | loadCloseEvent a' =>
        obtain ⟨-, s', hs', rfl, -⟩ := hpre
        obtain rfl := Option.some.inj (H.self.symm.trans hs')
        exact (Option.some.inj ha).symm
    | _ => exact nomatch ha
  refine ⟨by omega, ?_, ?_, ?_, ?_, ?_, ?_, ?_⟩
  · rw [K.inside_faults H.listens.1 hpre hx]
    exact H.faults
  · rw [hself, hpost.fields.1]
    exact H.self
  · rw [hother]
    exact H.other
  · rw [hself, hstage]
    exact listens_after hpre H.listens
  · rw [hself]
    intro hl
    exact (kept (hlive hl) (H.kept (hlive hl))).1
  · rw [hother]
    exact H.pages
  · rw [hself, hother]
    cases H.progress with
    | before hst htodo hl hflag hP hn =>
        refine .before hst htodo ?_ ?_ (hport hP) (hno hn)
        · rw [hstage]
          refine live_after hl ?_ hx
          intro a ha
          obtain rfl := laddress a ha
          exact ⟨{ s.routine with closeEvent := false }, by simp only [routineAt, hflag], rfl⟩
        · rw [(kept hl (H.kept hl)).2]
          exact hflag
    | flagged hst htodo hl hmark hP hn =>
        refine .flagged hst htodo ?_ ?_ (hport hP) (hno hn)
        -- it does not look at the flag between the write and the read
        · rw [hstage]
          refine live_after hl ?_ hx
          intro a ha
          obtain rfl := laddress a ha
          exact absurd hmark (hlook _ ha)
        · rw [exec_marked hx (by omega)]
          exact hmark
    | read hst htodo hP hn => exact .read hst htodo (hport hP) (hno hn)
    | closed hst htodo hS => exact .closed hst htodo (hshut hS)
    | done hst htodo hS => exact .done hst htodo (hshut hS)

/-- What a quiet operation leaves marked. -/
theorem marked_quiet {r : Op.Ret b o} {a : LPVOID} (hset : ∀ a, o ≠ .setCloseEvent a)
    (hload : ∀ k, o ≠ .heap (.load a k)) (hx : exec t n o c w = some (r, w', sp))
    (h : w.marked t = some a) : w'.marked t = some a := by
  cases o with
  | heap o =>
      obtain ⟨h', -, rfl, -⟩ := exec_heap hx
      show Function.update w.marked t (unmark (w.marked t) o) t = some a
      rw [Function.update_self, h]
      cases o with
      | load a' k =>
          have hne : a ≠ a' := by
            rintro rfl
            exact hload k rfl
          simp only [unmark, Option.filter_some, hne, ne_eq, not_false_eq_true, decide_true,
            if_true]
      | _ => rfl
  | kernel o =>
      obtain ⟨k, -, rfl, -⟩ := exec_kernel hx
      exact h
  | id o =>
      obtain ⟨s, -, rfl, -⟩ := exec_id hx
      exact h
  | api o =>
      obtain ⟨⟨a, m, rfl⟩, -⟩ := exec_api hx
      exact h
  | loadCloseEvent a' =>
      obtain ⟨-, -, ⟨d, -, -, rfl⟩ | ⟨-, rfl⟩⟩ := exec_loadCloseEvent hx
      · exact h
      · exact h
  | setCloseEvent a' => exact absurd rfl (hset a')
  | createThread l =>
      rcases exec_createThread hx with ⟨-, rfl, -⟩ | ⟨tid, -, -, -, rfl⟩
      · exact h
      · exact h

/-- A quiet step of the caller. -/
theorem Progress.quiet {g₀ g₁ : Ghost b} (H : Progress s p w g₀ g₁) {r : Op.Ret b o}
    (hq : Quiet g₁ o) (hst' : Stage.after g₁ o r = g₁.stage)
    (hown : g₀.stage ≠ .leaving → g₁.own s.address = none)
    (hcell : g₀.stage ≠ .leaving → w'.heap.cells s.address = w.heap.cells s.address)
    (hpost : Post o g₁ r g') (hx : exec 1 n o c w = some (r, w', sp)) :
    Progress s p w' g₀ g' := by
  have hstage := hpost.fields.2.1.trans hst'
  have htodo : g'.todo = g₁.todo := by
    refine hpost.fields.2.2.1.trans ?_
    unfold todoAfter
    split
    · exact absurd rfl (hq.returned _ _)
    · rfl
  have hport : Port w g₀ s p → Port w' g₀ s p :=
    fun hP => ⟨hP.1.exec hq.port (hq.close _) hx, hP.2⟩
  have hno : ¬ Returned w s.address → ¬ Returned w' s.address :=
    fun hn hr => hn (returned_exec hx (fun _ => hq.returned) hr)
  have hshut := fun hS : Shut w.lpc p => hS.exec hq.port hx
  cases H with
  | before hst ht hl hflag hP hn =>
      exact .before (hstage.trans hst) (htodo.trans ht) hl ((hcell hl).trans hflag) (hport hP)
        (hno hn)
  | flagged hst ht hl hmark hP hn =>
      refine .flagged (hstage.trans hst) (htodo.trans ht) hl ?_ (hport hP) (hno hn)
      exact marked_quiet hq.set (fun k ho => hq.load _ k ho (hown hl)) hx hmark
  | read hst ht hP hn => exact .read (hstage.trans hst) (htodo.trans ht) (hport hP) (hno hn)
  | closed hst ht hS => exact .closed (hstage.trans hst) (htodo.trans ht) (hshut hS)
  | done hst ht hS => exact .done (hstage.trans hst) (htodo.trans ht) (hshut hS)

/-- **A STEP OF THE CALLER**: nothing faults, and the call goes on. -/
theorem Unregistering.call (H : Unregistering s p n w gs) (K : Known n w gs) {r : Op.Ret b o}
    (hpre : Pre o (gs 1)) (hpost : Post o (gs 1) r g') (hx : exec 1 n o c w = some (r, w', sp))
    (hclose : ∀ h ∈ closing o, w.lpc.handles.lookup h ≠ none → isOk c = true) :
    w'.heap.faults = [] ∧ Progress s p w' (gs 0) g' := by
  -- until the listener leaves, the descriptor is there, and not the caller's
  have hlive : (gs 0).stage ≠ .leaving → (gs 1).own s.address = none ∧ ∃ v,
      w.heap.cells s.address = some (.routine { s.routine with closeEvent := v }) := by
    intro hl
    have hown := H.kept hl
    exact ⟨K.others (by rw [hown]; exact Option.some_ne_none _) Nat.one_ne_zero, K.routine hown⟩
  -- only the note of a return takes a call from the list
  have htodo : (∀ call status, o ≠ .api (.note (.returned call status))) →
      g'.todo = (gs 1).todo := by
    intro hne
    refine hpost.fields.2.2.1.trans ?_
    unfold todoAfter
    split
    · exact absurd rfl (hne _ _)
    · rfl
  cases call_step hpre hpost H.progress.calls.1 H.progress.calls.2 with
  | quiet hq hst =>
      refine ⟨?_, H.progress.quiet hq hst (fun hl => (hlive hl).1) ?_ hpost hx⟩
      · rw [K.faults hpre hq.set ?_ hx]
        · exact H.faults
        · intro a ho ha
          obtain ⟨rfl, -, hl, -⟩ := H.progress.of_flagged ha
          exact absurd (hlive hl).1 (hq.load _ _ ho)
      · intro hl
        obtain ⟨v, hv⟩ := (hlive hl).2
        rw [hv]
        refine K.frame hpre hq.set hx hv ?_
        rw [K.owns.holds (H.kept hl)]
        exact Nat.zero_ne_one
  | @set a _ hst hcall =>
      cases H.progress with
      | before h ht hl hflag hP hn =>
          rw [ht] at hcall
          obtain rfl := Call.unregister.inj (Option.some.inj hcall)
          obtain ⟨-, -, ⟨d, hd, rfl⟩ | ⟨hd, -⟩⟩ := exec_setCloseEvent hx
          · refine ⟨H.faults, .flagged hpost.fields.2.1 ((htodo (by simp)).trans ht) hl ?_ hP hn⟩
            show Function.update w.marked 1 (some s.address) 1 = _
            exact Function.update_self ..
          · simp only [routineAt, hflag] at hd
            cases hd
      | done h ht =>
          rw [ht] at hcall
          cases hcall
      | flagged h | read h | closed h =>
          rw [h] at hst
          cases hst
  | @load a r hst =>
      obtain ⟨rfl, ht, hl, hP, hn⟩ := H.progress.of_flagged hst
      obtain ⟨hnone, v, hv⟩ := hlive hl
      obtain ⟨h, hh, rfl, -⟩ := exec_heap hx
      obtain ⟨rfl, rfl⟩ := exec_load hv rfl hh
      refine ⟨H.faults, .read ?_ ((htodo (by simp)).trans ht) hP hn⟩
      rw [hpost.fields.2.1]
      simp only [Stage.after, Stage.seen, hst, hnone, Option.isNone_none, if_true, asRoutine]
  | @close a h r hst =>
      cases H.progress with
      | read h' ht hP hn =>
          rcases hst with hst | ⟨hst, -⟩
          · rw [h'] at hst
            obtain ⟨rfl, rfl⟩ := Stage.read.inj hst
            have hok := hclose _ rfl (by rw [hP.1.handle]; exact Option.some_ne_none _)
            cases c with
            | ok =>
                have hS := hP.1.close hx
                obtain ⟨k, -, rfl, -⟩ := exec_kernel hx
                refine ⟨H.faults, .closed ?_ ((htodo (by simp)).trans ht) hS⟩
                rw [hpost.fields.2.1]
                simp only [Stage.after, h', Stage.next]
            | _ => cases hok
          · rw [h'] at hst
            cases hst
      | flagged h' ht hl =>
          rcases hst with hst | ⟨hst, hne⟩
          · rw [h'] at hst
            cases hst
          · obtain ⟨rfl, -⟩ := H.progress.of_flagged hst
            exact absurd (hlive hl).1 hne
      | before h' | closed h' | done h' =>
          rw [h'] at hst
          rcases hst with hst | ⟨hst, -⟩
          · cases hst
          · cases hst
  | @returned call status r hcall =>
      cases H.progress with
      | before h' ht =>
          rw [ht] at hcall
          obtain rfl := Option.some.inj hcall
          obtain ⟨ok, hok, hacc⟩ := H.pages
          rcases hpre.2 with hst | ⟨-, -, hbad⟩
          · rw [h'] at hst
            cases hst
          · rw [hbad ok hok] at hacc
            cases hacc
      | flagged h' ht | read h' ht =>
          rw [ht] at hcall
          obtain rfl := Option.some.inj hcall
          have hst := hpre.2
          rw [h'] at hst
          rcases hst with hst | ⟨hst, -⟩
          · cases hst
          · cases hst
      | closed h' ht hS =>
          have hS := hS.exec (o := .api (.note (.returned call status)))
            (by simp) hx
          obtain ⟨⟨a, k, rfl⟩, -⟩ := exec_api hx
          refine ⟨H.faults, .done hpost.fields.2.1 ?_ hS⟩
          rw [hpost.fields.2.2.1, ht]
          rfl
      | done h' ht =>
          rw [ht] at hcall
          cases hcall

/-- The listener goes on. -/
theorem Unregistering.land (H : Unregistering s p n w gs) {l : Label} (hgoto : Goto l (gs 0)) :
    Unregistering s p n w (Function.update gs 0 (land l (gs 0))) := by
  have hother : Function.update gs 0 (ScOwnership.land l (gs 0)) 1 = gs 1 :=
    Function.update_of_ne Nat.one_ne_zero ..
  cases l with
  | waitLoop lpService lm =>
      have hl := hgoto.1
      have hport : Port w (gs 0) s p → Port w ((gs 0).at' .idle) s p :=
        fun hP => ⟨hP.1, fun h => nomatch h⟩
      refine ⟨H.two, H.faults, ?_, ?_, ?_, ?_, ?_, ?_⟩
      · rw [Function.update_self]
        exact H.self
      · rw [hother]
        exact H.other
      · rw [Function.update_self]
        exact ⟨trivial, fun h => nomatch h⟩
      · rw [Function.update_self]
        exact fun _ => H.kept hl
      · rw [hother]
        exact H.pages
      · rw [Function.update_self, hother]
        cases H.progress with
        | before hst ht _ hflag hP hn =>
            exact .before hst ht (fun h => nomatch h) hflag (hport hP) hn
        | flagged hst ht _ hmark hP hn =>
            exact .flagged hst ht (fun h => nomatch h) hmark (hport hP) hn
        | read hst ht hP hn => exact .read hst ht (hport hP) hn
        | closed hst ht hS => exact .closed hst ht hS
        | done hst ht hS => exact .done hst ht hS
  | waitThread d => exact hgoto.elim
  | workerThread param => exact hgoto.elim
  | routine lpService tmp dwThread bufs =>
      obtain ⟨r, lm, m, p, q, W, -⟩ := hgoto
      exact absurd W.stage H.listens.2
  | workerReturn lpService tmp dwThread status =>
      obtain ⟨r, lm, m, p, q, W, -⟩ := hgoto
      exact absurd W.stage H.listens.2
  | app calls =>
      have hin := H.listens.1
      rw [hgoto.2.1] at hin
      exact hin.elim

/-- The caller does not become a listener. -/
theorem Unregistering.land_caller (H : Unregistering s p n w gs) {l : Label}
    (hgoto : Goto l (gs 1)) : ScOwnership.land l (gs 1) = gs 1 := by
  cases l with
  | waitLoop lpService lm =>
      obtain ⟨-, s', M, m, -, S⟩ := hgoto
      have hself := S.self
      rw [H.other] at hself
      exact nomatch hself
  | _ => rfl

/-- What happens outside the process. -/
theorem Unregistering.env (H : Unregistering s p n w gs) (hc : isSetCloseEvent c = false)
    (he : ScSystem.env c w = some w') : Unregistering s p n w' gs := by
  have same : ∀ {w₁ : World b}, w₁.heap = w.heap → w₁.marked = w.marked →
      w₁.api = w.api → w₁.lpc.handles = w.lpc.handles → w₁.lpc.closed = w.lpc.closed →
      Unregistering s p n w₁ gs := by
    intro w₁ hheap hmarked hapi hhandles hclosed
    have hport : Port w (gs 0) s p → Port w₁ (gs 0) s p := by
      rintro ⟨⟨h₁, h₂, h₃⟩, hne⟩
      exact ⟨⟨hhandles ▸ h₁, hhandles ▸ h₂, hclosed ▸ h₃⟩, hne⟩
    have hshut : Shut w.lpc p → Shut w₁.lpc p := by
      rintro ⟨h₁, h₂⟩
      exact ⟨hhandles ▸ h₁, hclosed ▸ h₂⟩
    have hno : ¬ Returned w s.address → ¬ Returned w₁ s.address := by
      rintro hn ⟨status, hmem⟩
      rw [hapi] at hmem
      exact hn ⟨status, hmem⟩
    refine ⟨H.two, hheap ▸ H.faults, H.self, H.other, H.listens, H.kept, H.pages, ?_⟩
    cases H.progress with
    | before hst ht hl hflag hP hn =>
        exact .before hst ht hl (hheap ▸ hflag) (hport hP) (hno hn)
    | flagged hst ht hl hmark hP hn =>
        exact .flagged hst ht hl (hmarked ▸ hmark) (hport hP) (hno hn)
    | read hst ht hP hn => exact .read hst ht (hport hP) (hno hn)
    | closed hst ht hS => exact .closed hst ht (hshut hS)
    | done hst ht hS => exact .done hst ht (hshut hS)
  rcases env_cases he with ⟨p, m, -, -, -, rfl⟩ | ⟨a, d, rfl, -, -⟩ | ⟨pid, a, v, -, rfl⟩
  · exact same rfl rfl rfl rfl rfl
  · exact nomatch hc
  · exact same rfl rfl rfl rfl rfl

end Steps

/-! ## The result -/

/-- The service with the descriptor `r` at `d` is live: its port `q` is open under the
    handle in the descriptor, which can be read, and its flag is clear. -/
structure Live (w : World b) (d : LPVOID) (r : ServiceRoutine) (p : ServiceRoutineParameter)
    (q : Nat) : Prop where
  registered : Registered w d r p
  faults     : w.heap.faults = []
  flag       : r.closeEvent = false
  nonzero    : r.hPort ≠ 0
  isOpen     : Open w.lpc r.hPort q
  readable   : Lpc.accessible w.lpc.pages d.toNat 1 = true
  fresh      : ¬ Returned w d

/-- What is promised while one call of `ScUnregisterServiceRoutine` runs. -/
structure Closes (w : World b) (d : LPVOID) (q : Nat) : Prop where
  /-- nothing was read that had been freed -/
  faults : w.heap.faults = []
  /-- once the call has returned the port was closed once -/
  once   : Returned w d → w.lpc.closed.count q = 1

/-- The rule applies. -/
theorem unregister_method (s : Served) (p : Nat) (h0 : s.routine.hPort ≠ 0) :
    Method (system b) (outline b) Entry Goto
      (fun n w gs => Shared n w gs ∧ Unregistering s p n w gs) (fun _ => True) Undisturbed := by
  refine method ?_ ?_ ?_ ?_
  · -- neither of the two maps anything
    intro st gs t c o hc _ H hpre x hx q _
    cases o with
    | api o =>
        cases o with
        | note y =>
            cases y with
            | mapFailed tmp i =>
                have hst : (gs t).stage = .worker := hpre.1
                obtain rfl | rfl : t = 0 ∨ t = 1 := by
                  have := hc.1.1
                  omega
                · exact absurd hst H.listens.2
                · have hcalls := H.progress.calls.1
                  rw [hst] at hcalls
                  exact hcalls.elim
            | _ => exact nomatch hx
        | _ => exact nomatch hx
    | _ => exact nomatch hx
  · intro st gs t c th l hc _ _ _ H hgoto
    obtain rfl | rfl : t = 0 ∨ t = 1 := by
      have := hc.1.1
      omega
    · exact H.land hgoto
    · rw [show land l (gs 1) = gs 1 from H.land_caller hgoto, Function.update_eq_self]
      exact H
  · intro st gs t c th o k r w' sp g' hc hth hcur HS H hpre hx hpost
    have hnext := Config.next_of_cur hth hcur
    have hm : st.threads.length ≤ st.threads.length + sp.toList.length := Nat.le_add_right ..
    obtain rfl | rfl : t = 0 ∨ t = 1 := by
      have := hc.1.1
      omega
    · exact H.listener HS.known h0 hpre hpost hx (hc.2 o hnext) hm _
    · obtain ⟨hfaults, hprogress⟩ := H.call HS.known hpre hpost hx (hc.1.2 o hnext)
      have h2 := H.two
      have hself : after gs 1 st.threads.length g' (sp.map fun l => born l (gs 1)) 1 = g' :=
        after_self (by omega) ..
      have hother : after gs 1 st.threads.length g' (sp.map fun l => born l (gs 1)) 0 = gs 0 :=
        after_ne (by omega) (by omega) ..
      refine ⟨by omega, hfaults, ?_, ?_, ?_, ?_, ?_, ?_⟩
      · rw [hother]
        exact H.self
      · rw [hself, hpost.fields.1]
        exact H.other
      · rw [hother]
        exact H.listens
      · rw [hother]
        exact H.kept
      · rw [hself, hpost.fields.2.2.2.2]
        exact H.pages
      · rw [hself, hother]
        exact hprogress
  · intro st gs c w' hc _ H he
    exact H.env hc.1 he

/-- **UNREGISTERING IS SAFE** in every state that one listener and one call of
    `ScUnregisterServiceRoutine` reach, in any order, over any connections and any
    outcomes of system calls, while the listener does not look at the flag between
    its being set and the reading of the handle. -/
theorem unregister_closes {d : LPVOID} {r : ServiceRoutine} {p : ServiceRoutineParameter}
    {q : Nat} {st : State b} (hw : Live w d r p q)
    (hr : (system b).Run Undisturbed (serving w d [[.unregister d]]) st) :
    Closes st.world d q := by
  let s : Served := ⟨d, r, p⟩
  let calls : List (List Call) := [[.unregister d]]
  have hflag : ({ r with closeEvent := false } : ServiceRoutine) = r := by
    rw [← hw.flag]
  have hX : Unregistering s q (calls.length + 1) w (Registered.ghosts w d r p calls) := by
    refine ⟨Nat.lt_succ_self 1, hw.faults, rfl, rfl, ⟨trivial, fun h => nomatch h⟩,
      fun _ => if_pos rfl, ⟨_, rfl, hw.readable⟩, ?_⟩
    refine .before rfl rfl (fun h => nomatch h) ?_ ⟨hw.isOpen, fun h => nomatch h⟩ hw.fresh
    show w.heap.cells d = some (.routine { r with closeEvent := false })
    rw [hflag]
    exact hw.registered.routine
  obtain ⟨gs, H⟩ := hw.registered.run (unregister_method s q hw.nonzero) hX hr
  obtain ⟨⟨-, H⟩, -⟩ := H
  refine ⟨H.faults, ?_⟩
  intro hret
  cases H.progress with
  | before _ _ _ _ _ hn | flagged _ _ _ _ _ hn | read _ _ _ hn => exact absurd hret hn
  | closed _ _ hS | done _ _ hS => exact hS.once

/-- The process with one service is live. -/
theorem oneService_live (p : ServiceRoutineParameter) :
    Live (oneService p) 16 (.new 4 1000 32) p 0 := by
  refine ⟨oneService_registered p, rfl, rfl, by decide, ⟨?_, ?_, nofun⟩, rfl, nofun⟩
  · exact Lpc.lookup_opened _ 4 4 _
  · intro h hh
    have hh : ((World.initialized .x64).lpc.opened 4 (.connectionPort 0)).handles.lookup h
      = some (.connectionPort 0) := hh
    rw [Lpc.lookup_opened] at hh
    split at hh
    · next he => exact he
    · exact nomatch hh

/-- Without the condition it is not safe: `NtListenPort` fails when the flag is set,
    and the listener frees the descriptor before the handle in it is read. -/
theorem unregister_unsafe : ¬ ∀ (w : World .x64) d r p q st, Live w d r p q →
    (system .x64).Run Together (serving w d [[.unregister d]]) st → Closes st.world d q := by
  intro h
  have hrun : ((system .x64).runIf (fun s e => decide (Together s e))
      (begins 48 ++ turns 1 3 ++ turns 0 2 ++ .thread 0 (.fail STATUS_ACCESS_VIOLATION)
        :: turns 0 6 ++ [.thread 1 (.fresh 0 (.routine (.new 4 1000 32)))])
      (serving (oneService ⟨[]⟩) 16 [[.unregister 16]])).map
        (fun s => s.world.heap.faults) = some [⟨1, 16⟩] := by decide +kernel
  obtain ⟨s, hs, hfaults⟩ := Option.map_eq_some_iff.mp hrun
  have hsafe := h _ 16 _ _ 0 s (oneService_live ⟨[]⟩)
    (Sys.run_of_runIf (fun _ _ h => of_decide_eq_true h) hs)
  have := hsafe.faults
  rw [hfaults] at this
  exact nomatch this

/-- The listener waits while the call runs and returns. -/
theorem unregister_closes_waiting : ∃ s : State .x64,
    (system .x64).runIf (fun s e => decide (Undisturbed s e)) (begins 48 ++ turns 0 2 ++ turns 1 6)
      (serving (oneService ⟨[]⟩) 16 [[.unregister 16]]) = some s
    ∧ (1, Note.returned (.unregister 16) STATUS_SUCCESS) ∈ s.world.api.history
    ∧ Closes s.world 16 0 := by
  have hrun : ((system .x64).runIf (fun s e => decide (Undisturbed s e))
      (begins 48 ++ turns 0 2 ++ turns 1 6)
      (serving (oneService ⟨[]⟩) 16 [[.unregister 16]])).map
        (fun s => decide ((1, Note.returned (.unregister 16) STATUS_SUCCESS)
          ∈ s.world.api.history)) = some true := by decide +kernel
  obtain ⟨s, hs, hret⟩ := Option.map_eq_some_iff.mp hrun
  exact ⟨s, hs, of_decide_eq_true hret, unregister_closes (oneService_live ⟨[]⟩)
    (Sys.run_of_runIf (fun _ _ h => of_decide_eq_true h) hs)⟩

end ScUnregister
