import ServiceCall.HandleProofs

/-! # A listener and its port

    A listener keeps the number of its port handle until it ends, and looks at
    `CloseEvent` only when `NtListenPort` fails.  Once the handle was closed the number
    may be given out again.  While it is not, every connection that the listener takes
    arrived at the port of its own registration (`listens_own`); when it is, the
    listener takes the connections of another service (`listens_stale`). -/

namespace ScPort

open LinearMemory OwnedHeap OpProg ThreadSys ScParameter LpcMessage ScSystem
  ScServiceCall ScOwnership
open ScHandle (Matches exec_lastPort exec_created exec_services exec_served exec_starts starting
  ghosts shared_starting)

variable {b : Build}

/-! ## New handles -/

/-- The handle that an operation gives out if the system decides so. -/
def given : Choice b → Option HANDLE
  | .handle h => some h
  | .thread h _ => some h
  | .connect _ h _ => some h
  | _ => none

/-- The number stands for the port of a service whose listener has not ended, or of one that
    is being registered. -/
def Claimed (n : Nat) (w : World b) (h : HANDLE) : Prop :=
  ∃ t, t < n ∧ ((∃ v ∈ w.services t, v.hPort = h ∧ w.ids.exited t = false)
    ∨ ∃ x ∈ w.lpc.lastPort t, x.2 = h)

instance (n : Nat) (w : World b) (h : HANDLE) : Decidable (Claimed n w h) :=
  inferInstanceAs (Decidable (∃ t, t < n ∧ _))

/-- No number is given out that stands for such a port. -/
def Unclaimed (s : State b) : Event (Choice b) → Prop
  | .thread _ c => ∀ h ∈ given c, ¬ Claimed s.threads.length s.world h
  | .env _ => True

instance (s : State b) : (e : Event (Choice b)) → Decidable (Unclaimed s e)
  | .thread _ c => inferInstanceAs (Decidable (∀ h ∈ given c, ¬ Claimed s.threads.length s.world h))
  | .env _ => inferInstanceAs (Decidable True)

section Exec

variable {n t : Nat} {w w' : World b} {c : Choice b} {o : Op} {r : Op.Ret b o} {sp : Option Label}

/-- A kernel call gives out what the system decides. -/
theorem kernel_given {k k' : Lpc b} {o : KernelOp} {r : o.Ret b}
    (hx : Lpc.exec t o c k = some (r, k')) {h : HANDLE} {x : KObject} (hg : k.Gives o r h x)
    (h0 : h ≠ 0) : given c = some h := by
  -- a call that fails gives out null
  cases o with
  | ntCreatePort us m₁ m₂ =>
      obtain ⟨rfl, -⟩ := hg
      cases c with
      | handle h' =>
          obtain ⟨k₁, -, he⟩ := Option.map_eq_some_iff.mp hx
          obtain ⟨rfl, -⟩ := Prod.mk.inj he
          rfl
      | fail st =>
          obtain ⟨-, rfl, -⟩ := Lpc.fail_eq_some hx
          exact absurd rfl h0
      | _ => cases hx
  | openProcess pid =>
      obtain ⟨rfl, -⟩ := hg
      cases c with
      | handle h' =>
          obtain ⟨k₁, -, he⟩ := Option.map_eq_some_iff.mp hx
          obtain ⟨rfl, -⟩ := Prod.mk.inj he
          rfl
      | fail st =>
          obtain ⟨rfl, -⟩ := Prod.mk.inj (Option.some.inj hx)
          exact absurd rfl h0
      | _ => cases hx
  | ntAcceptConnectPort client id accept =>
      cases accept with
      | true =>
          obtain ⟨rfl, -⟩ := hg
          cases c with
          | handle h' =>
              obtain ⟨y, -, hx⟩ := Option.bind_eq_some_iff.mp hx
              obtain ⟨k₁, -, he⟩ := Option.map_eq_some_iff.mp hx
              obtain ⟨rfl, -⟩ := Prod.mk.inj he
              rfl
          | fail st =>
              obtain ⟨-, rfl, -⟩ := Lpc.fail_eq_some hx
              exact absurd rfl h0
          | _ => cases hx
      | false => exact hg.elim
  | ntConnectPort us info =>
      obtain ⟨rfl, -⟩ := hg
      cases c with
      | connect st h' length =>
          simp only [Lpc.exec] at hx
          split at hx
          · obtain ⟨k₁, -, he⟩ := Option.map_eq_some_iff.mp hx
            obtain ⟨rfl, -⟩ := Prod.mk.inj he
            rfl
          · obtain ⟨rfl, -⟩ := Prod.mk.inj (Option.some.inj hx)
            exact absurd rfl h0
      | _ => cases hx
  | _ => exact hg.elim

/-- So does every operation. -/
theorem exec_given (hx : exec t n o c w = some (r, w', sp)) {h : HANDLE} {x : KObject}
    (hg : Grants w n o r h x) (h0 : h ≠ 0) : given c = some h := by
  cases o with
  | kernel o =>
      obtain ⟨y, hx', he⟩ := Option.map_eq_some_iff.mp hx
      obtain ⟨rfl, -⟩ := Prod.mk.inj he
      exact kernel_given hx' hg h0
  | createThread l =>
      obtain ⟨rfl, -⟩ := hg
      cases c with
      | thread h' tid =>
          obtain ⟨w₁, -, he⟩ := Option.map_eq_some_iff.mp hx
          obtain ⟨rfl, -⟩ := Prod.mk.inj he
          rfl
      | fail st =>
          obtain ⟨rfl, -⟩ := Prod.mk.inj (Option.some.inj hx)
          exact absurd rfl h0
      | _ => cases hx
  | _ => exact hg.elim

/-- The port behind a number that is not given out is the one it was, if there still is
    one. -/
theorem portOf_exec (hx : exec t n o c w = some (r, w', sp)) {h : HANDLE}
    (hfree : ∀ h' ∈ given c, h' ≠ h) {p : Nat} (hp : w'.lpc.portOf h = some p) :
    w.lpc.portOf h = some p := by
  unfold Lpc.portOf at hp ⊢
  rcases exec_lookup hx h with he | ⟨h0, -, x, -, hg⟩ | ⟨-, hnone⟩
  · rwa [← he]
  · exact absurd rfl (hfree h (exec_given hx hg h0))
  · rw [hnone] at hp
    cases hp

/-- Only `ExitThread` ends a thread. -/
theorem exec_exited (hx : exec t n o c w = some (r, w', sp)) {u : Nat} (hu : u ≠ n ∨ sp = none)
    (ho : u = t → o ≠ .id .exitThread) : w'.ids.exited u = w.ids.exited u := by
  cases o with
  | heap o =>
      obtain ⟨h, -, rfl, -⟩ := exec_heap hx
      rfl
  | kernel o =>
      obtain ⟨k, E, rfl, -⟩ := exec_kernel hx
      rfl
  | id o =>
      obtain ⟨s, hs, rfl, -⟩ := exec_id hx
      cases o with
      | exitThread =>
          obtain ⟨-, rfl⟩ := Prod.mk.inj (Option.some.inj hs)
          exact Function.update_of_ne (fun h => ho h rfl) ..
      | enterCriticalSection | erase i =>
          simp only [Ids.exec] at hs
          split at hs
          · obtain ⟨-, rfl⟩ := Prod.mk.inj (Option.some.inj hs)
            rfl
          · cases hs
      | «at» i =>
          obtain ⟨e, -, he⟩ := Option.map_eq_some_iff.mp hs
          obtain ⟨-, rfl⟩ := Prod.mk.inj he
          rfl
      | _ =>
          obtain ⟨-, rfl⟩ := Prod.mk.inj (Option.some.inj hs)
          rfl
  | api o =>
      obtain ⟨⟨a, m, rfl⟩, -⟩ := exec_api hx
      rfl
  | loadCloseEvent a =>
      obtain ⟨-, -, ⟨d, -, -, rfl⟩ | ⟨-, rfl⟩⟩ := exec_loadCloseEvent hx <;> rfl
  | setCloseEvent a =>
      obtain ⟨-, -, ⟨d, -, rfl⟩ | ⟨-, rfl⟩⟩ := exec_setCloseEvent hx <;> rfl
  | createThread l =>
      rcases exec_createThread hx with ⟨-, rfl, -⟩ | ⟨tid, rfl, -, -, rfl⟩
      · rfl
      · exact Function.update_of_ne (hu.resolve_right (by simp)) ..

end Exec

/-! ## The invariant -/

/-- What holds of the ports: `A p m` for a message `m` at port `p`. -/
structure Ports (A : Nat → Message b → Prop) (n : Nat) (w : World b) (gs : Nat → Ghost b) :
    Prop where
  queue    : ∀ p, ∀ m ∈ w.lpc.queue p, A p m
  /-- a listener has its service, and its number stands for no other port -/
  listener : ∀ t s, (gs t).self = some s → t < n ∧ ∃ v, w.services t = some v ∧ Matches v s
    ∧ (gs t).stage.Taken (A v.port) (fun _ _ => True)
    ∧ ((gs t).stage ≠ .leaving → w.ids.exited t = false
      ∧ ∀ p, w.lpc.portOf v.hPort = some p → p = v.port)
  /-- nor does that of a port that is being registered -/
  created  : ∀ t h, (gs t).stage = .created h → t < n ∧ ∃ p, w.lpc.lastPort t = some (p, h)
    ∧ ∀ p', w.lpc.portOf h = some p' → p' = p

section Invariant

variable {A : Nat → Message b → Prop} {n t : Nat} {w w' : World b} {gs : Nat → Ghost b}
  {g g' : Ghost b} {c : Choice b} {o : Op} {r : Op.Ret b o} {sp : Option Label}

/-- Who leaves keeps leaving. -/
theorem leaving_after (hpre : Pre o g) (hst : g.stage = .leaving) :
    Stage.after g o r = .leaving := by
  cases o with
  | heap o =>
      show g.stage.seen g.own o r = .leaving
      rw [hst]
      cases o <;> rfl
  | kernel o =>
      show g.stage.next o r = .leaving
      rw [hst]
      cases o <;> rfl
  | api o =>
      cases o with
      | note x =>
          cases x with
          | returned call status =>
              obtain ⟨-, hcall⟩ := hpre
              cases call with
              | unregister a =>
                  rcases hcall with h | ⟨h, -⟩ <;> rw [hst] at h <;> cases h
              | _ =>
                  rw [hst] at hcall
                  cases hcall
          | _ => exact hst
      | _ => exact hst
  | loadCloseEvent a =>
      have h := hpre.1
      rw [hst] at h
      cases h
  | setCloseEvent a =>
      have h := hpre.1
      rw [hst] at h
      cases h
  | createThread l =>
      cases l with
      | waitThread d =>
          obtain ⟨-, h, lpRoutine, a, p, h', -⟩ := hpre
          rw [hst] at h'
          cases h'
      | workerThread param =>
          obtain ⟨⟨sv, m, h, h', m', lm, r', copy, n, -, hst', -⟩, -⟩ := hpre
          rw [hst] at hst'
          cases hst'
      | _ => exact hpre.elim
  | _ => exact hst

/-- **THE INVARIANT** is kept by every operation that gives out no claimed number. -/
theorem Ports.after (H : Ports A n w gs) (K : Known n w gs) (ht : t < n) (hpre : Pre o (gs t))
    (hpost : Post o (gs t) r g') (hx : exec t n o c w = some (r, w', sp))
    (hfree : ∀ h ∈ given c, ¬ Claimed n w h) :
    Ports A (n + sp.toList.length) w' (after gs t n g' (sp.map fun l => born l (gs t))) := by
  obtain ⟨hself, hstage, -⟩ := hpost.fields
  have hcases := after_cases gs t n g' (sp.map fun l => born l (gs t))
  have hn : n ≤ n + sp.toList.length := Nat.le_add_right ..
  -- behind a claimed number nothing new appears
  have keep : ∀ {h p}, Claimed n w h → w'.lpc.portOf h = some p → w.lpc.portOf h = some p :=
    fun hclaim => portOf_exec hx fun h' hh' he => hfree h' hh' (he ▸ hclaim)
  have hlast : ∀ {u p h}, u < n → w.lpc.lastPort u = some (p, h) → Claimed n w h :=
    fun hu h => ⟨_, hu, Or.inr ⟨_, h, rfl⟩⟩
  refine ⟨fun p m hm => H.queue p m (exec_queue hx hm), ?_, ?_⟩
  · intro u s hs
    rcases hcases u with ⟨hu, hnew, he⟩ | ⟨rfl, he⟩ | ⟨rfl, z, hz, he⟩ <;> rw [he] at hs ⊢
    · -- another thread
      obtain ⟨hlt, v, hv, hmatches, htaken, hport⟩ := H.listener u s hs
      have hold : u ≠ n ∨ sp = none := hnew.imp_right Option.map_eq_none_iff.mp
      refine ⟨Nat.lt_of_lt_of_le hlt hn, v, (exec_services hx hold).trans hv, hmatches, htaken, ?_⟩
      intro hst
      obtain ⟨hlive, hport⟩ := hport hst
      refine ⟨(exec_exited hx hold fun h => absurd h hu).trans hlive, ?_⟩
      exact fun p hp => hport p (keep ⟨u, hlt, Or.inl ⟨v, hv, rfl, hlive⟩⟩ hp)
    · -- the thread itself
      rw [hself] at hs
      obtain ⟨hlt, v, hv, hmatches, htaken, hport⟩ := H.listener u s hs
      have hold : u ≠ n ∨ sp = none := Or.inl (Nat.ne_of_lt ht)
      rw [hstage]
      refine ⟨Nat.lt_of_lt_of_le hlt hn, v, (exec_services hx hold).trans hv, hmatches, ?_, ?_⟩
      · refine htaken.exec hpre hx ?_ fun _ _ _ _ _ _ _ _ _ _ => trivial
        rintro h p m rfl hp hm -
        obtain ⟨hst, s', hs', rfl⟩ := hpre
        obtain rfl := Option.some.inj (hs.symm.trans hs')
        have hst : (gs u).stage ≠ .leaving := by
          intro h
          rw [hst] at h
          cases h
        rw [← hmatches.port] at hp
        exact (hport hst).2 p hp ▸ H.queue p m hm
      · intro hst
        have hst : (gs u).stage ≠ .leaving := fun h => hst (leaving_after hpre h)
        obtain ⟨hlive, hport⟩ := hport hst
        refine ⟨(exec_exited hx hold ?_).trans hlive, ?_⟩
        · rintro - rfl
          rcases hpre with h | h
          · rw [hs] at h
            cases h
          · exact hst h
        · exact fun p hp => hport p (keep ⟨u, hlt, Or.inl ⟨v, hv, rfl, hlive⟩⟩ hp)
    · -- a new listener takes over the port that was created for it
      obtain ⟨l, rfl, rfl⟩ := Option.map_eq_some_iff.mp hz
      obtain rfl := exec_starts hx
      obtain ⟨v, hv, hmatches, hst, hlast'⟩ := exec_served K hpre
        (fun h hst => (H.created t h hst).2.imp fun _ h => h.1) hx hs
      obtain ⟨-, p, hp, hport⟩ := H.created t v.hPort hst
      obtain rfl : p = v.port := (Prod.mk.inj (Option.some.inj (hp.symm.trans hlast'))).1
      refine ⟨by simp, v, hv, hmatches, Stage.Taken.born l _, fun _ => ⟨?_, ?_⟩⟩
      · rcases exec_createThread hx with ⟨-, -, hsp⟩ | ⟨tid, -, -, -, rfl⟩
        · cases hsp
        · exact Function.update_self ..
      · exact fun p hp' => hport p (keep (hlast ht hlast') hp')
  · intro u h hst
    rcases hcases u with ⟨hu, hnew, he⟩ | ⟨rfl, he⟩ | ⟨rfl, z, hz, he⟩ <;> rw [he] at hst
    · obtain ⟨hlt, p, hp, hport⟩ := H.created u h hst
      refine ⟨Nat.lt_of_lt_of_le hlt hn, p, (exec_lastPort hx hu).trans hp, ?_⟩
      exact fun p' hp' => hport p' (keep (hlast hlt hp) hp')
    · rw [hstage] at hst
      refine ⟨Nat.lt_of_lt_of_le ht hn, ?_⟩
      rcases exec_created hx hpre hst with ⟨hold, hlast'⟩ | ⟨p, hp, hl⟩
      · obtain ⟨-, p, hp, hport⟩ := H.created u h hold
        exact ⟨p, hlast'.trans hp, fun p' hp' => hport p' (keep (hlast ht hp) hp')⟩
      · refine ⟨p, hp, ?_⟩
        intro p' hp'
        rw [Lpc.portOf, hl] at hp'
        exact (Option.some.inj hp').symm
    · obtain ⟨l, -, rfl⟩ := Option.map_eq_some_iff.mp hz
      cases l <;> cases hst

/-- A listener that turns to the next connection does not leave. -/
theorem Ports.land (H : Ports A n w gs) {l : Label} (hg : Goto l (gs t)) :
    Ports A n w (Function.update gs t (land l (gs t))) := by
  have hself : (ScOwnership.land l (gs t)).self = (gs t).self := by cases l <;> rfl
  refine ⟨H.queue, ?_, ?_⟩
  · intro u s hs
    by_cases hu : u = t
    · subst hu
      rw [Function.update_self] at hs ⊢
      rw [hself] at hs
      obtain ⟨hlt, v, hv, hmatches, htaken, hport⟩ := H.listener u s hs
      refine ⟨hlt, v, hv, hmatches, htaken.land l, ?_⟩
      intro hst
      refine hport ?_
      cases l <;> first | exact hst | exact hg.1
    · rw [Function.update_of_ne hu] at hs ⊢
      exact H.listener u s hs
  · intro u h hst
    by_cases hu : u = t
    · subst hu
      rw [Function.update_self] at hst
      refine H.created u h ?_
      cases l <;> first | exact hst | cases hst
    · rw [Function.update_of_ne hu] at hst
      exact H.created u h hst

end Invariant

/-! ## The result -/

/-- `A` holds of the messages that arrive. -/
def Arrives (A : Nat → Message b → Prop) : Event (Choice b) → Prop
  | .env (.send p m) => A p m
  | _ => True

/-- The rule applies. -/
theorem ports_method {A : Nat → Message b → Prop} : Method (system b) (outline b) Entry Goto
    (fun n w gs => Shared n w gs ∧ Ports A n w gs) (fun _ => True)
    fun s e => Harmlessly s e ∧ Arrives A e ∧ Unclaimed s e := by
  refine method ?_ ?_ ?_ ?_
  · intro s gs t c o hc hn _ _
    exact hc.1 o hn
  · intro s gs t c th l _ _ _ _ H hg
    exact H.land hg
  · intro s gs t c th o k r w' sp g' hc hth _ hS H hpre hx hpost
    exact H.after hS.known (List.getElem?_eq_some_iff.mp hth).1 hpre hpost hx hc.2.2
  · intro s gs c w' hc _ H he
    rcases env_cases he with ⟨p, m, rfl, -, -, rfl⟩ | ⟨a, d, -, -, rfl⟩ | ⟨pid, a, v, -, rfl⟩
    · refine ⟨?_, H.listener, H.created⟩
      intro q m' hm'
      have hm' : m' ∈ Function.update s.world.lpc.queue p (s.world.lpc.queue p ++ [m]) q := hm'
      by_cases hq : q = p
      · subst hq
        rw [Function.update_self] at hm'
        rcases List.mem_append.mp hm' with hm' | hm'
        · exact H.queue q m' hm'
        · rw [List.mem_singleton.mp hm']
          exact hc.2.1
      · rw [Function.update_of_ne hq] at hm'
        exact H.queue q m' hm'
    · exact ⟨H.queue, H.listener, H.created⟩
    · exact ⟨H.queue, H.listener, H.created⟩

/-- Every listener listens at the port of its own registration, and what it hands to a worker
    came to this port: it was checked against the list of the service, and the routine is the
    one of the service. -/
structure OwnPort (A : Nat → Message b → Prop) (s : State b) : Prop where
  listens    : ∀ {t h}, s.next t = some (.kernel (.ntListenPort h)) →
    ∃ v, s.world.services t = some v ∧ h = v.hPort
      ∧ ∀ p, s.world.lpc.portOf h = some p → p = v.port
  dispatches : ∀ {t param}, s.next t = some (.createThread (.workerThread param)) →
    ∃ v m lm r, s.world.services t = some v ∧ A v.port m
      ∧ rtlEqualParameterType v.lpParameters
        (readParameters (deliver lm m) (callparam m.image)) = true
      ∧ routineAt s.world.heap param = some r ∧ r.lpRoutine = v.lpRoutine

/-- **A LISTENER KEEPS TO ITS PORT** in every run in which threads register and unregister
    any services in any order, while no number is given out as a handle that stands for the
    port of a service whose listener has not ended, or of one that is being registered, and
    no failed mapping frees what it did not allocate. -/
theorem listens_own {A : Nat → Message b → Prop} {w : World b} {calls : List (List Call)}
    {s : State b} (hqueue : ∀ p, ∀ m ∈ w.lpc.queue p, A p m)
    (hr : (system b).Run (fun s e => Harmlessly s e ∧ Arrives A e ∧ Unclaimed s e)
      (starting w calls) s) : OwnPort A s := by
  have hbegin : Ports A calls.length w (Prod.fst ∘ ghosts w calls) := by
    have hself : ∀ t, (ghosts w calls t).1.self = none :=
      ScHandle.ghosts_forall (P := fun y => y.1.self = none) (fun _ _ => rfl) rfl
    have hstage : ∀ t h, (ghosts w calls t).1.stage ≠ .created h :=
      ScHandle.ghosts_forall (P := fun y => ∀ h, y.1.stage ≠ .created h)
        (by simp [Ghost.blank]) (by simp [Ghost.blank])
    refine ⟨hqueue, ?_, fun t h hst => absurd hst (hstage t h)⟩
    intro t s hs
    rw [show ((Prod.fst ∘ ghosts w calls) t).self = none from hself t] at hs
    cases hs
  have hstart : Holds (outline b) Goto (fun n w gs => Shared n w gs ∧ Ports A n w gs)
      (fun _ => True) (starting w calls) (Prod.fst ∘ ghosts w calls) := by
    refine holds_begin ports_method ?_ ?_
    · rw [List.length_map]
      exact ⟨shared_starting, hbegin⟩
    · intro t l hl _
      rw [List.getElem?_map] at hl
      obtain ⟨cs, hcs, rfl⟩ := Option.map_eq_some_iff.mp hl
      show Entry (.app cs) (ghosts w calls t).1
      simp only [ghosts, hcs]
      exact ⟨rfl, rfl, rfl⟩
  obtain ⟨gs, h⟩ := ports_method.run hr hstart
  obtain ⟨⟨hS, H⟩, -⟩ := id h
  refine ⟨?_, ?_⟩
  · intro t h' hn
    obtain ⟨hst, sv, hself, rfl⟩ := h.pre_next hn
    obtain ⟨-, v, hv, hmatches, -, hport⟩ := H.listener t sv hself
    have hst : (gs t).stage ≠ .leaving := by
      intro h
      rw [hst] at h
      cases h
    exact ⟨v, hv, hmatches.port.symm, hmatches.port ▸ (hport hst).2⟩
  · intro t param hn
    have hpre : Pre (b := b) (.createThread (.workerThread param)) (gs t) := h.pre_next hn
    obtain ⟨⟨sv, m, h₁, h₂, m', lm, r, copy, size, hself, hst, -, hequal, hparam, -, -, hroutine,
      -⟩, -⟩ := hpre
    obtain ⟨-, v, hv, hmatches, htaken, -⟩ := H.listener t sv hself
    rw [hst] at htaken
    obtain ⟨cl, hcell⟩ := hS.known.routine hparam
    exact ⟨v, m, lm, _, hv, htaken.1, hmatches.parameters ▸ hequal, routineAt_eq_some.mpr hcell,
      hroutine.trans hmatches.routine.symm⟩

/-! ### A number that is given out again -/

/-- A thread registers a service without parameters, unregisters it and registers another
    one. -/
def twoServices : State .x64 :=
  starting (World.initialized .x64)
    [[.register 100 200 300 (some []), .unregister 16, .register 100 208 300 (some [])]]

/-- It registers a service, with the list and the descriptor at these addresses; the handle
    of the port is 4, and `h` that of the thread. -/
def registers (list d : LPVOID) (h : HANDLE) (tid : Nat) : List (Event (Choice .x64)) :=
  turns 0 11 ++ .thread 0 (.fresh list (.parameters ⟨[]⟩)) :: turns 0 1
    ++ .thread 0 (.handle 4) :: turns 0 1
    ++ .thread 0 (.fresh d (.routine (.new 0 0 0))) :: turns 0 1
    ++ .thread 0 (.thread h tid) :: turns 0 3

/-- What the listener of the service does when it is thread `t`. -/
def byThread (t : Nat) : Event (Choice .x64) → Event (Choice .x64)
  | .thread _ c => .thread t c
  | .env c => .env c

/-- A client calls the second service, and thread `t` takes its connection. -/
def takes (t : Nat) : List (Event (Choice .x64)) :=
  [.env (.send 1 (.compose .x64 LPC_CONNECTION_REQUEST ⟨8, 9⟩ 1 (parameterBytes ⟨[]⟩)
      empty_fits)),
    .env (.send 1 (.compose .x64 LPC_REQUEST ⟨8, 9⟩ 2 [] nothing_fits))]
    ++ (accepts 96 16 20 ++ (dispatches 0 112 128 24 3).dropLast.dropLast).map (byThread t)

/-- The first listener sleeps while its service is unregistered. -/
def asleep : List (Event (Choice .x64)) :=
  registers 32 16 8 1 ++ (begins 48).map (byThread 1) ++ turns 0 7

/-- It finds its port closed and ends before the other service is registered. -/
def ended : List (Event (Choice .x64)) :=
  asleep ++ turns 1 2 ++ .thread 1 (.fail STATUS_ACCESS_VIOLATION) :: turns 1 6
    ++ registers 64 80 12 2 ++ (begins 48).map (byThread 2) ++ takes 2

/-- What is sent goes to the second port. -/
def arrivesNow : Event (Choice b) → Bool
  | .env (.send p _) => p == 1
  | _ => true

theorem arrivesNow_sound {e : Event (Choice b)} (h : arrivesNow e = true) :
    Arrives (fun p _ => p = 1) e := by
  unfold arrivesNow at h
  split at h
  · exact eq_of_beq h
  · next he =>
      unfold Arrives
      split
      · exact absurd rfl (he _ _)
      · trivial

theorem listens_own_ended : ∃ s : State .x64,
    (system .x64).runIf
      (fun s e => decide (Harmlessly s e) && (arrivesNow e && decide (Unclaimed s e))) ended
      twoServices = some s
    ∧ startsNow s 2 = some 96 ∧ OwnPort (fun p _ => p = 1) s := by
  have hrun : ((system .x64).runIf
      (fun s e => decide (Harmlessly s e) && (arrivesNow e && decide (Unclaimed s e))) ended
      twoServices).map (fun s => startsNow s 2) = some (some 96) := by decide +kernel
  obtain ⟨s, hs, hstarts⟩ := Option.map_eq_some_iff.mp hrun
  refine ⟨s, hs, hstarts, listens_own (fun _ m hm => absurd hm List.not_mem_nil)
    (Sys.run_of_runIf ?_ hs)⟩
  intro s e h
  obtain ⟨hharm, h⟩ := (Bool.and_eq_true _ _).mp h
  obtain ⟨harrives, hclaim⟩ := (Bool.and_eq_true _ _).mp h
  exact ⟨of_decide_eq_true hharm, arrivesNow_sound harrives, of_decide_eq_true hclaim⟩

/-- The first listener still sleeps when the second service gets the number of its handle:
    it takes the connections of the second service and starts workers for them. -/
theorem listens_stale : ¬ ∀ (s : State .x64), (system .x64).Run
    (fun s e => Harmlessly s e ∧ Arrives (fun p _ => p = 1) e) twoServices s →
    OwnPort (fun p _ => p = 1) s := by
  intro hclaim
  have hrun : ((system .x64).runIf (fun s e => decide (Harmlessly s e) && arrivesNow e)
      (asleep ++ registers 64 80 12 2 ++ takes 1) twoServices).map
        (fun s => (startsNow s 1, (s.world.services 1).map Service.port))
      = some (some 96, some 0) := by decide +kernel
  obtain ⟨s, hs, he⟩ := Option.map_eq_some_iff.mp hrun
  obtain ⟨hstarts, hservice⟩ := Prod.mk.inj he
  have hown := hclaim s (Sys.run_of_runIf (fun s e h =>
    ⟨of_decide_eq_true ((Bool.and_eq_true _ _).mp h).1,
      arrivesNow_sound ((Bool.and_eq_true _ _).mp h).2⟩) hs)
  obtain ⟨v, m, lm, r, hv, hport, -⟩ := hown.dispatches (next_of_startsNow hstarts)
  -- the service of the thread has the first port, the message came to the second
  rw [hv] at hservice
  have hzero : v.port = 0 := Option.some.inj hservice
  rw [hzero] at hport
  cases hport

end ScPort
