import ServiceCall.AnswerProofs
import ServiceCall.HandleProofs

/-! # What becomes of a call

    A listener has accepted a connection and received the request; it starts a worker.
    From then on the worker is one thread among many: listeners of this and other
    services, workers of other clients, threads that register.  In every run in which
    the client is left alone, and the system calls of the worker succeed where they can,
    the call is served (`call_served`): the worker does all that a call by value and
    result does, with the routine of its service and the list it was given.

    The run of the system is one of the worker alone, among what the others leave to it
    (`Sys.Follows.walks`); that they leave it its blocks is `Known`, that its handles
    lead to its client is `Handles`. -/

namespace ScCall

open LinearMemory OwnedHeap OpProg ThreadSys ScParameter LpcMessage ScSystem
  ScServiceCall ScOwnership ScSequential ScHandle ScAnswer

variable {b : Build}

/-! ## What is asked of a run -/

/-- Whether an operation has got what it asks for, and whether it could have: room in the heap,
    or memory of the process `pid`. -/
def obtained (pid : Nat) (w : World b) : (o : Op) → Op.Ret b o → Option (Bool × Bool)
  | .heap (.allocNothrow ..), a => some (a != (0 : LPVOID), true)
  | .kernel (.ntReadVirtualMemory _ a n), r =>
      some (ntSuccess r.1, Lpc.accessible (w.lpc.memory pid).readable a n)
  | .kernel (.ntWriteVirtualMemory _ a bytes), r =>
      some (ntSuccess r, Lpc.accessible (w.lpc.memory pid).writable a bytes.length)
  | _, _ => none

/-- The heap does not run out, and memory of the process `pid` is read and written where it
    can be. -/
def Obliging (pid : Nat) (w : World b) (o : Op) (r : Op.Ret b o) : Prop :=
  ∀ x ∈ obtained pid w o r, x.1 = x.2

instance (pid : Nat) (w : World b) (o : Op) (r : Op.Ret b o) : Decidable (Obliging pid w o r) :=
  inferInstanceAs (Decidable (∀ x ∈ obtained pid w o r, x.1 = x.2))

/-- The process an operation writes to. -/
def writtenBy (w : World b) : Op → Option Nat
  | .kernel (.ntWriteVirtualMemory h ..) => w.lpc.processOf h
  | .api (.storeOwn ..) => some w.lpc.self
  | _ => none

/-- The process whose memory a step of the environment changes. -/
def poked : Choice b → Option Nat
  | .poke pid .. => some pid
  | _ => none

/-- A step after which the worker `t` can still serve the client whose process is `pid`:
    nobody else writes to that process, the system calls of the worker succeed where they
    can, and no failed mapping does harm. -/
def Undisturbed (t pid : Nat) (s : State b) : Event (Choice b) → Prop
  | .env c => poked c ≠ some pid
  | .thread u c => Harmlessly s (.thread u c) ∧ ∀ o ∈ s.next u,
      if u = t then s.world.lpc.self ≠ pid
        ∧ ∀ x ∈ exec t s.threads.length o c s.world, Obliging pid s.world o x.1
      else writtenBy s.world o ≠ some pid

instance (t pid : Nat) (s : State b) : (e : Event (Choice b)) → Decidable (Undisturbed t pid s e)
  | .env c => inferInstanceAs (Decidable (poked c ≠ some pid))
  | .thread u c => inferInstanceAs (Decidable (Harmlessly s (.thread u c) ∧ ∀ o ∈ s.next u,
      if u = t then s.world.lpc.self ≠ pid
        ∧ ∀ x ∈ exec t s.threads.length o c s.world, Obliging pid s.world o x.1
      else writtenBy s.world o ≠ some pid))

theorem Undisturbed.harmlessly {t pid : Nat} {s : State b} {e : Event (Choice b)}
    (h : Undisturbed t pid s e) : Harmlessly s e := by
  cases e with
  | thread u c => exact h.1
  | env c => exact trivial

/-! ## What a step leaves to a worker -/

section Leaves

variable {n u t pid : Nat} {w w' : World b} {ys : Nat → Ghost b × Option Session} {o : Op}
  {c : Choice b} {r : Op.Ret b o} {sp : Option Label}

/-- A thread hands over blocks it knows. -/
theorem given_own {g : Ghost b} {l : Label} (hpre : Pre (b := b) (.createThread l) g)
    {a : LPVOID} (ha : a ∈ l.given g.own) (h0 : a ≠ 0) : g.own a ≠ none := by
  cases l with
  | waitThread d =>
      obtain ⟨-, h, lpRoutine, a', p, -, hd, ha'⟩ := hpre
      rw [given_waitThread hd] at ha
      rcases List.mem_pair.mp ha with rfl | rfl
      · rw [hd]
        exact Option.some_ne_none _
      · exact fun hnone => Option.some_ne_none _ (ha'.symm.trans hnone)
  | workerThread param =>
      obtain ⟨⟨s, m, h, h', m', lm, r, copy, size, -, -, -, -, hr, -, -, -, hlm, -, hp⟩, -⟩ :=
        hpre
      rw [given_workerThread hr] at ha
      rcases List.mem_cons.mp ha with rfl | ha
      · rw [hr]
        exact Option.some_ne_none _
      · rcases List.mem_pair.mp ha with rfl | rfl
        · rw [hlm]
          exact Option.some_ne_none _
        · split at hp
          · rw [hp]
            exact Option.some_ne_none _
          · exact absurd hp h0
  | _ => exact hpre.elim

/-- A thread leaves the blocks of the others to them. -/
theorem holder_frame {gs : Nat → Ghost b} (K : Known n w gs) (hpre : Pre o (gs u))
    (hset : ∀ a, o ≠ .setCloseEvent a) (hx : exec u n o c w = some (r, w', sp)) {a : LPVOID}
    {x : Block} (h0 : a ≠ 0) (ha : w.heap.cells a = some x) (hne : w.heap.holder a ≠ u) :
    w'.heap.holder a = w.heap.holder a := by
  cases o with
  | heap o =>
      obtain ⟨h, hh, rfl, -⟩ := exec_heap hx
      rcases hpre.1 with hp | ⟨a', rfl, -⟩
      · obtain ⟨own, -, -, -, hframe⟩ := K.owns.exec hp hh
        exact (hframe a x ha hne).2
      · exact congrFun (exec_load_any hh).2.2.2 a
  | kernel o =>
      obtain ⟨k, -, rfl, -⟩ := exec_kernel hx
      rfl
  | id o =>
      obtain ⟨s, -, rfl, -⟩ := exec_id hx
      rfl
  | api o =>
      obtain ⟨⟨a, m, rfl⟩, -⟩ := exec_api hx
      rfl
  | loadCloseEvent a' =>
      obtain ⟨-, -, ⟨d, -, -, rfl⟩ | ⟨-, rfl⟩⟩ := exec_loadCloseEvent hx <;> rfl
  | setCloseEvent a' => exact absurd rfl (hset a')
  | createThread l =>
      rcases exec_createThread hx with ⟨-, rfl, -⟩ | ⟨tid, -, -, -, rfl⟩
      · rfl
      · refine if_neg ?_
        simp only [decide_eq_true_eq]
        intro hgiven
        rw [(K.given hpre).1] at hgiven
        obtain ⟨y, hy⟩ := Option.ne_none_iff_exists'.mp (given_own hpre hgiven h0)
        exact hne (K.owns.holds hy)

/-- The memory of a process that an operation spares is as it was. -/
theorem memory_frame (hspares : writtenBy w o ≠ some pid) (hx : exec u n o c w = some (r, w', sp)) :
    w'.lpc.memory pid = w.lpc.memory pid := by
  cases o with
  | heap o =>
      obtain ⟨h, -, rfl, -⟩ := exec_heap hx
      rfl
  | kernel o =>
      obtain ⟨k, E, rfl, -⟩ := exec_kernel hx
      cases E with
      | @wrote h a bytes pid' hp hacc =>
          refine Function.update_of_ne ?_ ..
          rintro rfl
          exact hspares hp
      | @closed h x hl => cases x <;> rfl
      | _ => rfl
  | id o =>
      obtain ⟨s, -, rfl, -⟩ := exec_id hx
      rfl
  | api o =>
      obtain ⟨⟨a, m, rfl⟩, -⟩ := exec_api hx
      refine api_memory ?_ hx
      rintro x bytes rfl rfl
      exact hspares rfl
  | loadCloseEvent a =>
      obtain ⟨-, -, ⟨d, -, -, rfl⟩ | ⟨-, rfl⟩⟩ := exec_loadCloseEvent hx <;> rfl
  | setCloseEvent a =>
      obtain ⟨-, -, ⟨d, -, rfl⟩ | ⟨-, rfl⟩⟩ := exec_setCloseEvent hx <;> rfl
  | createThread l =>
      rcases exec_createThread hx with ⟨-, rfl, -⟩ | ⟨tid, -, -, -, rfl⟩ <;> rfl

/-- Nobody sets the length of messages. -/
theorem length_frame {g : Ghost b} {x : Option Session} (hg : Guard o g x)
    (hx : exec u n o c w = some (r, w', sp)) :
    w'.ids.systemLpcMessageLength = w.ids.systemLpcMessageLength := by
  refine (exec_length hx).2 ?_
  rintro m rfl
  exact hg

/-- An operation of another thread leaves the worker what it has. -/
theorem leaves_exec (hK : Known n w (Prod.fst ∘ ys)) (hreg : Registers (ys u).1)
    (hpre : (ScHandle.outline b).pre o (ys u)) (hut : u ≠ t) (hspares : writtenBy w o ≠ some pid)
    (hx : exec u n o c w = some (r, w', sp)) : Left t pid w w' := by
  have hset : ∀ a, o ≠ .setCloseEvent a := by
    rintro a rfl
    have hpre₁ : Pre (.setCloseEvent a) (ys u).1 := hpre.1
    exact hreg.todo a (List.mem_of_mem_head? hpre₁.2)
  refine ⟨?_, memory_frame hspares hx, length_frame hpre.2 hx⟩
  intro a x h0 hholder ha
  have hne : w.heap.holder a ≠ u := by
    rw [hholder]
    exact hut.symm
  exact ⟨(holder_frame hK hpre.1 hset hx h0 ha hne).trans hholder, x,
    hK.frame hpre.1 hset hx ha hne, rfl⟩

/-- So does a step of the environment that spares the process of the client. -/
theorem leaves_env (hspares : poked c ≠ some pid) (he : env c w = some w') : Left t pid w w' := by
  rcases env_cases he with ⟨p, m, -, -, -, rfl⟩ | ⟨a, d, -, ha, rfl⟩ | ⟨pid', a, v, rfl, rfl⟩
  · exact ⟨fun _ x _ h₁ h₂ => ⟨h₁, x, h₂, rfl⟩, rfl, rfl⟩
  · refine ⟨?_, rfl, rfl⟩
    intro a' x _ hholder hx
    refine ⟨hholder, ?_⟩
    by_cases haa : a' = a
    · subst haa
      obtain rfl := Option.some.inj ((routineAt_eq_some.mp ha).symm.trans hx)
      exact ⟨_, routineAt_mark .., rfl⟩
    · exact ⟨x, (Heap.set_ne _ haa _).trans hx, rfl⟩
  · refine ⟨fun _ x _ h₁ h₂ => ⟨h₁, x, h₂, rfl⟩, ?_, rfl⟩
    refine Function.update_of_ne ?_ ..
    rintro rfl
    exact hspares rfl

end Leaves

/-! ## The worker -/

section Served

variable {n t pid : Nat} {w : World b} {s s' : State b} {client : ClientId} {h : HANDLE}

/-- A worker that knows what it was given has been hired. -/
theorem hired_of_working {gs : Nat → Ghost b} (K : Known n w gs) {lpService : LPVOID}
    {r : ServiceRoutine} {lm : Nat → BYTE} {k : Nat} {p : ServiceRoutineParameter}
    (W : ScOwnership.Working (gs t) lpService r lm k (some p)) :
    ∃ closeEvent, Hired w t lpService { r with closeEvent := closeEvent } p := by
  have hlist : (gs t).own r.lpParameters = some (.parameters p) := W.list
  obtain ⟨closeEvent, hroutine⟩ := K.routine W.routine
  refine ⟨closeEvent, ⟨hroutine, ⟨lm, k, ?_⟩, ?_⟩, ?_, ?_⟩
  · exact K.exact W.message Kind.noConfusion
  · exact K.exact hlist Kind.noConfusion
  · intro a ha
    simp only [List.mem_cons, List.not_mem_nil, or_false] at ha
    rcases ha with rfl | rfl | rfl
    · exact K.owns.holds W.routine
    · exact K.owns.holds W.message
    · exact K.owns.holds hlist
  · intro h0
    simp only [List.mem_cons, List.not_mem_nil, or_false] at h0
    have hnull : ∀ {x : Block}, (gs t).own 0 ≠ some x := by
      intro x hx
      rw [K.null t] at hx
      cases hx
    rcases h0 with h0 | h0 | h0
    · exact hnull (h0 ▸ W.routine)
    · exact hnull (h0 ▸ W.message)
    · exact hnull (h0 ▸ hlist)

/-- What holds while the worker `t` serves `client`, with the handle `h` for its process. -/
def Serves (t : Nat) (client : ClientId) (h : HANDLE) (s : State b) : Prop :=
  ∃ ys, ThreadSys.Holds (ScHandle.outline b) ScHandle.Goto
    (fun n w ys => (Shared n w (Prod.fst ∘ ys) ∧ Handles w ys) ∧ ClientOf t client h n w ys)
    (fun _ => True) s ys

/-- What the others do is left to it. -/
theorem Serves.left (H : Serves t client h s) {e : Event (Choice b)}
    (hc : Undisturbed t (processOf client) s e) (hs : (system b).step e s = some s')
    (hother : Sys.Other t s e) : Left t (processOf client) s.world s'.world := by
  obtain ⟨ys, hys⟩ := H
  rcases Sys.step_cases hs with ⟨c, w, rfl, he, rfl⟩ | ⟨u, c, th, l, rfl, -, -, rfl⟩ |
    ⟨u, c, th, o, k, r, w, sp, rfl, hth, hcur, hx, rfl⟩
  · exact leaves_env hc he
  · exact .refl ..
  · have hn := Config.next_of_cur hth hcur
    have hut : u ≠ t := by
      rintro rfl
      rw [hother c rfl] at hn
      cases hn
    have hspares := hc.2 o hn
    rw [if_neg hut] at hspares
    exact leaves_exec hys.1.1.1.known (hys.1.1.2.registers u) (hys.pre_next hn) hut hspares hx

/-- What it does itself is what a worker among others does. -/
theorem Serves.amid (H : Serves t client h s) {c : Choice b} {o : Op} {r : Op.Ret b o}
    {w' : World b} {sp : Option Label}
    (hc : Undisturbed t (processOf client) s (.thread t c)) (hn : s.next t = some o)
    (hx : exec t s.threads.length o c s.world = some (r, w', sp)) :
    Amid t h (processOf client) o s.world r w' := by
  obtain ⟨ys, hys⟩ := H
  obtain ⟨⟨⟨-, hH⟩, ht, S, hS, rfl, rfl⟩, -⟩ := id hys
  obtain ⟨hharm, hc⟩ := hc
  have hc := hc o hn
  rw [if_pos rfl] at hc
  obtain ⟨hself, hobliging⟩ := hc
  have hobliging := hobliging _ hx
  have hguard := (hys.pre_next hn).2
  -- the handle of the session is still that of the client
  have process : ∀ {h'}, (∃ S', (ys t).2 = some S' ∧ h' = S'.hClientProcess ∧ h' ∈ S'.left) →
      s.world.lpc.processOf S.hClientProcess = some (processOf S.client) := by
    rintro h' ⟨S', hS', rfl, hleft⟩
    obtain rfl := Option.some.inj (hS.symm.trans hS')
    rw [Lpc.processOf, hH.process hS hleft]
  refine ⟨_, s.world, ht, .refl .., ⟨c, sp, hx⟩, ?_, hharm o hn⟩
  cases o with
  | heap o =>
      cases o with
      | allocNothrow k n => exact bne_iff_ne.mp (hobliging _ rfl)
      | _ => trivial
  | kernel o =>
      cases o with
      | ntReadVirtualMemory h' a n => exact fun _ => ⟨process hguard, hobliging _ rfl⟩
      | ntWriteVirtualMemory h' a bytes => exact fun _ => ⟨process hguard, hobliging _ rfl⟩
      | _ => trivial
  | api o =>
      cases o with
      | storeOwn a bytes => exact hself
      | _ => trivial
  | _ => trivial

/-- The operations of the worker make a walk from label to label. -/
theorem Serves.walks (H : Serves t client h s) {lpService : LPVOID}
    {th : Thread Op (Op.Ret b) Label} (hth : s.threads[t]? = some th)
    (hcur : th.cur = workerThread lpService) {tr : Events b}
    (hf : (system b).Follows (Undisturbed t (processOf client)) t s tr s')
    {th' : Thread Op (Op.Ret b) Label} (hth' : s'.threads[t]? = some th')
    (hdone : th'.cur = .ret none) :
    ∃ w, Left t (processOf client) w s'.world
      ∧ Walks code (Amid t h (processOf client)) (some (.workerThread lpService)) s.world tr none
        w := by
  obtain ⟨-, th₁, w, hth₁, hleft, hwalk⟩ := Sys.Follows.walks (S := system b)
    (I := Serves t client h) (E := Left t (processOf client))
    (R := Amid t h (processOf client)) (l := .workerThread lpService)
    (.refl t (processOf client)) .trans
    (fun h₁ ⟨n, w₂, hn, h₂, h₃⟩ => ⟨n, w₂, hn, h₁.trans h₂, h₃⟩)
    (fun ⟨ys, hys⟩ hc hs => (client_method t client h).step hc.harmlessly hs hys)
    (fun H hc hs hother => H.left hc hs hother) (fun H hc hn hx => H.amid hc hn hx)
    H hth hcur hf
  obtain rfl := Option.some.inj (hth₁.symm.trans hth')
  have hwalk := hwalk none [] w (by rw [hdone]; exact .ret ..)
  rw [List.append_nil] at hwalk
  exact ⟨w, hleft, hwalk⟩

variable {calls : List (List Call)} {s₁ s₂ : State b} {u : Nat} {c : Choice b}
  {lpService : LPVOID}

/-- When a listener starts a worker, that is the new thread: it knows what it was given, it
    has the handles of a session, and its routine is that of the listener's service. -/
theorem worker_started (hcalls : RegistersOnly calls)
    (hr : (system b).Run Harmlessly (starting w calls) s₁)
    (hn : s₁.next u = some (.createThread (.workerThread lpService)))
    (hstep : (system b).step (.thread u c) s₁ = some s₂)
    (hstarted : s₁.threads.length < s₂.threads.length) :
    ∃ ys r lm size p S v, ThreadSys.Holds (ScHandle.outline b) ScHandle.Goto
        (fun n w ys => (Shared n w (Prod.fst ∘ ys) ∧ Handles w ys) ∧ True) (fun _ => True) s₂ ys
      ∧ s₂.threads[s₁.threads.length]? = some ((system b).begin (.workerThread lpService))
      ∧ ScOwnership.Working ((Prod.fst ∘ ys) s₁.threads.length) lpService r lm size p
      ∧ (ys s₁.threads.length).2 = some S ∧ ScHandle.Holds r S
      ∧ s₁.world.services u = some v ∧ r.lpRoutine = v.lpRoutine := by
  obtain ⟨ys, hys⟩ := run_plain hcalls hr
  obtain ⟨th, k, hth, hcur⟩ := Config.next_eq_some hn
  -- the listener knows its service, and what is in the descriptor
  obtain ⟨⟨served, m, h, h', m', lm, r₀, copy, size, hself, -, -, -, hr₀, -, -, hlp, -⟩, -⟩ :
    Pre (.createThread (.workerThread lpService)) (ys u).1 := (hys.pre_next hn).1
  obtain ⟨v, hv, hmatches, -⟩ := hys.1.1.2.service u served hself
  obtain ⟨c₀, hcell₀⟩ := hys.1.1.1.known.routine hr₀
  have hharm : Harmlessly s₁ (.thread u c) := by
    intro o ho
    rw [hn] at ho
    obtain rfl := Option.mem_some_iff.mp ho
    intro x hx
    cases hx
  simp only [Sys.step, hth, hcur] at hstep
  obtain ⟨⟨h₀, w₂, sp⟩, hx, rfl⟩ := Option.map_eq_some_iff.mp hstep
  have hcells : w₂.heap.cells = s₁.world.heap.cells := by
    rcases exec_createThread hx with ⟨-, rfl, -⟩ | ⟨tid, -, -, -, rfl⟩ <;> rfl
  obtain rfl : sp = some (.workerThread lpService) := by
    rcases exec_createThread hx with ⟨-, -, rfl⟩ | ⟨tid, rfl, -⟩
    · simp at hstarted
    · rfl
  -- the new thread begins with what it was given
  obtain ⟨g', gn, -, hsome, hentry, hys₂⟩ := plain_method.perform hharm hth hcur hx hys
  obtain ⟨⟨g, x⟩, rfl⟩ := Option.isSome_iff_exists.mp (hsome.trans rfl)
  obtain ⟨r, lm', size', p, S, W, rfl, hH⟩ := hentry _ rfl _ rfl trivial
  have hnew := after_new ys u s₁.threads.length g' (g, some S)
  generalize after ys u s₁.threads.length g' (some (g, some S)) = ys₂ at hnew hys₂
  have W : ScOwnership.Working ((Prod.fst ∘ ys₂) s₁.threads.length) lpService r lm' size' p := by
    rw [Function.comp_apply, hnew]
    exact W
  -- nobody has changed the descriptor in between
  obtain ⟨c₁, hcell₁⟩ := hys₂.1.1.1.known.routine W.routine
  have he := congrArg ServiceRoutine.lpRoutine (Block.routine.inj (Option.some.inj
    (hcell₁.symm.trans ((congrFun hcells lpService).trans hcell₀))))
  exact ⟨ys₂, r, lm', size', p, S, v, hys₂, by simp, W, by rw [hnew], hH, hv,
    he.trans (hlp.trans hmatches.routine.symm)⟩

/-- **A CALL IS SERVED**: when a listener starts a worker, its descriptor has the routine of
    the listener's service and the handles of a client; in every run from there on that
    leaves the client to the worker, the worker that has ended has made a call by value and
    result: the routine was called once with the list it was given, or not at all, one reply
    was sent, and the memory of the client is as that call leaves it. -/
theorem call_served (hcalls : RegistersOnly calls)
    (hr : (system b).Run Harmlessly (starting w calls) s₁)
    (hn : s₁.next u = some (.createThread (.workerThread lpService)))
    (hstep : (system b).step (.thread u c) s₁ = some s₂)
    (hstarted : s₁.threads.length < s₂.threads.length) {r : ServiceRoutine}
    {p : ServiceRoutineParameter}
    (hroutine : s₂.world.heap.cells lpService = some (.routine r))
    (hcaptured : r.lpParameters ≠ 0)
    (hlist : s₂.world.heap.cells r.lpParameters = some (.parameters p))
    (hk : 4 ≤ s₂.world.ids.systemLpcMessageLength) :
    ∃ v client port, s₁.world.services u = some v ∧ r.lpRoutine = v.lpRoutine
      ∧ s₂.world.lpc.handles.lookup r.hClientProcess = some (.process (processOf client))
      ∧ s₂.world.lpc.handles.lookup r.hServerPort = some (.communicationPort port client)
      ∧ ∀ {tr : Events b} {s₃ : State b} {th : Thread Op (Op.Ret b) Label},
        (system b).Follows (Undisturbed s₁.threads.length (processOf client))
          s₁.threads.length s₂ tr s₃ →
        s₃.threads[s₁.threads.length]? = some th → th.cur = .ret none →
        Answered b s₂.world.ids.systemLpcMessageLength (s₂.world.lpc.memory (processOf client))
          v.lpRoutine (normalized b p) (callsOf tr) (repliesOf tr) (actsOf tr)
          (s₃.world.lpc.memory (processOf client)).byte := by
  obtain ⟨ys, r', lm, size, p', S, v, hys, hth, W, hsession, hH, hv, hlp⟩ :=
    worker_started hcalls hr hn hstep hstarted
  obtain ⟨⟨hS, hHandles⟩, -⟩ := hys.1
  have hread : ∀ {c₀}, s₂.world.heap.cells lpService
      = some (.routine { r' with closeEvent := c₀ }) → r = { r' with closeEvent := c₀ } :=
    fun hc₀ => Block.routine.inj (Option.some.inj (hroutine.symm.trans hc₀))
  cases p' with
  | none =>
      -- the capture was refused
      obtain ⟨c₀, hc₀⟩ := hS.known.routine W.routine
      obtain rfl := hread hc₀
      exact absurd W.list hcaptured
  | some p' =>
      obtain ⟨c₀, H⟩ := hired_of_working hS.known W
      obtain rfl := hread H.employed.routine
      obtain rfl := Block.parameters.inj (Option.some.inj (hlist.symm.trans H.employed.list))
      -- its handles are those of a session
      have hclient : r'.hClientProcess = S.hClientProcess := hH.client
      have hserver : r'.hServerPort = S.hServerPort := hH.server
      have hprocess := hHandles.process hsession hH.client_left
      obtain ⟨obj, hobj, hrefers⟩ := hHandles.refers _ _
        (held_session (hHandles.session _) hsession hH.server_left)
      rw [Session.role, if_neg hH.apart.symm] at hrefers
      obtain ⟨port, rfl⟩ := hrefers.server
      refine ⟨v, S.client, port, hv, hlp, hclient ▸ hprocess, hserver ▸ hobj, ?_⟩
      intro tr s₃ th hf hth₃ hdone
      have hserves : Serves s₁.threads.length S.client r'.hClientProcess s₂ :=
        ⟨ys, ⟨⟨hS, hHandles⟩, (List.getElem?_eq_some_iff.mp hth).1, S, hsession, rfl,
          hclient.symm⟩, hys.2⟩
      -- what it does is a walk among what the others leave to it
      obtain ⟨w₃, hleft, hwalk⟩ := hserves.walks hth rfl hf hth₃ hdone
      have hanswered := worker_answers H hk hwalk
      rw [← hleft.memory, show ServiceRoutine.lpRoutine _ = v.lpRoutine from hlp] at hanswered
      exact hanswered

end Served

/-! ## One call -/

/-- The worker that an operation starts. -/
def hires : Op → Option LPVOID
  | .createThread (.workerThread lpService) => some lpService
  | _ => none

theorem hires_eq_some {o : Op} {a : LPVOID} (h : hires o = some a) :
    o = .createThread (.workerThread a) := by
  cases o with
  | createThread l =>
      cases l with
      | workerThread lpService =>
          cases h
          rfl
      | _ => cases h
  | _ => cases h

/-- The program has ended. -/
def ended : Code b (Option Label) → Bool
  | .ret none => true
  | _ => false

theorem eq_ret_of_ended {c : Code b (Option Label)} (h : ended c = true) : c = .ret none := by
  cases c with
  | ret l =>
      cases l with
      | none => rfl
      | some l => cases h
  | call o k => cases h

/-- The routine sets the byte, the worker replies and ends, and meanwhile the listener is back
    at its port and another process changes its memory. -/
def writing : List (Event (Choice .x64)) :=
  turns 2 6 ++ .thread 1 .ok :: .env (.poke 9 100 1) :: .thread 2 (.act (.write 0 0 5)) ::
    turns 2 3 ++ .thread 2 (.act (.ret 0)) :: turns 2 24
    ++ .thread 2 (.reply STATUS_SUCCESS none) :: turns 2 13

/-- What the listener starts the worker with. -/
def started (s : State .x64) : Option LPVOID × Nat × Option LPVOID :=
  ((s.next 1).bind hires, s.threads.length, (s.world.services 1).map Service.lpRoutine)

/-- What the worker has before it runs. -/
def employed (s : State .x64) :
    Nat × Option ServiceRoutine × Option ServiceRoutineParameter × Option Nat × Nat :=
  (s.threads.length, routineAt s.world.heap 64, parametersAt s.world.heap 96,
    s.world.lpc.processOf 12, s.world.ids.systemLpcMessageLength)

/-- Whether the worker has ended, and the byte of the client. -/
def served (s : State .x64) : Option Bool × BYTE :=
  (s.threads[2]?.map fun th => ended th.cur, (s.world.lpc.memory 8).byte 100)

theorem call_performed : ∃ s₁ s₂ s₃ : State .x64,
    (system .x64).runIf (fun s e => decide (Harmlessly s e)) (reading.take 76) registering
        = some s₁
      ∧ (system .x64).step (.thread 1 (.thread 24 2)) s₁ = some s₂
      ∧ (system .x64).runIf (fun s e => decide (Undisturbed 2 8 s e))
          (reading.drop 77 ++ writing) s₂ = some s₃
      ∧ started s₁ = (some 64, 2, some 200)
      ∧ employed s₂ = (3, some ⟨4, 20, 12, 80, 200, 96, false⟩, some ⟨[⟨0x40, 1, 100⟩]⟩,
          some 8, 40)
      ∧ served s₃ = (some true, 5) := by
  have hruns : ((system .x64).runIf (fun s e => decide (Harmlessly s e)) (reading.take 76)
      registering).bind (fun s₁ => ((system .x64).step (.thread 1 (.thread 24 2)) s₁).bind
        fun s₂ => ((system .x64).runIf (fun s e => decide (Undisturbed 2 8 s e))
          (reading.drop 77 ++ writing) s₂).map fun s₃ =>
            (decide (started s₁ = (some 64, 2, some 200)),
              decide (employed s₂ = (3, some ⟨4, 20, 12, 80, 200, 96, false⟩,
                some ⟨[⟨0x40, 1, 100⟩]⟩, some 8, 40)), decide (served s₃ = (some true, 5))))
      = some (true, true, true) := by decide +kernel
  obtain ⟨s₁, hs₁, hruns⟩ := Option.bind_eq_some_iff.mp hruns
  obtain ⟨s₂, hs₂, hruns⟩ := Option.bind_eq_some_iff.mp hruns
  obtain ⟨s₃, hs₃, he⟩ := Option.map_eq_some_iff.mp hruns
  obtain ⟨hstarted, he⟩ := Prod.mk.inj he
  obtain ⟨hemployed, hserved⟩ := Prod.mk.inj he
  exact ⟨s₁, s₂, s₃, hs₁, hs₂, hs₃, of_decide_eq_true hstarted, of_decide_eq_true hemployed,
    of_decide_eq_true hserved⟩

/-- The client gets the byte that the routine has set. -/
theorem call_served_once : ∃ (s₁ s₂ s₃ : State .x64) (tr : Events .x64),
    (system .x64).runIf (fun s e => decide (Harmlessly s e)) (reading.take 76) registering
        = some s₁
      ∧ (system .x64).step (.thread 1 (.thread 24 2)) s₁ = some s₂
      ∧ (system .x64).Follows (Undisturbed 2 8) 2 s₂ tr s₃
      ∧ Answered .x64 40 (s₂.world.lpc.memory 8) 200 ⟨[⟨0x40, 1, 100⟩]⟩ (callsOf tr)
          (repliesOf tr) (actsOf tr) (s₃.world.lpc.memory 8).byte
      ∧ (s₃.world.lpc.memory 8).byte 100 = 5 := by
  obtain ⟨s₁, s₂, s₃, hs₁, hs₂, hs₃, hstarted, hemployed, hserved⟩ := call_performed
  simp only [started, employed, served, Prod.mk.injEq] at hstarted hemployed hserved
  obtain ⟨hhires, hlength, hlpRoutine⟩ := hstarted
  obtain ⟨hlength', hroutine, hlist, hprocess, hk⟩ := hemployed
  obtain ⟨hended, hbyte⟩ := hserved
  obtain ⟨o, hn, ho⟩ := Option.bind_eq_some_iff.mp hhires
  obtain rfl := hires_eq_some ho
  obtain ⟨th, hth, hended⟩ := Option.map_eq_some_iff.mp hended
  obtain ⟨tr, hf⟩ := (Sys.run_of_runIf (fun _ _ h => of_decide_eq_true h) hs₃).follows 2
  obtain ⟨v, client, port, hv, -, hclient, -, hanswered⟩ := call_served registersOnly
    (Sys.run_of_runIf (fun _ _ h => of_decide_eq_true h) hs₁) hn hs₂
    (by rw [hlength, hlength']; decide) (routineAt_eq_some.mp hroutine) (by decide)
    (parametersAt_eq_some.mp hlist) (by rw [hk]; decide)
  -- the process that its handle leads to is that of the client
  rw [Lpc.processOf, hclient] at hprocess
  obtain hpid : processOf client = 8 := Option.some.inj hprocess
  rw [hv] at hlpRoutine
  rw [hlength, hpid, hk, Option.some.inj hlpRoutine] at hanswered
  exact ⟨s₁, s₂, s₃, tr, hs₁, hs₂, hf, hanswered hf hth (eq_ret_of_ended hended), hbyte⟩

end ScCall
