import ServiceCall.ServiceCallProofs

/-! # Who holds which block

    The proof outline for everything the threads do with the heap, the ports and
    their handles.  A thread knows the blocks it holds; a listener knows which
    service it serves and how far it has come with a connection; a thread of the
    application knows how far it has come with a registration or with
    `ScUnregisterServiceRoutine`.

    `Pre` says what a thread may do, and is where every later result reads off
    what the code does: which handle it listens on, which one it closes, what it
    hands to a worker.  `Post` says what it knows afterwards. -/

namespace ScOwnership

open LinearMemory OwnedHeap OpProg ThreadSys ScParameter LpcMessage ScSystem
  ScServiceCall

variable {b : Build}

abbrev Blocks := LPVOID → Option Block

/-- A service as its listener knows it. -/
structure Served where
  address    : LPVOID
  routine    : ServiceRoutine
  parameters : ServiceRoutineParameter

/-- How far a thread has come. -/
inductive Stage (b : Build) where
  /-- a thread of the application -/
  | app
  /-- it has created a port for a service -/
  | created (hPort : HANDLE)
  /-- it has set the flag of a descriptor -/
  | flagged (lpService : LPVOID)
  /-- it has read the handle in that descriptor -/
  | read (lpService : LPVOID) (hPort : HANDLE)
  /-- it has asked for that handle to be closed -/
  | closed (lpService : LPVOID)
  /-- a listener without a connection -/
  | idle
  /-- it has taken a connection -/
  | listened (m : Message b)
  | opened (m : Message b) (hClientProcess : HANDLE)
  | accepted (m : Message b) (hClientProcess hServerPort : HANDLE)
  | received (m : Message b) (hClientProcess hServerPort : HANDLE) (m' : Message b)
  /-- it has seen the flag -/
  | leaving
  | worker

/-- What a thread knows: the blocks it holds, the service it serves, how far it
    has come, the calls of the library it has yet to finish; and, where they are
    known at all, the memory of its client, its own memory, which addresses of that
    can be read, `system_lpc_message_length`, and that memory does not run out.  It
    remembers the routines it called and the replies it sent. -/
structure Ghost (b : Build) where
  own    : Blocks
  self   : Option Served
  stage  : Stage b
  todo   : List Call
  client : Option (HANDLE × VirtualMemory)
  mine   : Option VirtualMemory
  pages  : Option (Nat → Bool)
  length : Option Nat
  ample  : Bool
  calls   : List (LPVOID × List ULONG64)
  replies : List (Nat → BYTE)

namespace Ghost

/-- The same with another block, or none, at an address. -/
def put (g : Ghost b) (a : LPVOID) (x : Option Block) : Ghost b :=
  { g with own := Function.update g.own a x }

/-- The same at another stage. -/
def at' (g : Ghost b) (s : Stage b) : Ghost b := { g with stage := s }

/-- The same with other blocks. -/
def holding (g : Ghost b) (own : Blocks) : Ghost b := { g with own := own }

/-- The listener has its descriptor and its list. -/
def Kept (g : Ghost b) : Prop :=
  ∀ s, g.self = some s → g.own s.address = some (.routine s.routine)
    ∧ g.own s.routine.lpParameters = some (.parameters s.parameters)

/-- The block at `a` is not the descriptor or the list of a listener that still
    needs them. -/
def Spares (g : Ghost b) (a : LPVOID) : Prop :=
  ∀ s, g.self = some s → g.stage ≠ .leaving →
    a ≠ s.address ∧ a ≠ s.routine.lpParameters

@[simp] theorem put_own_self (g : Ghost b) (a : LPVOID) (x : Option Block) :
    (g.put a x).own a = x := Function.update_self ..

theorem put_own_ne (g : Ghost b) {a a' : LPVOID} (h : a' ≠ a) (x : Option Block) :
    (g.put a x).own a' = g.own a' := Function.update_of_ne h ..

@[simp] theorem put_self (g : Ghost b) (a : LPVOID) (x : Option Block) :
    (g.put a x).self = g.self := rfl

@[simp] theorem put_stage (g : Ghost b) (a : LPVOID) (x : Option Block) :
    (g.put a x).stage = g.stage := rfl

@[simp] theorem put_todo (g : Ghost b) (a : LPVOID) (x : Option Block) :
    (g.put a x).todo = g.todo := rfl

@[simp] theorem put_client (g : Ghost b) (a : LPVOID) (x : Option Block) :
    (g.put a x).client = g.client := rfl

@[simp] theorem put_mine (g : Ghost b) (a : LPVOID) (x : Option Block) :
    (g.put a x).mine = g.mine := rfl

@[simp] theorem put_ample (g : Ghost b) (a : LPVOID) (x : Option Block) :
    (g.put a x).ample = g.ample := rfl

@[simp] theorem put_calls (g : Ghost b) (a : LPVOID) (x : Option Block) :
    (g.put a x).calls = g.calls := rfl

@[simp] theorem put_replies (g : Ghost b) (a : LPVOID) (x : Option Block) :
    (g.put a x).replies = g.replies := rfl

@[simp] theorem put_length (g : Ghost b) (a : LPVOID) (x : Option Block) :
    (g.put a x).length = g.length := rfl

@[simp] theorem put_put (g : Ghost b) (a : LPVOID) (x y : Option Block) :
    (g.put a x).put a y = g.put a y := by
  simp [put]

/-- Taking away what was not there changes nothing. -/
theorem put_eq_self (g : Ghost b) {a : LPVOID} {x : Option Block} (h : g.own a = x) :
    g.put a x = g := by
  rw [put, ← h, Function.update_eq_self]

theorem Kept.spares {g : Ghost b} (h : g.Kept) {a : LPVOID} (ha : g.own a = none) :
    g.Spares a := by
  intro s hs _
  obtain ⟨h₁, h₂⟩ := h s hs
  constructor
  · rintro rfl
    rw [h₁] at ha
    exact nomatch ha
  · rintro rfl
    rw [h₂] at ha
    exact nomatch ha

theorem Kept.put {g : Ghost b} (h : g.Kept) {a : LPVOID} {x : Option Block}
    (ha : ∀ s, g.self = some s → a ≠ s.address ∧ a ≠ s.routine.lpParameters) :
    (g.put a x).Kept := by
  intro s hs
  obtain ⟨h₁, h₂⟩ := h s hs
  obtain ⟨n₁, n₂⟩ := ha s hs
  rw [put_own_ne g n₁.symm, put_own_ne g n₂.symm]
  exact ⟨h₁, h₂⟩

/-- Who serves nothing keeps nothing back. -/
theorem kept_of_none {g : Ghost b} (h : g.self = none) : g.Kept := by
  intro s hs
  rw [h] at hs
  exact nomatch hs

theorem spares_of_none {g : Ghost b} (h : g.self = none) (a : LPVOID) : g.Spares a := by
  intro s hs _
  rw [h] at hs
  exact nomatch hs

end Ghost

/-! ## The outline -/

namespace Stage

/-- The stage after a heap operation of a thread that holds the blocks `own`:
    reading the descriptor of somebody else after setting its flag. -/
def seen (own : Blocks) : (o : HeapOp LPVOID Block Kind) → o.Ret → Stage b → Stage b
  | .load a _, x, s =>
      match s with
      | .flagged d => if (own a).isNone then .read d (asRoutine x).hPort else .flagged d
      | s => s
  | _, _, s => s

/-- The stage after a kernel call. -/
def next : (s : Stage b) → (o : KernelOp) → o.Ret b → Stage b
  | .idle, .ntListenPort _, r =>
      match r.2 with
      | some m => .listened m
      | none => .idle
  | .listened m, .openProcess _, h => .opened m h
  | .opened m h, .ntAcceptConnectPort _ _ true, r =>
      if ntSuccess r.1 then .accepted m h r.2 else .opened m h
  | .accepted m h h', .ntReplyWaitReceivePort _, r =>
      match r.2 with
      | some m' => .received m h h' m'
      | none => .accepted m h h'
  | .opened .., .ntClose _, _ => .idle
  | .accepted .., .ntClose _, _ => .idle
  | .app, .ntCreatePort .., r => if ntSuccess r.1 then .created r.2 else .app
  | .created _, .ntClose _, _ => .app
  | .read d _, .ntClose _, _ => .closed d
  | .flagged d, .ntClose _, _ => .closed d
  | s, _, _ => s

end Stage

/-- What is handed to a worker: a descriptor with the handles of the call, a copy
    of the message that was received over the connection message, and the
    captured list. -/
def Dispatch (g : Ghost b) (param : LPVOID) : Prop :=
  ∃ s m h h' m' lm r copy n, g.self = some s ∧ g.stage = .received m h h' m'
    ∧ h ≠ 0 ∧ rtlEqualParameterType s.parameters
      (readParameters (deliver lm m) (callparam m.image)) = true
    ∧ g.own param = some (.routine r)
    ∧ r.hClientProcess = h ∧ r.hServerPort = h' ∧ r.lpRoutine = s.routine.lpRoutine
    ∧ g.own r.lm = some (.message copy n)
    ∧ (∀ i < b.lpcpMaxMessageSize, copy i = deliver (deliver lm m) m' i)
    ∧ match capture (readParameters (deliver (deliver lm m) m') (callparam m.image)) with
      | some p => g.own r.lpParameters = some (.parameters p)
      | none => r.lpParameters = 0

/-- What has to hold where a kernel call is made. -/
def KernelPre : KernelOp → Ghost b → Prop
  | .ntCreatePort .., g => g.stage = .app
      ∧ ∃ hServiceRoutine lpServiceRoutine lpParameters name,
        g.todo.head? = some (.register hServiceRoutine lpServiceRoutine lpParameters name)
  | .ntListenPort h, g => g.stage = .idle ∧ ∃ s, g.self = some s ∧ h = s.routine.hPort
  | .openProcess pid, g =>
      ∃ m, g.stage = .listened m ∧ pid = m.sender.uniqueProcess % 2 ^ 32
  | .ntAcceptConnectPort client id accept, g =>
      ∃ m h, g.stage = .opened m h ∧ client = m.sender ∧ id = messageId b m.image
        ∧ (accept = true → h ≠ 0 ∧ ∃ s a lm n, g.self = some s
          ∧ g.own a = some (.message (deliver lm m) n)
          ∧ rtlEqualParameterType s.parameters
            (readParameters (deliver lm m) (callparam m.image)) = true)
  | .ntCompleteConnectPort h', g => ∃ m h, g.stage = .accepted m h h'
  | .ntReplyWaitReceivePort h', g => ∃ m h, g.stage = .accepted m h h'
  | .ntClose h, g =>
      (∃ m, g.stage = .opened m h) ∨ (∃ m h', g.stage = .accepted m h h') ∨
      (∃ a, g.stage = .read a h ∨ (g.stage = .flagged a ∧ g.own a ≠ none)) ∨
      g.stage = .created h ∨ g.stage = .worker
  | .ntReadVirtualMemory h .., g => ∀ x, g.client = some x → x.1 = h
  | .ntWriteVirtualMemory h .., g => ∀ x, g.client = some x → x.1 = h
  | _, _ => True

/-- What has to hold where an operation is performed. -/
def Pre : Op → Ghost b → Prop
  | .heap o, g =>
      (o.pre (layout b) g.own ∨ ∃ a, o = .load a .routine ∧ g.stage = .flagged a) ∧
      match o with
      | .store a _ => g.Spares a
      | .free a => g.Spares a
      | _ => True
  | .kernel o, g => KernelPre o g
  | .loadCloseEvent a, g => g.stage = .idle ∧ ∃ s, g.self = some s ∧ a = s.address
      ∧ g.own a = some (.routine s.routine)
  | .setCloseEvent a, g => g.stage = .app ∧ g.todo.head? = some (.unregister a)
  | .createThread (.waitThread d), g =>
      d ≠ 0 ∧ ∃ h lpRoutine a p, g.stage = .created h
        ∧ g.own d = some (.routine (.new h lpRoutine a))
        ∧ g.own a = some (.parameters p)
  | .createThread (.workerThread param), g => Dispatch g param
      ∧ ∀ a ∈ (Label.workerThread param).given g.own, g.Spares a
  | .createThread _, _ => False
  | .id .exitThread, g => g.self = none ∨ g.stage = .leaving
  | .api (.note (.mapFailed tmp _)), g =>
      g.stage = .worker ∧ ∃ p, g.own tmp = some (.parameters p)
  | .api (.note (.returned call status)), g => g.todo.head? = some call ∧
      match call with
      | .unregister a => g.stage = .closed a ∨ (g.stage = .app ∧ status = STATUS_ACCESS_VIOLATION
          ∧ ∀ ok, g.pages = some ok → Lpc.accessible ok a.toNat 1 = false)
      | _ => g.stage = .app
  | .api (.note (.invoked ..)), g => g.stage = .worker
  | _, _ => True

/-- Nothing that `RtlUnmapPtrParameters` would free lies behind entry `i`. -/
def Harmless (p : ServiceRoutineParameter) (i : Nat) : Prop :=
  ∀ e ∈ p.parameters.drop (i + 1), (hasBits e.parameterMask 0b01000000
    && e.dwMaxBufferSize != 0 && e.ulParameter != 0) = false

/-- What is known of the answer to a kernel call. -/
def Answers (g : Ghost b) : (o : KernelOp) → o.Ret b → Prop
  | .ntListenPort _, r =>
      (∃ m, r = (STATUS_SUCCESS, some m) ∧ Lpc.isConnectionRequest m = true) ∨
      (ntSuccess r.1 = false ∧ r.2 = none)
  | .ntReplyWaitReceivePort _, r =>
      (∃ m, r = (STATUS_SUCCESS, some m)) ∨ (ntSuccess r.1 = false ∧ r.2 = none)
  | .ntReadVirtualMemory _ a n, r =>
      ∀ x, g.client = some x → ntSuccess r.1 = Lpc.accessible x.2.readable a n
        ∧ (ntSuccess r.1 = true → r.2 = slice x.2.byte a n)
  | .ntWriteVirtualMemory _ a bytes, r =>
      ∀ x, g.client = some x →
        ntSuccess r = Lpc.accessible x.2.writable a bytes.length
  | _, _ => True

/-- The memory of the client after a kernel call. -/
def clientAfter (x : Option (HANDLE × VirtualMemory)) :
    (o : KernelOp) → o.Ret b → Option (HANDLE × VirtualMemory)
  | .ntWriteVirtualMemory _ a bytes, r =>
      if ntSuccess r then
        x.map fun y => (y.1, { y.2 with byte := overlay y.2.byte a bytes })
      else x
  | _, _ => x

/-- The replies after a kernel call. -/
def repliesAfter (rs : List (Nat → BYTE)) : KernelOp → List (Nat → BYTE)
  | .ntReplyWaitReplyPort _ lm => lm :: rs
  | _ => rs

/-- What holds after an operation. -/
def Post : (o : Op) → Ghost b → Op.Ret b o → Ghost b → Prop
  | .heap o, g, r, g' => (∃ own, o.post (layout b) g.own r own
      ∧ g' = { g with own := own, stage := g.stage.seen g.own o r }) ∧
      match o, r with
      | .allocNothrow .., r => g.ample = true → r ≠ 0
      | _, _ => True
  | .kernel o, g, r, g' => Answers g o r
      ∧ g' = { g with stage := g.stage.next o r, client := clientAfter g.client o r,
                      replies := repliesAfter g.replies o }
  | .loadCloseEvent _, g, r, g' => g' = if r then g.at' .leaving else g
  | .setCloseEvent a, g, _, g' => g' = g.at' (.flagged a)
  | .createThread l, g, r, g' =>
      g' = { g with
        own := if r = 0 then g.own else fun a => if a ∈ l.given g.own then none else g.own a
        stage := match l with
          | .workerThread _ => .idle
          | _ => if r = 0 then g.stage else .app }
  | .id .systemLpcMessageLength, g, r, g' => g' = g ∧ ∀ n, g.length = some n → r = n
  | .id (.setSystemLpcMessageLength n), g, _, g' =>
      g' = { g with length := g.length.map fun _ => n }
  | .api (.note (.mapFailed tmp i)), g, _, g' => g' = g ∧
      ∀ p, g.own tmp = some (.parameters p) → Harmless p i
  | .api (.note (.returned _ _)), g, _, g' => g' = { g with stage := .app, todo := g.todo.tail }
  | .api (.note (.invoked lpRoutine args)), g, _, g' =>
      g' = { g with calls := (lpRoutine, args) :: g.calls }
  | .api (.isBadReadPtr a n), g, r, g' => g' = g ∧
      (∀ vm, g.mine = some vm → r = !Lpc.accessible vm.readable a n)
      ∧ ∀ ok, g.pages = some ok → r = !Lpc.accessible ok a n
  | .api (.isBadWritePtr a n), g, r, g' => g' = g ∧
      ∀ vm, g.mine = some vm → r = !Lpc.accessible vm.writable a n
  | .api (.loadOwn a n), g, r, g' => g' = g ∧
      ∀ vm, g.mine = some vm → r = slice vm.byte a n
  | .api (.storeOwn a bytes), g, _, g' =>
      g' = { g with mine := g.mine.map fun vm =>
        { vm with byte := overlay vm.byte a bytes } }
  | _, g, _, g' => g' = g

/-- The proof outline. -/
def outline (b : Build) : Outline Op (Op.Ret b) (Ghost b) where
  pre := Pre
  post := Post

/-! ## What an operation leads to -/

/-- The stage after an operation. -/
def Stage.after (g : Ghost b) : (o : Op) → Op.Ret b o → Stage b
  | .heap o, r => g.stage.seen g.own o r
  | .kernel o, r => g.stage.next o r
  | .loadCloseEvent _, r => if r then .leaving else g.stage
  | .setCloseEvent a, _ => .flagged a
  | .createThread (.workerThread _), _ => .idle
  | .createThread _, r => if r = 0 then g.stage else .app
  | .api (.note (.returned ..)), _ => .app
  | _, _ => g.stage

/-- Nobody becomes a worker, and only who sees the flag leaves. -/
theorem Stage.after_final {g : Ghost b} {o : Op} {r : Op.Ret b o} {x : Stage b}
    (hx : x = .worker ∨ (x = .leaving ∧ ∀ a, o ≠ .loadCloseEvent a))
    (h : Stage.after g o r = x) : g.stage = x := by
  have final : ∀ {y : Stage b}, y = x → y = .worker ∨ y = .leaving := by
    rintro y rfl
    exact hx.imp_right And.left
  have seen : ∀ {s : Stage b} {o : HeapOp LPVOID Block Kind} {r : o.Ret},
      s.seen g.own o r = x → s = x := by
    intro s o r h
    unfold Stage.seen at h
    split at h
    · split at h
      · split at h <;> exact (final h).elim nofun nofun
      · exact h
    · exact h
  have next : ∀ {s : Stage b} {o : KernelOp} {r : o.Ret b}, s.next o r = x → s = x := by
    intro s o r h
    unfold Stage.next at h
    split at h
    case h_11 => exact h
    all_goals (try split at h) <;> exact (final h).elim nofun nofun
  cases o with
  | heap o => exact seen h
  | kernel o => exact next h
  | id o => exact h
  | api o =>
      cases o with
      | note x =>
          cases x with
          | returned call status => exact (final h).elim nofun nofun
          | _ => exact h
      | _ => exact h
  | loadCloseEvent a =>
      rcases hx with rfl | ⟨-, ho⟩
      · cases r with
        | true => exact nomatch h
        | false => exact h
      · exact absurd rfl (ho a)
  | setCloseEvent a => exact (final h).elim nofun nofun
  | createThread l =>
      cases l with
      | workerThread param => exact (final h).elim nofun nofun
      | _ =>
          have h : (if r = 0 then g.stage else .app) = x := h
          split at h
          · exact h
          · exact (final h).elim nofun nofun

/-- The calls left after an operation. -/
def todoAfter (calls : List Call) : Op → List Call
  | .api (.note (.returned ..)) => calls.tail
  | _ => calls

/-- The operations that leave blocks and threads alone. -/
def Outside : Op → Prop
  | .heap _ => False
  | .createThread _ => False
  | _ => True

/-- What a thread serves stays; stage and calls go on; only operations on blocks and
    threads change the blocks. -/
theorem Post.fields {o : Op} {g g' : Ghost b} {r : Op.Ret b o} (h : Post o g r g') :
    g'.self = g.self ∧ g'.stage = Stage.after g o r ∧ g'.todo = todoAfter g.todo o
      ∧ (Outside o → g'.own = g.own) ∧ g'.pages = g.pages := by
  cases o with
  | heap o =>
      obtain ⟨⟨own, -, rfl⟩, -⟩ := h
      exact ⟨rfl, rfl, rfl, fun ho => ho.elim, rfl⟩
  | kernel o =>
      obtain ⟨-, rfl⟩ := h
      exact ⟨rfl, rfl, rfl, fun _ => rfl, rfl⟩
  | id o =>
      cases o with
      | systemLpcMessageLength =>
          obtain ⟨rfl, -⟩ := h
          exact ⟨rfl, rfl, rfl, fun _ => rfl, rfl⟩
      | setSystemLpcMessageLength k =>
          rw [show g' = _ from h]
          exact ⟨rfl, rfl, rfl, fun _ => rfl, rfl⟩
      | _ =>
          rw [show g' = g from h]
          exact ⟨rfl, rfl, rfl, fun _ => rfl, rfl⟩
  | api o =>
      cases o with
      | isBadReadPtr | isBadWritePtr | loadOwn =>
          obtain ⟨rfl, -⟩ := h
          exact ⟨rfl, rfl, rfl, fun _ => rfl, rfl⟩
      | storeOwn a bytes =>
          rw [show g' = _ from h]
          exact ⟨rfl, rfl, rfl, fun _ => rfl, rfl⟩
      | note x =>
          cases x with
          | mapFailed tmp i =>
              obtain ⟨rfl, -⟩ := h
              exact ⟨rfl, rfl, rfl, fun _ => rfl, rfl⟩
          | invoked lpRoutine args =>
              rw [show g' = _ from h]
              exact ⟨rfl, rfl, rfl, fun _ => rfl, rfl⟩
          | returned call status =>
              rw [show g' = { g with stage := .app, todo := g.todo.tail } from h]
              exact ⟨rfl, rfl, rfl, fun _ => rfl, rfl⟩
          | _ =>
              rw [show g' = g from h]
              exact ⟨rfl, rfl, rfl, fun _ => rfl, rfl⟩
      | _ =>
          rw [show g' = g from h]
          exact ⟨rfl, rfl, rfl, fun _ => rfl, rfl⟩
  | loadCloseEvent a =>
      rw [show g' = if r then g.at' .leaving else g from h]
      cases r <;> exact ⟨rfl, rfl, rfl, fun _ => rfl, rfl⟩
  | setCloseEvent a =>
      rw [show g' = _ from h]
      exact ⟨rfl, rfl, rfl, fun _ => rfl, rfl⟩
  | createThread l =>
      rw [show g' = _ from h]
      cases l <;> exact ⟨rfl, rfl, rfl, fun ho => ho.elim, rfl⟩

/-! ## Operations that do not matter -/

/-- The operations that are always allowed and leave what a thread knows alone. -/
def Silent : Op → Prop
  | .kernel (.getProcessId _) => True
  | .id (.setSystemLpcMessageLength _) => False
  | .id .exitThread => False
  | .id _ => True
  | .api (.storeOwn ..) => False
  | .api (.note (.called _)) => True
  | .api (.note (.clientId ..)) => True
  | .api (.note _) => False
  | .api _ => True
  | _ => False

theorem ignores : Ignores (outline b) Silent where
  pre := by
    intro o g ho
    cases o with
    | kernel o => cases o <;> first | exact trivial | exact ho.elim
    | id o => cases o <;> first | exact trivial | exact ho.elim
    | api o =>
        cases o with
        | note n => cases n <;> first | exact trivial | exact ho.elim
        | _ => exact trivial
    | _ => exact ho.elim
  post := by
    intro o g r g' ho h
    cases o with
    | kernel o =>
        cases o with
        | getProcessId h₀ =>
            have hnext : g.stage.next (.getProcessId h₀) r = g.stage := by
              cases g.stage <;> rfl
            rw [h.2, hnext]
            rfl
        | _ => exact ho.elim
    | id o =>
        cases o with
        | systemLpcMessageLength => exact h.1
        | setSystemLpcMessageLength n => exact ho.elim
        | exitThread => exact ho.elim
        | _ => exact h
    | api o =>
        cases o with
        | storeOwn a bytes => exact ho.elim
        | isBadReadPtr a n => exact h.1
        | isBadWritePtr a n => exact h.1
        | loadOwn a n => exact h.1
        | note n => cases n <;> first | exact h | exact ho.elim
        | _ => exact h
    | _ => exact ho.elim

section Silent

theorem silent_notInitialized : (notInitialized : Code b Bool).Only Silent :=
  only_orElse ⟨trivial, fun _ => trivial⟩ ⟨trivial, fun _ => trivial⟩

theorem silent_clientIdLoop (dwThread k i : Nat) :
    (clientIdLoop dwThread k i : Code b (NTSTATUS × HANDLE × Nat)).Only Silent := by
  induction k generalizing i with
  | zero => trivial
  | succ k ih =>
      refine Prog.only_op_bind.mpr ⟨trivial, fun e => ?_⟩
      split
      · exact ⟨trivial, fun _ => trivial⟩
      · exact ih (i + 1)

theorem silent_lookup :
    (rtlSafeThreadServiceClientId : Code b (NTSTATUS × HANDLE × Nat)).Only Silent := by
  refine Prog.only_op_bind.mpr ⟨trivial, fun dwThread => ?_⟩
  refine silent_notInitialized.bind fun v => ?_
  split
  · trivial
  · refine Prog.only_op_bind.mpr ⟨trivial, fun _ => ?_⟩
    refine Prog.only_op_bind.mpr ⟨trivial, fun n => ?_⟩
    exact (silent_clientIdLoop _ _ _).bind fun _ => ⟨trivial, fun _ => trivial⟩

theorem silent_eraseLoop (dwThread k i : Nat) :
    (eraseLoop dwThread k i : Code b Unit).Only Silent := by
  induction k generalizing i with
  | zero => trivial
  | succ k ih =>
      refine Prog.only_op_bind.mpr ⟨trivial, fun e => ?_⟩
      split
      · exact ⟨trivial, fun _ => trivial⟩
      · exact ih (i + 1)

theorem silent_registerProbe (hServiceRoutine lpServiceRoutine lpParameters : LPVOID)
    (name : Option (List WCHAR)) :
    (registerProbe hServiceRoutine lpServiceRoutine lpParameters name
      : Code b Bool).Only Silent :=
  only_orElse ⟨trivial, fun _ => trivial⟩ (only_orElse ⟨trivial, fun _ => trivial⟩
    (only_orElse ⟨trivial, fun _ => trivial⟩
      (only_orElse ⟨trivial, fun _ => ⟨trivial, fun _ => trivial⟩⟩ trivial)))

end Silent

/-! ## Single operations -/

section Operations

variable {α : Type} {Q : α → Ghost b → Prop} {g : Ghost b}

theorem seen_of_some {own : Blocks} {a : LPVOID} {k : Kind} {x y : Block} (s : Stage b)
    (h : own a = some x) : s.seen own (.load a k) y = s := by
  cases s <;> simp [Stage.seen, h]

theorem wp_silent {o : Op} (ho : Silent o) {f : Op.Ret b o → Code b α}
    (hf : ∀ r, wp (outline b) (f r) Q g) : wp (outline b) (Prog.op o >>= f) Q g :=
  wp_op_bind.mpr ⟨ignores.pre g ho, fun r g' h => by
    rw [ignores.post ho h]
    exact hf r⟩

theorem wp_load {a : LPVOID} {k : Kind} {x : Block} (h : g.own a = some x)
    (hk : x.kind = k) {f : Block → Code b α}
    (hf : ∀ y, a ≠ 0 → x.forget = y.forget → wp (outline b) (f y) Q g) :
    wp (outline b) (load a k >>= f) Q g := by
  refine wp_op_bind.mpr ⟨⟨Or.inl (Or.inr ⟨x, h, hk⟩), trivial⟩, ?_⟩
  rintro y _ ⟨⟨own, ⟨rfl, h0, he⟩, rfl⟩, -⟩
  rw [seen_of_some _ h]
  exact hf y h0 (he x h hk)

/-- A load through the null address ends the process. -/
theorem wp_load_null {k : Kind} {f : Block → Code b α} :
    wp (outline b) (load 0 k >>= f) Q g := by
  refine wp_op_bind.mpr ⟨⟨Or.inl (Or.inl rfl), trivial⟩, ?_⟩
  rintro y _ ⟨⟨own, ⟨-, h0, -⟩, -⟩, -⟩
  exact absurd rfl h0

theorem wp_store {a : LPVOID} {x y : Block} (h : g.own a = some x)
    (hk : x.kind = y.kind) (hs : g.Spares a) {f : Unit → Code b α}
    (hf : a ≠ 0 → wp (outline b) (f ()) Q (g.put a (some y))) :
    wp (outline b) (store a y >>= f) Q g := by
  refine wp_op_bind.mpr ⟨⟨Or.inl (Or.inr ⟨x, h, hk⟩), hs⟩, ?_⟩
  rintro _ _ ⟨⟨own, ⟨h0, rfl⟩, rfl⟩, -⟩
  exact hf h0

theorem wp_alloc {k : Kind} {n : Nat} {f : LPVOID → Code b α}
    (hf : ∀ a x, a ≠ 0 → b.toPointer a = a → g.own a = none → x.kind = k → x.size = n →
      wp (outline b) (f a) Q (g.put a (some x))) :
    wp (outline b) (alloc k n >>= f) Q g := by
  refine wp_op_bind.mpr ⟨⟨Or.inl trivial, trivial⟩, ?_⟩
  rintro a _ ⟨⟨own, ⟨h0, hA, ha, x, hk, hn, rfl⟩, rfl⟩, -⟩
  exact hf a x h0 (by simpa [layout] using hA) ha hk hn

theorem wp_allocNothrow {k : Kind} {n : Nat} {f : LPVOID → Code b α}
    (h0 : g.ample = false → wp (outline b) (f 0) Q g)
    (hf : ∀ a x, a ≠ 0 → b.toPointer a = a → g.own a = none → x.kind = k → x.size = n →
      wp (outline b) (f a) Q (g.put a (some x))) :
    wp (outline b) (allocNothrow k n >>= f) Q g := by
  refine wp_op_bind.mpr ⟨⟨Or.inl trivial, trivial⟩, ?_⟩
  rintro a _ ⟨⟨own, ⟨rfl, rfl⟩ | ⟨ha0, hA, ha, x, hk, hn, rfl⟩, rfl⟩, hne⟩
  · exact h0 (by simpa using fun h => hne h rfl)
  · exact hf a x ha0 (by simpa [layout] using hA) ha hk hn

theorem wp_free {a : LPVOID} {x : Block} (h : g.own a = some x) (h0 : a ≠ 0)
    (hs : g.Spares a) {f : Unit → Code b α}
    (hf : wp (outline b) (f ()) Q (g.put a none)) :
    wp (outline b) (free a >>= f) Q g := by
  refine wp_op_bind.mpr ⟨⟨Or.inl (Or.inr (by rw [h]; exact Option.some_ne_none x)), hs⟩, ?_⟩
  rintro _ _ ⟨⟨own, hown, rfl⟩, -⟩
  rw [HeapOp.post, if_neg h0] at hown
  rw [hown]
  exact hf

/-- Freeing an address that may be null. -/
theorem wp_free_any {a : LPVOID} (h : a = 0 ∨ g.own a ≠ none) (hs : g.Spares a)
    {f : Unit → Code b α}
    (hf : ∀ g', (g' = g ∨ g' = g.put a none) → wp (outline b) (f ()) Q g') :
    wp (outline b) (free a >>= f) Q g := by
  refine wp_op_bind.mpr ⟨⟨Or.inl h, hs⟩, ?_⟩
  rintro _ _ ⟨⟨own, hown, rfl⟩, -⟩
  rw [HeapOp.post] at hown
  split at hown
  · rw [hown]
    exact hf _ (Or.inl rfl)
  · rw [hown]
    exact hf _ (Or.inr rfl)

/-! ### By kind of block -/

/-- A descriptor is known but for its flag. -/
theorem forget_routine {r : ServiceRoutine} {y : Block}
    (h : (Block.routine r).forget = y.forget) :
    ∃ c, y = .routine { r with closeEvent := c } := by
  cases y with
  | routine r' =>
      have h := Block.routine.inj h
      refine ⟨r'.closeEvent, ?_⟩
      cases r
      cases r'
      simp only [ServiceRoutine.mk.injEq] at h
      obtain ⟨rfl, rfl, rfl, rfl, rfl, rfl, -⟩ := h
      rfl
  | _ => exact nomatch h

/-- Other blocks are known exactly. -/
theorem forget_eq {x y : Block} (hk : x.kind ≠ .routine) (h : x.forget = y.forget) :
    y = x := by
  cases x with
  | routine r => exact absurd rfl hk
  | _ =>
      cases y with
      | routine r => exact nomatch h
      | _ => exact h.symm

theorem wp_loadRoutine {a : LPVOID} {r : ServiceRoutine}
    (h : g.own a = some (.routine r)) {f : ServiceRoutine → Code b α}
    (hf : ∀ c, a ≠ 0 → wp (outline b) (f { r with closeEvent := c }) Q g) :
    wp (outline b) (loadRoutine a >>= f) Q g := by
  refine wp_load h rfl ?_
  intro y h0 he
  obtain ⟨c, rfl⟩ := forget_routine he
  exact hf c h0

theorem wp_loadParameters {a : LPVOID} {p : ServiceRoutineParameter}
    (h : g.own a = some (.parameters p)) {f : ServiceRoutineParameter → Code b α}
    (hf : a ≠ 0 → wp (outline b) (f p) Q g) :
    wp (outline b) (loadParameters a >>= f) Q g := by
  refine wp_load h rfl ?_
  intro y h0 he
  obtain rfl := forget_eq (by exact Kind.noConfusion) he
  exact hf h0

theorem wp_loadMessage {a : LPVOID} {lm : Nat → BYTE} {n : Nat}
    (h : g.own a = some (.message lm n)) {f : (Nat → BYTE) → Code b α}
    (hf : a ≠ 0 → wp (outline b) (f lm) Q g) :
    wp (outline b) (loadMessage a >>= f) Q g := by
  refine wp_load h rfl ?_
  intro y h0 he
  obtain rfl := forget_eq (by exact Kind.noConfusion) he
  exact hf h0

theorem wp_loadBuffer {a : LPVOID} {bytes : List BYTE}
    (h : g.own a = some (.buffer bytes)) {f : List BYTE → Code b α}
    (hf : a ≠ 0 → wp (outline b) (f bytes) Q g) :
    wp (outline b) (loadBuffer a >>= f) Q g := by
  refine wp_load h rfl ?_
  intro y h0 he
  obtain rfl := forget_eq (by exact Kind.noConfusion) he
  exact hf h0

theorem wp_modifyRoutine {a : LPVOID} {r : ServiceRoutine}
    (h : g.own a = some (.routine r)) (hs : g.Spares a)
    {φ : ServiceRoutine → ServiceRoutine} {f : Unit → Code b α}
    (hf : ∀ c, a ≠ 0 → wp (outline b) (f ()) Q
      (g.put a (some (.routine (φ { r with closeEvent := c }))))) :
    wp (outline b) (modifyRoutine a φ >>= f) Q g := by
  show wp (outline b) (loadRoutine a >>= fun r => store a (.routine (φ r)) >>= f) Q g
  refine wp_loadRoutine h ?_
  intro c _
  refine wp_store h (by rfl) hs ?_
  exact hf c

theorem wp_modifyMessage {a : LPVOID} {lm : Nat → BYTE} {n : Nat}
    (h : g.own a = some (.message lm n)) (hs : g.Spares a)
    {φ : (Nat → BYTE) → Nat → BYTE} {f : Unit → Code b α}
    (hf : a ≠ 0 → wp (outline b) (f ()) Q (g.put a (some (.message (φ lm) n)))) :
    wp (outline b) (modifyMessage a φ >>= f) Q g := by
  show wp (outline b) (load a .message >>= fun x => store a (mapMessage φ x) >>= f) Q g
  refine wp_load h rfl ?_
  intro y _ he
  obtain rfl := forget_eq (by exact Kind.noConfusion) he
  exact wp_store h (by rfl) hs hf

theorem wp_storeEntry {a : LPVOID} {p : ServiceRoutineParameter}
    (h : g.own a = some (.parameters p)) (hs : g.Spares a) {i : Nat}
    {e : ServiceParameterBlob} {f : Unit → Code b α}
    (hf : a ≠ 0 → wp (outline b) (f ()) Q
      (g.put a (some (.parameters ⟨p.parameters.set i e⟩)))) :
    wp (outline b) (storeEntry a i e >>= f) Q g := by
  show wp (outline b) (loadParameters a >>= fun p =>
    store a (.parameters ⟨p.parameters.set i e⟩) >>= f) Q g
  refine wp_loadParameters h ?_
  intro _
  exact wp_store h (by rfl) hs hf

/-- A new descriptor lies where the thread held nothing. -/
theorem wp_newRoutine {r : ServiceRoutine} (hg : g.Kept) {f : LPVOID → Code b α}
    (hf : ∀ a, a ≠ 0 → g.own a = none →
      wp (outline b) (f a) Q (g.put a (some (.routine r)))) :
    wp (outline b) (newRoutine r >>= f) Q g := by
  show wp (outline b) (alloc .routine 1 >>= fun a => store a (.routine r) >>= fun _ => f a) Q g
  refine wp_alloc ?_
  intro a x h0 _ ha hk _
  refine wp_store (g.put_own_self a (some x)) (by exact hk) ?_ ?_
  · exact hg.spares ha
  · intro _
    rw [Ghost.put_put]
    exact hf a h0 ha

/-- A message that is received over what the buffer contained. -/
theorem wp_receiveInto {a : LPVOID} {lm : Nat → BYTE} {n : Nat}
    (h : g.own a = some (.message lm n)) (hs : g.Spares a)
    {x : NTSTATUS × Option (Message b)} {f : NTSTATUS → Code b α}
    (hsome : ∀ m, x.2 = some m → wp (outline b) (f x.1) Q
      (g.put a (some (.message (deliver lm m) n))))
    (hnone : x.2 = none → wp (outline b) (f x.1) Q g) :
    wp (outline b) (receiveInto a x >>= f) Q g := by
  unfold receiveInto
  cases hx : x.2 with
  | none => exact hnone hx
  | some m =>
      show wp (outline b) (modifyMessage a (deliver · m) >>= fun _ => f x.1) Q g
      refine wp_modifyMessage h hs ?_
      intro _
      exact hsome m hx

end Operations

end ScOwnership
