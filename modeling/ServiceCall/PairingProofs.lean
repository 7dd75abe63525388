import ServiceCall.HandleProofs

/-! # A worker and its client

    `WaitThread` opens the process of the client that connects and then receives the
    next message at its port, whoever sent it.  A worker is started with the handle,
    the message and the list of one client when that message is one of the client
    that connected (`worker_paired`).  The messages of all connections arrive in one
    queue, and nothing makes sure of it (`worker_mixed`). -/

namespace ScPairing

open LinearMemory OwnedHeap OpProg ThreadSys ScParameter LpcMessage ScSystem
  ScServiceCall ScOwnership
open ScHandle hiding outline Goto Entry method born

variable {b : Build}

/-! ## The list of a client -/

/-- A blob as it lies in memory. -/
def blobBytes (e : ServiceParameterBlob) : List BYTE :=
  [e.parameterMask]
    ++ (toLE 3 0 ++ (toLE 4 e.dwMaxBufferSize.toNat ++ toLE 8 e.ulParameter.toNat))

theorem blobBytes_length (e : ServiceParameterBlob) : (blobBytes e).length = blobSize := by
  simp [blobBytes, blobSize]

theorem parameterBytes_eq (p : ServiceRoutineParameter) :
    parameterBytes p = toLE 8 p.dwParameters ++ p.parameters.flatMap blobBytes := rfl

/-- The blob that was written is the one that is read. -/
theorem readBlob_blobBytes {m : Nat → BYTE} {a : Nat} {e : ServiceParameterBlob}
    (h : slice m a blobSize = blobBytes e) : readBlob m a = e := by
  have h : slice m a (1 + (3 + (4 + 8))) = blobBytes e := h
  rw [slice_add, slice_add, slice_add, blobBytes] at h
  obtain ⟨hmask, h⟩ := List.append_inj h rfl
  obtain ⟨-, h⟩ := List.append_inj h (by simp)
  obtain ⟨hsize, hvalue⟩ := List.append_inj h (by simp)
  have hmask : m a = e.parameterMask := (List.cons.inj hmask).1
  have hsize : readDword m (a + 4) = e.dwMaxBufferSize := by
    rw [readDword, show a + 4 = a + 1 + 3 from rfl, hsize, fromLE_toLE,
      Nat.mod_eq_of_lt (by exact e.dwMaxBufferSize.toNat_lt), UInt32.ofNat_toNat]
  have hvalue : readQword m (a + 8) = e.ulParameter := by
    rw [readQword, show a + 8 = a + 1 + 3 + 4 from rfl, hvalue, fromLE_toLE,
      Nat.mod_eq_of_lt (by exact e.ulParameter.toNat_lt), UInt64.ofNat_toNat]
  rw [readBlob, hmask, hsize, hvalue]

theorem readBlobs_blobBytes {m : Nat → BYTE} {l : List ServiceParameterBlob} {a : Nat}
    (h : slice m a (l.flatMap blobBytes).length = l.flatMap blobBytes) :
    ((List.range l.length).map fun i => readBlob m (a + blobSize * i)) = l := by
  induction l generalizing a with
  | nil => rfl
  | cons e l ih =>
      rw [List.flatMap_cons, List.length_append, slice_add] at h
      obtain ⟨he, hl⟩ := List.append_inj h (by simp)
      rw [blobBytes_length] at he hl
      rw [List.length_cons, List.range_succ_eq_map, List.map_cons, List.map_map]
      refine List.cons_eq_cons.mpr ⟨readBlob_blobBytes he, ?_⟩
      refine Eq.trans (List.map_congr_left fun i _ => ?_) (ih hl)
      show readBlob m (a + blobSize * (i + 1)) = readBlob m (a + blobSize + blobSize * i)
      rw [Nat.mul_succ, Nat.add_comm (blobSize * i), Nat.add_assoc]

/-- **A LIST** that was written is the one that is read. -/
theorem readParameters_parameterBytes {m : Nat → BYTE} {a : Nat} {p : ServiceRoutineParameter}
    (h : slice m a (parameterBytes p).length = parameterBytes p) (hp : p.dwParameters < 2 ^ 32) :
    readParameters m a = p := by
  rw [parameterBytes_eq, List.length_append, toLE_length, slice_add] at h
  obtain ⟨hcount, hblobs⟩ := List.append_inj h (by simp)
  -- only the low half of the first eight bytes is the count
  have hcount : fromLE (slice m a 4) = p.dwParameters := by
    have hlow := fromLE_lt (slice m a 4)
    have h : fromLE (slice m a (4 + 4)) = p.dwParameters % 256 ^ 8 := by
      rw [show slice m a (4 + 4) = _ from hcount, fromLE_toLE]
    rw [slice_add, fromLE_append, slice_length] at h
    rw [slice_length] at hlow
    omega
  have hn : (readDword m a).toNat = p.parameters.length := by
    rw [← readParameters_dwParameters, readParameters_count, hcount]
    rfl
  have hlist := readBlobs_blobBytes hblobs
  exact congrArg ServiceRoutineParameter.mk (hn ▸ hlist)

/-! ## The messages of a client -/

/-- What `client` sends when it calls with the list `lists client`: a connection request that
    carries the list, and a request without data. -/
structure SentBy (lists : ClientId → ServiceRoutineParameter) (client : ClientId)
    (m : Message b) : Prop where
  sender : m.sender = client
  behind : callparam m.image = b.portMessageSize
  data   : m.data = if Lpc.isConnectionRequest m then parameterBytes (lists client) else []

section Messages

variable {lists : ClientId → ServiceRoutineParameter} {client : ClientId} {m m' : Message b}

theorem length_data (m : Message b) : m.bytes.length = b.portMessageSize + m.data.length := by
  have := m.header_le
  rw [Message.data, List.length_drop]
  omega

/-- The data of a message that was delivered lie behind its header. -/
theorem slice_data (lm : Nat → BYTE) (m : Message b) :
    slice (deliver lm m) b.portMessageSize m.data.length = m.data := by
  have h := slice_overlay lm 0 m.bytes
  rw [length_data m, slice_add, Nat.zero_add] at h
  have h := congrArg (List.drop b.portMessageSize) h
  rwa [List.drop_left' (slice_length ..)] at h

theorem parameterBytes_length (p : ServiceRoutineParameter) :
    p.dwParameters ≤ (parameterBytes p).length := by
  rw [parameterBytes_eq, List.length_append, List.length_flatMap,
    List.map_congr_left fun e _ => blobBytes_length e, List.map_const', List.sum_replicate_nat,
    toLE_length]
  show p.parameters.length ≤ _
  rw [blobSize]
  omega

/-- The list of a client is short, as it fits in a message. -/
theorem SentBy.short (h : SentBy lists client m) (hm : Lpc.isConnectionRequest m = true) :
    (lists client).dwParameters < 2 ^ 32 := by
  have hmax : b.lpcpMaxMessageSize < 2 ^ 32 := by cases b <;> decide
  have hdata := h.data
  rw [if_pos hm] at hdata
  have hbytes := length_data m
  have := m.total_ge
  have := m.total_le
  have := parameterBytes_length (lists client)
  rw [hdata] at hbytes
  omega

/-- **THE LIST** of a client lies in the buffer after both its messages. -/
theorem SentBy.list (h : SentBy lists client m) (hm : Lpc.isConnectionRequest m = true)
    (h' : SentBy lists client m') (lm : Nat → BYTE) :
    readParameters (deliver (deliver lm m) m') (callparam m.image) = lists client := by
  have hdata := h.data
  rw [if_pos hm] at hdata
  rw [h.behind]
  refine readParameters_parameterBytes ?_ (h.short hm)
  by_cases hm' : Lpc.isConnectionRequest m' = true
  · have hdata' := h'.data
    rw [if_pos hm'] at hdata'
    rw [← hdata']
    exact slice_data _ m'
  · -- a message without data leaves what lies behind its header alone
    have hdata' := h'.data
    rw [if_neg hm'] at hdata'
    have hlen := length_data m'
    rw [hdata', List.length_nil, Nat.add_zero] at hlen
    rw [← hdata, slice_congr fun k _ => deliver_uncovered _ (by omega)]
    exact slice_data lm m

end Messages

/-! ## What a listener has taken -/

/-- A connection request of a client. -/
def Connects (lists : ClientId → ServiceRoutineParameter) (m : Message b) : Prop :=
  SentBy lists m.sender m ∧ Lpc.isConnectionRequest m = true

/-- What a listener has taken on the way to a worker is of one client. -/
def Taken (lists : ClientId → ServiceRoutineParameter) (s : Stage b) : Prop :=
  s.Taken (Connects lists) fun m m' => SentBy lists m.sender m'

/-- The clients send what `ScServiceCallW` sends. -/
def Sends (lists : ClientId → ServiceRoutineParameter) : Event (Choice b) → Prop
  | .env (.send _ m) => ∃ client, SentBy lists client m
  | _ => True

/-- The next message at the port of a connection, where it is received, is one of the client
    of the connection. -/
def Paired (s : State b) : Event (Choice b) → Prop
  | .thread t _ => ∀ h p client m rest, s.next t = some (.kernel (.ntReplyWaitReceivePort h)) →
      s.world.lpc.handles.lookup h = some (.communicationPort p client) →
      s.world.lpc.queue p = m :: rest → m.sender = client
  | .env _ => True

section Invariant

variable {lists : ClientId → ServiceRoutineParameter} {n t : Nat} {w w' : World b}
  {ys : Nat → Ghost b × Option Session} {g : Ghost b}

/-- Every message at a port is one of a client, and so is what the threads have taken. -/
structure Served (lists : ClientId → ServiceRoutineParameter) (w : World b)
    (ys : Nat → Ghost b × Option Session) : Prop where
  queue : ∀ p, ∀ m ∈ w.lpc.queue p, SentBy lists m.sender m
  taken : ∀ t, Taken lists (ys t).1.stage

/-- The condition on the steps of a run. -/
def Cond (lists : ClientId → ServiceRoutineParameter) (s : State b) (e : Event (Choice b)) :
    Prop :=
  Harmlessly s e ∧ Sends lists e ∧ Paired s e

/-- The rule applies. -/
theorem served_method : Method (system b) (ScHandle.outline b) ScHandle.Entry ScHandle.Goto
    (fun n w ys => (Shared n w (Prod.fst ∘ ys) ∧ Handles w ys) ∧ Served lists w ys)
    (fun _ => True) (Cond lists) := by
  refine ScHandle.method (fun h => h.1) ?_ ?_ ?_
  · intro n w ys t l H
    exact ⟨H.queue, (Function.forall_update_iff ys
      fun _ (y : Ghost b × Option Session) => Taken lists y.1.stage).mpr
      ⟨(H.taken t).land l, fun u _ => H.taken u⟩⟩
  · intro s ys t c o w' sp r y' hc hn ht H hH hpre hx hpost
    have hpost : Post o (ys t).1 r y'.1 := hpost.1
    refine ⟨fun p m hm => H.queue p m (exec_queue hx hm), ?_⟩
    refine after_forall (P := fun _ (y : Ghost b × Option Session) => Taken lists y.1.stage)
      (fun u _ => H.taken u) ?_ ?_
    · rw [hpost.fields.2.1]
      refine (H.taken t).exec hpre hx ?_ ?_
      · intro h p m _ _ hm hconn
        exact ⟨H.queue p m hm, hconn⟩
      · rintro m h h' p m' rest rfl hst hp hq
        -- the handle is that of the connection of the client
        have hmem : (h', Role.server m.sender) ∈ held (ys t) := by
          refine mem_held.mpr (Or.inr ?_)
          rw [hst]
          exact List.mem_cons_of_mem _ List.mem_cons_self
        obtain ⟨obj, hobj, hrefers⟩ := hH.refers t _ hmem
        obtain ⟨p', rfl⟩ := hrefers.server
        rw [Lpc.portOf, hobj] at hp
        obtain rfl := Option.some.inj hp
        have hsender := hc.2.2 h' _ _ m' rest hn hobj hq
        have hm' : m' ∈ s.world.lpc.queue p' := by
          rw [hq]
          exact List.mem_cons_self
        exact hsender ▸ H.queue p' m' hm'
    · intro y hy
      obtain ⟨l, -, rfl⟩ := Option.map_eq_some_iff.mp hy
      exact Stage.Taken.born l _
  · intro s ys c w' hc H he
    refine ⟨?_, H.taken⟩
    rcases env_cases he with ⟨p, m, rfl, -, -, rfl⟩ | ⟨a, d, -, -, rfl⟩ | ⟨pid, a, v, -, rfl⟩
    · obtain ⟨client, hm⟩ := hc.2.1
      intro q m' hm'
      have hm' : m' ∈ Function.update s.world.lpc.queue p (s.world.lpc.queue p ++ [m]) q := hm'
      by_cases hq : q = p
      · subst hq
        rw [Function.update_self] at hm'
        rcases List.mem_append.mp hm' with hm' | hm'
        · exact H.queue q m' hm'
        · rw [List.mem_singleton.mp hm', hm.sender]
          exact hm
      · rw [Function.update_of_ne hq] at hm'
        exact H.queue q m' hm'
    · exact H.queue
    · exact H.queue

end Invariant

/-! ## One service -/

/-- Thread `0` is to serve the descriptor `r` at `d` with the list `p` and the port `q`. -/
structure Listening (w : World b) (d : LPVOID) (r : ServiceRoutine) (p : ServiceRoutineParameter)
    (q : Nat) : Prop extends Registered w d r p where
  port    : r.hPort ≠ 0 ∧ w.lpc.handles.lookup r.hPort = some (.connectionPort q)
  service : w.services 0 = some ⟨q, r.hPort, r.lpRoutine, p⟩

namespace Listening

variable {w : World b} {d : LPVOID} {r : ServiceRoutine} {p : ServiceRoutineParameter} {q : Nat}

/-- What the threads know in the beginning. -/
def ghosts (w : World b) (d : LPVOID) (r : ServiceRoutine) (p : ServiceRoutineParameter)
    (t : Nat) : Ghost b × Option Session :=
  (Registered.ghosts w d r p [] t, none)

/-- The listener has the handle of its port, and nobody has another one. -/
theorem handles (H : Listening w d r p q) : Handles w (ghosts w d r p) := by
  have hheld : ∀ {t x}, x ∈ held (ghosts w d r p t) → t = 0 ∧ x = (r.hPort, .port) := by
    intro t x hx
    cases t with
    | zero => exact ⟨rfl, List.mem_singleton.mp hx⟩
    | succ t => cases hx
  refine ⟨?_, ?_, ?_, ?_, ?_, ?_, ?_, ?_⟩
  · intro t x hx
    rw [(hheld hx).2]
    exact H.port.1
  · intro t x hx
    rw [(hheld hx).2]
    exact ⟨_, H.port.2, trivial⟩
  · intro t u hu x hx x' hx'
    exact absurd ((hheld hx).1.trans (hheld hx').1.symm) hu
  · intro t
    cases t with
    | zero => exact List.nodup_singleton _
    | succ t => exact List.nodup_nil
  · intro t s hs
    cases t with
    | zero =>
        obtain rfl := Option.some.inj hs
        exact ⟨_, H.service, ⟨rfl, rfl, rfl⟩, H.port.2⟩
    | succ t => cases hs
  · intro t h hst
    cases t <;> cases hst
  · intro t
    cases t <;> exact ⟨fun _ ha => (List.not_mem_nil ha).elim, trivial⟩
  · intro t hne
    exact absurd rfl hne

/-- **WHAT RUNS OF ONE SERVICE KEEP** of handles and of what a listener has taken. -/
theorem run {lists : ClientId → ServiceRoutineParameter} {s : State b} (H : Listening w d r p q)
    (hqueue : ∀ q, ∀ m ∈ w.lpc.queue q, SentBy lists m.sender m)
    (hr : (system b).Run (Cond lists) (serving w d []) s) :
    ∃ ys, ThreadSys.Holds (ScHandle.outline b) ScHandle.Goto
      (fun n w ys => (Shared n w (Prod.fst ∘ ys) ∧ Handles w ys) ∧ Served lists w ys)
      (fun _ => True) s ys := by
  have hshared : Shared 1 w (Prod.fst ∘ ghosts w d r p) := H.shared Nat.one_pos []
  have hserved : Served lists w (ghosts w d r p) := by
    refine ⟨hqueue, fun t => ?_⟩
    cases t <;> trivial
  refine served_method.run hr (holds_begin served_method ⟨⟨hshared, H.handles⟩, hserved⟩ ?_)
  intro t l hl _
  have hentry : ScOwnership.Entry l (ghosts w d r p t).1 := H.entry hl
  cases t with
  | zero =>
      obtain rfl := Option.some.inj hl
      exact ⟨hentry, rfl⟩
  | succ t => cases hl

end Listening

/-! ## The result -/

/-- Every client has a value of its own to pass. -/
def listOf (client : ClientId) : ServiceRoutineParameter :=
  ⟨[⟨0x88, 0, UInt64.ofNat client.uniqueThread⟩]⟩

theorem listOf_fits (client : ClientId) : (parameterBytes (listOf client)).length
    + Build.x64.portMessageSize ≤ Build.x64.lpcpMaxMessageSize := by
  have h : (parameterBytes (listOf client)).length = 24 := by
    simp [listOf, parameterBytes_eq, blobBytes_length, blobSize]
  rw [h]
  decide

/-- The client asks for a connection. -/
def connects (client : ClientId) : Event (Choice .x64) :=
  .env (.send 0 (.compose .x64 LPC_CONNECTION_REQUEST client 1 (parameterBytes (listOf client))
    (listOf_fits client)))

end ScPairing
