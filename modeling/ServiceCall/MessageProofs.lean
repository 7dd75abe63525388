import ServiceCall.ParameterProofs

/-! # Messages

    A message is a header, which the kernel fills in, and its data.  The
    listener has one buffer for all messages: a delivery overwrites the buffer
    with the bytes of the message and leaves what lies behind them (`deliver`).
    The fields of the header and the parameter list a connection request
    carries are read out of the buffer wherever they are needed. -/

namespace LpcMessage

open LinearMemory ScParameter

/-- The build of the library, which decides the width of pointers.  Each runs on a host of
    its own width here, which decides the length of the header of a message: a 32-bit
    process on a 64-bit host, whose messages have the long header, is not `x86`. -/
inductive Build where
  | x86
  | x64
deriving DecidableEq

namespace Build

/-- `LPC_MESSAGE_LENGTH_32`, `LPC_MESSAGE_LENGTH_64`: `sizeof(PORT_MESSAGE)`. -/
def portMessageSize : Build → Nat
  | x86 => 24
  | x64 => 40

/-- `PORT_MAXIMUM_MESSAGE_LENGTH` -/
def portMaximumMessageLength : Build → Nat
  | x86 => 256
  | x64 => 512

/-- `FIELD_OFFSET(LPCP_MESSAGE, Request)`: 0x14 bytes, aligned for the header. -/
def requestOffset : Nat := 24

/-- `sizeof(LPCP_CONNECTION_MESSAGE)` -/
def connectionMessageSize : Nat := 0x2C

/-- `N_ROUND_UP` -/
def nRoundUp (x s : Nat) : Nat := (x + s - 1) / s * s

/-- `LPCP_MAX_MESSAGE_SIZE` -/
def lpcpMaxMessageSize (b : Build) : Nat :=
  nRoundUp (b.portMaximumMessageLength + (requestOffset + b.portMessageSize)
    + connectionMessageSize) 16

/-- `ulMaxMessageSize` of a registration. -/
def ulMaxMessageSize (b : Build) : Nat := b.lpcpMaxMessageSize - requestOffset

/-- `ulMaxConnectionSize` of a registration. -/
def ulMaxConnectionSize (b : Build) : Nat :=
  b.ulMaxMessageSize - b.portMessageSize - connectionMessageSize

/-- The width of a pointer in bytes. -/
def pointerSize : Build → Nat
  | x86 => 4
  | x64 => 8

/-- `reinterpret_cast` of a 64-bit number to a pointer. -/
def toPointer : Build → ULONG64 → ULONG64
  | x86, u => u &&& 0xffffffff
  | x64, u => u

@[simp] theorem toPointer_x64 (u : ULONG64) : x64.toPointer u = u := rfl

end Build

/-- `LPC_TYPE`, as far as it is told apart here. -/
def LPC_REQUEST : Nat := 1
def LPC_CONNECTION_REQUEST : Nat := 10

/-- The client thread that sent a message. -/
structure ClientId where
  uniqueProcess : Nat
  uniqueThread  : Nat
deriving DecidableEq, Repr

/-! ## The fields of a header -/

/-- The little-endian number of `n` bytes at address `a`. -/
def readNumber (m : Nat → BYTE) (a n : Nat) : Nat := fromLE (slice m a n)

theorem readNumber_congr {m m' : Nat → BYTE} {a n : Nat}
    (h : ∀ i, Covers a n i → m i = m' i) : readNumber m a n = readNumber m' a n := by
  rw [readNumber, readNumber]
  refine congrArg fromLE (slice_congr (fun k hk => h (a + k) ?_))
  exact ⟨Nat.le_add_right .., Nat.add_lt_add_left hk a⟩

/-- `u1.s1.DataLength` -/
def dataLength (lm : Nat → BYTE) : Nat := readNumber lm 0 2

/-- `u1.s1.TotalLength` -/
def totalLength (lm : Nat → BYTE) : Nat := readNumber lm 2 2

/-- `u2.s2.Type` -/
def messageType (lm : Nat → BYTE) : Nat := readNumber lm 4 2

/-- `ClientId` -/
def clientId (b : Build) (lm : Nat → BYTE) : ClientId where
  uniqueProcess := readNumber lm 8 b.pointerSize
  uniqueThread := readNumber lm (8 + b.pointerSize) b.pointerSize

/-- `MessageId` -/
def messageId (b : Build) (lm : Nat → BYTE) : Nat :=
  readNumber lm (8 + 2 * b.pointerSize) 4

/-- `callparam`: where the data of the message in the buffer begins. -/
def callparam (lm : Nat → BYTE) : Nat := totalLength lm - dataLength lm

/-! ## Messages in transit -/

/-- A message as the kernel hands it over: its lengths are those of its header,
    and it fits the largest buffer. -/
structure Message (b : Build) where
  bytes         : List BYTE
  header_le     : b.portMessageSize ≤ bytes.length
  dataLength_eq :
    dataLength (fun i => bytes.getD i 0) + b.portMessageSize = bytes.length
  total_ge      : bytes.length ≤ totalLength (fun i => bytes.getD i 0)
  total_le      : totalLength (fun i => bytes.getD i 0) ≤ b.lpcpMaxMessageSize

namespace Message

variable {b : Build}

instance : DecidableEq (Message b) := fun m₁ m₂ =>
  decidable_of_iff (m₁.bytes = m₂.bytes) ⟨fun h => by
    cases m₁; cases m₂; cases h; rfl, fun h => congrArg bytes h⟩

/-- The message as the content of a buffer. -/
def image (m : Message b) : Nat → BYTE := fun i => m.bytes.getD i 0

/-- The client that sent it. -/
def sender (m : Message b) : ClientId := clientId b m.image

/-- Its type. -/
def type (m : Message b) : Nat := messageType m.image

/-- Its data. -/
def data (m : Message b) : List BYTE := m.bytes.drop b.portMessageSize

end Message

variable {b : Build}

/-- The kernel writes a message into a buffer. -/
def deliver (lm : Nat → BYTE) (m : Message b) : Nat → BYTE := overlay lm 0 m.bytes

theorem deliver_covered (lm : Nat → BYTE) {m : Message b} {i : Nat}
    (h : i < m.bytes.length) : deliver lm m i = m.image i := by
  have hcov : m.bytes[i - 0]? = some (overlay lm 0 m.bytes i) :=
    overlay_covered ⟨Nat.zero_le _, by omega⟩
  rw [Nat.sub_zero] at hcov
  rw [Message.image, List.getD_eq_getElem?_getD, hcov]
  rfl

theorem deliver_uncovered (lm : Nat → BYTE) {m : Message b} {i : Nat}
    (h : m.bytes.length ≤ i) : deliver lm m i = lm i := by
  refine overlay_uncovered ?_
  rintro ⟨-, hlt⟩
  omega

/-- A field of the header reads the same in the buffer as in the message. -/
theorem readNumber_deliver (lm : Nat → BYTE) (m : Message b) {a n : Nat}
    (h : a + n ≤ b.portMessageSize) :
    readNumber (deliver lm m) a n = readNumber m.image a n := by
  refine readNumber_congr (fun i hi => deliver_covered lm ?_)
  have := hi.2
  have := m.header_le
  omega

@[simp] theorem dataLength_deliver (lm : Nat → BYTE) (m : Message b) :
    dataLength (deliver lm m) = dataLength m.image :=
  readNumber_deliver lm m (by cases b <;> decide)

@[simp] theorem totalLength_deliver (lm : Nat → BYTE) (m : Message b) :
    totalLength (deliver lm m) = totalLength m.image :=
  readNumber_deliver lm m (by cases b <;> decide)

@[simp] theorem clientId_deliver (lm : Nat → BYTE) (m : Message b) :
    clientId b (deliver lm m) = m.sender := by
  rw [clientId, Message.sender, clientId, readNumber_deliver lm m (by cases b <;> decide),
    readNumber_deliver lm m (by cases b <;> decide)]

@[simp] theorem messageId_deliver (lm : Nat → BYTE) (m : Message b) :
    messageId b (deliver lm m) = messageId b m.image :=
  readNumber_deliver lm m (by cases b <;> decide)

@[simp] theorem callparam_deliver (lm : Nat → BYTE) (m : Message b) :
    callparam (deliver lm m) = callparam m.image := by
  rw [callparam, callparam, totalLength_deliver, dataLength_deliver]

/-- The data of a message lie behind its header. -/
theorem portMessageSize_le_callparam (m : Message b) :
    b.portMessageSize ≤ callparam m.image := by
  have h₁ := m.dataLength_eq
  have h₂ := m.total_ge
  rw [callparam]
  change dataLength m.image + _ = _ at h₁
  change _ ≤ totalLength m.image at h₂
  omega

/-! ## Composing a message -/

/-- The header of a message with `n` bytes of data. -/
def header (b : Build) (type : Nat) (client : ClientId) (id n : Nat) : List BYTE :=
  toLE 2 n ++ (toLE 2 (n + b.portMessageSize) ++ (toLE 2 type ++ (toLE 2 0
    ++ (toLE b.pointerSize client.uniqueProcess ++ (toLE b.pointerSize client.uniqueThread
    ++ (toLE 4 id ++ toLE (b.portMessageSize - (12 + 2 * b.pointerSize)) 0))))))

theorem header_length (type : Nat) (client : ClientId) (id n : Nat) :
    (header b type client id n).length = b.portMessageSize := by
  cases b <;> simp [header, Build.portMessageSize, Build.pointerSize]

/-- A number that was written between other bytes. -/
theorem readNumber_toLE {pre post : List BYTE} {a : Nat} (h : pre.length = a) (n v : Nat) :
    readNumber (fun i => (pre ++ (toLE n v ++ post)).getD i 0) a n = v % 256 ^ n := by
  have hs : slice (fun i => (pre ++ (toLE n v ++ post)).getD i 0) a n = toLE n v := by
    refine List.ext_getElem (by simp) ?_
    intro i h₁ h₂
    have hi : i < n := by simpa using h₁
    simp only [slice, List.getElem_map, List.getElem_range]
    rw [List.getD_eq_getElem?_getD, ← h, List.getElem?_append_right (by omega),
      Nat.add_sub_cancel_left, List.getElem?_append_left h₂, List.getElem?_eq_getElem h₂]
    rfl
  rw [readNumber, hs, fromLE_toLE]

namespace Message

/-- A few bytes of data fit in a message. -/
theorem small_fits {data : List BYTE} (h : data.length ≤ 32) :
    data.length + Build.x64.portMessageSize ≤ Build.x64.lpcpMaxMessageSize := by
  have : 32 + Build.x64.portMessageSize ≤ Build.x64.lpcpMaxMessageSize := by decide
  omega

/-- The message with the given header fields and data. -/
def compose (b : Build) (type : Nat) (client : ClientId) (id : Nat) (data : List BYTE)
    (h : data.length + b.portMessageSize ≤ b.lpcpMaxMessageSize) : Message b :=
  have hmax : b.lpcpMaxMessageSize < 256 ^ 2 := by cases b <;> decide
  have hdata : dataLength (fun i => (header b type client id data.length ++ data).getD i 0)
      = data.length := by
    rw [dataLength, header, List.append_assoc, ← List.nil_append (toLE 2 data.length ++ _),
      readNumber_toLE List.length_nil, Nat.mod_eq_of_lt (by omega)]
  have htotal : totalLength (fun i => (header b type client id data.length ++ data).getD i 0)
      = data.length + b.portMessageSize := by
    rw [totalLength, header, List.append_assoc, List.append_assoc,
      readNumber_toLE (toLE_length ..), Nat.mod_eq_of_lt (by omega)]
  { bytes := header b type client id data.length ++ data
    header_le := by
      rw [List.length_append, header_length]
      omega
    dataLength_eq := by
      rw [hdata, List.length_append, header_length]
      omega
    total_ge := by
      rw [htotal, List.length_append, header_length]
      omega
    total_le := by
      rw [htotal]
      exact h }

end Message

/-! ## The status in a reply -/

/-- `*LPC_MESSAGE_DATA_BUFFER(lm, PNTSTATUS) = status`, with `n` for
    `system_lpc_message_length`. -/
def writeStatus (n : Nat) (status : NTSTATUS) (lm : Nat → BYTE) : Nat → BYTE :=
  overlay lm n (toLE 4 status.toNat)

/-- `*LPC_MESSAGE_DATA_BUFFER(lm, PNTSTATUS)` -/
def readStatus (n : Nat) (lm : Nat → BYTE) : NTSTATUS := readDword lm n

/-- `lm->u1.s1.TotalLength = v` and `lm->u1.s1.DataLength = v` -/
def writeTotalLength (v : Nat) (lm : Nat → BYTE) : Nat → BYTE := overlay lm 2 (toLE 2 v)
def writeDataLength (v : Nat) (lm : Nat → BYTE) : Nat → BYTE := overlay lm 0 (toLE 2 v)

/-- The status that was written is the status that is read. -/
theorem readStatus_writeStatus (n : Nat) (status : NTSTATUS) (lm : Nat → BYTE) :
    readStatus n (writeStatus n status lm) = status := by
  have hs : slice (overlay lm n (toLE 4 status.toNat)) n 4 = toLE 4 status.toNat := by
    have := slice_overlay lm n (toLE 4 status.toNat)
    rwa [toLE_length] at this
  rw [readStatus, writeStatus, readDword, hs, fromLE_toLE,
    Nat.mod_eq_of_lt (by have := status.toNat_lt; omega), UInt32.ofNat_toNat]

end LpcMessage
