import Apsdk.Library.ByteOrder

/-! Stream ciphers: a state puts out one byte of a keystream after the other, and
data is combined with them. The keystream as a whole is a function of the position. -/

namespace Library

variable {State : Type}

/-- The data combined with the keystream from a position on. -/
def xorStream (keystream : Nat → UInt8) : Nat → Bytes → Bytes
  | _, [] => []
  | position, byte :: rest => (byte ^^^ keystream position) :: xorStream keystream (position + 1) rest

theorem length_xorStream (keystream : Nat → UInt8) (position : Nat) (data : Bytes) :
    (xorStream keystream position data).length = data.length := by
  induction data generalizing position with
  | nil => rfl
  | cons byte rest ih => exact congrArg Nat.succ (ih (position + 1))

/-- Combined twice, the data is itself again. -/
theorem xorStream_xorStream (keystream : Nat → UInt8) (position : Nat) (data : Bytes) :
    xorStream keystream position (xorStream keystream position data) = data := by
  induction data generalizing position with
  | nil => rfl
  | cons byte rest ih =>
    have again : byte ^^^ keystream position ^^^ keystream position = byte := by rw [UInt8.xor_assoc, UInt8.xor_self, UInt8.xor_zero]
    rw [xorStream, xorStream, again, ih]

/-- The data combined with what a generator puts out. -/
def xcrypt (next : State → State × UInt8) : State → Bytes → State × Bytes
  | state, [] => (state, [])
  | state, byte :: rest =>
    let (state, key) := next state
    let (final, later) := xcrypt next state rest
    (final, (byte ^^^ key) :: later)

/-- A generator that stands at a position of a keystream after every byte. -/
structure Follows (next : State → State × UInt8) (keystream : Nat → UInt8) (At : State → Nat → Prop) : Prop where
  byte : ∀ {state position}, At state position → (next state).2 = keystream position
  advances : ∀ {state position}, At state position → At (next state).1 (position + 1)

theorem Follows.xcrypt {next : State → State × UInt8} {keystream : Nat → UInt8} {At : State → Nat → Prop}
    (follows : Follows next keystream At) {state : State} {position : Nat} (stands : At state position) (data : Bytes) :
    (xcrypt next state data).2 = xorStream keystream position data ∧
    At (xcrypt next state data).1 (position + data.length) := by
  induction data generalizing state position with
  | nil => exact ⟨rfl, stands⟩
  | cons byte rest ih =>
    obtain ⟨same, reached⟩ := ih (follows.advances stands)
    simp only [Library.xcrypt, xorStream, List.length_cons, follows.byte stands, same, true_and]
    rwa [Nat.add_assoc, Nat.add_comm 1] at reached

end Library
