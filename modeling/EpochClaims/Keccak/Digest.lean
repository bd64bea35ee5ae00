import EpochClaims.Keccak.Permutation

/-!
# The Keccak-256 digest

A message is padded to whole blocks of 136 bytes, each block is added to the
first 17 lanes of the state and followed by the permutation, and the digest is
the first four lanes. Lanes hold their bytes with the lowest first.
`length_digest` says that a digest always has 32 bytes.
-/

namespace EpochClaims

namespace Keccak

/-- The bytes of a block. -/
def rate : Nat := 136

/-- The bytes behind a message of the given length: a one, zeros, and the top
bit of the last byte. -/
def padding (length : Nat) : List UInt8 :=
  let free := rate - length % rate
  if free = 1 then [0x81] else 0x01 :: (List.replicate (free - 2) 0x00 ++ [0x80])

/-- The padded message cut into blocks. -/
def blocks (message : List UInt8) : List (List UInt8) :=
  let padded := message ++ padding message.length
  (List.range (padded.length / rate)).map fun i => (padded.drop (rate * i)).take rate

/-- The lane that bytes spell, lowest byte first. -/
def laneOfBytes (bytes : List UInt8) : UInt64 :=
  bytes.foldr (fun b lane => (lane <<< 8) ||| b.toUInt64) 0

/-- The eight bytes of a lane, lowest byte first. -/
def bytesOfLane (lane : UInt64) : List UInt8 :=
  (List.range 8).map fun i => (lane >>> UInt64.ofNat (8 * i)).toUInt8

/-- Adds a block to the first lanes and permutes. -/
def absorb (s : State) (block : List UInt8) : State :=
  permute (Vector.ofFn fun i =>
    if i.val < 17 then s[i] ^^^ laneOfBytes ((block.drop (8 * i.val)).take 8) else s[i])

/-- The Keccak-256 digest of a message. -/
def digest (message : List UInt8) : List UInt8 :=
  let s := (blocks message).foldl absorb State.zero
  (List.range 4).flatMap fun i => bytesOfLane (s.lane i 0)

@[simp] theorem length_bytesOfLane (lane : UInt64) : (bytesOfLane lane).length = 8 := by
  simp [bytesOfLane]

/-- A digest has 32 bytes. -/
@[simp] theorem length_digest (message : List UInt8) : (digest message).length = 32 := by
  simp [digest, List.range_succ]

example : digest [] =
    [0xC5, 0xD2, 0x46, 0x01, 0x86, 0xF7, 0x23, 0x3C,
      0x92, 0x7E, 0x7D, 0xB2, 0xDC, 0xC7, 0x03, 0xC0,
      0xE5, 0x00, 0xB6, 0x53, 0xCA, 0x82, 0x27, 0x3B,
      0x7B, 0xFA, 0xD8, 0x04, 0x5D, 0x85, 0xA4, 0x70] := by
  decide +kernel

end Keccak

end EpochClaims
