set_option autoImplicit false

/-! # SHA-256

The hash function of FIPS 180-4. `digest` hashes a whole message: the message is filled up to a
multiple of 64 bytes and its blocks are taken in one after the other. A `Hasher` hashes a message
that comes in pieces, and keeps no more than the bytes that do not yet fill a block.
-/

namespace MessageArchive.Digest.Sha256

/-- The eight words that the blocks are taken into. -/
structure State where
  a : UInt32
  b : UInt32
  c : UInt32
  d : UInt32
  e : UInt32
  f : UInt32
  g : UInt32
  h : UInt32
  deriving DecidableEq, Repr

/-- The state before the first block. -/
def initial : State where
  a := 0x6a09e667
  b := 0xbb67ae85
  c := 0x3c6ef372
  d := 0xa54ff53a
  e := 0x510e527f
  f := 0x9b05688c
  g := 0x1f83d9ab
  h := 0x5be0cd19

/-- One constant for each round. -/
def constants : List UInt32 :=
  [0x428a2f98, 0x71374491, 0xb5c0fbcf, 0xe9b5dba5, 0x3956c25b, 0x59f111f1,
    0x923f82a4, 0xab1c5ed5, 0xd807aa98, 0x12835b01, 0x243185be, 0x550c7dc3,
    0x72be5d74, 0x80deb1fe, 0x9bdc06a7, 0xc19bf174, 0xe49b69c1, 0xefbe4786,
    0x0fc19dc6, 0x240ca1cc, 0x2de92c6f, 0x4a7484aa, 0x5cb0a9dc, 0x76f988da,
    0x983e5152, 0xa831c66d, 0xb00327c8, 0xbf597fc7, 0xc6e00bf3, 0xd5a79147,
    0x06ca6351, 0x14292967, 0x27b70a85, 0x2e1b2138, 0x4d2c6dfc, 0x53380d13,
    0x650a7354, 0x766a0abb, 0x81c2c92e, 0x92722c85, 0xa2bfe8a1, 0xa81a664b,
    0xc24b8b70, 0xc76c51a3, 0xd192e819, 0xd6990624, 0xf40e3585, 0x106aa070,
    0x19a4c116, 0x1e376c08, 0x2748774c, 0x34b0bcb5, 0x391c0cb3, 0x4ed8aa4a,
    0x5b9cca4f, 0x682e6ff3, 0x748f82ee, 0x78a5636f, 0x84c87814, 0x8cc70208,
    0x90befffa, 0xa4506ceb, 0xbef9a3f7, 0xc67178f2]

/-! ## Taking in a block -/

def rotateRight (x : UInt32) (n : UInt32) : UInt32 := (x >>> n) ||| (x <<< (32 - n))

def upperSigma0 (x : UInt32) : UInt32 := rotateRight x 2 ^^^ rotateRight x 13 ^^^ rotateRight x 22

def upperSigma1 (x : UInt32) : UInt32 := rotateRight x 6 ^^^ rotateRight x 11 ^^^ rotateRight x 25

def lowerSigma0 (x : UInt32) : UInt32 := rotateRight x 7 ^^^ rotateRight x 18 ^^^ (x >>> 3)

def lowerSigma1 (x : UInt32) : UInt32 := rotateRight x 17 ^^^ rotateRight x 19 ^^^ (x >>> 10)

/-- Takes each bit from `y` where `x` has a one, and from `z` elsewhere. -/
def choose (x y z : UInt32) : UInt32 := (x &&& y) ^^^ (~~~x &&& z)

/-- Takes each bit as two of the three words have it. -/
def majority (x y z : UInt32) : UInt32 := (x &&& y) ^^^ (x &&& z) ^^^ (y &&& z)

/-- Four bytes as a word, the most significant byte first. -/
def word (a b c d : UInt8) : UInt32 :=
  (a.toUInt32 <<< 24) ||| (b.toUInt32 <<< 16) ||| (c.toUInt32 <<< 8) ||| d.toUInt32

/-- The words of a block. -/
def words : List UInt8 → List UInt32
  | a :: b :: c :: d :: rest => word a b c d :: words rest
  | _ => []

/-- The next `count` words of the message schedule, given the last sixteen, the oldest first. -/
def extend : Nat → List UInt32 → List UInt32
  | 0, _ => []
  | count + 1, recent =>
      let next := lowerSigma1 (recent.getD 14 0) + recent.getD 9 0
        + lowerSigma0 (recent.getD 1 0) + recent.getD 0 0
      next :: extend count (recent.tail ++ [next])

/-- The message schedule of a block: its sixteen words and 48 more. -/
def schedule (block : List UInt8) : List UInt32 :=
  let first := words block
  first ++ extend 48 first

/-- One round, with its constant and its word of the schedule. -/
def round (s : State) (k w : UInt32) : State :=
  let t1 := s.h + upperSigma1 s.e + choose s.e s.f s.g + k + w
  let t2 := upperSigma0 s.a + majority s.a s.b s.c
  { a := t1 + t2, b := s.a, c := s.b, d := s.c, e := s.d + t1, f := s.e, g := s.f, h := s.g }

/-- Adds two states word by word. -/
def State.add (s t : State) : State where
  a := s.a + t.a
  b := s.b + t.b
  c := s.c + t.c
  d := s.d + t.d
  e := s.e + t.e
  f := s.f + t.f
  g := s.g + t.g
  h := s.h + t.h

/-- Takes in a block of 64 bytes. -/
def compress (s : State) (block : List UInt8) : State :=
  ((constants.zip (schedule block)).foldl (fun s (k, w) => round s k w) s).add s

/-- Takes in the whole blocks of a list of bytes. What does not fill a block is left over. -/
def absorb (s : State) (data : List UInt8) : State × List UInt8 :=
  let block := data.take 64
  if _full : block.length = 64 then absorb (compress s block) (data.drop 64) else (s, data)
termination_by data.length
decreasing_by
  simp only [block, List.length_take] at _full
  simp only [List.length_drop]
  omega

/-! ## Padding and output -/

/-- A word as four bytes, the most significant byte first. -/
def wordBytes (x : UInt32) : List UInt8 :=
  [(x >>> 24).toUInt8, (x >>> 16).toUInt8, (x >>> 8).toUInt8, x.toUInt8]

/-- A number as eight bytes, the most significant byte first. -/
def lengthBytes (n : Nat) : List UInt8 :=
  [56, 48, 40, 32, 24, 16, 8, 0].map fun shift => UInt8.ofNat (n >>> shift)

/-- What a message of the given length in bytes is filled up with: a one bit, zeros, and the length
in bits. -/
def padding (length : Nat) : List UInt8 :=
  0x80 :: List.replicate ((119 - length % 64) % 64) 0 ++ lengthBytes (8 * length)

/-- The words of a state as bytes. -/
def State.bytes (s : State) : List UInt8 :=
  [s.a, s.b, s.c, s.d, s.e, s.f, s.g, s.h].flatMap wordBytes

/-- The SHA-256 digest of a message. -/
def digest (message : List UInt8) : List UInt8 :=
  (absorb initial (message ++ padding message.length)).1.bytes

/-! ## Messages in pieces -/

/-- What is known of a message of which some pieces have come. -/
structure Hasher where
  state : State := initial
  /-- The bytes that do not yet fill a block. -/
  pending : List UInt8 := []
  /-- The number of bytes so far. -/
  length : Nat := 0
  deriving DecidableEq, Repr

namespace Hasher

/-- No piece has come yet. -/
def empty : Hasher := {}

/-- Takes in the next piece. -/
def update (h : Hasher) (data : List UInt8) : Hasher :=
  let (state, pending) := absorb h.state (h.pending ++ data)
  { state, pending, length := h.length + data.length }

/-- The digest of the pieces so far. -/
def finish (h : Hasher) : List UInt8 :=
  (absorb h.state (h.pending ++ padding h.length)).1.bytes

end Hasher

/-! ## Pieces and wholes -/

theorem absorb_of_length_lt {s : State} {data : List UInt8} (h : data.length < 64) :
    absorb s data = (s, data) := by
  rw [absorb, dif_neg]
  simp only [List.length_take]
  omega

theorem absorb_of_le_length {s : State} {data : List UInt8} (h : 64 ≤ data.length) :
    absorb s data = absorb (compress s (data.take 64)) (data.drop 64) := by
  rw [absorb, dif_pos]
  simp only [List.length_take]
  omega

/-- Taking in two lists of bytes one after the other is taking in both at once, when what the
first one leaves over is put in front of the second. -/
theorem absorb_append (s : State) (front data : List UInt8) :
    absorb s (front ++ data) = absorb (absorb s front).1 ((absorb s front).2 ++ data) := by
  fun_induction absorb s front with
  | case1 s front block full ih =>
    have hlen : 64 ≤ front.length := by
      simp only [block, List.length_take] at full
      omega
    have hlen' : 64 ≤ (front ++ data).length := by
      simp only [List.length_append]
      omega
    rw [absorb_of_le_length hlen', List.take_append_of_le_length hlen,
      List.drop_append_of_le_length hlen]
    exact ih
  | case2 s front block full => rfl

/-- What a hasher knows after pieces have come depends on their concatenation alone. -/
theorem Hasher.update_append (h : Hasher) (front data : List UInt8) :
    (h.update front).update data = h.update (front ++ data) := by
  have habs := absorb_append h.state (h.pending ++ front) data
  rw [List.append_assoc] at habs
  simp only [Hasher.update, habs, List.length_append, Nat.add_assoc]

/-- A hasher that has seen a whole message gives the digest of the message. -/
theorem Hasher.finish_update_empty (message : List UInt8) :
    (Hasher.empty.update message).finish = digest message := by
  have habs := absorb_append initial message (padding message.length)
  simp only [Hasher.finish, Hasher.update, Hasher.empty, digest, List.nil_append, Nat.zero_add,
    habs]

end MessageArchive.Digest.Sha256
