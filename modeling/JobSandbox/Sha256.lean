import JobSandbox.Bytes

/-!
# SHA-256

The digest by which a report identifies its dataset, after FIPS 180-4: the message is padded to
whole blocks of 64 bytes, each block is expanded to 64 words, and 64 rounds per block stir them into
a state of eight words.

## Main definitions

* `Sha256.pad` — the message as whole blocks.
* `Sha256.schedule`, `Sha256.compress` — what happens to one block.
* `Sha256.digest` — the digest of a message.
-/

namespace JobSandbox
namespace Sha256

/-- The eight words of the state. -/
structure State where
  a : UInt32
  b : UInt32
  c : UInt32
  d : UInt32
  e : UInt32
  f : UInt32
  g : UInt32
  h : UInt32
  deriving DecidableEq

/-- Fractional parts of the square roots of the first eight primes. -/
def initial : State :=
  ⟨0x6a09e667, 0xbb67ae85, 0x3c6ef372, 0xa54ff53a, 0x510e527f, 0x9b05688c, 0x1f83d9ab, 0x5be0cd19⟩

/-- Fractional parts of the cube roots of the first sixty-four primes. -/
def roundConstants : List UInt32 :=
  [0x428a2f98, 0x71374491, 0xb5c0fbcf, 0xe9b5dba5, 0x3956c25b, 0x59f111f1, 0x923f82a4, 0xab1c5ed5,
   0xd807aa98, 0x12835b01, 0x243185be, 0x550c7dc3, 0x72be5d74, 0x80deb1fe, 0x9bdc06a7, 0xc19bf174,
   0xe49b69c1, 0xefbe4786, 0x0fc19dc6, 0x240ca1cc, 0x2de92c6f, 0x4a7484aa, 0x5cb0a9dc, 0x76f988da,
   0x983e5152, 0xa831c66d, 0xb00327c8, 0xbf597fc7, 0xc6e00bf3, 0xd5a79147, 0x06ca6351, 0x14292967,
   0x27b70a85, 0x2e1b2138, 0x4d2c6dfc, 0x53380d13, 0x650a7354, 0x766a0abb, 0x81c2c92e, 0x92722c85,
   0xa2bfe8a1, 0xa81a664b, 0xc24b8b70, 0xc76c51a3, 0xd192e819, 0xd6990624, 0xf40e3585, 0x106aa070,
   0x19a4c116, 0x1e376c08, 0x2748774c, 0x34b0bcb5, 0x391c0cb3, 0x4ed8aa4a, 0x5b9cca4f, 0x682e6ff3,
   0x748f82ee, 0x78a5636f, 0x84c87814, 0x8cc70208, 0x90befffa, 0xa4506ceb, 0xbef9a3f7, 0xc67178f2]

/-! ### Words -/

def rotate (x : UInt32) (n : UInt32) : UInt32 := (x >>> n) ||| (x <<< (32 - n))

def choose (x y z : UInt32) : UInt32 := (x &&& y) ^^^ (~~~x &&& z)

def majority (x y z : UInt32) : UInt32 := (x &&& y) ^^^ (x &&& z) ^^^ (y &&& z)

def bigSigma0 (x : UInt32) : UInt32 := rotate x 2 ^^^ rotate x 13 ^^^ rotate x 22

def bigSigma1 (x : UInt32) : UInt32 := rotate x 6 ^^^ rotate x 11 ^^^ rotate x 25

def smallSigma0 (x : UInt32) : UInt32 := rotate x 7 ^^^ rotate x 18 ^^^ (x >>> 3)

def smallSigma1 (x : UInt32) : UInt32 := rotate x 17 ^^^ rotate x 19 ^^^ (x >>> 10)

/-! ### Blocks -/

def blockSize : Nat := 64

/-- The message, a one bit, zero bits up to the end of a block less eight bytes, and the length of
the message in bits. -/
def pad (message : Bytes) : Bytes :=
  let zeros := (2 * blockSize - 9 - message.length % blockSize) % blockSize
  message ++ 0x80 :: (List.replicate zeros 0 ++ (Bytes.ofNat 8 (8 * message.length)).reverse)

/-- The words of a block, most significant byte first. -/
def wordsOf : Bytes → List UInt32
  | a :: b :: c :: d :: rest =>
    (a.toUInt32 <<< 24 ||| b.toUInt32 <<< 16 ||| c.toUInt32 <<< 8 ||| d.toUInt32) :: wordsOf rest
  | _ => []

/-- One more word of a schedule that is kept backwards: sixteen words are looked back at. -/
def extend : List UInt32 → List UInt32
  | words@(_ :: w2 :: _ :: _ :: _ :: _ :: w7 :: _ :: _ :: _ :: _ :: _ :: _ :: _ :: w15 ::
      w16 :: _) =>
    (smallSigma1 w2 + w7 + smallSigma0 w15 + w16) :: words
  | words => words

/-- The sixty-four words of a block. -/
def schedule (block : Bytes) : List UInt32 :=
  (Nat.repeat extend 48 (wordsOf block).reverse).reverse

/-- One round with its constant and its word. -/
def round (s : State) (constant word : UInt32) : State :=
  let t1 := s.h + bigSigma1 s.e + choose s.e s.f s.g + constant + word
  let t2 := bigSigma0 s.a + majority s.a s.b s.c
  ⟨t1 + t2, s.a, s.b, s.c, s.d + t1, s.e, s.f, s.g⟩

def add (s t : State) : State :=
  ⟨s.a + t.a, s.b + t.b, s.c + t.c, s.d + t.d, s.e + t.e, s.f + t.f, s.g + t.g, s.h + t.h⟩

/-- The state after a block. -/
def compress (state : State) (block : Bytes) : State :=
  add state <| (roundConstants.zip (schedule block)).foldl (fun s kw => round s kw.1 kw.2) state

/-- The state after a number of blocks. -/
def absorb : (blocks : Nat) → Bytes → State → State
  | 0, _, state => state
  | blocks + 1, bytes, state =>
    absorb blocks (bytes.drop blockSize) (compress state (bytes.take blockSize))

/-! ### Digest -/

/-- The words of a state as bytes, most significant first. -/
def State.bytes (s : State) : Bytes :=
  [s.a, s.b, s.c, s.d, s.e, s.f, s.g, s.h].flatMap fun w => (Bytes.ofNat 4 w.toNat).reverse

def digest (message : Bytes) : Bytes :=
  let padded := pad message
  (absorb (padded.length / blockSize) padded initial).bytes

/-- A padded message is a whole number of blocks. -/
theorem length_pad_mod (message : Bytes) : (pad message).length % blockSize = 0 := by
  simp only [pad, blockSize, List.length_append, List.length_cons, List.length_replicate,
    List.length_reverse, Bytes.length_ofNat]
  omega

@[simp] theorem length_digest (message : Bytes) : (digest message).length = 32 := by
  simp [digest, State.bytes]

end Sha256
end JobSandbox
