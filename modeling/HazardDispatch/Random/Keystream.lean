/-!
# A stream of pseudo-random words

The words are the blocks of the stream cipher ChaCha with twelve rounds: a block is a function of a
key of eight words and a counter, so the stream is determined by the key. A 64-bit seed is expanded
to a key by a linear congruential generator whose state is stirred for each word.
-/

namespace HazardDispatch.Random

/-- The state of the cipher: sixteen words in four rows. -/
structure Block where
  (a0 a1 a2 a3 b0 b1 b2 b3 c0 c1 c2 c3 d0 d1 d2 d3 : UInt32)

def rotateLeft (x n : UInt32) : UInt32 := (x <<< n) ||| (x >>> (32 - n))

/-- One word of each row, mixed. -/
@[inline] def quarter (a b c d : UInt32) : UInt32 × UInt32 × UInt32 × UInt32 :=
  let a := a + b
  let d := rotateLeft (d ^^^ a) 16
  let c := c + d
  let b := rotateLeft (b ^^^ c) 12
  let a := a + b
  let d := rotateLeft (d ^^^ a) 8
  let c := c + d
  let b := rotateLeft (b ^^^ c) 7
  (a, b, c, d)

namespace Block

/-- The four columns mixed, then the four diagonals. -/
def doubleRound (s : Block) : Block :=
  let (a0, b0, c0, d0) := quarter s.a0 s.b0 s.c0 s.d0
  let (a1, b1, c1, d1) := quarter s.a1 s.b1 s.c1 s.d1
  let (a2, b2, c2, d2) := quarter s.a2 s.b2 s.c2 s.d2
  let (a3, b3, c3, d3) := quarter s.a3 s.b3 s.c3 s.d3
  let (a0, b1, c2, d3) := quarter a0 b1 c2 d3
  let (a1, b2, c3, d0) := quarter a1 b2 c3 d0
  let (a2, b3, c0, d1) := quarter a2 b3 c0 d1
  let (a3, b0, c1, d2) := quarter a3 b0 c1 d2
  ⟨a0, a1, a2, a3, b0, b1, b2, b3, c0, c1, c2, c3, d0, d1, d2, d3⟩

def rounds : Nat → Block → Block
  | 0, s => s
  | n + 1, s => rounds n s.doubleRound

def pairs (s : Block) : List UInt64 :=
  let pair (lo hi : UInt32) : UInt64 := lo.toUInt64 ||| (hi.toUInt64 <<< 32)
  [pair s.a0 s.a1, pair s.a2 s.a3, pair s.b0 s.b1, pair s.b2 s.b3, pair s.c0 s.c1,
    pair s.c2 s.c3, pair s.d0 s.d1, pair s.d2 s.d3]

def add (s t : Block) : Block :=
  ⟨s.a0 + t.a0, s.a1 + t.a1, s.a2 + t.a2, s.a3 + t.a3, s.b0 + t.b0, s.b1 + t.b1, s.b2 + t.b2,
    s.b3 + t.b3, s.c0 + t.c0, s.c1 + t.c1, s.c2 + t.c2, s.c3 + t.c3, s.d0 + t.d0, s.d1 + t.d1,
    s.d2 + t.d2, s.d3 + t.d3⟩

end Block

structure Key where
  (k0 k1 k2 k3 k4 k5 k6 k7 : UInt32)

/-- A block of the stream: constants, key and counter, mixed in twelve rounds and added to
themselves before. -/
def Key.block (k : Key) (counter : UInt64) : Block :=
  let s : Block := ⟨0x61707865, 0x3320646e, 0x79622d32, 0x6b206574, k.k0, k.k1, k.k2, k.k3,
    k.k4, k.k5, k.k6, k.k7, counter.toUInt32, (counter >>> 32).toUInt32, 0, 0⟩
  (s.rounds 6).add s

/-- One step of the expansion of a seed: a word and the next state. -/
def stir (state : UInt64) : UInt32 × UInt64 :=
  let state := state * 6364136223846793005 + 11634580027462260723
  let x := (((state >>> 18) ^^^ state) >>> 27).toUInt32
  let r := (state >>> 59).toUInt32
  (if r = 0 then x else (x >>> r) ||| (x <<< (32 - r)), state)

/-- The key of a seed. -/
def Key.ofSeed (seed : UInt64) : Key :=
  let (k0, s) := stir seed
  let (k1, s) := stir s
  let (k2, s) := stir s
  let (k3, s) := stir s
  let (k4, s) := stir s
  let (k5, s) := stir s
  let (k6, s) := stir s
  let (k7, _) := stir s
  ⟨k0, k1, k2, k3, k4, k5, k6, k7⟩

/-- A stream, read up to some place: the 64-bit words left of the last block, and the number of the
block after it. -/
structure Keystream where
  key : Key
  ready : List UInt64
  next : UInt64

namespace Keystream

def ofSeed (seed : UInt64) : Keystream := ⟨.ofSeed seed, [], 0⟩

def word (s : Keystream) : UInt64 × Keystream :=
  match s.ready with
  | w :: ws => (w, { s with ready := ws })
  | [] =>
    match (s.key.block s.next).pairs with
    | w :: ws => (w, { s with ready := ws, next := s.next + 1 })
    | [] => (0, s)

end Keystream
end HazardDispatch.Random
