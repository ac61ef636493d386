/-!
# A stream of random words

ChaCha with twelve rounds as a generator of 32-bit words, its key spread from a seed of one word.

* `ChaCha.wordAt`        a word of a key's blocks by its place;
* `ChaCha.Stream`        a key, and the words of its next blocks;
* `ChaCha.Stream.ofSeed` the stream of a seed;
* `ChaCha.Stream.next`   the next word.
-/

namespace Splittable.ChaCha

def rotateLeft (x : UInt32) (k : UInt32) : UInt32 := (x <<< k) ||| (x >>> (32 - k))

def rotateRight (x : UInt32) (k : UInt32) : UInt32 :=
  if k = 0 then x else (x >>> k) ||| (x <<< (32 - k))

/-- the sixteen words a block is made of -/
abbrev Words := Array UInt32

def word (s : Words) (i : Nat) : UInt32 := s.getD i 0

def put (s : Words) (i : Nat) (x : UInt32) : Words := s.setIfInBounds i x

def quarterRound (s : Words) (a b c d : Nat) : Words :=
  let s := put s a (word s a + word s b)
  let s := put s d (rotateLeft (word s d ^^^ word s a) 16)
  let s := put s c (word s c + word s d)
  let s := put s b (rotateLeft (word s b ^^^ word s c) 12)
  let s := put s a (word s a + word s b)
  let s := put s d (rotateLeft (word s d ^^^ word s a) 8)
  let s := put s c (word s c + word s d)
  put s b (rotateLeft (word s b ^^^ word s c) 7)

def doubleRound (s : Words) : Words :=
  let s := quarterRound s 0 4 8 12
  let s := quarterRound s 1 5 9 13
  let s := quarterRound s 2 6 10 14
  let s := quarterRound s 3 7 11 15
  let s := quarterRound s 0 5 10 15
  let s := quarterRound s 1 6 11 12
  let s := quarterRound s 2 7 8 13
  quarterRound s 3 4 9 14

def repeated (f : Words → Words) : Nat → Words → Words
  | 0, s => s
  | n + 1, s => repeated f n (f s)

/-- what every block starts with -/
def constants : List UInt32 := [0x61707865, 0x3320646e, 0x79622d32, 0x6b206574]

/-- the block of a key at a place in its stream -/
def block (key : List UInt32) (counter : UInt64) : List UInt32 :=
  let start := constants ++ key ++ [counter.toUInt32, (counter >>> 32).toUInt32, 0, 0]
  List.zipWith (· + ·) start (repeated doubleRound 6 start.toArray).toList

/-- the words of a key's blocks, one after another -/
def wordAt (key : List UInt32) (n : Nat) : UInt32 :=
  (block key (n / 16).toUInt64).getD (n % 16) 0

structure Stream where
  key : List UInt32
  counter : UInt64
  pending : List UInt32

/-- Eight words drawn from a linear congruential sequence, each word's rotation taken from its own
high bits. -/
def spread : Nat → UInt64 → List UInt32
  | 0, _ => []
  | n + 1, state =>
    let state := state * 6364136223846793005 + 11634580027462260723
    rotateRight (((state >>> 18) ^^^ state) >>> 27).toUInt32 (state >>> 59).toUInt32 ::
      spread n state

def Stream.ofSeed (seed : UInt64) : Stream := ⟨spread 8 seed, 0, []⟩

def Stream.next (s : Stream) : UInt32 × Stream :=
  match s.pending with
  | w :: rest => (w, { s with pending := rest })
  | [] =>
    let words := block s.key s.counter
    (words.headD 0, { s with counter := s.counter + 1, pending := words.drop 1 })

end Splittable.ChaCha
