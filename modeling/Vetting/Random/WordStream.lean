/-!
A stream of pseudo-random words: the key stream of ChaCha with eight rounds, under a key that a linear
congruential generator spreads from a seed of 64 bits. Equal seeds give equal streams.
-/

namespace Vetting

/-- A place in the key stream of a key. -/
structure WordStream where
  key : Array UInt32
  nextBlock : Nat
  /-- What is left of the current block. -/
  pending : List UInt32
deriving DecidableEq

namespace WordStream

def word (ws : Array UInt32) (i : Nat) : UInt32 := ws[i]?.getD 0

def rotateLeft (x : UInt32) (n : UInt32) : UInt32 := (x <<< n) ||| (x >>> (32 - n))

def quarterRound (s : Array UInt32) (a b c d : Nat) : Array UInt32 :=
  let va := word s a + word s b
  let vd := rotateLeft (word s d ^^^ va) 16
  let vc := word s c + vd
  let vb := rotateLeft (word s b ^^^ vc) 12
  let va := va + vb
  let vd := rotateLeft (vd ^^^ va) 8
  let vc := vc + vd
  let vb := rotateLeft (vb ^^^ vc) 7
  (((s.setIfInBounds a va).setIfInBounds b vb).setIfInBounds c vc).setIfInBounds d vd

/-- A round over the columns and one over the diagonals. -/
def doubleRound (s : Array UInt32) : Array UInt32 :=
  let s := quarterRound s 0 4 8 12
  let s := quarterRound s 1 5 9 13
  let s := quarterRound s 2 6 10 14
  let s := quarterRound s 3 7 11 15
  let s := quarterRound s 0 5 10 15
  let s := quarterRound s 1 6 11 12
  let s := quarterRound s 2 7 8 13
  quarterRound s 3 4 9 14

/-- The sixteen words of a block of the key stream. -/
def block (key : Array UInt32) (counter : Nat) : List UInt32 :=
  let constants : Array UInt32 := #[0x61707865, 0x3320646E, 0x79622D32, 0x6B206574]
  let start := constants ++ key
    ++ #[UInt32.ofNat counter, UInt32.ofNat (counter / UInt32.size), 0, 0]
  let mixed := Nat.repeat doubleRound 4 start
  (List.range 16).map fun i => word mixed i + word start i

/-- One step of the generator that spreads a seed, and the word it gives. -/
def spreadStep (state : UInt64) : UInt64 × UInt32 :=
  let state := state * 6364136223846793005 + 11634580027462260723
  let shifted := (((state >>> 18) ^^^ state) >>> 27).toUInt32
  let turn := (state >>> 59).toUInt32
  (state, if turn = 0 then shifted else (shifted >>> turn) ||| (shifted <<< (32 - turn)))

def spread : Nat → UInt64 → List UInt32
  | 0, _ => []
  | n + 1, state =>
    let (state, w) := spreadStep state
    w :: spread n state

/-- The stream of a seed. -/
def ofSeed (seed : UInt64) : WordStream := ⟨(spread 8 seed).toArray, 0, []⟩

/-- The next word. -/
def next (s : WordStream) : UInt32 × WordStream :=
  match s.pending with
  | w :: rest => (w, { s with pending := rest })
  | [] =>
    match block s.key s.nextBlock with
    | w :: rest => (w, { s with nextBlock := s.nextBlock + 1, pending := rest })
    | [] => (0, { s with nextBlock := s.nextBlock + 1 })

/-- The next two words as one number, the first of them the low half. -/
def next64 (s : WordStream) : Nat × WordStream :=
  let (low, s) := s.next
  let (high, s) := s.next
  (low.toNat + UInt32.size * high.toNat, s)

end WordStream

end Vetting
