/-!
The BLAKE3 digest of a text. Chunks of 1024 bytes are hashed block by block, and the chunks are joined
by a binary tree whose left side is always the largest complete one.
-/

namespace Vetting.Digest

abbrev Words := Array UInt32

def initialWords : Words := #[
  0x6A09E667, 0xBB67AE85, 0x3C6EF372, 0xA54FF53A, 0x510E527F, 0x9B05688C, 0x1F83D9AB, 0x5BE0CD19]

/-- Where each message word goes from one round to the next. -/
def schedule : List Nat := [2, 6, 3, 10, 7, 0, 4, 13, 1, 11, 12, 5, 9, 14, 15, 8]

def chunkStart : UInt32 := 1
def chunkEnd : UInt32 := 2
def parentNode : UInt32 := 4
def rootNode : UInt32 := 8

def rotateRight (x : UInt32) (n : UInt32) : UInt32 := (x >>> n) ||| (x <<< (32 - n))

def word (ws : Words) (i : Nat) : UInt32 := ws[i]?.getD 0

/-- Mixes two message words into four words of the state. -/
def mix (s : Words) (a b c d : Nat) (x y : UInt32) : Words :=
  let va := word s a + word s b + x
  let vd := rotateRight (word s d ^^^ va) 16
  let vc := word s c + vd
  let vb := rotateRight (word s b ^^^ vc) 12
  let va := va + vb + y
  let vd := rotateRight (vd ^^^ va) 8
  let vc := vc + vd
  let vb := rotateRight (vb ^^^ vc) 7
  (((s.setIfInBounds a va).setIfInBounds b vb).setIfInBounds c vc).setIfInBounds d vd

/-- One round: the columns of the state, then its diagonals. -/
def round (s m : Words) : Words :=
  let s := mix s 0 4 8 12 (word m 0) (word m 1)
  let s := mix s 1 5 9 13 (word m 2) (word m 3)
  let s := mix s 2 6 10 14 (word m 4) (word m 5)
  let s := mix s 3 7 11 15 (word m 6) (word m 7)
  let s := mix s 0 5 10 15 (word m 8) (word m 9)
  let s := mix s 1 6 11 12 (word m 10) (word m 11)
  let s := mix s 2 7 8 13 (word m 12) (word m 13)
  mix s 3 4 9 14 (word m 14) (word m 15)

def permute (m : Words) : Words := (schedule.map (word m)).toArray

def rounds : Nat → Words → Words → Words
  | 0, s, _ => s
  | n + 1, s, m => rounds n (round s m) (permute m)

/-- Everything that one compression works on. -/
structure Node where
  chaining : Words
  block : Words
  counter : Nat
  blockLength : Nat
  flags : UInt32

/-- The first eight words of a compression. -/
def compress (n : Node) : Words :=
  let start := n.chaining ++ initialWords.take 4 ++ #[UInt32.ofNat n.counter,
    UInt32.ofNat (n.counter / UInt32.size), UInt32.ofNat n.blockLength, n.flags]
  let s := rounds 7 start n.block
  ((List.range 8).map fun i => word s i ^^^ word s (i + 8)).toArray

def littleEndian (bytes : List UInt8) : UInt32 :=
  bytes.foldr (fun b acc => b.toUInt32 ||| (acc <<< 8)) 0

/-- The first `count` words of a text of bytes; bytes that are not there count as zero. -/
def wordsOfBytes : Nat → List UInt8 → List UInt32
  | 0, _ => []
  | count + 1, bytes => littleEndian (bytes.take 4) :: wordsOfBytes count (bytes.drop 4)

def blockWords (bytes : List UInt8) : Words := (wordsOfBytes 16 bytes).toArray

/-- Cuts a list into pieces of `size`; at least one piece, and `fuel` of them at most. -/
def pieces (size : Nat) : Nat → List α → List (List α)
  | 0, xs => [xs]
  | fuel + 1, xs =>
    if xs.length ≤ size then [xs] else xs.take size :: pieces size fuel (xs.drop size)

/-- The last compression of a chunk; the blocks before it are folded into its chaining words. -/
def chunkNode (counter : Nat) (chaining : Words) (flags : UInt32) : List (List UInt8) → Node
  | [] => ⟨chaining, blockWords [], counter, 0, flags ||| chunkEnd⟩
  | [last] => ⟨chaining, blockWords last, counter, last.length, flags ||| chunkEnd⟩
  | block :: rest =>
    chunkNode counter (compress ⟨chaining, blockWords block, counter, block.length, flags⟩) 0 rest

def nodeOfChunk (counter : Nat) (bytes : List UInt8) : Node :=
  chunkNode counter initialWords chunkStart (pieces 64 (bytes.length / 64 + 1) bytes)

/-- The largest power of two below `n`, for `n` at least two. -/
def leftSize (n : Nat) : Nat := 1 <<< Nat.log2 (n - 1)

/-- The tree over consecutive chunks, of which there is at least one. -/
def tree : Nat → List Node → Node
  | 0, nodes => nodes.headD (nodeOfChunk 0 [])
  | fuel + 1, nodes =>
    match nodes with
    | [] => nodeOfChunk 0 []
    | [n] => n
    | many =>
      let k := leftSize many.length
      let left := compress (tree fuel (many.take k))
      let right := compress (tree fuel (many.drop k))
      ⟨initialWords, left ++ right, 0, 64, parentNode⟩

/-- The node whose compression, marked as root, is the digest. -/
def rootOf (bytes : List UInt8) : Node :=
  let chunks := pieces 1024 (bytes.length / 1024 + 1) bytes
  tree chunks.length (chunks.mapIdx nodeOfChunk)

def hexByte (n : Nat) : List Char := [Nat.digitChar (n / 16), Nat.digitChar (n % 16)]

def hexWord (w : UInt32) : List Char :=
  let n := w.toNat
  hexByte (n % 256) ++ hexByte ((n >>> 8) % 256) ++ hexByte ((n >>> 16) % 256) ++ hexByte (n >>> 24)

/-- The digest of a text in hexadecimal. -/
def ofText (s : String) : String :=
  let root := rootOf s.toUTF8.toList
  let out := compress { root with flags := root.flags ||| rootNode }
  String.ofList (out.toList.flatMap hexWord)

end Vetting.Digest
