import JavaOutline.Text.Utf8

/-! # The BLAKE3 hash

The input is cut into chunks of 1024 bytes and each chunk into blocks of 64 bytes.  The blocks of
a chunk are compressed one after the other, and the chunks are joined pairwise, level by level,
until one node is left; a node without a partner moves up as it is.  The root's first 32 bytes are
the hash.
-/

namespace JavaOutline.Blake3

/-! ## Compression -/

/-- Eight words that stand for everything below a node. -/
abbrev Chain := Vector UInt32 8

/-- The sixteen words of a block or of the compression state. -/
abbrev Words := Vector UInt32 16

/-- The initial chaining value. -/
def initial : Chain :=
  #v[0x6a09e667, 0xbb67ae85, 0x3c6ef372, 0xa54ff53a, 0x510e527f, 0x9b05688c, 0x1f83d9ab, 0x5be0cd19]

/-- Where each word of a block moves from between two rounds. -/
def permutation : Vector (Fin 16) 16 :=
  #v[2, 6, 3, 10, 7, 0, 4, 13, 1, 11, 12, 5, 9, 14, 15, 8]

/-- Rotation of a word to the right. -/
def rotate (w : UInt32) (n : UInt32) : UInt32 :=
  (w >>> n) ||| (w <<< (32 - n))

/-- Mixes two message words into four words of the state. -/
def mix (s : Words) (a b c d : Fin 16) (x y : UInt32) : Words :=
  let va := s[a] + s[b] + x
  let vd := rotate (s[d] ^^^ va) 16
  let vc := s[c] + vd
  let vb := rotate (s[b] ^^^ vc) 12
  let va := va + vb + y
  let vd := rotate (vd ^^^ va) 8
  let vc := vc + vd
  let vb := rotate (vb ^^^ vc) 7
  (((s.set a va).set b vb).set c vc).set d vd

/-- One round: the columns of the state, then its diagonals. -/
def round (s m : Words) : Words :=
  let s := mix s 0 4 8 12 m[0] m[1]
  let s := mix s 1 5 9 13 m[2] m[3]
  let s := mix s 2 6 10 14 m[4] m[5]
  let s := mix s 3 7 11 15 m[6] m[7]
  let s := mix s 0 5 10 15 m[8] m[9]
  let s := mix s 1 6 11 12 m[10] m[11]
  let s := mix s 2 7 8 13 m[12] m[13]
  mix s 3 4 9 14 m[14] m[15]

/-- Several rounds, the message permuted between them. -/
def rounds : Nat → Words → Words → Words
  | 0, s, _ => s
  | n + 1, s, m => rounds n (round s m) (permutation.map fun i => m[i])

/-- A node that waits to be compressed. -/
structure Node where
  chain : Chain
  block : Words
  counter : UInt64
  blockLength : UInt32
  flags : UInt32

/-- Marks of a node: the first and last block of a chunk, a parent, the root. -/
def chunkStart : UInt32 := 1

@[inherit_doc chunkStart]
def chunkEnd : UInt32 := 2

@[inherit_doc chunkStart]
def parentMark : UInt32 := 4

@[inherit_doc chunkStart]
def rootMark : UInt32 := 8

/-- The chaining value of a node. -/
def Node.compress (n : Node) : Chain :=
  let h := n.chain
  let s : Words :=
    #v[h[0], h[1], h[2], h[3], h[4], h[5], h[6], h[7],
      initial[0], initial[1], initial[2], initial[3],
      n.counter.toUInt32, (n.counter >>> 32).toUInt32, n.blockLength, n.flags]
  let s := rounds 7 s n.block
  #v[s[0] ^^^ s[8], s[1] ^^^ s[9], s[2] ^^^ s[10], s[3] ^^^ s[11],
    s[4] ^^^ s[12], s[5] ^^^ s[13], s[6] ^^^ s[14], s[7] ^^^ s[15]]

/-! ## Chunks -/

/-- A word from four bytes, the least significant first; missing bytes are zero. -/
def word (bytes : Bytes) : UInt32 :=
  (bytes.take 4).foldr (fun b w => (w <<< 8) ||| b.toUInt32) 0

/-- The words of a block, filled up with zeros. -/
def blockWords (block : Bytes) : Words :=
  Vector.ofFn fun i => word (block.drop (4 * i))

/-- The last node of a chunk whose earlier blocks have led to `chain`. -/
def chunkFrom (counter : UInt64) (chain : Chain) (flags : UInt32) (bytes : Bytes) : Node :=
  if bytes.length ≤ 64 then
    ⟨chain, blockWords bytes, counter, bytes.length.toUInt32, flags ||| chunkEnd⟩
  else
    let node : Node := ⟨chain, blockWords (bytes.take 64), counter, 64, flags⟩
    chunkFrom counter node.compress 0 (bytes.drop 64)
termination_by bytes.length
decreasing_by simp only [List.length_drop]; omega

/-- The last node of a chunk. -/
def chunkNode (counter : UInt64) (bytes : Bytes) : Node :=
  chunkFrom counter initial chunkStart bytes

/-- The last nodes of all chunks, of which there is at least one. -/
def chunkNodes (counter : UInt64) (bytes : Bytes) : List Node :=
  if bytes.length ≤ 1024 then [chunkNode counter bytes]
  else chunkNode counter (bytes.take 1024) :: chunkNodes (counter + 1) (bytes.drop 1024)
termination_by bytes.length
decreasing_by simp only [List.length_drop]; omega

/-! ## The tree -/

/-- The node above two nodes. -/
def parent (left right : Node) : Node :=
  let l := left.compress
  let r := right.compress
  { chain := initial
    block := #v[l[0], l[1], l[2], l[3], l[4], l[5], l[6], l[7],
      r[0], r[1], r[2], r[3], r[4], r[5], r[6], r[7]]
    counter := 0
    blockLength := 64
    flags := parentMark }

/-- The next level of the tree. -/
def joinPairs : List Node → List Node
  | left :: right :: rest => parent left right :: joinPairs rest
  | rest => rest

theorem length_joinPairs (nodes : List Node) :
    (joinPairs nodes).length = (nodes.length + 1) / 2 := by
  induction nodes using joinPairs.induct with
  | case1 left right rest ih => simp only [joinPairs, List.length_cons, ih]; omega
  | case2 rest h =>
    match rest, h with
    | [], _ => simp [joinPairs]
    | [_], _ => simp [joinPairs]
    | a :: b :: r, h => exact absurd rfl (h a b r)

/-- The root of the tree above the first node and the others. -/
def root (first : Node) (others : List Node) : Node :=
  match others with
  | [] => first
  | second :: rest => root (parent first second) (joinPairs rest)
termination_by others.length
decreasing_by
  simp only [length_joinPairs, List.length_cons]
  omega

/-! ## The hash -/

/-- The bytes of a word, the least significant first. -/
def wordBytes (w : UInt32) : Bytes :=
  [w.toUInt8, (w >>> 8).toUInt8, (w >>> 16).toUInt8, (w >>> 24).toUInt8]

/-- The hash that a root node gives. -/
def Node.digest (n : Node) : Bytes :=
  ({ n with flags := n.flags ||| rootMark }).compress.toList.flatMap wordBytes

/-- The hash of a sequence of bytes. -/
def hash (bytes : Bytes) : Bytes :=
  match chunkNodes 0 bytes with
  | [] => []
  | first :: others => (root first others).digest

/-- The lower-case hexadecimal digit of a value below sixteen. -/
def hexChar (n : UInt8) : Char :=
  Char.ofNat (if n < 10 then 0x30 + n.toNat else 0x57 + n.toNat)

/-- The hash of a sequence of bytes in hexadecimal digits. -/
def hexHash (bytes : Bytes) : String :=
  String.ofList ((hash bytes).flatMap fun b => [hexChar (b / 16), hexChar (b % 16)])

end JavaOutline.Blake3
