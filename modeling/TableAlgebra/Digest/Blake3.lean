/-!
The BLAKE3 digest of a byte string, 32 bytes long. The input is cut into chunks
of 1024 bytes and these into blocks of 64; blocks are chained within a chunk,
and the chunks are the leaves of a binary tree that is filled from the left.
-/
namespace TableAlgebra

structure Digest where
  bytes : List UInt8
deriving DecidableEq, Repr, Inhabited

def Digest.hex (d : Digest) : String :=
  String.ofList (d.bytes.flatMap fun b =>
    [Nat.digitChar (b.toNat / 16), Nat.digitChar (b.toNat % 16)])

namespace Blake3

abbrev Words (n : Nat) := Vector UInt32 n

def initial : Words 8 :=
  #v[0x6A09E667, 0xBB67AE85, 0x3C6EF372, 0xA54FF53A, 0x510E527F, 0x9B05688C, 0x1F83D9AB, 0x5BE0CD19]

def chunkStart : UInt32 := 1
def chunkEnd : UInt32 := 2
def parentNode : UInt32 := 4
def rootNode : UInt32 := 8

def rotateRight (x : UInt32) (n : UInt32) : UInt32 := (x >>> n) ||| (x <<< (32 - n))

def mix (s : Words 16) (a b c d : Fin 16) (x y : UInt32) : Words 16 :=
  let va := s[a] + s[b] + x
  let vd := rotateRight (s[d] ^^^ va) 16
  let vc := s[c] + vd
  let vb := rotateRight (s[b] ^^^ vc) 12
  let va := va + vb + y
  let vd := rotateRight (vd ^^^ va) 8
  let vc := vc + vd
  let vb := rotateRight (vb ^^^ vc) 7
  (((s.set a va).set b vb).set c vc).set d vd

def round (s m : Words 16) : Words 16 :=
  let s := mix s 0 4 8 12 m[0] m[1]
  let s := mix s 1 5 9 13 m[2] m[3]
  let s := mix s 2 6 10 14 m[4] m[5]
  let s := mix s 3 7 11 15 m[6] m[7]
  let s := mix s 0 5 10 15 m[8] m[9]
  let s := mix s 1 6 11 12 m[10] m[11]
  let s := mix s 2 7 8 13 m[12] m[13]
  mix s 3 4 9 14 m[14] m[15]

def permute (m : Words 16) : Words 16 :=
  #v[m[2], m[6], m[3], m[10], m[7], m[0], m[4], m[13],
    m[1], m[11], m[12], m[5], m[9], m[14], m[15], m[8]]

def rounds : Nat → Words 16 → Words 16 → Words 16
  | 0, s, _ => s
  | n + 1, s, m => rounds n (round s m) (permute m)

/-- The input of one compression, whose flags are still open to the root flag. -/
structure Node where
  chain : Words 8
  block : Words 16
  counter : Nat
  length : Nat
  flags : UInt32

def Node.compress (node : Node) (flags : UInt32) : Words 8 :=
  let h := node.chain
  let s : Words 16 :=
    #v[h[0], h[1], h[2], h[3], h[4], h[5], h[6], h[7],
      initial[0], initial[1], initial[2], initial[3],
      UInt32.ofNat node.counter, UInt32.ofNat (node.counter >>> 32),
      UInt32.ofNat node.length, node.flags ||| flags]
  let s := rounds 7 s node.block
  #v[s[0] ^^^ s[8], s[1] ^^^ s[9], s[2] ^^^ s[10], s[3] ^^^ s[11],
    s[4] ^^^ s[12], s[5] ^^^ s[13], s[6] ^^^ s[14], s[7] ^^^ s[15]]

/-- Consecutive pieces of this size, the last one possibly shorter; an empty
list is one empty piece. -/
def pieces {α : Type} (size : Nat) (list : List α) : List (List α) :=
  if list.length ≤ size ∨ size = 0 then [list]
  else list.take size :: pieces size (list.drop size)
termination_by list.length
decreasing_by simp only [List.length_drop]; omega

def wordAt (block : Array UInt8) (i : Nat) : UInt32 :=
  let byte := fun k => (block.getD (4 * i + k) 0).toUInt32
  byte 0 ||| (byte 1 <<< 8) ||| (byte 2 <<< 16) ||| (byte 3 <<< 24)

def blockWords (block : List UInt8) : Words 16 :=
  let bytes := block.toArray
  Vector.ofFn fun i => wordAt bytes i

/-- Chains the blocks of a chunk up to the last one, which stays open. -/
def chainBlocks (counter : Nat) (flags : UInt32) (chain : Words 8) : List (List UInt8) → Node
  | [] => ⟨chain, blockWords [], counter, 0, flags ||| chunkEnd⟩
  | [block] => ⟨chain, blockWords block, counter, block.length, flags ||| chunkEnd⟩
  | block :: rest =>
    let node : Node := ⟨chain, blockWords block, counter, block.length, flags⟩
    chainBlocks counter 0 (node.compress 0) rest

def chunkNode (counter : Nat) (chunk : List UInt8) : Node :=
  chainBlocks counter chunkStart initial (pieces 64 chunk)

def parent (left right : Node) : Node :=
  ⟨initial, (left.compress 0 ++ right.compress 0), 0, 64, parentNode⟩

def pairUp : List Node → List Node
  | left :: right :: rest => parent left right :: pairUp rest
  | rest => rest

theorem pairUp_length_le : (nodes : List Node) → (pairUp nodes).length ≤ nodes.length
  | [] => by simp [pairUp]
  | [_] => by simp [pairUp]
  | left :: right :: rest => by
    have shorter := pairUp_length_le rest
    simp only [pairUp, List.length_cons]
    omega

def root : List Node → Node
  | [] => chunkNode 0 []
  | [node] => node
  | left :: right :: rest => root (pairUp (left :: right :: rest))
termination_by nodes => nodes.length
decreasing_by
  have shorter := pairUp_length_le rest
  simp only [pairUp, List.length_cons]
  omega

def wordToBytes (w : UInt32) : List UInt8 :=
  [w.toUInt8, (w >>> 8).toUInt8, (w >>> 16).toUInt8, (w >>> 24).toUInt8]

def digest (bytes : List UInt8) : Digest :=
  let chunks := (pieces 1024 bytes).zipIdx.map fun (chunk, i) => chunkNode i chunk
  ⟨((root chunks).compress rootNode).toList.flatMap wordToBytes⟩

end Blake3
end TableAlgebra
