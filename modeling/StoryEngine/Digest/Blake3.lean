import StoryEngine.Text.Literal

/-! # BLAKE3

The 256-bit digest of a text, by its chunk tree: chunks of 1024 bytes are chained block by block
and joined in a binary tree whose left subtrees are the largest full ones.
-/

namespace StoryEngine.Blake3

abbrev Chaining := Vector UInt32 8
abbrev Block := Vector UInt32 16

def initial : Chaining :=
  #v[0x6a09e667, 0xbb67ae85, 0x3c6ef372, 0xa54ff53a, 0x510e527f, 0x9b05688c, 0x1f83d9ab, 0x5be0cd19]

def chunkStart : UInt32 := 1
def chunkEnd : UInt32 := 2
def parent : UInt32 := 4
def root : UInt32 := 8

def rotateRight (x n : UInt32) : UInt32 := (x >>> n) ||| (x <<< (32 - n))

/-- Mixes two message words into four words of the state. -/
def mix (v : Block) (a b c d : Fin 16) (x y : UInt32) : Block :=
  let v := v.set a (v[a] + v[b] + x)
  let v := v.set d (rotateRight (v[d] ^^^ v[a]) 16)
  let v := v.set c (v[c] + v[d])
  let v := v.set b (rotateRight (v[b] ^^^ v[c]) 12)
  let v := v.set a (v[a] + v[b] + y)
  let v := v.set d (rotateRight (v[d] ^^^ v[a]) 8)
  let v := v.set c (v[c] + v[d])
  v.set b (rotateRight (v[b] ^^^ v[c]) 7)

/-- One round: the columns of the state, then its diagonals. -/
def round (v m : Block) : Block :=
  let v := mix v 0 4 8 12 m[0] m[1]
  let v := mix v 1 5 9 13 m[2] m[3]
  let v := mix v 2 6 10 14 m[4] m[5]
  let v := mix v 3 7 11 15 m[6] m[7]
  let v := mix v 0 5 10 15 m[8] m[9]
  let v := mix v 1 6 11 12 m[10] m[11]
  let v := mix v 2 7 8 13 m[12] m[13]
  mix v 3 4 9 14 m[14] m[15]

def permute (m : Block) : Block :=
  #v[m[2], m[6], m[3], m[10], m[7], m[0], m[4], m[13],
     m[1], m[11], m[12], m[5], m[9], m[14], m[15], m[8]]

/-- A given number of rounds, the message permuted after each. -/
def rounds : Nat → Block → Block → Block
  | 0, v, _ => v
  | n + 1, v, m => rounds n (round v m) (permute m)

/-- The last compression of a subtree, kept open because only the root carries a flag of its own. -/
structure Node where
  chaining : Chaining
  block : Block
  counter : Nat
  length : Nat
  flags : UInt32

def Node.compress (node : Node) (flags : UInt32) : Chaining :=
  let h := node.chaining
  let start : Block :=
    #v[h[0], h[1], h[2], h[3], h[4], h[5], h[6], h[7],
       initial[0], initial[1], initial[2], initial[3],
       node.counter.toUInt32, (node.counter / Nat.pow 2 32).toUInt32, node.length.toUInt32,
       node.flags ||| flags]
  let v := rounds 7 start node.block
  Vector.ofFn fun (i : Fin 8) => v[i.val] ^^^ v[i.val + 8]

/-- Pieces of `size` bytes, the last one perhaps shorter; no bytes are one empty piece. -/
def pieces (size : Nat) (bytes : List UInt8) : List (List UInt8) :=
  if size = 0 ∨ (bytes.drop size).isEmpty then [bytes]
  else bytes.take size :: pieces size (bytes.drop size)
termination_by bytes.length
decreasing_by
  rename_i h
  simp only [List.isEmpty_iff, List.drop_eq_nil_iff] at h
  simp only [List.length_drop]
  omega

/-- The words of a block, least significant byte first and padded with zero bytes. -/
def blockOf (bytes : List UInt8) : Block :=
  let data := bytes.toArray
  let byte (i : Nat) : UInt32 := (data[i]?.getD 0).toUInt32
  Vector.ofFn fun (i : Fin 16) =>
    byte (4 * i) ||| (byte (4 * i + 1) <<< 8) ||| (byte (4 * i + 2) <<< 16) |||
      (byte (4 * i + 3) <<< 24)

/-- Chains the blocks of one chunk, the last of them left open. -/
def chunkNode (counter : Nat) (chaining : Chaining) (flags : UInt32) : List (List UInt8) → Node
  | [] => ⟨chaining, blockOf [], counter, 0, flags ||| chunkEnd⟩
  | [bytes] => ⟨chaining, blockOf bytes, counter, bytes.length, flags ||| chunkEnd⟩
  | bytes :: rest =>
    let node : Node := ⟨chaining, blockOf bytes, counter, bytes.length, flags⟩
    chunkNode counter (node.compress 0) 0 rest

/-- Joins subtrees; the left one takes the largest power of two below their number. -/
def join : List Node → Node
  | [] => chunkNode 0 initial chunkStart []
  | [node] => node
  | first :: second :: rest =>
    let nodes := first :: second :: rest
    let count := Nat.pow 2 (rest.length + 1).log2
    let left := join (nodes.take count)
    let right := join (nodes.drop count)
    ⟨initial, left.compress 0 ++ right.compress 0, 0, 64, parent⟩
termination_by nodes => nodes.length
decreasing_by
  all_goals
    have small : Nat.pow 2 (rest.length + 1).log2 ≤ rest.length + 1 :=
      Nat.log2_self_le (by omega)
    have positive : 0 < Nat.pow 2 (rest.length + 1).log2 := Nat.two_pow_pos _
    simp only [List.length_take, List.length_drop, List.length_cons]
    omega

def digest (bytes : List UInt8) : Chaining :=
  let chunks := (pieces 1024 bytes).mapIdx fun i chunk =>
    chunkNode i initial chunkStart (pieces 64 chunk)
  (join chunks).compress root

def hexByte (n : Nat) : List Char := Text.hexDigits (n / 16) ++ Text.hexDigits (n % 16)

/-- The digest of the UTF-8 form of a text, in 64 hexadecimal digits. -/
def hash (s : String) : String :=
  let words := (digest s.toUTF8.toList).toList
  String.ofList (words.flatMap fun w =>
    [0, 8, 16, 24].flatMap fun shift => hexByte ((w >>> shift).toNat % 256))

end StoryEngine.Blake3
