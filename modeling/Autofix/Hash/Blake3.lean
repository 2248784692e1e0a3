/-! The BLAKE3 hash. The input is cut into chunks of 1024 bytes, the leaves of a binary tree whose left
subtrees are full; the hash is the root's output. -/
namespace Autofix.Blake3

/-- The words of one message block, or of the state of a compression. -/
abbrev Block := Vector UInt32 16

abbrev Chaining := Vector UInt32 8

/-- The words that every chaining starts from. -/
def start : Chaining :=
  #v[0x6A09E667, 0xBB67AE85, 0x3C6EF372, 0xA54FF53A, 0x510E527F, 0x9B05688C, 0x1F83D9AB, 0x5BE0CD19]

/-- Where each word of a block comes from in the round after. -/
def permutation : Vector (Fin 16) 16 := #v[2, 6, 3, 10, 7, 0, 4, 13, 1, 11, 12, 5, 9, 14, 15, 8]

def permute (block : Block) : Block := permutation.map fun i => block.get i

def rotate (x n : UInt32) : UInt32 := (x >>> n) ||| (x <<< (32 - n))

def put (state : Block) (i : Fin 16) (x : UInt32) : Block := state.set i.val x i.isLt

/-- Four words of the state mixed with two words of the block. -/
def mix (s : Block) (a b c d : Fin 16) (x y : UInt32) : Block :=
  let s := put s a (s.get a + s.get b + x)
  let s := put s d (rotate (s.get d ^^^ s.get a) 16)
  let s := put s c (s.get c + s.get d)
  let s := put s b (rotate (s.get b ^^^ s.get c) 12)
  let s := put s a (s.get a + s.get b + y)
  let s := put s d (rotate (s.get d ^^^ s.get a) 8)
  let s := put s c (s.get c + s.get d)
  put s b (rotate (s.get b ^^^ s.get c) 7)

/-- One round: the columns of the state, then its diagonals. -/
def round (s m : Block) : Block :=
  let s := mix s 0 4 8 12 (m.get 0) (m.get 1)
  let s := mix s 1 5 9 13 (m.get 2) (m.get 3)
  let s := mix s 2 6 10 14 (m.get 4) (m.get 5)
  let s := mix s 3 7 11 15 (m.get 6) (m.get 7)
  let s := mix s 0 5 10 15 (m.get 8) (m.get 9)
  let s := mix s 1 6 11 12 (m.get 10) (m.get 11)
  let s := mix s 2 7 8 13 (m.get 12) (m.get 13)
  mix s 3 4 9 14 (m.get 14) (m.get 15)

def rounds : Nat → Block → Block → Block
  | 0, s, _ => s
  | n + 1, s, m => rounds n (round s m) (permute m)

structure Node where
  chaining : Chaining
  block : Block
  counter : Nat
  size : Nat
  flags : UInt32

/-- Marks of the first and the last block of a chunk, of an inner node and of the root. -/
def chunkStart : UInt32 := 1
@[inherit_doc chunkStart] def chunkEnd : UInt32 := 2
@[inherit_doc chunkStart] def inner : UInt32 := 4
@[inherit_doc chunkStart] def root : UInt32 := 8

def Node.output (n : Node) (mark : UInt32) : Chaining :=
  let state : Block := n.chaining ++ #v[start.get 0, start.get 1, start.get 2, start.get 3,
    n.counter.toUInt32, (n.counter >>> 32).toUInt32, n.size.toUInt32, n.flags ||| mark]
  let s := rounds 7 state n.block
  Vector.ofFn fun i : Fin 8 => s.get ⟨i, by omega⟩ ^^^ s.get ⟨i + 8, by omega⟩

/-- The word at place `i` of a list of bytes, the least byte first and zeros after the end. -/
def wordAt (bytes : List UInt8) (i : Nat) : UInt32 :=
  let byte (k : Nat) : UInt32 := (bytes.getD (4 * i + k) 0).toUInt32
  byte 0 ||| (byte 1 <<< 8) ||| (byte 2 <<< 16) ||| (byte 3 <<< 24)

def blockOf (bytes : List UInt8) : Block := Vector.ofFn fun i : Fin 16 => wordAt bytes i

/-- The node of the last block of a chunk, after the `first` and all other blocks are compressed. -/
def chunk (counter : Nat) (chaining : Chaining) (first : UInt32) (bytes : List UInt8) : Node :=
  if bytes.length ≤ 64 then
    ⟨chaining, blockOf bytes, counter, bytes.length, first ||| chunkEnd⟩
  else
    let block : Node := ⟨chaining, blockOf (bytes.take 64), counter, 64, first⟩
    chunk counter (block.output 0) 0 (bytes.drop 64)
termination_by bytes.length
decreasing_by simp only [List.length_drop]; omega

/-- The number of bytes in the left subtree: the largest power of two of chunks that leaves something
over. -/
def leftSize (size : Nat) : Nat := 1024 <<< Nat.log2 ((size - 1) / 1024)

theorem leftSize_pos (size : Nat) : 0 < leftSize size := by
  rw [leftSize, Nat.shiftLeft_eq]
  exact Nat.mul_pos (by decide) (Nat.pow_pos (by decide))

theorem leftSize_lt {size : Nat} (h : 1024 < size) : leftSize size < size := by
  have hle := Nat.log2_self_le (n := (size - 1) / 1024) (by omega)
  simp only [leftSize, Nat.shiftLeft_eq]
  omega

def subtree (counter : Nat) (bytes : List UInt8) : Node :=
  if h : bytes.length ≤ 1024 then chunk counter start chunkStart bytes
  else
    have := leftSize_pos bytes.length
    have := leftSize_lt (Nat.lt_of_not_le h)
    let left := leftSize bytes.length
    let l := (subtree counter (bytes.take left)).output 0
    let r := (subtree (counter + left / 1024) (bytes.drop left)).output 0
    ⟨start, l ++ r, 0, 64, inner⟩
termination_by bytes.length
decreasing_by
  all_goals simp only [List.length_take, List.length_drop]; omega

/-- The bytes of a word, the least first. -/
def wordBytes (w : UInt32) : List UInt8 :=
  [w.toUInt8, (w >>> 8).toUInt8, (w >>> 16).toUInt8, (w >>> 24).toUInt8]

/-- The hash of 32 bytes. -/
def hash (bytes : List UInt8) : List UInt8 :=
  ((subtree 0 bytes).output root).toList.flatMap wordBytes

end Autofix.Blake3
