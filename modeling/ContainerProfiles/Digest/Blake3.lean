namespace ContainerProfiles.Digest

-- The BLAKE3 digest of a list of bytes, 32 bytes long, as 64 hexadecimal digits. Chunks of 1024 bytes are the
-- leaves of a binary tree whose left part is the largest full one.

abbrev Words := Vector UInt32 8
abbrev Block := Vector UInt32 16

def iv : Words :=
  #v[0x6A09E667, 0xBB67AE85, 0x3C6EF372, 0xA54FF53A, 0x510E527F, 0x9B05688C, 0x1F83D9AB, 0x5BE0CD19]

def schedule : Vector (Fin 16) 16 := #v[2, 6, 3, 10, 7, 0, 4, 13, 1, 11, 12, 5, 9, 14, 15, 8]

def chunkStart : UInt32 := 1
def chunkEnd : UInt32 := 2
def parentNode : UInt32 := 4
def rootNode : UInt32 := 8

def rotateRight (w count : UInt32) : UInt32 := (w >>> count) ||| (w <<< (32 - count))

def mix (s : Block) (a b c d : Fin 16) (x y : UInt32) : Block :=
  let s := s.set a (s[a] + s[b] + x)
  let s := s.set d (rotateRight (s[d] ^^^ s[a]) 16)
  let s := s.set c (s[c] + s[d])
  let s := s.set b (rotateRight (s[b] ^^^ s[c]) 12)
  let s := s.set a (s[a] + s[b] + y)
  let s := s.set d (rotateRight (s[d] ^^^ s[a]) 8)
  let s := s.set c (s[c] + s[d])
  s.set b (rotateRight (s[b] ^^^ s[c]) 7)

-- The four columns, then the four diagonals.
def round (s m : Block) : Block :=
  let s := mix s 0 4 8 12 m[0] m[1]
  let s := mix s 1 5 9 13 m[2] m[3]
  let s := mix s 2 6 10 14 m[4] m[5]
  let s := mix s 3 7 11 15 m[6] m[7]
  let s := mix s 0 5 10 15 m[8] m[9]
  let s := mix s 1 6 11 12 m[10] m[11]
  let s := mix s 2 7 8 13 m[12] m[13]
  mix s 3 4 9 14 m[14] m[15]

def permute (m : Block) : Block := schedule.map (fun i => m[i])

def rounds : Nat → Block → Block → Block
  | 0, s, _ => s
  | n + 1, s, m => rounds n (round s m) (permute m)

def compress (chain : Words) (m : Block) (counter : Nat) (length flags : UInt32) : Words :=
  let ends : Vector UInt32 4 :=
    #v[UInt32.ofNat counter, UInt32.ofNat (counter / UInt32.size), length, flags]
  let s := rounds 7 (chain ++ iv.take 4 ++ ends) m
  Vector.ofFn (fun i : Fin 8 => s[i.val] ^^^ s[i.val + 8])

def littleEndian (bytes : List UInt8) : UInt32 :=
  bytes.foldr (fun b w => w * 256 + b.toUInt32) 0

-- Missing bytes of the last block are zero.
def load (bytes : List UInt8) : Block :=
  Vector.ofFn (fun i : Fin 16 => littleEndian ((bytes.drop (4 * i.val)).take 4))

def chunk (counter : Nat) (last start : UInt32) (chain : Words) (bytes : List UInt8) : Words :=
  if bytes.length ≤ 64 then
    compress chain (load bytes) counter (UInt32.ofNat bytes.length) (start ||| chunkEnd ||| last)
  else
    chunk counter last 0 (compress chain (load (bytes.take 64)) counter 64 start) (bytes.drop 64)
termination_by bytes.length
decreasing_by simp only [List.length_drop]; omega

-- How many bytes go to the left part: the largest power of two of chunks that leaves some.
def leftLength (length : Nat) : Nat := 1024 <<< Nat.log2 ((length - 1) / 1024)

theorem leftLength_lt {length : Nat} (h : 1024 < length) : leftLength length < length := by
  have some : (length - 1) / 1024 ≠ 0 := by omega
  have := Nat.log2_self_le some
  simp only [leftLength, Nat.shiftLeft_eq]
  omega

theorem leftLength_pos (length : Nat) : 0 < leftLength length := by
  have := Nat.two_pow_pos (Nat.log2 ((length - 1) / 1024))
  simp only [leftLength, Nat.shiftLeft_eq]
  omega

def tree (counter : Nat) (last : UInt32) (bytes : List UInt8) : Words :=
  if bytes.length ≤ 1024 then chunk counter last chunkStart iv bytes
  else
    let left := leftLength bytes.length
    compress iv
      (tree counter 0 (bytes.take left) ++ tree (counter + left / 1024) 0 (bytes.drop left))
      0 64 (parentNode ||| last)
termination_by bytes.length
decreasing_by
  · have := leftLength_lt (by omega : 1024 < bytes.length)
    simp only [List.length_take]; omega
  · have := leftLength_pos bytes.length
    simp only [List.length_drop]; omega

def hexOfByte (b : UInt8) : List Char :=
  [Nat.digitChar (b.toNat / 16), Nat.digitChar (b.toNat % 16)]

def wordBytes (w : UInt32) : List UInt8 :=
  [w.toUInt8, (w >>> 8).toUInt8, (w >>> 16).toUInt8, (w >>> 24).toUInt8]

def ofBytes (bytes : List UInt8) : String :=
  String.ofList (((tree 0 rootNode bytes).toList.flatMap wordBytes).flatMap hexOfByte)

def ofText (s : String) : String := ofBytes s.toUTF8.toList

end ContainerProfiles.Digest
