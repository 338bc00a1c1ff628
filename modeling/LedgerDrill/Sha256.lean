namespace LedgerDrill.Sha256

def roundConstants : Array UInt32 := #[
  0x428a2f98, 0x71374491, 0xb5c0fbcf, 0xe9b5dba5, 0x3956c25b, 0x59f111f1, 0x923f82a4, 0xab1c5ed5,
  0xd807aa98, 0x12835b01, 0x243185be, 0x550c7dc3, 0x72be5d74, 0x80deb1fe, 0x9bdc06a7, 0xc19bf174,
  0xe49b69c1, 0xefbe4786, 0x0fc19dc6, 0x240ca1cc, 0x2de92c6f, 0x4a7484aa, 0x5cb0a9dc, 0x76f988da,
  0x983e5152, 0xa831c66d, 0xb00327c8, 0xbf597fc7, 0xc6e00bf3, 0xd5a79147, 0x06ca6351, 0x14292967,
  0x27b70a85, 0x2e1b2138, 0x4d2c6dfc, 0x53380d13, 0x650a7354, 0x766a0abb, 0x81c2c92e, 0x92722c85,
  0xa2bfe8a1, 0xa81a664b, 0xc24b8b70, 0xc76c51a3, 0xd192e819, 0xd6990624, 0xf40e3585, 0x106aa070,
  0x19a4c116, 0x1e376c08, 0x2748774c, 0x34b0bcb5, 0x391c0cb3, 0x4ed8aa4a, 0x5b9cca4f, 0x682e6ff3,
  0x748f82ee, 0x78a5636f, 0x84c87814, 0x8cc70208, 0x90befffa, 0xa4506ceb, 0xbef9a3f7, 0xc67178f2]

def initialState : Array UInt32 := #[
  0x6a09e667, 0xbb67ae85, 0x3c6ef372, 0xa54ff53a, 0x510e527f, 0x9b05688c, 0x1f83d9ab, 0x5be0cd19]

def rotateRight (x : UInt32) (n : UInt32) : UInt32 := (x >>> n) ||| (x <<< (32 - n))

def bigEndian (count n : Nat) : List UInt8 :=
  (List.range count).reverse.map fun i => UInt8.ofNat (n >>> (8 * i))

def pad (message : List UInt8) : List UInt8 :=
  let length := message.length
  message ++ 0x80 :: List.replicate ((119 - length % 64) % 64) 0 ++ bigEndian 8 (8 * length)

def wordAt (words : Array UInt32) (i : Nat) : UInt32 := words.getD i 0

def blockWords : List UInt8 → Array UInt32 → Array UInt32
  | a :: b :: c :: d :: rest, words =>
    let word := (a.toUInt32 <<< 24) ||| (b.toUInt32 <<< 16) ||| (c.toUInt32 <<< 8) ||| d.toUInt32
    blockWords rest (words.push word)
  | _, words => words

def schedule (block : Array UInt32) : Array UInt32 :=
  (List.range 48).foldl (fun words i =>
    let x := wordAt words (i + 1)
    let y := wordAt words (i + 14)
    let small := rotateRight x 7 ^^^ rotateRight x 18 ^^^ (x >>> 3)
    let large := rotateRight y 17 ^^^ rotateRight y 19 ^^^ (y >>> 10)
    words.push (wordAt words i + small + wordAt words (i + 9) + large)) block

structure Working where
  a : UInt32
  b : UInt32
  c : UInt32
  d : UInt32
  e : UInt32
  f : UInt32
  g : UInt32
  h : UInt32

def round (w : Working) (constant word : UInt32) : Working :=
  let mixE := rotateRight w.e 6 ^^^ rotateRight w.e 11 ^^^ rotateRight w.e 25
  let choice := (w.e &&& w.f) ^^^ (~~~w.e &&& w.g)
  let first := w.h + mixE + choice + constant + word
  let mixA := rotateRight w.a 2 ^^^ rotateRight w.a 13 ^^^ rotateRight w.a 22
  let majority := (w.a &&& w.b) ^^^ (w.a &&& w.c) ^^^ (w.b &&& w.c)
  { a := first + (mixA + majority), b := w.a, c := w.b, d := w.c,
    e := w.d + first, f := w.e, g := w.f, h := w.g }

def compress (state : Array UInt32) (block : List UInt8) : Array UInt32 :=
  let words := schedule (blockWords block #[])
  let s := wordAt state
  let w := (List.range 64).foldl (fun w i => round w (wordAt roundConstants i) (wordAt words i))
    ⟨s 0, s 1, s 2, s 3, s 4, s 5, s 6, s 7⟩
  #[s 0 + w.a, s 1 + w.b, s 2 + w.c, s 3 + w.d, s 4 + w.e, s 5 + w.f, s 6 + w.g, s 7 + w.h]

def compressAll : Nat → Array UInt32 → List UInt8 → Array UInt32
  | 0, state, _ => state
  | count + 1, state, bytes => compressAll count (compress state (bytes.take 64)) (bytes.drop 64)

def digest (message : List UInt8) : List UInt8 :=
  let padded := pad message
  (compressAll (padded.length / 64) initialState padded).toList.flatMap fun word =>
    bigEndian 4 word.toNat

def hex (message : List UInt8) : String :=
  String.ofList ((digest message).flatMap fun byte =>
    [(byte.toNat / 16).digitChar, (byte.toNat % 16).digitChar])

end LedgerDrill.Sha256
