namespace AccessTopology.Digest

/-!
# SHA-256

The hash of FIPS 180-4: a message is padded to blocks of sixteen words, and
each block is compressed into the state.
-/

/-- Round constants: the first 32 bits of the fractions of the cube roots of the first 64 primes. -/
def roundConstants : List UInt32 :=
  [0x428a2f98, 0x71374491, 0xb5c0fbcf, 0xe9b5dba5, 0x3956c25b, 0x59f111f1,
    0x923f82a4, 0xab1c5ed5, 0xd807aa98, 0x12835b01, 0x243185be, 0x550c7dc3,
    0x72be5d74, 0x80deb1fe, 0x9bdc06a7, 0xc19bf174, 0xe49b69c1, 0xefbe4786,
    0x0fc19dc6, 0x240ca1cc, 0x2de92c6f, 0x4a7484aa, 0x5cb0a9dc, 0x76f988da,
    0x983e5152, 0xa831c66d, 0xb00327c8, 0xbf597fc7, 0xc6e00bf3, 0xd5a79147,
    0x06ca6351, 0x14292967, 0x27b70a85, 0x2e1b2138, 0x4d2c6dfc, 0x53380d13,
    0x650a7354, 0x766a0abb, 0x81c2c92e, 0x92722c85, 0xa2bfe8a1, 0xa81a664b,
    0xc24b8b70, 0xc76c51a3, 0xd192e819, 0xd6990624, 0xf40e3585, 0x106aa070,
    0x19a4c116, 0x1e376c08, 0x2748774c, 0x34b0bcb5, 0x391c0cb3, 0x4ed8aa4a,
    0x5b9cca4f, 0x682e6ff3, 0x748f82ee, 0x78a5636f, 0x84c87814, 0x8cc70208,
    0x90befffa, 0xa4506ceb, 0xbef9a3f7, 0xc67178f2]

/-- The eight working words. -/
structure State where
  a : UInt32
  b : UInt32
  c : UInt32
  d : UInt32
  e : UInt32
  f : UInt32
  g : UInt32
  h : UInt32
  deriving Repr, DecidableEq

/-- The state before the first block. -/
def initialState : State :=
  { a := 0x6a09e667, b := 0xbb67ae85, c := 0x3c6ef372, d := 0xa54ff53a
    e := 0x510e527f, f := 0x9b05688c, g := 0x1f83d9ab, h := 0x5be0cd19 }

/-- Rotation to the right. -/
def rotate
    (word : UInt32)
    (count : UInt32) :
    UInt32 :=
  (word >>> count) ||| (word <<< (32 - count))

/-- One round of compression. -/
def State.round
    (state : State)
    (constant word : UInt32) :
    State :=
  let mixE := rotate state.e 6 ^^^ rotate state.e 11 ^^^ rotate state.e 25
  let choice := (state.e &&& state.f) ^^^ ((~~~state.e) &&& state.g)
  let first := state.h + mixE + choice + constant + word
  let mixA := rotate state.a 2 ^^^ rotate state.a 13 ^^^ rotate state.a 22
  let majority :=
    (state.a &&& state.b) ^^^ (state.a &&& state.c) ^^^ (state.b &&& state.c)
  { a := first + (mixA + majority), b := state.a, c := state.b, d := state.c
    e := state.d + first, f := state.e, g := state.f, h := state.g }

/-- The sum of two states, word by word. -/
def State.add (left right : State) : State :=
  { a := left.a + right.a, b := left.b + right.b, c := left.c + right.c
    d := left.d + right.d, e := left.e + right.e, f := left.f + right.f
    g := left.g + right.g, h := left.h + right.h }

/-- The word of the schedule after sixteen given ones. -/
def nextWord (window : List UInt32) : UInt32 :=
  match window with
  | [w0, w1, _, _, _, _, _, _, _, w9, _, _, _, _, w14, _] =>
      let early := rotate w1 7 ^^^ rotate w1 18 ^^^ (w1 >>> 3)
      let late := rotate w14 17 ^^^ rotate w14 19 ^^^ (w14 >>> 10)
      w0 + early + w9 + late
  | _ => 0

/-- Compress words of the schedule, of which `window` holds the next sixteen. -/
def rounds : List UInt32 → (window : List UInt32) → State → State
  | [], _, state => state
  | constant :: constants, window, state =>
      rounds constants (window.drop 1 ++ [nextWord window])
        (state.round constant (window.headD 0))

/-- Compress a block of sixteen words into a state. -/
def compress (state : State) (block : List UInt32) : State :=
  state.add (rounds roundConstants block state)

/-- The `count` bytes of a number, most significant first. -/
def bigEndian : (count : Nat) → Nat → List UInt8
  | 0, _ => []
  | count + 1, value => (value >>> (8 * count)).toUInt8 :: bigEndian count value

/-- A message with a one bit, zeros and its length in bits, to whole blocks. -/
def pad (message : List UInt8) : List UInt8 :=
  let zeros := (119 - message.length % 64) % 64
  message ++ 0x80 :: (List.replicate zeros 0 ++ bigEndian 8 (8 * message.length))

/-- Four bytes to a word, most significant first. -/
def toWords : List UInt8 → List UInt32
  | a :: b :: c :: d :: rest =>
      ((a.toUInt32 <<< 24) ||| (b.toUInt32 <<< 16) ||| (c.toUInt32 <<< 8) |||
        d.toUInt32) :: toWords rest
  | _ => []

/-- Compress all blocks of a list of words, given enough fuel for their number. -/
def compressAll : (fuel : Nat) → List UInt32 → State → State
  | 0, _, state => state
  | fuel + 1, words, state =>
      if words.isEmpty then state
      else compressAll fuel (words.drop 16) (compress state (words.take 16))

/-- The words of a state, in order. -/
def State.words (state : State) : List UInt32 :=
  [state.a, state.b, state.c, state.d, state.e, state.f, state.g, state.h]

/-- The hash of a message, as eight words. -/
def sha256 (message : List UInt8) : List UInt32 :=
  let words := toWords (pad message)
  (compressAll words.length words initialState).words

/-- Eight lowercase hexadecimal digits of a word. -/
def wordHex (word : UInt32) : List Char :=
  (bigEndian 4 word.toNat).flatMap
    (fun byte => [Nat.digitChar (byte.toNat / 16), Nat.digitChar (byte.toNat % 16)])

/-- The hash of a text's UTF-8 bytes, in lowercase hexadecimal digits. -/
def ofText (text : String) : String :=
  String.ofList ((sha256 text.toUTF8.toList).flatMap wordHex)

-- The digest of a list without drafts.
example :
    ofText "[]" =
      "4f53cda18c2baa0c0354bb5f9a3ecbe5ed12ab4d8e11ba873c2f11161202b945" := by
  decide +kernel

end AccessTopology.Digest
