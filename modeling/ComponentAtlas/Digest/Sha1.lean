import ComponentAtlas.Text.Characters

/-!
# SHA-1

The digest of a text by FIPS 180-4: the UTF-8 bytes are padded to whole blocks
of sixteen 32-bit words, each block is spread over eighty rounds, and the five
words of the final state are written as forty hexadecimal digits.
-/

namespace ComponentAtlas.Digest

/-- The five words of the running digest. -/
structure State where
  a : UInt32
  b : UInt32
  c : UInt32
  d : UInt32
  e : UInt32
deriving DecidableEq

def State.initial : State := ⟨0x67452301, 0xEFCDAB89, 0x98BADCFE, 0x10325476, 0xC3D2E1F0⟩

/-- The `count` low bytes of `n`, most significant first. -/
def bigEndian : (count n : Nat) → List UInt8
  | 0, _ => []
  | count + 1, n => bigEndian count (n / 256) ++ [UInt8.ofNat n]

theorem bigEndian_length (count n : Nat) : (bigEndian count n).length = count := by
  induction count generalizing n with
  | zero => rfl
  | succ count ih => simp [bigEndian, ih]

/-- The number of zero bytes that fill the last block between the end mark and the length. -/
def fillLength (length : Nat) : Nat := (119 - length % 64) % 64

def padded (message : List UInt8) : List UInt8 :=
  message ++ 0x80 :: List.replicate (fillLength message.length) 0 ++
    bigEndian 8 (8 * message.length)

theorem padded_length_mod (message : List UInt8) : (padded message).length % 64 = 0 := by
  simp only [padded, fillLength, List.length_append, List.length_cons, List.length_replicate,
    bigEndian_length]
  omega

def wordOfBytes (x y z w : UInt8) : UInt32 :=
  (x.toUInt32 <<< 24) ||| (y.toUInt32 <<< 16) ||| (z.toUInt32 <<< 8) ||| w.toUInt32

/-- Words of four bytes, most significant byte first. -/
def words : List UInt8 → List UInt32
  | x :: y :: z :: w :: rest => wordOfBytes x y z w :: words rest
  | _ => []

def rotateLeft (x n : UInt32) : UInt32 := (x <<< n) ||| (x >>> (32 - n))

/-- Adds `count` words to a schedule that is held latest word first. -/
def extendSchedule : (count : Nat) → List UInt32 → List UInt32
  | 0, schedule => schedule
  | count + 1, schedule =>
    let word (back : Nat) := schedule.getD (back - 1) 0
    extendSchedule count
      (rotateLeft (word 3 ^^^ word 8 ^^^ word 14 ^^^ word 16) 1 :: schedule)

/-- The eighty words of a block of sixteen. -/
def schedule (block : List UInt32) : List UInt32 := (extendSchedule 64 block.reverse).reverse

def mix (t : Nat) (s : State) : UInt32 :=
  if t < 20 then ((s.b &&& s.c) ||| (~~~s.b &&& s.d)) + 0x5A827999
  else if t < 40 then (s.b ^^^ s.c ^^^ s.d) + 0x6ED9EBA1
  else if t < 60 then ((s.b &&& s.c) ||| (s.b &&& s.d) ||| (s.c &&& s.d)) + 0x8F1BBCDC
  else (s.b ^^^ s.c ^^^ s.d) + 0xCA62C1D6

def State.round (s : State) (t : Nat) (word : UInt32) : State :=
  ⟨rotateLeft s.a 5 + mix t s + s.e + word, s.a, rotateLeft s.b 30, s.c, s.d⟩

/-- The rounds from number `t` on, one for each word. -/
def State.rounds : State → Nat → List UInt32 → State
  | s, _, [] => s
  | s, t, word :: rest => (s.round t word).rounds (t + 1) rest

def State.add (s r : State) : State := ⟨s.a + r.a, s.b + r.b, s.c + r.c, s.d + r.d, s.e + r.e⟩

def State.absorb (s : State) (block : List UInt32) : State :=
  s.add (s.rounds 0 (schedule block))

/-- Absorbs blocks of sixteen words; `count` bounds their number. -/
def absorbBlocks : (count : Nat) → State → List UInt32 → State
  | 0, s, _ => s
  | _ + 1, s, [] => s
  | count + 1, s, message => absorbBlocks count (s.absorb (message.take 16)) (message.drop 16)

def State.digits (s : State) : List Char :=
  [s.a, s.b, s.c, s.d, s.e].flatMap fun word => Text.hexDigits 8 word.toNat

def sha1Bytes (message : List UInt8) : State :=
  let message := words (padded message)
  absorbBlocks message.length State.initial message

/-- The SHA-1 digest of the UTF-8 form of `s`, in hexadecimal. -/
def sha1 (s : String) : String := String.ofList (sha1Bytes s.toUTF8.toList).digits

theorem State.digits_length (s : State) : s.digits.length = 40 := by
  simp [State.digits, Text.hexDigits_length]

end ComponentAtlas.Digest
