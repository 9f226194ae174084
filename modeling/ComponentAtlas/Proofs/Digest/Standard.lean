import ComponentAtlas.ParseCache
import Mathlib.Algebra.Ring.Nat
import Mathlib.Data.List.Forall2
import Mathlib.Data.List.Induction

/-!
# The digest of the standard

The standard speaks of words by their numbers: of word `t` of a schedule, of the
registers after `t` rounds, of the hash after `i` blocks. The digest computed
with lists of words is the one that these definitions give.
-/

namespace ComponentAtlas.Digest

/-! ### The hash of the standard -/

namespace Standard

abbrev Word := BitVec 32

def choice (x y z : Word) : Word := (x &&& y) ^^^ (~~~x &&& z)

def parity (x y z : Word) : Word := x ^^^ y ^^^ z

def majority (x y z : Word) : Word := (x &&& y) ^^^ (x &&& z) ^^^ (y &&& z)

def logical (t : Nat) : Word → Word → Word → Word :=
  if t < 20 then choice else if t < 40 then parity else if t < 60 then majority else parity

def constant (t : Nat) : Word :=
  if t < 20 then 0x5A827999 else if t < 40 then 0x6ED9EBA1
  else if t < 60 then 0x8F1BBCDC else 0xCA62C1D6

/-- Word `t` of the schedule of a block. -/
def scheduled (block : Nat → Word) (t : Nat) : Word :=
  if t < 16 then block t
  else
    (scheduled block (t - 3) ^^^ scheduled block (t - 8) ^^^ scheduled block (t - 14) ^^^
      scheduled block (t - 16)).rotateLeft 1
termination_by t

structure Registers where
  a : Word
  b : Word
  c : Word
  d : Word
  e : Word

namespace Registers

def initial : Registers := ⟨0x67452301, 0xEFCDAB89, 0x98BADCFE, 0x10325476, 0xC3D2E1F0⟩

def next (r : Registers) (t : Nat) (word : Word) : Registers where
  a := r.a.rotateLeft 5 + logical t r.b r.c r.d + r.e + constant t + word
  b := r.a
  c := r.b.rotateLeft 30
  d := r.c
  e := r.d

def plus (r s : Registers) : Registers := ⟨r.a + s.a, r.b + s.b, r.c + s.c, r.d + s.d, r.e + s.e⟩

def words (r : Registers) : List Word := [r.a, r.b, r.c, r.d, r.e]

end Registers

/-- The registers after the first rounds on a block, begun with the hash so far. -/
def rounds (block : Nat → Word) (hash : Registers) : Nat → Registers
  | 0 => hash
  | t + 1 => (rounds block hash t).next t (scheduled block t)

/-- The hash after the first blocks of a message that is given by its words. -/
def hash (message : Nat → Word) : Nat → Registers
  | 0 => .initial
  | i + 1 =>
    (hash message i).plus (rounds (fun t => message (16 * i + t)) (hash message i) 80)

/-- Word `j` of a padded message: four bytes side by side. -/
def messageWord (padded : List UInt8) (j : Nat) : Word :=
  let byte (k : Nat) := (padded.getD (4 * j + k) 0).toBitVec
  byte 0 ++ byte 1 ++ byte 2 ++ byte 3

/-- The number that digits make in a base, the most significant first. -/
def number {α : Type} (base : Nat) (worth : α → Nat) (digits : List α) : Nat :=
  digits.foldl (fun n digit => base * n + worth digit) 0

/-- The padding of a message: its zeros, its bytes for the length, and the blocks there are then. -/
structure Pads (message : List UInt8) (zeros : Nat) (length : List UInt8) (blocks : Nat) :
    Prop where
  eight : length.length = 8
  bits : number 256 UInt8.toNat length = 8 * message.length
  whole : message.length + 1 + zeros + 8 = 64 * blocks
  least : ∀ fewer < zeros, ¬ 64 ∣ message.length + 1 + fewer + 8

def paddedWith (message : List UInt8) (zeros : Nat) (length : List UInt8) : List UInt8 :=
  message ++ 0x80 :: List.replicate zeros 0 ++ length

def digitChars : List Char := "0123456789abcdef".toList

/-- A word in eight hexadecimal digits. -/
structure Writes (digits : List Char) (word : Word) : Prop where
  eight : digits.length = 8
  lower : ∀ c ∈ digits, c ∈ digitChars
  value : number 16 (digitChars.idxOf ·) digits = word.toNat

/--
The text is the digest of the message: a message whose length in bits fits eight bytes
has a padding, and the hash of the blocks it then has is written word by word.
-/
structure IsDigest (message : List UInt8) (text : List Char) : Prop where
  forty : text.length = 40
  lower : ∀ c ∈ text, c ∈ digitChars
  padding : message.length < 2 ^ 61 → ∃ zeros length blocks, Pads message zeros length blocks
  hashed : ∀ zeros length blocks, Pads message zeros length blocks →
    0 < blocks ∧ ∃ parts, text = parts.flatten ∧
      List.Forall₂ Writes parts (hash (messageWord (paddedWith message zeros length)) blocks).words

end Standard

open Standard

/-! ### Rounds -/

theorem toBitVec_rotateLeft (x n : UInt32) (hpos : 0 < n.toNat) (hlt : n.toNat < 32) :
    (rotateLeft x n).toBitVec = x.toBitVec.rotateLeft n.toNat := by
  unfold rotateLeft
  rw [BitVec.rotateLeft_def, UInt32.toBitVec_or, UInt32.toBitVec_shiftRight,
    UInt32.toBitVec_shiftLeft, BitVec.ushiftRight_eq', BitVec.shiftLeft_eq']
  congr 2
  simp [BitVec.toNat_umod]
  omega

-- The two sides of a choice have no bit in common.
theorem or_eq_choice (x y z : Word) : (x &&& y) ||| (~~~x &&& z) = choice x y z := by
  unfold choice
  apply BitVec.eq_of_getLsbD_eq
  intro i hi
  simp only [BitVec.getLsbD_or, BitVec.getLsbD_and, BitVec.getLsbD_xor, BitVec.getLsbD_not]
  cases x.getLsbD i <;> simp

theorem or_eq_majority (x y z : Word) :
    (x &&& y) ||| (x &&& z) ||| (y &&& z) = majority x y z := by
  unfold majority
  apply BitVec.eq_of_getLsbD_eq
  intro i hi
  simp only [BitVec.getLsbD_or, BitVec.getLsbD_and, BitVec.getLsbD_xor]
  cases x.getLsbD i <;> cases y.getLsbD i <;> cases z.getLsbD i <;> rfl

def State.registers (s : State) : Registers :=
  ⟨s.a.toBitVec, s.b.toBitVec, s.c.toBitVec, s.d.toBitVec, s.e.toBitVec⟩

theorem toBitVec_mix (t : Nat) (s : State) :
    (mix t s).toBitVec =
      logical t s.b.toBitVec s.c.toBitVec s.d.toBitVec + constant t := by
  unfold mix logical constant
  split
  · exact congrArg (· + _) (or_eq_choice _ _ _)
  · split
    · rfl
    · split
      · exact congrArg (· + _) (or_eq_majority _ _ _)
      · rfl

theorem registers_round (s : State) (t : Nat) (word : UInt32) :
    (s.round t word).registers = s.registers.next t word.toBitVec := by
  have ha : (rotateLeft s.a 5 + mix t s + s.e + word).toBitVec =
      s.a.toBitVec.rotateLeft 5 + logical t s.b.toBitVec s.c.toBitVec s.d.toBitVec +
        s.e.toBitVec + constant t + word.toBitVec := by
    rw [UInt32.toBitVec_add, UInt32.toBitVec_add, UInt32.toBitVec_add, toBitVec_mix,
      toBitVec_rotateLeft s.a 5 (by decide) (by decide)]
    -- the sums are the same but for the order of their terms
    ac_rfl
  have hc : (rotateLeft s.b 30).toBitVec = s.b.toBitVec.rotateLeft 30 :=
    toBitVec_rotateLeft s.b 30 (by decide) (by decide)
  unfold State.round State.registers Registers.next
  rw [ha, hc]

theorem registers_rounds {block : Nat → Word} {hash : Registers} {s : State} {t : Nat}
    {schedule : List UInt32} (hs : s.registers = rounds block hash t)
    (hschedule : schedule.map UInt32.toBitVec =
      (List.range' t schedule.length).map (scheduled block)) :
    (s.rounds t schedule).registers = rounds block hash (t + schedule.length) := by
  induction schedule generalizing s t with
  | nil => exact hs
  | cons word rest ih =>
    rw [List.length_cons, List.range'_succ, List.map_cons, List.map_cons] at hschedule
    obtain ⟨hword, hrest⟩ := List.cons.inj hschedule
    have hnext : (s.round t word).registers = rounds block hash (t + 1) := by
      rw [registers_round, hs, hword]
      rfl
    rw [State.rounds, ih hnext hrest, List.length_cons]
    congr 1
    omega

/-! ### Schedules -/

theorem scheduled_of_lt (block : Nat → Word) {t : Nat} (h : t < 16) :
    scheduled block t = block t := by
  rw [scheduled, if_pos h]

theorem scheduled_of_ge (block : Nat → Word) {t : Nat} (h : 16 ≤ t) :
    scheduled block t =
      (scheduled block (t - 3) ^^^ scheduled block (t - 8) ^^^ scheduled block (t - 14) ^^^
        scheduled block (t - 16)).rotateLeft 1 := by
  rw [scheduled, if_neg (Nat.not_lt.mpr h)]

/-- The first words of a schedule, as they are held while it grows. -/
def Held (block : Nat → Word) (count : Nat) (held : List UInt32) : Prop :=
  held.map UInt32.toBitVec = ((List.range count).map (scheduled block)).reverse

section

variable {block : Nat → Word} {count : Nat} {held words : List UInt32}

theorem Held.toBitVec_getD {back : Nat} (h : Held block count held) (hpos : 0 < back)
    (hle : back ≤ count) :
    (held.getD (back - 1) 0).toBitVec = scheduled block (count - back) := by
  have hlt : back - 1 < ((List.range count).map (scheduled block)).length := by
    rw [List.length_map, List.length_range]
    omega
  -- the word `back` steps before the end stands at `back - 1`, since the list is reversed
  have hget := congrArg (fun l => l[back - 1]?) h
  simp only [List.getElem?_map, List.getElem?_reverse hlt, List.length_map,
    List.length_range] at hget
  have hplace : count - 1 - (back - 1) = count - back := by omega
  rw [hplace, List.getElem?_range (by omega), Option.map_some] at hget
  obtain ⟨word, hword, heq⟩ := Option.map_eq_some_iff.mp hget
  rw [List.getD_eq_getElem?_getD, hword]
  exact heq

theorem Held.cons {word : UInt32} (h : Held block count held)
    (hword : word.toBitVec = scheduled block count) :
    Held block (count + 1) (word :: held) := by
  unfold Held
  rw [List.map_cons, hword, h, List.range_succ, List.map_append, List.reverse_append]
  rfl

theorem Held.extend (h : Held block count held) (hcount : 16 ≤ count) (more : Nat) :
    Held block (count + more) (extendSchedule more held) := by
  induction more generalizing count held with
  | zero => exact h
  | succ more ih =>
    have hword : (rotateLeft (held.getD (3 - 1) 0 ^^^ held.getD (8 - 1) 0 ^^^
        held.getD (14 - 1) 0 ^^^ held.getD (16 - 1) 0) 1).toBitVec = scheduled block count := by
      rw [toBitVec_rotateLeft _ 1 (by decide) (by decide), UInt32.toBitVec_xor,
        UInt32.toBitVec_xor, UInt32.toBitVec_xor, h.toBitVec_getD (by decide) (by omega),
        h.toBitVec_getD (by decide) (by omega), h.toBitVec_getD (by decide) (by omega),
        h.toBitVec_getD (by decide) hcount]
      exact (scheduled_of_ge block hcount).symm
    have hextended := ih (h.cons hword) (by omega)
    rw [show count + 1 + more = count + (more + 1) by omega] at hextended
    exact hextended

theorem schedule_eq (h : words.map UInt32.toBitVec = (List.range 16).map block) :
    (schedule words).map UInt32.toBitVec = (List.range 80).map (scheduled block) := by
  have hheld : Held block 16 words.reverse := by
    unfold Held
    rw [List.map_reverse, h]
    congr 1
    apply List.map_congr_left
    intro t ht
    exact (scheduled_of_lt block (List.mem_range.mp ht)).symm
  rw [schedule, List.map_reverse, hheld.extend (Nat.le_refl 16) 64, List.reverse_reverse]

/-! ### Blocks -/

theorem registers_absorb {s : State}
    (h : words.map UInt32.toBitVec = (List.range 16).map block) :
    (s.absorb words).registers = s.registers.plus (rounds block s.registers 80) := by
  have hschedule := schedule_eq h
  have hlength : (schedule words).length = 80 := by
    simpa using congrArg List.length hschedule
  have hrounds : (s.rounds 0 (schedule words)).registers =
      rounds block s.registers (0 + (schedule words).length) :=
    registers_rounds rfl (by rw [hschedule, hlength, List.range_eq_range'])
  rw [Nat.zero_add, hlength] at hrounds
  rw [← hrounds]
  rfl

end

theorem absorbBlocks_succ (count : Nat) (s : State) {words : List UInt32} (h : words ≠ []) :
    absorbBlocks (count + 1) s words =
      absorbBlocks count (s.absorb (words.take 16)) (words.drop 16) := by
  cases words with
  | nil => exact absurd rfl h
  | cons word rest => rfl

theorem registers_absorbBlocks {message : Nat → Word} {s : State} {i n count : Nat}
    {words : List UInt32} (hs : s.registers = hash message i) (hcount : n ≤ count)
    (hwords : words.map UInt32.toBitVec = (List.range' (16 * i) (16 * n)).map message) :
    (absorbBlocks count s words).registers = hash message (i + n) := by
  induction n generalizing s i count words with
  | zero =>
    have hnil : words = [] := List.map_eq_nil_iff.mp hwords
    subst hnil
    cases count <;> exact hs
  | succ n ih =>
    have hlength : words.length = 16 * (n + 1) := by
      simpa using congrArg List.length hwords
    -- block `i` is made of the first sixteen words, and the others go on with block `i + 1`
    have hwords' : words.map UInt32.toBitVec =
        (List.range' (16 * i) 16).map message ++
          (List.range' (16 * (i + 1)) (16 * n)).map message := by
      rw [hwords, ← List.map_append, show 16 * (i + 1) = 16 * i + 1 * 16 by omega,
        List.range'_append, show 16 + 16 * n = 16 * (n + 1) by omega]
    have hblock : (words.take 16).map UInt32.toBitVec =
        (List.range 16).map fun t => message (16 * i + t) := by
      rw [List.map_take, hwords', List.take_left' (by simp), List.range'_eq_map_range, List.map_map]
      rfl
    have hrest : (words.drop 16).map UInt32.toBitVec =
        (List.range' (16 * (i + 1)) (16 * n)).map message := by
      rw [List.map_drop, hwords', List.drop_left' (by simp)]
    have hstep : (s.absorb (words.take 16)).registers = hash message (i + 1) := by
      rw [registers_absorb hblock, hs]
      rfl
    have hnonempty : words ≠ [] := List.ne_nil_of_length_pos (by omega)
    cases count with
    | zero => omega
    | succ count =>
      rw [absorbBlocks_succ count s hnonempty, ih hstep (by omega) hrest]
      congr 1
      omega

/-! ### Words of bytes -/

theorem toBitVec_wordOfBytes (x y z w : UInt8) :
    (wordOfBytes x y z w).toBitVec =
      x.toBitVec ++ y.toBitVec ++ z.toBitVec ++ w.toBitVec := by
  have hshifted : (wordOfBytes x y z w).toBitVec =
      (x.toBitVec.setWidth 32 <<< 24) ||| (y.toBitVec.setWidth 32 <<< 16) |||
        (z.toBitVec.setWidth 32 <<< 8) ||| w.toBitVec.setWidth 32 := rfl
  rw [hshifted]
  apply BitVec.eq_of_getLsbD_eq
  intro i hi
  simp only [BitVec.getLsbD_or, BitVec.getLsbD_shiftLeft, BitVec.getLsbD_setWidth]
  grind

theorem words_eq {padded : List UInt8} {n : Nat} (h : padded.length = 4 * n) :
    (words padded).map UInt32.toBitVec = (List.range n).map (messageWord padded) := by
  induction n generalizing padded with
  | zero =>
    rw [List.length_eq_zero_iff.mp h]
    rfl
  | succ n ih =>
    match padded, h with
    | x :: y :: z :: w :: rest, h =>
      have hrest : rest.length = 4 * n := by
        simp only [List.length_cons] at h
        omega
      rw [words, List.map_cons, ih hrest, toBitVec_wordOfBytes, List.range_succ_eq_map,
        List.map_cons, List.map_map]
      -- word `j` of the rest is word `j + 1` of the whole
      rfl

/-! ### Numbers in digits -/

/-- Digits that are taken off at the low end make the number that they are taken from. -/
theorem number_of_steps {α : Type} {base : Nat} {worth : α → Nat} {write : Nat → Nat → List α}
    {last : Nat → α} (hzero : ∀ n, write 0 n = [])
    (hsucc : ∀ width n, write (width + 1) n = write width (n / base) ++ [last n])
    (hlast : ∀ n, worth (last n) = n % base) (width n : Nat) :
    number base worth (write width n) = n % base ^ width := by
  induction width generalizing n with
  | zero =>
    rw [hzero, Nat.pow_zero, Nat.mod_one]
    rfl
  | succ width ih =>
    have hconcat : number base worth (write width (n / base) ++ [last n]) =
        base * number base worth (write width (n / base)) + worth (last n) := by
      unfold number
      rw [List.foldl_append]
      rfl
    rw [hsucc, hconcat, ih, hlast, Nat.pow_succ', Nat.mod_mul]
    omega

theorem number_bigEndian (count n : Nat) :
    number 256 UInt8.toNat (bigEndian count n) = n % 256 ^ count :=
  number_of_steps (fun _ => rfl) (fun _ _ => rfl) (fun _ => UInt8.toNat_ofNat') count n

theorem bigEndian_number (bytes : List UInt8) :
    bigEndian bytes.length (number 256 UInt8.toNat bytes) = bytes := by
  induction bytes using List.reverseRecOn with
  | nil => rfl
  | append_singleton bytes byte ih =>
    have hnumber : number 256 UInt8.toNat (bytes ++ [byte]) =
        256 * number 256 UInt8.toNat bytes + byte.toNat := by
      unfold number
      rw [List.foldl_append]
      rfl
    have hbyte := byte.toNat_lt
    have hhigh : (256 * number 256 UInt8.toNat bytes + byte.toNat) / 256 =
        number 256 UInt8.toNat bytes := by omega
    have hlow : UInt8.ofNat (256 * number 256 UInt8.toNat bytes + byte.toNat) = byte := by
      apply UInt8.toNat_inj.mp
      rw [UInt8.toNat_ofNat']
      omega
    rw [List.length_append, hnumber]
    show bigEndian bytes.length (_ / 256) ++ [UInt8.ofNat _] = _
    rw [hhigh, hlow, ih]

theorem digitChar_of_lt : ∀ d < 16, digitChars.idxOf (Nat.digitChar d) = d ∧
    Nat.digitChar d ∈ digitChars := by decide

theorem mem_digitChars_of_mem_hexDigits {width n : Nat} {c : Char}
    (h : c ∈ Text.hexDigits width n) : c ∈ digitChars := by
  induction width generalizing n with
  | zero => cases h
  | succ width ih =>
    rcases List.mem_append.mp h with h | h
    · exact ih h
    · rw [List.mem_singleton.mp h]
      exact (digitChar_of_lt _ (Nat.mod_lt n (by decide))).2

theorem writes_hexDigits (word : UInt32) :
    Writes (Text.hexDigits 8 word.toNat) word.toBitVec where
  eight := Text.hexDigits_length 8 _
  lower _ := mem_digitChars_of_mem_hexDigits
  value := by
    have hlt : word.toNat < 16 ^ 8 := word.toNat_lt
    rw [number_of_steps (fun _ => rfl) (fun _ _ => rfl)
      (fun n => (digitChar_of_lt _ (Nat.mod_lt n (by decide))).1), Nat.mod_eq_of_lt hlt]
    rfl

theorem writes_digits (s : State) :
    ∃ parts, s.digits = parts.flatten ∧ List.Forall₂ Writes parts s.registers.words := by
  have hwords : s.registers.words = [s.a, s.b, s.c, s.d, s.e].map UInt32.toBitVec := rfl
  have hdigits : s.digits =
      ([s.a, s.b, s.c, s.d, s.e].map fun word => Text.hexDigits 8 word.toNat).flatten := by
    rw [State.digits, List.flatMap_def]
  refine ⟨_, hdigits, ?_⟩
  rw [hwords, List.forall₂_map_left_iff, List.forall₂_map_right_iff, List.forall₂_same]
  exact fun word _ => writes_hexDigits word

theorem mem_digitChars_of_mem_digits {s : State} {c : Char} (h : c ∈ s.digits) :
    c ∈ digitChars := by
  obtain ⟨word, -, hc⟩ := List.mem_flatMap.mp h
  exact mem_digitChars_of_mem_hexDigits hc

/-! ### Padding -/

theorem exists_pads {message : List UInt8} (h : message.length < 2 ^ 61) :
    ∃ zeros length blocks, Pads message zeros length blocks := by
  refine ⟨fillLength message.length, bigEndian 8 (8 * message.length),
    (message.length + 1 + fillLength message.length + 8) / 64, bigEndian_length _ _, ?_, ?_, ?_⟩
  · rw [number_bigEndian, Nat.mod_eq_of_lt]
    omega
  · unfold fillLength
    omega
  · intro fewer hfewer
    unfold fillLength at hfewer
    omega

theorem Standard.Pads.padded_eq {message length : List UInt8} {zeros blocks : Nat}
    (h : Pads message zeros length blocks) :
    paddedWith message zeros length = padded message := by
  -- fewer zeros than are computed do not fill a block, and more are not the least number
  have hzeros : zeros = fillLength message.length := by
    have hwhole := h.whole
    have hleast := h.least (fillLength message.length)
    unfold fillLength at hleast ⊢
    omega
  have hlength : length = bigEndian 8 (8 * message.length) := by
    have hbytes := bigEndian_number length
    rw [h.eight, h.bits] at hbytes
    exact hbytes.symm
  rw [hzeros, hlength]
  rfl

theorem Standard.Pads.length_padded {message length : List UInt8} {zeros blocks : Nat}
    (h : Pads message zeros length blocks) : (padded message).length = 64 * blocks := by
  rw [← h.padded_eq, ← h.whole, paddedWith]
  simp only [List.length_append, List.length_cons, List.length_replicate, h.eight]
  omega

/-! ### The digest of a text -/

theorem registers_sha1Bytes {message : List UInt8} {blocks : Nat}
    (h : (padded message).length = 64 * blocks) :
    (sha1Bytes message).registers = hash (messageWord (padded message)) blocks := by
  have hwords : (words (padded message)).map UInt32.toBitVec =
      (List.range (16 * blocks)).map (messageWord (padded message)) := words_eq (by omega)
  have hcount : (words (padded message)).length = 16 * blocks := by
    simpa using congrArg List.length hwords
  have hhash : (absorbBlocks (words (padded message)).length State.initial
      (words (padded message))).registers = hash (messageWord (padded message)) (0 + blocks) :=
    registers_absorbBlocks rfl (by omega) (by rw [hwords, List.range_eq_range', Nat.mul_zero])
  rw [Nat.zero_add] at hhash
  exact hhash

theorem toList_loop (bytes : ByteArray) (i : Nat) (found : List UInt8) :
    ByteArray.toList.loop bytes i found = found.reverse ++ bytes.data.toList.drop i := by
  fun_induction ByteArray.toList.loop bytes i found with
  | case1 i found h ih =>
    have hi : i < bytes.data.toList.length := h
    have hget : bytes.get! i = bytes.data.toList[i] := getElem!_pos bytes.data i h
    rw [ih, List.reverse_cons, List.append_assoc, List.drop_eq_getElem_cons hi, ← hget]
    rfl
  | case2 i found h =>
    have hi : bytes.data.toList.length ≤ i := Nat.not_lt.mp h
    rw [List.drop_of_length_le hi, List.append_nil]

theorem toList_toUTF8 (s : String) :
    s.toUTF8.toList = s.toList.flatMap String.utf8EncodeChar := by
  have hbytes : s.toUTF8 = (s.toList.flatMap String.utf8EncodeChar).toByteArray :=
    String.utf8Encode_toList.symm
  rw [hbytes, ByteArray.toList, toList_loop]
  simp

theorem isDigest_sha1 (s : String) :
    IsDigest (s.toList.flatMap String.utf8EncodeChar) (sha1 s).toList := by
  have htext : (sha1 s).toList =
      (sha1Bytes (s.toList.flatMap String.utf8EncodeChar)).digits := by
    rw [sha1, toList_toUTF8, String.toList_ofList]
  rw [htext]
  refine ⟨State.digits_length _, fun c => mem_digitChars_of_mem_digits, exists_pads, ?_⟩
  intro zeros length blocks hpads
  have hblocks : 0 < blocks := by
    have hwhole := hpads.whole
    omega
  have hwritten := writes_digits (sha1Bytes (s.toList.flatMap String.utf8EncodeChar))
  rw [registers_sha1Bytes hpads.length_padded, ← hpads.padded_eq] at hwritten
  exact ⟨hblocks, hwritten⟩

-- fifty-six bytes, so that the padding takes a second block
example : sha1 "abcdbcdecdefdefgefghfghighijhijkijkljklmklmnlmnomnopnopq" =
    "84983e441c3bd26ebaae4aa1f95129e5e54670f1" := by decide +kernel

/-- Parses are kept under the digest of the standard. -/
theorem parses_kept_by_digest (source : String) :
    IsDigest (source.toList.flatMap String.utf8EncodeChar) (sha1 source).toList ∧
      ∀ dialect, (ParseCache.Key.of dialect source).digest = sha1 source :=
  ⟨isDigest_sha1 source, fun _ => rfl⟩

end ComponentAtlas.Digest
