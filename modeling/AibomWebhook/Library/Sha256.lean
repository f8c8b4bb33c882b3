import Mathlib.Algebra.Ring.Int.Defs
import Mathlib.Algebra.Ring.Nat
import Mathlib.Tactic.Common

/-! SHA-256, HMAC-SHA256 and hexadecimal text, over lists of bytes. -/

namespace Sha256

abbrev Bytes := List UInt8

def roundConstants : List UInt32 := [
  0x428a2f98, 0x71374491, 0xb5c0fbcf, 0xe9b5dba5, 0x3956c25b, 0x59f111f1, 0x923f82a4, 0xab1c5ed5,
  0xd807aa98, 0x12835b01, 0x243185be, 0x550c7dc3, 0x72be5d74, 0x80deb1fe, 0x9bdc06a7, 0xc19bf174,
  0xe49b69c1, 0xefbe4786, 0x0fc19dc6, 0x240ca1cc, 0x2de92c6f, 0x4a7484aa, 0x5cb0a9dc, 0x76f988da,
  0x983e5152, 0xa831c66d, 0xb00327c8, 0xbf597fc7, 0xc6e00bf3, 0xd5a79147, 0x06ca6351, 0x14292967,
  0x27b70a85, 0x2e1b2138, 0x4d2c6dfc, 0x53380d13, 0x650a7354, 0x766a0abb, 0x81c2c92e, 0x92722c85,
  0xa2bfe8a1, 0xa81a664b, 0xc24b8b70, 0xc76c51a3, 0xd192e819, 0xd6990624, 0xf40e3585, 0x106aa070,
  0x19a4c116, 0x1e376c08, 0x2748774c, 0x34b0bcb5, 0x391c0cb3, 0x4ed8aa4a, 0x5b9cca4f, 0x682e6ff3,
  0x748f82ee, 0x78a5636f, 0x84c87814, 0x8cc70208, 0x90befffa, 0xa4506ceb, 0xbef9a3f7, 0xc67178f2]

structure State where
  a : UInt32
  b : UInt32
  c : UInt32
  d : UInt32
  e : UInt32
  f : UInt32
  g : UInt32
  h : UInt32

def initial : State where
  a := 0x6a09e667
  b := 0xbb67ae85
  c := 0x3c6ef372
  d := 0xa54ff53a
  e := 0x510e527f
  f := 0x9b05688c
  g := 0x1f83d9ab
  h := 0x5be0cd19

def rotr (word amount : UInt32) : UInt32 := (word >>> amount) ||| (word <<< (32 - amount))

def round (s : State) (scheduled : UInt32) : State :=
  let mixed := rotr s.e 6 ^^^ rotr s.e 11 ^^^ rotr s.e 25
  let choice := (s.e &&& s.f) ^^^ ((~~~ s.e) &&& s.g)
  let first := s.h + mixed + choice + scheduled
  let spread := rotr s.a 2 ^^^ rotr s.a 13 ^^^ rotr s.a 22
  let majority := (s.a &&& s.b) ^^^ (s.a &&& s.c) ^^^ (s.b &&& s.c)
  { a := first + (spread + majority), b := s.a, c := s.b, d := s.c
    e := s.d + first, f := s.e, g := s.f, h := s.g }

/-- The message schedule, from a window of its sixteen latest words. -/
def expand : Nat → List UInt32 → List UInt32
  | 0, _ => []
  | _ + 1, [] => []
  | count + 1, oldest :: rest =>
    let early := rest.getD 0 0
    let late := rest.getD 13 0
    let low := rotr early 7 ^^^ rotr early 18 ^^^ (early >>> 3)
    let high := rotr late 17 ^^^ rotr late 19 ^^^ (late >>> 10)
    oldest :: expand count (rest ++ [oldest + low + rest.getD 8 0 + high])

def compress (s : State) (block : List UInt32) : State :=
  let t := (List.zipWith (· + ·) roundConstants (expand 64 block)).foldl round s
  { a := s.a + t.a, b := s.b + t.b, c := s.c + t.c, d := s.d + t.d
    e := s.e + t.e, f := s.f + t.f, g := s.g + t.g, h := s.h + t.h }

def pad (message : Bytes) : Bytes :=
  message ++ [0x80] ++ List.replicate ((119 - message.length % 64) % 64) 0 ++
    (List.range 8).reverse.map (fun place => UInt8.ofNat (message.length * 8 / 256 ^ place))

def words : Bytes → List UInt32
  | a :: b :: c :: d :: rest =>
    (a.toUInt32 <<< 24 ||| b.toUInt32 <<< 16 ||| c.toUInt32 <<< 8 ||| d.toUInt32) :: words rest
  | _ => []

/-- Blocks of sixteen words; `count` bounds their number. -/
def blocks : Nat → List UInt32 → List (List UInt32)
  | 0, _ => []
  | count + 1, text => if text.isEmpty then [] else text.take 16 :: blocks count (text.drop 16)

def bigEndian (word : UInt32) : Bytes :=
  [(word >>> 24).toUInt8, (word >>> 16).toUInt8, (word >>> 8).toUInt8, word.toUInt8]

def State.words (s : State) : List UInt32 := [s.a, s.b, s.c, s.d, s.e, s.f, s.g, s.h]

def sum256 (message : Bytes) : Bytes :=
  let text := Sha256.words (pad message)
  ((blocks text.length text).foldl compress initial).words.flatMap bigEndian

/-- A key longer than a block is hashed first, a shorter one is filled with zeros. -/
def blockKey (key : Bytes) : Bytes :=
  let short := if key.length > 64 then sum256 key else key
  short ++ List.replicate (64 - short.length) 0

def hmac (key message : Bytes) : Bytes :=
  sum256 ((blockKey key).map (· ^^^ 0x5c) ++ sum256 ((blockKey key).map (· ^^^ 0x36) ++ message))

/-! Hexadecimal text. -/

def hexDigits : List Char :=
  ['0', '1', '2', '3', '4', '5', '6', '7', '8', '9', 'a', 'b', 'c', 'd', 'e', 'f']

def hexDigit (value : Nat) : Char := hexDigits.getD value '0'

def encodeChars (bytes : Bytes) : List Char :=
  bytes.flatMap (fun byte => [hexDigit (byte.toNat / 16), hexDigit (byte.toNat % 16)])

def encodeToString (bytes : Bytes) : String := String.ofList (encodeChars bytes)

/-- The value of a digit in either case. -/
def hexValue (c : Char) : Option Nat :=
  if c.isDigit then some (c.toNat - 48)
  else if 'a' ≤ c ∧ c ≤ 'f' then some (c.toNat - 87)
  else if 'A' ≤ c ∧ c ≤ 'F' then some (c.toNat - 55)
  else none

def decodeChars : List Char → Option Bytes
  | [] => some []
  | [_] => none
  | high :: low :: rest => do
    let upper ← hexValue high
    let lower ← hexValue low
    let later ← decodeChars rest
    some (UInt8.ofNat (16 * upper + lower) :: later)

def decodeString (text : String) : Option Bytes := decodeChars text.toList

@[simp] theorem length_encodeChars (bytes : Bytes) : (encodeChars bytes).length = 2 * bytes.length := by
  induction bytes with
  | nil => rfl
  | cons byte rest ih =>
    have step : encodeChars (byte :: rest) =
        hexDigit (byte.toNat / 16) :: hexDigit (byte.toNat % 16) :: encodeChars rest := rfl
    rw [step, List.length_cons, List.length_cons, List.length_cons, ih]
    omega

theorem hexValue_hexDigit (value : Fin 16) : hexValue (hexDigit value.val) = some value.val := by
  revert value
  decide

theorem decodeChars_encodeChars (bytes : Bytes) : decodeChars (encodeChars bytes) = some bytes := by
  induction bytes with
  | nil => rfl
  | cons byte rest ih =>
    have step : encodeChars (byte :: rest) =
        hexDigit (byte.toNat / 16) :: hexDigit (byte.toNat % 16) :: encodeChars rest := rfl
    have size := byte.toNat_lt
    have upper := hexValue_hexDigit ⟨byte.toNat / 16, by omega⟩
    have lower := hexValue_hexDigit ⟨byte.toNat % 16, by omega⟩
    have whole : 16 * (byte.toNat / 16) + byte.toNat % 16 = byte.toNat := by omega
    simp only at upper lower
    simp only [step, decodeChars, upper, lower, ih, Option.bind_eq_bind, Option.bind_some, whole,
      UInt8.ofNat_toNat]

theorem decodeString_encodeToString (bytes : Bytes) : decodeString (encodeToString bytes) = some bytes := by
  simp [decodeString, encodeToString, decodeChars_encodeChars]

theorem hexDigit_mem (value : Nat) : hexDigit value ∈ hexDigits := by
  rw [hexDigit, List.getD_eq_getElem?_getD]
  by_cases inside : value < hexDigits.length
  · rw [List.getElem?_eq_getElem inside]
    exact List.getElem_mem inside
  · rw [List.getElem?_eq_none (by omega)]
    decide

theorem encodeChars_subset (bytes : Bytes) : ∀ c ∈ encodeChars bytes, c ∈ hexDigits := by
  intro c member
  obtain ⟨byte, _, digit⟩ := List.mem_flatMap.mp member
  simp only [List.mem_cons, List.not_mem_nil, or_false] at digit
  rcases digit with rfl | rfl <;> exact hexDigit_mem _

theorem length_sum256 (message : Bytes) : (sum256 message).length = 32 := by
  simp [sum256, State.words, bigEndian]

theorem length_hmac (key message : Bytes) : (hmac key message).length = 32 := length_sum256 _

/-! Keys with equal codes: they fill one block, or their hashes collide. -/

/-- Two texts with one hash. -/
def Collision (first second : Bytes) : Prop := first ≠ second ∧ sum256 first = sum256 second

/-- What the outer hash of a code is of. -/
def outerText (key message : Bytes) : Bytes :=
  (blockKey key).map (· ^^^ 0x5c) ++ sum256 ((blockKey key).map (· ^^^ 0x36) ++ message)

theorem length_blockKey (key : Bytes) : (blockKey key).length = 64 := by
  have short : (if key.length > 64 then sum256 key else key).length ≤ 64 := by
    split
    · rw [length_sum256]
      omega
    · omega
  rw [blockKey, List.length_append, List.length_replicate]
  omega

theorem outerText_eq_iff (first second message : Bytes) :
    outerText first message = outerText second message ↔ blockKey first = blockKey second := by
  constructor
  · intro same
    have lengths : ((blockKey first).map (· ^^^ 0x5c)).length = ((blockKey second).map (· ^^^ 0x5c)).length := by
      rw [List.length_map, List.length_map, length_blockKey, length_blockKey]
    have outer := (List.append_inj same lengths).1
    exact (List.map_inj_right fun left right => (UInt8.xor_left_inj 0x5c).mp).mp outer
  · intro same
    rw [outerText, outerText, same]

theorem hmac_eq_iff (first second message : Bytes) : hmac first message = hmac second message ↔
    blockKey first = blockKey second ∨ Collision (outerText first message) (outerText second message) := by
  have unfolded (key : Bytes) : hmac key message = sum256 (outerText key message) := rfl
  rw [unfolded, unfolded, ← outerText_eq_iff first second message, Collision]
  by_cases same : outerText first message = outerText second message
  · simp [same]
  · simp [same]

/-- Of keys that are not hashed, what fills one block differs by zeros at the end. -/
theorem countP_blockKey {key : Bytes} (short : key.length ≤ 64) : (blockKey key).countP (· ≠ 0) = key.countP (· ≠ 0) := by
  rw [blockKey, if_neg (by omega), List.countP_append, List.countP_replicate]
  simp

end Sha256
