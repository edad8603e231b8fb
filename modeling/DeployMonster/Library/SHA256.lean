import Mathlib

/-!
# SHA-256 and HMAC

The hash function of FIPS 180-4 and the message authentication code of RFC 2104 over it, on lists of
bytes, with the hexadecimal text of a digest.
-/

namespace SHA256

open List

abbrev Word := BitVec 32

def constants : List Word :=
  [0x428a2f98, 0x71374491, 0xb5c0fbcf, 0xe9b5dba5, 0x3956c25b, 0x59f111f1, 0x923f82a4, 0xab1c5ed5,
    0xd807aa98, 0x12835b01, 0x243185be, 0x550c7dc3, 0x72be5d74, 0x80deb1fe, 0x9bdc06a7, 0xc19bf174,
    0xe49b69c1, 0xefbe4786, 0x0fc19dc6, 0x240ca1cc, 0x2de92c6f, 0x4a7484aa, 0x5cb0a9dc, 0x76f988da,
    0x983e5152, 0xa831c66d, 0xb00327c8, 0xbf597fc7, 0xc6e00bf3, 0xd5a79147, 0x06ca6351, 0x14292967,
    0x27b70a85, 0x2e1b2138, 0x4d2c6dfc, 0x53380d13, 0x650a7354, 0x766a0abb, 0x81c2c92e, 0x92722c85,
    0xa2bfe8a1, 0xa81a664b, 0xc24b8b70, 0xc76c51a3, 0xd192e819, 0xd6990624, 0xf40e3585, 0x106aa070,
    0x19a4c116, 0x1e376c08, 0x2748774c, 0x34b0bcb5, 0x391c0cb3, 0x4ed8aa4a, 0x5b9cca4f, 0x682e6ff3,
    0x748f82ee, 0x78a5636f, 0x84c87814, 0x8cc70208, 0x90befffa, 0xa4506ceb, 0xbef9a3f7, 0xc67178f2]

structure State where
  (a b c d e f g h : Word)

def initial : State :=
  ⟨0x6a09e667, 0xbb67ae85, 0x3c6ef372, 0xa54ff53a, 0x510e527f, 0x9b05688c, 0x1f83d9ab, 0x5be0cd19⟩

/-- One round, with its constant and its word of the schedule. -/
def round (s : State) (k w : Word) : State :=
  let sum1 := s.e.rotateRight 6 ^^^ s.e.rotateRight 11 ^^^ s.e.rotateRight 25
  let choice := (s.e &&& s.f) ^^^ (~~~s.e &&& s.g)
  let temp1 := s.h + sum1 + choice + k + w
  let sum0 := s.a.rotateRight 2 ^^^ s.a.rotateRight 13 ^^^ s.a.rotateRight 22
  let majority := (s.a &&& s.b) ^^^ (s.a &&& s.c) ^^^ (s.b &&& s.c)
  ⟨temp1 + (sum0 + majority), s.a, s.b, s.c, s.d + temp1, s.e, s.f, s.g⟩

def nextWord (window : List Word) : Word :=
  let w1 := window.getD 1 0
  let w14 := window.getD 14 0
  let sigma0 := w1.rotateRight 7 ^^^ w1.rotateRight 18 ^^^ (w1 >>> 3)
  let sigma1 := w14.rotateRight 17 ^^^ w14.rotateRight 19 ^^^ (w14 >>> 10)
  window.getD 0 0 + sigma0 + window.getD 9 0 + sigma1

def rounds : List Word → List Word → State → State
  | [], _, s => s
  | k :: ks, window, s =>
    rounds ks (window.drop 1 ++ [nextWord window]) (round s k (window.getD 0 0))

def compress (s : State) (block : List Word) : State :=
  let t := rounds constants block s
  ⟨s.a + t.a, s.b + t.b, s.c + t.c, s.d + t.d, s.e + t.e, s.f + t.f, s.g + t.g, s.h + t.h⟩

def words : List UInt8 → List Word
  | a :: b :: c :: d :: bytes =>
    BitVec.ofNat 32 (((a.toNat * 256 + b.toNat) * 256 + c.toNat) * 256 + d.toNat) :: words bytes
  | _ => []

def bigEndian : ℕ → ℕ → List UInt8
  | 0, _ => []
  | n + 1, x => bigEndian n (x / 256) ++ [UInt8.ofNat x]

variable (message : List UInt8)

/-- The padded message: a bit, zeros up to the last eight bytes of a block, and the length in
bits. -/
def pad : List UInt8 :=
  message ++ 0x80 :: List.replicate ((119 - message.length % 64) % 64) 0 ++
    bigEndian 8 (8 * message.length)

/-- The first `n` blocks of a padded message mixed into the state. -/
def absorb : ℕ → State → List UInt8 → State
  | 0, s, _ => s
  | n + 1, s, bytes => absorb n (compress s (words (bytes.take 64))) (bytes.drop 64)

def State.bytes (s : State) : List UInt8 :=
  [s.a, s.b, s.c, s.d, s.e, s.f, s.g, s.h].flatMap fun w => bigEndian 4 w.toNat

def sum : List UInt8 :=
  (absorb ((pad message).length / 64) initial (pad message)).bytes

/-- The key as one block: a long one is hashed first, a short one is filled up with zeros. -/
def keyBlock (key : List UInt8) : List UInt8 :=
  let key := if key.length > 64 then sum key else key
  key ++ List.replicate (64 - key.length) 0

def utf8 (text : String) : List UInt8 := text.toUTF8.data.toList

def hmac (key message : List UInt8) : List UInt8 :=
  let block := keyBlock key
  sum (block.map (· ^^^ 0x5c) ++ sum (block.map (· ^^^ 0x36) ++ message))

def hexDigit (n : ℕ) : Char := "0123456789abcdef".toList.getD n '0'

def hex (bytes : List UInt8) : String :=
  String.ofList (bytes.flatMap fun b => [hexDigit (b.toNat / 16), hexDigit (b.toNat % 16)])

@[simp] lemma length_bigEndian (n x : ℕ) : (bigEndian n x).length = n := by
  induction n generalizing x with
  | zero => rfl
  | succ n ih => simp [bigEndian, ih]

@[simp] lemma length_sum : (sum message).length = 32 := by
  simp [sum, State.bytes]

@[simp] lemma length_hmac (key message : List UInt8) : (hmac key message).length = 32 := by
  simp [hmac]

@[simp] lemma length_hex (bytes : List UInt8) : (hex bytes).length = 2 * bytes.length := by
  simp [hex, length_flatMap, Nat.mul_comm]

lemma hexDigit_mem (n : ℕ) : hexDigit n ∈ "0123456789abcdef".toList := by
  rw [hexDigit, getD_eq_getElem?_getD]
  cases hn : "0123456789abcdef".toList[n]? with
  | none => decide
  | some c => exact mem_of_getElem? hn

lemma mem_of_mem_hex {bytes : List UInt8} {c : Char} (h : c ∈ (hex bytes).toList) :
    c ∈ "0123456789abcdef".toList := by
  simp only [hex, String.toList_ofList, mem_flatMap, mem_cons, not_mem_nil, or_false] at h
  obtain ⟨b, -, rfl | rfl⟩ := h <;> exact hexDigit_mem _

lemma hexDigit_inj : ∀ m < 16, ∀ n < 16, hexDigit m = hexDigit n → m = n := by decide

lemma hex_injective : Function.Injective hex := by
  intro as bs h
  replace h := String.ofList_inj.mp h
  induction as generalizing bs with
  | nil =>
    cases bs with
    | nil => rfl
    | cons b bs => cases h
  | cons a as ih =>
    cases bs with
    | nil => cases h
    | cons b bs =>
      simp only [flatMap_cons, cons_append, nil_append, cons.injEq] at h
      have ha := a.toNat_lt
      have hb := b.toNat_lt
      have hhigh := hexDigit_inj _ (by omega) _ (by omega) h.1
      have hlow := hexDigit_inj _ (by omega) _ (by omega) h.2.1
      rw [ih h.2.2, UInt8.toNat_inj.mp (show a.toNat = b.toNat by omega)]

example : hex (sum (utf8 "abc")) =
    "ba7816bf8f01cfea414140de5dae2223b00361a396177a9cb410ff61f20015ad" := by decide +kernel

end SHA256
