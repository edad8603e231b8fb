import Mathlib

/-!
# Addresses of the network

The part of the package `net` that the API server uses: it parses addresses and ranges of them, and
asks to which kinds an address belongs.

## Main definitions

* `NetIP`: the package, as what it answers.
* `netIPv4`: its answers for addresses of version 4.
* `netLoopback`: its answers on a host that knows the loopback address of version 6 only.
-/

namespace DeployMonster.Middleware

/-- The package `net`: addresses with their texts and kinds, and ranges of them. -/
structure NetIP where
  (Addr Range : Type)
  parseIP : String → Option Addr
  text : Addr → String
  text_ne_empty : ∀ a, text a ≠ ""
  (isPrivate isLoopback isLinkLocalUnicast : Addr → Bool)
  parseCIDR : String → Option Range
  contains : Range → Addr → Bool

/-- A number below 256 in decimal, without leading zeros. -/
def octet? (digits : List Char) : Option ℕ :=
  let value := digits.foldl (fun n c => 10 * n + (c.toNat - '0'.toNat)) 0
  if digits ≠ [] ∧ digits.all Char.isDigit ∧ (digits.length = 1 ∨ digits.head? ≠ some '0') ∧
      value < 256 then some value
  else none

/-- An address of version 4, by its four numbers. -/
structure IPv4 where
  (a b c d : ℕ)
  deriving DecidableEq

namespace IPv4

def ofChars? (text : List Char) : Option IPv4 :=
  match (text.splitOn '.').mapM octet? with
  | some [a, b, c, d] => some ⟨a, b, c, d⟩
  | _ => none

def toNat (ip : IPv4) : ℕ := ((ip.a * 256 + ip.b) * 256 + ip.c) * 256 + ip.d

def text (ip : IPv4) : String :=
  s!"{ip.a}.{ip.b}.{ip.c}.{ip.d}"

/-- The addresses that agree with one on its first `bits` bits. -/
structure Block where
  base : IPv4
  bits : ℕ

def Block.contains (block : Block) (ip : IPv4) : Bool :=
  ip.toNat / 2 ^ (32 - block.bits) = block.base.toNat / 2 ^ (32 - block.bits)

def Block.ofChars? (text : List Char) : Option Block :=
  match text.splitOn '/' with
  | [base, bits] => do
    let base ← IPv4.ofChars? base
    let bits ← octet? bits
    if bits ≤ 32 then some ⟨base, bits⟩ else none
  | _ => none

def privateBlocks : List Block :=
  [⟨⟨10, 0, 0, 0⟩, 8⟩, ⟨⟨172, 16, 0, 0⟩, 12⟩, ⟨⟨192, 168, 0, 0⟩, 16⟩]

end IPv4

/-- The package `net` on a network of version 4. -/
def netIPv4 : NetIP where
  Addr := IPv4
  Range := IPv4.Block
  parseIP s := IPv4.ofChars? s.toList
  text := IPv4.text
  text_ne_empty ip := by simp [IPv4.text]
  isPrivate ip := IPv4.privateBlocks.any (·.contains ip)
  isLoopback ip := ip.a = 127
  isLinkLocalUnicast ip := ip.a = 169 ∧ ip.b = 254
  parseCIDR s := IPv4.Block.ofChars? s.toList
  contains := IPv4.Block.contains

/-- The package `net` on a host that knows the loopback address of version 6. -/
def netLoopback : NetIP where
  Addr := Unit
  Range := Unit
  parseIP s := if s = "::1" then some () else none
  text _ := "::1"
  text_ne_empty _ := by decide
  isPrivate _ := false
  isLoopback _ := true
  isLinkLocalUnicast _ := false
  parseCIDR s := if s = "::1/128" then some () else none
  contains _ _ := true

end DeployMonster.Middleware
