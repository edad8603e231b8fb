import Mathlib

/-!
# Generated secrets

`GenerateSecret` of `internal/core/id.go`. The bytes that are drawn are a parameter.
-/

namespace DeployMonster.Core

def base64Digit (n : ℕ) : Char :=
  "ABCDEFGHIJKLMNOPQRSTUVWXYZabcdefghijklmnopqrstuvwxyz0123456789-_".toList.getD (n % 64) 'A'

/-- Groups of three bytes, with padding for the last one. -/
def base64Chars : List UInt8 → List Char
  | [] => []
  | [a] =>
    let n := a.toNat * 65536
    [base64Digit (n / 262144), base64Digit (n / 4096), '=', '=']
  | [a, b] =>
    let n := a.toNat * 65536 + b.toNat * 256
    [base64Digit (n / 262144), base64Digit (n / 4096), base64Digit (n / 64), '=']
  | a :: b :: c :: bytes =>
    let n := a.toNat * 65536 + b.toNat * 256 + c.toNat
    base64Digit (n / 262144) :: base64Digit (n / 4096) :: base64Digit (n / 64) :: base64Digit n ::
      base64Chars bytes

variable (bytes : List UInt8)

def base64URL : String := String.ofList (base64Chars bytes)

def generateSecret : String := base64URL bytes

lemma length_base64URL : (base64URL bytes).length = 4 * ((bytes.length + 2) / 3) := by
  rw [base64URL, String.length_ofList]
  fun_induction base64Chars bytes with
  | case1 | case2 | case3 => simp
  | case4 a b c bytes n ih =>
    simp only [List.length_cons, ih]
    omega

example : base64URL [0xfb, 0xff, 0xfe, 0x41] = "-__-QQ==" := by decide +kernel

end DeployMonster.Core
