import Mathlib

/-!
# The password policy

`ValidatePasswordStrength` of `internal/auth/password.go`.
-/

namespace DeployMonster.Auth

/-- The blocklist of common passwords. -/
def commonPasswords : List String :=
  ["123456", "password", "12345678", "1234", "qwerty", "12345", "dragon", "pussy", "baseball",
    "football", "letmein", "monkey", "696969", "abc123", "mustang", "michael", "shadow", "master",
    "jordan", "harley", "1234567", "fuckme", "hunter", "fuckyou", "trustno1", "ranger", "buster",
    "thomas", "jordan23", "superman", "batman", "iloveyou", "sunshine", "ashley", "bailey",
    "admin", "admin123", "root", "root123", "deploy", "deploy123", "monster", "monster123"]

/-- The characters that count as special. -/
def isSpecial (r : Char) : Bool :=
  (33 ≤ r.toNat ∧ r.toNat ≤ 47) ∨ (58 ≤ r.toNat ∧ r.toNat ≤ 64) ∨ (91 ≤ r.toNat ∧ r.toNat ≤ 96) ∨
    (123 ≤ r.toNat ∧ r.toNat ≤ 126)

/-- The complaint about a password, if there is one. -/
def validatePasswordStrength (password : String) (minLength : ℕ) : Option String :=
  let minLength := if minLength = 0 then 12 else minLength
  if password.utf8ByteSize < minLength then
    some ("password must be at least " ++ toString minLength ++ " characters")
  else if ¬([Char.isUpper, Char.isLower, Char.isDigit, isSpecial].all password.toList.any) then
    some "password must contain uppercase, lowercase, digit, and special character"
  else if String.ofList (password.toList.map Char.toLower) ∈ commonPasswords then
    some "password is too common; choose a stronger password"
  else none

end DeployMonster.Auth
