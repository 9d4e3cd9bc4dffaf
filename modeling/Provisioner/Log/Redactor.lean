import Provisioner.Text.Search

/-!
# Masking secrets

A secret is masked by its first three characters and three asterisks. Longer secrets are masked
before shorter ones, so that a secret which contains another is masked as a whole.
-/

namespace Provisioner

/-- Masks some secrets. -/
structure Redactor where
  /-- The secrets in the order in which they are masked. -/
  secrets : List String
deriving DecidableEq, Repr

namespace Redactor

/-- How many characters of a secret stay visible. -/
def visible : Nat := 3

/-- What stands behind the visible characters. -/
def stars : List Char := ['*', '*', '*']

/-- What stands in the place of a secret. -/
def mask (secret : List Char) : List Char := secret.take visible ++ stars

/-- A list without the items equal to the one in front of them. -/
def dropRepeats : List String → List String
  | a :: b :: rest => if a = b then dropRepeats (b :: rest) else a :: dropRepeats (b :: rest)
  | rest => rest

/-- A redactor of some secrets, longer ones (in bytes) first. Empty secrets are left out. -/
def ofSecrets (secrets : List String) : Redactor :=
  ⟨dropRepeats ((secrets.filter (· ≠ "")).mergeSort fun a b => b.utf8ByteSize ≤ a.utf8ByteSize)⟩

/-- Whether there is nothing to mask. -/
def isEmpty (r : Redactor) : Bool := r.secrets.isEmpty

/-- The line with every secret masked. -/
def redact (r : Redactor) (line : String) : String :=
  String.ofList (r.secrets.foldl
    (fun text secret => Text.replaceAll secret.toList (mask secret.toList) text) line.toList)

end Redactor

end Provisioner
