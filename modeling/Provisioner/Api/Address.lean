/-!
# Addresses

The address of a request comes in one of four forms: a path with a query, the same behind a scheme
and an authority, an authority alone, or an asterisk. All that counts of it is its path and its
query, which are kept as they are written; a fragment is dropped. An authority alone has an empty
path, and one in front of no path has the path `/`.
-/

namespace Provisioner.Api

/-- The address of a request. -/
structure Address where
  path : List Char
  /-- What follows the first question mark. -/
  query : List Char
deriving DecidableEq, Repr

namespace Address

/-- The greatest length of an address, in bytes. -/
def lengthLimit : Nat := 65534

/-- The characters that a path may hold. -/
def isPathChar (c : Char) : Bool :=
  0x21 ≤ c.toNat && c ∉ ['#', '<', '>', '?', '\x60']

/-- The characters that a query may hold. -/
def isQueryChar (c : Char) : Bool := 0x21 ≤ c.toNat && c ∉ ['"', '#', '<', '>']

/-- Reads a path with a query. -/
def ofPath? (text : List Char) : Option Address :=
  let address := text.takeWhile (· ≠ '#')
  let path := address.takeWhile (· ≠ '?')
  let query := address.drop (path.length + 1)
  if path.all isPathChar && query.all isQueryChar then some ⟨path, query⟩ else none

/-! ## Authorities -/

/-- The characters that an authority may hold besides those that divide it. -/
def isAuthorityChar (c : Char) : Bool :=
  c.isAlphanum ||
    ['!', '$', '&', '\'', '(', ')', '*', '+', ',', '-', '.', ';', '=', '_', '~'].contains c

/-- What was seen of an authority. -/
structure Authority where
  /-- The colons since the last part began. -/
  colons : Nat
  opened : Bool
  closed : Bool
  /-- Whether a percent sign was seen since the last part began. -/
  percent : Bool

namespace Authority

/-- Reads one more character. -/
def push? (a : Authority) (c : Char) : Option Authority :=
  if c = ':' then some { a with colons := a.colons + 1 }
  else if c = '[' then if a.percent || a.opened then none else some { a with opened := true }
  else if c = ']' then
    if !a.opened || a.closed then none else some ⟨0, a.opened, true, false⟩
  else if c = '@' then some { a with colons := 0, percent := false }
  else if c = '%' then some { a with percent := true }
  else if isAuthorityChar c then some a
  else none

/-- Whether an authority may end here. -/
def isComplete (a : Authority) : Bool := a.opened == a.closed && a.colons ≤ 1 && !a.percent

end Authority

/-- Whether a text is an authority. -/
def isAuthority (text : List Char) : Bool :=
  !text.isEmpty && text.getLast? != some '@' &&
    (text.foldlM Authority.push? ⟨0, false, false, false⟩).any Authority.isComplete

/-! ## Schemes -/

/-- The characters of a scheme. -/
def isSchemeChar (c : Char) : Bool := c.isAlphanum || ['+', '-', '.', '~'].contains c

/-- What follows the scheme of an address, if it has one. -/
def afterScheme? (text : List Char) : Option (List Char) :=
  match text.dropWhile isSchemeChar with
  | ':' :: '/' :: '/' :: rest => some rest
  | _ => none

/-- The greatest length of a scheme. -/
def schemeLimit : Nat := 64

/-- Reads an authority with a path behind it. -/
def ofAuthority? (text : List Char) : Option Address :=
  let authority := text.takeWhile fun c => c ≠ '/' ∧ c ≠ '?' ∧ c ≠ '#'
  if isAuthority authority then
    (ofPath? (text.drop authority.length)).map fun address =>
      if address.path.isEmpty then { address with path := ['/'] } else address
  else none

/-- Reads an address. -/
def ofUri? (uri : List Char) : Option Address :=
  if lengthLimit < (String.ofList uri).utf8ByteSize then none
  else if uri = ['*'] then some ⟨uri, []⟩
  else if uri.head? = some '/' then ofPath? uri
  else
    match afterScheme? uri with
    | some rest =>
      if schemeLimit < (uri.takeWhile isSchemeChar).length then none else ofAuthority? rest
    | none => if isAuthority uri then some ⟨[], []⟩ else none

end Address

end Provisioner.Api
