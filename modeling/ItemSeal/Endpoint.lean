/-!
Addresses of services: a scheme, an authority and a path. A text may name a query and a fragment
as well; they are checked or passed over, and do not become part of the address.
-/

namespace ItemSeal

/-- The address of a service. -/
structure Endpoint where
  scheme : String
  /-- The host, with a user before it and a port after it if they are named. -/
  authority : String
  /-- Empty, or a slash and what follows it. -/
  path : String
  deriving DecidableEq, Repr

namespace Endpoint

/-! ## The scheme -/

/-- A character that a scheme may contain. -/
def isSchemeChar (c : Char) : Bool :=
  c.isAlphanum || c == '+' || c == '-' || c == '.' || c == '~'

/-- The number of characters that a scheme has at most. -/
def schemeLimit : Nat := 64

/-- The scheme in its usual form: the two of the web are written small. -/
def schemeOf (text : List Char) : String :=
  let small := String.ofList (text.map Char.toLower)
  if small = "http" ∨ small = "https" then small else String.ofList text

/-- The scheme of a text, and what follows the two slashes after it. -/
def splitScheme? (text : List Char) : Option (String × List Char) :=
  let scheme := text.takeWhile isSchemeChar
  match text.dropWhile isSchemeChar with
  | ':' :: '/' :: '/' :: rest =>
      if scheme.length ≤ schemeLimit then some (schemeOf scheme, rest) else none
  | _ => none

/-! ## The authority -/

/-- A character without a meaning of its own in an authority. -/
def isAuthorityChar (c : Char) : Bool :=
  c.isAlphanum || ['!', '$', '&', '\x27', '(', ')', '*', '+', ',', '-', '.', ';', '=', '_',
    '~'].contains c

/-- What has been seen of an authority. Colons and percent signs count from the user's end, or
from the end of a host in brackets, on. -/
structure AuthorityScan where
  colons : Nat := 0
  percent : Bool := false
  opened : Bool := false
  closed : Bool := false

/-- The number of colons that a host in brackets has at most. -/
def colonLimit : Nat := 8

/-- The scan after one more character; none if it cannot stand there. -/
def AuthorityScan.step (scan : AuthorityScan) (c : Char) : Option AuthorityScan :=
  if c = ':' then
    if scan.colons < colonLimit then some { scan with colons := scan.colons + 1 } else none
  else if c = '[' then
    if scan.percent || scan.opened then none else some { scan with opened := true }
  else if c = ']' then
    if scan.opened && !scan.closed then
      some { scan with closed := true, colons := 0, percent := false }
    else none
  else if c = '@' then some { scan with colons := 0, percent := false }
  else if c = '%' then some { scan with percent := true }
  else if isAuthorityChar c then some scan
  else none

/-- The text is an authority: it names something after the user, brackets come in one pair, at
most one colon is before the port, and percent signs are in the user or in brackets alone. -/
def isAuthority (text : List Char) : Bool :=
  match text.foldlM AuthorityScan.step {} with
  | some scan =>
      !text.isEmpty && text.getLast? != some '@' && scan.opened == scan.closed &&
        decide (scan.colons ≤ 1) && !scan.percent
  | none => false

/-! ## The rest -/

/-- A visible character that a query may contain. -/
def isQueryChar (c : Char) : Bool :=
  decide (0x21 ≤ c.toNat) && decide (c.toNat ≤ 0x7E) &&
    c != '"' && c != '#' && c != '<' && c != '>'

/-- A visible character that a path may contain: also the quote, but neither question
mark nor grave accent. -/
def isPathChar (c : Char) : Bool :=
  c == '"' || isQueryChar c && c != '?' && c.toNat != 0x60

/-- A character that ends a path. -/
def endsPath (c : Char) : Bool :=
  c == '?' || c == '#'

/-- What follows a path is an end, a fragment, or a query and perhaps a fragment. -/
def isAfterPath : List Char → Bool
  | '?' :: rest => (rest.takeWhile (· != '#')).all isQueryChar
  | _ => true

/-- The number of bytes that the text of an address stays below. -/
def textLimit : Nat := 65535

/-- The address that a text names. -/
def ofText? (text : String) : Option Endpoint := do
  let (scheme, rest) ← splitScheme? text.toList
  let inside := fun c => c != '/' && !endsPath c
  let authority := rest.takeWhile inside
  let rest := rest.dropWhile inside
  let path := rest.takeWhile fun c => !endsPath c
  let rest := rest.dropWhile fun c => !endsPath c
  if isAuthority authority && path.all isPathChar && isAfterPath rest &&
      decide (text.utf8ByteSize < textLimit) then
    some ⟨scheme, String.ofList authority, String.ofList path⟩
  else none

/-- The path with a slash at its end, the one that may be there included. -/
def pathWithSlash (path : List Char) : List Char :=
  if path.getLast? = some '/' then path else path ++ ['/']

/-- The text of the address that requests go to. -/
def text (endpoint : Endpoint) : String :=
  endpoint.scheme ++ "://" ++ endpoint.authority ++
    String.ofList (pathWithSlash endpoint.path.toList)

end Endpoint

end ItemSeal
