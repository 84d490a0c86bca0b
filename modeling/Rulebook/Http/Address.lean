import Rulebook.Text.Blank
import Rulebook.Text.Integer
import Rulebook.Text.Percent
import Rulebook.Text.Split

set_option autoImplicit false

/-!
Addresses of requests, `scheme://user@host:port/path?query#fragment`. Only the path matters, but the
other parts have to be well formed. Dot steps are resolved in the path before its escapes are decoded,
which happens twice, for the address and for the path.
-/

namespace Rulebook.Http

inductive AddressFault where
  | malformed
  /-- Requests with this scheme are not answered. -/
  | scheme
  deriving DecidableEq, Repr

/-- Resolves steps that stay in place and steps that go up. -/
def resolve (steps : List (List Char)) : List (List Char) :=
  (steps.foldl (fun done step =>
    if step = ['.'] then done
    else if step = ['.', '.'] then
      match done with
      | [] => []
      | [[]] => [[]]
      | _ :: done => done
    else step :: done) []).reverse

def normalPath (path : List Char) : List Char := Text.join '/' (resolve (Text.split '/' path))

/-- The path with one slash at its start. -/
def rooted (path : List Char) : List Char := '/' :: path.dropWhile (· == '/')

namespace Address

def longest : Nat := 65536

def isControl (c : Char) : Bool := c.toNat < 0x20 || c.toNat = 0x7F

def isSchemeChar (c : Char) : Bool := c.isAlphanum || c == '+' || c == '.' || c == '-'

/-- Takes the scheme off; an address that starts with a colon has an empty one. -/
def splitScheme (cs : List Char) : List Char × List Char :=
  match cs.span isSchemeChar with
  | (name, ':' :: rest) => if name.head?.all Char.isAlpha then (name, rest) else ([], cs)
  | _ => ([], cs)

/-- Takes off what follows two slashes. -/
def splitAuthority : List Char → List Char × List Char
  | '/' :: '/' :: rest => rest.span fun c => c != '/' && c != '?' && c != '#'
  | cs => ([], cs)

structure Authority where
  user : List Char
  host : List Char
  port : Option Int

def Authority.isPresent (a : Authority) : Bool := !a.user.isEmpty || !a.host.isEmpty || a.port.isSome

/-- A host in brackets goes up to the last bracket, any other up to a colon. -/
def splitHost (cs : List Char) : List Char × List Char :=
  if cs.head? = some '[' ∧ cs.contains ']' then
    let after := cs.reverse.takeWhile (· != ']')
    (cs.take (cs.length - after.length), after.reverse)
  else cs.span (· != ':')

/-- The user goes up to the last at sign. -/
def Authority.ofText? (cs : List Char) : Option Authority :=
  let after := (cs.reverse.takeWhile (· != '@')).reverse
  let user := cs.take (cs.length - after.length - 1)
  let (host, rest) := splitHost after
  match if rest.head? = some ':' then rest.tail else rest with
  | [] => some ⟨user, host, none⟩
  | port => (Text.readInt? (Text.trim port)).map fun n => ⟨user, host, some n⟩

/-- The path of an address, as it is written. An address without scheme and host is relative to the
root. -/
def writtenPath (address : String) : Except AddressFault (List Char) :=
  let cs := address.toList
  if longest < cs.length || cs.any isControl then .error .malformed
  else
    let (scheme, rest) := splitScheme cs
    let (authority, rest) := splitAuthority rest
    let path := rest.takeWhile fun c => c != '?' && c != '#'
    match Authority.ofText? authority with
    | none => .error .malformed
    | some a =>
      if scheme.isEmpty && !a.isPresent then
        if ['/', '/'].isPrefixOf path || path.head? = some ':' then .error .malformed
        else .ok (normalPath (rooted path))
      else if scheme.isEmpty || a.host.isEmpty then .ok (normalPath (rooted (normalPath path)))
      else if !(["http", "https"].contains (String.ofList (scheme.map Char.toLower))) then
        .error .scheme
      else if a.host.contains '[' then .error .malformed
      else .ok (normalPath path)

end Address

/-- The path that a written one leads to. -/
def decodedPath (written : List Char) : List Char :=
  if written.isEmpty then ['/'] else Text.percentDecode (Text.percentDecode written)

/-- The path that an address leads to. -/
def path (address : String) : Except AddressFault (List Char) :=
  (Address.writtenPath address).map decodedPath

end Rulebook.Http
