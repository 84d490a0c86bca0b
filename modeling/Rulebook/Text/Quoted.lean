import Rulebook.Text
import Rulebook.Text.Hex
import Rulebook.Text.Printable

set_option autoImplicit false

/-!
Quoted texts in messages: single quotes, or double quotes where the text has a single quote and no
double quote. The quote, backslashes, unprintable characters and surrogates are escaped.
-/

namespace Rulebook.Text

def numberEscape (n : Nat) : List Char :=
  if n < 0x100 then '\\' :: 'x' :: hexDigits 2 n
  else if n < 0x10000 then '\\' :: 'u' :: hexDigits 4 n
  else '\\' :: 'U' :: hexDigits 8 n

def escapeQuoted (quote c : Char) : List Char :=
  if c = quote ∨ c = '\\' then ['\\', c]
  else if c = '\t' then ['\\', 't']
  else if c = '\n' then ['\\', 'n']
  else if c = '\r' then ['\\', 'r']
  else if isPrintable c then [c]
  else numberEscape c.toNat

def quoteFor (s : Text) : Char :=
  if s.contains (.char '\x27') && !s.contains (.char '"') then '"' else '\x27'

def quoted (s : Text) : String :=
  let quote := quoteFor s
  let escaped := s.flatMap fun
    | .char c => escapeQuoted quote c
    | p => numberEscape p.number
  String.ofList (quote :: escaped ++ [quote])

end Rulebook.Text
