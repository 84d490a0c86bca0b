import Rulebook.Json
import Rulebook.Text.Hex

set_option autoImplicit false

/-!
Writing JSON text. Compact text has no spaces, keeps characters beyond ASCII and writes null for
numbers that are not finite. Indented text puts every item on a line of its own, two spaces deeper,
and escapes all but printable ASCII; members are in their own order or sorted by key. Surrogates are
escaped in both. Compact text bounds the digits of integers nowhere; indented text is for documents whose
numbers can be written.
-/

namespace Rulebook.Json

def unitEscape (n : Nat) : List Char := '\\' :: 'u' :: Text.hexDigits 4 n

def shortEscape? : Char → Option Char
  | '"' => some '"'
  | '\\' => some '\\'
  | '\n' => some 'n'
  | '\r' => some 'r'
  | '\t' => some 't'
  | '\x0c' => some 'f'
  | '\x08' => some 'b'
  | _ => none

/-- Beyond the basic plane a character is written as a surrogate pair. -/
def unicodeEscape (c : Char) : List Char :=
  let n := c.toNat
  if n < 0x10000 then unitEscape n
  else unitEscape (0xD800 + (n - 0x10000) / 0x400) ++ unitEscape (0xDC00 + (n - 0x10000) % 0x400)

def escapeChar (asciiOnly : Bool) (c : Char) : List Char :=
  match shortEscape? c with
  | some e => ['\\', e]
  | none =>
    if c.toNat < 0x20 || (asciiOnly && 0x7F ≤ c.toNat) then unicodeEscape c else [c]

def escape (asciiOnly : Bool) : CodePoint → List Char
  | .char c => escapeChar asciiOnly c
  | p => unitEscape p.number

def quote (asciiOnly : Bool) (s : Text) : String :=
  "\"" ++ String.ofList (s.flatMap (escape asciiOnly)) ++ "\""

def indentedNumbers : NumberFormat :=
  { NumberFormat.display with
    infinity := "Infinity", negativeInfinity := "-Infinity", notANumber := "NaN" }

def compactNumbers : NumberFormat := ⟨-5, 16, 1, "null", "null", "null"⟩

def numberText (f : NumberFormat) : Number → String
  | .int n => toString n
  | .float x => f.write x

mutual

def compact : Json → String
  | null => "null"
  | bool b => if b then "true" else "false"
  | number n => numberText compactNumbers n
  | str s => quote false s
  | arr items => "[" ++ ",".intercalate (compactItems items) ++ "]"
  | obj members => "\x7b" ++ ",".intercalate (compactMembers members) ++ "\x7d"

def compactItems : List Json → List String
  | [] => []
  | v :: vs => v.compact :: compactItems vs

def compactMembers : List (Text × Json) → List String
  | [] => []
  | (k, v) :: ms => (quote false k ++ ":" ++ v.compact) :: compactMembers ms

end

mutual

/-- The same document with the members of every object sorted by key. -/
def sorted : Json → Json
  | arr items => arr (sortedItems items)
  | obj members => obj ((sortedMembers members).mergeSort fun a b => !Text.precedes b.1 a.1)
  | v => v

def sortedItems : List Json → List Json
  | [] => []
  | v :: vs => v.sorted :: sortedItems vs

def sortedMembers : List (Text × Json) → List (Text × Json)
  | [] => []
  | (k, v) :: ms => (k, v.sorted) :: sortedMembers ms

end

mutual

/-- Every number of the document has a text. -/
def isWritable : Json → Bool
  | number n => n.isWritable
  | arr items => areWritable items
  | obj members => areWritableMembers members
  | _ => true

def areWritable : List Json → Bool
  | [] => true
  | v :: vs => v.isWritable && areWritable vs

def areWritableMembers : List (Text × Json) → Bool
  | [] => true
  | (_, v) :: ms => v.isWritable && areWritableMembers ms

end

def newline (depth : Nat) : String := "\n" ++ String.ofList (List.replicate (2 * depth) ' ')

/-- Items on lines of their own between brackets; nothing between them if there is no item. -/
def bracketed (opening closing : String) (depth : Nat) (items : List String) : String :=
  if items.isEmpty then opening ++ closing
  else
    opening ++ newline (depth + 1) ++ ("," ++ newline (depth + 1)).intercalate items ++
      newline depth ++ closing

mutual

def indentedAt (depth : Nat) : Json → String
  | null => "null"
  | bool b => if b then "true" else "false"
  | number n => numberText indentedNumbers n
  | str s => quote true s
  | arr items => bracketed "[" "]" depth (indentedItems (depth + 1) items)
  | obj members => bracketed "\x7b" "\x7d" depth (indentedMembers (depth + 1) members)

def indentedItems (depth : Nat) : List Json → List String
  | [] => []
  | v :: vs => indentedAt depth v :: indentedItems depth vs

def indentedMembers (depth : Nat) : List (Text × Json) → List String
  | [] => []
  | (k, v) :: ms => (quote true k ++ ": " ++ indentedAt depth v) :: indentedMembers depth ms

end

def indented (v : Json) : String := indentedAt 0 v

end Rulebook.Json
