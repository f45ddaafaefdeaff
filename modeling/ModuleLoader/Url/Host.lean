import ModuleLoader.Text.Case
import ModuleLoader.Url.Address
import ModuleLoader.Url.Punycode

/-!
# Hosts of URLs

A host is a domain, an address of four bytes or, in brackets, one of eight groups.  The host of a
scheme without rules of its own is any text without the characters that delimit the parts of a URL.
-/

set_option autoImplicit false

namespace ModuleLoader.Url

open ModuleLoader.Text

/-- Whether a character may not stand in a host. -/
def isForbiddenInHost (c : Char) : Bool :=
  c == '\x00' || c == '\t' || c == '\n' || c == '\r' || c == ' ' || c == '#' || c == '/' ||
    c == ':' || c == '<' || c == '>' || c == '?' || c == '@' || c == '[' || c == '\\' ||
    c == ']' || c == '^' || c == '|'

/-- Whether a character may not stand in a domain. -/
def isForbiddenInDomain (c : Char) : Bool := isForbiddenInHost c || isControl c || c == '%'

/-- What a character of a domain counts as: a capital as its small letter, a full-width form as the
ASCII character it stands for, an ideographic full stop as a dot, and an invisible mark as nothing. -/
def domainChar (c : Char) : List Char :=
  let n := c.val.toNat
  if 0xFF01 ≤ n ∧ n ≤ 0xFF5E then lowerChar (Char.ofNat (n - 0xFEE0))
  else if n = 0x3002 ∨ n = 0xFF61 then ['.']
  else if n = 0xAD ∨ n = 0x200B ∨ n = 0x2060 ∨ n = 0xFEFF ∨ (0xFE00 ≤ n ∧ n ≤ 0xFE0F) then []
  else lowerChar c

/-- A label in ASCII characters. -/
def asciiLabel (label : List Char) : List Char :=
  if label.all (·.val.toNat < 128) then label else "xn--".toList ++ Punycode.encode label

/-- A domain in ASCII characters, label by label. -/
def asciiDomain (cs : List Char) : List Char :=
  joinChars '.' ((splitChars '.' (cs.flatMap domainChar)).map asciiLabel)

/-- A host in brackets, given what follows the opening one. -/
def bracketHost? (cs : List Char) : Option String :=
  if cs.getLast? = some ']' then
    (eightGroups? cs.dropLast).map fun groups => "[" ++ eightGroupsText groups ++ "]"
  else none

/-- A domain or an address of four bytes, as it is written. -/
def domainHost? (cs : List Char) : Option String := do
  let domain := asciiDomain (← decode? cs).toList
  if domain.isEmpty || domain.any isForbiddenInDomain then none
  else if endsInNumber domain then (fourBytes? domain).map fourBytesText
  else some (String.ofList domain)

/-- The host of a special scheme, as it is written. -/
def specialHost? : List Char → Option String
  | '[' :: r => bracketHost? r
  | cs => domainHost? cs

/-- The host of any other scheme, as it is written. -/
def plainHost? : List Char → Option String
  | '[' :: r => bracketHost? r
  | cs => if cs.any isForbiddenInHost then none else some (encode isControl cs)

end ModuleLoader.Url
