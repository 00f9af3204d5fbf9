import ApiScaffold.Number.Numeral
import ApiScaffold.Text.Split

/-!
# The path of a URL

A scheme and an authority are cut off in front; a fragment, a query and, for schemes that have them,
parameters of the last segment are cut off behind. A malformed authority has no path (`path?`).

The rules are those of a reader that is lenient about everything but the authority: its brackets
have to enclose an IPv6 address or the address of a version to come, and none of its characters may
have a compatibility form that holds a delimiter. Only the path is of use here, and it is cut out of
the text as it stands: nothing is unescaped.
-/

namespace ApiScaffold.Url

/-- The characters of a scheme. -/
def isSchemeChar (c : Char) : Bool := c.isAlpha || c.isDigit || c == '+' || c == '-' || c == '.'

/-- The schemes whose last path segment may carry parameters; no scheme is one of them. -/
def schemesWithParameters : List String := [
  "", "ftp", "hdl", "prospero", "http", "imap", "https", "shttp", "rtsp", "rtsps", "rtspu", "sip",
  "sips", "mms", "sftp", "tel"]

/-- The characters whose compatibility form holds a delimiter of URLs. -/
def delimiterForms : List Nat := [
  0x2047, 0x2048, 0x2049, 0x2100, 0x2101, 0x2105, 0x2106, 0x2A74, 0xFE13, 0xFE16, 0xFE55, 0xFE56,
  0xFE5F, 0xFE6B, 0xFF03, 0xFF0F, 0xFF1A, 0xFF1F, 0xFF20]

/-- A URL without controls and blanks in front and without tabs and line ends. -/
def clean (cs : List Char) : List Char :=
  (cs.dropWhile fun c => c.toNat ≤ 32).filter fun c => c != '\t' && c != '\r' && c != '\n'

/-- The scheme in small letters, if there is one, and the rest. -/
def splitScheme (cs : List Char) : String × List Char :=
  match Text.cutAt? ':' cs with
  | some (scheme, rest) =>
    if (scheme.head?.map Char.isAlpha).getD false && scheme.all isSchemeChar then
      (String.ofList (scheme.map Char.toLower), rest)
    else ("", cs)
  | none => ("", cs)

/-- A number from 0 to 255 without zeros in front. -/
def isOctet (cs : List Char) : Bool :=
  !cs.isEmpty && cs.length ≤ 3 && cs.all Char.isDigit
    && (cs.length == 1 || cs.head? != some '0')
    && ((Numeral.ofDigits? 10 cs).getD 256) ≤ 255

def isIPv4 (cs : List Char) : Bool :=
  let parts := Text.splitOn '.' cs
  parts.length == 4 && parts.all isOctet

/-- One group of an IPv6 address. -/
def isHextet (cs : List Char) : Bool :=
  !cs.isEmpty && cs.length ≤ 4 && cs.all fun c => (Numeral.digitValue? c).isSome

/-- The groups of an address, an IPv4 address at the end counted as two. -/
def addressGroups? (cs : List Char) : Option (List (List Char)) :=
  let parts := Text.splitOn ':' cs
  match parts.getLast? with
  | some last =>
    if parts.length < 3 then none
    else if last.contains '.' then
      if isIPv4 last then some (parts.dropLast ++ [['0'], ['0']]) else none
    else some parts
  | none => none

/-- Whether groups form an address: eight of them, or fewer around one gap. -/
def areAddress (parts : List (List Char)) : Bool :=
  let inner := (parts.drop 1).dropLast
  let first := (parts.head?.getD []).isEmpty
  let last := (parts.getLast?.getD []).isEmpty
  if parts.length > 9 then false
  else match inner.findIdx? List.isEmpty with
    | none => parts.length == 8 && parts.all isHextet
    | some i =>
      let before := (i + 1) - (if first then 1 else 0)
      let after := (parts.length - (i + 1) - 1) - (if last then 1 else 0)
      ((inner.drop (i + 1)).all fun part => !part.isEmpty)
        && !(first && before > 0) && !(last && after > 0)
        && before + after ≤ 7
        && (parts.filter fun part => !part.isEmpty).all isHextet

/-- An IPv6 address with an optional zone. -/
def isIPv6 (cs : List Char) : Bool :=
  let (address, zoneOk) := match Text.cutAt? '%' cs with
    | some (address, zone) => (address, !zone.isEmpty && !zone.contains '%')
    | none => (cs, true)
  zoneOk && match addressGroups? address with
    | some parts => areAddress parts
    | none => false

/-- A host of a version to come: `v`, hexadecimal digits, a point and something more. -/
def isFutureHost (cs : List Char) : Bool :=
  let rest := cs.dropWhile fun c => (Numeral.digitValue? c).isSome
  rest.length < cs.length && rest.head? == some '.' && rest.length > 1

/-- What stands in the first brackets of an authority. -/
def bracketedHost (authority : List Char) : List Char :=
  ((authority.dropWhile (· ≠ '[')).drop 1).takeWhile (· ≠ ']')

/-- Whether the brackets of an authority enclose an address and no character of it hides a
delimiter. -/
def isAuthority (cs : List Char) : Bool :=
  let bracketsOk :=
    if cs.contains '[' || cs.contains ']' then
      cs.contains '[' && cs.contains ']' && match bracketedHost cs with
        | 'v' :: rest => isFutureHost rest
        | host => isIPv6 host
    else true
  bracketsOk && !cs.any fun c => delimiterForms.contains c.toNat

/-- The rest of a URL after its authority, if it has one and it is sound. -/
def dropAuthority? (cs : List Char) : Option (List Char) :=
  match cs with
  | '/' :: '/' :: rest =>
    let inAuthority := fun (c : Char) => c != '/' && c != '?' && c != '#'
    if isAuthority (rest.takeWhile inAuthority) then some (rest.dropWhile inAuthority) else none
  | _ => some cs

/-- A path without the parameters of its last segment. -/
def dropParameters (cs : List Char) : List Char :=
  let last := Text.afterLast '/' cs
  cs.take (cs.length - last.length) ++ last.takeWhile (· ≠ ';')

/-- The path of a URL. -/
def path? (url : String) : Option String :=
  let (scheme, rest) := splitScheme (clean url.toList)
  (dropAuthority? rest).map fun rest =>
    let path := (rest.takeWhile (· ≠ '#')).takeWhile (· ≠ '?')
    String.ofList (if schemesWithParameters.contains scheme then dropParameters path else path)

end ApiScaffold.Url
