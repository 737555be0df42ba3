import Quarry.Settings.Basic
import Quarry.Text.Case
import Quarry.Text.Percent
import Quarry.Text.Digit

/-!
# Addresses of servers

The address of a server names, behind its scheme, an authority and a path:
`//user:password@host:port/database`. Every part may be missing. The host may be an IPv6 address in
brackets, user, password and database are percent-encoded, and what follows a `?` or a `#` is not
used. `Address.overlay` puts the parts that are there over the settings.
-/

set_option autoImplicit false

namespace Quarry

/-- The parts of an address that are there. -/
structure Address where
  host : Option String
  port : Option Nat
  user : Option String
  password : Option String
  database : Option String

namespace Address

/-- The text up to a character that ends the authority, and the rest from there on. -/
def cutAuthority (cs : List Char) : List Char × List Char :=
  let ends := fun c => c == '/' || c == '?' || c == '#'
  (cs.takeWhile fun c => !ends c, cs.dropWhile fun c => !ends c)

/-- The number of an IPv4 address' part: up to three ASCII digits without leading zeros. -/
def isOctet (cs : List Char) : Bool :=
  !cs.isEmpty && cs.length <= 3 && cs.all Text.isAsciiDigit && (cs == ['0'] || cs.head? != some '0') &&
    Text.asciiNat cs <= 255

/-- Whether a text is an IPv4 address. -/
def isV4 (cs : List Char) : Bool :=
  let parts := Text.splitAt '.' cs
  parts.length == 4 && parts.all isOctet

/-- Whether a character is a hexadecimal digit. -/
def isHexDigit (c : Char) : Bool := (Text.hexValue? c).isSome

/-- Whether a text is a group of an IPv6 address. -/
def isGroup (cs : List Char) : Bool := !cs.isEmpty && cs.length <= 4 && cs.all isHexDigit

/-- The groups of an IPv6 address, an IPv4 address at its end counting as two. -/
def groupsOf? (cs : List Char) : Option (List (List Char)) :=
  let parts := Text.splitAt ':' cs
  let tail := parts.getLast?.getD []
  if parts.length < 3 then none
  else if tail.contains '.' then
    if isV4 tail then some (parts.dropLast ++ [['0'], ['0']]) else none
  else some parts

/-- The groups on one side of a gap; a side without groups leaves an empty text. -/
def sideGroups (side : List (List Char)) : List (List Char) := if side == [[]] then [] else side

/-- Whether a text is an IPv6 address without its zone: eight groups, or fewer with one gap that
stands for the missing ones. -/
def isV6Groups (cs : List Char) : Bool :=
  match groupsOf? cs with
  | none => false
  | some parts =>
    let inner := (parts.drop 1).dropLast
    match inner.filter List.isEmpty with
    | [] => parts.length == 8 && parts.all isGroup
    | [_] =>
      let gap := 1 + inner.findIdx List.isEmpty
      let front := sideGroups (parts.take gap)
      let back := sideGroups (parts.drop (gap + 1))
      front.length + back.length <= 7 && front.all isGroup && back.all isGroup
    | _ => false

/-- Whether a text is an IPv6 address, perhaps with a zone. -/
def isV6 (cs : List Char) : Bool :=
  match Text.cutFirst '%' cs with
  | none => isV6Groups cs
  | some (address, zone) => !zone.isEmpty && !zone.contains '%' && isV6Groups address

/-- Whether a text that starts with `v` has the form of addresses of versions to come. -/
def isFuture (cs : List Char) : Bool :=
  let rest := cs.drop 1
  let version := rest.takeWhile isHexDigit
  match rest.dropWhile isHexDigit with
  | '.' :: body => !version.isEmpty && !body.isEmpty
  | _ => false

/-- Check the text between brackets. -/
def checkBracketed (cs : List Char) : Except Error Unit :=
  if cs.head? == some 'v' then
    if isFuture cs then .ok () else refuse .futureHost
  else if isV4 cs then refuse .bracketedV4
  else if isV6 cs then .ok ()
  else refuse (.bracketedHost (String.ofList cs))

/-- The parts of an authority before and after its last `@`. -/
def cutHost (authority : List Char) : Option (List Char) × List Char :=
  match Text.cutLast '@' authority with
  | some (user, host) => (some user, host)
  | none => (none, authority)

/-- The host among the brackets of a location. There is nothing in front of a bracket and only a
port behind one. Brackets that belong to the credentials leave a host without brackets, which must
be an address all the same. -/
def bracketedPart (location : List Char) : Except Error (List Char) :=
  match Text.cutFirst '[' location with
  | none => .ok (Text.beforeFirst ':' location)
  | some (front, rest) =>
    let (host, behind) := (Text.cutFirst ']' rest).getD (rest, [])
    if !front.isEmpty || !(behind.isEmpty || behind.head? == some ':') then refuse .openBracket
    else .ok host

/-- Check that brackets come in pairs and hold an address. -/
def checkBrackets (authority : List Char) : Except Error Unit :=
  match authority.contains '[', authority.contains ']' with
  | false, false => .ok ()
  | true, true => do checkBracketed (← bracketedPart (cutHost authority).2)
  | _, _ => refuse .openBracket

/-- The characters that turn into a separator of addresses when text is brought into compatibility
form. -/
def foldingSeparators : List Nat :=
  [0x2047, 0x2048, 0x2049, 0x2100, 0x2101, 0x2105, 0x2106, 0x2A74, 0xFE13, 0xFE16, 0xFE55, 0xFE56,
    0xFE5F, 0xFE6B, 0xFF03, 0xFF0F, 0xFF1A, 0xFF1F, 0xFF20]

/-- Check that no character could be taken for a separator. -/
def checkSeparators (authority : List Char) : Except Error Unit :=
  if authority.any fun c => foldingSeparators.contains c.toNat then
    refuse (.foldedSeparator (String.ofList authority))
  else .ok ()

/-- The part after the first `c`, empty if there is none. -/
def afterFirst (c : Char) (cs : List Char) : List Char :=
  match Text.cutFirst c cs with
  | some (_, rest) => rest
  | none => []

/-- The name of a host and the text of its port. -/
def hostAndPort (cs : List Char) : List Char × List Char :=
  match Text.cutFirst '[' cs with
  | some (_, rest) => (Text.beforeFirst ']' rest, afterFirst ':' (afterFirst ']' rest))
  | none => (Text.beforeFirst ':' cs, afterFirst ':' cs)

/-- The name of a host in lower case, its zone left as it is. -/
def hostName (cs : List Char) : List Char :=
  match Text.cutFirst '%' cs with
  | some (name, zone) => Text.lower name ++ '%' :: zone
  | none => Text.lower cs

/-- A text if it is not empty. -/
def nonempty (cs : List Char) : Option String :=
  if cs.isEmpty then none else some (String.ofList cs)

/-- The number of a port; 0 gives none. -/
def portNumber (digits : List Char) : Except Error (Option Nat) :=
  let n := Text.asciiNat digits
  if 65535 < n then refuse .portRange else .ok (if n = 0 then none else some n)

/-- The number of the text of a port; an empty text gives none. -/
def readPort (cs : List Char) : Except Error (Option Nat) :=
  if cs.isEmpty then .ok none
  else if !cs.all Text.isAsciiDigit then refuse (.portText (String.ofList cs))
  else if Number.maxDigits < cs.length then refuse (.portDigits cs.length)
  else portNumber cs

/-- The authority and the path of the text behind a scheme. -/
def split (cs : List Char) : Except Error (List Char × List Char) :=
  match cs with
  | '/' :: '/' :: rest =>
    let (authority, path) := cutAuthority rest
    (checkBrackets authority).map fun _ => (authority, path)
  | _ => .ok ([], cs)

/-- Whether a character is not part of an address and is passed over. -/
def isIgnored (c : Char) : Bool := c == '\t' || c == '\r' || c == '\n'

/-- The parts of an address, from the text behind its scheme. -/
def parse (cs : List Char) : Except Error Address := do
  let (authority, rest) ← split (cs.filter fun c => !isIgnored c)
  let path := Text.beforeFirst '?' (Text.beforeFirst '#' rest)
  checkSeparators authority
  let (credentials, location) := cutHost authority
  let (host, portText) := hostAndPort location
  let port ← readPort portText
  let user := (credentials.map (Text.beforeFirst ':')).getD []
  let password := credentials.bind fun c => (Text.cutFirst ':' c).map (·.2)
  return {
    host := nonempty (hostName host)
    port := port
    user := (nonempty user).map fun _ => String.ofList (Text.Percent.decode user)
    password := password.map fun p => String.ofList (Text.Percent.decode p)
    database := (nonempty (path.dropWhile (· == '/'))).map fun t =>
      String.ofList (Text.Percent.decode t.toList)
  }

/-- The settings with the parts of an address put over them. -/
def overlay (url : String) (a : Address) (s : Settings) : Settings :=
  { s with
    url := .text url
    host := (a.host.map Value.text).getD s.host
    port := (a.port.map fun n => Value.int n).getD s.port
    user := (a.user.map Value.text).getD s.user
    password := (a.password.map Value.text).getD s.password
    database := (a.database.map Value.text).getD s.database }

end Address

end Quarry
