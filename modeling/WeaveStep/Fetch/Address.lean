import WeaveStep.Text.Quoted
import WeaveStep.Text.Split

/-! # Addresses

What the address of a file on a server says: its scheme, the host it names and the path on it.

* `Address.ofString`: takes an address apart; it is refused only for what it gives as its host.
* `Address.path`: the path, without the parameters of its last name. -/

namespace WeaveStep

open Text

/-! ## Failures -/

/-- Why a text is no address. -/
inductive AddressFailure
  /-- A bracket around the host is missing. -/
  | openBracket
  /-- The host in brackets is none of those that stand in brackets. -/
  | badVersion
  | badNumber (host : String)
  /-- The host holds characters that stand for one that ends it. -/
  | disguised (host : String)
  deriving DecidableEq, Repr

/-- The text of a failure. -/
def AddressFailure.message : AddressFailure → String
  | openBracket => "Invalid IPv6 URL"
  | badVersion => "IPvFuture address is invalid"
  | badNumber host => quoted host ++ " does not appear to be an IPv4 or IPv6 address"
  | disguised host =>
    "netloc '" ++ host ++ "' contains invalid characters under NFKC normalization"

/-! ## Hosts in brackets -/

/-- Whether a character is a digit to the base of sixteen. -/
def isHexDigit (c : Char) : Bool :=
  c.isDigit || ('a' ≤ c && c ≤ 'f') || ('A' ≤ c && c ≤ 'F')

/-- Whether a text is a number below 256 without idle zeros. -/
def isByteNumber (s : String) : Bool :=
  s.toList.all Char.isDigit && s.length ≤ 3 &&
    match s.toNat? with
    | some n => n < 256 && (s = "0" || s.toList.head? ≠ some '0')
    | none => false

/-- Whether a text is four small numbers between dots. -/
def isDottedQuad (s : String) : Bool :=
  (splitAt '.' s).length = 4 && (splitAt '.' s).all isByteNumber

/-- Whether a text is a group of a numeric host. -/
def isGroup (s : String) : Bool := s ≠ "" && s.length ≤ 4 && s.toList.all isHexDigit

/-- The groups of a numeric host, where four small numbers at the end stand for two of them. -/
def numericGroups? (s : String) : Option (List String) :=
  let groups := splitAt ':' s
  if groups.length < 3 then none
  else
    let last := groups.getLast?.getD ""
    if last.toList.contains '.' then
      if isDottedQuad last then some (groups.dropLast ++ ["0", "0"]) else none
    else some groups

/-- Whether these are all groups of one side of a gap; nothing stands beside a gap at the end. -/
def isSide (groups : List String) : Bool := groups = [""] || groups.all isGroup

/-- Whether groups make a numeric host: eight of them, or fewer with one gap between them. -/
def areNumericGroups (groups : List String) : Bool :=
  let inner := (groups.drop 1).dropLast
  match inner.count "" with
  | 0 => groups.length = 8 && groups.all isGroup
  | 1 =>
    let gap := inner.findIdx (· = "") + 1
    isSide (groups.take gap) && isSide (groups.drop (gap + 1)) &&
      (groups.filter (· ≠ "")).length ≤ 7
  | _ => false

/-- Whether a text is a numeric host, perhaps with its zone. -/
def isNumericHost (s : String) : Bool :=
  match splitAt '%' s with
  | [host] => (numericGroups? host).any areNumericGroups
  | [host, zone] => zone ≠ "" && (numericGroups? host).any areNumericGroups
  | _ => false

/-- Whether a text is a host of a later kind: `v`, a number, a dot and some text. -/
def isVersionedHost : List Char → Bool
  | 'v' :: rest =>
    let number := rest.takeWhile isHexDigit
    match rest.drop number.length with
    | '.' :: _ :: _ => !number.isEmpty
    | _ => false
  | _ => false

/-- Refuses a text that cannot stand in brackets. -/
def checkBracketed (host : String) : Except AddressFailure Unit :=
  if host.toList.head? = some 'v' then
    if isVersionedHost host.toList then .ok () else .error .badVersion
  else if isNumericHost host then .ok () else .error (.badNumber host)

/-! ## Hosts -/

/-- The characters outside ASCII that stand for one with `/`, `?`, `#`, `@` or `:` in it. -/
def disguises : List Char :=
  [0x2047, 0x2048, 0x2049, 0x2100, 0x2101, 0x2105, 0x2106, 0x2a74, 0xfe13, 0xfe16, 0xfe55, 0xfe56,
    0xfe5f, 0xfe6b, 0xff03, 0xff0f, 0xff1a, 0xff1f, 0xff20].map Char.ofNat

/-- What stands after the last `@` of a host with its user: the host and its port. -/
def withoutUser (host : List Char) : List Char := (host.reverse.takeWhile (· ≠ '@')).reverse

/-- Refuses a host with brackets, perhaps with a port, unless all of it stands in them. -/
def checkPlace (host : List Char) : Except AddressFailure Unit := do
  let front := host.takeWhile (· ≠ '[')
  match host.drop front.length with
  | [] => checkBracketed (String.ofList (host.takeWhile (· ≠ ':')))
  | _ :: rest =>
    let name := rest.takeWhile (· ≠ ']')
    let port := rest.drop (name.length + 1)
    if front ≠ [] ∨ (port ≠ [] ∧ port.head? ≠ some ':') then throw .openBracket
    checkBracketed (String.ofList name)

/-- Refuses a host with brackets that do not fit; those of its user have to come in both kinds, too. -/
def checkBrackets (host : List Char) : Except AddressFailure Unit :=
  match host.contains '[', host.contains ']' with
  | true, true => checkPlace (withoutUser host)
  | false, false => .ok ()
  | _, _ => .error .openBracket

/-- Refuses a host that could be taken for another one. -/
def checkDisguise (host : List Char) : Except AddressFailure Unit :=
  if host.any disguises.contains then .error (.disguised (String.ofList host)) else .ok ()

/-! ## Addresses -/

/-- A taken apart address. -/
structure Address where
  /-- The scheme, in small letters. -/
  scheme : String
  host : String
  /-- What follows the host, up to a query or a fragment. -/
  place : List Char

namespace Address

/-- Whether a character may stand in a scheme. -/
def isSchemeChar (c : Char) : Bool := c.isAlphanum || c = '+' || c = '-' || c = '.'

/-- The scheme in front of a colon, which begins with a letter, and what follows. -/
def scheme? (s : List Char) : Option (List Char × List Char) :=
  let front := s.takeWhile (· ≠ ':')
  if (s.contains ':' && front.head?.any Char.isAlpha && front.all isSchemeChar) then
    some (front.map Char.toLower, s.drop (front.length + 1))
  else none

/-- The host after two slashes, and what follows. -/
def splitHost : List Char → List Char × List Char
  | '/' :: '/' :: rest =>
    let host := rest.takeWhile fun c => c ≠ '/' && c ≠ '?' && c ≠ '#'
    (host, rest.drop host.length)
  | rest => ([], rest)

/-- Takes an address apart. Blanks and control characters in front of it are left out, and so are
line ends and tabs anywhere. -/
def ofString (s : String) : Except AddressFailure Address := do
  let kept := (s.toList.dropWhile (· ≤ ' ')).filter fun c => c ≠ '\t' && c ≠ '\r' && c ≠ '\n'
  let (scheme, rest) := (scheme? kept).getD ([], kept)
  let (host, rest) := splitHost rest
  checkBrackets host
  checkDisguise host
  return ⟨String.ofList scheme, String.ofList host,
    (rest.takeWhile (· ≠ '#')).takeWhile (· ≠ '?')⟩

/-- The schemes whose paths may end in parameters. -/
def parameterSchemes : List String :=
  ["", "ftp", "hdl", "prospero", "http", "imap", "https", "shttp", "rtsp", "rtspu", "sip", "sips", "mms",
    "sftp", "tel"]

/-- A path without the parameters of its last name, which a semicolon sets off. -/
def withoutParameters (path : List Char) : List Char :=
  let last := (path.reverse.takeWhile (· ≠ '/')).reverse
  path.take (path.length - last.length) ++ last.takeWhile (· ≠ ';')

/-- The path of an address. -/
def path (a : Address) : String :=
  String.ofList (if a.scheme ∈ parameterSchemes then withoutParameters a.place else a.place)

end Address

end WeaveStep
