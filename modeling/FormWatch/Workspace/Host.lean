import FormWatch.Text.Quoted

/-!
Hosts of URIs, as they are written: perhaps a user before an at sign, then a host, then perhaps a
colon and the number of a service. A host with brackets is an address of the sixth version of the
internet protocol, or of a later one, and fills its brackets; no host has a character that stands
for a delimiter.
-/

namespace FormWatch.Host

inductive Fault where
  -- A bracket stands without its partner, or something stands beside brackets.
  | bracket
  -- An address of a later version has no version or nothing after it.
  | laterAddress
  -- An address of the fourth version stands in brackets.
  | address4
  | noAddress (name : Text)
  -- A character stands for a delimiter.
  | delimiter (host : Text)
  deriving DecidableEq, Repr

def Fault.message : Fault → Text
  | bracket => "Invalid IPv6 URL".toList
  | laterAddress => "IPvFuture address is invalid".toList
  | address4 => "An IPv4 address cannot be in brackets".toList
  | noAddress name =>
    name.quoted ++ " does not appear to be an IPv4 or IPv6 address".toList
  | delimiter host =>
    "netloc '".toList ++ host ++
      "' contains invalid characters under NFKC normalization".toList

/-! ### Addresses -/

/-- A number up to 255 in decimal digits, without leading zeros. -/
def isOctet (part : Text) : Bool :=
  !part.isEmpty && part.length ≤ 3 && part.all Char.isDigit &&
    (part.head? ≠ some '0' || part.length = 1) &&
    part.foldl (fun value c => 10 * value + (c.toNat - '0'.toNat)) 0 ≤ 255

def isAddress4 (text : Text) : Bool :=
  let parts := Text.splitAt '.' text
  parts.length = 4 && parts.all isOctet

/-- Up to four hexadecimal digits. -/
def isGroup (part : Text) : Bool :=
  !part.isEmpty && part.length ≤ 4 && part.all fun c => (hexValue? c).isSome

/-- The number of groups on one side of a gap, where an empty part alone stands for none. -/
def groupsBesideGap? (parts : List Text) : Option Nat :=
  if parts = [[]] then some 0 else if parts.all isGroup then some parts.length else none

/-- Whether parts between colons make an address of eight groups. An empty part inside is a gap for
one missing group or more. -/
def areGroups (parts : List Text) : Bool :=
  let inside := parts.dropLast.drop 1
  match inside.dropWhile (· ≠ []) with
  | [] => parts.length = 8 && parts.all isGroup
  | _ :: rest =>
    match groupsBesideGap? (parts.take 1 ++ inside.takeWhile (· ≠ [])),
        groupsBesideGap? (rest ++ parts.drop (parts.length - 1)) with
    | some before, some after => before + after ≤ 7
    | _, _ => false

/-- The parts of an address between colons, in which an address of the fourth version at the end
stands for two groups. -/
def partsOfAddress? (address : Text) : Option (List Text) :=
  let parts := Text.splitAt ':' address
  let last := parts.getLast?.getD []
  if parts.length < 3 then none
  else if !last.contains '.' then some parts
  else if isAddress4 last then some (parts.dropLast ++ [['0'], ['0']])
  else none

/-- Whether a text is an address of the sixth version, perhaps with a zone after a percent sign. -/
def isAddress6 (text : Text) : Bool :=
  match Text.splitAt '%' text with
  | [address] => (partsOfAddress? address).any areGroups
  | [address, zone] => !zone.isEmpty && (partsOfAddress? address).any areGroups
  | _ => false

/-- Whether a text is `v`, a hexadecimal version, a point and an address. -/
def isLaterAddress (text : Text) : Bool :=
  match (text.drop 1).span fun c => (hexValue? c).isSome with
  | (version, '.' :: address) => !version.isEmpty && !address.isEmpty
  | _ => false

/-! ### Hosts -/

/-- What is wrong with a name that must be an address of the sixth version or a later one. -/
def addressFault? (name : Text) : Option Fault :=
  if name.head? = some 'v' then if isLaterAddress name then none else some .laterAddress
  else if isAddress4 name then some .address4
  else if isAddress6 name then none
  else some (.noAddress name)

def withoutUser (host : Text) : Text :=
  (host.reverse.takeWhile (· ≠ '@')).reverse

/-- What is wrong with a host that has brackets, of which the user may have some. Nothing stands
before a bracketed address, and after it only what begins with a colon. -/
def bracketFault? (host : Text) : Option Fault :=
  match (withoutUser host).span (· ≠ '[') with
  | ([], _ :: inside) =>
    let after := (inside.dropWhile (· ≠ ']')).drop 1
    if after.isEmpty || after.head? = some ':' then addressFault? (inside.takeWhile (· ≠ ']'))
    else some .bracket
  | (_, _ :: _) => some .bracket
  | (name, []) => addressFault? (name.takeWhile (· ≠ ':'))

/-- The code points beyond ASCII whose compatibility forms hold a slash, a question mark, a number
sign, an at sign or a colon (normalization form KC of Unicode 14). -/
def delimiterForms : List Nat :=
  [0x2047, 0x2048, 0x2049, 0x2100, 0x2101, 0x2105, 0x2106, 0x2a74, 0xfe13, 0xfe16, 0xfe55, 0xfe56,
    0xfe5f, 0xfe6b, 0xff03, 0xff0f, 0xff1a, 0xff1f, 0xff20]

/-- What is wrong with a host, as it is written in a URI. -/
def fault? (host : Text) : Option Fault :=
  let ofBrackets :=
    match host.contains '[', host.contains ']' with
    | false, false => none
    | true, true => bracketFault? host
    | _, _ => some .bracket
  let ofForms := if host.any (delimiterForms.contains ·.toNat) then some (.delimiter host) else none
  ofBrackets.or ofForms

end FormWatch.Host
