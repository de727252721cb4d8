import EsModule.Text.Blank
import EsModule.Url.Domain.Name

/-!
# Hosts and addresses

The host of an address is a name, an address of version 4 or an address of version 6. Under a
special scheme a name is one of the domain system: it is decoded, its letters are small, and a name
whose last part is a number has to be an address of version 4. Under any other scheme a name is
opaque.

Hosts, addresses and how they are written follow the URL Standard. Origins, the addresses of blobs,
and functions that change one part of an address are left out, since no loader asks for them.
-/

namespace EsModule.Url

open EsModule.Number EsModule.Text EsModule.Url.Domain

/-- Why a text is no address. -/
inductive UrlError where
  /-- There is neither a scheme nor a base. -/
  | relativeWithoutBase
  /-- The base cannot be one. -/
  | relativeToOpaque
  | emptyHost
  | invalidPort
  | invalidIpv4
  | invalidIpv6
  | invalidDomain
  | invalidHostCharacter
deriving DecidableEq

/-- The message for a reader. -/
def UrlError.message : UrlError → String
  | .relativeWithoutBase => "relative URL without a base"
  | .relativeToOpaque => "relative URL with a cannot-be-a-base base"
  | .emptyHost => "empty host"
  | .invalidPort => "invalid port number"
  | .invalidIpv4 => "invalid IPv4 address"
  | .invalidIpv6 => "invalid IPv6 address"
  | .invalidDomain => "invalid international domain name"
  | .invalidHostCharacter => "invalid domain character"

/-- A host. -/
inductive Host where
  /-- A name; it may be empty. -/
  | name (text : String)
  /-- An address of 32 bits. -/
  | ipv4 (address : Nat)
  /-- An address of eight groups of 16 bits. -/
  | ipv6 (groups : List Nat)
deriving DecidableEq

/-! ## Addresses of version 4 -/

/-- The number that a text is to a base, if all its characters are digits. -/
def numberToBase? (base : Nat) (cs : List Char) : Option Nat :=
  if cs.all (isDigitOf base) then some (readDigits base cs) else none

/-- The number that a part of an address of version 4 is: decimal, octal behind a zero, or
hexadecimal behind a zero and an x. -/
def ipv4Number? : List Char → Option Nat
  | [] => none
  | '0' :: 'x' :: cs | '0' :: 'X' :: cs => numberToBase? 16 cs
  | '0' :: c :: cs => numberToBase? 8 (c :: cs)
  | cs => numberToBase? 10 cs

/-- The parts of a domain name. An empty one at the end does not count. -/
def domainLabels (cs : List Char) : List (List Char) :=
  let labels := splitAtEach (· == '.') cs
  if labels.getLast? = some [] ∧ labels.length ≠ 1 then labels.dropLast else labels

/-- Whether the last part of a domain name is a number. -/
def endsInNumber (cs : List Char) : Bool :=
  match (domainLabels cs).getLast? with
  | some label => (!label.isEmpty && label.all Char.isDigit) || (ipv4Number? label).isSome
  | none => false

/-- The address that some numbers stand for: each but the last is one byte, and the last one fills
all bytes that are left. -/
def ipv4OfNumbers? : List Nat → Option Nat
  | [] => none
  | numbers@(_ :: _) =>
    let bytes := numbers.dropLast
    let last := numbers.getLastD 0
    if bytes.length ≤ 3 ∧ bytes.all (· < 256) ∧ last < Nat.pow 256 (4 - bytes.length) then
      some (bytes.foldl (fun n b => n * 256 + b) 0 * Nat.pow 256 (4 - bytes.length) + last)
    else none

/-- The address of version 4 that a domain name is. -/
def ipv4? (cs : List Char) : Option Nat := do
  ipv4OfNumbers? (← (domainLabels cs).mapM ipv4Number?)

/-- An address of version 4 in writing. -/
def ipv4Text (address : Nat) : String :=
  ".".intercalate ([3, 2, 1, 0].map fun k => toString (address / Nat.pow 256 k % 256))

/-! ## Addresses of version 6 -/

/-- How many groups an address of version 6 has. -/
def ipv6Size : Nat := 8

/-- One group of an address of version 6: one to four hexadecimal digits. -/
def ipv6Group? (cs : List Char) : Option Nat :=
  if cs.isEmpty ∨ 4 < cs.length then none else numberToBase? 16 cs

/-- A byte of an address of version 4 at the end of one of version 6: decimal, and without zeros in
front. -/
def dottedByte? (cs : List Char) : Option Nat :=
  if cs.isEmpty ∨ 3 < cs.length ∨ (cs.head? = some '0' ∧ cs.length ≠ 1) then none
  else (numberToBase? 10 cs).filter (· < 256)

/-- The two groups that an address of version 4 stands for. -/
def dottedGroups? (cs : List Char) : Option (List Nat) := do
  match ← (splitAtEach (· == '.') cs).mapM dottedByte? with
  | [a, b, c, d] => some [256 * a + b, 256 * c + d]
  | _ => none

/-- The groups of a part of an address of version 6 in which no groups are left out. Only the last
part of an address may end in one of version 4. -/
def ipv6Groups? (atEnd : Bool) (cs : List Char) : Option (List Nat) :=
  if cs.isEmpty then some []
  else
    let pieces := splitAtEach (· == ':') cs
    let last := pieces.getLastD []
    if atEnd ∧ last.contains '.' then do
      return (← pieces.dropLast.mapM ipv6Group?) ++ (← dottedGroups? last)
    else pieces.mapM ipv6Group?

/-- The text in front of the first double colon, and the text behind it. -/
def cutAtDoubleColon : List Char → Option (List Char × List Char)
  | ':' :: ':' :: cs => some ([], cs)
  | c :: cs => (cutAtDoubleColon cs).map fun (front, back) => (c :: front, back)
  | [] => none

/-- The groups of an address of version 6. A double colon stands for one or more groups of zero. -/
def ipv6? (cs : List Char) : Option (List Nat) :=
  match cutAtDoubleColon cs with
  | none => (ipv6Groups? true cs).filter (·.length = ipv6Size)
  | some (front, back) => do
    let front ← ipv6Groups? false front
    let back ← ipv6Groups? true back
    let left := ipv6Size - (front.length + back.length)
    if left = 0 then none else some (front ++ List.replicate left 0 ++ back)

/-- The length of the run of zeros at the front of some groups. -/
def zeroRun (groups : List Nat) : Nat := (groups.takeWhile (· == 0)).length

/-- The first longest run of at least two zeros, as its place and its length. -/
def longestZeroRun (groups : List Nat) : Option (Nat × Nat) :=
  let runs := (List.range groups.length).map fun i => (i, zeroRun (groups.drop i))
  runs.foldl (fun best run =>
    if run.2 < 2 then best
    else match best with
      | some b => if b.2 < run.2 then some run else best
      | none => some run) none

/-- A group in writing. -/
def groupText (n : Nat) : String := String.ofList (Nat.toDigits 16 n)

/-- An address of version 6 in writing, with its longest run of zeros left out. -/
def ipv6Text (groups : List Nat) : String :=
  let joined (gs : List Nat) : String := ":".intercalate (gs.map groupText)
  match longestZeroRun groups with
  | some (at_, size) => joined (groups.take at_) ++ "::" ++ joined (groups.drop (at_ + size))
  | none => joined groups

/-! ## Hosts -/

/-- A host in writing. -/
def Host.text : Host → String
  | .name text => text
  | .ipv4 address => ipv4Text address
  | .ipv6 groups => "[" ++ ipv6Text groups ++ "]"

/-- The host in brackets that a text is. -/
def bracketed (cs : List Char) : Except UrlError Host :=
  match cs.getLast?, ipv6? cs.dropLast with
  | some ']', some groups => .ok (.ipv6 groups)
  | _, _ => .error .invalidIpv6

/-- The host that a text is under a special scheme. -/
def Host.ofDomain : List Char → Except UrlError Host
  | '[' :: cs => bracketed cs
  | cs => do
    let some domain := Domain.name? cs | .error .invalidDomain
    if domain.isEmpty then .error .emptyHost
    else if endsInNumber domain then
      match ipv4? domain with
      | some address => .ok (.ipv4 address)
      | none => .error .invalidIpv4
    else .ok (.name (String.ofList domain))

/-- The host that a text is under any other scheme. -/
def Host.ofOpaque : List Char → Except UrlError Host
  | '[' :: cs => bracketed cs
  | cs =>
    if cs.any forbiddenInHost then .error .invalidHostCharacter
    else .ok (.name (String.ofList (percentEncode encodedAnywhere cs)))

end EsModule.Url

/-!
## Addresses

An address has a scheme, and behind it, as far as they are there, an authority, a path, a query and
a fragment. All parts are kept as they are written, that is, with their characters encoded.
`Url.text` writes an address; the parts between which a reader has to tell are parted by the
characters that the encoding removes from them.
-/

namespace EsModule

open Url

/-- Who serves an address. -/
structure Url.Authority where
  /-- The user, or an empty text. -/
  user : String
  /-- The password, or an empty text. -/
  password : String
  /-- The host. -/
  host : Host
  /-- The port, if it is not the usual one of the scheme. -/
  port : Option Nat
deriving DecidableEq

/-- The path of an address. -/
inductive Url.Path where
  /-- A text without structure. No other address can be relative to such a one. -/
  | opaqueText (text : String)
  /-- The parts behind the slashes. -/
  | parts (names : List String)
deriving DecidableEq

/-- An address. -/
structure Url where
  /-- The scheme, in small letters. -/
  scheme : String
  /-- Who serves it. -/
  authority : Option Authority
  /-- The path. -/
  path : Path
  /-- The query, without its question mark. -/
  query : Option String
  /-- The fragment, without its number sign. -/
  fragment : Option String
deriving DecidableEq

namespace Url

/-! ### Schemes -/

/-- The usual ports of the special schemes that have one. -/
def usualPorts : List (String × Nat) :=
  [("http", 80), ("https", 443), ("ws", 80), ("wss", 443), ("ftp", 21)]

/-- The scheme of files. -/
def fileScheme : String := "file"

/-- The three kinds of schemes, which are read by different rules. -/
inductive SchemeKind where
  | file
  /-- A scheme whose addresses always have a host. -/
  | web
  | other
deriving DecidableEq

/-- The kind of a scheme. -/
def SchemeKind.ofScheme (scheme : String) : SchemeKind :=
  if scheme = fileScheme then .file
  else if usualPorts.any (·.1 = scheme) then .web
  else .other

/-- Whether a backslash parts a path like a slash, and hosts are domain names. -/
def SchemeKind.isSpecial : SchemeKind → Bool
  | .other => false
  | _ => true

/-! ### Writing -/

/-- An authority in writing. -/
def Authority.text (a : Authority) : String :=
  let password := if a.password.isEmpty then "" else ":" ++ a.password
  let user := a.user ++ password
  (if user.isEmpty then "" else user ++ "@") ++ a.host.text ++
    (match a.port with | some port => ":" ++ toString port | none => "")

/-- A path in writing. -/
def Path.text : Path → String
  | .opaqueText text => text
  | .parts names => String.join (names.map ("/" ++ ·))

/-- What stands in front of a path that would otherwise be read as an authority. -/
def Path.guard (authority : Option Authority) (path : Path) : String :=
  match authority, path with
  | none, .parts ("" :: _ :: _) => "/."
  | _, _ => ""

/-- An address in writing. -/
def text (u : Url) : String :=
  u.scheme ++ ":" ++ (match u.authority with | some a => "//" ++ a.text | none => "") ++
    Path.guard u.authority u.path ++ u.path.text ++
    (match u.query with | some query => "?" ++ query | none => "") ++
    (match u.fragment with | some fragment => "#" ++ fragment | none => "")

end Url

end EsModule
