import EsModule.Url.Path

/-!
# Reading addresses

`Url.parse` reads an address that stands for itself, and `Url.join` one that may be relative to
another. Blanks at both ends, and tabs and line ends anywhere, do not count. What is read falls into
three kinds by its scheme: files, the other special schemes, and all the rest. Only an address
without a scheme, or one with the special scheme of its base and fewer than two slashes, is
relative.

The rules are those of the URL Standard, with UTF-8 as the only encoding of queries. Faults that the
standard reports of an address which can be read all the same are passed over: there is a result, or
the first fault that prevents one.
-/

namespace EsModule.Url

/-! ## Text -/

/-- Whether a character is removed from the ends of an address. -/
def isTrimmed (c : Char) : Bool := c.toNat ≤ 0x20

/-- A text without the characters that are removed from its ends. -/
def trimmed (s : String) : List Char :=
  ((s.toList.dropWhile isTrimmed).reverse.dropWhile isTrimmed).reverse

/-- Whether an authority ends in front of a character. -/
def endsAuthority (kind : SchemeKind) (c : Char) : Bool := isSlash kind c || endsPath c

/-! ## Query and fragment -/

/-- The fragment that some text behind a number sign is. -/
def fragmentOf (cs : List Char) : String := String.ofList (percentEncode encodedInFragment cs)

/-- The query and the fragment behind a path. -/
def queryAndFragment (kind : SchemeKind) : List Char → Option String × Option String
  | '#' :: cs => (none, some (fragmentOf cs))
  | '?' :: cs =>
    let query := percentEncode (encodedInQuery kind.isSpecial) (cs.takeWhile (· ≠ '#'))
    let fragment := match cs.dropWhile (· ≠ '#') with
      | _ :: rest => some (fragmentOf rest)
      | [] => none
    (some (String.ofList query), fragment)
  | _ => (none, none)

/-- An address with the query and the fragment that some text gives it. -/
def withQueryOf (u : Url) (kind : SchemeKind) (cs : List Char) : Url :=
  let (query, fragment) := queryAndFragment kind (withoutSkipped cs)
  { u with query := query, fragment := fragment }

/-! ## Paths -/

/-- An address with another path, of which some text gives the rest, and the query and the fragment
behind it. -/
def withPathOf (u : Url) (front : OpenPath) (cs : List Char) : Url :=
  let kind := SchemeKind.ofScheme u.scheme
  { u with path := (front.read kind cs).done kind }.withQueryOf kind (behindPath cs)

/-- The text of a path behind an authority, without its first slash. -/
def withoutFirstSlash (kind : SchemeKind) (cs : List Char) : List Char :=
  match cs.dropWhile isSkipped with
  | [] => []
  | c :: rest => if isSlash kind c then rest else c :: rest

/-- An address with the path behind its authority. Only outside of the special schemes it can be
empty. -/
def withPathBehindAuthority (u : Url) (cs : List Char) : Url :=
  let kind := SchemeKind.ofScheme u.scheme
  if !kind.isSpecial ∧ cs.head?.all endsPath then u.withPathOf .empty cs
  else u.withPathOf .root (withoutFirstSlash kind cs)

/-! ## Authorities -/

/-- The text in front of the last character of a kind, and the text behind it. -/
def cutAtLast (isCut : Char → Bool) (cs : List Char) : Option (List Char × List Char) :=
  let back := cs.reverse.takeWhile fun c => !isCut c
  match cs.reverse.drop back.length with
  | _ :: front => some (front.reverse, back.reverse)
  | [] => none

/-- The user and the password in front of an at sign. -/
def credentials (cs : List Char) : String × String :=
  let encode (cs : List Char) : String := String.ofList (percentEncode encodedInUserInfo cs)
  (encode (cs.takeWhile (· ≠ ':')), encode ((cs.dropWhile (· ≠ ':')).drop 1))

/-- How many characters stand in front of the port: a colon inside of brackets does not count. -/
def hostLength (inside : Bool) : List Char → Nat
  | [] => 0
  | c :: cs =>
    if c = ':' ∧ !inside then 0
    else hostLength (if c = '[' then true else if c = ']' then false else inside) cs + 1

/-- The greatest port. -/
def maxPort : Nat := 65535

/-- The port that some text gives, behind a colon or not. -/
def portOf (scheme : String) : List Char → Except UrlError (Option Nat)
  | ':' :: digits =>
    match numberToBase? 10 digits with
    | some port =>
      if maxPort < port then .error .invalidPort
      else if digits.isEmpty ∨ usualPorts.lookup scheme = some port then .ok none
      else .ok (some port)
    | none => .error .invalidPort
  | _ => .ok none

/-- The authority that some text is, and its path. -/
def authorityOf (scheme : String) (cs : List Char) : Except UrlError (Authority × List Char) := do
  let kind := SchemeKind.ofScheme scheme
  let isInside (c : Char) : Bool := !endsAuthority kind c
  let behind := cs.dropWhile isInside
  let (info, server) := match cutAtLast (· == '@') (cs.takeWhile isInside) with
    | some (info, server) => (some info, server)
    | none => (none, cs.takeWhile isInside)
  if info = some [] ∧ server = [] ∧ behind ≠ [] then throw .emptyHost
  let size := hostLength false server
  let hostText := server.take size
  if kind = .web ∧ hostText = [] then throw .emptyHost
  let host ← if kind.isSpecial then Host.ofDomain hostText else Host.ofOpaque hostText
  let (user, password) := (info.map credentials).getD ("", "")
  if hostText = [] ∧ (server ≠ [] ∨ user ≠ "" ∨ password ≠ "") then throw .emptyHost
  let isPort (c : Char) : Bool := !isAnySlash c
  let port ← portOf scheme ((server.drop size).takeWhile isPort)
  return (⟨user, password, host, port⟩, (server.drop size).dropWhile isPort ++ behind)

/-- The address whose authority some text starts with. -/
def behindSlashes (scheme : String) (cs : List Char) : Except UrlError Url := do
  let (authority, rest) ← authorityOf scheme cs
  let u : Url := ⟨scheme, some authority, .parts [], none, none⟩
  return u.withPathBehindAuthority rest

/-! ## Relative addresses -/

/-- The parts of the path of an address. -/
def Path.names : Path → List String
  | .parts names => names
  | .opaqueText _ => []

/-- The path without its last name, which is open. There is at least the first slash. -/
def Path.above (kind : SchemeKind) (path : Path) : OpenPath :=
  if path.names = [] then .root else OpenPath.clear kind { names := path.names }

/-- The address that some text without a path gives, relative to a base. -/
def joinTail (base : Url) (cs : List Char) : Url :=
  let kind := SchemeKind.ofScheme base.scheme
  match cs with
  | [] => { base with fragment := none }
  | '#' :: _ => { base with fragment := (queryAndFragment kind cs).2 }
  | _ => base.withQueryOf kind cs

/-- The address that some text gives, relative to a base that is no file. -/
def joinRelative (base : Url) (cs : List Char) : Except UrlError Url :=
  match cs with
  | [] | '?' :: _ | '#' :: _ => .ok (base.joinTail cs)
  | c :: rest =>
    if isAnySlash c then
      if (rest.head?.map isAnySlash).getD false then
        match cs with
        | '/' :: '/' :: behind => behindSlashes base.scheme behind
        | _ => behindSlashes base.scheme (cs.dropWhile isAnySlash)
      else .ok (base.withPathOf .root rest)
    else .ok (base.withPathOf (base.path.above .web) cs)

/-! ## Files -/

/-- The authority of a file on this machine. -/
def noHost : Authority := ⟨"", "", .name "", none⟩

/-- The host that some text names for a file. -/
def fileHost (cs : List Char) : Except UrlError Host := do
  if cs = [] then return .name ""
  let host ← Host.ofDomain cs
  return if host = .name "localhost" then .name "" else host

/-- The file of a path without a host. -/
def noHostFile (front : OpenPath) (cs : List Char) : Url :=
  (⟨fileScheme, some noHost, .parts [], none, none⟩ : Url).withPathOf front cs

/-- The file whose host some text starts with. The letter of a drive is no host, and a file on a
drive has none. -/
def fileBehindSlashes (cs : List Char) : Except UrlError Url := do
  let isInside (c : Char) : Bool := !(isAnySlash c || endsPath c)
  let hostText := withoutSkipped (cs.takeWhile isInside)
  if isDriveText hostText then return noHostFile .root cs
  let rest := cs.dropWhile isInside
  match ← fileHost hostText with
  | .name "" => return noHostFile .root rest
  | host =>
    let path := OpenPath.root.read .file (withoutFirstSlash .file rest)
    let host := if path.onDrive then .name "" else host
    let u : Url := ⟨fileScheme, some { noHost with host := host }, path.done .file, none, none⟩
    return u.withQueryOf .file (behindPath rest)

/-- The file that some text behind a single slash is. It is on the drive of its base, or else on the
host of its base. -/
def fileBehindSlash (base : Option Url) (cs : List Char) : Url :=
  match base with
  | none => noHostFile .root cs
  | some base =>
    let drive := (base.path.names.head?.filter isUsualDrive).getD ""
    if startsWithDrive cs then noHostFile .root cs
    else if drive = "" then base.withPathOf .root cs
    else noHostFile { names := [drive, ""] } cs

/-- The file that some text is, perhaps relative to a base. -/
def parseFile (base : Option Url) (cs : List Char) : Except UrlError Url :=
  match cs.dropWhile isSkipped, base with
  | [], none => .ok (noHostFile .root [])
  | [], some base => .ok (base.joinTail [])
  | c :: rest, base =>
    if isAnySlash c then
      match rest.dropWhile isSkipped with
      | d :: behind =>
        if isAnySlash d then fileBehindSlashes behind else .ok (fileBehindSlash base rest)
      | [] => .ok (fileBehindSlash base rest)
    else
      match base with
      | none => .ok (noHostFile .root cs)
      | some base =>
        if endsPath c then .ok (base.joinTail (withoutSkipped cs))
        else if startsWithDrive cs then .ok (noHostFile .root cs)
        else .ok (base.withPathOf (base.path.above .file) cs)

/-! ## Reading -/

/-- Whether a character may stand in a scheme, behind the first one. -/
def isSchemeChar (c : Char) : Bool := c.isAlphanum || "+-.".toList.contains c

/-- The scheme in front of some text, and the text behind its colon. -/
def schemeOf? (cs : List Char) : Option (String × List Char) :=
  let isInside (c : Char) : Bool := isSchemeChar c || isSkipped c
  let scheme := withoutSkipped (cs.takeWhile isInside)
  match cs.dropWhile isInside with
  | ':' :: rest =>
    if scheme.head?.any Char.isAlpha then some (String.ofList (scheme.map Char.toLower), rest)
    else none
  | _ => none

/-- The address with a scheme that is not special. -/
def parseOther (scheme : String) (cs : List Char) : Except UrlError Url :=
  match cs with
  | '/' :: '/' :: rest => behindSlashes scheme rest
  | '/' :: rest => .ok ((⟨scheme, none, .parts [], none, none⟩ : Url).withPathOf .root rest)
  | _ =>
    let path := percentEncode encodedAnywhere (cs.takeWhile fun c => !endsPath c)
    let u : Url := ⟨scheme, none, .opaqueText (String.ofList path), none, none⟩
    .ok (u.withQueryOf .other (behindPath cs))

/-- The address with a scheme, perhaps relative to a base of that scheme. -/
def parseWithScheme (base : Option Url) (scheme : String) (cs : List Char) : Except UrlError Url :=
  let base := base.filter (·.scheme = scheme)
  let counted := withoutSkipped cs
  match SchemeKind.ofScheme scheme with
  | .file => parseFile base cs
  | .other => parseOther scheme counted
  | .web =>
    match base, (counted.takeWhile isAnySlash).length with
    | some base, 0 | some base, 1 => joinRelative base counted
    | _, _ => behindSlashes scheme (counted.dropWhile isAnySlash)

/-- The address without a scheme, relative to a base. -/
def parseWithoutScheme (base : Option Url) (cs : List Char) : Except UrlError Url :=
  let counted := withoutSkipped cs
  match base with
  | none => .error .relativeWithoutBase
  | some base =>
    match counted, base.path with
    | '#' :: _, _ => .ok (base.joinTail counted)
    | _, .opaqueText _ => .error .relativeToOpaque
    | _, .parts _ =>
      if base.scheme = fileScheme then parseFile (some base) cs else joinRelative base counted

/-- The address that a text is, perhaps relative to a base. -/
def parseWith (base : Option Url) (s : String) : Except UrlError Url :=
  match schemeOf? (trimmed s) with
  | some (scheme, rest) => parseWithScheme base scheme rest
  | none => parseWithoutScheme base (trimmed s)

/-- The address that a text is. -/
def parse (s : String) : Except UrlError Url := parseWith none s

/-- The address that a text is, relative to another one. -/
def join (base : Url) (s : String) : Except UrlError Url := parseWith (some base) s

end EsModule.Url
