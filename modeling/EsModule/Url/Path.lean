import EsModule.Text.Blank
import EsModule.Url.Basic

/-!
# Reading paths

A path is read name by name, up to the query, the fragment or the end. The last name that is there
is open: text that follows is added to it, and a slash closes it. The name of one dot is left out,
and each name of two dots removes the name before it.

The first name of the path of a file may be the letter of a drive, which is then spelled with a
colon. Whatever looks like the letter of a drive is not removed by two dots.

Apart from drives this is how the URL Standard reads paths. With drives it follows what widespread
readers do where they differ from the standard: two dots keep a letter in front of the path however
it is spelled, and a relative path goes on in the last name of the base if that is open.
-/

namespace EsModule.Url

open EsModule.Text

/-! ## Text -/

/-- Whether a character is removed wherever it stands. -/
def isSkipped (c : Char) : Bool := c == '\t' || c == '\n' || c == '\r'

/-- The characters of a text that are not skipped. -/
def withoutSkipped (cs : List Char) : List Char := cs.filter fun c => !isSkipped c

/-- Whether a character is a slash, of either direction. -/
def isAnySlash (c : Char) : Bool := c == '/' || c == '\\'

/-- Whether a character parts the names of a path. -/
def isSlash (kind : SchemeKind) (c : Char) : Bool :=
  c == '/' || (kind.isSpecial && c == '\\')

/-- Whether a path ends in front of a character. -/
def endsPath (c : Char) : Bool := c == '?' || c == '#'

/-- What stands behind a path. -/
def behindPath (cs : List Char) : List Char := cs.dropWhile fun c => !endsPath c

/-! ## Names -/

/-- The spellings of one dot. -/
def singleDots : List String := [".", "%2e"]

/-- The spellings of two dots. -/
def doubleDots : List String := ["..", "%2e.", ".%2e", "%2e%2e"]

/-- Whether a name stands for the place where it is. -/
def isSingleDot (name : String) : Bool := singleDots.contains name.toLower

/-- Whether a name stands for the place above. -/
def isDoubleDot (name : String) : Bool := doubleDots.contains name.toLower

/-- Whether some characters are the letter of a drive and a mark behind it. -/
def isDriveText : List Char → Bool
  | [letter, mark] => letter.isAlpha && (mark == ':' || mark == '|')
  | _ => false

/-- Whether a name is the letter of a drive. -/
def isDrive (name : String) : Bool := isDriveText name.toList

/-- Whether a name is the letter of a drive in its usual spelling. -/
def isUsualDrive (name : String) : Bool := isDrive name && name.endsWith ":"

/-- The usual spelling of the letter of a drive. -/
def usualDrive (name : String) : String := String.ofList (name.toList.take 1 ++ [':'])

/-- Whether the first name of some text is the letter of a drive. -/
def startsWithDrive (cs : List Char) : Bool :=
  isDriveText (withoutSkipped (cs.takeWhile fun c => !(isAnySlash c || endsPath c)))

/-- The letter of a drive in its usual spelling, and the text behind it, if characters are skipped
between the two. -/
def driveBeforeGap? (piece : List Char) : Option (String × List Char) :=
  match piece.dropWhile isSkipped with
  | letter :: rest =>
    match rest.dropWhile isSkipped with
    | ':' :: gap :: behind =>
      if letter.isAlpha ∧ isSkipped gap ∧ withoutSkipped behind ≠ [] then
        some (String.ofList [letter, ':'], behind)
      else none
    | _ => none
  | [] => none

/-! ## Paths that are read -/

/-- A path while it is read. The last name is open. Without names not even the first slash is
there. -/
structure OpenPath where
  /-- The names. -/
  names : List String
  /-- Whether the first name was read as the letter of a drive. -/
  onDrive : Bool := false

namespace OpenPath

/-- The path of which nothing is read. -/
def empty : OpenPath := { names := [] }

/-- The path of which the first slash is read. -/
def root : OpenPath := { names := [""] }

/-- The open name. -/
def last (p : OpenPath) : String := p.names.getLastD ""

/-- Closes the open name. -/
def close (p : OpenPath) : OpenPath := { p with names := p.names ++ [""] }

/-- Adds text to the open name. -/
def write (p : OpenPath) (text : String) : OpenPath :=
  if text = "" then p else { p with names := p.names.dropLast ++ [p.last ++ text] }

/-- Clears the open name. In the path of a file the letter of a drive stays. -/
def clear (kind : SchemeKind) (p : OpenPath) : OpenPath :=
  if p.names = [] ∨ (kind = .file ∧ isUsualDrive p.last) then p
  else { p with names := p.names.dropLast ++ [""] }

/-- Opens the name above an empty one, unless it is the letter of a drive. -/
def reopen (p : OpenPath) : OpenPath :=
  match p.names.reverse with
  | "" :: name :: front =>
    if isDrive name then p else { p with names := (name :: front).reverse }
  | _ => p

/-- The letter of a drive alone is closed before any other text is added. -/
def closeDrive (kind : SchemeKind) (p : OpenPath) : OpenPath :=
  if kind = .file ∧ p.names.length = 1 ∧ isUsualDrive p.last then p.close else p

/-- Reads a name that is none of the dots. -/
def readPlain (kind : SchemeKind) (p : OpenPath) (name : String) : OpenPath :=
  if kind = .file ∧ p.names = [""] ∧ isDrive name then ⟨[usualDrive name], true⟩ else p.write name

/-- Reads a name, and the slash behind it if there is one. -/
def readName (kind : SchemeKind) (p : OpenPath) (piece : List Char) (hasSlash : Bool) : OpenPath :=
  let encoded (cs : List Char) : String :=
    String.ofList (percentEncode encodedInPath (withoutSkipped cs))
  let closed (p : OpenPath) : OpenPath := if hasSlash then p.close else p
  match (if kind = .file ∧ p.names = [""] then driveBeforeGap? piece else none) with
  | some (drive, behind) => closed ((p.write drive).close.write (encoded behind))
  | none =>
    let name := encoded piece
    let p := if name = "" then p else p.closeDrive kind
    if isDoubleDot name then
      let p := p.reopen.clear kind
      if hasSlash ∧ p.last ≠ "" then p.close else p
    else if isSingleDot name then if p.last ≠ "" then p.close else p
    else closed (p.readPlain kind name)

/-- Reads names with slashes between them. -/
def readNames (kind : SchemeKind) (p : OpenPath) : List (List Char) → OpenPath
  | [] => p
  | [piece] => p.readName kind piece false
  | piece :: pieces => (p.readName kind piece true).readNames kind pieces

/-- Reads the path that some text starts with. -/
def read (kind : SchemeKind) (p : OpenPath) (cs : List Char) : OpenPath :=
  p.readNames kind (splitAtEach (isSlash kind) (cs.takeWhile fun c => !endsPath c))

/-- The names without the empty ones in front. -/
def withoutEmptyFront : List String → List String
  | "" :: name :: names => withoutEmptyFront (name :: names)
  | names => names

/-- The path that was read. That of a file has no empty name in front of others. -/
def done (kind : SchemeKind) (p : OpenPath) : Path :=
  .parts (if kind = .file then withoutEmptyFront p.names else p.names)

end OpenPath

end EsModule.Url
