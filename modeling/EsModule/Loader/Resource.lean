import EsModule.SourceMap.Json
import EsModule.Text.Base64

/-!
# Compiled modules as they are kept

A resource is what compiling a module leaves: its code, the source map and the names of its exports,
together with where the module came from. It can be written as JSON and read back, so that another
loader need not compile the module again.
-/

namespace EsModule.Loader

open EsModule.SourceMap EsModule.Text

/-- A compiled module. -/
structure Resource where
  /-- Under which id the module is known. -/
  storeId : String
  /-- Where its text was served, behind all redirections. -/
  realUrl : String
  /-- The compiled code. -/
  code : String
  /-- Where the parts of the code come from. -/
  map : SourceMap
  /-- The names of the exports. -/
  exports : List String
deriving DecidableEq

namespace Resource

/-! ## JSON -/

/-- The names of the members. -/
def memberNames : List String := ["storeId", "realUrl", "code", "map", "exports"]

/-- A resource as a JSON value. -/
def toJson (r : Resource) : Json :=
  .object (memberNames.zip
    [.string r.storeId, .string r.realUrl, .string r.code, r.map.toJson, .strings r.exports])

/-- The text of a resource. -/
def jsonText (r : Resource) : String := r.toJson.render

/-- The resource that a JSON value stands for. -/
def ofJson? (value : Json) : Option Resource := do
  match ← value.fields? memberNames with
  | [storeId, realUrl, code, map, exports] =>
    return { storeId := ← storeId.string?
             realUrl := ← realUrl.string?
             code := ← code.string?
             map := ← SourceMap.ofJson? map
             exports := ← exports.list? Json.string? }
  | _ => none

/-! ## Code with comments -/

/-- The comments by which code names its source map. -/
def mapComments : List String := ["//# sourceMappingURL=", "//@ sourceMappingURL="]

/-- Whether a text occurs in another one. -/
def occursIn (part : List Char) : List Char → Bool
  | [] => part.isEmpty
  | c :: cs => part.isPrefixOf (c :: cs) || occursIn part cs

/-- Whether code names its source map already. -/
def namesMap (code : String) : Bool := mapComments.any fun c => occursIn c.toList code.toList

/-- The source map as an address that holds it. -/
def mapUrl (r : Resource) : String :=
  "data:application/json;base64," ++
    String.ofList (encodeBase64 r.map.jsonText.toUTF8.toList)

/-- The code with a comment that names the module and, if there is none yet, one that holds the
source map. -/
def annotatedCode (r : Resource) : String :=
  r.code ++ "\n//# sourceURL=" ++ r.storeId ++
    (if namesMap r.code then "" else "\n//# sourceMappingURL=" ++ r.mapUrl)

end Resource

end EsModule.Loader
