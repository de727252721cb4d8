import EsModule.Json.Basic
import EsModule.SourceMap.Generate

/-!
# Source maps as JSON

The members of a source map, in the order in which they are written.
-/

namespace EsModule.SourceMap

/-- The names of the members. -/
def memberNames : List String :=
  ["version", "file", "sources", "sourcesContent", "names", "mappings"]

/-- A source map as a JSON value. -/
def toJson (map : SourceMap) : Json :=
  .object (memberNames.zip
    [.ofNat map.version, .string map.file, .strings map.sources,
     .array (map.sourcesContent.map fun text => text.elim .null .string), .strings map.names,
     .string map.mappings])

/-- The text of a source map. -/
def jsonText (map : SourceMap) : String := map.toJson.render

/-- The versions that can be read take 32 bits. -/
def versionBound : Nat := Nat.pow 2 32

/-- The source map that a JSON value stands for. -/
def ofJson? (value : Json) : Option SourceMap := do
  match ← value.fields? memberNames with
  | [version, file, sources, sourcesContent, names, mappings] =>
    let version ← version.nat?
    guard (version < versionBound)
    return { version
             file := ← file.string?
             sources := ← sources.list? Json.string?
             sourcesContent := ← sourcesContent.list? (Json.nullable? Json.string?)
             names := ← names.list? Json.string?
             mappings := ← mappings.string? }
  | _ => none

end EsModule.SourceMap
