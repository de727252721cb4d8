import EsModule.Loader.Error
import EsModule.Toml.Read

/-!
# Configuration

A configuration says against which address relative ids are resolved, over which schemes modules may
be loaded, and how requests are made. Everything has a default, so a document only holds what
differs.
-/

namespace EsModule.Loader

/-- How requests are made. -/
structure HttpConfig where
  /-- After how many seconds a request is given up. -/
  timeoutSecs : Nat
  /-- How the loader names itself. -/
  userAgent : String
deriving DecidableEq

/-- What a loader is told about its surroundings. -/
structure Config where
  /-- The address that relative ids are resolved against. -/
  baseUrl : Option String
  /-- How requests are made. -/
  http : HttpConfig
  /-- The schemes over which modules may be loaded. -/
  allowedSchemes : List String
deriving DecidableEq

/-- How requests are made if nothing else is said. -/
def HttpConfig.standard : HttpConfig := ⟨30, "spacey-loader/0.1.0"⟩

namespace Config

/-- The configuration if nothing else is said. -/
def standard : Config := ⟨none, .standard, ["https", "http", "file"]⟩

/-- The address that relative ids are resolved against. -/
def base (c : Config) : Except LoadError (Option Url) :=
  match c.baseUrl with
  | none => .ok none
  | some url =>
    match Url.parse url with
    | .ok url => .ok (some url)
    | .error e => .error (.config ("base_url: " ++ e.message))

/-- A configuration whose address is one. -/
def validated (c : Config) : Except LoadError Config := do
  let _ ← c.base
  return c

/-- Whether modules may be loaded over a scheme. The case of letters does not count. -/
def allows (c : Config) (scheme : String) : Bool :=
  c.allowedSchemes.any fun allowed => allowed.toLower = scheme.toLower

/-! ## Documents -/

/-- The string that a value is. -/
def stringOf? : Toml.Value → Option String
  | .string s => some s
  | _ => none

/-- The natural number that a value is. -/
def natOf? : Toml.Value → Option Nat
  | .integer (.ofNat n) => some n
  | _ => none

/-- The list of strings that a value is. -/
def stringsOf? : Toml.Value → Option (List String)
  | .array items => items.mapM stringOf?
  | _ => none

/-- What a field holds: the standard value if the field is missing, and nothing if its value is of
another kind. -/
def field? {α : Type} (read : Toml.Value → Option α) (standard : α) (v : Option Toml.Value) :
    Option α :=
  match v with
  | none => some standard
  | some v => read v

/-- The settings for requests that a value is. An array gives the fields in their order, and a
moment is a table without any of them. -/
def httpOf? (v : Toml.Value) : Option HttpConfig :=
  let fields (timeout agent : Option Toml.Value) : Option HttpConfig := do
    return ⟨← field? natOf? HttpConfig.standard.timeoutSecs timeout,
      ← field? stringOf? HttpConfig.standard.userAgent agent⟩
  match v with
  | .table _ entries => fields (entries.lookup "timeout_secs") (entries.lookup "user_agent")
  | .array items => fields items[0]? items[1]?
  | .moment _ => fields none none
  | _ => none

/-- The configuration that the table of a document is. -/
def ofEntries? (entries : Toml.Entries) : Option Config := do
  return {
    baseUrl := ← field? (fun v => (stringOf? v).map some) none (entries.lookup "base_url")
    http := ← field? httpOf? HttpConfig.standard (entries.lookup "http")
    allowedSchemes := ← field? stringsOf? standard.allowedSchemes
      (entries.lookup "allowed_schemes") }

/-- The configuration that a document gives. -/
def ofDocument (source : String) : Except LoadError Config :=
  match (Toml.read? source).bind ofEntries? with
  | some config => config.validated
  | none => .error (.config "the document gives no configuration")

end Config

end EsModule.Loader
