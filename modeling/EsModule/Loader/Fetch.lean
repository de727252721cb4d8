import EsModule.Loader.Error
import EsModule.Loader.Table

/-!
# Fetching source text

A fetcher holds texts and redirections by address. An answer that is fixed for an address goes
before them. A redirection is joined to the address where it was found, and `maxLookups` bounds how
many addresses are looked up for one request. That an address is not there is an answer too; only a
request without any answer is an error.
-/

namespace EsModule.Loader

/-! ## Answers -/

/-- The answer to a request. -/
structure Response where
  /-- The status code. -/
  status : Nat
  /-- The address behind all redirections. -/
  finalUrl : Url
  /-- The text. -/
  body : String
deriving DecidableEq

/-- The least status code of a failure. -/
def failureStatus : Nat := 400

/-- Whether an answer gives the text that was asked for. -/
def Response.isSuccess (r : Response) : Bool := r.status < failureStatus

/-- An answer that does not depend on what is held. -/
inductive FixedAnswer where
  /-- There is no answer. -/
  | broken (reason : String)
  /-- A status and a text. -/
  | status (code : Nat) (body : String)
deriving DecidableEq

/-! ## Fetchers -/

/-- What can be fetched, by address. -/
structure Fetcher where
  /-- The texts. -/
  sources : Table String
  /-- The redirections. -/
  redirects : Table String
  /-- The addresses without an answer. -/
  broken : Table String
  /-- The addresses whose answer is fixed. -/
  status : Table (Nat × String)
  /-- How often a request is asked in vain before its answer is there. -/
  delays : Table Nat

namespace Fetcher

/-- A fetcher that holds nothing. -/
def empty : Fetcher := ⟨∅, ∅, ∅, ∅, ∅⟩

/-- How many addresses are looked up for one request. -/
def maxLookups : Nat := 10

/-- The answer at an address that is not redirected. -/
def held (f : Fetcher) (url : Url) : Response :=
  match f.sources[url.text]? with
  | some body => ⟨200, url, body⟩
  | none => ⟨404, url, ""⟩

/-- Follows redirections from an address, with so many lookups left. -/
def follow (f : Fetcher) (request : Url) : Nat → Url → Except LoadError Response
  | 0, _ => .error (.transport ("Too many redirects: " ++ request.text))
  | lookups + 1, url =>
    match f.redirects[url.text]? with
    | some target => do
      let next ← (url.join target).mapError (.ofUrl target)
      f.follow request lookups next
    | none => .ok (f.held url)

/-- The answer that is fixed for an address. -/
def fixed? (f : Fetcher) (url : Url) : Option FixedAnswer :=
  match f.broken[url.text]?, f.status[url.text]? with
  | some reason, _ => some (.broken reason)
  | none, some (code, body) => some (.status code body)
  | none, none => none

/-- The answer to a request. -/
def retrieve (f : Fetcher) (url : Url) : Except LoadError Response :=
  match f.fixed? url with
  | some (.broken reason) => .error (.transport reason)
  | some (.status code body) => .ok ⟨code, url, body⟩
  | none => f.follow url maxLookups url

/-- A fetcher that holds more. -/
def add (f more : Fetcher) : Fetcher where
  sources := f.sources.addAll more.sources.toList
  redirects := f.redirects.addAll more.redirects.toList
  broken := f.broken.addAll more.broken.toList
  status := f.status.addAll more.status.toList
  delays := f.delays.addAll more.delays.toList

end Fetcher

/-! ## Choosing by scheme -/

/-- A fetcher that counts its requests and may serve some schemes only. -/
structure SchemeFetcher where
  /-- The fetcher behind it. -/
  fetcher : Fetcher
  /-- The schemes that it serves, in any case of letters; without any given it serves all. -/
  schemes : Option (List String)
  /-- How many requests it has passed on. -/
  requests : Nat

namespace SchemeFetcher

/-- Whether a scheme is served. -/
def serves (f : SchemeFetcher) (scheme : String) : Bool :=
  match f.schemes with
  | some schemes => schemes.any (·.toLower = scheme)
  | none => true

/-- The answer to a request, and the fetcher behind it. -/
def retrieve (f : SchemeFetcher) (url : Url) : Except LoadError Response × SchemeFetcher :=
  if f.serves url.scheme then
    (f.fetcher.retrieve url, { f with requests := f.requests + 1 })
  else (.error (.transport ("No fetcher for scheme '" ++ url.scheme ++ "'")), f)

end SchemeFetcher

end EsModule.Loader
