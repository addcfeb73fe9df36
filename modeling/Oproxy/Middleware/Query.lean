import Oproxy.Lib.Text

/-!
# Editing request URIs (`middleware/mod.rs`)

The helpers which read and edit the path and the query of a request URI, in origin form or in absolute form.
-/

namespace Oproxy

def pathOf (uri : Str) : Str :=
  let s := ((Str.splitOnce '?' uri).map Prod.fst).getD uri
  match Str.splitOnceStr "://" s with
  | some (_, afterScheme) => if '/' ∈ afterScheme then afterScheme.dropWhile (· ≠ '/') else "/"
  | none => s

def splitPathQuery (uri : Str) : Str × Str := (Str.splitOnce '?' uri).getD (uri, [])

/-- Parse `key=value` pairs from a raw query string. -/
def parseQuery (query : Str) : List (Str × Str) :=
  if query.isEmpty then []
  else ((Str.split '&' query).filter fun p => !p.isEmpty).map fun p => (Str.splitOnce '=' p).getD (p, [])

def buildQuery (pairs : List (Str × Str)) : Str :=
  List.intercalate "&" (pairs.map fun p => if p.2.isEmpty then p.1 else p.1 ++ '=' :: p.2)

/-- A URI from its path and the pairs of its query. -/
def withPairs (path : Str) (pairs : List (Str × Str)) : Str :=
  if (buildQuery pairs).isEmpty then path else path ++ '?' :: buildQuery pairs

/-- Write `value` at the first pair with the key `name`, or add a pair. -/
def setPair (name value : Str) : List (Str × Str) → List (Str × Str)
  | [] => [(name, value)]
  | p :: pairs => if p.1 = name then (p.1, value) :: pairs else p :: setPair name value pairs

def setQueryParam (uri name value : Str) : Str :=
  let (path, query) := splitPathQuery uri
  withPairs path (setPair name value (parseQuery query))

def removeQueryParam (uri name : Str) : Str :=
  let (path, query) := splitPathQuery uri
  withPairs path ((parseQuery query).filter fun p => p.1 ≠ name)

end Oproxy
