/-!
# Addresses of the web

How the address of a cluster is shown once a connection uses it: a path is never left out, the one
of the root being a slash.
-/

namespace CandyDrop.Url

/-- What stands in front of the host. -/
def schemeMark : List Char := ['/', '/']

/-- An address that has a host, split before its path. -/
def splitPath? : List Char → Option (List Char × List Char)
  | [] => none
  | c :: cs =>
    if schemeMark.isPrefixOf cs then
      let after := cs.drop schemeMark.length
      let host := after.takeWhile fun d => d != '/' && d != '?' && d != '#'
      some (c :: schemeMark ++ host, after.drop host.length)
    else (splitPath? cs).map fun (before, path) => (c :: before, path)

/-- An address with its path. -/
def withPath (url : String) : String :=
  match splitPath? url.toList with
  | some (before, path) =>
    if path.head? = some '/' then url else String.ofList (before ++ '/' :: path)
  | none => url

end CandyDrop.Url
