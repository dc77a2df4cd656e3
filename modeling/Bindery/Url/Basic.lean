import Bindery.Url.Host

/-!
# URLs

A URL has a scheme, mostly an authority, a path, and sometimes a query and a fragment. All parts are
kept as they are written: characters a part cannot hold are escaped.
-/
namespace Bindery

structure Authority where
  user : String := ""
  password : String := ""
  host : Host
  /-- None for the usual port of the scheme. -/
  port : Option Nat := none
  deriving DecidableEq, Repr

/-- A hierarchy of segments, or a text without structure. -/
inductive UrlPath where
  | segments (segments : List String)
  | flat (text : String)
  deriving DecidableEq, Repr

structure Url where
  scheme : String
  authority : Option Authority
  path : UrlPath
  query : Option String := none
  fragment : Option String := none
  deriving DecidableEq, Repr

/-- The usual ports of the schemes that name servers. -/
def usualPorts : List (String × Nat) :=
  [("http", 80), ("https", 443), ("ws", 80), ("wss", 443), ("ftp", 21)]

namespace Authority

def text (a : Authority) : String :=
  let password := if a.password.isEmpty then "" else ":" ++ a.password
  let login := if a.user.isEmpty && a.password.isEmpty then "" else a.user ++ password ++ "@"
  let port := match a.port with
    | none => ""
    | some n => ":" ++ toString n
  login ++ a.host.text ++ port

end Authority

namespace UrlPath

def text : UrlPath → String
  | .segments ss => String.join (ss.map ("/" ++ ·))
  | .flat s => s

end UrlPath

namespace Url

/-- What stands before the path. A path that starts with two slashes must not be read as an
authority. -/
def front (u : Url) : String :=
  match u.authority, u.path with
  | some a, _ => "//" ++ a.text
  | none, .segments ("" :: _ :: _) => "/."
  | none, _ => ""

def queryText (u : Url) : String :=
  match u.query with
  | none => ""
  | some q => "?" ++ q

/-- Path and query, which a server is asked for. -/
def target (u : Url) : String := u.path.text ++ u.queryText

def text (u : Url) : String :=
  let fragment := match u.fragment with
    | none => ""
    | some f => "#" ++ f
  u.scheme ++ ":" ++ u.front ++ u.target ++ fragment

end Url

end Bindery
