import FleetControl.Url.Host

namespace FleetControl

inductive Url.Path
  | rooted (segments : List String)
  | rootless (text : String)
deriving DecidableEq, Repr

structure Url.Authority where
  user : String
  password : Option String
  host : Option Url.Host
  port : Option Nat
deriving DecidableEq, Repr

structure Url where
  scheme : String
  authority : Option Url.Authority
  path : Url.Path
  query : Option String
  fragment : Option String
deriving DecidableEq, Repr

namespace Url

def Path.segments : Path → List String
  | rooted segments => segments
  | rootless _ => []

def Path.render : Path → String
  | rooted segments => String.join (segments.map fun s => "/" ++ s)
  | rootless text => text

namespace Authority

def empty : Authority := ⟨"", none, none, none⟩

def userInfo (a : Authority) : String :=
  let password := (a.password.map fun p => ":" ++ p).getD ""
  if a.user = "" ∧ a.password = none then "" else a.user ++ password ++ "@"

def render (a : Authority) : String :=
  a.userInfo ++ ((a.host.map Host.render).getD "") ++ ((a.port.map fun p => s!":{p}").getD "")

end Authority

/-- A path that begins with two slashes would read as an authority; a dot is put before it. -/
def guard (u : Url) : String :=
  match u.authority, u.path with
  | none, .rooted ("" :: _ :: _) => "/."
  | _, _ => ""

def authorityText (u : Url) : String := (u.authority.map fun a => "//" ++ a.render).getD ""

def queryText (u : Url) : String := (u.query.map fun q => "?" ++ q).getD ""

def fragmentText (u : Url) : String := (u.fragment.map fun f => "#" ++ f).getD ""

def render (u : Url) : String :=
  u.scheme ++ ":" ++ u.authorityText ++ u.guard ++ u.path.render ++ u.queryText ++ u.fragmentText

def withoutUser (u : Url) : Url :=
  { u with authority := u.authority.map fun a => { a with user := "", password := none } }

inductive Family
  | file
  | web
  | other
deriving DecidableEq, Repr

def family (scheme : String) : Family :=
  if scheme = "file" then .file
  else if scheme ∈ ["http", "https", "ws", "wss", "ftp"] then .web
  else .other

def usualPort (scheme : String) : Option Nat :=
  match scheme with
  | "http" | "ws" => some 80
  | "https" | "wss" => some 443
  | "ftp" => some 21
  | _ => none

end Url
end FleetControl
