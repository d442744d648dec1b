import FleetControl.Cloud
import FleetControl.Match

/-!
The listings that tokens are looked up in. Each kind is listed when it is first needed, and a
listing that succeeded is kept; one that failed is tried again by the next caller.
-/
namespace FleetControl

structure Shelf where
  kind : Kind
  cached : Option (List Record)

namespace Shelf

def empty (kind : Kind) : Shelf := ⟨kind, none⟩

/-- The listing: the kept one, or else the one that a fetch yields. The flag says whether it was
fetched. -/
def get (s : Shelf) (fetch : Unit → Except ApiError (List Record)) :
    Shelf × Bool × Except ResolveError (List Record) :=
  match s.cached with
  | some records => (s, false, .ok records)
  | none => match fetch () with
    | .ok records => ({ s with cached := some records }, true, .ok records)
    | .error e => (s, true, .error (.fetch s.kind e))

def resolve (s : Shelf) (token : String) : Except ResolveError String :=
  match s.cached with
  | none => .error (.notCached s.kind)
  | some records => (Match.ofRecords token records).only

def lookup (s : Shelf) (uuid : String) : Except ResolveError Record :=
  match s.cached with
  | none => .error (.notCached s.kind)
  | some records => match records.find? fun r => r.uuid == uuid with
    | some r => .ok r
    | none => .error (.notFound uuid)

end Shelf

structure Catalog where
  shelf : Kind → Shelf
  listed : List Kind
  now : Nat

namespace Catalog

def empty : Catalog := ⟨Shelf.empty, [], 0⟩

def put (c : Catalog) (s : Shelf) : Catalog :=
  { c with shelf := fun kind => if kind = s.kind then s else c.shelf kind }

def ensure (cloud : Cloud) (c : Catalog) (kind : Kind) : Catalog × Except ResolveError (List Record) :=
  let listing := cloud.list c.listed.length kind
  let (shelf, fetched, result) := (c.shelf kind).get fun _ => listing.outcome
  let c := c.put { shelf with kind }
  (if fetched then { c with listed := c.listed ++ [kind], now := c.now + listing.delay } else c, result)

def resolveOne (cloud : Cloud) (c : Catalog) (kind : Kind) (token : String) :
    Catalog × Except ResolveError String :=
  let (c, listing) := ensure cloud c kind
  (c, listing.bind fun _ => (c.shelf kind).resolve token)

def resolve (cloud : Cloud) (c : Catalog) (kind : Kind) (tokens : List String) :
    Catalog × Except ResolveError (List String) :=
  let (c, listing) := ensure cloud c kind
  (c, listing.bind fun _ => tokens.mapM (c.shelf kind).resolve)

def lookup (c : Catalog) (kind : Kind) (uuid : String) : Except ResolveError Record :=
  (c.shelf kind).lookup uuid

def find (cloud : Cloud) (c : Catalog) (kind : Kind) (tokens : List String) :
    Catalog × Except ResolveError (List Record) :=
  let (c, uuids) := c.resolve cloud kind tokens
  (c, uuids.bind fun uuids => uuids.mapM (c.lookup kind))

end Catalog
end FleetControl
