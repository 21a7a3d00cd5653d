import SignedHttp.Request

/-!
# SignedHttp.Request.Draft

Requests as they are described before any part of them is checked.
-/

namespace SignedHttp

/-- The parts of a request that is to be built. -/
structure Draft where
  method : String
  uri : String
  headers : List (String × String) := []
  /-- Query parameters, which get encoded. -/
  query : List (String × String) := []
  /-- Query parameters that are encoded already. -/
  rawQuery : Option String := none
  /-- A path in place of that of the address, taken as it is. -/
  path : Option String := none
  body : Option Body := none
  timeout : Option Duration := none
deriving DecidableEq, Repr

namespace Draft

def methodOf (s : String) : Except Error Method :=
  match Method.ofText? s with
  | some m => .ok m
  | none => fails .badMethod

/-- Builds the request, part by part; the first part that is no good is the error. -/
def build (d : Draft) : Except Error Request := do
  let method ← methodOf d.method
  let r ← Request.new method d.uri
  let r ← d.headers.foldlM (fun r (name, value) => r.addHeader name value) r
  let r := d.query.foldl (fun r (name, value) => r.pushQuery name value) r
  let r := (d.rawQuery.map r.appendRawQuery).getD r
  .ok { r with path := d.path.getD r.path, body := d.body, timeout := d.timeout }

end Draft

/-- What building a request comes to: a request from its parts, or a failure. -/
inductive Order
  | draft (draft : Draft)
  | fail (cause : Error.Cause)
deriving Repr

namespace Order

def build : Order → Except Error Request
  | draft d => d.build
  | fail cause => fails cause

/-- The requests of a row of attempts; the last one is repeated. -/
def builds (orders : List Order) (attempt : Nat) : Except Error Request :=
  match orders[attempt - 1]? with
  | some o => o.build
  | none =>
    match orders.getLast? with
    | some o => o.build
    | none => fails (.reported .unexpected "")

end Order
end SignedHttp
