/-!
# Requests and responses

What the interface is asked, and what it answers.
-/

set_option autoImplicit false

namespace EventFlow.Http

/-- What a request does with its target. -/
inductive Method where
  | get
  | head
  | post
  | put
  | delete
  | options
  | other (name : String)
deriving DecidableEq

/-- The method of a name. -/
def Method.ofName (name : String) : Method :=
  match name with
  | "GET" => get
  | "HEAD" => head
  | "POST" => post
  | "PUT" => put
  | "DELETE" => delete
  | "OPTIONS" => options
  | _ => other name

/-- A request. The target is a path and, after a question mark, a query. -/
structure Request where
  method : Method
  target : String
  contentType : Option String
  body : String

/-- A response. -/
structure Response where
  status : Nat
  contentType : Option String
  body : String
deriving DecidableEq

namespace Response

/-- A response without a body. -/
def empty (status : Nat) : Response := ⟨status, none, ""⟩

/-- The content type of JSON. -/
def jsonType : String := "application/json"

/-- A response with a body in JSON. -/
def json (status : Nat) (text : String) : Response := ⟨status, some jsonType, text⟩

end Response

end EventFlow.Http
