import EventFlow.Api.Failure
import EventFlow.Engine.Machine
import EventFlow.Http.MediaType
import EventFlow.Http.Target
import EventFlow.Json.Shape

/-!
# Serving requests

`Serving` is a computation over a machine that may fail. What a request carries is taken out of it
in a fixed order: the identifier in the path, then the query or the body.
-/

set_option autoImplicit false

namespace EventFlow.Api

/-- What is done for a request: the machine stays as far as it has come when it fails. -/
abbrev Serving (σ : Type) := ExceptT Failure (StateM (Machine σ))

namespace Serving

variable {σ α : Type}

/-- The refusal of a request. -/
def refuse (r : Refusal) : Serving σ α := throw (.refused r)

/-- What is read with the machine's clock, or a refusal. -/
def reading (read : Reading α) (r : Refusal) : Serving σ α := do
  let m ← get
  match read m.supply with
  | some (a, supply) =>
    set { m with supply }
    return a
  | none => refuse r

/-- The answer of a request to the store. -/
def changing (f : Store → Supply → Except StoreError α × Store × Supply) : Serving σ α := do
  let m ← get
  let (answer, store, supply) := f m.store m.supply
  set { m with store, supply }
  match answer with
  | .ok a => return a
  | .error e => throw (.store e)

/-- What is found in the store. -/
def finding (f : Store → Except StoreError α) : Serving σ α :=
  changing fun s supply => (f s, s, supply)

/-- What the machine answers. -/
def running (f : Machine σ → α × Machine σ) : Serving σ α := modifyGet f

/-- The store as it is. -/
def store : Serving σ Store := return (← get).store

/-- The identifier that a segment of the path stands for. -/
def identifier (segment : List Char) : Serving σ String :=
  match Http.segmentText? segment with
  | some id => pure id
  | none => refuse .badIdentifier

/-- The record that the parameters of the query make. -/
def query (read : Document → Reading α) (t : Http.Target) : Serving σ α :=
  reading (read (.object (t.parameters.map fun (key, value) => (key, .string value)))) .badQuery

/-- Whether a request says that its body is JSON. -/
def holdsJson (request : Http.Request) : Bool :=
  (request.contentType.bind Http.MediaType.read?).any Http.MediaType.isJson

/-- The most bytes that a body may have. -/
def maxBodySize : Nat := 2097152

/-- The record at the start of the body. -/
def body (shape : Shape) (read : Document → Reading α) (request : Http.Request) :
    Serving σ α :=
  if !holdsJson request then refuse .wrongContentType
  else if maxBodySize < request.body.utf8ByteSize then refuse .tooLarge
  else
    let text := request.body.toList
    match shape.fault? text, Document.readPart text with
    | none, some (d, _) => reading (read d) .wrongShape
    | some .misshapen, _ => refuse .wrongShape
    | _, _ => refuse .malformedBody

/-- A response that shows a document. -/
def showing (status : Nat) (d : Document) : Serving σ Http.Response :=
  pure (.json status d.compact)

/-- A response that shows a list. -/
def listing (write : α → Document) (items : List α) : Serving σ Http.Response :=
  showing 200 (.array (items.map write))

end Serving

end EventFlow.Api
