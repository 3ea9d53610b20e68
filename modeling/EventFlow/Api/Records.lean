import EventFlow.Api.Serving
import EventFlow.Store.Definitions

/-!
# The records of one collection

The requests that are the same for steps, conditions and actions.
-/

set_option autoImplicit false

namespace EventFlow.Api

open Http (Request Response)
open Serving

/-- How the records of a collection are read and written. -/
structure Codec (α : Type) where
  shape : Shape
  read : Document → Reading α
  write : α → Document

namespace Codec

variable {σ α : Type} [Definition α]

/-- Shows every record. -/
def list (c : Codec α) : Serving σ Response := do
  listing c.write ((← store).list α)

/-- Adds the record in the body. -/
def create (c : Codec α) (request : Request) : Serving σ Response := do
  let r ← body c.shape c.read request
  showing 201 (c.write (← changing fun s => s.create r))

/-- Shows a record. -/
def get (c : Codec α) (segment : List Char) : Serving σ Response := do
  let id ← identifier segment
  showing 200 (c.write (← finding (Store.get α · id)))

/-- Puts the record in the body in the place of another. -/
def replace (c : Codec α) (segment : List Char) (request : Request) : Serving σ Response := do
  let id ← identifier segment
  let r ← body c.shape c.read request
  showing 200 (c.write (← changing fun s supply =>
    let (answer, s) := s.replace id r
    (answer, s, supply)))

/-- Removes a record. -/
def delete (_ : Codec α) (segment : List Char) : Serving σ Response := do
  let id ← identifier segment
  let _ ← changing fun s supply =>
    let (answer, s) := s.delete α id
    (answer, s, supply)
  return .empty 204

/-- Answers a request to the whole collection. -/
def all (c : Codec α) (request : Request) : Http.Method → Serving σ Response
  | .get => c.list
  | .post => c.create request
  | _ => refuse .wrongMethod

/-- Answers a request to one record. -/
def one (c : Codec α) (segment : List Char) (request : Request) : Http.Method → Serving σ Response
  | .get => c.get segment
  | .put => c.replace segment request
  | .delete => c.delete segment
  | _ => refuse .wrongMethod

end Codec

/-- Steps as they are read and written. -/
def steps : Codec Step := ⟨Step.shape, Step.read, Step.document⟩

/-- Conditions as they are read and written. -/
def conditions : Codec Condition := ⟨Condition.shape, Condition.read, Condition.document⟩

/-- Actions as they are read and written. -/
def actions : Codec Action := ⟨Action.shape, Action.read, Action.document⟩

end EventFlow.Api
