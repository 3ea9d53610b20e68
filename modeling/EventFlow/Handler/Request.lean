import EventFlow.Handler.Basic
import EventFlow.Text.Utf8
import EventFlow.Url.Basic

/-!
# Requests of api actions

An api action names an address, a method and headers. What is checked before a request is sent is
here; sending it is not. Of several faults the first counts: a missing address, a method that is no
token, a header that is no text, an address that cannot be read or leads to no host, a header that
cannot be sent, and an address that no request reaches.
-/

set_option autoImplicit false

namespace EventFlow.RequestAction

/-- Whether a character may stand in a token. -/
def isTokenChar (c : Char) : Bool := c.isAlphanum || "!#$%&'*+-.^_\x60|~".toList.contains c

/-- Whether a text is a token, as the names of methods and headers are. -/
def isToken (text : String) : Bool := !text.isEmpty && text.toList.all isTokenChar

/-- The capitals of ASCII that a letter beyond ASCII stands for, if it does. -/
def asciiCapitals? (c : Char) : Option String :=
  [('ß', "SS"), ('ı', "I"), ('ſ', "S"), ('\uFB00', "FF"), ('\uFB01', "FI"), ('\uFB02', "FL"),
    ('\uFB03', "FFI"), ('\uFB04', "FFL"), ('\uFB05', "ST"), ('\uFB06', "ST")].lookup c

/-- Whether a text in capital letters is a token. -/
def isMethod (text : String) : Bool :=
  !text.isEmpty && text.toList.all fun c => isTokenChar c || (asciiCapitals? c).isSome

/-- The headers of an action. -/
def headers (a : Action) : List (String × Json) :=
  match a.config.get? "headers" with
  | some (.object members) => members
  | _ => []

/-- The name of the first header that is not a text. -/
def badHeader? (a : Action) : Option String :=
  ((headers a).find? fun header => header.2.asString?.isNone).map (·.1)

/-- The address that an action names; an empty one counts as none. -/
def address? (a : Action) : Option String :=
  ((a.config.get? "url").bind Json.asString?).filter fun u => !u.isEmpty

/-- Why the request of an action is not built. -/
def refusal? (a : Action) : Option HandlerFailure :=
  let method := (a.config.get? "method").bind Json.asString?
  match address? a, method.filter (fun m => !isMethod m), badHeader? a with
  | none, _, _ => some (.invalidInput "api action requires config.url")
  | some _, some m, _ => some (.invalidInput s!"invalid http method '{m}'")
  | some _, none, some name => some (.invalidInput s!"header '{name}' must be a string")
  | some _, none, none => none

/-- Whether a header can be sent: its name is a token, and its value has no control characters
beside tabs. -/
def isSendable (name value : String) : Bool :=
  isToken name && value.toList.all fun c => c == '\t' || decide (0x20 ≤ c.toNat ∧ c.toNat ≠ 0x7f)

/-- Whether what stands in an address can be read as a text. -/
def isReadable (part : List Char) : Bool := (Utf8.strict? (Text.percentDecode part)).isSome

/-- The address that a request is sent to. The user is named in a header instead, as far as the
name and the password can be read. -/
def destination (u : Url) : Url :=
  if isReadable u.user && (!u.user.isEmpty || isReadable u.password) then u.withoutUser else u

/-- Whether a request can be sent to an address: its scheme is that of the web, it is not too
long, and its host has no quotation marks and no braces. -/
def isReachable (u : Url) : Bool :=
  (u.scheme == "http".toList || u.scheme == "https".toList) &&
    decide (u.text.utf8ByteSize < 65535) &&
    (u.host.getD []).all fun c => !"\"\x60\x7b\x7d".toList.contains c

/-- Why the request of an action is not answered where no request leaves. -/
def failure (a : Action) : HandlerFailure :=
  match refusal? a with
  | some f => f
  | none =>
    match Url.read? ((address? a).getD "") with
    | none => .failed "request failed: builder error"
    | some u =>
      let u := destination u
      let shown := u.text
      let unbuilt := .failed s!"request failed: builder error for url ({shown})"
      if !u.hasHost then unbuilt
      else if !(headers a).all fun (name, value) => isSendable name (value.asString?.getD "") then
        .failed "request failed: builder error"
      else if !isReachable u then unbuilt
      else .failed s!"request failed: error sending request for url ({shown})"

/-- The handler of api actions where no request leaves. -/
def handler {σ : Type} : Handler σ := fun call supply world =>
  ⟨world, supply, 0, .error (failure call.action)⟩

end EventFlow.RequestAction
