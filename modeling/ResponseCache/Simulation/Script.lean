import ResponseCache.Http.Message
import ResponseCache.Entry

/-!
# Scripted handlers

A script answers the calls of a handler one after the other, and every further call as the last. In the bytes that it
sends, where they are text, `$n` stands for the number of the call and `$uri` for the target of the request.
-/

namespace ResponseCache.Simulation

open Http

/-- What a scripted reply sends. -/
inductive Content where
  /-- The body of the request. -/
  | echo
  | whole (bytes : ByteArray)
  /-- Chunks, and a failure after them if there is one. -/
  | stream (chunks : List ByteArray) (failure : Option String)
  deriving Inhabited

structure Reply where
  status : UInt16 := 200
  headers : List (String × ByteArray) := []
  /-- How long the handler takes. -/
  delay : Millis := 0
  /-- Whether the handler crashes instead of answering. -/
  crashes : Bool := false
  content : Content := .whole ByteArray.empty
  deriving Inhabited

/-- The replies of a handler. -/
abbrev Script := List Reply

/-- The reply to a call, calls being counted from one. -/
def Script.reply (script : Script) (call : Nat) : Reply := script.getD (min call script.length - 1) {}

/-- Fills in the number of the call and the target. -/
def fillIn (call : Nat) (target : Target) (bytes : ByteArray) : ByteArray :=
  match Text.decode? bytes with
  | none => bytes
  | some text => Text.encode ((text.replace "$n" (toString call)).replace "$uri" target.text)

/-- The response that a reply makes for a request. -/
def Reply.response (reply : Reply) (call : Nat) (r : Request) : Response :=
  let body := match reply.content with
    | .echo => Body.ofBytes r.body.bytes
    | .whole bytes => .ofBytes (fillIn call r.target bytes)
    | .stream chunks failure => ⟨chunks.map (fillIn call r.target), failure⟩
  ⟨reply.status, .ofList reply.headers, body⟩

/-- What a crash of a handler says. -/
def crashText : String := "handler panic"

end ResponseCache.Simulation
