import ResponseCache.Http.Failure
import ResponseCache.Http.Route
import ResponseCache.Service.Basic
import ResponseCache.Text.Timestamp

/-!
# The endpoints for administrators

Health, the report on the cache, and the ways to empty it. Pages of any origin may read the answers.
-/

namespace ResponseCache

inductive Admin where
  | health
  | readStats
  | resetStats
  | invalidateTag
  | clear
  deriving Repr, DecidableEq

namespace Admin

open Http

def routes : List (Route Admin) :=
  [⟨"/health", some "GET", health⟩, ⟨"/cache/stats", some "GET", readStats⟩,
    ⟨"/cache/stats", some "DELETE", resetStats⟩, ⟨"/cache/tags/:tag", some "DELETE", invalidateTag⟩,
    ⟨"/cache", some "DELETE", clear⟩]

/-- Answers with what is told about a success, or with the error. -/
def answer {α : Type} (describe : α → Json) : Except CacheError α → Response
  | .ok a => .json 200 (describe a)
  | .error e => e.response

def message (text : String) : Json := .object [("message", .string text)]

def invalidTag : Response := .ofText 400 "text/plain; charset=utf-8" "Invalid URL: Invalid UTF-8 in \x60tag\x60"

/-- Serves an endpoint with the parameters of its path as they were sent. It crashes where the counters to be reported
have no sum. -/
def run (params : List (String × String)) : Admin → Program (Except Crash Response)
  | health => do
    let now ← Program.clock
    return .ok (.json 200 (.object [("status", .string "healthy"), ("timestamp", .string (Text.timestamp now))]))
  | readStats => return (← Service.report).summary.map (.json 200)
  | resetStats => return .ok (answer (fun _ => message "Statistics reset") (← Service.resetStats))
  | invalidateTag =>
    match (params.lookup "tag").bind Text.percentDecode? with
    | none => return .ok invalidTag
    | some tag =>
      return .ok (answer (fun count => .object [("tag", .string tag), ("invalidated", .ofNat count)])
        (← Program.operate (.invalidateTag tag)))
  | clear => return .ok (answer (fun _ => message "Cache cleared") (← Program.operate .clear))

/-- Lets pages of any origin read a response. -/
def share (r : Response) : Response := r.withHeader "access-control-allow-origin" "*"

end Admin

end ResponseCache
