import ResponseCache.Admin
import ResponseCache.Middleware

/-!
# An application behind the cache

Handlers under templates, the rules by which their routes are cached, and the endpoints for administrators if they are
switched on. The cache stands in front of the templates that have a handler, the refusal of a method included; a path
that nothing matches is answered without it.
-/

namespace ResponseCache

open Http

/-- What answers at a route: an endpoint for administrators, or a handler of the application. -/
inductive Endpoint where
  | admin (endpoint : Admin)
  | handler (index : Nat)

def Endpoint.isHandler : Endpoint → Bool
  | handler _ => true
  | admin _ => false

structure App where
  settings : Settings := {}
  routes : List (Route Endpoint) := []
  rules : RouteTable := {}

namespace App

/-- The routes of the endpoints for administrators. -/
def adminRoutes : List (Route Endpoint) := Admin.routes.map fun r => ⟨r.template, r.method, .admin r.endpoint⟩

/-- Whether a handler stands under a template. -/
def hasHandler (app : App) (template : String) : Bool :=
  (Route.under app.routes template).any fun r => r.endpoint.isHandler

/-- Serves a request under a template with a handler: through the cache if there is a rule for its method. -/
def serveHandler (app : App) (handler : Request → Program Response) (template : String)
    (params : List (String × String)) (r : Request) : Program Response :=
  match app.rules.find? r.method template with
  | some rule => Middleware.serve app.settings rule template params handler r
  | none => handler r

/-- Refuses the method of a request. Endpoints for administrators that stand alone tell pages of any origin what they
may ask for. -/
def refuse (app : App) (template : String) (params : List (String × String)) (r : Request) : Program Response :=
  if app.hasHandler template then app.serveHandler (fun _ => return .bare 405) template params r
  else return Admin.share (.bare (if r.method = "OPTIONS" then 200 else 405))

/-- Leaves the body out of the answer to a `HEAD` request, unless the endpoint answers every method. -/
def dropBody (route : Route Endpoint) (r : Request) (response : Response) : Response :=
  if r.method = "HEAD" && route.method.isSome then { response with body := .empty } else response

/-- Answers a request, unless an endpoint crashes. -/
def serve (app : App) (r : Request) : Program (Except Crash Response) :=
  match Route.dispatch app.routes r.method r.target.path with
  | .notFound => return .ok (.bare 404)
  | .wrongMethod template params => .ok <$> app.refuse template params r
  | .found route params => do
    let response ← match route.endpoint with
      | .admin endpoint => Except.map Admin.share <$> endpoint.run params
      | .handler index => .ok <$> app.serveHandler (Program.handle index) route.template params r
    return response.map (dropBody route r)

end App

end ResponseCache
