import ResponseCache.Http.Search

/-!
# Routes

Endpoints under templates. The path of a request chooses the template, its method the endpoint there.
-/

namespace ResponseCache.Http

/-- The methods that an endpoint can be put under; any other name puts it under `OPTIONS`. -/
def routeMethods : List String := ["GET", "HEAD", "POST", "PUT", "DELETE", "PATCH", "TRACE", "OPTIONS"]

/-- An endpoint under a template, for one method or for every method. -/
structure Route (ε : Type) where
  template : String
  method : Option String
  endpoint : ε

/-- Where a request goes. -/
inductive Dispatch (ε : Type) where
  /-- No template matches the path. -/
  | notFound
  /-- The template that matches has no endpoint for the method. -/
  | wrongMethod (template : String) (params : List (String × String))
  | found (route : Route ε) (params : List (String × String))

namespace Route

variable {ε : Type}

/-- An endpoint for the method of a name. -/
def on (method template : String) (endpoint : ε) : Route ε :=
  ⟨template, some (if routeMethods.contains method then method else "OPTIONS"), endpoint⟩

/-- The route for a method: `GET` also answers `HEAD`, and a route for every method is tried last. -/
def forMethod (routes : List (Route ε)) (method : String) : Option (Route ε) :=
  (routes.find? fun r => r.method == some method).or <|
    (if method = "HEAD" then routes.find? fun r => r.method == some "GET" else none).or <|
    routes.find? fun r => r.method.isNone

/-- The routes under a template. -/
def under (routes : List (Route ε)) (template : String) : List (Route ε) :=
  routes.filter fun r => r.template == template

def dispatch (routes : List (Route ε)) (method path : String) : Dispatch ε :=
  match matchPath (routes.map (·.template)) path with
  | none => .notFound
  | some (template, params) =>
    match forMethod (under routes template) method with
    | none => .wrongMethod template params
    | some route => .found route params

end Route

end ResponseCache.Http
