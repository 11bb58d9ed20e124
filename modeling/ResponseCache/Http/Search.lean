import ResponseCache.Http.Template

/-!
# Which template matches a path

All templates are searched at once, along the path: a branch holds what is left of each template that agrees with the
path so far. Where some of them go on with the next character and others have a parameter in its place, the character
goes first; if that leads nowhere, the search comes back to the parameter. It does not come back where nothing but a
slash at the end of the path is wrong, one too many or one too few: such a path matches nothing.

A parameter that ends its template is not empty; one that is followed by more of it may be.
-/

namespace ResponseCache.Http

/-- How a search ends. -/
inductive Search (α : Type) where
  /-- A template matches, its parameters having these values. -/
  | found (target : α) (values : List String)
  /-- Nothing matches here; a parameter that was passed by may still do. -/
  | miss
  /-- Nothing matches at all: the path is off by the slash at its end. -/
  | stop
  deriving Repr, DecidableEq

/-- Puts the value of a parameter in front. -/
def Search.prepend {α : Type} (value : String) : Search α → Search α
  | found target values => found target (value :: values)
  | miss => miss
  | stop => stop

/-- What is left of each template, and what the template leads to. -/
abbrev Branch (α : Type) := List (List Template.Part × α)

namespace Branch

variable {α : Type}

/-- What a template that is used up leads to. -/
def target? (b : Branch α) : Option α := (b.find? fun t => t.1.isEmpty).map (·.2)

/-- What a template that takes all the rest leads to. -/
def rest? (b : Branch α) : Option α :=
  b.findSome? fun
    | (.rest _ :: _, target) => some target
    | _ => none

/-- The templates that go on with a character, behind it. -/
def after (b : Branch α) (c : Char) : Branch α :=
  b.filterMap fun
    | (.literal d :: parts, target) => if c = d then some (parts, target) else none
    | _ => none

/-- The templates that go on with a segment, behind it. -/
def afterSegment (b : Branch α) : Branch α :=
  b.filterMap fun
    | (.segment _ :: parts, target) => some (parts, target)
    | _ => none

/-- Whether all templates go on with one and the same character, so that no choice is left. -/
def isStraight (b : Branch α) : Bool :=
  match b with
  | (.literal c :: _, _) :: _ => b.all fun t => t.1.head? == some (.literal c)
  | _ => false

/-- The search where the path ends; `lone` says that a slash alone was left at the last choice. -/
def atEnd (b : Branch α) (lone : Bool) : Search α :=
  match b.target? with
  | some target => .found target []
  | none => if lone || (b.isStraight && (b.after '/').target?.isSome) then .stop else .miss

/-- Searches for the rest of a path. -/
def search (b : Branch α) (lone : Bool) : List Char → Search α
  | [] => b.atEnd lone
  | c :: path =>
    let slash := c == '/' && path.isEmpty
    let onward := b.after c
    match if onward.isEmpty then .miss else onward.search (slash && !b.isStraight) path with
    | .miss =>
      if b.isStraight then .miss
      else
        match b.rest? with
        | some target => .found target [String.ofList (c :: path)]
        | none =>
          let behind := b.afterSegment
          if behind.isEmpty then if slash then .stop else .miss
          else
            let value := String.ofList ((c :: path).takeWhile (· != '/'))
            match _h : (c :: path).dropWhile (· != '/') with
            | [] => (behind.atEnd false).prepend value
            | _ :: path' =>
              let onward := behind.after '/'
              if onward.isEmpty then if path'.isEmpty then .stop else .miss
              else (onward.search path'.isEmpty path').prepend value
    | result => result
  termination_by path => path.length
  decreasing_by
    · simp
    · have := (List.dropWhile_sublist (p := (· != '/')) (l := c :: path)).length_le
      rw [_h] at this
      simp only [List.length_cons] at this ⊢
      omega

end Branch

/-- The template that matches a path, and its parameters. -/
def matchPath (templates : List String) (path : String) : Option (String × List (String × String)) :=
  match Branch.search (templates.map fun t => (Template.parts t, t)) false path.toList with
  | .found template values => some (template, (Template.names template).zip values)
  | _ => none

-- a parameter is empty in the middle, not at the end
example : matchPath ["/a/:x/b/:y"] "/a//b/2" = some ("/a/:x/b/:y", [("x", ""), ("y", "2")]) := by cbv

example : matchPath ["/a/:x/b/:y"] "/a/1/b/" = none := by cbv

-- the search comes back to a parameter, but not for a slash at the end
example : matchPath ["/b", "/*rest"] "/bc" = some ("/*rest", [("rest", "bc")]) := by cbv

example : matchPath ["/b", "/*rest"] "/b/" = none := by cbv

end ResponseCache.Http
