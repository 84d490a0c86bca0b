import Rulebook.Http.Address

set_option autoImplicit false

/-!
Routes: what the service offers under which path.
-/

namespace Rulebook.Http

inductive Action where
  | create
  | execute
  | add (name : String)
  | list
  | get (name : String)
  /-- A page that describes the service. -/
  | describe
  deriving DecidableEq, Repr

/-- A line break at the end of a path is not counted. -/
def isLast (name : String) (step : List Char) : Bool :=
  step == name.toList || step == name.toList ++ ['\n']

def pageActions : List (String × Action) := [("GET", .describe), ("HEAD", .describe)]

/-- The actions at a path by method, the first of a method counting. -/
def actions (path : List Char) : List (String × Action) :=
  match Text.split '/' path with
  | [[], page] =>
    if ["openapi.json", "docs", "redoc"].any (isLast · page) then pageActions else []
  | [[], first, second] =>
    if first = "api".toList && isLast "rulesets" second then [("POST", .create), ("GET", .list)]
    else if first = "docs".toList && isLast "oauth2-redirect" second then pageActions
    else []
  | [[], api, rulesets, name] =>
    if api = "api".toList && rulesets = "rulesets".toList && !name.isEmpty then
      (if isLast "execute" name then [("POST", .execute)] else []) ++
        [("GET", .get (String.ofList name))]
    else []
  | [[], api, rulesets, name, rules] =>
    if api = "api".toList && rulesets = "rulesets".toList && !name.isEmpty && isLast "rules" rules then
      [("POST", .add (String.ofList name))]
    else []
  | _ => []

def dropSlashes (path : List Char) : List Char := (path.reverse.dropWhile (· == '/')).reverse

/-- Where a redirect to a path leads. All of the path is escaped on the way, so that one decoding is
made up for; dot steps are resolved once more. -/
def redirected (path : List Char) : List Char := Text.percentDecode (normalPath path)

/-- The actions at a path. Where there are none, a slash at its end redirects to the path without it,
`redirects` times at most. -/
def actionsAt (redirects : Nat) (path : List Char) : List (String × Action) :=
  match redirects, actions path with
  | redirects + 1, [] =>
    let shorter := dropSlashes path
    if path.getLast? = some '/' && !(actions shorter).isEmpty then
      actionsAt redirects (redirected shorter)
    else []
  | _, found => found

inductive RouteError where
  | notFound
  | notAllowed
  deriving DecidableEq, Repr

/-- What a method at a path stands for. -/
def route (method : String) (path : List Char) : Except RouteError Action :=
  match actionsAt 20 path with
  | [] => .error .notFound
  | found =>
    match found.lookup method with
    | some action => .ok action
    | none => .error .notAllowed

end Rulebook.Http
