import AppScaffold.Text.Blank
import AppScaffold.Text.Lowercase

/-!
# Methods of network functions

A network function reads, creates, changes or deletes a resource. A request asks for one method or
for all of them.
-/

namespace AppScaffold

/-- What a network function does. -/
inductive Method where
  /-- It reads. -/
  | get
  /-- It creates. -/
  | post
  /-- It changes. -/
  | put
  /-- It deletes. -/
  | delete
deriving DecidableEq, Repr

namespace Method

/-- All methods, in the order in which their functions are written. -/
def all : List Method := [get, post, put, delete]

/-- The method of the transfer protocol. -/
def verb : Method → String
  | get => "get"
  | post => "post"
  | put => "put"
  | delete => "delete"

/-- What the name of the function begins with. -/
def action : Method → String
  | get => "get"
  | post => "create"
  | put => "update"
  | delete => "delete"

/-- The arguments of the function. -/
def arguments : Method → String
  | get => ""
  | post => "data"
  | put => "id, data"
  | delete => "id"

/-- What follows the route in the address. -/
def suffix : Method → String
  | get => ""
  | post => "/create"
  | put => "/$\x7bid\x7d/update"
  | delete => "/$\x7bid\x7d"

/-- Data are sent along. -/
def sendsBody : Method → Bool
  | post | put => true
  | get | delete => false

end Method

/-- The methods that a request asks for. -/
inductive MethodSelection where
  /-- One method. -/
  | one (method : Method)
  /-- All methods, under a banner. -/
  | all
deriving DecidableEq, Repr

namespace MethodSelection

/-- The entries of the menu. -/
def choices : List String := ["get", "post", "put", "delete", "all"]

/-- The methods of the selection. -/
def methods : MethodSelection → List Method
  | one m => [m]
  | all => Method.all

/-- The entry of the menu. -/
def text : MethodSelection → String
  | one m => m.verb
  | all => "all"

/-- The selection with a name, blanks around it and the case of its letters being free. -/
def ofText? (s : String) : Option MethodSelection :=
  let t := Text.lowercase (Text.trim s)
  if t = "all" then some all else (Method.all.find? fun m => m.verb = t).map one

end MethodSelection

end AppScaffold
