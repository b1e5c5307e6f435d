import RouteDoc.Text.LetterCase

/-!
# Request methods

Method names are compared in capitals.  Handlers of sockets and streams are reached through a plain GET
and documented as such.
-/

namespace RouteDoc.Method

/-- The method under which a handler is documented. -/
def normalize (method : String) : String :=
  match Text.upper method with
  | "WEBSOCKET" | "STREAM" => "GET"
  | name => name

/-- The methods whose requests always have a body. -/
def withBody : List String := ["POST", "PUT", "PATCH"]

/-- Does a request with this method always have a body? -/
def hasBody (method : String) : Bool := withBody.contains method

/-- The key of a method in a document. -/
def key (method : String) : String := Text.lower method

end RouteDoc.Method
