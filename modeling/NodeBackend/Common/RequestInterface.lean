namespace node_backend

/-- What the route of an http request is read from. -/
structure RequestInterface where
  method : String
  routeUrl : Option String := none
  originalUrl : String
  url : String

namespace request_interface

/-- What stands before the first question mark of a URL. -/
def urlPath (url : String) : String :=
  String.ofList (url.toList.takeWhile (· ≠ '?'))

/-- The left operand of `||`, or the right one where the left is an empty text. -/
def orElse (left right : String) : String :=
  if left = "" then right else left

/-- `baseUrl || originalUrlPath || urlPath`, as the throttler guard and the response
interceptor both read it. -/
def path (request : RequestInterface) : String :=
  orElse (request.routeUrl.getD "") (orElse (urlPath request.originalUrl) (urlPath request.url))

end request_interface

end node_backend
