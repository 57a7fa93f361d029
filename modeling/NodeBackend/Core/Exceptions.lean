import NodeBackend.Js.Value

namespace node_backend.exceptions

inductive ExceptionsEnum
  | contract
  | business
  | invalidToken
  | unauthorized
  | manyRequests
  | conflict
  | notFound
  | integration
  | internal
  deriving DecidableEq, Repr

def ExceptionsEnum.text : ExceptionsEnum → String
  | contract => "contract"
  | business => "business"
  | invalidToken => "invalidToken"
  | unauthorized => "unauthorized"
  | manyRequests => "manyRequests"
  | conflict => "conflict"
  | notFound => "notFound"
  | integration => "integration"
  | internal => "internal"

def ExceptionsEnum.statusCode : ExceptionsEnum → Nat
  | contract => 400
  | business => 403
  | invalidToken => 498
  | unauthorized => 401
  | manyRequests => 429
  | conflict => 409
  | notFound => 404
  | integration => 503
  | internal => 500

/-- Name of an error that comes without one. -/
def ExceptionsEnum.defaultName : ExceptionsEnum → String
  | contract => "Bad Request"
  | business => "Forbidden"
  | invalidToken => "Invalid Token"
  | unauthorized => "Unauthorized"
  | manyRequests => "Too Many Requests"
  | conflict => "Conflict"
  | notFound => "Not Found"
  | integration => "Service Unavailable"
  | internal => "Internal Server Error"

structure ErrorInterface where
  name : Option String := none
  message : String
  code : Option String := none
  details : Option String := none
  cause : Option String := none
  deriving DecidableEq, Repr

/-- An HttpException with its response payload. -/
structure HttpException where
  name : ExceptionsEnum
  error : String
  message : String
  statusCode : Nat
  code : Option String
  description : Option String
  details : Option String
  payloadCause : Option String
  cause : Option String
  deriving DecidableEq, Repr

def buildException (exceptionName : ExceptionsEnum) (error : ErrorInterface) : HttpException where
  name := exceptionName
  error := error.name.getD exceptionName.defaultName
  message := error.message
  statusCode := exceptionName.statusCode
  code := error.code
  description := error.details.or error.code
  details := error.details
  payloadCause := error.cause
  cause := error.cause.or error.details

/-- What a handler throws: an exception of the application, one of the runtime, or
an error that other code made. -/
inductive Failure
  | http (exception : HttpException)
  | typeError (error : js.TypeError)
  | plain (error : ErrorInterface)

/-- What another exception takes over of a failure that was caught. -/
def Failure.asError : Failure → ErrorInterface
  | http exception => { name := some exception.name.text, message := exception.message, cause := exception.cause }
  | typeError error => { name := some "TypeError", message := error.message }
  | plain error => error

/-- exceptions.internal of a failure that was caught. -/
def Failure.asInternal (failure : Failure) : Failure :=
  .http (buildException .internal failure.asError)

end node_backend.exceptions
