import Mathlib.Tactic

/-!
Errors and answers of the HTTP surface (`src/error.rs` and `src/http/mod.rs`).

* `AppError`: the errors that the operations return;
* `Response`: a status code and a body, with the texts of `BodyUtil` under their source names;
* `AppError.intoResponse`: the answer that an error turns into.
-/

namespace SfuServer

/-- `AppError`; an error of another type is kept by its text. -/
inductive AppError where
  | streamNotFound (err : String)
  | streamAlreadyExists (err : String)
  | throw (err : String)
  | internalServerError (err : String)
  deriving DecidableEq, Repr

/-- The status codes that the handlers use. -/
inductive StatusCode where
  | ok
  | notFound
  | notAcceptable
  | conflict
  | internalServerError
  deriving DecidableEq, Repr

/-- An answer to a request. -/
structure Response where
  body : String
  statusCode : StatusCode
  deriving DecidableEq, Repr

/-- `AppError::into_response`. -/
def AppError.intoResponse : AppError → Response
  | .streamNotFound err => ⟨err, .notFound⟩
  | .streamAlreadyExists err => ⟨err, .conflict⟩
  | .internalServerError err => ⟨err, .internalServerError⟩
  | .throw err => ⟨err, .internalServerError⟩

namespace BodyUtil

def succeed : String := "Succeed"

def rejected : String := "Rejected"

def inviledToken : String := "Token Inviled"

def inviledPassword : String := "Password Inviled"

def roomIdNotfound : String := "Room ID Not Found"

def unknownError : String := "Unknown Error"

end BodyUtil

end SfuServer
