import PatchManager.Db.Types

/-! # Requests and errors

What the request handlers and the middleware share: the headers of a request, its caller and
the form of an error answer.
-/

namespace PatchManager

/-- The headers of a request by lower-case name, in the order they came in. -/
abbrev HeaderMap := List (String × List UInt8)

/-- The first value of a header. -/
def HeaderMap.get (headers : HeaderMap) (name : String) : Option (List UInt8) :=
  (headers.find? fun h => h.1 == name).map Prod.snd

/-- `HeaderValue::to_str`: the visible ASCII characters and the tab are text. -/
def headerText (value : List UInt8) : Option (List Char) :=
  if value.all fun b => (32 ≤ b && b < 127) || b == 9 then
    some (value.map fun b => Char.ofNat b.toNat)
  else none

inductive UserRole where
  | admin
  | operator
  | reporter
deriving DecidableEq, Repr

def UserRole.isAdmin (role : UserRole) : Bool := role = .admin

def UserRole.canWrite : UserRole → Bool
  | .admin | .operator => true
  | .reporter => false

def UserRole.asStr : UserRole → String
  | .admin => "admin"
  | .operator => "operator"
  | .reporter => "reporter"

/-- The caller of an authenticated request. -/
structure AuthUser where
  userId : Uuid
  username : String
  role : UserRole

/-- An error answer: HTTP status, code and message. -/
structure ApiError where
  status : Nat
  code : String
  message : String
deriving DecidableEq, Repr

def ApiError.database : ApiError := ⟨500, "internal_error", "Database error"⟩

end PatchManager
