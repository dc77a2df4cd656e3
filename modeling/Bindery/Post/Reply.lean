import Bindery.Json.Reader
import Bindery.Post.Fault
import Bindery.Post.Status

/-!
# Replies

What comes back for a request: a status and a body, or nothing that could be read.
-/
namespace Bindery.Post

inductive Reply where
  /-- The connection ended, or time was up, before there was a reply. -/
  | lost
  /-- The body is none if the connection ended within it. -/
  | answer (status : Nat) (body : Option (List UInt8))
  deriving DecidableEq, Repr

namespace Reply

/-- The reply with a status and the bytes that came, `whole` if they are all. -/
def ofBytes (status : Nat) (bytes : List UInt8) (whole : Bool) : Reply :=
  if !isFinal status then .lost
  else if isBare status then .answer status (some [])
  else .answer status (if whole then some bytes else none)

/-- What a reply holds. The body of a refusal is taken as text; one that cannot be read is stood in
for by the status. -/
def take (reader : Json.Reader α) : Reply → Except Fault α
  | .lost => .error .request
  | .answer status body =>
    if isSuccess status then
      match body with
      | none => .error .request
      | some bytes => (reader.run? (Text.piecesOfBytes bytes)).mapError .reply
    else
      match body with
      | none => .error (.status status (statusText status))
      | some bytes => .error (.status status (Text.lossy (Text.piecesOfBytes bytes)))

end Reply

end Bindery.Post
