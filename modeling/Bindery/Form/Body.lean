import Bindery.Form.Basic
import Bindery.Text.Percent

/-!
# Form bodies

A form is sent as one line: `key=value` pairs joined by `&`, with a plus for a blank and escapes for
all but letters, digits and `*-._`.
-/
namespace Bindery.Form

open Text

def isPlain (c : Char) : Bool :=
  isLetter c || isDigit c || c == '*' || c == '-' || c == '.' || c == '_'

/-- A key or a value in a body. -/
def encodePart (s : String) : List Char :=
  (escape (fun c => isPlain c || c == ' ') s.toList).map fun c => if c == ' ' then '+' else c

def encodePair (p : String × String) : List Char := encodePart p.1 ++ '=' :: encodePart p.2

def body (f : Form) : String := String.ofList (List.intercalate ['&'] (f.pairs.map encodePair))

/-- Reads a key or a value of a body. -/
def decodePart (s : List Char) : String :=
  lossy (piecesOfBytes (unescape (s.map fun c => if c == '+' then ' ' else c)))

/-- Splits at the first `=`; without one all is the key. -/
def decodePair (s : List Char) : String × String :=
  let (key, rest) := s.span (· != '=')
  (decodePart key, decodePart rest.tail)

/-- Reads the pairs of a body; empty stretches between the `&` are none. -/
def decode (body : String) : List (String × String) :=
  ((body.toList.splitOn '&').filter (! ·.isEmpty)).map decodePair

end Bindery.Form
