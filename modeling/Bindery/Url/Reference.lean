import Bindery.Url.Basic

/-!
# Reading URLs

A text is a whole URL or a reference that is completed from a base. Blanks and control characters
around it do not count, nor do tabs and line ends anywhere in it.
-/
namespace Bindery.Url

open Text

def clean (s : List Char) : List Char :=
  let front := s.dropWhile (· ≤ ' ')
  let both := (front.reverse.dropWhile (· ≤ ' ')).reverse
  both.filter fun c => c != '\t' && c != '\n' && c != '\r'

/-- The scheme before the first colon, in small letters, and the rest. -/
def scheme? (s : List Char) : Option (String × List Char) :=
  let (word, rest) := s.span fun c => isLetter c || isDigit c || c == '+' || c == '-' || c == '.'
  if word.head?.any isLetter && rest.head? == some ':' then
    some (String.ofList (word.map Char.toLower), rest.tail)
  else none

def isFile (scheme : String) : Bool := scheme == "file"

/-- Whether URLs of the scheme are made the same way as those of `http`. -/
def isServer (scheme : String) : Bool := (usualPorts.lookup scheme).isSome

def isKnown (scheme : String) : Bool := isFile scheme || isServer scheme

/-- A slash, or a backslash where one counts as a slash. -/
def isSlash (scheme : String) (c : Char) : Bool := c == '/' || (c == '\\' && isKnown scheme)

/-! Escapes -/

def isGraphic (c : Char) : Bool := ' ' < c && c < '\x7f'

/-- Characters a part holds besides controls, blanks and characters outside ASCII. -/
def keeps (escaped : List Char) (c : Char) : Bool := isGraphic c && !escaped.contains c

def fragmentEscapes : List Char := ['"', '<', '>', '`']

def pathEscapes : List Char := fragmentEscapes ++ ['#', '?', '\x7b', '\x7d']

def loginEscapes : List Char :=
  pathEscapes ++ ['/', ':', ';', '=', '@', '[', '\\', ']', '^', '|']

def queryEscapes (scheme : String) : List Char :=
  ['"', '#', '<', '>'] ++ if isKnown scheme then ['\x27'] else []

def escaped (escapes : List Char) (s : List Char) : String :=
  String.ofList (escape (keeps escapes) s)

/-! Paths -/

/-- A dot, also when it is escaped. -/
def dots : List (List Char) :=
  [['.'], ['%', '2', 'e'], ['%', '2', 'E']]

def isSingleDot (s : List Char) : Bool := dots.contains s

def isDoubleDot (s : List Char) : Bool := dots.any fun a => dots.any fun b => a ++ b == s

/-- A letter and a colon or a bar, as a path of a file may start. -/
def isDrive : List Char → Bool
  | [a, b] => isLetter a && (b == ':' || b == '|')
  | _ => false

def isPlainDrive (segment : String) : Bool :=
  isDrive segment.toList && segment.toList.getLast? == some ':'

/-- Goes one segment up; `done` holds the segments in reverse. The drive of a file stays. -/
def up (scheme : String) : List String → List String
  | [] => []
  | [d] => if isFile scheme && isPlainDrive d then [d] else []
  | _ :: rest => rest

/-- Goes down to a segment. The drive of a file is written with a colon. -/
def down (scheme : String) (done : List String) (segment : List Char) : List String :=
  if isFile scheme && done.isEmpty && isDrive segment then
    String.ofList (segment.take 1 ++ [':']) :: done
  else escaped pathEscapes segment :: done

/-- Follows the segments of a path. After dots at its end an empty segment remains. -/
def follow (scheme : String) : List String → List (List Char) → List String
  | done, [] => done
  | done, s :: rest =>
    let close (done : List String) : List String := if rest.isEmpty then "" :: done else done
    let done :=
      if isDoubleDot s then close (up scheme done)
      else if isSingleDot s then close done
      else down scheme done s
    follow scheme done rest

/-- The path of a file does not start with empty segments. -/
def trimmed (scheme : String) (segments : List String) : List String :=
  if isFile scheme then
    match segments.dropWhile (·.isEmpty) with
    | [] => [""]
    | rest => rest
  else segments

def beforePathEnd (c : Char) : Bool := c != '?' && c != '#'

/-- Query and fragment at the end of a URL. -/
def ending (scheme : String) : List Char → Option String × Option String
  | '#' :: rest => (none, some (escaped fragmentEscapes rest))
  | '?' :: rest =>
    let (query, rest) := rest.span (· != '#')
    let fragment := match rest with
      | [] => none
      | _ :: rest => some (escaped fragmentEscapes rest)
    (some (escaped (queryEscapes scheme) query), fragment)
  | _ => (none, none)

def withEnding (u : Url) (s : List Char) : Url :=
  let (query, fragment) := ending u.scheme s
  { u with query, fragment }

/-- Goes on from the given segments, in reverse, along a text. -/
def along (u : Url) (done : List String) (s : List Char) : Url :=
  let (path, rest) := s.span beforePathEnd
  let segments := (follow u.scheme done (splitBy (isSlash u.scheme) path)).reverse
  withEnding { u with path := .segments (trimmed u.scheme segments) } rest

/-- The path after an authority. -/
def fromRoot (u : Url) (s : List Char) : Url :=
  match s with
  | [] => if isKnown u.scheme then along u [] [] else { u with path := .segments [] }
  | c :: rest =>
    if isSlash u.scheme c then along u [] rest
    else if isKnown u.scheme || beforePathEnd c then along u [] s
    else withEnding { u with path := .segments [] } s

/-! Authorities -/

/-- What stands before the last `@`, if there is one, and what stands behind it. -/
def splitLogin (s : List Char) : Option (List Char) × List Char :=
  let behind := (s.reverse.takeWhile (· != '@')).reverse
  if behind.length == s.length then (none, s)
  else (some (s.take (s.length - behind.length - 1)), behind)

/-- What stands before the first colon outside brackets, and the rest. -/
def splitHost : Bool → List Char → List Char × List Char
  | _, [] => ([], [])
  | inside, c :: rest =>
    if c == ':' && !inside then ([], c :: rest)
    else
      let (host, rest) := splitHost (c == '[' || (inside && c != ']')) rest
      (c :: host, rest)

/-- The port at the start of a text and what follows it. The usual port is none. -/
def readPort (scheme : String) (s : List Char) : Except Fault (Option Nat × List Char) :=
  let (ds, rest) := s.span isDigit
  let n := ds.foldl (fun n c => n * 10 + (c.toNat - '0'.toNat)) 0
  if 65535 < n || rest.head?.any (· != '\\') then .error .port
  else .ok (if ds.isEmpty || usualPorts.lookup scheme == some n then none else some n, rest)

/-- The authority at the start of a text and what follows it. -/
def readAuthority (scheme : String) (s : List Char) : Except Fault (Authority × List Char) := do
  let (whole, rest) := s.span fun c => beforePathEnd c && !isSlash scheme c
  let (login, behind) := splitLogin whole
  if login == some [] && behind.isEmpty && !rest.isEmpty then throw .emptyHost
  let (user, password) := (login.getD []).span (· != ':')
  let (hostText, after) := splitHost false behind
  if hostText.isEmpty && isServer scheme then throw .emptyHost
  let host ← if isKnown scheme then Host.parse hostText else Host.parsePlain hostText
  if hostText.isEmpty && after.head? == some ':' then throw .emptyHost
  let (number, more) ← match after with
    | ':' :: digits => readPort scheme digits
    | _ => pure (none, after)
  let a : Authority := {
    user := escaped loginEscapes user
    password := escaped loginEscapes password.tail
    host
    port := number }
  if hostText.isEmpty && !(a.user.isEmpty && a.password.isEmpty) then throw .emptyHost
  return (a, more ++ rest)

/-- What follows the two slashes after a scheme. -/
def afterSlashes (scheme : String) (s : List Char) : Except Fault Url := do
  let (a, rest) ← readAuthority scheme s
  return fromRoot ⟨scheme, some a, .segments [], none, none⟩ rest

/-! Files -/

def noHost : Authority := { host := .name "" }

/-- Whether a text starts with a drive that is a whole segment. -/
def startsWithDrive (s : List Char) : Bool :=
  isDrive (s.take 2) && (s.drop 2).head?.all fun c => !beforePathEnd c || isSlash "file" c

/-- What follows the two slashes of a file: a host, unless it is a drive. The own host is none. -/
def fileAfterSlashes (s : List Char) : Except Fault Url := do
  let (hostText, rest) := s.span fun c => beforePathEnd c && !isSlash "file" c
  let u : Url := ⟨"file", some noHost, .segments [], none, none⟩
  if isDrive hostText then return along u [] s
  let host ← if hostText.isEmpty then pure (Host.name "") else Host.parse hostText
  let host := if host == .name "localhost" then .name "" else host
  return fromRoot { u with authority := some { host } } rest

/-- The segments of a hierarchy. -/
def segments (u : Url) : List String :=
  match u.path with
  | .segments ss => ss
  | .flat _ => []

/-- A reference from a base with a hierarchy. -/
def relative (base : Url) (s : List Char) : Except Fault Url :=
  match s with
  | [] => .ok { base with fragment := none }
  | c :: rest =>
    if c == '#' then .ok { base with fragment := (ending base.scheme s).2 }
    else if c == '?' then .ok (withEnding base s)
    else if c == '/' || c == '\\' then
      match rest with
      | '/' :: more =>
        if c == '/' then afterSlashes base.scheme more
        else afterSlashes base.scheme (more.dropWhile fun c => c == '/' || c == '\\')
      | '\\' :: more => afterSlashes base.scheme (more.dropWhile fun c => c == '/' || c == '\\')
      | _ => .ok (along base [] rest)
    else .ok (along base (up base.scheme base.segments.reverse) s)

/-- A file, completed from a base that is a file. -/
def file (base : Option Url) (s : List Char) : Except Fault Url :=
  let root : Url := ⟨"file", some noHost, .segments [], none, none⟩
  let start := match base with
    | some b => { root with authority := b.authority }
    | none => root
  match s with
  | c :: rest =>
    if isSlash "file" c then
      match rest with
      | d :: more =>
        if isSlash "file" d then fileAfterSlashes more
        else if startsWithDrive rest then .ok (along root [] rest)
        else
          match base.bind (·.segments.head?) with
          | some drive =>
            if isPlainDrive drive then .ok (along root [drive] rest) else .ok (along start [] rest)
          | none => .ok (along start [] rest)
      | [] => .ok (along start [] rest)
    else
      match base with
      | none => .ok (along root [] s)
      | some b => if startsWithDrive s then .ok (along root [] s) else relative b s
  | [] =>
    match base with
    | none => .ok (along root [] s)
    | some b => relative b s

/-! Whole texts -/

/-- What follows a scheme that is not known. -/
def other (scheme : String) (s : List Char) : Except Fault Url :=
  match s with
  | '/' :: '/' :: rest => afterSlashes scheme rest
  | '/' :: rest => .ok (along ⟨scheme, none, .segments [], none, none⟩ [] rest)
  | _ =>
    let (path, rest) := s.span beforePathEnd
    let kept := escape (fun c => ' ' ≤ c && c < '\x7f') path
    .ok (withEnding ⟨scheme, none, .flat (String.ofList kept), none, none⟩ rest)

/-- What follows a scheme. A base of the same scheme completes what has less than two slashes. -/
def afterScheme (base : Option Url) (scheme : String) (s : List Char) : Except Fault Url :=
  if isFile scheme then file (base.filter (·.scheme == scheme)) s
  else if isServer scheme then
    let (slashes, rest) := s.span fun c => c == '/' || c == '\\'
    match base.filter fun b => b.scheme == scheme && slashes.length < 2 with
    | some b => relative b s
    | none => afterSlashes scheme rest
  else other scheme s

/-- A URL or a reference, completed from a base if there is one. -/
def read (base : Option Url) (text : String) : Except Fault Url :=
  let s := clean text.toList
  match scheme? s with
  | some (scheme, rest) => afterScheme base scheme rest
  | none =>
    match base with
    | none => .error .noBase
    | some b =>
      if s.head? == some '#' then relative b s
      else
        match b.path with
        | .flat _ => .error .flatBase
        | .segments _ => if isFile b.scheme then file (some b) s else relative b s

def parse (text : String) : Except Fault Url := read none text

def join (base : Url) (reference : String) : Except Fault Url := read (some base) reference

end Bindery.Url
