import Bindery.Source.Token
import Bindery.Text.Blank
import Bindery.Text.Digits
import Bindery.Text.Quoted

/-!
# Reading tokens

Comments vanish, except those that document an item: they become attributes. Where several kinds of
token could start, literals come before punctuation and punctuation before identifiers.
-/
namespace Bindery.Source.Lexer

open Bindery.Text

/-- What is left of a text after something at its start, if that is there. -/
abbrev Scan := List Char → Option (List Char)

/-- White space, or a mark of the writing direction. -/
def isSpace (c : Char) : Bool := isBlank c || c.toNat == 0x200e || c.toNat == 0x200f

def lit (word : String) : Scan := fun s =>
  if word.toList.isPrefixOf s then some (s.drop word.length) else none

def startsWith (word : String) (s : List Char) : Bool := word.toList.isPrefixOf s

/-- The rest after the end of a nested comment that is `depth` levels deep. -/
def commentEnd : Nat → Scan
  | _, [] => none
  | depth, '/' :: '*' :: rest => commentEnd (depth + 1) rest
  | depth, '*' :: '/' :: rest => if depth ≤ 1 then some rest else commentEnd (depth - 1) rest
  | depth, _ :: rest => commentEnd depth rest

/-- A comment between `/*` and `*/`. -/
def blockComment : Scan
  | '/' :: '*' :: rest => commentEnd 1 rest
  | _ => none

/-- The text of a line and what follows its end. -/
def restOfLine : List Char → List Char × List Char
  | [] => ([], [])
  | '\n' :: rest => ([], '\n' :: rest)
  | '\r' :: '\n' :: rest => ([], '\n' :: rest)
  | c :: rest => let (line, after) := restOfLine rest; (c :: line, after)

/-- Skips blanks and plain comments, in at most the given number of steps. -/
def skipSpaceFrom : Nat → List Char → List Char
  | 0, s => s
  | n + 1, s =>
    if startsWith "//" s && (!startsWith "///" s || startsWith "////" s) && !startsWith "//!" s then
      skipSpaceFrom n (restOfLine s).2
    else if startsWith "/**/" s then skipSpaceFrom n (s.drop 4)
    else if startsWith "/*" s && (!startsWith "/**" s || startsWith "/***" s)
        && !startsWith "/*!" s then
      match blockComment s with
      | some rest => skipSpaceFrom n rest
      | none => s
    else match s with
      | c :: rest => if isSpace c then skipSpaceFrom n rest else s
      | [] => []

def skipSpace (s : List Char) : List Char := skipSpaceFrom s.length s

/-- An identifier or keyword without a raw mark. -/
def word : List Char → Option (List Char × List Char)
  | [] => none
  | c :: rest =>
    if startsIdentifier c then
      some (c :: rest.takeWhile continuesIdentifier, rest.dropWhile continuesIdentifier)
    else none

/-- Words that cannot be raw identifiers. -/
def neverRaw : List String := ["_", "super", "self", "Self", "crate"]

def identAny (s : List Char) : Option (Ident × List Char) := do
  if startsWith "r#" s then
    let (w, rest) ← word (s.drop 2)
    if neverRaw.contains (String.ofList w) then none
    else return (⟨String.ofList w, true⟩, rest)
  else
    let (w, rest) ← word s
    return (⟨String.ofList w, false⟩, rest)

/-- An identifier, where no literal with a letter in front starts. -/
def ident (s : List Char) : Option (Ident × List Char) :=
  if ["r\"", "r#\"", "r##", "b\"", "b'", "br\"", "br#", "c\"", "cr\"", "cr#"].any
      (startsWith · s) then none
  else identAny s

/-- An optional word directly after a literal. -/
def suffix (s : List Char) : List Char :=
  match word s with
  | some (_, rest) => rest
  | none => s

/-! Text literals -/

/-- What the characters between quotes stand for. -/
inductive Quoting where
  | text
  | bytes
  | nullTerminated
  deriving DecidableEq

/-- The character and the rest after `\u`: between braces, up to six digits with underscores
after the first. -/
def codePoint : List Char → Option (Char × List Char)
  | '\x7b' :: rest => digits 0 0 rest
  | _ => none
where
  digits (value count : Nat) : List Char → Option (Char × List Char)
    | [] => none
    | c :: rest =>
      match hexValue? c with
      | some d => if count == 6 then none else digits (value * 16 + d) (count + 1) rest
      | none =>
        if count == 0 then none
        else if c == '_' then digits value count rest
        else if c == '\x7d' then
          if value.isValidChar then some (Char.ofNat value, rest) else none
        else none

/-- What an escaped character is, and the rest after the escape. `s` starts behind the backslash. -/
def escape (q : Quoting) (s : List Char) : Option (Nat × List Char) :=
  match s with
  | 'n' :: rest => some (10, rest)
  | 'r' :: rest => some (13, rest)
  | 't' :: rest => some (9, rest)
  | '\\' :: rest => some (92, rest)
  | '\'' :: rest => some (39, rest)
  | '"' :: rest => some (34, rest)
  | '0' :: rest => if q = .nullTerminated then none else some (0, rest)
  | 'x' :: a :: b :: rest => do
    let v := (← hexValue? a) * 16 + (← hexValue? b)
    if (q = .text && v ≥ 128) || (q = .nullTerminated && v == 0) then none else some (v, rest)
  | 'u' :: rest => do
    if q = .bytes then none
    let (c, rest) ← codePoint rest
    if q = .nullTerminated && c.toNat == 0 then none else some (c.toNat, rest)
  | _ => none

/-- The rest after a backslash at a line end: blanks and line ends are skipped, and something must
follow. `feed` says that a line feed has to come next. -/
def continuation (feed : Bool) : Scan
  | [] => none
  | c :: rest =>
    if feed then if c == '\n' then continuation false rest else none
    else if c == ' ' || c == '\t' || c == '\n' then continuation false rest
    else if c == '\r' then continuation true rest
    else some (c :: rest)

def allowed (q : Quoting) (c : Char) : Bool :=
  match q with
  | .text => true
  | .bytes => c.toNat < 128
  | .nullTerminated => c != '\x00'

/-- The characters up to the closing quote, escapes replaced, and the rest after it. -/
def cooked (q : Quoting) : Nat → List Char → Option (List Char × List Char)
  | 0, _ => none
  | n + 1, s =>
    match s with
    | [] => none
    | '"' :: rest => some ([], rest)
    | '\r' :: '\n' :: rest => (cooked q n rest).map fun (cs, r) => ('\n' :: cs, r)
    | '\r' :: _ => none
    | '\\' :: '\n' :: rest => (continuation false rest).bind (cooked q n)
    | '\\' :: '\r' :: rest => (continuation true rest).bind (cooked q n)
    | '\\' :: rest => do
      let (v, rest) ← escape q rest
      let (cs, r) ← cooked q n rest
      return (Char.ofNat v :: cs, r)
    | c :: rest => do
      if !allowed q c then none
      let (cs, r) ← cooked q n rest
      return (c :: cs, r)

/-- The characters up to a quote followed by as many number signs as given. -/
def rawUntil (q : Quoting) (signs : List Char) : List Char → Option (List Char × List Char)
  | [] => none
  | c :: rest =>
    if c == '"' && signs.isPrefixOf rest then some ([], rest.drop signs.length)
    else if c == '\r' && rest.head? != some '\n' then none
    else if !allowed q c then none
    else (rawUntil q signs rest).map fun (cs, r) => (c :: cs, r)

/-- The content and the rest of a raw literal; `s` starts behind its letter. -/
def rawText (q : Quoting) (s : List Char) : Option (List Char × List Char) :=
  let signs := s.takeWhile (· == '#')
  match s.dropWhile (· == '#') with
  | '"' :: rest => if signs.length > 255 then none else rawUntil q signs rest
  | _ => none

def cookedText (q : Quoting) (s : List Char) : Option (List Char × List Char) :=
  cooked q s.length s

/-- The content and the rest of a text literal. -/
def text (s : List Char) : Option (List Char × List Char) :=
  match s with
  | '"' :: rest => cookedText .text rest
  | 'r' :: rest => rawText .text rest
  | _ => none

def byteText : Scan := fun s =>
  match s with
  | 'b' :: '"' :: rest => (cookedText .bytes rest).map Prod.snd
  | 'b' :: 'r' :: rest => (rawText .bytes rest).map Prod.snd
  | _ => none

def nullText : Scan := fun s =>
  match s with
  | 'c' :: '"' :: rest => (cookedText .nullTerminated rest).map Prod.snd
  | 'c' :: 'r' :: rest => (rawText .nullTerminated rest).map Prod.snd
  | _ => none

/-- A single quoted character. -/
def quotedChar (q : Quoting) : Scan := fun s => do
  match s with
  | [] => none
  | '\\' :: rest =>
    let (_, rest) ← escape q rest
    lit "'" rest
  | c :: rest => if allowed q c then lit "'" rest else none

def byte : Scan := fun s => (lit "b'" s).bind (quotedChar .bytes)

def character : Scan := fun s => (lit "'" s).bind (quotedChar .text)

/-! Numbers -/

/-- The rest after the digits of a number with a point or an exponent, and whether one was seen.
A point must not be followed by another one or by a word. -/
def mantissa (pointSeen : Bool) : List Char → Option (Bool × List Char)
  | [] => some (pointSeen, [])
  | c :: rest =>
    if isDigit c || c == '_' then mantissa pointSeen rest
    else if c == '.' && !pointSeen then
      if rest.head?.any fun d => d == '.' || startsIdentifier d then none
      else mantissa true rest
    else some (pointSeen, c :: rest)

/-- The rest after an exponent; `s` starts behind its letter. An exponent without digits is none,
and neither is one with two signs. -/
def exponent (signSeen digitSeen : Bool) : Scan
  | [] => if digitSeen then some [] else none
  | c :: rest =>
    if (c == '+' || c == '-') && !digitSeen then
      if signSeen then none else exponent true false rest
    else if isDigit c then exponent signSeen true rest
    else if c == '_' then exponent signSeen digitSeen rest
    else if digitSeen then some (c :: rest) else none

def isExponentMark (s : List Char) : Bool := s.head? == some 'e' || s.head? == some 'E'

def floatDigits : Scan := fun s => do
  if !(s.head?.any isDigit) then none
  let (pointSeen, rest) ← mantissa false s
  if isExponentMark rest then
    match exponent false false (rest.drop 1) with
    | some after => return after
    | none => if pointSeen then return rest else none
  else if pointSeen then return rest else none

/-- A number may end in a suffix and must not be followed by more of a word. -/
def numberEnd : Scan := fun s =>
  let rest := if s.head?.any startsIdentifier then suffix s else s
  if rest.head?.any continuesIdentifier then none else some rest

def float : Scan := fun s => (floatDigits s).bind numberEnd

/-- The rest after the digits of an integer in the given base. -/
def digitsIn (base : Nat) (empty : Bool) : Scan
  | [] => if empty then none else some []
  | c :: rest =>
    let ends : Option (List Char) := if empty then none else some (c :: rest)
    if c == '_' then if empty && base == 10 then none else digitsIn base empty rest
    else match hexValue? c with
      | some d =>
        if d < base then digitsIn base false rest
        else if isDigit c then none else ends
      | none => ends

def integer : Scan := fun s =>
  let digits :=
    if startsWith "0x" s then digitsIn 16 true (s.drop 2)
    else if startsWith "0o" s then digitsIn 8 true (s.drop 2)
    else if startsWith "0b" s then digitsIn 2 true (s.drop 2)
    else digitsIn 10 true s
  digits.bind numberEnd

/-- The rest after a literal. -/
def literal : Scan := fun s =>
  ((((((text s).map Prod.snd).or (byteText s)).or (nullText s)).or (byte s)).or (character s)
    |>.map suffix).or ((float s).or (integer s))

/-! Token trees -/

def isPunct (c : Char) : Bool := "~!@#$%^&*-=+|;:,<.>/?'".toList.contains c

/-- Whether the text starts with punctuation that is no comment. -/
def startsPunct (s : List Char) : Bool :=
  !startsWith "//" s && !startsWith "/*" s && s.head?.any isPunct

/-- An apostrophe is punctuation only in front of a lifetime. -/
def punct (s : List Char) : Option (Token × List Char) := do
  if !startsPunct s then none
  match s with
  | [] => none
  | '\'' :: rest =>
    let (_, after) ← identAny rest
    if after.head? == some '\'' || (after.head? == some '#' && !startsWith "r#" rest) then none
    else return (.punct '\'' true, rest)
  | c :: rest => return (.punct c (startsPunct rest), rest)

/-- A literal of its own that stands for one that was wrong. -/
def errorLiteral : String := "(/*ERROR*/)"

def leaf (s : List Char) : Option (Token × List Char) :=
  match literal s with
  | some rest => some (.literal (String.ofList (s.take (s.length - rest.length))), rest)
  | none => ((punct s).or ((ident s).map fun (i, rest) => (.ident i, rest))).or
    ((lit errorLiteral s).map fun rest => (.literal errorLiteral, rest))

/-- The content of a documenting comment, whether it documents what contains it, and the rest. -/
def docComment (s : List Char) : Option (List Char × Bool × List Char) := do
  let content ←
    if startsWith "//!" s then
      let (line, rest) := restOfLine (s.drop 3)
      pure (line, true, rest)
    else if startsWith "/*!" s then
      let rest ← blockComment s
      pure ((s.take (s.length - rest.length - 2)).drop 3, true, rest)
    else if startsWith "///" s && !startsWith "////" s then
      let (line, rest) := restOfLine (s.drop 3)
      pure (line, false, rest)
    else if startsWith "/**" s && !startsWith "/***" s then
      let rest ← blockComment s
      pure ((s.take (s.length - rest.length - 2)).drop 3, false, rest)
    else none
  if bareReturn content.1 then none else return content
where
  bareReturn : List Char → Bool
    | [] => false
    | c :: rest => (c == '\r' && rest.head? != some '\n') || bareReturn rest

/-- A documenting attribute, latest token first. -/
def docTokens (content : List Char) (inner : Bool) : List Token :=
  let body : List Token :=
    [.word "doc", .punct '=' false, .literal (String.ofList (Text.literal content))]
  .group .bracket body :: ((if inner then [.punct '!' false] else []) ++ [.punct '#' false])

def opening (c : Char) : Option Delimiter :=
  if c == '(' then some .paren else if c == '[' then some .bracket
  else if c == '\x7b' then some .brace else none

def closing (c : Char) : Option Delimiter :=
  if c == ')' then some .paren else if c == ']' then some .bracket
  else if c == '\x7d' then some .brace else none

/-- Reads on inside open groups, innermost first, each with the tokens before it. Tokens are held
latest first. -/
def trees : Nat → List (Delimiter × List Token) → List Token → List Char → Option (List Token)
  | 0, _, _, _ => none
  | n + 1, outer, done, s =>
    let s := skipSpace s
    match docComment s with
    | some (content, inner, rest) => trees n outer (docTokens content inner ++ done) rest
    | none =>
      match s with
      | [] => if outer.isEmpty then some done.reverse else none
      | c :: rest =>
        let opened := if startsWith errorLiteral s then none else opening c
        match opened, closing c, outer with
        | some d, _, _ => trees n ((d, done) :: outer) [] rest
        | none, some d, (e, before) :: outer =>
          if d = e then trees n outer (.group d done.reverse :: before) rest else none
        | none, some _, [] => none
        | none, none, _ =>
          match leaf s with
          | some (t, rest) => trees n outer (t :: done) rest
          | none => none

end Lexer

/-- The tokens of a text; none if it cannot be cut into tokens or a group is not closed. A byte
order mark at the start is skipped. -/
def tokens? (text : String) : Option (List Token) :=
  let s := text.toList
  let s := if s.head? == some (Char.ofNat 0xfeff) then s.drop 1 else s
  Lexer.trees (s.length + 1) [] [] s

end Bindery.Source
