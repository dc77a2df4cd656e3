import Bindery.Text.Blank
import Bindery.Text.Case
import Bindery.Text.Identifier
import Bindery.Text.Letter

/-!
# Names of generated items

Catalog names are dotted words of any case. Types are named by the Pascal case of a name, functions
and fields by its snake case; words that the emitted language reserves are escaped.
-/
namespace Bindery.Naming

open Bindery.Text

/-- Drops dots and underscores and capitalises what follows them and the first character. -/
def pascalFrom (capital : Bool) : List Char → List Char
  | [] => []
  | c :: rest =>
    if c == '.' || c == '_' then pascalFrom true rest
    else if capital then upper c ++ pascalFrom false rest
    else c :: pascalFrom false rest

def pascalCase (s : String) : String := String.ofList (pascalFrom true s.toList)

/-- The text before a suffix. -/
def dropSuffix? (suf s : List Char) : Option (List Char) :=
  if suf.isSuffixOf s then some (s.take (s.length - suf.length)) else none

/-- The name of one element of a list: a final `es`, or else a final `s`, is dropped if something
is left. -/
def singularize (s : String) : String :=
  let name := s.toList
  match (dropSuffix? ['e', 's'] name).or (dropSuffix? ['s'] name) with
  | some (c :: stem) => String.ofList (c :: stem)
  | _ => s

/-- The case of the last cased character of a word. -/
inductive Mode where
  | none
  | lower
  | upper
  deriving DecidableEq, Repr

/-- The mode after a character that starts no new word. -/
def Mode.after (m : Mode) (c : Char) : Mode :=
  if isLowercase c then .lower else if isUppercase c then .upper else m

/-- Cuts a piece into words: after a lowercase character that an uppercase one follows, and before
the last of several uppercase characters that a lowercase one follows. `word` holds the current
word, latest character first. -/
def wordsFrom (m : Mode) (word : List Char) : List Char → List (List Char)
  | [] => []
  | [c] => [(c :: word).reverse]
  | c :: next :: rest =>
    if m.after c == .lower && isUppercase next then
      (c :: word).reverse :: wordsFrom .none [] (next :: rest)
    else if m == .upper && isUppercase c && isLowercase next then
      word.reverse :: wordsFrom .none [c] (next :: rest)
    else wordsFrom (m.after c) (c :: word) (next :: rest)

/-- The words of a text, cut also at everything that is neither a letter nor a number. -/
def words (s : List Char) : List (List Char) :=
  (splitBy (fun c => !isAlphanumeric c) s).flatMap (wordsFrom .none [])

/-- The words of the Pascal case of a name in lowercase, joined by underscores. -/
def snakeCase (s : String) : String :=
  String.ofList (['_'].intercalate ((words (pascalFrom true s.toList)).map lowerWord))

/-- Whether a name can stand for a generated item: a letter or underscore followed by letters,
numbers and underscores, and not the underscore alone. -/
def isIdentifier (s : String) : Bool :=
  match s.toList with
  | [] => false
  | c :: rest =>
    (c == '_' || isAlphabetic c) && s != "_" && rest.all fun d => d == '_' || isAlphanumeric d

/-- Reserved words that may be used as identifiers behind a raw mark. -/
def rawKeywords : List String := [
  "abstract", "as", "async", "await", "become", "box", "break", "const", "continue", "do", "dyn",
  "else", "enum", "extern", "false", "final", "fn", "for", "gen", "if", "impl", "in", "let", "loop",
  "macro", "match", "mod", "move", "mut", "override", "priv", "pub", "ref", "return", "static",
  "struct", "trait", "true", "try", "type", "typeof", "unsafe", "unsized", "use", "virtual",
  "where", "while", "yield"]

/-- Reserved words that name places in a path and cannot be raw. -/
def pathKeywords : List String := ["crate", "self", "Self", "super"]

def isPathKeyword (s : String) : Bool := pathKeywords.contains s

end Bindery.Naming
