import Bindery.Source.Syntax
import Bindery.Text.Quoted

/-!
# Building code

Short ways to write the trees that emitted code consists of.
-/
namespace Bindery.Source

open Bindery.Source.Tree

/-- A plain word as an identifier. -/
def plain (w : String) : Ident := ⟨w, false⟩

/-- A string literal. -/
def quote (text : String) : String := String.ofList (Text.literal text.toList)

/-! Paths -/

/-- One segment of a path, without arguments. -/
def segmentOf (name : Ident) : Tree (.one .segment) := .segment name .noArgs

/-- One segment of a path, with type arguments. -/
def segmentWith (name : Ident) (args : List Ty) : Tree (.one .segment) :=
  .segment name (.angleArgs false (ofList (args.map .typeArg)) false)

/-- The path of some words. -/
def wordPath (words : List String) : Path :=
  .path false (ofList (words.map fun w => segmentOf (plain w)))

/-- A path with more segments at its end. -/
def extend (p : Path) (more : List (Tree (.one .segment))) : Path :=
  match p with
  | .path rooted segments => .path rooted (ofList (segments.toList ++ more))

/-- What a path has under some words. -/
def within (p : Path) (words : List String) : Path :=
  extend p (words.map fun w => segmentOf (plain w))

/-! Types -/

def pathType (p : Path) : Ty := .pathType (.plainPlace p)

def nameType (name : Ident) : Ty := pathType (.path false (ofList [segmentOf name]))

def wordType (w : String) : Ty := nameType (plain w)

def genericType (w : String) (args : List Ty) : Ty :=
  pathType (.path false (ofList [segmentWith (plain w) args]))

/-- A type with one lifetime argument. -/
def borrowingType (name lifetime : Ident) : Ty :=
  pathType (.path false (ofList [.segment name
    (.angleArgs false (ofList [.lifetimeArg lifetime]) false)]))

def referenceTo (t : Ty) : Ty := .referenceType none false t

/-- Anything that turns into a text. -/
def intoString : Ty :=
  .someType (ofList [.traitBound false false .absent
    (.path false (ofList [segmentWith (plain "Into") [wordType "String"]]))]) false

/-! Expressions -/

def pathExpr (p : Path) : Expr := .pathExpr (.plainPlace p)

def nameExpr (name : Ident) : Expr := pathExpr (.path false (ofList [segmentOf name]))

def wordExpr (w : String) : Expr := nameExpr (plain w)

def textExpr (text : String) : Expr := .literalExpr (quote text)

def callOf (f : Expr) (args : List Expr) : Expr := .callExpr f (ofList args) false

def fieldOf (e : Expr) (name : Ident) : Expr := .fieldExpr e (.name name)

def methodOf (e : Expr) (name : String) (args : List Expr) : Expr :=
  .methodExpr e (plain name) .noArgs (ofList args) false

/-- A field of `self`. -/
def selfField (name : Ident) : Expr := fieldOf (wordExpr "self") name

def borrowed (e : Expr) : Expr := .referenceExpr false e

def negated (e : Expr) : Expr := .unaryExpr '!' e

/-- A field of a struct expression. -/
def setField (name : Ident) (e : Expr) : Tree (.one .fieldValue) :=
  .fieldValue .nil (.name name) (.present e)

/-- A field of a struct expression that takes the variable of its name. -/
def sameField (name : Ident) : Tree (.one .fieldValue) := .fieldValue .nil (.name name) .absent

/-! Statements -/

def doStmt (e : Expr) : Stmt := .exprStmt e true

/-- The value of a block. -/
def valueStmt (e : Expr) : Stmt := .exprStmt e false

def blockOf (stmts : List Stmt) : Block := .block .nil (ofList stmts)

/-- A condition with a block. As the last statement of its own block it has no semicolon. -/
def ifStmt (cond : Expr) (stmts : List Stmt) : Stmt :=
  .exprStmt (.ifExpr cond (blockOf stmts) .absent) false

def namePat (name : Ident) : Pat := .identPat false false name .absent

def letStmt (name : Ident) (e : Expr) : Stmt := .letStmt .nil (namePat name) (.present e) .absent

/-! Attributes -/

/-- An outer attribute that gives a text to a word. -/
def textAttribute (w text : String) : Attribute :=
  .valueAttr false (SimplePath.ofWord w) (textExpr text)

/-- Documentation, one line an attribute. -/
def docs (lines : List String) : List Attribute := lines.map (textAttribute "doc")

def listAttribute (w : String) (tokens : List Token) : Attribute :=
  .listAttr false (SimplePath.ofWord w) .paren tokens

/-! Items -/

/-- A parameter with its type. -/
def paramOf (name : Ident) (t : Ty) : Tree (.one .param) := .param .nil (namePat name) t

/-- The receiver as it is given, by reference, or as a variable. -/
def selfRef : Tree (.one .param) := .selfParam .nil true none false .absent

def selfMut : Tree (.one .param) := .selfParam .nil false none true .absent

def publicFront : Front := { vis := .everywhere }

/-- A public function. -/
def publicFn (attrs : List Attribute) (flags : FnFlags) (name : Ident)
    (inputs : List (Tree (.one .param))) (output : Ty) (stmts : List Stmt) : Item :=
  .fnItem (ofList attrs) publicFront
    (.signature flags name .absent (ofList inputs) false .absent (.present output) .absent)
    (.present (blockOf stmts))

/-- A field with a name. -/
def fieldNamed (attrs : List Attribute) (vis : Visibility) (name : Ident) (t : Ty) :
    Tree (.one .field) :=
  .field (ofList attrs) vis (some name) t

/-- A struct, each of whose fields is followed by a comma. -/
def structOf (attrs : List Attribute) (front : Front) (name : Ident)
    (generics : Tree (.maybe .params)) (elems : List (Tree (.one .field))) : Item :=
  .structItem (ofList attrs) front name generics (.namedFields (ofList elems) true) .absent

/-- The functions of a type. -/
def implOf (t : Ty) (items : List Item) : Item :=
  .implItem .nil {} false .absent false .absent t .absent (.members .nil (ofList items))

/-- A type item without parameters. -/
def aliasOf (name : Ident) (t : Ty) : Item := .typeItem .nil {} name .absent .absent t

end Bindery.Source
