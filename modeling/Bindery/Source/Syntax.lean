import Bindery.Source.Token

/-!
# Syntax trees

The grammar of the emitted language. All trees form one family, indexed by what they stand for.
Parentheses are kept where they were written, and lists remember a trailing separator, so that a
tree determines its tokens. Syntax that can be read but not laid out is kept as tokens.
-/
namespace Bindery.Source

/-- A path without arguments, as modules and macros have. -/
structure SimplePath where
  rooted : Bool
  names : List Ident
  deriving DecidableEq, Repr

namespace SimplePath

def ofName (name : Ident) : SimplePath := ⟨false, [name]⟩

def ofWord (w : String) : SimplePath := ofName ⟨w, false⟩

/-- Whether the path is a single plain word. -/
def isWord (p : SimplePath) (w : String) : Bool := p == ofWord w

end SimplePath

/-- An invocation of a macro. Its input is not looked into. -/
structure MacroCall where
  path : SimplePath
  delimiter : Delimiter
  input : List Token

/-- Who may use an item. `marked` says that the word `in` stands before the path. -/
inductive Visibility where
  | inherited
  | everywhere
  | within (marked : Bool) (p : SimplePath)
  deriving DecidableEq, Repr

/-- What stands in front of an item. An item with a default may be replaced by a more special
one. -/
structure Front where
  vis : Visibility := .inherited
  default : Bool := false
  deriving DecidableEq, Repr

/-- An identifier or the position of an element. -/
inductive Member where
  | name (i : Ident)
  | position (n : Nat)
  deriving DecidableEq, Repr

def Member.text : Member → String
  | .name i => i.text
  | .position n => toString n

/-- The calling convention of a function; its name is a literal. -/
structure Convention where
  name : Option String
  deriving DecidableEq, Repr

/-- The lifetimes that another one outlives. -/
structure Outlived where
  names : List Ident := []
  trailing : Bool := false
  deriving DecidableEq, Repr

/-- What stands in front of a block. -/
inductive BlockKind where
  | plain
  | guarded
  | constant
  | trying
  | async (owned : Bool)
  deriving DecidableEq, Repr

/-- What stands in front of the parameters of a closure, in this order. -/
structure ClosureFlags where
  constant : Bool := false
  pinned : Bool := false
  async : Bool := false
  owned : Bool := false
  deriving DecidableEq, Repr

/-- What stands in front of a function, in this order. -/
structure FnFlags where
  constant : Bool := false
  async : Bool := false
  guarded : Bool := false
  convention : Option Convention := none
  deriving DecidableEq, Repr

inductive UseTree where
  | path (name : Ident) (rest : UseTree)
  | name (name : Ident)
  | rename (name other : Ident)
  | glob
  | group (items : List UseTree) (trailing : Bool)

/-- What a tree stands for. -/
inductive Kind where
  | attr
  | type
  | namedType
  | variadic
  | path
  | segment
  | arguments
  | place
  | genericArg
  | bound
  | genericParam
  | params
  | binder
  | whereRule
  | rules
  | expr
  | fieldValue
  | arm
  | pat
  | fieldPat
  | stmt
  | block
  | field
  | fields
  | variant
  | param
  | signature
  | item
  | members
  deriving DecidableEq, Repr

/-- One tree of a kind, a list of them, or at most one. -/
inductive Shape where
  | one (k : Kind)
  | many (k : Kind)
  | maybe (k : Kind)
  deriving DecidableEq, Repr

inductive Tree : Shape → Type where
  | nil {k : Kind} : Tree (.many k)
  | cons {k : Kind} (x : Tree (.one k)) (rest : Tree (.many k)) : Tree (.many k)
  | absent {k : Kind} : Tree (.maybe k)
  | present {k : Kind} (x : Tree (.one k)) : Tree (.maybe k)
  -- attributes; an inner one belongs to what contains it
  | markAttr (inner : Bool) (p : SimplePath) : Tree (.one .attr)
  | listAttr (inner : Bool) (p : SimplePath) (d : Delimiter) (input : List Token) :
      Tree (.one .attr)
  | valueAttr (inner : Bool) (p : SimplePath) (value : Tree (.one .expr)) : Tree (.one .attr)
  -- types
  | arrayType (elem : Tree (.one .type)) (length : Tree (.one .expr)) : Tree (.one .type)
  | fnType (binder : Tree (.maybe .binder)) (guarded : Bool) (convention : Option Convention)
      (inputs : Tree (.many .namedType)) (trailing : Bool) (rest : Tree (.maybe .variadic))
      (output : Tree (.maybe .type)) : Tree (.one .type)
  | someType (bounds : Tree (.many .bound)) (trailing : Bool) : Tree (.one .type)
  | inferredType : Tree (.one .type)
  | macroType (m : MacroCall) : Tree (.one .type)
  | neverType : Tree (.one .type)
  | parenType (t : Tree (.one .type)) : Tree (.one .type)
  | pathType (p : Tree (.one .place)) : Tree (.one .type)
  | pointerType (mutable : Bool) (t : Tree (.one .type)) : Tree (.one .type)
  | referenceType (lifetime : Option Ident) (mutable : Bool) (t : Tree (.one .type)) :
      Tree (.one .type)
  | sliceType (t : Tree (.one .type)) : Tree (.one .type)
  | objectType (marked : Bool) (bounds : Tree (.many .bound)) (trailing : Bool) :
      Tree (.one .type)
  | tupleType (elems : Tree (.many .type)) (trailing : Bool) : Tree (.one .type)
  | strangeType (tokens : List Token) : Tree (.one .type)
  | namedType (attrs : Tree (.many .attr)) (name : Option Ident) (t : Tree (.one .type)) :
      Tree (.one .namedType)
  /-- The last parameter of a function that takes any number of them. -/
  | variadic (attrs : Tree (.many .attr)) (name : Tree (.maybe .pat)) (trailing : Bool) :
      Tree (.one .variadic)
  -- paths
  | path (rooted : Bool) (segments : Tree (.many .segment)) : Tree (.one .path)
  | segment (name : Ident) (args : Tree (.one .arguments)) : Tree (.one .segment)
  | noArgs : Tree (.one .arguments)
  | angleArgs (turbofish : Bool) (args : Tree (.many .genericArg)) (trailing : Bool) :
      Tree (.one .arguments)
  | callArgs (inputs : Tree (.many .type)) (trailing : Bool) (output : Tree (.maybe .type)) :
      Tree (.one .arguments)
  | plainPlace (p : Tree (.one .path)) : Tree (.one .place)
  /-- What a type has under a name, as an implementation of a trait if one is given. -/
  | itemPlace (self : Tree (.one .type)) (ofTrait : Tree (.maybe .path))
      (rest : Tree (.many .segment)) : Tree (.one .place)
  | lifetimeArg (name : Ident) : Tree (.one .genericArg)
  | typeArg (t : Tree (.one .type)) : Tree (.one .genericArg)
  | constArg (e : Tree (.one .expr)) : Tree (.one .genericArg)
  | assocTypeArg (name : Ident) (args : Tree (.one .arguments)) (t : Tree (.one .type)) :
      Tree (.one .genericArg)
  | assocConstArg (name : Ident) (args : Tree (.one .arguments)) (e : Tree (.one .expr)) :
      Tree (.one .genericArg)
  | constraintArg (name : Ident) (args : Tree (.one .arguments)) (bounds : Tree (.many .bound))
      (trailing : Bool) : Tree (.one .genericArg)
  -- bounds, generic parameters and the rules on them
  | lifetimeBound (name : Ident) : Tree (.one .bound)
  | traitBound (paren maybe : Bool) (binder : Tree (.maybe .binder)) (p : Tree (.one .path)) :
      Tree (.one .bound)
  | captureBound (names : List (Bool × Ident)) (trailing : Bool) : Tree (.one .bound)
  | strangeBound (tokens : List Token) : Tree (.one .bound)
  | lifetimeParam (attrs : Tree (.many .attr)) (name : Ident) (bounds : Outlived) :
      Tree (.one .genericParam)
  | typeParam (attrs : Tree (.many .attr)) (name : Ident) (bounds : Tree (.many .bound))
      (trailing : Bool) (default : Tree (.maybe .type)) : Tree (.one .genericParam)
  | constParam (attrs : Tree (.many .attr)) (name : Ident) (t : Tree (.one .type))
      (default : Tree (.maybe .expr)) : Tree (.one .genericParam)
  | params (elems : Tree (.many .genericParam)) (trailing : Bool) : Tree (.one .params)
  | forAll (elems : Tree (.many .genericParam)) (trailing : Bool) : Tree (.one .binder)
  | lifetimeRule (name : Ident) (bounds : Outlived) : Tree (.one .whereRule)
  | typeRule (binder : Tree (.maybe .binder)) (t : Tree (.one .type))
      (bounds : Tree (.many .bound)) (trailing : Bool) : Tree (.one .whereRule)
  | rules (elems : Tree (.many .whereRule)) (trailing : Bool) : Tree (.one .rules)
  -- expressions
  | attributed (attrs : Tree (.many .attr)) (e : Tree (.one .expr)) : Tree (.one .expr)
  | arrayExpr (elems : Tree (.many .expr)) (trailing : Bool) : Tree (.one .expr)
  | assignExpr (left right : Tree (.one .expr)) : Tree (.one .expr)
  | awaitExpr (e : Tree (.one .expr)) : Tree (.one .expr)
  | binaryExpr (left : Tree (.one .expr)) (op : String) (right : Tree (.one .expr)) :
      Tree (.one .expr)
  | blockExpr (label : Option Ident) (kind : BlockKind) (body : Tree (.one .block)) :
      Tree (.one .expr)
  | breakExpr (label : Option Ident) (value : Tree (.maybe .expr)) : Tree (.one .expr)
  | callExpr (callee : Tree (.one .expr)) (args : Tree (.many .expr)) (trailing : Bool) :
      Tree (.one .expr)
  | castExpr (e : Tree (.one .expr)) (t : Tree (.one .type)) : Tree (.one .expr)
  | closureExpr (binder : Tree (.maybe .binder)) (flags : ClosureFlags)
      (inputs : Tree (.many .pat)) (trailing : Bool) (output : Tree (.maybe .type))
      (body : Tree (.one .expr)) : Tree (.one .expr)
  | continueExpr (label : Option Ident) : Tree (.one .expr)
  | fieldExpr (e : Tree (.one .expr)) (m : Member) : Tree (.one .expr)
  | forExpr (label : Option Ident) (pat : Tree (.one .pat)) (source : Tree (.one .expr))
      (body : Tree (.one .block)) : Tree (.one .expr)
  | ifExpr (cond : Tree (.one .expr)) (body : Tree (.one .block))
      (otherwise : Tree (.maybe .expr)) : Tree (.one .expr)
  | indexExpr (e i : Tree (.one .expr)) : Tree (.one .expr)
  | inferredExpr : Tree (.one .expr)
  | letExpr (pat : Tree (.one .pat)) (e : Tree (.one .expr)) : Tree (.one .expr)
  | literalExpr (text : String) : Tree (.one .expr)
  | loopExpr (label : Option Ident) (body : Tree (.one .block)) : Tree (.one .expr)
  | macroExpr (m : MacroCall) : Tree (.one .expr)
  | matchExpr (e : Tree (.one .expr)) (attrs : Tree (.many .attr)) (arms : Tree (.many .arm)) :
      Tree (.one .expr)
  | methodExpr (receiver : Tree (.one .expr)) (name : Ident) (typeArgs : Tree (.one .arguments))
      (args : Tree (.many .expr)) (trailing : Bool) : Tree (.one .expr)
  | parenExpr (e : Tree (.one .expr)) : Tree (.one .expr)
  | pathExpr (p : Tree (.one .place)) : Tree (.one .expr)
  | rangeExpr (left : Tree (.maybe .expr)) (closed : Bool) (right : Tree (.maybe .expr)) :
      Tree (.one .expr)
  /-- The address of a place, as a pointer. -/
  | addressExpr (mutable : Bool) (e : Tree (.one .expr)) : Tree (.one .expr)
  | referenceExpr (mutable : Bool) (e : Tree (.one .expr)) : Tree (.one .expr)
  | repeatExpr (e length : Tree (.one .expr)) : Tree (.one .expr)
  | returnExpr (value : Tree (.maybe .expr)) : Tree (.one .expr)
  | structExpr (p : Tree (.one .place)) (fields : Tree (.many .fieldValue)) (trailing : Bool)
      (dots : Bool) (base : Tree (.maybe .expr)) : Tree (.one .expr)
  | tryExpr (e : Tree (.one .expr)) : Tree (.one .expr)
  | tupleExpr (elems : Tree (.many .expr)) (trailing : Bool) : Tree (.one .expr)
  | unaryExpr (op : Char) (e : Tree (.one .expr)) : Tree (.one .expr)
  | whileExpr (label : Option Ident) (cond : Tree (.one .expr)) (body : Tree (.one .block)) :
      Tree (.one .expr)
  | yieldExpr (value : Tree (.maybe .expr)) : Tree (.one .expr)
  | strangeExpr (tokens : List Token) : Tree (.one .expr)
  /-- A field of a struct expression; without a value it takes the variable of its name. -/
  | fieldValue (attrs : Tree (.many .attr)) (m : Member) (value : Tree (.maybe .expr)) :
      Tree (.one .fieldValue)
  | arm (attrs : Tree (.many .attr)) (pat : Tree (.one .pat)) (guard : Tree (.maybe .expr))
      (body : Tree (.one .expr)) (comma : Bool) : Tree (.one .arm)
  -- patterns
  | attributedPat (attrs : Tree (.many .attr)) (p : Tree (.one .pat)) : Tree (.one .pat)
  | anyPat : Tree (.one .pat)
  | constPat (body : Tree (.one .block)) : Tree (.one .pat)
  | identPat (byRef mutable : Bool) (name : Ident) (sub : Tree (.maybe .pat)) : Tree (.one .pat)
  | literalPat (text : String) : Tree (.one .pat)
  | rangePat (left : Tree (.maybe .expr)) (closed : Bool) (right : Tree (.maybe .expr)) :
      Tree (.one .pat)
  | macroPat (m : MacroCall) : Tree (.one .pat)
  | orPat (bar : Bool) (cases : Tree (.many .pat)) : Tree (.one .pat)
  | parenPat (p : Tree (.one .pat)) : Tree (.one .pat)
  | pathPat (p : Tree (.one .place)) : Tree (.one .pat)
  | referencePat (mutable : Bool) (p : Tree (.one .pat)) : Tree (.one .pat)
  | restPat : Tree (.one .pat)
  | slicePat (elems : Tree (.many .pat)) (trailing : Bool) : Tree (.one .pat)
  | structPat (p : Tree (.one .place)) (fields : Tree (.many .fieldPat)) (trailing : Bool)
      (rest : Tree (.maybe .fieldPat)) : Tree (.one .pat)
  | tuplePat (elems : Tree (.many .pat)) (trailing : Bool) : Tree (.one .pat)
  | tupleStructPat (p : Tree (.one .place)) (elems : Tree (.many .pat)) (trailing : Bool) :
      Tree (.one .pat)
  | typedPat (p : Tree (.one .pat)) (t : Tree (.one .type)) : Tree (.one .pat)
  | strangePat (tokens : List Token) : Tree (.one .pat)
  | fieldPat (attrs : Tree (.many .attr)) (m : Member) (p : Tree (.one .pat)) :
      Tree (.one .fieldPat)
  | shortFieldPat (attrs : Tree (.many .attr)) (p : Tree (.one .pat)) : Tree (.one .fieldPat)
  /-- Stands for all other fields. -/
  | otherFieldsPat (attrs : Tree (.many .attr)) : Tree (.one .fieldPat)
  -- statements
  | letStmt (attrs : Tree (.many .attr)) (pat : Tree (.one .pat)) (value : Tree (.maybe .expr))
      (otherwise : Tree (.maybe .block)) : Tree (.one .stmt)
  | itemStmt (i : Tree (.one .item)) : Tree (.one .stmt)
  | exprStmt (e : Tree (.one .expr)) (semi : Bool) : Tree (.one .stmt)
  | macroStmt (attrs : Tree (.many .attr)) (m : MacroCall) (semi : Bool) : Tree (.one .stmt)
  | emptyStmt : Tree (.one .stmt)
  | block (attrs : Tree (.many .attr)) (stmts : Tree (.many .stmt)) : Tree (.one .block)
  -- parts of items
  | field (attrs : Tree (.many .attr)) (vis : Visibility) (name : Option Ident)
      (t : Tree (.one .type)) : Tree (.one .field)
  | unitFields : Tree (.one .fields)
  | namedFields (elems : Tree (.many .field)) (trailing : Bool) : Tree (.one .fields)
  | plainFields (elems : Tree (.many .field)) (trailing : Bool) : Tree (.one .fields)
  | variant (attrs : Tree (.many .attr)) (name : Ident) (fields : Tree (.one .fields))
      (value : Tree (.maybe .expr)) : Tree (.one .variant)
  | selfParam (attrs : Tree (.many .attr)) (reference : Bool) (lifetime : Option Ident)
      (mutable : Bool) (t : Tree (.maybe .type)) : Tree (.one .param)
  | param (attrs : Tree (.many .attr)) (pat : Tree (.one .pat)) (t : Tree (.one .type)) :
      Tree (.one .param)
  | signature (flags : FnFlags) (name : Ident) (params : Tree (.maybe .params))
      (inputs : Tree (.many .param)) (trailing : Bool) (rest : Tree (.maybe .variadic))
      (output : Tree (.maybe .type)) (rules : Tree (.maybe .rules)) : Tree (.one .signature)
  | members (attrs : Tree (.many .attr)) (items : Tree (.many .item)) : Tree (.one .members)
  -- items
  | constItem (attrs : Tree (.many .attr)) (front : Front) (name : Ident)
      (t : Tree (.one .type)) (value : Tree (.maybe .expr)) : Tree (.one .item)
  | enumItem (attrs : Tree (.many .attr)) (front : Front) (name : Ident)
      (params : Tree (.maybe .params)) (rules : Tree (.maybe .rules))
      (variants : Tree (.many .variant)) (trailing : Bool) : Tree (.one .item)
  /-- Declarations of what is defined elsewhere. -/
  | externItem (attrs : Tree (.many .attr)) (guarded : Bool) (convention : Convention)
      (content : Tree (.one .members)) : Tree (.one .item)
  | externCrateItem (attrs : Tree (.many .attr)) (front : Front) (name : Ident)
      (other : Option Ident) : Tree (.one .item)
  | fnItem (attrs : Tree (.many .attr)) (front : Front) (sig : Tree (.one .signature))
      (body : Tree (.maybe .block)) : Tree (.one .item)
  /-- `denied` says that the type does not have the trait. -/
  | implItem (attrs : Tree (.many .attr)) (front : Front) (guarded : Bool)
      (params : Tree (.maybe .params)) (denied : Bool) (ofTrait : Tree (.maybe .path))
      (self : Tree (.one .type)) (rules : Tree (.maybe .rules))
      (content : Tree (.one .members)) : Tree (.one .item)
  | macroItem (attrs : Tree (.many .attr)) (m : MacroCall) (name : Option Ident) :
      Tree (.one .item)
  | moduleItem (attrs : Tree (.many .attr)) (front : Front) (guarded : Bool) (name : Ident)
      (content : Tree (.maybe .members)) : Tree (.one .item)
  | staticItem (attrs : Tree (.many .attr)) (front : Front) (mutable : Bool) (name : Ident)
      (t : Tree (.one .type)) (value : Tree (.maybe .expr)) : Tree (.one .item)
  | structItem (attrs : Tree (.many .attr)) (front : Front) (name : Ident)
      (params : Tree (.maybe .params)) (fields : Tree (.one .fields))
      (rules : Tree (.maybe .rules)) : Tree (.one .item)
  | traitItem (attrs : Tree (.many .attr)) (front : Front) (guarded auto : Bool) (name : Ident)
      (params : Tree (.maybe .params)) (bounds : Tree (.many .bound)) (trailing : Bool)
      (rules : Tree (.maybe .rules)) (content : Tree (.one .members)) : Tree (.one .item)
  | traitAliasItem (attrs : Tree (.many .attr)) (front : Front) (name : Ident)
      (params : Tree (.maybe .params)) (bounds : Tree (.many .bound)) (trailing : Bool)
      (rules : Tree (.maybe .rules)) : Tree (.one .item)
  | typeItem (attrs : Tree (.many .attr)) (front : Front) (name : Ident)
      (params : Tree (.maybe .params)) (rules : Tree (.maybe .rules)) (t : Tree (.one .type)) :
      Tree (.one .item)
  /-- A type that belongs to a trait or to an implementation of one. -/
  | assocTypeItem (attrs : Tree (.many .attr)) (front : Front) (name : Ident)
      (params : Tree (.maybe .params)) (bounds : Tree (.many .bound)) (trailing : Bool)
      (t : Tree (.maybe .type)) (rules : Tree (.maybe .rules)) : Tree (.one .item)
  /-- A type that is defined elsewhere. -/
  | foreignTypeItem (attrs : Tree (.many .attr)) (front : Front) (name : Ident)
      (params : Tree (.maybe .params)) (rules : Tree (.maybe .rules)) : Tree (.one .item)
  | unionItem (attrs : Tree (.many .attr)) (front : Front) (name : Ident)
      (params : Tree (.maybe .params)) (rules : Tree (.maybe .rules))
      (fields : Tree (.one .fields)) : Tree (.one .item)
  | useItem (attrs : Tree (.many .attr)) (front : Front) (rooted : Bool) (tree : UseTree) :
      Tree (.one .item)
  | strangeItem (tokens : List Token) : Tree (.one .item)

abbrev Attribute := Tree (.one .attr)
abbrev Ty := Tree (.one .type)
abbrev Path := Tree (.one .path)
abbrev Place := Tree (.one .place)
abbrev Expr := Tree (.one .expr)
abbrev Pat := Tree (.one .pat)
abbrev Stmt := Tree (.one .stmt)
abbrev Block := Tree (.one .block)
abbrev Item := Tree (.one .item)

namespace Tree

/-- The list tree of a list. -/
def ofList : List (Tree (.one k)) → Tree (.many k)
  | [] => .nil
  | x :: rest => .cons x (ofList rest)

/-- What a tree of each shape holds as a list. -/
@[reducible] def Listed : Shape → Type
  | .many k => List (Tree (.one k))
  | _ => Unit

def listed : {s : Shape} → Tree s → Listed s
  | .many _, .nil => []
  | .many _, .cons x rest => x :: rest.listed
  | .one _, _ => ()
  | .maybe _, _ => ()

def toList (t : Tree (.many k)) : List (Tree (.one k)) := t.listed

def isNil : Tree (.many k) → Bool
  | .nil => true
  | .cons _ _ => false

def isAbsent : Tree (.maybe k) → Bool
  | .absent => true
  | .present _ => false

@[simp] theorem toList_nil : toList (.nil : Tree (.many k)) = [] := rfl

@[simp] theorem toList_cons (x : Tree (.one k)) (rest : Tree (.many k)) :
    toList (.cons x rest) = x :: rest.toList := rfl

@[simp] theorem toList_ofList (xs : List (Tree (.one k))) : (ofList xs).toList = xs := by
  induction xs with
  | nil => rfl
  | cons x rest ih => simp [ofList, ih]

end Tree

/-- A file: attributes of the whole and its items. -/
structure File where
  attrs : List Attribute
  items : List Item

end Bindery.Source
