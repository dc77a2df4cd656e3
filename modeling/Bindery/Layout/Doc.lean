/-!
# Boxes and breaks

A document is text with places where a line may end. The breaks of a consistent box that does not
fit all end their lines; those of an inconsistent box only where the text up to the next break does
not fit. Widths count bytes of UTF-8.
-/
namespace Bindery.Layout

/-- A place where a line may end. If it does, `before` is written first, `after` starts the new
line, and the indentation is that of the box plus `offset`. Otherwise `blank` spaces and `unbroken` are
written. An optional break is left out at the end of its box. -/
structure Break where
  blank : Nat := 0
  offset : Int := 0
  before : String := ""
  after : String := ""
  unbroken : String := ""
  never : Bool := false
  optional : Bool := false

inductive Doc where
  | text (s : String)
  | brk (b : Break)
  | box (consistent : Bool) (indent : Int) (body : List Doc)
  /-- Nothing, but too wide for any line. -/
  | wide
  /-- A part that cannot be laid out. -/
  | gap

/-- A line has so many bytes. -/
def margin : Nat := 89

/-- However deep the indentation, a line has room for so many bytes. -/
def leastRoom : Nat := 60

/-- More than any line has room for. -/
def unlimited : Nat := 65535

mutual

/-- The width of a document on one line. -/
def Doc.width : Doc → Nat
  | .text s => s.utf8ByteSize
  | .brk b => b.blank
  | .box _ _ body => widthAll body
  | .wide => unlimited
  | .gap => 0

def widthAll : List Doc → Nat
  | [] => 0
  | d :: rest => d.width + widthAll rest

end

/-- The width up to the next break of a sequence, or beyond its end if it has none; `beyond` is the
width from there to the next break outside. -/
def widthToBreak (beyond : Nat) : List Doc → Nat
  | [] => beyond
  | .brk _ :: _ => 0
  | d :: rest => d.width + widthToBreak beyond rest

/-- The content of a box without an optional break at its end. -/
def dropOptional : List Doc → List Doc
  | [] => []
  | [.brk b] => if b.optional then [] else [.brk b]
  | d :: rest => d :: dropOptional rest

mutual

/-- Leaves out boxes that hold nothing but a break, and optional breaks at the end of boxes. -/
def Doc.settle : Doc → List Doc
  | .box consistent indent body =>
    match settleAll body with
    | [.brk _] => []
    | body => [.box consistent indent (dropOptional body)]
  | d => [d]

def settleAll : List Doc → List Doc
  | [] => []
  | d :: rest => d.settle ++ settleAll rest

end

/-- A half-written page: what is written, latest first, the room left on the line, the indentation
of the open boxes, and spaces that are owed before the next text. -/
structure Page where
  written : List String := []
  room : Int := margin
  indent : Int := 0
  owed : Nat := 0

namespace Page

def spaces (n : Nat) : String := String.ofList (List.replicate n ' ')

def put (p : Page) (s : String) : Page :=
  { p with
    written := s :: spaces p.owed :: p.written
    room := p.room - s.utf8ByteSize
    owed := 0 }

/-- Goes on in the same line. -/
def stay (p : Page) (b : Break) : Page :=
  let p := { p with owed := p.owed + b.blank, room := p.room - b.blank }
  if b.unbroken.isEmpty then p else p.put b.unbroken

/-- Ends the line. Spaces at its end are not written. -/
def newLine (p : Page) (b : Break) : Page :=
  let p := if b.before.isEmpty then p else p.put b.before
  let indent := p.indent + b.offset
  let p : Page := ⟨"\n" :: p.written, max (margin - indent) leastRoom, p.indent, indent.toNat⟩
  if b.after.isEmpty then p else p.put b.after

def text (p : Page) : String := String.join p.written.reverse

end Page

/-- How the innermost open box is written. -/
inductive Frame where
  | fits
  | broken (consistent : Bool)

mutual

/-- Writes a document. `beyond` is the width from its end to the next break. -/
def Doc.write (frame : Frame) (beyond : Nat) : Doc → Page → Page
  | .text s, p => p.put s
  | .wide, p => p.put ""
  | .gap, p => p
  | .brk b, p =>
    let fits := match frame with
      | .fits => true
      | .broken true => false
      | .broken false => (b.blank + beyond : Nat) ≤ p.room
    if b.never || fits then p.stay b else p.newLine b
  | .box consistent indent body, p =>
    if (widthAll body + beyond : Nat) > p.room then
      let outer := p.indent
      let p := writeAll (.broken consistent) beyond body { p with indent := outer + indent }
      { p with indent := outer }
    else writeAll .fits beyond body p

def writeAll (frame : Frame) (beyond : Nat) : List Doc → Page → Page
  | [], p => p
  | d :: rest, p =>
    writeAll frame beyond rest (d.write frame (widthToBreak beyond rest) p)

end

mutual

/-- Whether a part of a document cannot be laid out. -/
def Doc.hasGap : Doc → Bool
  | .gap => true
  | .box _ _ body => gapAmong body
  | _ => false

def gapAmong : List Doc → Bool
  | [] => false
  | d :: rest => d.hasGap || gapAmong rest

end

/-- The text of a document, unless a part of it cannot be laid out. -/
def render? (docs : List Doc) : Option String :=
  if gapAmong docs then none
  else some (writeAll (.broken false) 0 (settleAll docs) {}).text

/-! Building documents -/

def word (s : String) : Doc := .text s

def nbsp : Doc := .text " "

def zero : Doc := .brk {}

def space : Doc := .brk { blank := 1 }

def line : Doc := .brk { blank := unlimited }

def lineIfMore : Doc := .brk { blank := unlimited, optional := true }

def spaceIfMore : Doc := .brk { blank := 1, optional := true }

def never : Doc := .brk { never := true }

/-- A consistent box. -/
def cbox (indent : Int) (body : List Doc) : Doc := .box true indent body

/-- An inconsistent box. -/
def ibox (indent : Int) (body : List Doc) : Doc := .box false indent body

/-- The indentation of one level. -/
def step : Int := 4

/-- Moves the line behind the last break back by one level. -/
def dedent : List Doc → List Doc
  | [] => []
  | [.brk b] => [.brk { b with offset := b.offset - step }]
  | d :: rest => d :: dedent rest

/-- A comma at the end of a line, where one ends. -/
def lastComma : Doc := .brk { before := "," }

def lastCommaOrSpace : Doc := .brk { blank := 1, before := "," }

/-- Elements with commas; the one behind the last element is given. -/
def withCommas (last : Doc) : List (List Doc) → List Doc
  | [] => []
  | [x] => x ++ [last]
  | x :: rest => x ++ word "," :: space :: withCommas last rest

/-- A list between delimiters: each element on a line of its own if they do not fit on one. -/
def listBox (indent : Int) (elems : List (List Doc)) : Doc :=
  cbox indent (dedent (zero :: withCommas lastComma elems))

/-- Joins parts by a separator. -/
def joined (sep : List Doc) : List (List Doc) → List Doc
  | [] => []
  | [x] => x
  | x :: rest => x ++ sep ++ joined sep rest

/-- A box that also breaks if its content is wider than `limit`. -/
def cboxUpTo (limit : Nat) (indent : Int) (body : List Doc) : Doc :=
  cbox indent (if widthAll (settleAll body) > limit then body ++ [.wide] else body)

end Bindery.Layout
