/-!
# Text carried by bytes

Bytes that come from outside need not be text. They are read as a list of pieces: characters, and
the longest stretches that begin a character without completing it.
-/
namespace Bindery.Text

/-- A character, or bytes that form none. -/
inductive Piece where
  | char (c : Char)
  | broken (bytes : List UInt8)
  deriving DecidableEq, Repr

/-- The number of bytes the piece was read from. -/
def Piece.size : Piece → Nat
  | .char c => c.utf8Size
  | .broken bytes => bytes.length

/-- The number of bytes some pieces were read from. -/
def size (ps : List Piece) : Nat := ps.foldr (fun p n => p.size + n) 0

/-- Text is a list of whole characters. -/
def pieces (s : String) : List Piece := s.toList.map .char

/-- The UTF-8 bytes of a text. -/
def utf8 (s : List Char) : List UInt8 := s.flatMap String.utf8EncodeChar

/-- The inclusive ranges in which the bytes after a lead byte must lie; none for a byte that leads
no character. -/
def followers (lead : Nat) : Option (List (Nat × Nat)) :=
  if lead < 0x80 then some []
  else if lead < 0xc2 then none
  else if lead < 0xe0 then some [(0x80, 0xbf)]
  else if lead == 0xe0 then some [(0xa0, 0xbf), (0x80, 0xbf)]
  else if lead == 0xed then some [(0x80, 0x9f), (0x80, 0xbf)]
  else if lead < 0xf0 then some [(0x80, 0xbf), (0x80, 0xbf)]
  else if lead == 0xf0 then some [(0x90, 0xbf), (0x80, 0xbf), (0x80, 0xbf)]
  else if lead < 0xf4 then some [(0x80, 0xbf), (0x80, 0xbf), (0x80, 0xbf)]
  else if lead == 0xf4 then some [(0x80, 0x8f), (0x80, 0xbf), (0x80, 0xbf)]
  else none

/-- The character a complete byte sequence stands for. -/
def charOfBytes : List UInt8 → Char
  | [] => Char.ofNat 0
  | lead :: rest =>
    let keep := match rest.length with
      | 0 => 0x7f
      | 1 => 0x1f
      | 2 => 0x0f
      | _ => 0x07
    Char.ofNat (rest.foldl (fun n b => n * 64 + b.toNat % 64) (Nat.land lead.toNat keep))

/-- Reads on with the bytes of an unfinished character, latest first, and the ranges its remaining
bytes must lie in. -/
def piecesFrom : List UInt8 → List (Nat × Nat) → List UInt8 → List Piece
  | [], _, [] => []
  | held, _, [] => [.broken held.reverse]
  | held, (low, high) :: more, b :: rest =>
    if low ≤ b.toNat && b.toNat ≤ high then
      match more with
      | [] => .char (charOfBytes (b :: held).reverse) :: piecesFrom [] [] rest
      | _ :: _ => piecesFrom (b :: held) more rest
    else
      .broken held.reverse :: match followers b.toNat with
        | none => .broken [b] :: piecesFrom [] [] rest
        | some [] => .char (charOfBytes [b]) :: piecesFrom [] [] rest
        | some more => piecesFrom [b] more rest
  | _, [], b :: rest =>
    match followers b.toNat with
    | none => .broken [b] :: piecesFrom [] [] rest
    | some [] => .char (charOfBytes [b]) :: piecesFrom [] [] rest
    | some more => piecesFrom [b] more rest

def piecesOfBytes (bytes : List UInt8) : List Piece := piecesFrom [] [] bytes

/-- The character of a piece, or the replacement character. -/
def Piece.shown : Piece → Char
  | .char c => c
  | .broken _ => Char.ofNat 0xfffd

def Piece.char? : Piece → Option Char
  | .char c => some c
  | .broken _ => none

/-- Text with each broken piece replaced by the replacement character. -/
def lossy (ps : List Piece) : String := String.ofList (ps.map Piece.shown)

/-- Text, if every piece is a character. -/
def whole? (ps : List Piece) : Option String := (ps.mapM Piece.char?).map String.ofList

end Bindery.Text
