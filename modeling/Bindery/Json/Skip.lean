import Bindery.Json.Reader

/-!
# Skipping JSON values

A value nobody asked for is passed over by looser rules than those of `value`: it may nest to any
depth, its numbers may be of any size and its escapes need not form characters.
-/
namespace Bindery.Json

open Bindery.Text (Piece)

def skipStringFrom : Nat → List Piece → Except Stop (List Piece)
  | 0, text => .error ⟨.endInString, text, 0⟩
  | _ + 1, [] => .error ⟨.endInString, [], 0⟩
  | steps + 1, p :: rest =>
    match p with
    | .broken _ => skipStringFrom steps rest
    | .char '"' => .ok rest
    | .char '\\' =>
      match rest with
      | [] => .error ⟨.endInString, [], 0⟩
      | e :: rest' =>
        if e == .char 'u' then
          match hexQuad rest' with
          | .ok (_, after) => skipStringFrom steps after
          | .error s => .error s
        else if (e.char?.bind shortEscape?).isSome then skipStringFrom steps rest'
        else .error ⟨.badEscape, rest, 1⟩
    | .char c =>
      if c < ' ' then .error ⟨.controlCharacter, p :: rest, 0⟩ else skipStringFrom steps rest

/-- Passes over a string after its opening quote. -/
def skipString : Reader Unit := do
  let text ← get
  match skipStringFrom (text.length + 1) text with
  | .ok rest => set rest
  | .error s => throw s

/-- Passes over the exponent of a number, if there is one. -/
def skipExponent : Reader Unit := do
  match ← peek with
  | some 'e' | some 'E' =>
    skip
    match ← peek with
    | some '+' | some '-' => skip
    | _ => pure ()
    let ds ← digits
    if ds.isEmpty then stopAhead .badNumber
  | _ => return

/-- Passes over a number after its sign. -/
def skipNumber : Reader Unit := do
  let ds ← digits
  match ds with
  | [] => stopAhead .badNumber
  | '0' :: _ :: _ =>
    let after ← get
    throw ⟨.badNumber, ds.tail.map .char ++ after, 1⟩
  | _ =>
    match ← peek with
    | some '.' =>
      skip
      let fraction ← digits
      if fraction.isEmpty then stopAhead .badNumber
      skipExponent
    | _ => skipExponent

/-- A list or an object that is still open. -/
inductive Frame where
  | list
  | object
  deriving DecidableEq, Repr

def Frame.close : Frame → Char
  | .list => ']'
  | .object => '\x7d'

/-- Passes over the key of a member and its colon. -/
def skipKey : Reader Unit := do
  match ← peekPastSpace with
  | none => stop .endInObject
  | some '"' => skip
  | some _ => stopAhead .keyNotString
  skipString
  colon

/-- Leaves all frames that end here. Gives the frames still open in which another value follows. -/
def skipCloses : List Frame → Bool → Reader (List Frame)
  | [], _ => return []
  | frame :: outer, acceptComma => do
    match ← peekPastSpace with
    | none => stop (match frame with | .list => .endInList | .object => .endInObject)
    | some c =>
      if c == ',' && acceptComma then
        skip
        return frame :: outer
      else if c == frame.close then
        skip
        skipCloses outer true
      else if acceptComma then
        stopAhead (match frame with | .list => .noListCommaOrEnd | .object => .noObjectCommaOrEnd)
      else return frame :: outer

/-- Passes over the values of the open frames. -/
def skipFrom : Nat → List Frame → Reader Unit
  | 0, _ => stop .endInValue
  | steps + 1, frames => do
    let opened ← match ← peekPastSpace with
      | none => stop .endInValue
      | some '[' => skip; pure (some Frame.list)
      | some '\x7b' => skip; pure (some Frame.object)
      | some '-' => skip; skipNumber; pure none
      | some '"' => skip; skipString; pure none
      | some c =>
        if c.isDigit then skipNumber else
          let _ ← scalar c
        pure none
    let frames ← match opened with
      | some frame => skipCloses (frame :: frames) false
      | none => skipCloses frames true
    match frames with
    | [] => return
    | .list :: _ => skipFrom steps frames
    | .object :: _ =>
      skipKey
      skipFrom steps frames

/-- Passes over one value. -/
def skipValue : Reader Unit := do
  skipFrom ((← get).length + 1) []

end Bindery.Json
