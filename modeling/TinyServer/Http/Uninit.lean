/-
A request parser on pieces of text, from what was in memory before
`http_parser_init`.
-/
import TinyServer.Http.RequestParser
import TinyServer.Lib.Twin

namespace TinyServer.Http

open Lib

/-- What a parser tells: `hasError()`, `isFinished()` and `getData()`. -/
structure ParserState where
  hasError : Bool
  isFinished : Int
  data : HttpRequest
  deriving DecidableEq, Repr

/-- What the caller of a parser sees: the counts that the calls of
`execute` returned, and at the end the parser, or how the call that did
not return ended. -/
structure ParserView where
  counts : List Nat
  last : Except Thrown ParserState
  deriving DecidableEq

namespace HttpRequestParser

/-- `execute` on a piece of any length, with the assertion that the
length is an `int`. -/
def executePiece (u : Uninit) (ps : HttpRequestParser) (piece : Bytes) :
    Except Thrown (Nat × HttpRequestParser) :=
  if piece.length < 0x80000000 then ps.execute u piece
  else .error .assertion

/-- `execute` on one piece after the other, as far as it goes. -/
def feed (u : Uninit) (ps : HttpRequestParser) :
    List Bytes → List Nat × Except Thrown HttpRequestParser
  | [] => ([], .ok ps)
  | piece :: pieces =>
      match ps.executePiece u piece with
      | .error e => ([], .error e)
      | .ok (n, ps) =>
          let r := ps.feed u pieces
          (n :: r.1, r.2)

/-- What a parser tells. -/
def state (ps : HttpRequestParser) : ParserState :=
  ⟨ps.hasError, ps.isFinished, ps.regs.data⟩

/-- The view of a new parser on the pieces. -/
def view (u : Uninit) (pieces : List Bytes) : ParserView :=
  let r := (new u).feed u pieces
  ⟨r.1, r.2.map state⟩

/-- Memory of zeros. -/
def zeros : Uninit := ⟨false, 0⟩

/-- A parser in memory of zeros comes, from `ps` on, before one of the
bytes `^`, `{` and `}` in a state where only a relaxed parser takes it. -/
def guarded (ps : HttpRequestParser) : List Bytes → Bool
  | [] => false
  | piece :: pieces =>
      (decide (piece.length < 0x80000000)
          && meets RequestTable.relaxedOnly (RequestTable.transition false)
            HttpAction.isDone (RequestRegs.perform piece) 0 piece ps.cs
            ps.regs.rewind)
        || match ps.executePiece zeros piece with
          | .error _ => false
          | .ok (_, ps) => ps.guarded pieces

end HttpRequestParser

end TinyServer.Http
