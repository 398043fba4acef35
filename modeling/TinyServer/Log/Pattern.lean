/-
Log patterns as they are written: the text of a pattern that stands for a
list of tokens, and the items that it stands for.
-/
import TinyServer.Log.Basic

namespace TinyServer

open Http (Bytes ascii)

/-- The entries of `s_format_items`. -/
inductive Directive
  | message
  | level
  | elapse
  | loggerName
  | threadId
  | newLine
  | dateTime
  | fileName
  | line
  | tab
  | fiberId
  | threadName
  deriving DecidableEq, Repr

namespace Directive

/-- `m p r c t n d f l T F N`. -/
def letter : Directive → UInt8
  | message => 109
  | level => 112
  | elapse => 114
  | loggerName => 99
  | threadId => 116
  | newLine => 110
  | dateTime => 100
  | fileName => 102
  | line => 108
  | tab => 84
  | fiberId => 70
  | threadName => 78

/-- The item with the format; only a date has one, and an empty one is the
default. -/
def item (fmt : Bytes) : Directive → FormatItem
  | message => .message
  | level => .level
  | elapse => .elapse
  | loggerName => .loggerName
  | threadId => .threadId
  | newLine => .newLine
  | dateTime =>
      .dateTime (if fmt = [] then ascii "%Y-%m-%d %H:%M:%S" else fmt)
  | fileName => .fileName
  | line => .line
  | tab => .tab
  | fiberId => .fiberId
  | threadName => .threadName

end Directive

/-- A piece of a pattern. -/
inductive Token
  | literal (text : Bytes)
  | directive (d : Directive) (fmt : Option Bytes)
  deriving DecidableEq, Repr

namespace Token

/-- The token as it is written. -/
def print : Token → Bytes
  | literal text => text
  | directive d none => [37, d.letter]
  | directive d (some fmt) => [37, d.letter, 123] ++ fmt ++ [125]

/-- The item for the token. -/
def item : Token → FormatItem
  | literal text => .string text
  | directive d fmt => d.item (fmt.getD [])

/-- A literal is not empty and has no `%`; a format has no `}`. -/
def Ok : Token → Prop
  | literal text => text ≠ [] ∧ 37 ∉ text
  | directive _ none => True
  | directive _ (some fmt) => 125 ∉ fmt

/-- What can stand right after a token: not a literal after a literal, and
after a directive without a format no literal that begins with a letter or
a brace. -/
def Before : Token → Token → Prop
  | literal _, literal _ => False
  | directive _ none, literal text => ∀ c ∈ text.head?,
      LogFormatter.isAlpha c = false ∧ c ≠ 123 ∧ c ≠ 125
  | _, _ => True

end Token

/-- The tokens make a pattern. -/
def Printable : List Token → Prop
  | [] => True
  | t :: ts => t.Ok ∧ (∀ u ∈ ts.head?, t.Before u) ∧ Printable ts

def printTokens (ts : List Token) : Bytes := ts.flatMap Token.print

end TinyServer
