/-
What a pattern prints for an event.

# Dates

`strftime` is a parameter: `Strftime` has the text for a format and a
time, of whatever length, in the C locale. A character of the format that
is not a `%` is copied. What a conversion gives begins neither with `d`
nor with a brace: it is a number, a name that begins with a capital
letter, white space or a percent sign. The format is a C string, and a
text that does not fit into the 64 bytes of `buf` leaves in it what was
there.
-/
import TinyServer.Log.File

namespace TinyServer

open Http (Bytes ascii cStr)

/-- `localtime_r` and `strftime`. -/
structure Strftime where
  text : Bytes → UInt32 → Bytes
  text_nil : ∀ time, text [] time = []
  text_char : ∀ c fmt time, c ≠ 37 → text (c :: fmt) time = c :: text fmt time
  text_conversion : ∀ fmt time, ∃ c rest,
    text (37 :: fmt) time = c :: rest ∧ c ≠ 100 ∧ c ≠ 123

/-- What `os << buf` prints, where `garbage` is in `buf` before. -/
def Strftime.print (lib : Strftime) (garbage fmt : Bytes) (time : UInt32) :
    Bytes :=
  let text := lib.text (cStr fmt) time
  if text.length < 64 then text else garbage

/-- What is printed depends on: the event and its level, and what was in
the buffer. -/
structure Printing where
  garbage : Bytes
  level : LogLevel
  event : LogEvent

namespace LogFormatter

variable (lib : Strftime) (e : Printing)

/-- What an item prints. -/
def printItem (item : FormatItem) : Bytes :=
  item.format (lib.print e.garbage) e.level e.event

/-- `LogFormatter(pattern).format`. -/
def printed (pattern : Bytes) : Bytes :=
  (new pattern).format (lib.print e.garbage) e.level e.event

/-- The escape between two patterns is a percent sign. -/
def EscapeLaw (lib : Strftime) (p q : Bytes) : Prop :=
  ∀ e, printed lib e (p ++ ascii "%%" ++ q)
    = printed lib e p ++ ascii "%" ++ printed lib e q

end LogFormatter

end TinyServer
