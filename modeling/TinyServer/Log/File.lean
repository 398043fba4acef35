/-
Formatting of events, and the file appender (log.cpp).

The file is one that can be opened and written. `open` without a mode
opens it for output only, which empties it. What the stream still has in
its buffer counts as content of the file: `close` writes it out.
-/
import TinyServer.Log.Basic

namespace TinyServer

open Http (Bytes ascii toDecimal)

/-- `LogEvent`, with the name of its logger. -/
structure LogEvent where
  loggerName : Bytes
  file : Bytes
  line : UInt32
  elapse : UInt32
  time : UInt32
  threadId : UInt32
  threadName : Bytes
  fiberId : UInt32
  content : Bytes
  deriving DecidableEq, Repr

section

-- `localtime_r` and `strftime`, for a format and a time.
variable (strftime : Bytes → UInt32 → Bytes)

/-- `FormatItem::format`. -/
def FormatItem.format (level : LogLevel) (event : LogEvent) :
    FormatItem → Bytes
  | message => event.content
  | .level => level.toBytes
  | elapse => toDecimal event.elapse.toNat
  | loggerName => event.loggerName
  | threadId => toDecimal event.threadId.toNat
  | newLine => [10]
  | dateTime format => strftime format event.time
  | fileName => event.file
  | line => toDecimal event.line.toNat
  | tab => [9]
  | fiberId => toDecimal event.fiberId.toNat
  | threadName => event.threadName
  | string str => str

/-- `LogFormatter::format`. -/
def LogFormatter.format (f : LogFormatter) (level : LogLevel)
    (event : LogEvent) : Bytes :=
  f.items.flatMap (FormatItem.format strftime level event)

/-- `FileLog`, in a logger, so that it has a formatter. -/
structure FileLog where
  level : LogLevel
  formatter : LogFormatter
  lastTime : Nat
  content : Bytes
  deriving DecidableEq, Repr

/-- A call of `FileLog::log`, with what `time(0)` returns in it. -/
structure LogCall where
  now : Nat
  level : LogLevel
  event : LogEvent
  deriving DecidableEq, Repr

namespace FileLog

/-- `FileLog::reopen`. -/
def reopen (f : FileLog) : FileLog := { f with content := [] }

/-- `FileLog(fileName)`, and the level and the formatter that it is given.
`old` is what the file held before. -/
def new (level : LogLevel) (formatter : LogFormatter) (old : Bytes) : FileLog :=
  reopen ⟨level, formatter, 0, old⟩

/-- `FileLog::log`. -/
def log (f : FileLog) (c : LogCall) : FileLog :=
  if f.level.value ≤ c.level.value then
    let f := if c.now ≠ f.lastTime then { f.reopen with lastTime := c.now }
      else f
    { f with
      content := f.content ++ f.formatter.format strftime c.level c.event }
  else f

end FileLog

end

end TinyServer
