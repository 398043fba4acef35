/-
Loggers, appenders and formatters (log.h, log.cpp), and the callback of
`LogIniter` on a change of the log configuration.

# Objects

A formatter does not change once it is made, and an appender belongs to
one logger, so both are values; the reference that a logger and its
appenders share is a copy of the pattern. A null `Ref` that is
dereferenced ends the callback: `none`.

What a `FileLog` does with its file is in `Log/File.lean`. Here only the
name of the file is kept, and the messages that the callback itself logs
or prints are left out.
-/
import TinyServer.Http.Basic

namespace TinyServer

open Http (Bytes ascii)

-- ==================================================================== levels

/-- `LogLevel::Level`. -/
inductive LogLevel
  | unknow
  | debug
  | info
  | warn
  | error
  | fatal
  deriving DecidableEq, Repr

namespace LogLevel

/-- The number of the level. -/
def value : LogLevel → Nat
  | unknow => 0
  | debug => 1
  | info => 2
  | warn => 3
  | error => 4
  | fatal => 5

/-- `LogLevel::ToString`. -/
def toBytes : LogLevel → Bytes
  | debug => ascii "DEBUG"
  | info => ascii "INFO"
  | warn => ascii "WARN"
  | error => ascii "ERROR"
  | fatal => ascii "FATAL"
  | unknow => ascii "UNKNOW"

/-- `LogLevel::FromString`. -/
def fromString (str : Bytes) : LogLevel :=
  if str = ascii "debug" then debug
  else if str = ascii "info" then info
  else if str = ascii "warn" then warn
  else if str = ascii "error" then error
  else if str = ascii "fatal" then fatal
  else if str = ascii "DEBUG" then debug
  else if str = ascii "INFO" then info
  else if str = ascii "WARN" then warn
  else if str = ascii "ERROR" then error
  else if str = ascii "FATAL" then fatal
  else unknow

end LogLevel

-- ================================================================= formatters

/-- The classes derived from `LogFormatter::FormatItem`. -/
inductive FormatItem
  | message
  | level
  | elapse
  | loggerName
  | threadId
  | newLine
  | dateTime (format : Bytes)
  | fileName
  | line
  | tab
  | fiberId
  | threadName
  | string (str : Bytes)
  deriving DecidableEq, Repr

/-- `LogFormatter`. -/
structure LogFormatter where
  pattern : Bytes
  items : List FormatItem
  error : Bool
  deriving DecidableEq, Repr

namespace LogFormatter

/-- `isalpha` of the C locale. -/
def isAlpha (b : UInt8) : Bool := (65 ≤ b && b ≤ 90) || (97 ≤ b && b ≤ 122)

/-- The loop over `n` after a `%`. `seen` is the pattern from behind the
`%` up to `n`, and `fmt` what has been read between braces. The results
are `fmt_status`, `str`, `fmt` and the pattern from `n` on. -/
def scanItem (inBraces : Bool) (str seen fmt : Bytes) :
    Bytes → Bool × Bytes × Bytes × Bytes
  | [] => (inBraces, str, fmt, [])
  | c :: rest =>
      let str' := if rest = [] ∧ str = [] then seen ++ [c] else str
      if inBraces then
        if c = 125 then (false, str, fmt, rest)
        else scanItem true str' (seen ++ [c]) (fmt ++ [c]) rest
      else if !isAlpha c && c ≠ 123 && c ≠ 125 then
        (false, seen, fmt, c :: rest)
      else if c = 123 then scanItem true seen (seen ++ [c]) [] rest
      else scanItem false str' (seen ++ [c]) fmt rest

/-- The loop over `i`: the pattern cut into texts (`none`) and items with
their format, and `m_error`. A brace that is not closed is an error, and
the loop goes on right behind its `%`. Each iteration takes a byte, so as
many as the pattern has suffice. -/
def split (fuel : Nat) (nstr : Bytes) (vec : List (Bytes × Option Bytes))
    (error : Bool) (pattern : Bytes) : List (Bytes × Option Bytes) × Bool :=
  let flushed := if nstr = [] then vec else vec ++ [(nstr, none)]
  match fuel, pattern with
  | 0, _ => (flushed, error)
  | _, [] => (flushed, error)
  | fuel + 1, c :: rest =>
      if c ≠ 37 then split fuel (nstr ++ [c]) vec error rest
      else if rest.head? = some 37 then
        split fuel (nstr ++ [37]) vec error rest
      else
        match scanItem false [] [] [] rest with
        | (false, str, fmt, rest) =>
            split fuel [] (flushed ++ [(str, some fmt)]) error rest
        | (true, _, _, _) =>
            split fuel nstr (vec ++ [(ascii "<<pattern_error>>", none)]) true
              rest

/-- `s_format_items`. -/
def formatItem (str fmt : Bytes) : Option FormatItem :=
  if str = ascii "m" then some .message
  else if str = ascii "p" then some .level
  else if str = ascii "r" then some .elapse
  else if str = ascii "c" then some .loggerName
  else if str = ascii "t" then some .threadId
  else if str = ascii "n" then some .newLine
  else if str = ascii "d" then
    some (.dateTime (if fmt = [] then ascii "%Y-%m-%d %H:%M:%S" else fmt))
  else if str = ascii "f" then some .fileName
  else if str = ascii "l" then some .line
  else if str = ascii "T" then some .tab
  else if str = ascii "F" then some .fiberId
  else if str = ascii "N" then some .threadName
  else none

/-- The item for a piece of the pattern, and whether it is an error. -/
def itemOf : Bytes × Option Bytes → FormatItem × Bool
  | (str, none) => (.string str, false)
  | (str, some fmt) =>
      match formatItem str fmt with
      | some item => (item, false)
      | none => (.string (ascii "<<error_format %" ++ str ++ ascii ">>"), true)

/-- `LogFormatter(pattern)` with `LogFormatter::init`. -/
def new (pattern : Bytes) : LogFormatter :=
  let (vec, error) := split pattern.length [] [] false pattern
  let items := vec.map itemOf
  ⟨pattern, items.map Prod.fst, error || items.any Prod.snd⟩

/-- The pattern of `Logger(name)`. -/
def defaultPattern : Bytes :=
  ascii "%d\x7b%Y-%m-%d %H:%M:%S\x7d%T%t%T%N%T%F%T[%p]%T[%c]%T%f:%l%T%m%n"

end LogFormatter

-- ============================================================ loggers

/-- `ConsoleLog`, or `FileLog` with its `m_fileName`. -/
inductive AppenderKind
  | console
  | file (fileName : Bytes)
  deriving DecidableEq, Repr

/-- `LogAppender`. -/
structure LogAppender where
  kind : AppenderKind
  level : LogLevel
  formatter : Option LogFormatter
  hasFormatter : Bool
  deriving DecidableEq, Repr

namespace LogAppender

def new (kind : AppenderKind) : LogAppender := ⟨kind, .debug, none, false⟩

/-- `LogAppender::setFormatter`. -/
def setFormatter (a : LogAppender) (formatter : LogFormatter) : LogAppender :=
  { a with
    formatter := some formatter
    hasFormatter := true }

end LogAppender

/-- `Logger`. -/
structure Logger where
  name : Bytes
  level : LogLevel
  formatter : LogFormatter
  appenders : List LogAppender
  deriving DecidableEq, Repr

namespace Logger

def new (name : Bytes) : Logger :=
  ⟨name, .debug, .new LogFormatter.defaultPattern, []⟩

/-- `Logger::addAppender`. -/
def addAppender (l : Logger) (a : LogAppender) : Logger :=
  let a := if a.formatter = none then { a with formatter := some l.formatter }
    else a
  { l with appenders := l.appenders ++ [a] }

def clearAppenders (l : Logger) : Logger := { l with appenders := [] }

/-- `Logger::setFormatter(Ref<LogFormatter>)`. -/
def setFormatterRef (l : Logger) (val : LogFormatter) : Logger :=
  { l with
    formatter := val
    appenders := l.appenders.map fun a =>
      if a.hasFormatter then a else { a with formatter := some val } }

/-- `Logger::setFormatter(std::string)`. -/
def setFormatter (l : Logger) (fmt : Bytes) : Logger :=
  let val := LogFormatter.new fmt
  if val.error then l else l.setFormatterRef val

end Logger

/-- `LoggerManager`: `m_loggers`. -/
structure LoggerManager where
  loggers : Bytes → Option Logger

namespace LoggerManager

/-- `LoggerManager()`. -/
def new : LoggerManager where
  loggers name := if name = ascii "root" then
    some ((Logger.new name).addAppender (.new .console)) else none

/-- The logger that `getLogger` returns. -/
def getLogger (m : LoggerManager) (name : Bytes) : Logger :=
  (m.loggers name).getD (.new name)

/-- Change the logger that `getLogger` returns. -/
def update (m : LoggerManager) (name : Bytes) (f : Logger → Logger) :
    LoggerManager where
  loggers n := if n = name then some (f (m.getLogger name)) else m.loggers n

end LoggerManager

-- ============================================================== configurations

/-- `LogAppenderDefine`; a type of 1 is a file, of 2 the console. -/
structure LogAppenderDefine where
  type : Int
  level : LogLevel
  formatter : Bytes
  file : Bytes
  deriving DecidableEq, Repr

/-- `LogDefine`. -/
structure LogDefine where
  name : Bytes
  level : LogLevel
  formatter : Bytes
  appenders : List LogAppenderDefine
  deriving DecidableEq, Repr

/-- `std::set<LogDefine>`: in the order of the names, each name once. -/
structure LogDefines where
  items : List LogDefine
  ascending : items.Pairwise fun a b => a.name < b.name
  deriving DecidableEq

namespace LogDefines

def empty : LogDefines := ⟨[], List.Pairwise.nil⟩

/-- `find`: two definitions are equivalent when their names are equal. -/
def find (s : LogDefines) (d : LogDefine) : Option LogDefine :=
  s.items.find? fun e => e.name = d.name

end LogDefines

namespace LogIniter

/-- `appender` before `setLevel`; null for another type. -/
def newAppender (ap : LogAppenderDefine) : Option LogAppender :=
  if ap.type = 1 then some (.new (.file ap.file))
  else if ap.type = 2 then some (.new .console)
  else none

/-- The appender for `ap`; a null one is dereferenced by `setLevel`. -/
def appender (ap : LogAppenderDefine) : Option LogAppender := do
  let a ← newAppender ap
  let a := { a with level := ap.level }
  let fmt := LogFormatter.new ap.formatter
  pure (if ap.formatter ≠ [] ∧ !fmt.error then a.setFormatter fmt else a)

/-- The loop over the appenders. -/
def addAppenders (l : Logger) (aps : List LogAppenderDefine) : Option Logger :=
  aps.foldlM (fun l ap => return l.addAppender (← appender ap)) l

/-- What the callback does with the logger of a definition. -/
def configure (l : Logger) (item : LogDefine) : Option Logger :=
  let l := { l with level := item.level }
  let l := if item.formatter ≠ [] then l.setFormatter item.formatter else l
  addAppenders l.clearAppenders item.appenders

/-- The first loop, over `new_value`. The logger of a definition that is
in both sets unchanged is null. -/
def apply (old : LogDefines) (m : LoggerManager) (item : LogDefine) :
    Option LoggerManager :=
  if old.find item = some item then none
  else do
    let l ← configure (m.getLogger item.name) item
    pure (m.update item.name fun _ => l)

/-- The second loop, over `old_value`. -/
def remove (new : LogDefines) (m : LoggerManager) (item : LogDefine) :
    LoggerManager :=
  if new.find item = none then
    m.update item.name fun l => { l with level := .unknow }.clearAppenders
  else m

/-- The callback. -/
def onChange (old new : LogDefines) (m : LoggerManager) :
    Option LoggerManager := do
  let m ← new.items.foldlM (apply old) m
  pure (old.items.foldl (remove new) m)

/-- `ConfigVar::setValue` on `log_config`, with the callback. -/
def setValue (s : LogDefines × LoggerManager) (value : LogDefines) :
    Option (LogDefines × LoggerManager) :=
  if s.1 = value then some s
  else do
    let m ← onChange s.1 value s.2
    pure (value, m)

end LogIniter

end TinyServer
