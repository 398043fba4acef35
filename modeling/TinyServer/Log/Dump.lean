/-
`toYamlString` of appenders, loggers and the `LoggerManager` (log.cpp).

`m_loggers` is a `std::map`, which is gone through in the order of the
names: `Lists` is that these are the loggers of a manager, in that order.
The text of an appender is loaded again for the node of its logger, and
that of a logger for the node of all.
-/
import TinyServer.Log.Yaml

namespace TinyServer

open Http (Bytes ascii)

namespace LogAppender

/-- What the two functions below have in common: `level` unless it is
`UNKNOW`, and the formatter that was set. -/
def commonEntries (a : LogAppender) : List (Bytes × YamlNode) :=
  (if a.level ≠ .unknow then [(ascii "level", .scalar a.level.toBytes)] else [])
    ++ match a.formatter with
      | some f =>
          if a.hasFormatter then [(ascii "fomatter", .scalar f.pattern)] else []
      | none => []

/-- The node of `ConsoleLog::toYamlString`. -/
def consoleNode (a : LogAppender) : YamlNode :=
  .ofEntries ((ascii "type", .scalar (ascii "ConsoleLog")) :: a.commonEntries)

/-- The node of `FileLog::toYamlString`. -/
def fileNode (a : LogAppender) (fileName : Bytes) : YamlNode :=
  .ofEntries ((ascii "type", .scalar (ascii "FileLog"))
    :: (ascii "file", .scalar fileName) :: a.commonEntries)

def node (a : LogAppender) : YamlNode :=
  match a.kind with
  | .console => a.consoleNode
  | .file fileName => a.fileNode fileName

/-- `toYamlString`. -/
def toYamlString (y : YamlCpp) (a : LogAppender) : Bytes := y.emit a.node

end LogAppender

namespace Logger

/-- The node of `Logger::toYamlString`. -/
def node (y : YamlCpp) (l : Logger) : YamlNode :=
  .ofEntries ([(ascii "name", .scalar l.name),
      (ascii "level", .scalar l.level.toBytes),
      (ascii "formatter", .scalar l.formatter.pattern)]
    ++ if l.appenders ≠ [] then
      [(ascii "appenders",
        .ofNodes (l.appenders.map fun a => y.load (a.toYamlString y)))]
    else [])

/-- `Logger::toYamlString`. -/
def toYamlString (y : YamlCpp) (l : Logger) : Bytes := y.emit (l.node y)

end Logger

namespace LoggerManager

/-- The loggers of the manager, in the order of their names. -/
structure Lists (m : LoggerManager) (loggers : List Logger) : Prop where
  ascending : loggers.Pairwise fun a b => a.name < b.name
  mem : ∀ name l, m.loggers name = some l ↔ l ∈ loggers ∧ l.name = name

/-- The node of `LoggerManager::toYamlString`. -/
def node (y : YamlCpp) (loggers : List Logger) : YamlNode :=
  .ofNodes (loggers.map fun l => y.load (l.toYamlString y))

/-- `LoggerManager::toYamlString`, for these loggers. -/
def toYamlString (y : YamlCpp) (loggers : List Logger) : Bytes :=
  y.emit (node y loggers)

end LoggerManager

end TinyServer
