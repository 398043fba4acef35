/-
Loggers, appenders and formatters as objects (log.h, log.cpp).

An appender can be taken from one logger and added to another, and keeps
what it has. So loggers, appenders and formatters are known by their
addresses here; a `Ref` is the address or null. Each logger has a
formatter from its constructor. `given` is the formatter that
`LogAppender::setFormatter` was last called with, and `owner` the logger
that an appender is attached to: it is attached to one at a time.
-/
import TinyServer.Log.Basic

namespace TinyServer

open Http (Bytes)

/-- `m_formatter` and `m_hasFormatter` of a `LogAppender`. -/
structure AppenderCell where
  formatter : Option Nat
  hasFormatter : Bool
  deriving DecidableEq, Repr

/-- `m_formatter` and `m_appenders` of a `Logger`. -/
structure LoggerCell where
  formatter : Nat
  appenders : List Nat
  deriving DecidableEq, Repr

/-- The loggers and appenders of the process. -/
structure LogObjects where
  loggers : Nat → LoggerCell
  appenders : Nat → AppenderCell
  given : Nat → Option Nat
  owner : Nat → Option Nat

/-- A call on a logger or an appender. `val` in `setFormatterString` is
the address of the formatter that is made from the pattern. -/
inductive LoggerCall
  | addAppender (l a : Nat)
  | removeAppender (l a : Nat)
  | clearAppenders (l : Nat)
  | setFormatter (l val : Nat)
  | setFormatterString (l : Nat) (fmt : Bytes) (val : Nat)
  | setAppenderFormatter (a : Nat) (val : Option Nat)
  deriving DecidableEq, Repr

namespace LogObjects

/-- The loggers have the formatters `own` and no appenders; the appenders
have none. -/
def start (own : Nat → Nat) : LogObjects where
  loggers l := ⟨own l, []⟩
  appenders _ := ⟨none, false⟩
  given _ := none
  owner _ := none

def setLogger (s : LogObjects) (l : Nat) (x : LoggerCell) : LogObjects :=
  { s with loggers := fun m => if m = l then x else s.loggers m }

def setAppender (s : LogObjects) (a : Nat) (x : AppenderCell) : LogObjects :=
  { s with appenders := fun b => if b = a then x else s.appenders b }

def setOwner (s : LogObjects) (a : Nat) (l : Option Nat) : LogObjects :=
  { s with owner := fun b => if b = a then l else s.owner b }

/-- `Logger::addAppender`. -/
def addAppender (s : LogObjects) (l a : Nat) : LogObjects :=
  let s :=
    if (s.appenders a).formatter = none then
      s.setAppender a { s.appenders a with
        formatter := some (s.loggers l).formatter }
    else s
  (s.setLogger l { s.loggers l with
    appenders := (s.loggers l).appenders ++ [a] }).setOwner a (some l)

/-- `Logger::removeAppender`: the first place of the appender. -/
def removeAppender (s : LogObjects) (l a : Nat) : LogObjects :=
  if a ∈ (s.loggers l).appenders then
    (s.setLogger l { s.loggers l with
      appenders := (s.loggers l).appenders.erase a }).setOwner a none
  else s

/-- `Logger::clearAppenders`. -/
def clearAppenders (s : LogObjects) (l : Nat) : LogObjects :=
  { s.setLogger l { s.loggers l with appenders := [] } with
    owner := fun a => if a ∈ (s.loggers l).appenders then none
      else s.owner a }

/-- `Logger::setFormatter(Ref<LogFormatter>)`. -/
def setFormatter (s : LogObjects) (l val : Nat) : LogObjects :=
  { s.setLogger l { s.loggers l with formatter := val } with
    appenders := fun a =>
      if a ∈ (s.loggers l).appenders ∧ (s.appenders a).hasFormatter = false
      then { s.appenders a with formatter := some val }
      else s.appenders a }

/-- `Logger::setFormatter(std::string)`. -/
def setFormatterString (s : LogObjects) (l : Nat) (fmt : Bytes)
    (val : Nat) : LogObjects :=
  if (LogFormatter.new fmt).error then s else s.setFormatter l val

/-- `LogAppender::setFormatter`. -/
def setAppenderFormatter (s : LogObjects) (a : Nat) (val : Option Nat) :
    LogObjects :=
  { s.setAppender a ⟨val, val.isSome⟩ with
    given := fun b => if b = a then val.or (s.given a) else s.given b }

/-- The state after a call; an appender that is attached is not added. -/
def step (s : LogObjects) : LoggerCall → Option LogObjects
  | .addAppender l a =>
      if s.owner a = none then some (s.addAppender l a) else none
  | .removeAppender l a => some (s.removeAppender l a)
  | .clearAppenders l => some (s.clearAppenders l)
  | .setFormatter l val => some (s.setFormatter l val)
  | .setFormatterString l fmt val => some (s.setFormatterString l fmt val)
  | .setAppenderFormatter a val => some (s.setAppenderFormatter a val)

end LogObjects

end TinyServer
