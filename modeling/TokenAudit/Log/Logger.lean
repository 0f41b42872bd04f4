import TokenAudit.Log.Layout

/-!
# Loggers

A logger writes the events that its level lets through, each in its layout.  A process has at most
one logger, the first that was installed.
-/

namespace TokenAudit.Log

/-- What is logged and how. -/
structure Logger where
  level : Level
  layout : Layout
  deriving DecidableEq, Repr

namespace Logger

/-- The lines that a logger writes for events. -/
def lines (logger : Logger) (events : List Event) : List String :=
  (logger.level.select events).map logger.layout.render

/-- Installs a logger unless one is installed.  Tells whether it was installed, and which logger is
installed after that. -/
def install (current : Option Logger) (logger : Logger) : Bool × Logger :=
  match current with
  | none => (true, logger)
  | some installed => (false, installed)

end Logger

end TokenAudit.Log
