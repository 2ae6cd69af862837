/-
# Log lines

What a client reports about its connections, and the sink that takes it.
-/

namespace CachePool

/-- How urgent a line is. -/
inductive LogLevel where
  | error
  | warn
  | info
  | debug
  | trace
  deriving DecidableEq

/-- The name of a level. -/
def LogLevel.name : LogLevel → String
  | .error => "ERROR"
  | .warn => "WARN"
  | .info => "INFO"
  | .debug => "DEBUG"
  | .trace => "TRACE"

/-- A reported line. -/
structure LogLine where
  level : LogLevel
  message : String
  deriving DecidableEq

/-- The text of a line. -/
def LogLine.text (line : LogLine) : String :=
  line.level.name ++ " " ++ line.message

/-- Where lines go. -/
inductive LogSink where
  | keep
  | discard
  deriving DecidableEq

/-- A sink and the lines it kept. -/
structure Log where
  sink : LogSink
  lines : List LogLine
  deriving DecidableEq

namespace Log

/-- A sink without lines. -/
def empty (sink : LogSink) : Log where
  sink := sink
  lines := []

/-- The log after one more line was reported. -/
def add (log : Log) (level : LogLevel) (message : String) : Log :=
  match log.sink with
  | .keep => { log with lines := log.lines ++ [{ level, message }] }
  | .discard => log

end Log

end CachePool
