/-!
Events that a pass reports while it runs.
-/

namespace SettingsBinding

/-- How important an event is, the least important first. -/
inductive LogLevel where
  | debug
  | info
  | warn
  deriving DecidableEq, Repr

namespace LogLevel

def name : LogLevel → String
  | debug => "DEBUG"
  | info => "INFO"
  | warn => "WARN"

def rank : LogLevel → Nat
  | debug => 0
  | info => 1
  | warn => 2

end LogLevel

structure LogEvent where
  level : LogLevel
  text : String
  deriving DecidableEq, Repr

namespace LogEvent

def line (event : LogEvent) : String := event.level.name ++ " " ++ event.text

end LogEvent

def debug (text : String) : LogEvent := ⟨.debug, text⟩

def info (text : String) : LogEvent := ⟨.info, text⟩

def warn (text : String) : LogEvent := ⟨.warn, text⟩

end SettingsBinding
