/-!
# The log

An entry is a level and a text.  A threshold lets through the entries of its own level and of
every more important one.
-/

namespace Chip8Launcher.Log

/-- From the most to the least important. -/
inductive Level where
  | error
  | warn
  | info
  | debug
  | trace
  deriving DecidableEq, Repr

namespace Level

def name : Level → String
  | error => "ERROR"
  | warn => "WARN"
  | info => "INFO"
  | debug => "DEBUG"
  | trace => "TRACE"

def all : List Level := [error, warn, info, debug, trace]

/-- Reads a name in any mixture of cases; blanks around it are not taken off. -/
def ofName? (text : String) : Option Level :=
  all.find? fun level => text.toList.map Char.toUpper == level.name.toList

def rank : Level → Nat
  | error => 1
  | warn => 2
  | info => 3
  | debug => 4
  | trace => 5

end Level

structure Entry where
  level : Level
  text : String
  deriving DecidableEq, Repr

namespace Entry

def passes (threshold : Level) (entry : Entry) : Bool :=
  entry.level.rank ≤ threshold.rank

def error (text : String) : Entry := ⟨.error, text⟩

def warn (text : String) : Entry := ⟨.warn, text⟩

def info (text : String) : Entry := ⟨.info, text⟩

def debug (text : String) : Entry := ⟨.debug, text⟩

def trace (text : String) : Entry := ⟨.trace, text⟩

end Entry

end Chip8Launcher.Log
