/-!
# Failures

Three kinds of failure: while the page is wired up (`BootError`), while a file is read
(`ReadError`) and while the engine runs (`EngineError`).  `LoadError` is what a load can end
with.  The page sees only the message.
-/

namespace Chip8Launcher

/-- All of these are fatal: the page lacks something that has no substitute. -/
inductive BootError where
  | noWindow
  | noDocument
  | elementNotFound (id : String)
  | wrongElement (id expected : String)
  | contextUnavailable (id : String)
  | config (text : String)
  deriving DecidableEq, Repr

def BootError.message : BootError → String
  | noWindow => "no global `window` exists"
  | noDocument => "window has no document"
  | elementNotFound id => "no element with id `" ++ id ++ "`"
  | wrongElement id expected => "element `" ++ id ++ "` is not a " ++ expected
  | contextUnavailable id => "2d drawing context unavailable on `" ++ id ++ "`"
  | config text => "invalid boot configuration: " ++ text

structure ReadError where
  file : String
  reason : String
  deriving DecidableEq, Repr

def ReadError.message (e : ReadError) : String :=
  "failed to read `" ++ e.file ++ "`: " ++ e.reason

structure EngineError where
  text : String
  deriving DecidableEq, Repr

def EngineError.message (e : EngineError) : String := "engine failed: " ++ e.text

inductive LoadError where
  | read (e : ReadError)
  | engine (e : EngineError)
  | noReadInFlight
  deriving DecidableEq, Repr

/-- A read or engine failure keeps its own message. -/
def LoadError.message : LoadError → String
  | read e => e.message
  | engine e => e.message
  | noReadInFlight => "no read in flight"

end Chip8Launcher
