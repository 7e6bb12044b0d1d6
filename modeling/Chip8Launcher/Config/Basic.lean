import Chip8Launcher.Display.Basic
import Chip8Launcher.Failure
import Chip8Launcher.Log

/-!
# The launch configuration

What a page may choose: which elements to use, the size of the display, its two colours and
how much is logged.  The level is kept as it was given and is looked at only when it is
needed, so a configuration with an unknown level can be held and shown.
-/

namespace Chip8Launcher

/-- The colours of the two shades. -/
structure Palette where
  foreground : String
  background : String
  deriving DecidableEq, Repr

def Palette.standard : Palette := ⟨"white", "black"⟩

def Palette.colour (palette : Palette) : Shade → String
  | .foreground => palette.foreground
  | .background => palette.background

structure Config where
  surfaceId : String
  selectorId : String
  width : UInt32
  height : UInt32
  palette : Palette
  logLevel : String
  deriving DecidableEq, Repr

namespace Config

def standard : Config where
  surfaceId := "display"
  selectorId := "rom_selector"
  width := 64
  height := 32
  palette := .standard
  logLevel := "info"

def withSurfaceId (config : Config) (id : String) : Config := { config with surfaceId := id }

def withSelectorId (config : Config) (id : String) : Config := { config with selectorId := id }

def withForeground (config : Config) (colour : String) : Config :=
  { config with palette.foreground := colour }

def withLogLevel (config : Config) (name : String) : Config := { config with logLevel := name }

def level (config : Config) : Except BootError Log.Level :=
  match Log.Level.ofName? config.logLevel with
  | some level => .ok level
  | none => .error (.config ("unknown log level `" ++ config.logLevel ++ "`"))

end Config

end Chip8Launcher
