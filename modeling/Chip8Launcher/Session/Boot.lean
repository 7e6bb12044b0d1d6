import Chip8Launcher.Config.OfText
import Chip8Launcher.Session.Basic

/-!
# Starting a session

`boot` blanks a screen and arms a loader.  `launch` does so for a configuration in JSON text:
the text is read, the log level looked up and the screen made, and the first of these that
fails ends the launch.
-/

namespace Chip8Launcher

/-- Why a launch came to nothing. -/
inductive Refusal where
  | config (rejection : Config.Rejection)
  | level (e : BootError)
  /-- There is no framebuffer of the size asked for. -/
  | size

structure Launch where
  config : Config
  level : Log.Level
  session : Session
  log : List Log.Entry

namespace Session

def boot (engine : Engine) (screen : Framebuffer) : Session := .arm engine screen.blank

def bootLog (screen : Framebuffer) : List Log.Entry :=
  [Fill.blankingEntry screen.columns screen.rows, Loader.armedEntry]

end Session

/-- Without a text the configuration is the standard one. -/
def launch (text : Option String) (engine : Engine) : Except Refusal Launch := do
  let config ← match text with
    | none => .ok .standard
    | some text => (Config.ofText text).mapError .config
  let level ← config.level.mapError .level
  match Framebuffer.new? config.width.toUInt64 config.height.toUInt64 with
  | none => .error .size
  | some screen =>
    return ⟨config, level, .boot engine screen, Session.bootLog screen⟩

end Chip8Launcher
