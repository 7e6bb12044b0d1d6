import Chip8Launcher.Config.Basic
import Chip8Launcher.Config.Record

/-!
# Configurations in JSON text

`Config.ofText` and `Palette.ofText` read a configuration or a palette.  Fields that are left
out have their standard values, so `{}` is the standard configuration.
-/

namespace Chip8Launcher

open Config

namespace Palette

def fields : List (FieldReader Palette) := [
  .string "foreground" fun palette colour => { palette with foreground := colour },
  .string "background" fun palette colour => { palette with background := colour }]

def read (s : List Char) : Except Rejection (Palette × List Char) :=
  readRecord .palette .standard fields s

def ofText (text : String) : Except Rejection Palette := readWhole read text

end Palette

namespace Config

def fields : List (FieldReader Config) := [
  .string "surfaceId" fun config id => { config with surfaceId := id },
  .string "selectorId" fun config id => { config with selectorId := id },
  .size "width" fun config n => { config with width := n },
  .size "height" fun config n => { config with height := n },
  .ofRead "palette" Palette.read readRecord_length
    fun config palette => { config with palette := palette },
  .string "logLevel" fun config name => { config with logLevel := name }]

def read (s : List Char) : Except Rejection (Config × List Char) :=
  readRecord .config .standard fields s

def ofText (text : String) : Except Rejection Config := readWhole read text

end Config

end Chip8Launcher
