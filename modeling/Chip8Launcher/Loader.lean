import Chip8Launcher.Failure
import Chip8Launcher.Image
import Chip8Launcher.Log

/-!
# The loader

A loader waits for files to be selected and gives one program image to its engine, once in its
life.  `pick` answers a selection: it names the file to read, at most one at a time, and marks
the read as in flight.  `deliver` answers the end of a read: a failed one leaves the selector
armed for another try, and a successful one hides it and releases the image together with the
engine.

The engine is any value, as the loader does nothing with it but keep it and give it away.
-/

namespace Chip8Launcher

/-- What the loader needs to know of a file. -/
class Selectable (φ : Type) where
  name : φ → String
  size : φ → Nat

inductive SelectorState where
  | armed
  | hidden
  deriving DecidableEq, Repr

structure Loader (ε : Type) where
  state : SelectorState
  /-- A read is in flight. -/
  reading : Bool
  /-- The engine, until it is released. -/
  engine : Option ε
  /-- How many times the selector has been told to hide. -/
  hides : Nat
  deriving DecidableEq, Repr

/-- What comes of a selection. -/
inductive Selection (φ : Type) where
  /-- The selector has served its purpose. -/
  | alreadyUsed
  /-- Another read is in flight. -/
  | busy
  | empty
  | picked (file : φ)
  deriving DecidableEq, Repr

/-- An image and the engine it goes to. -/
structure Handoff (ε : Type) where
  image : Image
  engine : ε
  deriving DecidableEq, Repr

/-- What comes of the end of a read. -/
inductive Delivery (ε : Type) where
  /-- No read was in flight. -/
  | unexpected
  | failed (e : ReadError)
  /-- A read was in flight but there is no engine to give its image to. -/
  | engineless
  | released (handoff : Handoff ε)
  deriving DecidableEq, Repr

variable {ε φ : Type}

namespace Selection

def file? : Selection φ → Option φ
  | picked file => some file
  | _ => none

def entry [Selectable φ] : Selection φ → Log.Entry
  | alreadyUsed => .debug "selector already used, ignoring change event"
  | busy => .debug "read already in flight, ignoring change event"
  | empty => .debug "empty selection"
  | picked file =>
    .debug ("reading `" ++ Selectable.name file ++ "` ("
      ++ toString (Selectable.size file) ++ " bytes)")

end Selection

namespace Handoff

def entry (handoff : Handoff ε) : Log.Entry :=
  .info ("starting engine with " ++ toString handoff.image.size ++ " byte image")

end Handoff

namespace Delivery

def result : Delivery ε → Except LoadError (Handoff ε)
  | unexpected => .error .noReadInFlight
  | failed e => .error (.read e)
  | engineless => .error .noReadInFlight
  | released handoff => .ok handoff

/-- An image that does not fit is handed over all the same, after a warning. -/
def entries : Delivery ε → List Log.Entry
  | unexpected => []
  | failed e => [.error e.message]
  | engineless => []
  | released handoff =>
    (if handoff.image.fits then [] else
      [.warn ("image is " ++ toString handoff.image.size ++ " bytes, larger than the "
        ++ toString Image.capacity ++ " bytes of program memory")])
    ++ [.trace ("image head:\n" ++ handoff.image.hexdump 32)]

end Delivery

namespace Loader

def arm (engine : ε) : Loader ε where
  state := .armed
  reading := false
  engine := some engine
  hides := 0

def armedEntry : Log.Entry := .debug "rom loader armed"

/-- Only the first file of a selection counts. -/
def consider (loader : Loader ε) (files : List φ) : Selection φ :=
  if loader.state = .hidden then .alreadyUsed
  else if loader.reading then .busy
  else match files with
    | [] => .empty
    | file :: _ => .picked file

def pick (loader : Loader ε) (files : List φ) : Loader ε × Selection φ :=
  match loader.consider files with
  | .picked file => ({ loader with reading := true }, .picked file)
  | ignored => (loader, ignored)

def deliver (loader : Loader ε) (content : Except ReadError (List UInt8)) :
    Loader ε × Delivery ε :=
  if loader.reading then
    let loader := { loader with reading := false }
    match content, loader.engine with
    | .error e, _ => (loader, .failed e)
    | .ok _, none => (loader, .engineless)
    | .ok bytes, some engine =>
      ({ loader with engine := none, hides := loader.hides + 1, state := .hidden },
        .released ⟨⟨bytes⟩, engine⟩)
  else (loader, .unexpected)

theorem pick_engine (loader : Loader ε) (files : List φ) :
    (loader.pick files).1.engine = loader.engine := by
  unfold pick
  split <;> rfl

theorem deliver_engine_of_error {loader : Loader ε} {content : Except ReadError (List UInt8)}
    {e : LoadError} (h : (loader.deliver content).2.result = .error e) :
    (loader.deliver content).1.engine = loader.engine := by
  unfold deliver at *
  split
  · cases content <;> cases hEngine : loader.engine <;> simp_all [Delivery.result]
  · rfl

theorem deliver_engine_of_ok {loader : Loader ε} {content : Except ReadError (List UInt8)}
    {handoff : Handoff ε} (h : (loader.deliver content).2.result = .ok handoff) :
    loader.engine = some handoff.engine ∧ (loader.deliver content).1.engine = none := by
  unfold deliver at *
  split
  · cases content <;> cases hEngine : loader.engine <;> simp_all [Delivery.result]
    simp [← h]
  · simp_all [Delivery.result]

end Loader

end Chip8Launcher
