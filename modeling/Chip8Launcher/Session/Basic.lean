import Chip8Launcher.Display.Framebuffer
import Chip8Launcher.Loader

/-!
# Sessions

A session is a loader in use.  Files can be picked and delivered by hand, or by tasks that are
polled in any order: a task's first poll picks a file and begins to read it, each poll consumes
one unit of the file's delay, and the poll that finds none left delivers the content and gives
the image to the engine.

`act` is one step.  The engine has control from the step that calls it to the step `finish`,
and any steps may lie in between, so everything the engine might do to its own loader is an
ordinary sequence of steps.
-/

namespace Chip8Launcher

/-- A file that reads as its content, or fails with a reason, after a number of polls. -/
structure File where
  name : String
  content : Except String (List UInt8)
  delay : Nat

namespace File

/-- A file that cannot be read shows no size. -/
def size (file : File) : Nat :=
  match file.content with
  | .ok bytes => bytes.length
  | .error _ => 0

def read (file : File) : Except ReadError (List UInt8) :=
  match file.content with
  | .ok bytes => .ok bytes
  | .error reason => .error ⟨file.name, reason⟩

instance : Selectable File := ⟨File.name, File.size⟩

end File

/-- An engine keeps the images it is given, and then returns or fails. -/
structure Engine where
  failure : Option String
  deriving DecidableEq, Repr

def Engine.result (engine : Engine) : Except EngineError Unit :=
  match engine.failure with
  | none => .ok ()
  | some text => .error ⟨text⟩

/-- How far a task has come. -/
inductive Phase where
  /-- Not polled yet. -/
  | fresh (files : List File)
  /-- The read is pending for so many more polls. -/
  | reading (file : File) (left : Nat)
  /-- Its engine has control. -/
  | launching
  | ended (result : Except LoadError Unit)
  /-- Given up, before or during its read. -/
  | cancelled (reading : Bool)

/-- An engine that has control, and the task that waits for it, if it was not called by hand. -/
structure Activation where
  task : Option Nat
  handoff : Handoff Engine

structure Session where
  loader : Loader Engine
  /-- A task's place is its number. -/
  tasks : List Phase
  /-- The file picked by hand that is still to be delivered. -/
  picked : Option File
  /-- The handoff released by hand that is still to be started. -/
  handoff : Option (Handoff Engine)
  /-- The engines that have control, the latest first. -/
  running : List Activation
  /-- The images the engine has kept. -/
  received : List Image
  screen : Framebuffer

inductive Action where
  | pick (files : List File)
  | deliver (content : Except ReadError (List UInt8))
  /-- Deliver what the picked file reads as, whatever its delay. -/
  | read
  /-- Start the handoff. -/
  | start
  /-- Give the handoff up. -/
  | discard
  /-- Create a task, which does nothing yet. -/
  | spawn (files : List File)
  | poll (task : Nat)
  | cancel (task : Nat)
  /-- The engine that has control paints. -/
  | draw (fill : Fill)
  /-- The engine that has control keeps its image and returns. -/
  | finish

/-- What a step gives to the one who took it. -/
inductive Answer where
  | none
  | picked (file : Option File)
  | delivered (result : Except LoadError Image)
  | nothingPicked
  | noHandoff
  | discarded (was : Bool)
  | cancelled (was : Bool)
  | pending (task : Nat)
  | noTask
  /-- An engine now has control; the answer comes when it finishes. -/
  | running
  | ended (result : Except LoadError Unit)

/-- A use of the loader or of the engine, with what came of it. -/
inductive Use where
  | picked (selection : Selection File)
  | delivered (delivery : Delivery Engine)
  | entered (image : Image)

/-- A use, and the task that made it, if it was not made by hand. -/
structure Call where
  task : Option Nat
  use : Use

structure Response where
  answer : Answer
  log : List Log.Entry
  calls : List Call

namespace Session

/-- A session that begins with an armed loader. -/
def arm (engine : Engine) (screen : Framebuffer) : Session where
  loader := .arm engine
  tasks := []
  picked := none
  handoff := none
  running := []
  received := []
  screen := screen

def setTask (s : Session) (task : Nat) (phase : Phase) : Session :=
  { s with tasks := s.tasks.set task phase }

def outcome (delivery : Delivery Engine) : Except LoadError Image :=
  delivery.result.map (·.image)

/-- Gives control to the engine. -/
def enter (s : Session) (task : Option Nat) (handoff : Handoff Engine) : Session :=
  { s with running := ⟨task, handoff⟩ :: s.running }

/-- Picks a file by hand.  A selection that is ignored leaves an earlier file in place. -/
def pick (s : Session) (files : List File) : Session × Response :=
  let (loader, selection) := s.loader.pick files
  ({ s with loader := loader, picked := selection.file?.or s.picked },
    ⟨.picked selection.file?, [selection.entry], [⟨none, .picked selection⟩]⟩)

/-- Delivers by hand.  A delivery that fails leaves an earlier handoff in place. -/
def deliver (s : Session) (content : Except ReadError (List UInt8)) : Session × Response :=
  let (loader, delivery) := s.loader.deliver content
  let kept := match delivery with
    | .released handoff => some handoff
    | _ => s.handoff
  ({ s with loader := loader, handoff := kept },
    ⟨.delivered (outcome delivery), delivery.entries, [⟨none, .delivered delivery⟩]⟩)

def start (s : Session) : Session × Response :=
  match s.handoff with
  | none => (s, ⟨.noHandoff, [], []⟩)
  | some handoff =>
    ({ s with handoff := none }.enter none handoff,
      ⟨.running, [handoff.entry], [⟨none, .entered handoff.image⟩]⟩)

/-- A task's read has come to its end. -/
def complete (s : Session) (task : Nat) (file : File) : Session × Response :=
  let (loader, delivery) := s.loader.deliver file.read
  let s := { s with loader := loader }
  let call : Call := ⟨some task, .delivered delivery⟩
  match delivery.result with
  | .error e =>
    (s.setTask task (.ended (.error e)), ⟨.ended (.error e), delivery.entries, [call]⟩)
  | .ok handoff =>
    ((s.setTask task .launching).enter (some task) handoff,
      ⟨.running, delivery.entries ++ [handoff.entry],
        [call, ⟨some task, .entered handoff.image⟩]⟩)

/-- A poll of a task whose read is pending for `left` more polls. -/
def advance (s : Session) (task : Nat) (file : File) : Nat → Session × Response
  | 0 => s.complete task file
  | left + 1 => (s.setTask task (.reading file left), ⟨.pending task, [], []⟩)

/-- The first poll of a task. -/
def begin (s : Session) (task : Nat) (files : List File) : Session × Response :=
  let (loader, selection) := s.loader.pick files
  let s := { s with loader := loader }
  let call : Call := ⟨some task, .picked selection⟩
  match selection.file? with
  | none => (s.setTask task (.ended (.ok ())), ⟨.ended (.ok ()), [selection.entry], [call]⟩)
  | some file =>
    let (s, response) := s.advance task file file.delay
    (s, { response with
      log := selection.entry :: response.log, calls := call :: response.calls })

/-- Only a live task can be polled. -/
def poll (s : Session) (task : Nat) : Session × Response :=
  match s.tasks[task]? with
  | some (.fresh files) => s.begin task files
  | some (.reading file left) => s.advance task file left
  | _ => (s, ⟨.noTask, [], []⟩)

/-- A cancelled task is never heard of again; its read stays in flight. -/
def cancel (s : Session) (task : Nat) : Session × Response :=
  match s.tasks[task]? with
  | some (.fresh _) => (s.setTask task (.cancelled false), ⟨.cancelled true, [], []⟩)
  | some (.reading _ _) => (s.setTask task (.cancelled true), ⟨.cancelled true, [], []⟩)
  | _ => (s, ⟨.cancelled false, [], []⟩)

def finish (s : Session) : Session × Response :=
  match s.running with
  | [] => (s, ⟨.none, [], []⟩)
  | activation :: running =>
    let result := match activation.handoff.engine.result with
      | .ok () => .ok ()
      | .error e => .error (.engine e)
    let s := { s with
      running := running, received := s.received ++ [activation.handoff.image] }
    let s := match activation.task with
      | none => s
      | some task => s.setTask task (.ended result)
    (s, ⟨.ended result, [], []⟩)

def act (s : Session) : Action → Session × Response
  | .pick files => s.pick files
  | .deliver content => s.deliver content
  | .read => match s.picked with
    | none => (s, ⟨.nothingPicked, [], []⟩)
    | some file => { s with picked := none }.deliver file.read
  | .start => s.start
  | .discard => ({ s with handoff := none }, ⟨.discarded s.handoff.isSome, [], []⟩)
  | .spawn files =>
    ({ s with tasks := s.tasks ++ [.fresh files] }, ⟨.pending s.tasks.length, [], []⟩)
  | .poll task => s.poll task
  | .cancel task => s.cancel task
  | .draw fill =>
    (if s.running.isEmpty then s else { s with screen := s.screen.fill fill }, ⟨.none, [], []⟩)
  | .finish => s.finish

/-- The session after a sequence of steps, and what each step gave. -/
def run (s : Session) : List Action → Session × List Response
  | [] => (s, [])
  | action :: actions =>
    let (s, response) := s.act action
    let (s, responses) := s.run actions
    (s, response :: responses)

end Session

end Chip8Launcher
