import Chip8Launcher.Session.Basic

/-!
# The loader in its cell

The loader lies in a cell that counts its borrows while the program runs.  Any number of readers
may hold it at once, or one writer, and who asks for it against that rule panics.

A `Code` is what is left to do of one call: the listener of the selector, a poll of a task, or a
use of the loader by hand.  It works on the loader only through the cell, and it gives control to
others at two points, where a pending read is polled and where the engine runs.  Whoever has
control there can take any step of a session, dispatch another change or select other files, and
each of these is a call of its own on top of the stack.  The names and sizes of files, the log and
the hiding of the selector, which are asked for while the loader is borrowed, only answer.

A guard that is not bound to a name lives to the end of the statement that takes it.  Such
statements are `Code.picking`, `Code.delivering` and `Code.capturing`.
-/

namespace Chip8Launcher

/-- How the cell is borrowed. -/
inductive Borrow where
  | readers (n : Nat)
  | writer
  deriving DecidableEq, Repr

/-- What a borrow gives, to be dropped at its end. -/
inductive Guard where
  | reader
  | writer
  deriving DecidableEq, Repr

namespace Borrow

def free : Borrow := .readers 0

/-- Without a result the borrow conflicts with one that is outstanding. -/
def take? : Borrow → Guard → Option Borrow
  | .readers n, .reader => some (.readers (n + 1))
  | .readers 0, .writer => some .writer
  | _, _ => none

def drop : Borrow → Guard → Borrow
  | .readers n, .reader => .readers (n - 1)
  | .writer, .writer => free
  | borrow, _ => borrow

end Borrow

/-- What is left to do of a call. -/
inductive Code where
  | done
  | borrow (guard : Guard) (next : Code)
  | drop (guard : Guard) (next : Code)
  | pick (files : List File) (next : Selection File → Code)
  | deliver (content : Except ReadError (List UInt8)) (next : Delivery Engine → Code)
  /-- Read off what is selected. -/
  | capture (next : List File → Code)
  /-- Change what is not the loader's. -/
  | keep (change : Session → Session) (next : Code)
  /-- Install the listener. -/
  | install (next : Code)
  /-- Others have control until the poll of the read is over. -/
  | read (file : File) (left : Nat) (next : Code)
  /-- Others have control until the engine returns. -/
  | engine (next : Code)

namespace Code

/-- Others have control. -/
def isForeign : Code → Bool
  | read _ _ _ => true
  | engine _ => true
  | _ => false

/-! ### Statements -/

def picking (files : List File) (next : Selection File → Code) : Code :=
  borrow .writer (pick files fun selection => drop .writer (next selection))

def delivering (content : Except ReadError (List UInt8)) (next : Delivery Engine → Code) : Code :=
  borrow .writer (deliver content fun delivery => drop .writer (next delivery))

def capturing (next : List File → Code) : Code :=
  borrow .reader (capture fun files => drop .reader (next files))

/-! ### Calls -/

/-- A task from the moment at which its read is over. -/
def completing (task : Nat) (file : File) : Code :=
  delivering file.read fun delivery =>
    match delivery.result with
    | .error e => keep (·.setTask task (.ended (.error e))) done
    | .ok handoff => keep (fun s => (s.setTask task .launching).enter (some task) handoff)
      (engine done)

/-- A task from its first poll. -/
def handling (task : Nat) (files : List File) : Code :=
  picking files fun selection =>
    match selection.file? with
    | none => keep (·.setTask task (.ended (.ok ()))) done
    | some file => keep (·.setTask task (.reading file file.delay))
      (read file file.delay (completing task file))

/-- A poll of a task that has come so far. -/
def polling (task : Nat) : Option Phase → Code
  | some (.fresh files) => handling task files
  | some (.reading file left) => read file left (completing task file)
  | _ => done

/-- The listener takes what is selected and leaves it to a task. -/
def listening : Code :=
  capturing fun files => keep (fun s => (s.act (.spawn files)).1) done

/-- The selector is asked for, and then the listener installed on it. -/
def arming : Code := borrow .reader (drop .reader (install done))

def deliveringByHand (content : Except ReadError (List UInt8)) : Code :=
  delivering content fun delivery =>
    keep (fun s => { s with
      handoff := match delivery with
        | .released handoff => some handoff
        | _ => s.handoff }) done

end Code

/-- A call that is not over, and the task it polls. -/
structure Frame where
  task : Option Nat
  code : Code

structure Machine where
  session : Session
  /-- What is selected now. -/
  selected : List File
  /-- How many times the listener is installed. -/
  listeners : Nat
  cell : Borrow
  /-- The calls that are not over, the latest first. -/
  stack : List Frame
  panicked : Bool

/-- What can happen next. -/
inductive Choice where
  /-- The call on top goes on by one instruction. -/
  | advance
  /-- The read that is polled, or the engine that runs, gives control back. -/
  | giveBack
  /-- Who has control takes a step of the session. -/
  | take (action : Action)
  /-- Who has control lets a change reach a listener. -/
  | change
  | select (files : List File)
  /-- Who has control arms the selector. -/
  | arm

namespace Machine

/-- At first only the loader is armed. -/
def arm (engine : Engine) (screen : Framebuffer) : Machine where
  session := .arm engine screen
  selected := []
  listeners := 0
  cell := .free
  stack := []
  panicked := false

/-- No call is in progress, or the latest one has given control to others. -/
def isForeign (m : Machine) : Bool :=
  match m.stack with
  | [] => true
  | frame :: _ => frame.code.isForeign

/-- The task is being polled, so that nobody can poll it or drop it. -/
def isPolled (m : Machine) (task : Nat) : Bool := m.stack.any (·.task == some task)

/-- A new call, on top of those that are not over. -/
def call (m : Machine) (task : Option Nat) (code : Code) : Machine :=
  { m with stack := ⟨task, code⟩ :: m.stack }

/-- The task that a step polls. -/
def polled : Action → Option Nat
  | .poll task => some task
  | _ => none

/-- How a step is taken by one who has control.  An engine returns by giving back, so that
finishing is nothing here. -/
def codeOf (m : Machine) : Action → Code
  | .pick files =>
    .picking files fun selection =>
      .keep (fun s => { s with picked := selection.file?.or s.picked }) .done
  | .deliver content => .deliveringByHand content
  | .read =>
    match m.session.picked with
    | none => .done
    | some file => .keep (fun s => { s with picked := none }) (.deliveringByHand file.read)
  | .start =>
    match m.session.handoff with
    | none => .done
    | some handoff => .keep (fun s => { s with handoff := none }.enter none handoff) (.engine .done)
  | .poll task => if m.isPolled task then .done else .polling task m.session.tasks[task]?
  | .cancel task =>
    if m.isPolled task then .done else .keep (fun s => (s.act (.cancel task)).1) .done
  | .finish => .done
  | action => .keep (fun s => (s.act action).1) .done

/-- One instruction of the call on top.  A borrow that conflicts panics. -/
def advance (m : Machine) : Machine :=
  match m.stack with
  | [] => m
  | ⟨task, code⟩ :: stack =>
    let m : Machine := { m with stack := stack }
    match code with
    | .done => m
    | .borrow guard next =>
      match m.cell.take? guard with
      | some cell => { m with cell := cell }.call task next
      | none => { m.call task code with panicked := true }
    | .drop guard next => { m with cell := m.cell.drop guard }.call task next
    | .pick files next =>
      let (loader, selection) := m.session.loader.pick files
      { m with session := { m.session with loader := loader } }.call task (next selection)
    | .deliver content next =>
      let (loader, delivery) := m.session.loader.deliver content
      { m with session := { m.session with loader := loader } }.call task (next delivery)
    | .capture next => m.call task (next m.selected)
    | .keep change next =>
      { m with session := { change m.session with loader := m.session.loader } }.call task next
    | .install next => { m with listeners := m.listeners + 1 }.call task next
    | .read _ _ _ => m.call task code
    | .engine _ => m.call task code

/-- The end of a read's poll or of an engine's run.  A read that is still pending ends the poll of
its task, and an engine that returns has kept its image. -/
def giveBack (m : Machine) : Machine :=
  match m.stack with
  | ⟨task, .read _ 0 next⟩ :: stack => { m with stack := ⟨task, next⟩ :: stack }
  | ⟨task, .read file (left + 1) _⟩ :: stack =>
    let session := match task with
      | some task => m.session.setTask task (.reading file left)
      | none => m.session
    { m with session := session, stack := stack }
  | ⟨task, .engine next⟩ :: stack =>
    { m with session := m.session.finish.1, stack := ⟨task, next⟩ :: stack }
  | _ => m

/-- What those who have control do. -/
def act (m : Machine) : Choice → Machine
  | .take action => m.call (polled action) (m.codeOf action)
  | .change => if m.listeners = 0 then m else m.call none .listening
  | .select files => { m with selected := files }
  | .arm => m.call none .arming
  | .giveBack => m.giveBack
  | .advance => m

/-- Nothing happens after a panic. -/
def next (m : Machine) (choice : Choice) : Machine :=
  if m.panicked then m
  else if m.isForeign then m.act choice
  else match choice with
    | .advance => m.advance
    | _ => m

def after (m : Machine) (choices : List Choice) : Machine := choices.foldl next m

end Machine

end Chip8Launcher
