import Chip8Launcher.Session.Basic

/-!
# Reports of a session

A session is driven by requests, and each request is reported: its answer, the loader after it,
the images that were received and what was logged.  When a request gives control to the engine,
the engine follows its script: it paints, takes requests of its own, and returns.  What
happened in its visit is reported with the request that called it.

A loader has one engine and releases it once, so an engine's own requests never call another.
-/

namespace Chip8Launcher

inductive Request where
  /-- Only look. -/
  | inspect
  | act (action : Action)
  /-- Create a task and poll it at once. -/
  | select (files : List File)

/-- What the engine does while it has control. -/
structure Script where
  draws : List Fill
  requests : List Request

structure Moment where
  answer : Answer
  loader : Loader Engine
  received : List Image
  log : List Log.Entry

structure Visit where
  /-- The screen was blank when the engine got control. -/
  foundBlank : Bool
  /-- The screen after the engine has painted. -/
  screen : Framebuffer
  moments : List Moment

structure Report where
  moment : Moment
  visit : Option Visit

def Request.actions (s : Session) : Request → List Action
  | .inspect => []
  | .act action => [action]
  | .select files => [.spawn files, .poll s.tasks.length]

/-- The moment without the entries that the threshold holds back. -/
def Moment.above (threshold : Log.Level) (moment : Moment) : Moment :=
  { moment with log := moment.log.filter (·.passes threshold) }

def Report.above (threshold : Log.Level) (report : Report) : Report where
  moment := report.moment.above threshold
  visit := report.visit.map fun visit =>
    { visit with moments := visit.moments.map (·.above threshold) }

namespace Session

/-- The answer of the last of some responses, and all they have logged. -/
def conclusion : List Response → Answer × List Log.Entry
  | [] => (.none, [])
  | [response] => (response.answer, response.log)
  | response :: responses =>
    let (answer, log) := conclusion responses
    (answer, response.log ++ log)

def take (s : Session) (request : Request) : Session × Answer × List Log.Entry :=
  let (s, responses) := s.run (request.actions s)
  (s, conclusion responses)

/-- The report of a request after which `s` has become `t`. -/
def moment (s t : Session) (answer : Answer) (log : List Log.Entry) : Moment where
  answer := answer
  loader := t.loader
  received := t.received.drop s.received.length
  log := log

/-- The engine takes a request of its own. -/
def takeInside (s : Session) (request : Request) : Session × Moment :=
  let (t, answer, log) := s.take request
  (t, s.moment t answer log)

def takeAllInside (s : Session) : List Request → Session × List Moment
  | [] => (s, [])
  | request :: requests =>
    let (s, moment) := s.takeInside request
    let (s, moments) := s.takeAllInside requests
    (s, moment :: moments)

/-- The visit of an engine that has just got control, up to its return. -/
def visit (s : Session) (script : Script) : Session × Visit :=
  let (painted, _) := s.run (script.draws.map .draw)
  let (t, moments) := painted.takeAllInside script.requests
  (t, ⟨s.screen.isBlank, painted.screen, moments⟩)

def report (s : Session) (script : Script) (request : Request) : Session × Report :=
  let (t, answer, log) := s.take request
  match answer with
  | .running =>
    let (t, visit) := t.visit script
    let (t, response) := t.act .finish
    (t, ⟨s.moment t response.answer (log ++ response.log), some visit⟩)
  | answer => (t, ⟨s.moment t answer log, none⟩)

def reports (s : Session) (script : Script) : List Request → Session × List Report
  | [] => (s, [])
  | request :: requests =>
    let (s, report) := s.report script request
    let (s, reports) := s.reports script requests
    (s, report :: reports)

end Session

end Chip8Launcher
