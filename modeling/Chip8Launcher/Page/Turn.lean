import Chip8Launcher.Page.Drain

/-!
# Turns of a page

A turn is one step, after which the queued tasks run unless the turn holds them back for the
next one.  Its report says what the step gave, and what was done and logged in the turn.
-/

namespace Chip8Launcher.Page

structure Turn where
  step : Step
  holds : Bool

structure Report where
  result : Result
  effects : List Effect
  log : List Log.Entry

def turn (page : Page) (turn : Turn) : Page × Report :=
  let (next, result) := turn.step.perform page
  let next := if turn.holds then next else next.drain
  (next, ⟨result, next.effects.drop page.effects.length, next.log.drop page.log.length⟩)

def turns (page : Page) : List Turn → Page × List Report
  | [] => (page, [])
  | turn :: rest =>
    let (page, report) := page.turn turn
    let (page, reports) := page.turns rest
    (page, report :: reports)

end Chip8Launcher.Page
