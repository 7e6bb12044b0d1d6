import Chip8Launcher.Proofs.Display.Painting
import Chip8Launcher.Proofs.Session.Sound
import Chip8Launcher.Session.Boot

/-!
# The screen of a session

Only an engine that has control paints (`act_screen`), and so a screen shows what it showed at the
beginning under all that was `drawn` since (`screen_after`).  Before an engine is entered nothing
can be drawn (`Sound.drawn_eq_nil`).  A session that was booted therefore stays blank until its
engine draws.
-/

namespace Chip8Launcher.Session

/-- What the step paints. -/
def painted? (s : Session) : Action → Option Fill
  | .draw fill => if s.running.isEmpty then none else some fill
  | _ => none

/-- What engines paint in a sequence of steps. -/
def drawn (s : Session) : List Action → List Fill
  | [] => []
  | action :: actions => (s.painted? action).toList ++ (s.act action).1.drawn actions

variable {engine : Engine} {calls : List Call} {s t : Session}

/-! ### What a step leaves alone -/

theorem Move.screen {task : Nat} (h : Move task s calls t) : t.screen = s.screen := by
  cases h <;> rfl

theorem Moves.screen {task : Nat} (h : Moves task s calls t) : t.screen = s.screen := by
  induction h with
  | refl => rfl
  | head hMove _ ih => exact ih.trans hMove.screen

theorem start_screen (s : Session) : s.start.1.screen = s.screen := by
  unfold start
  split <;> rfl

theorem cancel_screen (s : Session) (task : Nat) : (s.cancel task).1.screen = s.screen := by
  unfold cancel
  split <;> rfl

theorem finish_screen (s : Session) : s.finish.1.screen = s.screen := by
  unfold finish
  split
  · rfl
  next activation running _ => cases activation.task <;> rfl

theorem act_screen (s : Session) (action : Action) :
    (s.act action).1.screen = (s.painted? action).toList.foldl Framebuffer.fill s.screen := by
  cases action with
  | pick files => rfl
  | deliver content => rfl
  | read =>
    simp only [act]
    split <;> rfl
  | start => exact start_screen s
  | discard => rfl
  | spawn files => rfl
  | poll task => exact (poll_moves s task).screen
  | cancel task => exact cancel_screen s task
  | draw fill =>
    simp only [act, painted?]
    split <;> rfl
  | finish => exact finish_screen s

/-- A screen shows what has been drawn on it, one fill on the other. -/
theorem screen_after (s : Session) (actions : List Action) :
    (s.after actions).screen = (s.drawn actions).foldl Framebuffer.fill s.screen := by
  induction actions generalizing s with
  | nil => rfl
  | cons action actions ih =>
    rw [after_cons, ih, act_screen, drawn, List.foldl_append]

/-! ### Before the engine -/

theorem painted?_of_idle (h : s.running = []) (action : Action) : s.painted? action = none := by
  cases action with
  | draw fill => rw [painted?, h]; rfl
  | _ => rfl

/-- As long as no engine is entered nothing is drawn. -/
theorem Sound.drawn_eq_nil (h : Sound engine calls s) {actions : List Action}
    (hNone : (calls ++ s.calls actions).countP Call.enters = 0) : s.drawn actions = [] := by
  induction actions generalizing calls s with
  | nil => rfl
  | cons action actions ih =>
    rw [calls_cons, ← List.append_assoc] at hNone
    have hBefore : calls.countP Call.enters = 0 := by
      rw [List.countP_append, List.countP_append] at hNone
      omega
    have hIdle : s.running = [] := List.length_eq_zero_iff.1 (Nat.le_zero.1 (hBefore ▸ h.running))
    rw [drawn, painted?_of_idle hIdle, ih (h.act action) hNone]
    rfl

/-- A step that enters an engine is the first to do so, and it draws nothing itself. -/
theorem Sound.drawn_of_enters (h : Sound engine [] s) {actions : List Action} {action : Action}
    (hEnters : ∃ call ∈ ((s.after actions).act action).2.calls, call.enters = true) :
    s.drawn actions = [] ∧ (s.after actions).painted? action = none := by
  have hOnce := ((h.run actions).act action).enters_le_one
  have hPos := List.countP_pos_iff.2 hEnters
  rw [List.nil_append, List.countP_append] at hOnce
  refine ⟨h.drawn_eq_nil (by rw [List.nil_append]; omega), ?_⟩
  have hRunning := (h.run actions).running
  rw [List.nil_append] at hRunning
  exact painted?_of_idle (List.length_eq_zero_iff.1 (by omega)) action

/-- **A session is blank until its engine draws.**  Booting gives a screen of the same size that is
all foreground, whatever was painted on it before, and blanking it once more changes nothing.  It is
the same screen as long as nothing is drawn, whatever is done with the loader, and it is that when
an engine is entered. -/
theorem blank_until_drawn (engine : Engine) (screen : Framebuffer) (earlier : List Fill) :
    let booted := boot engine (earlier.foldl Framebuffer.fill screen)
    let blanked := Framebuffer.filled screen.columns screen.rows .foreground
    (booted.screen = blanked ∧ blanked.isBlank = true ∧ blanked.blank = blanked) ∧
      ∀ actions, (booted.drawn actions = [] → (booted.after actions).screen = blanked) ∧
        ∀ action, (∃ call ∈ ((booted.after actions).act action).2.calls, call.enters = true) →
          (booted.after actions).screen = blanked ∧
            ((booted.after actions).act action).1.screen = blanked := by
  intro booted blanked
  have hBooted : booted.screen = blanked := by
    obtain ⟨hColumns, hRows, -⟩ := screen.foldl_fill_spec earlier
    refine (Framebuffer.blank_eq_filled _).trans ?_
    rw [hColumns, hRows]
  have hUndrawn : ∀ actions, booted.drawn actions = [] →
      (booted.after actions).screen = blanked := by
    intro actions hDrawn
    rw [screen_after, hDrawn]
    exact hBooted
  refine ⟨⟨hBooted, Framebuffer.isBlank_filled _ _, Framebuffer.blank_eq_filled _⟩, ?_⟩
  intro actions
  refine ⟨hUndrawn actions, fun action hEnters => ?_⟩
  have hArmed : Sound engine [] booted := .arm engine _
  obtain ⟨hDrawn, hPainted⟩ := hArmed.drawn_of_enters hEnters
  refine ⟨hUndrawn actions hDrawn, ?_⟩
  rw [act_screen, hPainted]
  exact hUndrawn actions hDrawn

/-- The first read fails, the second is cancelled and delivered by hand, and when the engine has
control it draws. -/
theorem blank_until_drawn_after_failures :
    let engine : Engine := ⟨none⟩
    let earlier : List Fill := [⟨⟨1, 1, 7, 1⟩, .foreground⟩, ⟨⟨3, 0, 1, 1⟩, .background⟩]
    let booted := boot engine (earlier.foldl Framebuffer.fill (.filled 5 3 .background))
    let missing : File := ⟨"missing.ch8", .error "not found", 0⟩
    let file : File := ⟨"pong.ch8", .ok [0x6a, 0x02], 1⟩
    let before : List Action :=
      [.draw ⟨⟨0, 0, 2, 2⟩, .background⟩, .spawn [missing], .poll 0, .spawn [file], .poll 1,
        .cancel 1, .deliver (.ok [0x6a])]
    (booted.after before).screen = .filled 5 3 .foreground ∧
      ((booted.after before).act .start).1.screen = .filled 5 3 .foreground ∧
      booted.drawn (before ++ [.start, .draw ⟨⟨0, 0, 2, 2⟩, .background⟩]) =
        [⟨⟨0, 0, 2, 2⟩, .background⟩] := by
  intro engine earlier booted missing file before
  obtain ⟨-, hRuns⟩ := blank_until_drawn engine (.filled 5 3 .background) earlier
  have hEnters : ∃ call ∈ ((booted.after before).act .start).2.calls, call.enters = true :=
    ⟨⟨none, .entered ⟨[0x6a]⟩⟩, List.mem_of_getElem? (i := 0) rfl, rfl⟩
  exact ⟨(hRuns before).1 rfl, ((hRuns before).2 .start hEnters).2, rfl⟩

end Chip8Launcher.Session
