import Mathlib.Data.List.Induction
import Chip8Launcher.Page.Turn
import Chip8Launcher.Proofs.Page.Polls
import Chip8Launcher.Proofs.Page.Start

/-!
# From the start to the engine

What happens to a page after a start is a list of steps and polls in any order: selections, with
an event or without, reads that come to their end, and polls of any task at any time.  The turns
of a page come to such a list (`turns_eq_after`).

As long as nothing was launched the page is as the start left it, but for the files that are
selected, and every task handles the files that a change had found (`Pending`).  The launch is
one poll (`LaunchedBy`), and after it all is calm again.
-/

namespace Chip8Launcher.Page

/-! ### Happenings -/

inductive Happening where
  | step (step : Step)
  | poll (k : Nat)

/-- A step is one that the page's host may take. -/
def Happening.IsHost : Happening → Prop
  | .step taken => taken.IsHost
  | .poll _ => True

def happen (page : Page) : Happening → Page
  | .step step => (step.perform page).1
  | .poll k => (page.poll k).1

def after (page : Page) (happenings : List Happening) : Page := happenings.foldl happen page

theorem after_append (page : Page) (happenings later : List Happening) :
    page.after (happenings ++ later) = (page.after happenings).after later :=
  List.foldl_append

theorem after_concat (page : Page) (happenings : List Happening) (happening : Happening) :
    page.after (happenings ++ [happening]) = (page.after happenings).happen happening :=
  after_append page happenings [happening]

theorem drainFrom_eq_after (page : Page) (k : Nat) (ended : Bool) :
    ∃ polls : List Nat, page.drainFrom k ended = page.after (polls.map .poll) := by
  induction page, k, ended using drainFrom.induct with
  | case1 page k ended hk polled ih =>
    obtain ⟨polls, hPolls⟩ := ih
    refine ⟨k :: polls, ?_⟩
    rw [drainFrom, if_pos hk]
    exact hPolls
  | case2 page k hk ih =>
    obtain ⟨polls, hPolls⟩ := ih
    refine ⟨polls, ?_⟩
    rw [drainFrom, if_neg hk, if_pos rfl]
    exact hPolls
  | case3 page k ended hk hEnded =>
    refine ⟨[], ?_⟩
    rw [drainFrom, if_neg hk, if_neg hEnded]
    rfl

theorem turn_eq_after (page : Page) (turn : Turn) :
    ∃ polls : List Nat, (page.turn turn).1 = page.after (.step turn.step :: polls.map .poll) := by
  obtain ⟨step, holds⟩ := turn
  cases holds with
  | true => exact ⟨[], rfl⟩
  | false => exact drainFrom_eq_after (step.perform page).1 0 false

/-- Turns take their steps and poll in between. -/
theorem turns_eq_after (page : Page) (turns : List Turn) :
    ∃ happenings, (page.turns turns).1 = page.after happenings ∧
      ((∀ turn ∈ turns, turn.step.IsHost) → ∀ happening ∈ happenings, happening.IsHost) := by
  induction turns generalizing page with
  | nil => exact ⟨[], rfl, by simp⟩
  | cons turn turns ih =>
    obtain ⟨polls, hTurn⟩ := page.turn_eq_after turn
    obtain ⟨happenings, hTurns, hHost⟩ := ih (page.turn turn).1
    refine ⟨.step turn.step :: polls.map .poll ++ happenings, ?_, ?_⟩
    · rw [after_append, ← hTurn]
      exact hTurns
    · intro hSteps happening hMem
      obtain ⟨hStep, hSteps⟩ := List.forall_mem_cons.1 hSteps
      rcases List.mem_append.1 hMem with hMem | hMem
      · rcases List.mem_cons.1 hMem with rfl | hMem
        · exact hStep
        · obtain ⟨k, -, rfl⟩ := List.mem_map.1 hMem
          trivial
      · exact hHost hSteps happening hMem

/-! ### Selections -/

/-- Task `k` was queued by a change that found `files` selected at the place. -/
def Queued (armed : Page) (place : Nat) (happenings : List Happening) (k : Nat)
    (files : List File) : Prop :=
  ∃ earlier id later, happenings = earlier ++ .step (.select id files "change") :: later ∧
    let before := armed.after earlier
    let next := before.select id files "change"
    before.tasks.length = k ∧ next.tasks[k]? = some ⟨0, .fresh files⟩ ∧
      ∃ input, next.input? place = some input ∧ input.files = files

theorem Queued.concat {armed : Page} {place k : Nat} {happenings : List Happening}
    {files : List File} (h : Queued armed place happenings k files) (happening : Happening) :
    Queued armed place (happenings ++ [happening]) k files := by
  obtain ⟨earlier, id, later, rfl, hQueued⟩ := h
  exact ⟨earlier, id, later ++ [happening], by simp, hQueued⟩

theorem select_reads (page : Page) (id : String) (files : List File) (event : String) :
    (page.select id files event).reads = page.reads := by
  obtain ⟨elements, tasks, hSelect⟩ := page.select_eq id files event
  rw [hSelect]

variable {engine : Function} {place k : Nat} {stage : Stage} {page armed : Page} {id : String}
  {happenings : List Happening}

/-- A selection queues a task if it is a change of the input at the place. -/
theorem Serves.select_tasks (h : page.Serves engine place stage) (id : String) (files : List File)
    (event : String) :
    let next := page.select id files event
    next.tasks = page.tasks ∨
      event = "change" ∧ next.tasks = page.tasks ++ [⟨0, .fresh files⟩] ∧
        ∃ input, next.input? place = some input ∧ input.files = files := by
  intro next
  simp only [next, select]
  split
  next => exact .inl rfl
  next found _ =>
    split
    next => exact .inl rfl
    next input hInput =>
      by_cases hChange : event = "change"
      · by_cases hPlace : found = place
        · subst hPlace
          refine .inr ⟨hChange, ?_, { input with files := files }, ?_, rfl⟩
          · simp [fire, hChange, setElement, show page.listeners = _ from h]
          · rw [fire, if_pos hChange]
            exact input?_setElement_self hInput _
        · refine .inl ?_
          simp [fire, hChange, setElement, show page.listeners = _ from h, Ne.symm hPlace]
      · rw [fire, if_neg hChange]
        exact .inl rfl

/-! ### Before the launch -/

/-- Nothing has been launched. -/
structure Pending (engine : Function) (place : Nat) (armed : Page) (happenings : List Happening) :
    Prop where
  serves : ∃ stage, stage ≠ .spent ∧ (armed.after happenings).Serves engine place stage
  calm : Calm armed (armed.after happenings)
  handles : ∀ (k : Nat) (task : Task), (armed.after happenings).tasks[k]? = some task →
    ∃ files, task.phase.Handles (armed.after happenings).reads files ∧
      Queued armed place happenings k files

/-- Tasks that were there before go on handling what they handled. -/
theorem Pending.of_keeps (h : Pending engine place armed happenings) {happening : Happening}
    (hServes : ∃ stage, stage ≠ .spent ∧
      ((armed.after happenings).happen happening).Serves engine place stage)
    (hCalm : Calm (armed.after happenings) ((armed.after happenings).happen happening))
    (hKeeps : Keeps (armed.after happenings) ((armed.after happenings).happen happening)) :
    Pending engine place armed (happenings ++ [happening]) := by
  rw [← after_concat] at hServes hCalm hKeeps
  refine ⟨hServes, h.calm.trans hCalm, ?_⟩
  intro k task hTask
  obtain ⟨old, hOld, hHandles⟩ := hKeeps k task hTask
  obtain ⟨files, hFiles, hQueued⟩ := h.handles k old hOld
  exact ⟨files, hHandles files hFiles, hQueued.concat happening⟩

theorem Pending.select (h : Pending engine place armed happenings) (id : String)
    (files : List File) (event : String) :
    Pending engine place armed (happenings ++ [.step (.select id files event)]) := by
  obtain ⟨stage, hStage, hServes⟩ := h.serves
  have hReads := select_reads (armed.after happenings) id files event
  have hListeners := select_listeners (armed.after happenings) id files event
  rcases hServes.select_tasks id files event with hTasks | ⟨rfl, hTasks, hInput⟩
  · exact h.of_keeps ⟨stage, hStage, hListeners.trans hServes⟩ (.select _ id files event)
      (.of_eq hTasks hReads)
  · refine ⟨?_, ?_, ?_⟩ <;> rw [after_concat]
    · exact ⟨stage, hStage, hListeners.trans hServes⟩
    · exact h.calm.trans (.select _ id files _)
    · intro k task hTask
      change ((armed.after happenings).select id files "change").tasks[k]? = some task at hTask
      have hNew := hTask
      rw [hTasks, List.getElem?_append] at hTask
      split at hTask
      next hOld =>
        obtain ⟨old, hHandles, hQueued⟩ := h.handles k task hTask
        exact ⟨old, hReads ▸ hHandles, hQueued.concat _⟩
      next hLength =>
        have hk : (armed.after happenings).tasks.length = k := by
          have hZero := (List.getElem?_eq_some_iff.1 hTask).1
          rw [List.length_singleton] at hZero
          omega
        rw [hk, Nat.sub_self] at hTask
        obtain rfl := Option.some.inj hTask
        exact ⟨files, rfl, happenings, id, [], rfl, hk, hNew, hInput⟩

theorem Pending.settle (h : Pending engine place armed happenings) (read : Nat) :
    Pending engine place armed (happenings ++ [.step (.settle read)]) := by
  obtain ⟨stage, hStage, hServes⟩ := h.serves
  obtain ⟨reads, hReads⟩ := (armed.after happenings).settle_eq read
  have hListeners := settle_listeners (armed.after happenings) read
  have hTasks := congrArg Page.tasks hReads
  exact h.of_keeps ⟨stage, hStage, hListeners.trans hServes⟩ (.settle _ read)
    (.of_reads hTasks (sameFiles_settle _ read))

/-! ### The launch -/

/-- After `before`, a poll of task `k` found the read of `file` at its end and gave its bytes to
the engine, which found the page as `found`. -/
structure LaunchedBy (engine : Function) (place : Nat) (id : String) (armed : Page)
    (happenings before : List Happening) (k : Nat) (file : File) (bytes : List UInt8)
    (found : Page) : Prop where
  poll : ∃ later, happenings = before ++ .poll k :: later
  queued : ∃ rest, Queued armed place before k (file :: rest)
  undisturbed : Calm armed (armed.after before)
  launches : Launches engine place id k (armed.after before) ((armed.after before).poll k).1 file
    bytes found
  serves : (armed.after happenings).Serves engine place .spent
  calm : Calm ((armed.after before).poll k).1 (armed.after happenings)

variable {before : List Happening} {file : File} {bytes : List UInt8} {found : Page}
  {hidden disabled : Bool}

theorem LaunchedBy.concat
    (h : LaunchedBy engine place id armed happenings before k file bytes found)
    {happening : Happening}
    (hServes : ((armed.after happenings).happen happening).Serves engine place .spent)
    (hCalm : Calm (armed.after happenings) ((armed.after happenings).happen happening)) :
    LaunchedBy engine place id armed (happenings ++ [happening]) before k file bytes found := by
  rw [← after_concat] at hServes hCalm
  obtain ⟨later, rfl⟩ := h.poll
  exact ⟨⟨later ++ [happening], by simp⟩, h.queued, h.undisturbed, h.launches, hServes,
    h.calm.trans hCalm⟩

/-- The input stays hidden and disabled after the launch. -/
theorem LaunchedBy.face {name : String} {throws : Option Value} {steps : List Step}
    (hSteps : ∀ step ∈ steps, step.IsHost)
    (h : LaunchedBy (.mk name throws steps) place id armed happenings before k file bytes found) :
    (armed.after happenings).face? place = some (id, true, true) :=
  (h.calm.face place).trans (((h.launches.calm hSteps).1.face place).trans h.launches.hidden.shown)

/-- Once the engine has been called, whatever happens is calm. -/
theorem LaunchedBy.happen {name : String} {throws : Option Value} {steps : List Step}
    (hSteps : ∀ step ∈ steps, step.IsHost)
    (h : LaunchedBy (.mk name throws steps) place id armed happenings before k file bytes found)
    {happening : Happening} (hHost : happening.IsHost) :
    LaunchedBy (.mk name throws steps) place id armed (happenings ++ [happening]) before k file
      bytes found := by
  cases happening with
  | step step =>
    obtain ⟨hCalm, hListeners⟩ := Calm.perform (armed.after happenings) hHost
    exact h.concat (hListeners.trans h.serves) hCalm
  | poll other =>
    rcases poll_cases h.serves (h.face hSteps) other with ⟨stage, hStage, hServes, hCalm, -⟩ | hNot
    · obtain rfl := hStage.2 rfl
      exact h.concat hServes hCalm
    · exact absurd rfl hNot.1

theorem Pending.poll {name : String} {throws : Option Value} {steps : List Step}
    (hSteps : ∀ step ∈ steps, step.IsHost)
    (hFace : armed.face? place = some (id, hidden, disabled))
    (h : Pending (.mk name throws steps) place armed happenings) (k : Nat) :
    Pending (.mk name throws steps) place armed (happenings ++ [.poll k]) ∨
      ∃ file bytes found, LaunchedBy (.mk name throws steps) place id armed
        (happenings ++ [.poll k]) happenings k file bytes found := by
  obtain ⟨stage, hStage, hServes⟩ := h.serves
  rcases poll_cases hServes ((h.calm.face place).trans hFace) k with
    ⟨stage', hSpent, hServes', hCalm, hKeeps⟩ | ⟨-, file, bytes, found, hLaunch⟩
  · exact .inl (h.of_keeps ⟨stage', fun hEq => hStage (hSpent.1 hEq), hServes'⟩ hCalm hKeeps)
  · obtain ⟨task, hTask, hFirst⟩ := hLaunch.handles
    obtain ⟨files, hFiles, hQueued⟩ := h.handles k task hTask
    obtain ⟨rest, rfl⟩ := hFirst files hFiles
    have hAfter : armed.after (happenings ++ [.poll k]) = ((armed.after happenings).poll k).1 :=
      after_concat armed happenings (.poll k)
    refine .inr ⟨file, bytes, found, ⟨[], rfl⟩, ⟨rest, hQueued⟩, h.calm, hLaunch, ?_, ?_⟩
    · rw [hAfter]
      exact (hLaunch.calm hSteps).2
    · rw [hAfter]
      exact .refl _

/-- Whatever happens, the engine has not been called or it was called in one poll. -/
theorem pending_or_launched {name : String} {throws : Option Value} {steps : List Step}
    (hSteps : ∀ step ∈ steps, step.IsHost)
    (hFace : armed.face? place = some (id, hidden, disabled))
    (hServes : armed.Serves (.mk name throws steps) place .waiting) (hTasks : armed.tasks = [])
    (hHost : ∀ happening ∈ happenings, happening.IsHost) :
    Pending (.mk name throws steps) place armed happenings ∨
      ∃ before k file bytes found,
        LaunchedBy (.mk name throws steps) place id armed happenings before k file bytes found := by
  -- what holds by some moment is carried on by the happening that comes next
  induction happenings using List.reverseRecOn with
  | nil =>
    refine .inl ⟨⟨.waiting, by decide, hServes⟩, .refl armed, ?_⟩
    intro k task hTask
    rw [show (armed.after []).tasks = [] from hTasks] at hTask
    cases hTask
  | append_singleton happenings happening ih =>
    have hEarlier : ∀ happening ∈ happenings, happening.IsHost :=
      fun happening hMem => hHost happening (List.mem_append_left _ hMem)
    have hLast : happening.IsHost := hHost happening List.mem_concat_self
    rcases ih hEarlier with hPending | ⟨before, k, file, bytes, found, hLaunched⟩
    · cases happening with
      | step step =>
        cases step with
        | select id files event => exact .inl (hPending.select id files event)
        | settle read => exact .inl (hPending.settle read)
        | _ => cases hLast
      | poll k =>
        rcases hPending.poll hSteps hFace k with hPending | ⟨file, bytes, found, hLaunched⟩
        · exact .inl hPending
        · exact .inr ⟨happenings, k, file, bytes, found, hLaunched⟩
    · exact .inr ⟨before, k, file, bytes, found, hLaunched.happen hSteps hLast⟩

/-- The launch in what is seen of the page. -/
theorem LaunchedBy.effects {name : String} {throws : Option Value} {steps : List Step}
    (hSteps : ∀ step ∈ steps, step.IsHost)
    (h : LaunchedBy (.mk name throws steps) place id armed happenings before k file bytes found) :
    ∃ early late, (armed.after happenings).effects =
        armed.effects ++ early ++ [.hidden id, .disabled id, .called name bytes] ++ late ∧
      ∀ effect ∈ early ++ late, effect.IsQuiet := by
  obtain ⟨early, hEarly, hQuiet⟩ := h.undisturbed.effects
  obtain ⟨between, hBetween, hQuiet'⟩ := h.launches.hidden.effects
  obtain ⟨late, hLate, hQuiet''⟩ := ((h.launches.calm hSteps).1.trans h.calm).effects
  refine ⟨early ++ between, late, ?_, ?_⟩
  · rw [hLate, emit, hBetween, hEarly]
    simp only [List.append_assoc, List.cons_append, List.nil_append]
  · exact List.forall_mem_append.2 ⟨List.forall_mem_append.2 ⟨hQuiet, hQuiet'⟩, hQuiet''⟩

/-- **The load, from the start to the engine.**  A start succeeded on a page without loaders, and
since then files were selected, lists changed without an event, reads came to their end and tasks
were polled, in whatever order, and the engine itself did such things in its turn.

The canvases are as the start left them.  Until a task launches, no input was hidden or disabled
and no engine called.  The launch gives the engine the bytes of the file that the change which
queued the task had found first in the list of the input, and the engine finds the input hidden
and disabled.  There is no second launch. -/
theorem engine_called_once_with_selected_bytes {origin : Page} {name : String}
    {throws : Option Value} {steps : List Step} {value : Value}
    (hListeners : origin.listeners = []) (hTasks : origin.tasks = [])
    (hSteps : ∀ step ∈ steps, step.IsHost)
    (hStart : origin.start (.mk name throws steps) value = (armed, .ok ()))
    (hHost : ∀ happening ∈ happenings, happening.IsHost) :
    let page := armed.after happenings
    ∃ config place input, Config.ofValue value = .ok config ∧
      origin.find? config.selectorId = some place ∧ origin.input? place = some input ∧
      (∀ q, armed.face? q = origin.face? q) ∧ (∀ q, page.canvas? q = armed.canvas? q) ∧
      (Calm armed page ∨
        ∃ before k file bytes found early late,
          LaunchedBy (.mk name throws steps) place input.id armed happenings before k file bytes
            found ∧
          page.effects = armed.effects ++ early ++
            [.hidden input.id, .disabled input.id, .called name bytes] ++ late ∧
          (∀ effect ∈ early ++ late, effect.IsQuiet) ∧
          page.face? place = some (input.id, true, true) ∧
          ∀ q, q ≠ place → page.face? q = origin.face? q) := by
  intro page
  obtain ⟨config, place, input, hConfig, hFind, hInput, hArmed, hNoTasks, hSame⟩ := start_ok hStart
  rw [hListeners, List.nil_append] at hArmed
  rw [hTasks] at hNoTasks
  have hFaces : ∀ q, armed.face? q = origin.face? q :=
    fun q => congrArg (Option.map _) (hSame.input q)
  have hFace : armed.face? place = some (input.id, input.hidden, input.disabled) := by
    rw [hFaces, face?, hInput]
    rfl
  refine ⟨config, place, input, hConfig, hFind, hInput, hFaces, ?_⟩
  rcases pending_or_launched hSteps hFace hArmed hNoTasks hHost with
    hPending | ⟨before, k, file, bytes, found, hLaunched⟩
  · exact ⟨hPending.calm.canvas, .inl hPending.calm⟩
  · obtain ⟨early, late, hEffects, hQuiet⟩ := hLaunched.effects hSteps
    have hHidden := hLaunched.launches.hidden
    have hCalm := (hLaunched.launches.calm hSteps).1.trans hLaunched.calm
    refine ⟨?_, .inr ⟨before, k, file, bytes, found, early, late, hLaunched, hEffects, hQuiet,
      hLaunched.face hSteps, ?_⟩⟩
    · intro q
      exact ((hCalm.canvas q).trans (hHidden.canvas q)).trans (hLaunched.undisturbed.canvas q)
    · intro q hNe
      exact (((hCalm.face q).trans (hHidden.others q hNe)).trans
        (hLaunched.undisturbed.face q)).trans (hFaces q)

/-- The list of a slow file's input is changed before the task is polled, a second change comes
while the file is read, and the engine makes a third one.  The file of the first change is what
the engine gets. -/
theorem engine_called_once_with_selected_bytes_overtaken :
    let pong : File := ⟨"pong.ch8", 2, .ok [0x6a, 0x02], true⟩
    let maze : File := ⟨"maze.ch8", 2, .ok [0xa2, 0x1e], false⟩
    let again : Step := .select "rom_selector" [maze] "change"
    let engine : Function := .mk "run" none [again]
    let origin : Page := .fresh true true
      [.canvas (.fresh "display" .drawing), .input (.fresh "rom_selector" "file")]
    let armed := (origin.start engine .undefined).1
    let happenings : List Happening :=
      [.step (.select "rom_selector" [pong] "change"),
        .step (.select "rom_selector" [maze] "input"), .poll 0, .step again, .poll 1,
        .step (.settle 0), .poll 0, .poll 2]
    origin.start engine .undefined = (armed, .ok ()) ∧ (∀ step ∈ [again], step.IsHost) ∧
      (∀ happening ∈ happenings, happening.IsHost) ∧
      (armed.after happenings).effects = armed.effects ++ [.readBegun "pong.ch8",
        .hidden "rom_selector", .disabled "rom_selector", .called "run" [0x6a, 0x02],
        .inside .none] ∧
      ∃ before k file found, LaunchedBy engine 1 "rom_selector" armed happenings before k file
        [0x6a, 0x02] found := by
  intro pong maze again engine origin armed happenings
  have hStart : origin.start engine .undefined = (armed, .ok ()) := rfl
  have hHost : ∀ happening ∈ happenings, happening.IsHost := by
    simp [happenings, again, Happening.IsHost, Step.IsHost]
  have hSteps : ∀ step ∈ [again], step.IsHost := List.forall_mem_singleton.2 trivial
  let new : List Effect := [.readBegun "pong.ch8", .hidden "rom_selector",
    .disabled "rom_selector", .called "run" [0x6a, 0x02], .inside .none]
  have hEffects : (armed.after happenings).effects = armed.effects ++ new := by
    dsimp +zetaDelta only
    rfl
  refine ⟨hStart, hSteps, hHost, hEffects, ?_⟩
  obtain ⟨config, place, input, hConfig, hFind, hInput, -, -, hEnd⟩ :=
    engine_called_once_with_selected_bytes rfl rfl hSteps hStart hHost
  obtain rfl : .standard = config := Except.ok.inj hConfig
  obtain rfl : 1 = place := Option.some.inj hFind
  obtain rfl : Input.fresh "rom_selector" "file" = input := Option.some.inj hInput
  rcases hEnd with hCalm | ⟨before, k, file, bytes, found, early, late, hLaunched, hSole, -⟩
  · -- the engine was called, and a call is not calm
    obtain ⟨quiet, hQuiet, hAll⟩ := hCalm.effects
    obtain rfl : new = quiet := List.append_cancel_left (hEffects.symm.trans hQuiet)
    cases hAll (.called "run" [0x6a, 0x02]) (by simp [new])
  · simp only [hEffects, List.append_assoc] at hSole
    have hNew : new = _ := List.append_cancel_left hSole
    have hCalled : .called "run" bytes ∈ new := by
      rw [hNew]
      simp
    obtain rfl : bytes = [0x6a, 0x02] := by simpa [new] using hCalled
    exact ⟨before, k, file, found, hLaunched⟩

end Chip8Launcher.Page
