import Chip8Launcher.Proofs.Session.FirstPolls

/-!
# Independence of the schedule

A session is loaded by the first task in the order of first polls that has anything selected, if
its file can be read.  The order is all that counts: how long the reads take, when the tasks are
created and how the later polls interleave shows nowhere in what the session has come to once
that task has ended (`Loaded`).

`loaded_of_ended` says so for one run, at any moment after the end of the task.  Two runs are
compared through it.
-/

namespace Chip8Launcher

/-- What is selected for the tasks, in the order of their first polls. -/
def offered (selections : List (List File)) (calls : List Call) : List (List File) :=
  (polled calls).map (selectionOf selections)

namespace Session

def Ended (s : Session) (task : Nat) : Prop := ∃ result, s.tasks[task]? = some (.ended result)

/-- The image has been loaded through the task, and nothing has come of any other. -/
structure Loaded (engine : Engine) (calls : List Call) (task : Nat) (bytes : List UInt8)
    (s : Session) : Prop where
  received : s.received = [⟨bytes⟩]
  loader : s.loader = { state := .hidden, reading := false, engine := none, hides := 1 }
  running : s.running = []
  result : s.tasks[task]? = some (.ended engine.outcome)
  others : ∀ other ∈ polled calls, other ≠ task → s.tasks[other]? = some (.ended (.ok ()))
  turnedAway : ∀ call ∈ calls, call.task ≠ some task →
    ∃ selection, call.use = .picked selection ∧ selection.file? = none

section OneRun

variable {engine : Engine} {calls : List Call} {sel : List (List File)} {s : Session} {task : Nat}

/-- If the first read there was is of a file that can be read, it is the only one. -/
theorem Account.only_read (h : s.Account engine sel calls) {file : File} {bytes : List UInt8}
    (hHead : (begun calls).head? = some (task, file)) (hBytes : file.content = .ok bytes) :
    begun calls = [(task, file)] ∧ s.Standing engine calls [(task, file)] := by
  obtain ⟨failures, last, hReads, hFailed, hStanding⟩ := h.reads
  rw [hReads] at hHead ⊢
  cases failures with
  | cons read failures =>
    obtain rfl := Option.some.inj hHead
    obtain ⟨reason, hReason, -⟩ := hFailed _ List.mem_cons_self
    cases hBytes.symm.trans hReason
  | nil =>
    obtain rfl := hStanding.eq_singleton (List.mem_of_mem_head? hHead)
    exact ⟨rfl, hStanding⟩

theorem Polls.loaded (h : s.Polls sel calls) (hAccount : s.Account engine sel calls)
    (hUncancelled : s.Uncancelled) {file : File} {rest : List File} {bytes : List UInt8}
    (hFirst : firstWithFiles sel (polled calls) = some task)
    (hFile : selectionOf sel task = file :: rest) (hBytes : file.content = .ok bytes)
    (hEnded : s.Ended task) : s.Loaded engine calls task bytes := by
  obtain ⟨result, hResult⟩ := hEnded
  have hHead : (begun calls).head? = some (task, file) := by
    have hMap := h.first.trans hFirst
    obtain ⟨⟨other, picked⟩, hRead, hOther⟩ := Option.map_eq_some_iff.1 hMap
    obtain rfl : other = task := hOther
    obtain ⟨rest', hPicked⟩ := hAccount.selected _ (List.mem_of_mem_head? hRead)
    obtain ⟨rfl, -⟩ := List.cons.inj ((selectionOf_of_getElem? hPicked).symm.trans hFile)
    exact hRead
  obtain ⟨hBegun, hStanding⟩ := hAccount.only_read hHead hBytes
  have hNotBegun : ∀ other, other ≠ task → ∀ picked, (other, picked) ∉ begun calls := by
    intro other hNe picked hMem
    rw [hBegun, List.mem_singleton] at hMem
    exact hNe (Prod.mk.inj hMem).1
  cases hStanding with
  | reading _ _ _ _ hTask | abandoned _ _ _ _ hTask | launching _ _ _ _ hTask =>
    cases hTask.symm.trans hResult
  | loaded hContent hLoader hRunning hReceived hTask =>
    cases hContent.symm.trans hBytes
    refine ⟨hReceived, hLoader, hRunning, hTask, ?_, ?_⟩
    · intro other hPolled hNe
      obtain ⟨phase, hPhase, hWas⟩ := (h.past other).1 hPolled
      have hIdle := hAccount.others other phase hPhase (hNotBegun other hNe)
      cases phase with
      | fresh files => cases hWas
      | cancelled reading => exact absurd hPhase (hUncancelled other reading)
      | ended result =>
        cases result with
        | ok => exact hPhase
        | error => cases hIdle
      | _ => cases hIdle
    · intro call hCall hNe
      rcases h.quiet call hCall with ⟨other, picked, hOther, hMem⟩ | ⟨other, selection, rfl, hNone⟩
      · have hNe' : other ≠ task := by
          rintro rfl
          exact hNe hOther
        exact absurd hMem (hNotBegun other hNe' picked)
      · exact ⟨selection, rfl, hNone⟩

/-- What has been polled by some moment comes first in the order of the whole run. -/
theorem firstWithFiles_of_before {screen : Framebuffer} {before later : List Action}
    (hBefore : ∀ action ∈ before, action.ThroughTasks)
    (hPast : ((arm engine screen).after before).Past task)
    (hFirst : firstWithFiles (selections (before ++ later))
      (polled ((arm engine screen).calls (before ++ later))) = some task) :
    firstWithFiles (selections before) (polled ((arm engine screen).calls before)) = some task ∧
      selectionOf (selections before) task = selectionOf (selections (before ++ later)) task := by
  have hAccount := Account.after_arm engine screen hBefore
  have hPolls := Polls.after_arm engine screen hBefore
  have hSame : ∀ other ∈ polled ((arm engine screen).calls before),
      selectionOf (selections before) other =
        selectionOf (selections (before ++ later)) other := by
    intro other hOther
    obtain ⟨phase, hPhase, -⟩ := (hPolls.past other).1 hOther
    have hLt := (List.getElem?_eq_some_iff.1 hPhase).1
    rw [hAccount.length] at hLt
    rw [selections_append, selectionOf_append hLt]
  have hMem := (hPolls.past task).2 hPast
  refine ⟨?_, hSame task hMem⟩
  rw [calls_append, polled_append, firstWithFiles_append] at hFirst
  rw [firstWithFiles_congr hSame]
  rcases Option.or_eq_some_iff.1 hFirst with hHere | ⟨hNone, hLater⟩
  · exact hHere
  · have hEmpty := List.find?_eq_none.1 hNone task hMem
    exact absurd (List.find?_some hLater) hEmpty

/-- **A session is loaded by the first selection that has a file**, in the order of first polls,
if that file can be read. -/
theorem loaded_of_ended {screen : Framebuffer} {before later : List Action}
    (hActions : ∀ action ∈ before ++ later, action.ThroughTasks)
    (hKept : ∀ task, .cancel task ∉ before ++ later)
    {file : File} {rest : List File} {bytes : List UInt8}
    (hFirst : firstWithFiles (selections (before ++ later))
      (polled ((arm engine screen).calls (before ++ later))) = some task)
    (hFile : selectionOf (selections (before ++ later)) task = file :: rest)
    (hBytes : file.content = .ok bytes) (hEnded : ((arm engine screen).after before).Ended task) :
    ((arm engine screen).after before).Loaded engine ((arm engine screen).calls before) task
      bytes := by
  have hBefore : ∀ action ∈ before, action.ThroughTasks := fun action hAction =>
    hActions action (List.mem_append_left later hAction)
  have hUncancelled : ((arm engine screen).after before).Uncancelled := by
    refine Uncancelled.after (by simp [Uncancelled, arm]) hBefore fun task hTask => ?_
    exact hKept task (List.mem_append_left later hTask)
  have hPast : ((arm engine screen).after before).Past task := by
    obtain ⟨result, hResult⟩ := hEnded
    exact ⟨_, hResult, trivial⟩
  obtain ⟨hFirst', hSame⟩ := firstWithFiles_of_before hBefore hPast hFirst
  exact (Polls.after_arm engine screen hBefore).loaded (.after_arm engine screen hBefore)
    hUncancelled hFirst' (hSame.trans hFile) hBytes hEnded

end OneRun

/-! ### Two runs -/

theorem firstWithFiles_map_selectionOf (sel : List (List File)) (tasks : List Nat) :
    (firstWithFiles sel tasks).map (fun task => (selectionOf sel task).map File.instant) =
      ((tasks.map (selectionOf sel)).map (·.map File.instant)).find? (!·.isEmpty) := by
  rw [List.map_map, List.find?_map, firstWithFiles]
  congr 2
  funext task
  simp

/-- **The outcome does not hang on the schedule.**  Take two sessions whose engines are equal and
whose tasks handle the same selections in the same order of first polls, none of them cancelled;
delays may differ, and so may everything else in the schedules.  If the first selection that is
not empty begins with a file that can be read, then in both runs, at any moment after its task
has ended, the record is the one image with the bytes of that file, the loader is hidden once
and has neither a read in flight nor an engine, the task has ended as the engine does, and all
other tasks that were polled have ended well after being turned away. -/
theorem schedule_independence (engine : Engine) (screen screen' : Framebuffer)
    {actions actions' : List Action} (hActions : ∀ action ∈ actions, action.ThroughTasks)
    (hActions' : ∀ action ∈ actions', action.ThroughTasks)
    (hKept : ∀ task, .cancel task ∉ actions) (hKept' : ∀ task, .cancel task ∉ actions')
    (hOrder :
      (offered (selections actions) ((arm engine screen).calls actions)).map
          (·.map File.instant) =
        (offered (selections actions') ((arm engine screen').calls actions')).map
          (·.map File.instant))
    {task : Nat} {file : File} {rest : List File} {bytes : List UInt8}
    (hFirst : firstWithFiles (selections actions)
      (polled ((arm engine screen).calls actions)) = some task)
    (hFile : selectionOf (selections actions) task = file :: rest)
    (hBytes : file.content = .ok bytes) :
    ∃ task', firstWithFiles (selections actions')
        (polled ((arm engine screen').calls actions')) = some task' ∧
      ∀ before later before' later', actions = before ++ later → actions' = before' ++ later' →
        let s := (arm engine screen).after before
        let s' := (arm engine screen').after before'
        s.Ended task → s'.Ended task' →
          s.Loaded engine ((arm engine screen).calls before) task bytes ∧
          s'.Loaded engine ((arm engine screen').calls before') task' bytes ∧
          s'.loader = s.loader ∧ s'.received = s.received ∧
          s'.tasks[task']? = s.tasks[task]? := by
  have hBoth := firstWithFiles_map_selectionOf (selections actions)
    (polled ((arm engine screen).calls actions))
  rw [← offered, hOrder, offered, ← firstWithFiles_map_selectionOf, hFirst, Option.map_some,
    hFile] at hBoth
  obtain ⟨task', hFirst', hFile'⟩ := Option.map_eq_some_iff.1 hBoth.symm
  obtain ⟨file', rest', hSelection, hInstant, -⟩ := List.map_eq_cons_iff.1 hFile'
  have hBytes' : file'.content = .ok bytes := by
    have hContent : file'.instant.content = file.instant.content := by rw [hInstant]
    exact hContent.trans hBytes
  refine ⟨task', hFirst', ?_⟩
  rintro before later before' later' rfl rfl s s' hEnded hEnded'
  have hLoaded := loaded_of_ended hActions hKept hFirst hFile hBytes hEnded
  have hLoaded' := loaded_of_ended hActions' hKept' hFirst' hSelection hBytes' hEnded'
  exact ⟨hLoaded, hLoaded', hLoaded'.loader.trans hLoaded.loader.symm,
    hLoaded'.received.trans hLoaded.received.symm, hLoaded'.result.trans hLoaded.result.symm⟩

/-- A slow file whose task is overtaken by the polls of a later one, and the same file read at
once in a session that creates its tasks in another order. -/
theorem schedule_independence_overtaking :
    let engine : Engine := ⟨some "stack overflow"⟩
    let pong : File := ⟨"pong.ch8", .ok [0x6a, 0x02], 2⟩
    let rival : File := ⟨"rival.ch8", .ok [0x12, 0x00], 0⟩
    let actions : List Action :=
      [.spawn [], .spawn [pong, rival], .spawn [rival], .poll 0, .poll 1, .poll 2, .poll 1,
        .poll 1, .finish]
    let actions' : List Action :=
      [.spawn [pong.instant, rival], .spawn [], .poll 1, .poll 0, .spawn [rival], .poll 2, .finish]
    let calls := (arm engine .standard).calls actions
    let calls' := (arm engine .standard).calls actions'
    let s := (arm engine .standard).after actions
    let s' := (arm engine .standard).after actions'
    (∀ action ∈ actions ++ actions', action.ThroughTasks) ∧
      (∀ task, .cancel task ∉ actions ++ actions') ∧
      (offered (selections actions) calls).map (·.map File.instant) =
        (offered (selections actions') calls').map (·.map File.instant) ∧
      firstWithFiles (selections actions) (polled calls) = some 1 ∧
      selectionOf (selections actions) 1 = [pong, rival] ∧ pong.content = .ok [0x6a, 0x02] ∧
      s.Ended 1 ∧ s'.Ended 0 ∧
      s.Loaded engine calls 1 [0x6a, 0x02] ∧ s'.Loaded engine calls' 0 [0x6a, 0x02] := by
  intro engine pong rival actions actions' calls calls' s s'
  have hActions : ∀ action ∈ actions ++ actions', action.ThroughTasks := by
    simp [actions, actions', Action.ThroughTasks]
  have hKept : ∀ task, .cancel task ∉ actions ++ actions' := by simp [actions, actions']
  have hOrder : (offered (selections actions) calls).map (·.map File.instant) =
      (offered (selections actions') calls').map (·.map File.instant) := by
    have hPolled : polled calls = [0, 1, 2] := by decide
    have hPolled' : polled calls' = [1, 0, 2] := by decide
    rw [offered, offered, hPolled, hPolled']
    rfl
  have hFirst : firstWithFiles (selections actions) (polled calls) = some 1 := by decide
  have hFile : selectionOf (selections actions) 1 = [pong, rival] := rfl
  have hEnded : s.Ended 1 := ⟨_, rfl⟩
  have hEnded' : s'.Ended 0 := ⟨_, rfl⟩
  obtain ⟨task', hFirst', hBoth⟩ := schedule_independence engine .standard .standard
    (fun action hAction => hActions action (List.mem_append_left _ hAction))
    (fun action hAction => hActions action (List.mem_append_right _ hAction))
    (fun task hTask => hKept task (List.mem_append_left _ hTask))
    (fun task hTask => hKept task (List.mem_append_right _ hTask)) hOrder hFirst hFile rfl
  obtain rfl : 0 = task' := Option.some.inj hFirst'
  obtain ⟨hLoaded, hLoaded', -⟩ := hBoth actions [] actions' [] (List.append_nil _).symm
    (List.append_nil _).symm hEnded hEnded'
  exact ⟨hActions, hKept, hOrder, hFirst, hFile, rfl, hEnded, hEnded', hLoaded, hLoaded'⟩

end Session

end Chip8Launcher
