import Chip8Launcher.Proofs.Session.Sound

/-!
# The log of a session

All that a session logs comes from the uses that are made of its loader and its engine, each of
which has its own entries (`act_log`).  What is logged of one kind is therefore told by what there
was of one kind of use (`filter_entries`).

Warnings and starts hang on the one image that a loader releases in its life.  `Course` says how
far that image has come, and every step keeps it (`Course.act`).
-/

namespace Chip8Launcher

/-- What is logged before an engine gets the image. -/
def Image.startingEntry (image : Image) : Log.Entry :=
  .info ("starting engine with " ++ toString image.bytes.length ++ " byte image")

/-- What is logged of an image that is too long for the memory. -/
def Image.warningEntry (image : Image) : Log.Entry :=
  .warn ("image is " ++ toString image.bytes.length
    ++ " bytes, larger than the 3584 bytes of program memory")

/-- What is logged of an image that is released. -/
def Image.headEntry (image : Image) : Log.Entry := .trace ("image head:\n" ++ image.hexdump 32)

/-- A release is traced, and an image that is too long is warned of before. -/
theorem Delivery.entries_released {ε : Type} (handoff : Handoff ε) :
    (Delivery.released handoff).entries =
      (if 3584 < handoff.image.bytes.length then [handoff.image.warningEntry] else []) ++
        [handoff.image.headEntry] := by
  have hFits : handoff.image.fits = decide (handoff.image.bytes.length ≤ 3584) := rfl
  have hCapacity : toString Image.capacity = "3584" := rfl
  by_cases hLong : 3584 < handoff.image.bytes.length
  · have hNot : ¬handoff.image.bytes.length ≤ 3584 := Nat.not_le.2 hLong
    simp [entries, hFits, hLong, hNot, hCapacity, Image.warningEntry, Image.headEntry, Image.size,
      String.append_assoc]
  · have hSize : handoff.image.bytes.length ≤ 3584 := Nat.not_lt.1 hLong
    simp [entries, hFits, hLong, hSize, Image.headEntry]

/-- What is logged of a file that is picked. -/
def File.readingEntry (file : File) : Log.Entry :=
  .debug ("reading `" ++ file.name ++ "` (" ++ toString file.size ++ " bytes)")

/-- The entry has the form of one that names a file and its size. -/
def Log.Entry.NamesFile (entry : Log.Entry) : Prop :=
  ∃ (name : String) (size : Nat),
    entry = .debug ("reading `" ++ name ++ "` (" ++ toString size ++ " bytes)")

namespace Use

/-- What is logged of a use. -/
def entries : Use → List Log.Entry
  | .picked selection => [selection.entry]
  | .delivered delivery => delivery.entries
  | .entered image => [image.startingEntry]

def picked? : Use → Option File
  | .picked selection => selection.file?
  | _ => none

/-- The failure of a read that a delivery has returned. -/
def readError? : Use → Option ReadError
  | .delivered delivery =>
    match delivery.result with
    | .error (.read e) => some e
    | _ => none
  | _ => none

/-- The image and the engine that a delivery has returned. -/
def released? : Use → Option (Handoff Engine)
  | .delivered delivery =>
    match delivery.result with
    | .ok handoff => some handoff
    | _ => none
  | _ => none

def entered? : Use → Option Image
  | .entered image => some image
  | _ => none

/-- A delivery that was told that no read is in flight. -/
def refused : Use → Bool
  | .delivered delivery =>
    match delivery.result with
    | .error .noReadInFlight => true
    | _ => false
  | _ => false

/-- The use has to do with the image of the loader. -/
def fires (use : Use) : Bool := use.released?.isSome || use.entered?.isSome

theorem fires_eq_false {use : Use} :
    use.fires = false ↔ use.released? = none ∧ use.entered? = none := by
  simp [fires]

end Use

/-- The uses that were made in some calls, first to last. -/
def uses (calls : List Call) : List Use := calls.map Call.use

/-- The uses that have to do with the image of the loader. -/
def fired (calls : List Call) : List Use := (uses calls).filter Use.fires

@[simp] theorem uses_append (calls new : List Call) :
    uses (calls ++ new) = uses calls ++ uses new :=
  List.map_append

@[simp] theorem fired_append (calls new : List Call) :
    fired (calls ++ new) = fired calls ++ fired new := by
  rw [fired, uses_append, List.filter_append]
  rfl

namespace Session

/-- All that is logged in a sequence of steps. -/
def logged (s : Session) (actions : List Action) : List Log.Entry :=
  (s.run actions).2.flatMap (·.log)

variable {engine : Engine} {calls new : List Call} {s t : Session} {task : Nat}

/-! ### What is logged of a step -/

theorem complete_log (s : Session) (task : Nat) (file : File) :
    (s.complete task file).2.log = (uses (s.complete task file).2.calls).flatMap Use.entries := by
  rcases hDeliver : s.loader.deliver file.read with ⟨loader, delivery⟩
  cases hResult : delivery.result with
  | error e => simp [complete, hDeliver, hResult, uses, Use.entries]
  | ok handoff => simp [complete, hDeliver, hResult, uses, Use.entries]; rfl

theorem advance_log (s : Session) (task : Nat) (file : File) (left : Nat) :
    (s.advance task file left).2.log =
      (uses (s.advance task file left).2.calls).flatMap Use.entries := by
  cases left with
  | zero => exact complete_log s task file
  | succ left => rfl

theorem begin_log (s : Session) (task : Nat) (files : List File) :
    (s.begin task files).2.log = (uses (s.begin task files).2.calls).flatMap Use.entries := by
  rcases hPick : s.loader.pick files with ⟨loader, selection⟩
  cases hFile : selection.file? with
  | none => simp [begin, hPick, hFile, uses, Use.entries]
  | some file =>
    have hAdvance := advance_log { s with loader := loader } task file file.delay
    simp only [begin, hPick, hFile, hAdvance]
    rfl

theorem poll_log (s : Session) (task : Nat) :
    (s.poll task).2.log = (uses (s.poll task).2.calls).flatMap Use.entries := by
  rw [poll]
  split
  next files _ => exact begin_log s task files
  next file left _ => exact advance_log s task file left
  next => rfl

theorem deliver_log (s : Session) (content : Except ReadError (List UInt8)) :
    (s.deliver content).2.log = (uses (s.deliver content).2.calls).flatMap Use.entries := by
  simp [deliver, uses, Use.entries]

/-- **A step logs what its uses say**, and nothing else. -/
theorem act_log (s : Session) (action : Action) :
    (s.act action).2.log = (uses (s.act action).2.calls).flatMap Use.entries := by
  cases action with
  | pick files => rfl
  | deliver content => exact deliver_log s content
  | read =>
    simp only [act]
    split
    · rfl
    · exact deliver_log _ _
  | start =>
    simp only [act, start]
    split <;> rfl
  | discard => rfl
  | spawn files => rfl
  | poll task => exact poll_log s task
  | cancel task =>
    simp only [act, cancel]
    split <;> rfl
  | draw fill => rfl
  | finish =>
    simp only [act, finish]
    split <;> rfl

theorem logged_eq (s : Session) (actions : List Action) :
    s.logged actions = (uses (s.calls actions)).flatMap Use.entries := by
  induction actions generalizing s with
  | nil => rfl
  | cons action actions ih =>
    have hCons : s.logged (action :: actions) =
        (s.act action).2.log ++ (s.act action).1.logged actions := by
      rw [logged, run, List.flatMap_cons]
      rfl
    rw [hCons, act_log, ih, calls_cons, uses_append, List.flatMap_append]

/-! ### Entries of one kind -/

/-- If each use has at most one entry of a kind, the entries of that kind tell the uses that have
one. -/
theorem filter_entries {α : Type} {kind : Log.Entry → Bool} {tell? : Use → Option α}
    {entry : α → Log.Entry}
    (h : ∀ use, use.entries.filter kind = ((tell? use).map entry).toList) (uses : List Use) :
    (uses.flatMap Use.entries).filter kind = (uses.filterMap tell?).map entry := by
  induction uses with
  | nil => rfl
  | cons use uses ih =>
    rw [List.flatMap_cons, List.filter_append, h, ih]
    cases hTell : tell? use <;> simp [hTell]

/-- Failed reads, images that are too long, starts and heads are each logged at a level of their
own. -/
theorem filter_levels (use : Use) :
    use.entries.filter (·.level = .error) =
        (use.readError?.map fun e => Log.Entry.error e.message).toList ∧
      use.entries.filter (·.level = .warn) =
        ((use.released?.filter (3584 < ·.image.bytes.length)).map (·.image.warningEntry)).toList ∧
      use.entries.filter (·.level = .info) = (use.entered?.map Image.startingEntry).toList ∧
      use.entries.filter (·.level = .trace) =
        (use.released?.map (·.image.headEntry)).toList := by
  cases use with
  | picked selection => cases selection <;> exact ⟨rfl, rfl, rfl, rfl⟩
  | delivered delivery =>
    cases delivery with
    | released handoff =>
      by_cases hLong : 3584 < handoff.image.bytes.length <;>
        simp [Use.entries, Delivery.entries_released, Use.released?, Delivery.result,
          Use.readError?, Use.entered?, Option.filter, hLong, Image.warningEntry, Image.headEntry,
          Log.Entry.warn, Log.Entry.trace]
    | _ => exact ⟨rfl, rfl, rfl, rfl⟩
  | entered image => exact ⟨rfl, rfl, rfl, rfl⟩

theorem not_namesFile {entry : Log.Entry}
    (h : entry.level ≠ .debug ∨ entry.text.toList.take 5 ≠ ['r', 'e', 'a', 'd', 'i']) :
    ¬entry.NamesFile := by
  rintro ⟨name, size, rfl⟩
  simp [Log.Entry.debug, String.toList_append] at h

open scoped Classical in
theorem filter_names (use : Use) :
    use.entries.filter (fun entry => decide entry.NamesFile) =
      (use.picked?.map File.readingEntry).toList := by
  cases use with
  | picked selection =>
    cases selection with
    | picked file =>
      have hEntry : (Selection.picked file).entry = file.readingEntry := rfl
      have hNames : file.readingEntry.NamesFile := ⟨file.name, file.size, rfl⟩
      simp [Use.entries, Use.picked?, Selection.file?, hEntry, hNames]
    | alreadyUsed =>
      have hNot : ¬(Selection.alreadyUsed (φ := File)).entry.NamesFile :=
        not_namesFile (.inr (by decide))
      simp [Use.entries, Use.picked?, Selection.file?, hNot]
    | busy =>
      have hNot : ¬(Selection.busy (φ := File)).entry.NamesFile :=
        not_namesFile (.inr (by decide))
      simp [Use.entries, Use.picked?, Selection.file?, hNot]
    | empty =>
      have hNot : ¬(Selection.empty (φ := File)).entry.NamesFile :=
        not_namesFile (.inr (by decide))
      simp [Use.entries, Use.picked?, Selection.file?, hNot]
  | delivered delivery =>
    have hNot : ∀ entry ∈ delivery.entries, ¬entry.NamesFile := by
      intro entry hEntry
      refine not_namesFile (.inl ?_)
      cases delivery with
      | released handoff =>
        rw [Delivery.entries_released, List.mem_append, List.mem_singleton] at hEntry
        rcases hEntry with hWarn | rfl
        · split at hWarn
          · obtain rfl := List.mem_singleton.1 hWarn
            simp [Image.warningEntry, Log.Entry.warn]
          · cases hWarn
        · simp [Image.headEntry, Log.Entry.trace]
      | failed e =>
        obtain rfl := List.mem_singleton.1 hEntry
        simp [Log.Entry.error]
      | _ => cases hEntry
    simpa [Use.entries, Use.picked?] using hNot
  | entered image =>
    have hNot : ¬image.startingEntry.NamesFile :=
      not_namesFile (.inl (by simp [Image.startingEntry, Log.Entry.info]))
    simp [Use.entries, Use.picked?, hNot]

/-! ### The one image -/

/-- How far the image of a loader has come, which is released once at most. -/
inductive Course (calls : List Call) (s : Session) : Prop where
  | ahead (hFired : fired calls = []) (hHandoff : s.handoff = none) (hRunning : s.running = [])
      (hReceived : s.received = [])
  /-- It is kept to be started by hand, unless it was given up. -/
  | released {handoff : Handoff Engine} (hFired : fired calls = [.delivered (.released handoff)])
      (hHandoff : s.handoff = none ∨ s.handoff = some handoff) (hRunning : s.running = [])
      (hReceived : s.received = [])
  | entered {handoff : Handoff Engine} {task : Option Nat}
      (hFired : fired calls = [.delivered (.released handoff), .entered handoff.image])
      (hHandoff : s.handoff = none) (hRunning : s.running = [⟨task, handoff⟩])
      (hReceived : s.received = [])
  | returned {handoff : Handoff Engine}
      (hFired : fired calls = [.delivered (.released handoff), .entered handoff.image])
      (hHandoff : s.handoff = none) (hRunning : s.running = [])
      (hReceived : s.received = [handoff.image])

namespace Course

theorem arm (engine : Engine) (screen : Framebuffer) : Course [] (Session.arm engine screen) :=
  .ahead rfl rfl rfl rfl

theorem congr (h : Course calls s) (hNew : fired new = []) (hHandoff : t.handoff = s.handoff)
    (hRunning : t.running = s.running) (hReceived : t.received = s.received) :
    Course (calls ++ new) t := by
  have hFired : fired (calls ++ new) = fired calls := by
    rw [fired_append, hNew, List.append_nil]
  cases h with
  | ahead h₁ h₂ h₃ h₄ =>
    exact .ahead (hFired.trans h₁) (hHandoff.trans h₂) (hRunning.trans h₃) (hReceived.trans h₄)
  | released h₁ h₂ h₃ h₄ =>
    exact .released (hFired.trans h₁) (hHandoff ▸ h₂) (hRunning.trans h₃) (hReceived.trans h₄)
  | entered h₁ h₂ h₃ h₄ =>
    exact .entered (hFired.trans h₁) (hHandoff.trans h₂) (hRunning.trans h₃) (hReceived.trans h₄)
  | returned h₁ h₂ h₃ h₄ =>
    exact .returned (hFired.trans h₁) (hHandoff.trans h₂) (hRunning.trans h₃) (hReceived.trans h₄)

/-- Nothing was released before if something is released now. -/
theorem of_released (h : Course calls s) (hSound : Sound engine calls s)
    {content : Except ReadError (List UInt8)} {loader : Loader Engine} {handoff : Handoff Engine}
    (hDeliver : s.loader.deliver content = (loader, .released handoff)) :
    fired calls = [] ∧ s.handoff = none ∧ s.running = [] ∧ s.received = [] := by
  have hNone : ∀ other, .delivered (.released other) ∉ fired calls := by
    intro other hOther
    obtain ⟨call, hCall, hUse⟩ := List.mem_map.1 (List.mem_filter.1 hOther).1
    have hReleases : call.releases = true := by rw [Call.releases, hUse]
    have hSpent := hSound.spent_of_releases ⟨call, hCall, hReleases⟩
    rw [hSpent, Loader.deliver_spent] at hDeliver
    cases hDeliver
  cases h with
  | ahead h₁ h₂ h₃ h₄ => exact ⟨h₁, h₂, h₃, h₄⟩
  | @released other hFired | @entered other _ hFired | @returned other hFired =>
    exact absurd (by simp [hFired]) (hNone other)

theorem move (h : Course calls s) (hSound : Sound engine calls s) (hMove : Move task s new t) :
    Course (calls ++ new) t := by
  cases hMove with
  | ignore => exact h.congr rfl rfl rfl rfl
  | begin => exact h.congr rfl rfl rfl rfl
  | wait => exact h.congr rfl rfl rfl rfl
  | @fail file loader delivery e _ _ hError =>
    refine h.congr ?_ rfl rfl rfl
    simp [fired, uses, Use.fires, Use.released?, Use.entered?, hError]
  | launch _ hDeliver =>
    obtain ⟨hFired, hHandoff, hRunning, hReceived⟩ := h.of_released hSound hDeliver
    exact .entered (by rw [fired_append, hFired]; rfl) hHandoff (congrArg (_ :: ·) hRunning)
      hReceived

theorem moves (h : Course calls s) (hSound : Sound engine calls s) (hMoves : Moves task s new t) :
    Course (calls ++ new) t := by
  induction hMoves generalizing calls with
  | refl => rwa [List.append_nil]
  | head hMove _ ih =>
    rw [← List.append_assoc]
    exact ih (h.move hSound hMove) (hSound.move hMove)

theorem deliver (h : Course calls s) (hSound : Sound engine calls s)
    (content : Except ReadError (List UInt8)) :
    Course (calls ++ (s.deliver content).2.calls) (s.deliver content).1 := by
  rcases hDeliver : s.loader.deliver content with ⟨loader, delivery⟩
  simp only [Session.deliver, hDeliver]
  cases delivery with
  | released handoff =>
    obtain ⟨hFired, hHandoff, hRunning, hReceived⟩ := h.of_released hSound hDeliver
    exact .released (by rw [fired_append, hFired]; rfl) (.inr rfl) hRunning hReceived
  | _ => exact h.congr rfl rfl rfl rfl

theorem start (h : Course calls s) : Course (calls ++ s.start.2.calls) s.start.1 := by
  rw [Session.start]
  split
  next => exact h.congr rfl rfl rfl rfl
  next handoff hHandoff =>
    cases h with
    | released hFired hKept hRunning hReceived =>
      rcases hKept with hKept | hKept
      · cases hHandoff.symm.trans hKept
      · obtain rfl := Option.some.inj (hHandoff.symm.trans hKept)
        exact .entered (by rw [fired_append, hFired]; rfl) rfl (congrArg (_ :: ·) hRunning)
          hReceived
    | ahead _ hNone | entered _ hNone | returned _ hNone => cases hHandoff.symm.trans hNone

theorem discard (h : Course calls s) : Course calls { s with handoff := none } := by
  cases h with
  | ahead h₁ _ h₃ h₄ => exact .ahead h₁ rfl h₃ h₄
  | released h₁ _ h₃ h₄ => exact .released h₁ (.inl rfl) h₃ h₄
  | entered h₁ _ h₃ h₄ => exact .entered h₁ rfl h₃ h₄
  | returned h₁ _ h₃ h₄ => exact .returned h₁ rfl h₃ h₄

theorem finish (h : Course calls s) : Course calls s.finish.1 := by
  cases h with
  | ahead h₁ h₂ h₃ h₄ =>
    rw [Session.finish, h₃]
    exact .ahead h₁ h₂ h₃ h₄
  | released h₁ h₂ h₃ h₄ =>
    rw [Session.finish, h₃]
    exact .released h₁ h₂ h₃ h₄
  | @entered handoff task h₁ h₂ h₃ h₄ =>
    simp only [Session.finish, h₃]
    cases task <;> exact .returned h₁ h₂ rfl (congrArg (· ++ [_]) h₄)
  | returned h₁ h₂ h₃ h₄ =>
    rw [Session.finish, h₃]
    exact .returned h₁ h₂ h₃ h₄

theorem act (h : Course calls s) (hSound : Sound engine calls s) (action : Action) :
    Course (calls ++ (s.act action).2.calls) (s.act action).1 := by
  cases action with
  | pick files => exact h.congr rfl rfl rfl rfl
  | deliver content => exact h.deliver hSound content
  | read =>
    simp only [Session.act]
    split
    next => exact h.congr rfl rfl rfl rfl
    next file _ =>
      have hPicked : Course calls { s with picked := none } := by
        have hKept : Course (calls ++ []) { s with picked := none } := h.congr rfl rfl rfl rfl
        rwa [List.append_nil] at hKept
      exact hPicked.deliver ⟨hSound.stage, hSound.entered, hSound.running, hSound.launching⟩ _
  | start => exact h.start
  | discard =>
    rw [Session.act, List.append_nil]
    exact h.discard
  | spawn files => exact h.congr rfl rfl rfl rfl
  | poll task => exact h.moves hSound (poll_moves s task)
  | cancel task =>
    rw [Session.act]
    refine h.congr (by rw [cancel_calls]; rfl) ?_ ?_ ?_ <;> rw [Session.cancel] <;> split <;> rfl
  | draw fill =>
    simp only [Session.act]
    split <;> exact h.congr rfl rfl rfl rfl
  | finish =>
    rw [Session.act, finish_calls, List.append_nil]
    exact h.finish

theorem run (h : Course calls s) (hSound : Sound engine calls s) (actions : List Action) :
    Course (calls ++ s.calls actions) (s.after actions) := by
  induction actions generalizing calls s with
  | nil => rwa [calls_nil, List.append_nil]
  | cons action actions ih =>
    rw [calls_cons, ← List.append_assoc]
    exact ih (h.act hSound action) (hSound.act action)

theorem after_arm (engine : Engine) (screen : Framebuffer) (actions : List Action) :
    Course ((Session.arm engine screen).calls actions)
      ((Session.arm engine screen).after actions) :=
  (arm engine screen).run (.arm engine screen) actions

/-- What is told by the uses that have to do with the image. -/
theorem filterMap_fired {α : Type} {tell? : Use → Option α}
    (h : ∀ use : Use, use.fires = false → tell? use = none) (calls : List Call) :
    (fired calls).filterMap tell? = (uses calls).filterMap tell? := by
  rw [fired, List.filterMap_filter]
  congr
  funext use
  split
  · rfl
  next hNot => exact (h use (Bool.eq_false_iff.2 hNot)).symm

theorem entered_eq (h : Course calls s) :
    (uses calls).filterMap Use.entered? = s.received ++ s.running.map (·.handoff.image) := by
  rw [← filterMap_fired fun use hNot => (Use.fires_eq_false.1 hNot).2]
  cases h with
  | ahead hFired _ hRunning hReceived | released hFired _ hRunning hReceived
  | entered hFired _ hRunning hReceived | returned hFired _ hRunning hReceived =>
    rw [hFired, hRunning, hReceived]
    rfl

theorem released_length_le_one (h : Course calls s) :
    ((uses calls).filterMap Use.released?).length ≤ 1 := by
  rw [← filterMap_fired fun use hNot => (Use.fires_eq_false.1 hNot).1]
  cases h with
  | ahead hFired => rw [hFired]; exact Nat.zero_le 1
  | released hFired | entered hFired | returned hFired => rw [hFired]; exact Nat.le_refl 1

/-- An engine is entered with the image that was released. -/
theorem entered_prefix (h : Course calls s) :
    (uses calls).filterMap Use.entered? <+:
      ((uses calls).filterMap Use.released?).map (·.image) := by
  rw [← filterMap_fired fun use hNot => (Use.fires_eq_false.1 hNot).1,
    ← filterMap_fired fun use hNot => (Use.fires_eq_false.1 hNot).2]
  cases h with
  | ahead hFired => rw [hFired]; exact List.nil_prefix
  | released hFired => rw [hFired]; exact List.nil_prefix
  | entered hFired | returned hFired => rw [hFired]; exact List.prefix_rfl

/-- Nothing is released after an engine was entered. -/
theorem ordered (h : Course calls s) :
    (uses calls).Pairwise fun use later => use.entered?.isSome → later.released? = none := by
  have hFired : (fired calls).Pairwise
      fun use later => use.entered?.isSome → later.released? = none := by
    cases h with
    | ahead hFired | released hFired | entered hFired | returned hFired =>
      rw [hFired]
      simp [Use.entered?]
  refine (List.pairwise_filter.1 hFired).imp ?_
  intro use later hOrdered hEntered
  cases hReleased : later.released? with
  | none => rfl
  | some handoff =>
    have hUse : use.fires = true := by simp [Use.fires, hEntered]
    have hLater : later.fires = true := by simp [Use.fires, hReleased]
    cases hReleased.symm.trans (hOrdered hUse hLater hEntered)

end Course

/-! ### What a poll makes of its file -/

/-- The end of a read is delivered, and then the engine is entered with what was released. -/
theorem complete_uses (s : Session) (task : Nat) (file : File) :
    uses (s.complete task file).2.calls = [.delivered (s.loader.deliver file.read).2] ∨
      ∃ handoff : Handoff Engine, uses (s.complete task file).2.calls =
        [.delivered (.released handoff), .entered handoff.image] := by
  rcases hDeliver : s.loader.deliver file.read with ⟨loader, delivery⟩
  cases hResult : delivery.result with
  | error e => simp [complete, hDeliver, hResult, uses]
  | ok handoff =>
    obtain rfl := Delivery.eq_released_of_result hResult
    exact .inr ⟨handoff, by simp [complete, hDeliver, hResult, uses]⟩

/-- Nothing is used after the engine. -/
theorem advance_entered_last (s : Session) (task : Nat) (file : File) (left : Nat) {image : Image}
    (hEntered : .entered image ∈ uses (s.advance task file left).2.calls) :
    (uses (s.advance task file left).2.calls).getLast? = some (.entered image) := by
  cases left with
  | succ left => cases hEntered
  | zero =>
    rw [advance] at hEntered ⊢
    rcases complete_uses s task file with hUses | ⟨handoff, hUses⟩
    · simp [hUses] at hEntered
    · simp only [hUses, List.mem_cons, reduceCtorEq, List.not_mem_nil, or_false, false_or]
        at hEntered ⊢
      rw [hEntered]
      rfl

theorem poll_entered_last (s : Session) (task : Nat) {image : Image}
    (hEntered : .entered image ∈ uses (s.poll task).2.calls) :
    (uses (s.poll task).2.calls).getLast? = some (.entered image) := by
  rw [poll] at hEntered ⊢
  split at hEntered
  next files hFresh =>
    rcases hPick : s.loader.pick files with ⟨loader, selection⟩
    cases hFile : selection.file? with
    | none => simp [begin, hPick, hFile, uses] at hEntered
    | some file =>
      simp only [begin, hPick, hFile, uses, List.map_cons, List.mem_cons, reduceCtorEq,
        false_or] at hEntered ⊢
      have hLast := advance_entered_last { s with loader := loader } task file file.delay hEntered
      rw [List.getLast?_cons, ← uses, hLast]
      rfl
  next file left hReading => exact advance_entered_last s task file left hEntered
  next => cases hEntered

theorem act_entered_last (s : Session) (action : Action) {image : Image}
    (hEntered : .entered image ∈ uses (s.act action).2.calls) :
    (uses (s.act action).2.calls).getLast? = some (.entered image) := by
  cases action with
  | pick files => simp [act, pick, uses] at hEntered
  | deliver content => simp [act, deliver, uses] at hEntered
  | read =>
    simp only [act] at hEntered
    split at hEntered
    · cases hEntered
    · simp [deliver, uses] at hEntered
  | start =>
    simp only [act, start] at hEntered ⊢
    split
    next hNone => simp [hNone, uses] at hEntered
    next handoff hHandoff =>
      simp only [hHandoff, uses, List.map_cons, List.map_nil, List.mem_singleton] at hEntered ⊢
      rw [hEntered]
      rfl
  | discard | spawn | draw => cases hEntered
  | poll task => exact poll_entered_last s task hEntered
  | cancel task =>
    rw [act, cancel_calls] at hEntered
    cases hEntered
  | finish =>
    rw [act, finish_calls] at hEntered
    cases hEntered

/-- The start is the last that a step logs before the engine has control. -/
theorem log_getLast?_of_entered (s : Session) (action : Action) {image : Image}
    (hEntered : .entered image ∈ uses (s.act action).2.calls) :
    (s.act action).2.log.getLast? = some image.startingEntry := by
  obtain ⟨earlier, hUses⟩ := List.getLast?_eq_some_iff.1 (act_entered_last s action hEntered)
  rw [act_log, hUses, List.flatMap_append, List.getLast?_append]
  rfl

/-! ### Deliveries that are refused -/

theorem entries_of_refused {use : Use} (h : use.refused = true) : use.entries = [] := by
  cases use with
  | delivered delivery =>
    cases delivery with
    | unexpected | engineless => rfl
    | failed | released => cases h
  | _ => cases h

/-- If the end of a read is refused, that is all that comes of it. -/
theorem advance_log_of_refused {file : File} {left : Nat}
    (hRefused : ∃ use ∈ uses (s.advance task file left).2.calls, use.refused = true) :
    (s.advance task file left).2.log = [] := by
  rw [advance_log]
  cases left with
  | succ left => rfl
  | zero =>
    rw [advance] at hRefused ⊢
    rcases complete_uses s task file with hUses | ⟨handoff, hUses⟩
    · rw [hUses] at hRefused ⊢
      obtain ⟨use, hUse, hRefused⟩ := hRefused
      obtain rfl := List.mem_singleton.1 hUse
      exact (List.flatMap_singleton _ _).trans (entries_of_refused hRefused)
    · simp [hUses, Use.refused, Delivery.result] at hRefused

/-- A read that is in flight is not refused at its end. -/
theorem advance_accepted (hLoader : s.loader = .atStage engine .reading) (file : File)
    (left : Nat) : ¬∃ use ∈ uses (s.advance task file left).2.calls, use.refused = true := by
  cases left with
  | succ left => simp [advance, uses]
  | zero =>
    rw [advance]
    rcases complete_uses s task file with hUses | ⟨handoff, hUses⟩
    · rw [hUses, hLoader]
      cases file.read <;> simp [Use.refused, Delivery.result]
    · simp [hUses, Use.refused, Delivery.result]

theorem begin_accepted {stage : Stage} (hLoader : s.loader = .atStage engine stage)
    (files : List File) : ¬∃ use ∈ uses (s.begin task files).2.calls, use.refused = true := by
  rcases hPick : s.loader.pick files with ⟨loader, selection⟩
  cases hFile : selection.file? with
  | none => simp [begin, hPick, hFile, uses, Use.refused]
  | some file =>
    obtain ⟨stage', hNext, hStep⟩ := Loader.pick_step engine stage files
    rw [← hLoader, hPick] at hNext hStep
    obtain rfl := Selection.eq_picked_of_file? hFile
    have hReading : loader = .atStage engine .reading := by
      cases hStep
      exact hNext
    have hAccepted := @advance_accepted engine { s with loader := loader } task hReading file
      file.delay
    simpa [begin, hPick, hFile, uses, Use.refused] using hAccepted

theorem deliver_log_of_refused {content : Except ReadError (List UInt8)}
    (hRefused : ∃ use ∈ uses (s.deliver content).2.calls, use.refused = true) :
    (s.deliver content).2.log = [] := by
  obtain ⟨use, hUse, hRefused⟩ := hRefused
  obtain rfl := List.mem_singleton.1 hUse
  exact entries_of_refused hRefused

theorem log_of_refused (hSound : Sound engine calls s) (action : Action)
    (hRefused : ∃ use ∈ uses (s.act action).2.calls, use.refused = true) :
    (s.act action).2.log = [] := by
  cases action with
  | pick files => simp [act, pick, uses, Use.refused] at hRefused
  | deliver content => exact deliver_log_of_refused hRefused
  | read =>
    simp only [act] at hRefused ⊢
    split
    · rfl
    next file hPicked =>
      rw [hPicked] at hRefused
      exact deliver_log_of_refused hRefused
  | poll task =>
    obtain ⟨stage, hLoader, -⟩ := hSound.stage
    rw [act, poll] at hRefused ⊢
    split
    next files hFresh =>
      rw [hFresh] at hRefused
      exact absurd hRefused (begin_accepted hLoader files)
    next file left hReading =>
      rw [hReading] at hRefused
      exact advance_log_of_refused hRefused
    next => rfl
  | start =>
    simp only [act, start] at hRefused ⊢
    split
    · rfl
    next handoff hHandoff => simp [hHandoff, uses, Use.refused] at hRefused
  | discard | spawn | draw => rfl
  | cancel task =>
    rw [act_log, act, cancel_calls]
    rfl
  | finish =>
    rw [act_log, act, finish_calls]
    rfl

/-! ### The whole log -/

/-- Only the use of an engine logs a start. -/
theorem entered_of_info {use : Use} {entry : Log.Entry} (hEntry : entry ∈ use.entries)
    (hInfo : entry.level = .info) : use.entered?.isSome := by
  have hKept : entry ∈ use.entries.filter (·.level = .info) :=
    List.mem_filter.2 ⟨hEntry, decide_eq_true hInfo⟩
  rw [(filter_levels use).2.2.1] at hKept
  cases hEntered : use.entered? with
  | some image => rfl
  | none => simp [hEntered] at hKept

/-- Only a delivery that released an image logs a warning. -/
theorem released_of_warn {use : Use} {entry : Log.Entry} (hEntry : entry ∈ use.entries)
    (hWarn : entry.level = .warn) : use.released? ≠ none := by
  intro hNone
  have hKept : entry ∈ use.entries.filter (·.level = .warn) :=
    List.mem_filter.2 ⟨hEntry, decide_eq_true hWarn⟩
  simp [(filter_levels use).2.1, hNone] at hKept

/-- If nothing is released after an engine was entered, no warning comes after a start. -/
theorem warn_before_info {uses : List Use}
    (h : uses.Pairwise fun use later => use.entered?.isSome → later.released? = none) :
    (uses.flatMap Use.entries).Pairwise
      fun entry later => entry.level = .info → later.level ≠ .warn := by
  refine List.pairwise_flatMap.2
    ⟨fun use _ => ?_, h.imp fun hOrdered entry hEntry later hLater => ?_⟩
  · refine List.pairwise_of_forall_mem_list fun entry hEntry later hLater hInfo hWarn => ?_
    have hEntered := entered_of_info hEntry hInfo
    have hReleased := released_of_warn hLater hWarn
    cases use with
    | entered image => exact hReleased rfl
    | _ => cases hEntered
  · intro hInfo hWarn
    exact released_of_warn hLater hWarn (hOrdered (entered_of_info hEntry hInfo))

open scoped Classical in
/-- **The log is a faithful trace of a run**, of steps by hand, tasks and an engine that has
control.  Errors are the failed reads, files named are the files picked, and starts are the entries
into the engine, each the last entry before it gets control.  There is at most one warning, that of
the image released if it is too long, and no start comes before it.  A delivery that is told that
no read is in flight logs nothing. -/
theorem log_is_a_faithful_trace (engine : Engine) (screen : Framebuffer) (actions : List Action) :
    let s := (arm engine screen).after actions
    let made := uses ((arm engine screen).calls actions)
    let log := Loader.armedEntry :: (arm engine screen).logged actions
    log.filter (·.level = .error) =
        (made.filterMap Use.readError?).map (fun e => Log.Entry.error e.message) ∧
      ((log.filter (·.level = .warn)).length ≤ 1 ∧
        log.filter (·.level = .warn) =
          ((made.filterMap Use.released?).filter (3584 < ·.image.bytes.length)).map
            (·.image.warningEntry) ∧
        log.Pairwise fun entry later => entry.level = .info → later.level ≠ .warn) ∧
      (log.filter (·.level = .info) = (made.filterMap Use.entered?).map Image.startingEntry ∧
        made.filterMap Use.entered? = s.received ++ s.running.map (·.handoff.image) ∧
        made.filterMap Use.entered? <+: (made.filterMap Use.released?).map (·.image)) ∧
      log.filter (fun entry => decide entry.NamesFile) =
        (made.filterMap Use.picked?).map File.readingEntry ∧
      ∀ action, let step := (s.act action).2
        ((∃ use ∈ uses step.calls, use.refused = true) → step.log = []) ∧
          ∀ image, .entered image ∈ uses step.calls →
            step.log.getLast? = some image.startingEntry := by
  intro s made log
  have hCourse : Course ((arm engine screen).calls actions) s :=
    Course.after_arm engine screen actions
  have hSound : Sound engine ((arm engine screen).calls actions) s :=
    Sound.after_arm engine screen actions
  have hLog : log = Loader.armedEntry :: made.flatMap Use.entries :=
    congrArg (Loader.armedEntry :: ·) (logged_eq _ _)
  have hWarns : log.filter (·.level = .warn) =
      ((made.filterMap Use.released?).filter (3584 < ·.image.bytes.length)).map
        (·.image.warningEntry) := by
    rw [hLog, List.filter_filterMap]
    exact filter_entries (fun use => (filter_levels use).2.1) made
  refine ⟨?_, ⟨?_, hWarns, ?_⟩, ⟨?_, hCourse.entered_eq, hCourse.entered_prefix⟩, ?_, ?_⟩
  · rw [hLog]
    exact filter_entries (fun use => (filter_levels use).1) made
  · rw [hWarns, List.length_map]
    exact Nat.le_trans (List.length_filter_le _ _) hCourse.released_length_le_one
  · rw [hLog, List.pairwise_cons]
    have hDebug : Loader.armedEntry.level ≠ .info := by decide
    exact ⟨fun _ _ hInfo => absurd hInfo hDebug, warn_before_info hCourse.ordered⟩
  · rw [hLog]
    exact filter_entries (fun use => (filter_levels use).2.2.1) made
  · have hNot : ¬Loader.armedEntry.NamesFile := not_namesFile (.inr (by decide))
    rw [hLog, List.filter_cons_of_neg (by simpa using hNot)]
    exact filter_entries filter_names made
  · exact fun action =>
      ⟨log_of_refused hSound action, fun image => log_getLast?_of_entered s action⟩

end Session
end Chip8Launcher
