import Mathlib.Data.List.Infix
import Chip8Launcher.Proofs.Page.Checks

/-!
# What a message tells

Of a failure the page sees the message only.  Every kind of failure has a lead of its own, and no
lead begins another (`eq_of_lead_begins`), so the kind of a failure can be told from its message.
Behind the lead stand texts that may be anything, an imitation of a message included, and still they
can be told as well, with one exception: in the message of a failed read nothing says where the name
of the file ends if name or reason contain what is put between the two.

* `append_eq_append_iff_of_unbordered`: the places at which a text can be parted by a separator.
* `Arises.isPossible`: of which failures this is said.
* `eq_or_imitates_of_body_eq`: what the texts behind the leads tell.
-/

namespace Chip8Launcher

/-! ### Parting a text -/

namespace Text

variable {α : Type} {a b c d separator : List α}

/-- Nothing but the whole text is both its beginning and its end. -/
def Unbordered (text : List α) : Prop :=
  ∀ border, border ≠ [] → border <+: text → border <:+ text → border = text

/-- What comes before a later separator goes on with the earlier one. -/
theorem Unbordered.of_append_eq (h : Unbordered separator) (hNe : a ≠ [])
    (hSame : separator ++ b = a ++ (separator ++ d)) :
    ∃ z, a = separator ++ z ∧ b = z ++ separator ++ d := by
  rcases List.append_eq_append_iff.1 hSame with ⟨z, rfl, rfl⟩ | ⟨border, hSeparator, hRest⟩
  · exact ⟨z, rfl, (List.append_assoc ..).symm⟩
  · have hSuffix : border <:+ separator := ⟨a, hSeparator.symm⟩
    have hPrefix : border <+: separator :=
      List.prefix_of_prefix_length_le ⟨b, hRest.symm⟩ (List.prefix_append _ _) hSuffix.length_le
    by_cases hBorder : border = []
    · subst hBorder
      rw [List.append_nil] at hSeparator
      exact ⟨[], by rw [hSeparator, List.append_nil], hRest.symm⟩
    · rw [h border hBorder hPrefix hSuffix] at hSeparator
      exact absurd (List.append_left_eq_self.1 hSeparator.symm) hNe

/-- A text that is parted at two places has the separator at both, one behind the other. -/
theorem append_eq_append_iff_of_unbordered (h : Unbordered separator) :
    a ++ separator ++ b = c ++ separator ++ d ↔
      (a = c ∧ b = d) ∨ (∃ z, c = a ++ separator ++ z ∧ b = z ++ separator ++ d) ∨
        ∃ z, a = c ++ separator ++ z ∧ d = z ++ separator ++ b := by
  constructor
  · intro hSame
    rw [List.append_assoc, List.append_assoc, List.append_eq_append_iff] at hSame
    rcases hSame with ⟨more, rfl, hRest⟩ | ⟨more, rfl, hRest⟩
    · by_cases hMore : more = []
      · subst hMore
        exact .inl ⟨(List.append_nil a).symm, List.append_cancel_left hRest⟩
      · obtain ⟨z, rfl, hz⟩ := h.of_append_eq hMore hRest
        exact .inr (.inl ⟨z, (List.append_assoc ..).symm, hz⟩)
    · by_cases hMore : more = []
      · subst hMore
        exact .inl ⟨List.append_nil c, (List.append_cancel_left hRest).symm⟩
      · obtain ⟨z, rfl, hz⟩ := h.of_append_eq hMore hRest
        exact .inr (.inr ⟨z, (List.append_assoc ..).symm, hz⟩)
  · rintro (⟨rfl, rfl⟩ | ⟨z, rfl, rfl⟩ | ⟨z, rfl, rfl⟩)
    · rfl
    · simp only [List.append_assoc]
    · simp only [List.append_assoc]

end Text

/-! ### Failed reads -/

namespace ReadError

/-- What stands between the name of the file and the reason. -/
def separator : String := "`: "

/-- The first error may be taken for the second, whose name goes on with a separator and with what
the first gives as the beginning of its reason. -/
def Imitates (e e' : ReadError) : Prop :=
  ∃ z, e'.file = e.file ++ separator ++ z ∧ e.reason = z ++ separator ++ e'.reason

theorem unbordered_separator : Text.Unbordered separator.toList := by
  have hInits : ∀ border ∈ separator.toList.inits, border ≠ [] → border <:+ separator.toList →
      border = separator.toList := by decide
  exact fun border hNe hPrefix => hInits border ((List.mem_inits _ _).2 hPrefix) hNe

theorem imitates_iff {e e' : ReadError} :
    e.Imitates e' ↔ ∃ z, e'.file.toList = e.file.toList ++ separator.toList ++ z ∧
      e.reason.toList = z ++ separator.toList ++ e'.reason.toList := by
  constructor
  · rintro ⟨z, hFile, hReason⟩
    exact ⟨z.toList, by rw [hFile, String.toList_append, String.toList_append],
      by rw [hReason, String.toList_append, String.toList_append]⟩
  · rintro ⟨z, hFile, hReason⟩
    refine ⟨String.ofList z, ?_, ?_⟩
    · rw [← String.toList_inj, hFile, String.toList_append, String.toList_append,
        String.toList_ofList]
    · rw [← String.toList_inj, hReason, String.toList_append, String.toList_append,
        String.toList_ofList]

theorem eq_iff_toList {e e' : ReadError} :
    e = e' ↔ e.file.toList = e'.file.toList ∧ e.reason.toList = e'.reason.toList := by
  rw [String.toList_inj, String.toList_inj]
  cases e
  cases e'
  exact ReadError.mk.injEq .. ▸ Iff.rfl

/-- Name and reason can be told, up to the place where they are parted. -/
theorem parted_eq_iff {e e' : ReadError} :
    e.file ++ separator ++ e.reason = e'.file ++ separator ++ e'.reason ↔
      e = e' ∨ e.Imitates e' ∨ e'.Imitates e := by
  rw [eq_iff_toList, imitates_iff, imitates_iff, ← String.toList_inj]
  simp only [String.toList_append]
  exact Text.append_eq_append_iff_of_unbordered unbordered_separator

end ReadError

/-! ### Leads -/

/-- A failure, before the engine is armed or after. -/
inductive Failure where
  | boot (e : BootError)
  | load (e : LoadError)
  deriving DecidableEq, Repr

namespace Failure

def message : Failure → String
  | boot e => e.message
  | load e => e.message

inductive Kind where
  | noWindow
  | noDocument
  | elementNotFound
  | wrongElement
  | contextUnavailable
  | config
  | read
  | engine
  | noReadInFlight
  deriving DecidableEq, Repr

def kind : Failure → Kind
  | boot .noWindow => .noWindow
  | boot .noDocument => .noDocument
  | boot (.elementNotFound _) => .elementNotFound
  | boot (.wrongElement _ _) => .wrongElement
  | boot (.contextUnavailable _) => .contextUnavailable
  | boot (.config _) => .config
  | load (.read _) => .read
  | load (.engine _) => .engine
  | load .noReadInFlight => .noReadInFlight

/-- What all messages of the kind begin with. -/
def Kind.lead : Kind → String
  | noWindow => "no global `window` exists"
  | noDocument => "window has no document"
  | elementNotFound => "no element with id `"
  | wrongElement => "element `"
  | contextUnavailable => "2d drawing context unavailable on `"
  | config => "invalid boot configuration: "
  | read => "failed to read `"
  | engine => "engine failed: "
  | noReadInFlight => "no read in flight"

/-- What the message says behind its lead. -/
def body : Failure → String
  | boot .noWindow | boot .noDocument | load .noReadInFlight => ""
  | boot (.elementNotFound id) | boot (.contextUnavailable id) => id ++ "`"
  | boot (.wrongElement id expected) => id ++ "` is not a " ++ expected
  | boot (.config text) => text
  | load (.read e) => e.file ++ ReadError.separator ++ e.reason
  | load (.engine e) => e.text

variable {x y : Failure}

theorem message_eq (x : Failure) : x.message = x.kind.lead ++ x.body := by
  match x with
  | boot .noWindow | boot .noDocument | load .noReadInFlight => exact String.append_empty.symm
  | boot (.elementNotFound id) | boot (.contextUnavailable id) => exact String.append_assoc
  | boot (.wrongElement id expected) =>
    exact (congrArg (· ++ expected) String.append_assoc).trans String.append_assoc
  | boot (.config text) => rfl
  | load (.read e) =>
    exact (congrArg (· ++ e.reason) String.append_assoc).trans String.append_assoc
  | load (.engine e) => rfl

/-- No lead begins another. -/
theorem eq_of_lead_begins {a b : Kind} (h : a.lead.toList <+: b.lead.toList) : a = b := by
  revert h
  cases a <;> cases b <;> decide

theorem kind_eq_of_message_eq (h : x.message = y.message) : x.kind = y.kind := by
  rw [message_eq, message_eq] at h
  have hLead : x.kind.lead.toList <+: (y.kind.lead ++ y.body).toList := by
    rw [← h, String.toList_append]
    exact List.prefix_append _ _
  have hLead' : y.kind.lead.toList <+: (y.kind.lead ++ y.body).toList := by
    rw [String.toList_append]
    exact List.prefix_append _ _
  rcases List.prefix_or_prefix_of_prefix hLead hLead' with hPrefix | hPrefix
  · exact eq_of_lead_begins hPrefix
  · exact (eq_of_lead_begins hPrefix).symm

theorem message_eq_message_iff :
    x.message = y.message ↔ x.kind = y.kind ∧ x.body = y.body := by
  constructor
  · intro h
    have hKind := kind_eq_of_message_eq h
    rw [message_eq, message_eq, hKind] at h
    exact ⟨hKind, (String.append_right_inj _).1 h⟩
  · rintro ⟨hKind, hBody⟩
    rw [message_eq, message_eq, hKind, hBody]

/-! ### Behind the leads -/

/-- Where an element was of the wrong kind, a canvas or a file input was expected. -/
def IsPossible : Failure → Prop
  | boot (.wrongElement _ expected) => expected = "canvas" ∨ expected = "file input"
  | _ => True

/-- The failures that come about. -/
inductive Arises : Failure → Prop
  | level {config : Config} {e : BootError} (h : config.level = .error e) : Arises (boot e)
  | canvas {page : Page} {id : String} {width height : UInt32} {palette : Palette} {e : BootError}
    (h : (page.locateCanvas id width height palette).2 = .error e) : Arises (boot e)
  | input {page : Page} {id : String} {e : BootError} (h : page.locateInput id = .error e) :
    Arises (boot e)
  | start {page : Page} {engine : Page.Function} {value : Value} {e : BootError}
    (h : (page.start engine value).2 = .error e) : Arises (boot e)
  | load (e : LoadError) : Arises (load e)

theorem isPossible_check (check : Check) (config : Config) :
    (boot (check.error config)).IsPossible := by
  cases check with
  | canvas => exact .inl rfl
  | fileInput => exact .inr rfl
  | _ => exact trivial

theorem isPossible_locateCanvas {page : Page} {id : String} {width height : UInt32}
    {palette : Palette} {e : BootError}
    (h : (page.locateCanvas id width height palette).2 = .error e) : (boot e).IsPossible := by
  unfold Page.locateCanvas at h
  split at h
  next =>
    obtain rfl := Except.error.inj h
    trivial
  next =>
    split at h
    next =>
      obtain rfl := Except.error.inj h
      exact .inl rfl
    next =>
      dsimp only at h
      split at h
      next => cases h
      next =>
        obtain rfl := Except.error.inj h
        trivial

theorem isPossible_locateInput {page : Page} {id : String} {e : BootError}
    (h : page.locateInput id = .error e) : (boot e).IsPossible := by
  unfold Page.locateInput at h
  split at h
  next =>
    obtain rfl := Except.error.inj h
    trivial
  next =>
    split at h
    next =>
      obtain rfl := Except.error.inj h
      exact .inr rfl
    next =>
      split at h
      · cases h
      · obtain rfl := Except.error.inj h
        exact .inr rfl

theorem isPossible_level {config : Config} {e : BootError} (h : config.level = .error e) :
    (boot e).IsPossible := by
  obtain ⟨text, rfl⟩ := Page.exists_of_level_error h
  trivial

theorem isPossible_start {page : Page} {engine : Page.Function} {value : Value} {e : BootError}
    (h : (page.start engine value).2 = .error e) : (boot e).IsPossible := by
  cases hValue : Config.ofValue value with
  | error fault =>
    simp only [Page.start, hValue] at h
    obtain rfl := Except.error.inj h
    trivial
  | ok config =>
    have hEnds : Page.Ends page engine config (page.start engine value) := Page.ends_start hValue
    unfold Page.Ends at hEnds
    split at hEnds
    next check _ =>
      obtain rfl := Except.error.inj (hEnds.1.symm.trans h)
      exact isPossible_check check config
    next => cases hEnds.1.symm.trans h

theorem Arises.isPossible (h : x.Arises) : x.IsPossible := by
  cases h with
  | level h => exact isPossible_level h
  | canvas h => exact isPossible_locateCanvas h
  | input h => exact isPossible_locateInput h
  | start h => exact isPossible_start h
  | load e => trivial

/-- What was expected is told by the last letter. -/
theorem eq_of_wrongElement_body {id id' expected expected' : String}
    (hExpected : IsPossible (boot (.wrongElement id expected)))
    (hExpected' : IsPossible (boot (.wrongElement id' expected')))
    (h : id ++ "` is not a " ++ expected = id' ++ "` is not a " ++ expected') :
    id = id' ∧ expected = expected' := by
  have hLast := congrArg (fun text => text.toList.getLast?) h
  simp only [String.toList_append, List.getLast?_append] at hLast
  have hCanvas : "canvas".toList.getLast? = some 's' := by decide
  have hInput : "file input".toList.getLast? = some 't' := by decide
  have hSame : expected = expected' := by
    rcases hExpected with rfl | rfl <;> rcases hExpected' with rfl | rfl
    · rfl
    · rw [hCanvas, hInput] at hLast
      cases hLast
    · rw [hCanvas, hInput] at hLast
      cases hLast
    · rfl
  rw [hSame] at h
  exact ⟨(String.append_left_inj _).1 ((String.append_left_inj _).1 h), hSame⟩

/-- Failures of one kind differ behind the lead, or one is a failed read that imitates another. -/
theorem eq_or_imitates_of_body_eq (hx : x.IsPossible) (hy : y.IsPossible) (hKind : x.kind = y.kind)
    (hBody : x.body = y.body) :
    x = y ∨ ∃ e e' : ReadError, x = .load (.read e) ∧ y = .load (.read e') ∧
      (e.Imitates e' ∨ e'.Imitates e) := by
  rcases x with (_ | _ | id | ⟨id, expected⟩ | id | text) | (e | ⟨⟨text⟩⟩ | _) <;>
    rcases y with (_ | _ | id' | ⟨id', expected'⟩ | id' | text') | (e' | ⟨⟨text'⟩⟩ | _) <;>
    try cases hKind
  · exact .inl rfl
  · exact .inl rfl
  · obtain rfl := (String.append_left_inj _).1 hBody
    exact .inl rfl
  · obtain ⟨rfl, rfl⟩ := eq_of_wrongElement_body hx hy hBody
    exact .inl rfl
  · obtain rfl := (String.append_left_inj _).1 hBody
    exact .inl rfl
  · obtain rfl : text = text' := hBody
    exact .inl rfl
  · rcases ReadError.parted_eq_iff.1 hBody with rfl | hImitates
    · exact .inl rfl
    · exact .inr ⟨e, e', rfl, rfl, hImitates⟩
  · obtain rfl : text = text' := hBody
    exact .inl rfl
  · exact .inl rfl

/-- **A message tells its failure, but for failed reads that imitate each other.**  Whatever texts
are in it, a failure has the message of no other kind of failure.  Two that have the same message
are the same, or both are failed reads and the name of the file goes on, in one, where the other
already gives the reason. -/
theorem messages_tell_failures :
    (∀ e : ReadError, message (.load (.read e)) = e.message) ∧
      (∀ e : EngineError, message (.load (.engine e)) = e.message) ∧
      (∀ x : Failure, x.Arises → x.IsPossible) ∧
      (∀ x y : Failure, x.message = y.message → x.kind = y.kind) ∧
      ∀ x y : Failure, x.IsPossible → y.IsPossible →
        (x.message = y.message ↔ x = y ∨ ∃ e e' : ReadError, x = .load (.read e) ∧
          y = .load (.read e') ∧ (e.Imitates e' ∨ e'.Imitates e)) := by
  refine ⟨fun _ => rfl, fun _ => rfl, fun _ => Arises.isPossible,
    fun _ _ => kind_eq_of_message_eq, fun x y hx hy => ?_⟩
  rw [message_eq_message_iff]
  constructor
  · rintro ⟨hKind, hBody⟩
    exact eq_or_imitates_of_body_eq hx hy hKind hBody
  · rintro (rfl | ⟨e, e', rfl, rfl, hImitates⟩)
    · exact ⟨rfl, rfl⟩
    · exact ⟨rfl, ReadError.parted_eq_iff.2 (.inr hImitates)⟩

/-- One of two failed reads imitates the other.  An id that ends as a message about a canvas does is
not taken for one, and what a start without a window fails with is possible. -/
theorem messages_tell_failures_imitated :
    let e : ReadError := ⟨"pong.ch8", "locked`: busy"⟩
    let e' : ReadError := ⟨"pong.ch8`: locked", "busy"⟩
    let canvas : Failure := .boot (.wrongElement "rom" "canvas")
    let input : Failure := .boot (.wrongElement "rom` is not a canvas" "file input")
    let page : Page := .fresh false true []
    (e.Imitates e' ∧ message (.load (.read e)) = message (.load (.read e')) ∧ e ≠ e') ∧
      (canvas.IsPossible ∧ input.IsPossible ∧ canvas.message ≠ input.message) ∧
      ((page.start (.mk "run_emu" none []) .undefined).2 = .error .noWindow ∧
        IsPossible (.boot .noWindow)) := by
  intro e e' canvas input page
  obtain ⟨-, -, hArises, -, hIff⟩ := messages_tell_failures
  have hImitates : e.Imitates e' := ⟨"locked", by decide, by decide⟩
  have hNe : e ≠ e' := by decide
  have hCanvas : canvas.IsPossible := .inl rfl
  have hInput : input.IsPossible := .inr rfl
  refine ⟨⟨hImitates, ?_, hNe⟩, ⟨hCanvas, hInput, fun hSame => ?_⟩, ?_⟩
  · exact (hIff (.load (.read e)) (.load (.read e')) trivial trivial).2
      (.inr ⟨e, e', rfl, rfl, .inl hImitates⟩)
  · rcases (hIff canvas input hCanvas hInput).1 hSame with hEq | ⟨_, _, hRead, -⟩
    · exact absurd hEq (by decide)
    · exact Failure.noConfusion hRead
  · have hStart : (page.start (.mk "run_emu" none []) .undefined).2 = .error .noWindow := rfl
    exact ⟨hStart, hArises _ (.start hStart)⟩

end Failure

end Chip8Launcher
