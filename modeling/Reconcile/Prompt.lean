/-
Reconcile.Prompt — asking what to do with pending edits: the question, the
answers, and who answers.

On a terminal the answers are shown as a list, and one is picked
(`Selection`). If that is not possible nothing is decided: what was about to
happen is called off.
-/

namespace Reconcile

/-- Why the question is asked. -/
inductive PromptKind where
  /-- The bound input is about to be replaced, or the view mirrored. -/
  | inputSwitch
  /-- The bound input was changed outside the viewer. -/
  | externalChange
  deriving DecidableEq, Repr

/-- The question about pending edits. -/
structure Prompt where
  kind : PromptKind
  title : String
  message : String
  /-- The display name of the input that the edits belong to. -/
  input : String
  leftDirty : Bool
  rightDirty : Bool
  deriving DecidableEq, Repr

/-- The answer to the question. -/
inductive Decision where
  /-- Save both sides. -/
  | save
  /-- Drop the edits. -/
  | discard
  /-- Call off what was about to happen. -/
  | cancel
  deriving DecidableEq, Repr

/-- What comes of a list of answers that is shown on a terminal. -/
inductive Selection where
  /-- An answer was picked, by its place in the list. -/
  | picked (item : Nat)
  /-- The list could not be shown, or nothing could be picked from it. -/
  | failed
  deriving DecidableEq, Repr

namespace Selection

/-- The answers in the order in which they are shown; the first one is picked
unless the user moves on. -/
def items : List String := ["Save", "Don't save", "Cancel"]

/-- What the user has decided. -/
def decision : Selection → Decision
  | picked 0 => .save
  | picked 1 => .discard
  | picked _ => .cancel
  | failed => .cancel

/-- Only the first answer saves. -/
theorem decision_eq_save_iff {s : Selection} : s.decision = .save ↔ s = .picked 0 := by
  cases s with
  | failed => simp [decision]
  | picked item =>
    match item with
    | 0 => simp [decision]
    | 1 => simp [decision]
    | n + 2 => simp [decision]

end Selection

/-- Who answers the question. -/
inductive Confirmer where
  /-- The same answer every time. -/
  | fixed (decision : Decision)
  /-- One answer after the other; the last one is repeated, and without
  any the answer is to save. -/
  | scripted (answers : List Decision)
  deriving DecidableEq, Repr

namespace Confirmer

/-- The answer to a question. -/
def answer : Confirmer → Prompt → Decision
  | fixed d, _ => d
  | scripted answers, _ => answers.headD .save

/-- A user at a terminal, of whom it is known what comes of the list of
answers. -/
def atTerminal (s : Selection) : Confirmer := .fixed s.decision

/-- Who answers the next question. -/
def next : Confirmer → Confirmer
  | scripted (_ :: d :: rest) => scripted (d :: rest)
  | c => c

end Confirmer

end Reconcile
