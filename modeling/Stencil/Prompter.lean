/-
  Where the values of variables come from that nobody gave beforehand.

  A respondent is a machine that answers questions.  It may give a text, be closed (there is no more
  input), or fail, and each answer may change its state.  Nothing else is asked of it: whoever sits
  at a terminal is one.

  A blank text makes the asker ask again, so a respondent that gives blank texts for ever is asked
  for ever.  A prompter is a respondent with a bound: `blanks` says how many blank texts can follow
  each other from a state.

  `Prompter.silent` is always closed, `Prompter.scripted` gives the answers of a list, and
  `Prompter.lines` reads one line for each question and shows the question before it.
-/
import Stencil.Error
import Stencil.Event
import Stencil.Text.Blank

namespace Stencil

/-- The answer to a question. -/
inductive Reply where
  | text (s : String)
  | closed
  | failed (e : Error)

/-- A machine that answers questions. -/
structure Respondent (σ : Type) where
  ask : Question → σ → Reply × σ
  /-- What is written to the terminal for a question and its answer. -/
  echo : Question → Reply → String

/-- A respondent that does not give blank texts for ever. -/
structure Prompter (σ : Type) extends Respondent σ where
  /-- How many blank texts can follow each other from here. -/
  blanks : σ → Nat
  /-- Every blank text uses up one. -/
  blanks_lt : ∀ q s t s', ask q s = (.text t, s') → isBlank t = true → blanks s' < blanks s

namespace Prompter

/-- The prompter that is always closed. -/
def silent : Prompter Unit where
  ask _ s := (.closed, s)
  echo _ _ := ""
  blanks _ := 0
  blanks_lt := by simp

/-- Takes the next answer of a list; after the last one it is closed. -/
def nextAnswer : Question → List Reply → Reply × List Reply
  | _, [] => (.closed, [])
  | _, r :: rs => (r, rs)

/-- The prompter that gives the answers of a list. -/
def scripted : Prompter (List Reply) where
  ask := nextAnswer
  echo _ _ := ""
  blanks := List.length
  blanks_lt := by
    intro q s t s' h _
    cases s with
    | nil => simp [nextAnswer] at h
    | cons r rs => simp only [nextAnswer, Prod.mk.injEq] at h; simp [← h.2]

/-- The bytes up to and with the first line feed, and those behind it. -/
def cutLine : Bytes → Bytes × Bytes
  | [] => ([], [])
  | b :: bs =>
    if b = 0x0A then ([b], bs)
    else
      let (line, rest) := cutLine bs
      (b :: line, rest)

theorem cutLine_append (bs : Bytes) : (cutLine bs).1 ++ (cutLine bs).2 = bs := by
  induction bs with
  | nil => rfl
  | cons b bs ih =>
    by_cases h : b = 0x0A
    · simp [cutLine, h]
    · simp [cutLine, h, ih]

/-- Reads the next line of the input.  At its end the prompter is closed; a line that is no text makes
    it fail. -/
def readLine (_ : Question) (input : Bytes) : Reply × Bytes :=
  match input with
  | [] => (.closed, [])
  | b :: bs =>
    let (line, rest) := cutLine (b :: bs)
    match Bytes.toString? line with
    | some text => (.text (trim text), rest)
    | none => (.failed (.io .notText), rest)

/-- How a question is shown. -/
def showQuestion (q : Question) : String :=
  q.name ++ " (" ++ q.text ++ ")" ++
    (match q.default with
      | some default => " [" ++ default ++ "]"
      | none => "") ++ ": "

theorem length_cutLine_lt (b : UInt8) (bs : Bytes) :
    (cutLine (b :: bs)).2.length < (b :: bs).length := by
  have h := congrArg List.length (cutLine_append (b :: bs))
  rw [List.length_append] at h
  have : 0 < (cutLine (b :: bs)).1.length := by
    by_cases hb : b = 0x0A <;> simp [cutLine, hb]
  omega

/-- The prompter that reads one line of the input for each question. -/
def lines : Prompter Bytes where
  ask := readLine
  echo q r := showQuestion q ++ match r with
    | .closed => "\n"
    | _ => ""
  blanks := List.length
  blanks_lt := by
    intro q s t s' h _
    cases s with
    | nil => simp [readLine] at h
    | cons b bs =>
      have hlt := length_cutLine_lt b bs
      simp only [readLine] at h
      split at h <;> simp only [Prod.mk.injEq] at h <;> rw [← h.2] <;> exact hlt

example : showQuestion ⟨"NAME", "Project name", some "App"⟩ = "NAME (Project name) [App]: " := by decide

end Prompter

end Stencil
