/-!
# `Workflow.Choice.Glob` — text patterns

In a pattern a star stands for any run of characters, and a backslash makes the character after it stand for
itself.  A text is read once from the left: as long as the tokens agree with it the scan goes on, and where
they do not it comes back to the last star met, which then takes one character more.

Covers `glob_matches`.

## Contents
- `Token` and `tokens`, the tokens of a pattern.
- `Scan`, the state of a scan, and `Scan.step`.
- `Scan.measure`, which every step makes less, and `Scan.verdict`, the end of the scan.
- `accepts`, whether a text fits a pattern.
-/

namespace Workflow.Choice.Glob

/-- A character that stands for itself, or a star. -/
inductive Token where
  | char (c : Char)
  | star
  deriving Repr, DecidableEq

/-- The tokens of a pattern.  A backslash at the end stands for itself. -/
def tokens : List Char → List Token
  | [] => []
  | '\\' :: c :: rest => .char c :: tokens rest
  | c :: rest => (if c = '*' then .star else .char c) :: tokens rest

/-- A star that was met: the tokens after it, and the text on which they are tried. -/
structure Star where
  after : List Token
  text : List Char
  deriving Repr, DecidableEq

/-- How far a scan is: the last star met, the tokens and the text ahead.  Since that star only characters
that stand for themselves were read. -/
structure Scan where
  star : Option Star
  pattern : List Token
  text : List Char
  sound : ∀ st ∈ star, ∃ read : List Char, st.after = read.map .char ++ pattern ∧ st.text = read ++ text

/-- A scan that has not begun. -/
def Scan.start (pattern : List Token) (text : List Char) : Scan := ⟨none, pattern, text, by simp⟩

/-- A scan that has just passed a star. -/
def Scan.atStar (after : List Token) (text : List Char) : Scan :=
  ⟨some ⟨after, text⟩, after, text, fun _ h => ⟨[], by cases h; simp⟩⟩

/-- A scan ends with a verdict or goes on. -/
inductive Step where
  | done (fits : Bool)
  | goOn (next : Scan)

/-- Where tokens and text disagree, the last star takes one character more. -/
def retry : Option Star → Step
  | some ⟨after, _ :: text⟩ => .goOn (.atStar after text)
  | _ => .done false

theorem sound_advance {star : Option Star} {c : Char} {pattern : List Token} {text : List Char}
    (sound : ∀ st ∈ star, ∃ read : List Char,
      st.after = read.map .char ++ .char c :: pattern ∧ st.text = read ++ c :: text) :
    ∀ st ∈ star, ∃ read : List Char, st.after = read.map .char ++ pattern ∧ st.text = read ++ text := by
  intro st h
  obtain ⟨read, after, ahead⟩ := sound st h
  exact ⟨read ++ [c], by simp [after], by simp [ahead]⟩

/-- One step: at the end of the text only stars may be left. -/
def Scan.step : Scan → Step
  | ⟨_, pattern, [], _⟩ => .done (pattern.all (· == .star))
  | ⟨_, .star :: pattern, c :: text, _⟩ => .goOn (atStar pattern (c :: text))
  | ⟨star, .char c :: pattern, d :: text, sound⟩ =>
    if h : c = d then .goOn ⟨star, pattern, text, sound_advance (h ▸ sound)⟩ else retry star
  | ⟨star, [], _ :: _, _⟩ => retry star

/-- What bounds a scan: for each character that the last star can still take, all the tokens after it. -/
def Scan.measure (s : Scan) : Nat :=
  match s.star with
  | some st => (st.after.length + 1) * st.text.length + s.pattern.length
  | none => (s.pattern.length + 1) * s.text.length + s.pattern.length

theorem measure_atStar (after : List Token) (text : List Char) :
    (Scan.atStar after text).measure = (after.length + 1) * text.length + after.length := rfl

/-- The tokens after the last star are never fewer than those ahead, nor is the text shorter on which they
are tried, so a new star bounds the scan by less. -/
theorem measure_ge (s : Scan) :
    (s.pattern.length + 1) * s.text.length + s.pattern.length ≤ s.measure := by
  unfold Scan.measure
  split
  · rename_i st h
    obtain ⟨read, after, ahead⟩ := s.sound st h
    refine Nat.add_le_add_right (Nat.mul_le_mul ?_ ?_) _
    · simp [after]
    · simp [ahead]
  · exact Nat.le_refl _

theorem retry_lower {s next : Scan} (h : retry s.star = .goOn next) : next.measure < s.measure := by
  unfold Scan.measure
  unfold retry at h
  split at h
  · rename_i after d text found
    cases h
    simp only [found, Scan.atStar, List.length_cons, Nat.mul_add]
    omega
  · cases h

/-- **Every step makes the measure less.** -/
theorem step_lower {s next : Scan} (h : s.step = .goOn next) : next.measure < s.measure := by
  obtain ⟨star, pattern, text, sound⟩ := s
  match pattern, text, sound, h with
  | .star :: pattern, c :: text, sound, h =>
    cases h
    have := measure_ge ⟨star, .star :: pattern, c :: text, sound⟩
    simp only [measure_atStar, List.length_cons, Nat.add_mul] at this ⊢
    omega
  | .char c :: pattern, d :: text, sound, h =>
    simp only [Scan.step] at h
    split at h
    · cases h
      cases star <;> simp [Scan.measure, Nat.add_mul, Nat.mul_add]
      omega
    · exact retry_lower (s := ⟨star, .char c :: pattern, d :: text, sound⟩) h
  | [], d :: text, sound, h => exact retry_lower (s := ⟨star, [], d :: text, sound⟩) h

/-- The verdict with which a scan ends. -/
def Scan.verdict (s : Scan) : Bool :=
  match h : s.step with
  | .done fits => fits
  | .goOn next =>
    have := step_lower h
    next.verdict
termination_by s.measure

theorem verdict_of_done {s : Scan} {fits : Bool} (h : s.step = .done fits) : s.verdict = fits := by
  unfold Scan.verdict
  split <;> simp_all

theorem verdict_of_goOn {s next : Scan} (h : s.step = .goOn next) : s.verdict = next.verdict := by
  rw [Scan.verdict]
  split <;> simp_all

/-- Whether a text fits a pattern. -/
def accepts (pattern text : String) : Bool := (Scan.start (tokens pattern.toList) text.toList).verdict

end Workflow.Choice.Glob
