import Mathlib.Data.List.Forall2
import Workflow.Choice.Glob

/-!
# `Workflow.Proofs.Choice.Glob` — a scan that comes back to the last star only

What a pattern means is said twice without the scan: which tokens it denotes, and how a text is cut into one
part for each token.  The scan never tries again what an earlier star could take.  It need not: if the text
can be cut with an earlier star taking more, what the later star is left with is an end of the text before
it, and the later star can take the rest itself.

## Contents
- **Patterns.** `Denotes` and `denotes_iff`.
- **Cuts of a text.** `Fits`, with an equation for each kind of token, and `exists_fits_suffix`, the exchange.
- **The scan.** `Scan.Open`, what is still possible; a step keeps it and a verdict decides it (`decides_step`), so that
  `verdict_iff`.
- **Its length.** `Scan.run`, the scan with a bound on its steps, and `run_eq_verdict`.
-/

namespace Workflow.Choice.Glob

variable {c d : Char} {token : Token} {pattern after : List Token} {read text : List Char} {s next : Scan}

/-! ## Patterns -/

/-- The tokens that a pattern denotes. -/
inductive Denotes : List Char → List Token → Prop
  | nil : Denotes [] []
  | escaped {c : Char} {rest : List Char} {ts : List Token} :
      Denotes rest ts → Denotes ('\\' :: c :: rest) (.char c :: ts)
  /-- A backslash with nothing after it stands for itself. -/
  | trailing : Denotes ['\\'] [.char '\\']
  | star {rest : List Char} {ts : List Token} : Denotes rest ts → Denotes ('*' :: rest) (.star :: ts)
  | plain {c : Char} {rest : List Char} {ts : List Token} :
      c ≠ '\\' → c ≠ '*' → Denotes rest ts → Denotes (c :: rest) (.char c :: ts)

theorem denotes_tokens (pattern : List Char) : Denotes pattern (tokens pattern) := by
  fun_induction tokens pattern with
  | case1 => exact .nil
  | case2 c rest ih => exact .escaped ih
  | case3 c rest notEscape ih =>
    split
    · rename_i h; exact h ▸ .star ih
    · rename_i notStar
      by_cases h : c = '\\'
      · subst h
        cases rest with
        | nil => exact .trailing
        | cons d rest => exact absurd rfl (notEscape d rest rfl)
      · exact .plain h notStar ih

theorem Denotes.eq_tokens {pattern : List Char} {ts : List Token} (h : Denotes pattern ts) : ts = tokens pattern := by
  induction h with
  | nil | trailing => rfl
  | escaped _ ih => rw [tokens, ih]
  | star _ ih => simp [tokens, ih]
  | plain notEscape notStar _ ih => simp [tokens, notEscape, notStar, ih]

/-- **A pattern denotes its tokens and nothing else.** -/
theorem denotes_iff {pattern : List Char} {ts : List Token} : Denotes pattern ts ↔ ts = tokens pattern :=
  ⟨Denotes.eq_tokens, fun h => h ▸ denotes_tokens pattern⟩

/-! ## Cuts of a text -/

/-- What a token may take of a text: a character takes itself, and a star anything. -/
def Token.Admits : Token → List Char → Prop
  | .char c, part => part = [c]
  | .star, _ => True

/-- A text can be cut into parts that the tokens take, one after the other. -/
def Fits (pattern : List Token) (text : List Char) : Prop :=
  ∃ parts, List.Forall₂ Token.Admits pattern parts ∧ parts.flatten = text

theorem fits_nil_iff : Fits [] text ↔ text = [] := by
  simp [Fits, eq_comm]

theorem fits_cons_iff : Fits (token :: pattern) text ↔
    ∃ part rest, token.Admits part ∧ Fits pattern rest ∧ part ++ rest = text := by
  constructor
  · rintro ⟨_, _ | ⟨admits, others⟩, rfl⟩
    exact ⟨_, _, admits, ⟨_, others, rfl⟩, rfl⟩
  · rintro ⟨part, _, admits, ⟨parts, others, rfl⟩, rfl⟩
    exact ⟨part :: parts, .cons admits others, rfl⟩

theorem fits_char_iff : Fits (.char c :: pattern) text ↔ ∃ rest, text = c :: rest ∧ Fits pattern rest := by
  rw [fits_cons_iff]
  constructor
  · rintro ⟨_, rest, rfl, fits, rfl⟩
    exact ⟨rest, rfl, fits⟩
  · rintro ⟨rest, rfl, fits⟩
    exact ⟨[c], rest, rfl, fits, rfl⟩

/-- A star leaves an end of the text to the tokens after it. -/
theorem fits_star_iff : Fits (.star :: pattern) text ↔ ∃ rest, rest <:+ text ∧ Fits pattern rest := by
  rw [fits_cons_iff]
  constructor
  · rintro ⟨part, rest, -, fits, rfl⟩
    exact ⟨rest, ⟨part, rfl⟩, fits⟩
  · rintro ⟨rest, ⟨part, rfl⟩, fits⟩
    exact ⟨part, rest, trivial, fits, rfl⟩

theorem fits_star_nil_iff : Fits (.star :: pattern) [] ↔ Fits pattern [] := by
  simp [fits_star_iff, List.suffix_nil]

/-- A star takes nothing, or a first character and then what it likes. -/
theorem fits_star_cons_iff :
    Fits (.star :: pattern) (c :: text) ↔ Fits pattern (c :: text) ∨ Fits (.star :: pattern) text := by
  simp only [fits_star_iff, List.suffix_cons_iff]
  constructor
  · rintro ⟨rest, rfl | within, fits⟩
    · exact .inl fits
    · exact .inr ⟨rest, within, fits⟩
  · rintro (fits | ⟨rest, within, fits⟩)
    · exact ⟨_, .inl rfl, fits⟩
    · exact ⟨rest, .inr within, fits⟩

/-- At the end of the text only stars may be left. -/
theorem fits_end_iff : Fits pattern [] ↔ pattern.all (· == .star) = true := by
  induction pattern with
  | nil => simp [fits_nil_iff]
  | cons token pattern ih =>
    cases token with
    | char c => simp [fits_char_iff]
    | star => simp [fits_star_nil_iff, ih]

/-- Characters that stand for themselves take just what they read. -/
theorem fits_read_iff :
    Fits (read.map .char ++ pattern) text ↔ ∃ rest, text = read ++ rest ∧ Fits pattern rest := by
  induction read generalizing text with
  | nil => simp
  | cons c read ih => simp only [List.map_cons, List.cons_append, fits_char_iff, ih]; grind

/-- What an earlier star leaves when it takes more is a shorter end of the text that came after it. -/
theorem exists_fits_suffix {rest : List Char} (within : rest <:+ read ++ text)
    (shorter : rest.length < (read ++ text).length) (fits : Fits (.star :: (read.map .char ++ pattern)) rest) :
    ∃ left, left <:+ text ∧ left.length < text.length ∧ Fits pattern left := by
  obtain ⟨_, ends, inner⟩ := fits_star_iff.mp fits
  obtain ⟨left, rfl, onward⟩ := fits_read_iff.mp inner
  have le := ends.length_le
  simp only [List.length_append] at le shorter
  have short : left.length < text.length := by omega
  have ends : left <:+ read ++ text := (List.suffix_append read left).trans (ends.trans within)
  exact ⟨left, List.suffix_of_suffix_length_le ends (List.suffix_append read text) (Nat.le_of_lt short), short,
    onward⟩

/-! ## The scan -/

/-- What is still possible: the tokens ahead fit the text ahead, or the last star can take more. -/
def Scan.Open (s : Scan) : Prop :=
  Fits s.pattern s.text ∨ ∃ st ∈ s.star, ∃ c rest, st.text = c :: rest ∧ Fits (.star :: st.after) rest

/-- A verdict says whether something is possible, and a further scan leaves the same possible. -/
def Step.Decides (possible : Prop) : Step → Prop
  | .done fits => fits = true ↔ possible
  | .goOn next => next.Open ↔ possible

theorem open_start : (Scan.start pattern text).Open ↔ Fits pattern text := by
  simp [Scan.Open, Scan.start]

theorem open_atStar : (Scan.atStar after text).Open ↔ Fits (.star :: after) text := by
  cases text with
  | nil => simp [Scan.Open, Scan.atStar, fits_star_nil_iff]
  | cons c text => simp [Scan.Open, Scan.atStar, fits_star_cons_iff]

/-- Where tokens and text disagree, all depends on the last star. -/
theorem decides_retry (apart : ¬Fits s.pattern s.text) : (retry s.star).Decides s.Open := by
  rw [Scan.Open, or_iff_right apart]
  unfold retry
  split
  · rename_i after c text met
    simp [Step.Decides, open_atStar, met]
  · rename_i stuck
    simp only [Step.Decides, Bool.false_eq_true, false_iff]
    rintro ⟨⟨after, text⟩, met, c, rest, rfl, -⟩
    exact stuck after c rest met

/-- If the last star can take more, the tokens ahead fit a shorter end of the text ahead. -/
theorem exists_fits_of_star (s : Scan) {st : Star} (met : st ∈ s.star) {rest : List Char}
    (ahead : st.text = c :: rest) (fits : Fits (.star :: st.after) rest) :
    ∃ left, left <:+ s.text ∧ left.length < s.text.length ∧ Fits s.pattern left := by
  obtain ⟨read, after, onward⟩ := s.sound st met
  have whole : read ++ s.text = c :: rest := onward.symm.trans ahead
  have within : rest <:+ read ++ s.text := whole ▸ List.suffix_cons c rest
  have shorter : rest.length < (read ++ s.text).length := whole ▸ Nat.lt_succ_self _
  exact exists_fits_suffix within shorter (after ▸ fits)

/-- At the end of the text and at a star the last star has nothing to add. -/
theorem open_iff_of_ends (s : Scan) (ends : ∀ left, left <:+ s.text → left.length < s.text.length →
    Fits s.pattern left → Fits s.pattern s.text) : s.Open ↔ Fits s.pattern s.text := by
  refine or_iff_left_of_imp ?_
  rintro ⟨st, met, c, rest, ahead, fits⟩
  obtain ⟨left, within, short, fits⟩ := exists_fits_of_star s met ahead fits
  exact ends left within short fits

/-- **A step keeps what is possible, and a verdict decides it.** -/
theorem decides_step (s : Scan) : s.step.Decides s.Open := by
  obtain ⟨star, pattern, text, sound⟩ := s
  cases text with
  | nil =>
    rw [open_iff_of_ends ⟨star, pattern, [], sound⟩ fun _ _ short _ => absurd short (Nat.not_lt_zero _)]
    exact fits_end_iff.symm
  | cons d text =>
    cases pattern with
    | nil => exact decides_retry (s := ⟨star, [], d :: text, sound⟩) fun fits => nomatch fits_nil_iff.mp fits
    | cons token pattern =>
      cases token with
      | star =>
        -- The new star takes what the last one would have taken.
        rw [open_iff_of_ends ⟨star, .star :: pattern, d :: text, sound⟩ fun left within _ fits => by
          obtain ⟨rest, ends, fits⟩ := fits_star_iff.mp fits
          exact fits_star_iff.mpr ⟨rest, ends.trans within, fits⟩]
        exact open_atStar
      | char c =>
        simp only [Scan.step]
        split
        · rename_i same
          subst same
          simp [Step.Decides, Scan.Open, fits_char_iff]
        · rename_i differ
          refine decides_retry (s := ⟨star, .char c :: pattern, d :: text, sound⟩) fun fits => ?_
          obtain ⟨rest, e, -⟩ := fits_char_iff.mp fits
          exact differ (List.cons.inj e).1.symm

/-- **The verdict says what is possible.** -/
theorem verdict_iff (s : Scan) : s.verdict = true ↔ s.Open := by
  fun_induction Scan.verdict s with
  | case1 s fits h => simpa only [h, Step.Decides] using decides_step s
  | case2 s next h _ ih =>
    have same : next.Open ↔ s.Open := by simpa only [h, Step.Decides] using decides_step s
    exact ih.trans same

/-! ## How long a scan takes -/

/-- The verdict of a scan that ends within a number of steps. -/
def Scan.run : Nat → Scan → Option Bool
  | 0, _ => none
  | bound + 1, s =>
    match s.step with
    | .done fits => some fits
    | .goOn next => run bound next

/-- **A scan takes at most as many steps as its measure and one.** -/
theorem run_eq_verdict {bound : Nat} (within : s.measure < bound) : s.run bound = some s.verdict := by
  induction bound generalizing s with
  | zero => exact absurd within (Nat.not_lt_zero _)
  | succ bound ih =>
    rw [Scan.run]
    split
    · rename_i fits h
      rw [verdict_of_done h]
    · rename_i next h
      rw [verdict_of_goOn h]
      exact ih (Nat.lt_of_lt_of_le (step_lower h) (Nat.le_of_lt_succ within))

/-- **A text fits a pattern just if it can be cut into one part for each token that the pattern denotes, a
character taking itself and a star anything.** The scan finds this out in no more steps than there are pairs
of a place in the pattern and a place in the text. -/
theorem accepts_iff (pattern text : String) :
    (Scan.start (tokens pattern.toList) text.toList).run
        (((tokens pattern.toList).length + 1) * (text.toList.length + 1)) = some (accepts pattern text) ∧
      (accepts pattern text = true ↔ ∃ ts parts, Denotes pattern.toList ts ∧
        List.Forall₂ Token.Admits ts parts ∧ parts.flatten = text.toList) := by
  constructor
  · refine run_eq_verdict ?_
    simp only [Scan.measure, Scan.start]
    grind
  · rw [accepts, verdict_iff, open_start]
    simp [denotes_iff, Fits]

end Workflow.Choice.Glob
