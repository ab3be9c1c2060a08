import Workflow.Proofs.Intrinsic.Literal

/-!
# `Workflow.Proofs.Intrinsic.Format` — templates

In a template a backslash makes the character after it stand for itself.  A template is read twice, though: as a string of
the expression, which leaves the backslashes before braces to be read again, and as a template, which finds the
placeholders.  A backslash that stands for itself in the string is read again like one that does not.  So of two backslashes
in a row one is lost, and a backslash right before a placeholder takes the placeholder's brace for a character.

## Contents
- **Writing.** `escape`, `template` and `formatCall`: texts with placeholders between them, written as an expression.
- **The string.** `kept`, what the string denotes, and `denotes_template`.
- **The template.** `merged` and `dangling`, what the second reading loses, with `fill_kept` and `fill_template`.
- **The expression.** `evaluate_formatCall`, what the whole expression yields.
- **What is lost.** `merged_eq_iff` and `dangling_iff`, and `format_exact_iff`, which says when all is kept as it was written.
-/

namespace Workflow.Intrinsic

open Text

variable {c : Char} {text rest : List Char} {texts : List (List Char)} {scope : Scope} {position : Nat}

/-! ## Writing -/

/-- The text with a backslash before each character that could mean something else. -/
def escape (text : List Char) : List Char :=
  text.flatMap fun c => if c = '\\' ∨ c = '\'' ∨ c = '\x7b' ∨ c = '\x7d' then ['\\', c] else [c]

/-- What follows in a template from a placeholder up to the next one. -/
structure Part where
  /-- The expression whose value takes the place. -/
  argument : String
  value : Json
  /-- The text behind the placeholder. -/
  after : String

/-- A template whose texts are written in a certain way. -/
def template (write : List Char → List Char) (first : String) (parts : List Part) : List Char :=
  write first.toList ++ parts.flatMap fun part => '\x7b' :: '\x7d' :: write part.after.toList

/-- The template with the values in place of the placeholders. -/
def filled (write : List Char → List Char) (first : String) (parts : List Part) : List Char :=
  write first.toList ++ parts.flatMap fun part => (plainText part.value).toList ++ write part.after.toList

/-- The expression that fills a template. -/
def formatCall (first : String) (parts : List Part) : String :=
  "States.Format(" ++
    ", ".intercalate (("'" ++ String.ofList (template escape first parts) ++ "'") :: parts.map (·.argument)) ++ ")"

/-- The texts of a template, in their order. -/
def textsOf (first : String) (parts : List Part) : List String := first :: parts.map (·.after)

/-- The expression has the value where it is the argument at the position. -/
def Yields (scope : Scope) (position : Nat) (expression : String) (value : Json) : Prop :=
  ∃ term, Denotes expression term ∧ evalTerm (scope.at position) term = .ok value

/-- The arguments have the values, the first of them at the position. -/
def Supplied (scope : Scope) (position : Nat) (parts : List Part) : Prop :=
  ∀ i (h : i < parts.length), Yields scope (position + i) parts[i].argument parts[i].value

variable {write : List Char → List Char} {first : String} {part : Part} {parts : List Part}

@[simp] theorem template_nil : template write first [] = write first.toList := List.append_nil _

@[simp] theorem template_cons : template write first (part :: parts) =
    write first.toList ++ '\x7b' :: '\x7d' :: template write part.after parts := rfl

@[simp] theorem filled_nil : filled write first [] = write first.toList := List.append_nil _

@[simp] theorem filled_cons : filled write first (part :: parts) =
    write first.toList ++ ((plainText part.value).toList ++ filled write part.after parts) := by
  simp [filled]

/-! ## The string -/

/-- What a string with the escaped text in it denotes: the braces are still escaped. -/
def kept (text : List Char) : List Char := text.flatMap escapedAs

theorem quotes_escape (text : List Char) : Quotes '\'' escapedAs (escape text) (kept text) := by
  have written : escape text = escapeWhere (fun c => c = '\\' ∨ c = '\'' ∨ c = '\x7b' ∨ c = '\x7d') text := by
    rw [escape, escapeWhere, escapeMarked, List.flatMap_map]
    simp only [decide_eq_true_eq]
  rw [written]
  refine quotes_escapeWhere ?_ (fun c _ => rfl) ?_ text
  · exact fun c special => decide_eq_true (special.imp id Or.inl)
  · intro c plain
    rw [escapedAs, if_neg fun brace => of_decide_eq_false plain (Or.inr (Or.inr brace))]

theorem quotes_template (first : String) (parts : List Part) :
    Quotes '\'' escapedAs (template escape first parts) (template kept first parts) := by
  induction parts generalizing first with
  | nil =>
      rw [template_nil, template_nil]
      exact quotes_escape _
  | cons part parts ih =>
      rw [template_cons, template_cons]
      exact (quotes_escape _).append (.plain (by decide) (by decide) (.plain (by decide) (by decide) (ih part.after)))

/-- **The first reading** leaves the braces of the texts escaped, and nothing else. -/
theorem denotes_template (first : String) (parts : List Part) :
    Denotes ("'" ++ String.ofList (template escape first parts) ++ "'")
      (.literal (.str (String.ofList (template kept first parts)))) := by
  refine denotes_iff.mpr ⟨[], _, [], nofun, nofun, ?_, .text (quotes_template first parts)⟩
  simp

/-! ## The template -/

/-- The text with one backslash in place of two. -/
def merged : List Char → List Char
  | '\\' :: '\\' :: rest => '\\' :: merged rest
  | c :: rest => c :: merged rest
  | [] => []

/-- There is a backslash at the end of the text that is not the second one of two. -/
def dangling : List Char → Bool
  | '\\' :: '\\' :: rest => dangling rest
  | ['\\'] => true
  | _ :: rest => dangling rest
  | [] => false

theorem fill_escaped (special : c = '\x7b' ∨ c = '\x7d' ∨ c = '\\') (rest : List Char) (texts : List (List Char)) :
    fill ('\\' :: c :: rest) texts = (fill rest texts).map (c :: ·) := by
  rw [fill, if_pos special]

theorem fill_backslash (opening : c ≠ '\x7b') (closing : c ≠ '\x7d') (backslash : c ≠ '\\') (rest : List Char)
    (texts : List (List Char)) : fill ('\\' :: c :: rest) texts = (fill (c :: rest) texts).map ('\\' :: ·) := by
  rw [fill, if_neg (by simp [opening, closing, backslash])]

theorem fill_plain (backslash : c ≠ '\\') (closed : c = '\x7b' → rest.head? ≠ some '\x7d') (texts : List (List Char)) :
    fill (c :: rest) texts = (fill rest texts).map (c :: ·) := by
  have apart : ∀ more, c = '\x7b' → rest ≠ '\x7d' :: more := by
    rintro more opening rfl
    exact closed opening rfl
  rw [fill]
  · intro _ _ h _
    exact backslash h
  · intro more _ opening h
    exact apart more opening h
  · intro more _ _ _ opening h
    exact apart more opening h

/-- Nothing closes a placeholder in front of which an escaped text stands. -/
theorem head_kept (closed : rest.head? ≠ some '\x7d') (text : List Char) :
    (kept text ++ rest).head? ≠ some '\x7d' := by
  cases text with
  | nil => exact closed
  | cons c text =>
      rw [kept, List.flatMap_cons, escapedAs]
      split
      · intro h
        exact absurd (Option.some.inj h) (by decide)
      · rename_i plain
        intro h
        exact plain (Or.inr (Option.some.inj h))

theorem kept_brace (brace : c = '\x7b' ∨ c = '\x7d') (text : List Char) : kept (c :: text) = '\\' :: c :: kept text := by
  rw [kept, List.flatMap_cons, escapedAs, if_pos brace]
  rfl

theorem kept_plain (plain : ¬ (c = '\x7b' ∨ c = '\x7d')) (text : List Char) : kept (c :: text) = c :: kept text := by
  rw [kept, List.flatMap_cons, escapedAs, if_neg plain]
  rfl

theorem map_map_append (outcome : Outcome (List Char)) (before after : List Char) :
    (outcome.map (after ++ ·)).map (before ++ ·) = outcome.map (before ++ after ++ ·) := by
  cases outcome with
  | ok filled => exact congrArg Except.ok (List.append_assoc before after filled).symm
  | error => rfl

/-- A backslash in front of an escaped text is kept, unless the text begins with another one. -/
theorem fill_backslash_kept (backslash : c ≠ '\\') (closed : rest.head? ≠ some '\x7d') (text : List Char)
    (texts : List (List Char)) : fill ('\\' :: (kept (c :: text) ++ rest)) texts =
      (fill (kept (c :: text) ++ rest) texts).map ('\\' :: ·) := by
  have closed' := head_kept closed text
  by_cases brace : c = '\x7b' ∨ c = '\x7d'
  · -- The brace was escaped; now its backslash belongs to the one before, and the brace is kept all the same.
    rw [kept_brace brace, List.cons_append, List.cons_append, fill_escaped (Or.inr (Or.inr rfl)),
      fill_escaped (brace.imp_right Or.inl), fill_plain backslash fun _ => closed']
  · obtain ⟨opening, closing⟩ := not_or.mp brace
    rw [kept_plain brace, List.cons_append, fill_backslash opening closing backslash]

theorem dangling_cons (single : c = '\\' → ∃ d more, text = d :: more ∧ d ≠ '\\') :
    dangling (c :: text) = dangling text := by
  rw [dangling]
  · rintro more rfl rfl
    obtain ⟨d, more', h, other⟩ := single rfl
    cases h
    exact other rfl
  · rintro rfl rfl
    obtain ⟨d, more', h, -⟩ := single rfl
    cases h

/-- **The second reading** loses every second backslash of a text, unless the text ends in one right before a placeholder. -/
theorem fill_kept (texts : List (List Char)) (closed : rest.head? ≠ some '\x7d')
    (whole : dangling text = true → rest = []) :
    fill (kept text ++ rest) texts = (fill rest texts).map (merged text ++ ·) := by
  fun_induction merged text with
  | case1 text ih =>
      -- The second of the two is taken for the escaped character of the first.
      rw [kept_plain (by decide), kept_plain (by decide), List.cons_append, List.cons_append,
        fill_escaped (Or.inr (Or.inr rfl)), ih whole]
      exact map_map_append _ ['\\'] _
  | case2 c text single ih =>
      -- Whatever the character is, it is kept, and the rest of the text is read by itself.
      have first : fill (kept (c :: text) ++ rest) texts = (fill (kept text ++ rest) texts).map (c :: ·) ∧
          (dangling text = true → rest = []) := by
        by_cases backslash : c = '\\'
        · subst backslash
          rw [kept_plain (by decide), List.cons_append]
          cases text with
          | nil =>
              obtain rfl := whole rfl
              exact ⟨by simp [kept, fill], nofun⟩
          | cons d text =>
              have other : d ≠ '\\' := by
                rintro rfl
                exact single text rfl rfl
              rw [dangling_cons fun _ => ⟨d, text, rfl, other⟩] at whole
              exact ⟨fill_backslash_kept other closed text texts, whole⟩
        · rw [dangling_cons fun h => absurd h backslash] at whole
          refine ⟨?_, whole⟩
          by_cases brace : c = '\x7b' ∨ c = '\x7d'
          · rw [kept_brace brace, List.cons_append, List.cons_append, fill_escaped (brace.imp_right Or.inl)]
          · rw [kept_plain brace, List.cons_append, fill_plain backslash fun _ => head_kept closed text]
      rw [first.1, ih first.2]
      exact map_map_append _ [c] _
  | case3 =>
      rw [kept, List.flatMap_nil, List.nil_append]
      cases fill rest texts <;> rfl

theorem fill_kept_last (text : List Char) (texts : List (List Char)) :
    fill (kept text) texts = (fill [] texts).map (merged text ++ ·) := by
  have none : ([] : List Char).head? ≠ some '\x7d' := nofun
  have read := fill_kept texts none fun _ : dangling text = true => rfl
  rwa [List.append_nil] at read

theorem exists_of_dangling (h : dangling text = true) : ∃ before, text = before ++ ['\\'] ∧ dangling before = false := by
  fun_induction dangling text with
  | case1 text ih =>
      obtain ⟨before, rfl, closed⟩ := ih h
      exact ⟨'\\' :: '\\' :: before, rfl, closed⟩
  | case2 => exact ⟨[], rfl, rfl⟩
  | case3 c text single last ih =>
      obtain ⟨before, rfl, closed⟩ := ih h
      refine ⟨c :: before, rfl, ?_⟩
      rw [dangling_cons, closed]
      intro backslash
      cases before with
      | nil => exact absurd rfl (single [] backslash)
      | cons d before =>
          refine ⟨d, before, rfl, ?_⟩
          rintro rfl
          exact single (before ++ ['\\']) backslash rfl
  | case4 => cases h

/-- The brace of a placeholder behind a dangling backslash is taken for a character. -/
theorem fill_dangling (h : dangling text = true) (rest : List Char) (texts : List (List Char)) :
    ∃ before, fill (kept text ++ '\x7b' :: '\x7d' :: rest) texts = (fill rest texts).map (before ++ ·) := by
  obtain ⟨before, rfl, closed⟩ := exists_of_dangling h
  have split : kept (before ++ ['\\']) = kept before ++ ['\\'] := List.flatMap_append
  -- The opening brace is escaped, so that the closing one is a character like others.
  have open' : fill ('\\' :: '\x7b' :: '\x7d' :: rest) texts = (fill rest texts).map (['\x7b', '\x7d'] ++ ·) := by
    rw [fill_escaped (Or.inl rfl), fill_plain (by decide) (fun h => absurd h (by decide))]
    exact map_map_append _ ['\x7b'] ['\x7d']
  refine ⟨merged before ++ ['\x7b', '\x7d'], ?_⟩
  rw [split, List.append_assoc, List.singleton_append, fill_kept texts (by simp) (by simp [closed]), open', map_map_append]

theorem fill_placeholder (text : List Char) (rest : List Char) (texts : List (List Char)) :
    fill ('\x7b' :: '\x7d' :: rest) (text :: texts) = (fill rest texts).map (text ++ ·) := by
  rw [fill]

/-- A template with fewer placeholders than texts is refused. -/
theorem fill_template_short (first : String) (parts : List Part) (short : parts.length < texts.length) :
    fill (template kept first parts) texts = .error .tooManyArguments := by
  induction parts generalizing first texts with
  | nil =>
      obtain ⟨text, texts, rfl⟩ := List.exists_cons_of_length_pos short
      rw [template_nil, fill_kept_last]
      rfl
  | cons part parts ih =>
      rw [template_cons]
      cases open' : dangling first.toList with
      | true =>
          -- No text is used up, and there is one placeholder less.
          obtain ⟨before, read⟩ := fill_dangling open' (template kept part.after parts) texts
          rw [read, ih part.after (Nat.lt_of_succ_lt short)]
          rfl
      | false =>
          obtain ⟨text, texts, rfl⟩ := List.exists_cons_of_length_pos (Nat.zero_lt_of_lt short)
          rw [fill_kept _ (by simp) (by simp [open']), fill_placeholder, ih part.after (Nat.lt_of_succ_lt_succ short)]
          rfl

/-- **A template is filled,** unless a text in front of a placeholder ends in a dangling backslash. -/
theorem fill_template (first : String) (parts : List Part) :
    fill (template kept first parts) ((parts.map (·.value)).map fun value => (plainText value).toList) =
      if (textsOf first parts).dropLast.any (dangling ·.toList) then .error .tooManyArguments
      else .ok (filled merged first parts) := by
  induction parts generalizing first with
  | nil =>
      rw [template_nil, List.map_nil, List.map_nil, fill_kept_last]
      simp [textsOf, fill, Except.map]
  | cons part parts ih =>
      have texts : (textsOf first (part :: parts)).dropLast = first :: (textsOf part.after parts).dropLast := rfl
      rw [template_cons, texts, List.any_cons]
      cases open' : dangling first.toList with
      | true =>
          obtain ⟨before, read⟩ := fill_dangling open' (template kept part.after parts)
            (((part :: parts).map (·.value)).map fun value => (plainText value).toList)
          rw [read, fill_template_short part.after parts (by simp)]
          rfl
      | false =>
          rw [fill_kept _ (by simp) (by simp [open']), List.map_cons, List.map_cons, fill_placeholder, ih part.after]
          rw [Bool.false_or, filled_cons]
          split
          · rfl
          · exact congrArg Except.ok (by simp)

/-! ## The expression -/

/-- The arguments of a call have the values of the placeholders. -/
theorem evaluates_of_supplied (supplied : Supplied scope position parts) :
    Evaluates scope position (parts.map (·.argument)) (parts.map (·.value)) := by
  induction parts generalizing position with
  | nil => exact .nil
  | cons part parts ih =>
      have first : ComesTo (scope.at position) part.argument (.ok part.value) := supplied 0 (Nat.zero_lt_succ _)
      have others : Supplied scope (position + 1) parts := by
        intro i h
        have next := supplied (i + 1) (Nat.succ_lt_succ h)
        have places : position + (i + 1) = position + 1 + i := by omega
        rwa [places] at next
      exact .cons first (ih others)

theorem formatted_cons (template : String) (values : List Json) : formatted (.str template :: values) =
    (fill template.toList (values.map fun value => (plainText value).toList)).map (.str ∘ String.ofList) := by
  show ((fill template.toList (values.map fun value => (plainText value).toList)) >>= fun filled =>
    Except.ok (Json.str (String.ofList filled))) = _
  cases fill template.toList (values.map fun value => (plainText value).toList) <;> rfl

theorem formatted_template (first : String) (parts : List Part) :
    formatted (.str (String.ofList (template kept first parts)) :: parts.map (·.value)) =
      if (textsOf first parts).dropLast.any (dangling ·.toList) then .error .tooManyArguments
      else .ok (.str (String.ofList (filled merged first parts))) := by
  rw [formatted_cons, String.toList_ofList, fill_template]
  split
  · rfl
  · rfl

/-- **What a template is filled with:** the values, and the texts as they are read for the second time. -/
theorem evaluate_formatCall (first : String) (supplied : Supplied scope 1 parts) :
    evaluate scope (formatCall first parts) =
      if (textsOf first parts).dropLast.any (dangling ·.toList) then
        .error (.misuse "States.Format" .tooManyArguments)
      else .ok (.str (String.ofList (filled merged first parts))) := by
  have named : Named "States.Format".toList := by decide
  have named' : Function.ofName? "States.Format" = some .format := by decide
  have template : ComesTo (scope.at 0) ("'" ++ String.ofList (template escape first parts) ++ "'")
      (.ok (.str (String.ofList (template kept first parts)))) := ⟨_, denotes_template first parts, rfl⟩
  have evaluated := evaluate_call named (List.cons_ne_nil _ _) (.cons template (evaluates_of_supplied supplied))
  have head : "States.Format" ++ "(" = "States.Format(" := by decide
  rw [callText, head] at evaluated
  rw [formatCall, evaluated, applyName, named']
  dsimp only [Function.apply]
  rw [formatted_template]
  split
  · rfl
  · rfl

/-! ## What is lost -/

theorem length_merged_le (text : List Char) : (merged text).length ≤ text.length := by
  fun_induction merged text with
  | case1 text ih =>
      simp only [List.length_cons]
      omega
  | case2 c text single ih => exact Nat.succ_le_succ ih
  | case3 => exact Nat.le_refl 0

/-- All of a text is left exactly if no two backslashes follow each other in it. -/
theorem merged_eq_iff (text : List Char) : merged text = text ↔ ¬ ['\\', '\\'] <:+: text := by
  fun_induction merged text with
  | case1 text ih =>
      refine iff_of_false ?_ fun h => h ⟨[], text, rfl⟩
      intro h
      have length := congrArg List.length h
      have less := length_merged_le text
      simp only [List.length_cons] at length
      omega
  | case2 c text single ih =>
      rw [List.cons_inj_right, ih, List.infix_cons_iff, not_or]
      have begins : ¬ ['\\', '\\'] <+: c :: text := by
        rintro ⟨more, h⟩
        cases h
        exact single more rfl rfl
      exact ⟨fun apart => ⟨begins, apart⟩, And.right⟩
  | case3 => exact iff_of_true rfl (by simp)

/-- Where no two backslashes follow each other, one at the end is dangling. -/
theorem dangling_iff (apart : ¬ ['\\', '\\'] <:+: text) : dangling text = true ↔ ['\\'] <:+ text := by
  fun_induction dangling text with
  | case1 text ih => exact absurd ⟨[], text, rfl⟩ apart
  | case2 => exact iff_of_true rfl List.suffix_rfl
  | case3 c text single last ih =>
      rw [ih fun h => apart (List.infix_cons h), List.suffix_cons_iff]
      have longer : ['\\'] ≠ c :: text := by
        intro e
        cases e
        exact last rfl rfl
      exact ⟨Or.inr, fun ends => ends.resolve_left longer⟩
  | case4 => exact iff_of_false Bool.false_ne_true (by simp)

theorem length_filled_le (first : String) (parts : List Part) :
    (filled merged first parts).length ≤ (filled id first parts).length := by
  induction parts generalizing first with
  | nil =>
      rw [filled_nil, filled_nil]
      exact length_merged_le _
  | cons part parts ih =>
      have first' := length_merged_le first.toList
      have others := ih part.after
      simp only [filled_cons, List.length_append, id_eq]
      omega

/-- All of a template is left exactly if all of its texts is. -/
theorem filled_merged_eq_iff (first : String) (parts : List Part) :
    filled merged first parts = filled id first parts ↔
      ∀ text ∈ textsOf first parts, ¬ ['\\', '\\'] <:+: text.toList := by
  induction parts generalizing first with
  | nil => simp [textsOf, merged_eq_iff]
  | cons part parts ih =>
      have texts : textsOf first (part :: parts) = first :: textsOf part.after parts := rfl
      rw [texts, List.forall_mem_cons, ← ih, ← merged_eq_iff, filled_cons, filled_cons]
      constructor
      · -- Neither the first text nor what comes behind it gets longer, so that both have kept their lengths.
        intro h
        have first' := length_merged_le first.toList
        have others := length_filled_le part.after parts
        have length := congrArg List.length h
        simp only [List.length_append, id_eq] at length
        obtain ⟨same, rest⟩ := List.append_inj h (by simp only [id_eq]; omega)
        exact ⟨same, List.append_cancel_left rest⟩
      · rintro ⟨same, rest⟩
        rw [same, rest, id_eq]

/-- **When a template keeps its texts.** For all texts and all arguments that yield values: the expression that has the
    texts escaped, with placeholders between them, yields the texts with the values between them exactly if no text has two
    backslashes in a row and no text in front of a placeholder ends in one.  Else the placeholder behind a backslash is lost
    and the arguments are too many, or each second backslash is lost. -/
theorem format_exact_iff (scope : Scope) (first : String) (parts : List Part) (supplied : Supplied scope 1 parts) :
    (evaluate scope (formatCall first parts) = .ok (.str (String.ofList (filled id first parts))) ↔
      (∀ text ∈ textsOf first parts, ¬ ['\\', '\\'] <:+: text.toList) ∧
        ∀ text ∈ (textsOf first parts).dropLast, ¬ ['\\'] <:+ text.toList) ∧
    evaluate scope (formatCall first parts) =
      if (textsOf first parts).dropLast.any (dangling ·.toList) then .error (.misuse "States.Format" .tooManyArguments)
      else .ok (.str (String.ofList (filled merged first parts))) := by
  refine ⟨?_, evaluate_formatCall first supplied⟩
  rw [evaluate_formatCall first supplied, ← filled_merged_eq_iff]
  -- A text that ends in a lone backslash takes the placeholder behind it along.
  by_cases lost : (textsOf first parts).dropLast.any (dangling ·.toList) = true
  · rw [if_pos lost]
    obtain ⟨text, inside, h⟩ := List.any_eq_true.mp lost
    obtain ⟨before, e, -⟩ := exists_of_dangling h
    exact iff_of_false nofun fun ⟨_, closed⟩ => closed text inside ⟨before, e.symm⟩
  · rw [if_neg lost]
    constructor
    · intro h
      have same : filled merged first parts = filled id first parts :=
        String.ofList_injective (Json.str.inj (Except.ok.inj h))
      refine ⟨same, ?_⟩
      intro text inside ends
      apply lost
      refine List.any_eq_true.mpr ⟨text, inside, ?_⟩
      have apart := (filled_merged_eq_iff first parts).mp same text (List.dropLast_subset _ inside)
      exact (dangling_iff apart).mpr ends
    · rintro ⟨same, -⟩
      rw [same]

/-- One argument, which is a number, has it as its value. -/
theorem supplied_numeral {argument : String} {value : Json} (numeral : Numeral argument.toList value) (after : String)
    (scope : Scope) : Supplied scope position [⟨argument, value, after⟩] := by
  intro i h
  obtain rfl := Nat.lt_one_iff.mp h
  exact ⟨_, denotes_numeral numeral, rfl⟩

/-- A backslash within a text, braces and an apostrophe are kept, and so is a backslash at the end. -/
theorem format_exact_iff_escapes :
    Supplied ⟨.null, .null, default⟩ 1 [⟨"42", .int 42, "\x7d'c\\"⟩] ∧
      evaluate ⟨.null, .null, default⟩ "States.Format('a\\\\b\\\x7b\x7b\x7d\\\x7d\\'c\\\\', 42)" =
        .ok (.str "a\\b\x7b42\x7d'c\\") := by
  have numeral : Numeral "42".toList (.int 42) := ⟨⟨'4', _, rfl, rfl⟩, List.all_eq_true.mp (by decide), rfl⟩
  have supplied : Supplied ⟨.null, .null, default⟩ 1 [⟨"42", .int 42, "\x7d'c\\"⟩] := supplied_numeral numeral _ _
  have exact := (format_exact_iff ⟨.null, .null, default⟩ "a\\b\x7b" _ supplied).1.mpr ⟨by decide, by decide⟩
  have text : formatCall "a\\b\x7b" [⟨"42", .int 42, "\x7d'c\\"⟩] =
    "States.Format('a\\\\b\\\x7b\x7b\x7d\\\x7d\\'c\\\\', 42)" := by decide
  refine ⟨supplied, ?_⟩
  rw [← text, exact]
  rfl

/-- An escaped backslash right before a placeholder is lost, and so is the placeholder. -/
theorem format_backslash :
    Supplied ⟨.null, .null, default⟩ 1 [⟨"1", .int 1, ""⟩] ∧
      formatCall "\\" [⟨"1", .int 1, ""⟩] = "States.Format('\\\\\x7b\x7d', 1)" ∧
      String.ofList (filled id "\\" [⟨"1", .int 1, ""⟩]) = "\\1" ∧
      evaluate ⟨.null, .null, default⟩ "States.Format('\\\\\x7b\x7d', 1)" =
        .error (.misuse "States.Format" .tooManyArguments) := by
  have numeral : Numeral "1".toList (.int 1) := ⟨⟨'1', _, rfl, rfl⟩, List.all_eq_true.mp (by decide), rfl⟩
  have supplied : Supplied ⟨.null, .null, default⟩ 1 [⟨"1", .int 1, ""⟩] := supplied_numeral numeral _ _
  have text : formatCall "\\" [⟨"1", .int 1, ""⟩] = "States.Format('\\\\\x7b\x7d', 1)" := by decide
  refine ⟨supplied, text, rfl, ?_⟩
  rw [← text]
  exact evaluate_formatCall "\\" supplied

end Workflow.Intrinsic
