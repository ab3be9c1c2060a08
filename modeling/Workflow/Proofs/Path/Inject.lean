import Workflow.Proofs.Path.Step

/-!
# `Workflow.Proofs.Path.Inject` — writing through paths

Writing through a path makes containers that are missing and pads arrays with nulls, but it takes nothing away.  What was
written is found again, and to write once more in the same place is to have written only then.  Where another path parts
from the first one, it still leads to what it led to before, and it does not matter through which of the two is written
first.

## Contents
- **Paths that part.** `Diverges`.
- **One place.** `walk?_write_self`, `write_write`, `write_of_walk?` and `write_eq_error`, and `inject_lawful` for paths
  in documents.
- **Two places.** `walk?_held`; `walk?_write` and `getD_walk?_write`: what was there stays, and nothing but nulls is
  added; `write_swap`, and `inject_apart` for paths in documents.
-/

namespace Workflow.Path

variable {counting : Counting} {steps others : List Step} {document after value value' held : Json}

/-! ## Paths that part -/

/-- Two lists of steps part: after steps in common, both go on, and differently. -/
def Diverges (steps others : List Step) : Prop :=
  ∃ common step other rest rest', steps = common ++ step :: rest ∧ others = common ++ other :: rest' ∧ step ≠ other

theorem Diverges.symm (apart : Diverges steps others) : Diverges others steps := by
  obtain ⟨common, step, other, rest, rest', hsteps, hothers, hne⟩ := apart
  exact ⟨common, other, step, rest', rest, hothers, hsteps, Ne.symm hne⟩

/-! ## One place -/

/-- **What was written is found again.** -/
theorem walk?_write_self (h : counting.write steps document value = .ok after) : walk? steps after = some value := by
  induction steps generalizing document after with
  | nil =>
      cases h
      rfl
  | cons step rest ih =>
      obtain ⟨fits, child, hwrite, rfl⟩ := write_cons_eq_ok.mp h
      exact Option.bind_eq_some_iff.mpr ⟨child, child?_put fits.1 child, ih hwrite⟩

/-- **The last of two writes in one place counts.** -/
theorem write_write (h : counting.write steps document value = .ok after) (value' : Json) :
    counting.write steps after value' = counting.write steps document value' := by
  induction steps generalizing document after with
  | nil => rfl
  | cons step rest ih =>
      obtain ⟨fits, child, hwrite, rfl⟩ := write_cons_eq_ok.mp h
      have again : put step (put step document child) = put step document := funext (put_put fits.1 child)
      rw [write_of_fits (fits_put fits child), write_of_fits fits, held_put fits.1, ih hwrite, again]

/-- **To write back what is found changes nothing.** -/
theorem write_of_walk? (h : walk? steps document = some held) : counting.write steps document held = .ok document := by
  induction steps generalizing document with
  | nil =>
      cases h
      rfl
  | cons step rest ih =>
      obtain ⟨child, hchild, hrest⟩ := Option.bind_eq_some_iff.mp h
      refine write_cons_eq_ok.mpr ⟨fits_of_child hchild, child, ?_, put_child hchild⟩
      rw [Path.held, hchild]
      exact ih hrest

/-- **Whether a place can be written to** does not depend on what is written. -/
theorem write_eq_error (value value' : Json) {halt : Halt} (h : counting.write steps document value = .error halt) :
    counting.write steps document value' = .error halt := by
  induction steps generalizing document with
  | nil => cases h
  | cons step rest ih =>
      -- Whether a step fits, and what becomes of it if it does not, depends on the document alone.
      by_cases accepts : Accepts step document
      · by_cases exceeds : Exceeds step document
        · rw [write_of_exceeds accepts exceeds] at h ⊢
          exact h
        · rw [write_of_fits ⟨accepts, exceeds⟩] at h ⊢
          cases hrest : counting.write rest (Path.held step document) value with
          | ok child =>
              rw [hrest] at h
              cases h
          | error other =>
              rw [hrest] at h
              cases h
              rw [ih hrest]
              rfl
      · rw [write_of_not_accepts accepts] at h ⊢
        exact h

theorem Writable.root_ne_context {path : Path} (writable : path.Writable) : path.root ≠ .context := by
  rw [writable.2]
  exact fun e => nomatch e

/-- To write through a path that can be written to is to write along its steps. -/
theorem Counting.inject_of_writable {path : Path} (writable : path.Writable) (counting : Counting)
    (document value : Json) : counting.inject path document value = counting.write path.steps document value := by
  rw [Counting.inject, if_neg writable.root_ne_context, if_pos writable.1]

theorem inject_of_writable {path : Path} (writable : path.Writable) (document value : Json) :
    path.inject document value = Counting.checked.write path.steps document value :=
  Counting.checked.inject_of_writable writable document value

theorem select?_of_definite {path : Path} (definite : path.Definite) (document : Json) :
    path.select? document = walk? path.steps document := by
  rw [select?, if_pos definite]

/-- **Writing through a path is lawful.** What was written is selected; to write once more is to have written only then,
    and is possible; to write back what is selected changes nothing; and where a place cannot be written to, this is so
    whatever is to be written, for the same reason. -/
theorem inject_lawful (path : Path) (writable : path.Writable) (document value value' : Json) :
    (∀ after, path.inject document value = .ok after →
      path.select? after = some value ∧ path.inject after value' = path.inject document value' ∧
        ∃ last, path.inject document value' = .ok last) ∧
    (∀ halt, path.inject document value = .error halt ↔ path.inject document value' = .error halt) ∧
    (∀ held, path.select? document = some held → path.inject document held = .ok document) := by
  simp only [inject_of_writable writable, select?_of_definite writable.1]
  refine ⟨fun after h => ⟨walk?_write_self h, write_write h value', ?_⟩, fun halt => ?_, fun held h => write_of_walk? h⟩
  · cases again : Counting.checked.write path.steps document value' with
    | ok last => exact ⟨last, rfl⟩
    | error halt => cases h.symm.trans (write_eq_error value' value again)
  · exact ⟨write_eq_error value value', write_eq_error value' value⟩

/-- The third of the counts of a document that has none yet is written, and written once more. -/
theorem inject_lawful_counts :
    let path : Path := ⟨.data, [.field "counts", .index 2]⟩
    let after : Json := .obj [("counts", .arr [.null, .null, .int 7])]
    path.inject .null (.int 7) = .ok after ∧ path.select? after = some (.int 7) ∧
      path.inject after (.str "many") = path.inject .null (.str "many") ∧ path.inject after (.int 7) = .ok after := by
  intro path after
  have written : path.inject .null (.int 7) = .ok after := rfl
  have writable : path.Writable := by decide
  obtain ⟨kept, -, -⟩ := inject_lawful path writable .null (.int 7) (.str "many")
  obtain ⟨-, -, back⟩ := inject_lawful path writable after (.int 7) (.int 7)
  obtain ⟨found, again, -⟩ := kept after written
  exact ⟨written, found, again, back _ found⟩

/-! ## Two places -/

/-- **What is written in one place leaves what lies in another,** by induction over the steps in common. -/
theorem walk?_write (apart : Diverges steps others) (h : counting.write steps document value = .ok after)
    (hheld : walk? others document = some held) : walk? others after = some held := by
  obtain ⟨common, step, other, rest, rest', rfl, rfl, hne⟩ := apart
  induction common generalizing document after with
  | nil =>
      obtain ⟨fits, written, -, rfl⟩ := write_cons_eq_ok.mp h
      obtain ⟨child, hchild, hrest⟩ := Option.bind_eq_some_iff.mp hheld
      exact Option.bind_eq_some_iff.mpr ⟨child, child?_put_of_ne fits.1 (Ne.symm hne) written hchild, hrest⟩
  | cons first common ih =>
      obtain ⟨fits, written, hwrite, rfl⟩ := write_cons_eq_ok.mp h
      obtain ⟨child, hchild, hrest⟩ := Option.bind_eq_some_iff.mp hheld
      rw [Path.held, hchild] at hwrite
      exact Option.bind_eq_some_iff.mpr ⟨written, child?_put fits.1 written, ih hwrite hrest⟩

/-- To go on from where nothing lies is to go on from a null. -/
theorem walk?_held {step : Step} {rest : List Step} (goes_on : rest ≠ []) :
    walk? (step :: rest) document = walk? rest (Path.held step document) := by
  rw [walk?, Path.held]
  cases child? step document with
  | some child => rfl
  | none =>
      obtain ⟨next, more, rfl⟩ := List.exists_cons_of_ne_nil goes_on
      rw [Option.getD_none, walk?, child?_null]
      rfl

/-- Where null stands for nothing, steps lead from nothing to nothing. -/
theorem getD_walk?_cons (step : Step) (rest : List Step) (document : Json) :
    (walk? (step :: rest) document).getD .null = (walk? rest (Path.held step document)).getD .null := by
  cases rest with
  | nil => exact congrArg (Option.getD · .null) (Option.bind_fun_some (child? step document))
  | cons next rest => rw [walk?_held (List.cons_ne_nil next rest)]

/-- **What is written in one place adds nothing but nulls in another.** -/
theorem getD_walk?_write (apart : Diverges steps others) (h : counting.write steps document value = .ok after) :
    (walk? others after).getD .null = (walk? others document).getD .null := by
  obtain ⟨common, step, other, rest, rest', rfl, rfl, hne⟩ := apart
  induction common generalizing document after with
  | nil =>
      obtain ⟨fits, written, -, rfl⟩ := write_cons_eq_ok.mp h
      show (walk? (other :: rest') _).getD .null = (walk? (other :: rest') _).getD .null
      rw [getD_walk?_cons, getD_walk?_cons, held_put_of_ne fits.1 (Ne.symm hne)]
  | cons first common ih =>
      obtain ⟨fits, written, hwrite, rfl⟩ := write_cons_eq_ok.mp h
      show (walk? (first :: _) _).getD .null = (walk? (first :: _) _).getD .null
      rw [getD_walk?_cons, getD_walk?_cons, held_put fits.1]
      exact ih hwrite

/-- **Two writes in different places can be swapped,** by induction over the steps in common. -/
theorem write_swap (apart : Diverges steps others) {last : Json} (h : counting.write steps document value = .ok after)
    (h' : counting.write others after value' = .ok last) :
    ∃ between, counting.write others document value' = .ok between ∧
      counting.write steps between value = .ok last := by
  obtain ⟨common, step, other, rest, rest', rfl, rfl, hne⟩ := apart
  induction common generalizing document after last with
  | nil =>
      obtain ⟨fits, child, hchild, rfl⟩ := write_cons_eq_ok.mp h
      obtain ⟨⟨accepts', within'⟩, child', hchild', rfl⟩ := write_cons_eq_ok.mp h'
      rw [held_put_of_ne fits.1 (Ne.symm hne)] at hchild'
      rw [exceeds_put_iff fits (Ne.symm hne)] at within'
      -- What the first write has made accepts the second step only if both lead into containers of one kind.
      have alike := (accepts_put_iff fits.1).mp accepts'
      have fits' : Fits other document := ⟨alike.accepts fits.1, within'⟩
      have again : Fits step (put other document child') :=
        ⟨(accepts_put_iff fits'.1).mpr alike.symm, mt (exceeds_put_iff fits' hne child').mp fits.2⟩
      refine ⟨_, write_cons_eq_ok.mpr ⟨fits', child', hchild', rfl⟩, write_cons_eq_ok.mpr ⟨again, child, ?_, ?_⟩⟩
      · rw [held_put_of_ne fits'.1 hne]
        exact hchild
      · exact (put_comm alike hne fits.1 child child').symm
  | cons first common ih =>
      obtain ⟨fits, child, hchild, rfl⟩ := write_cons_eq_ok.mp h
      obtain ⟨-, child', hchild', rfl⟩ := write_cons_eq_ok.mp h'
      rw [held_put fits.1] at hchild'
      obtain ⟨between, hbetween, hlast⟩ := ih hchild hchild'
      refine ⟨_, write_cons_eq_ok.mpr ⟨fits, between, hbetween, rfl⟩,
        write_cons_eq_ok.mpr ⟨fits_put fits between, child', ?_, ?_⟩⟩
      · rw [held_put fits.1]
        exact hlast
      · -- In either order the step in common is written twice, and the last write counts.
        rw [put_put fits.1, put_put fits.1]

/-- **A definite path still selects what it selected** after something was written through a path that parts from it. -/
theorem select?_inject {path target : Path} (definite : path.Definite) (apart : Diverges target.steps path.steps)
    (h : target.inject document value = .ok after) (hheld : path.select? document = some held) :
    path.select? after = some held := by
  rw [select?_of_definite definite] at hheld ⊢
  unfold inject Counting.inject at h
  split at h
  · cases h
  · split at h
    · exact walk?_write apart h hheld
    · cases h

/-- **Writes through paths that part do not touch each other.** What the other path selected it still selects; where it
    selected nothing it selects null, if anything; and to write through both, in either order, gives the same document
    or none. -/
theorem inject_apart (path other : Path) (writable : path.Writable) (writable' : other.Writable)
    (apart : Diverges path.steps other.steps) (document value value' : Json) :
    (∀ after, path.inject document value = .ok after →
      (∀ held, other.select? document = some held → other.select? after = some held) ∧
      (other.select? document = none → ∀ held, other.select? after = some held → held = .null)) ∧
    ((∃ last, (do other.inject (← path.inject document value) value') = .ok last ∧
        (do path.inject (← other.inject document value') value) = .ok last) ∨
      ((∃ halt, (do other.inject (← path.inject document value) value') = .error halt) ∧
        ∃ halt, (do path.inject (← other.inject document value') value) = .error halt)) := by
  simp only [inject_of_writable writable, inject_of_writable writable', select?_of_definite writable'.1]
  refine ⟨fun after h => ⟨fun held => walk?_write apart h, fun none held found => ?_⟩, ?_⟩
  · have same := getD_walk?_write apart h
    rw [none, found] at same
    exact same
  · have swap : ∀ {steps others : List Step} {value value' last : Json}, Diverges steps others →
        (Counting.checked.write steps document value >>= fun after => Counting.checked.write others after value') =
          .ok last →
        (Counting.checked.write others document value' >>= fun after => Counting.checked.write steps after value) =
          .ok last := by
      intro steps others value value' last apart h
      obtain ⟨after, hafter, hlast⟩ := DataFlow.bind_eq_ok.mp h
      exact DataFlow.bind_eq_ok.mpr (write_swap apart hafter hlast)
    -- If one order succeeds so does the other, so neither comes to nothing alone.
    cases both : Counting.checked.write path.steps document value >>= fun after =>
        Counting.checked.write other.steps after value' with
    | ok last => exact Or.inl ⟨last, rfl, swap apart both⟩
    | error halt =>
        refine Or.inr ⟨⟨halt, rfl⟩, ?_⟩
        cases swapped : Counting.checked.write other.steps document value' >>= fun after =>
            Counting.checked.write path.steps after value with
        | ok last => cases both.symm.trans (swap apart.symm swapped)
        | error halt' => exact ⟨halt', rfl⟩

/-- To write the third count pads the list of counts, in which the first one is then null; the name stays. -/
theorem inject_apart_counts :
    let document : Json := .obj [("counts", .arr []), ("name", .str "n")]
    let third : Path := ⟨.data, [.field "counts", .index 2]⟩
    let first : Path := ⟨.data, [.field "counts", .index 0]⟩
    let name : Path := ⟨.data, [.field "name"]⟩
    let after : Json := .obj [("counts", .arr [.null, .null, .int 7]), ("name", .str "n")]
    third.inject document (.int 7) = .ok after ∧ name.select? after = some (.str "n") ∧
      first.select? document = none ∧ first.select? after = some .null ∧
      ∃ last, (do first.inject (← third.inject document (.int 7)) (.int 5)) = .ok last ∧
        (do third.inject (← first.inject document (.int 5)) (.int 7)) = .ok last := by
  intro document third first name after
  have written : third.inject document (.int 7) = .ok after := rfl
  have apart : Diverges third.steps first.steps := ⟨[.field "counts"], .index 2, .index 0, [], [], rfl, rfl, by decide⟩
  have apart' : Diverges third.steps name.steps :=
    ⟨[], .field "counts", .field "name", [.index 2], [], rfl, rfl, by decide⟩
  obtain ⟨counts, ⟨last, both, swapped⟩ | ⟨⟨_, refused⟩, -⟩⟩ :=
    inject_apart third first (by decide) (by decide) apart document (.int 7) (.int 5)
  · obtain ⟨names, -⟩ := inject_apart third name (by decide) (by decide) apart' document (.int 7) .null
    exact ⟨written, (names after written).1 _ rfl, rfl, rfl, last, both, swapped⟩
  · cases refused

end Workflow.Path
