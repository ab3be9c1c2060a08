import Workflow.Definition.Encode
import Workflow.Definition.Decode
import Workflow.Proofs.Choice.Rule
import Workflow.Proofs.Datum.Restore

/-!
# `Workflow.Proofs.Definition.Parts` — the parts of definitions are restored

The fields of states come in a few forms.  Each is read in one way and written in one way; what is left out when it is
written is the default of what is read.

## Contents
- **Fields.** What is written for a field, `written` for path settings, lists and flags, and that it is restored:
  `restored_text`, `restored_nat64`, `restored_any`, `restored_pathField`, `restored_list` and `restored_flag`.
- **Entries.** The entries of a field have the key of the field and what is written for it.
- **Rules for failures.** `restores_retrier`, `restores_catcher` and `restored_recovery`.
- **Transitions and choice rules.** `restored_transition` and `restores_rule`.
-/

namespace Workflow

open Datum (Record asText asNat64 asNat32 asFlag asDouble asList asAny Restores)
open Datum.Record (Restored RestoredBoth Whole Drawn)
open Definition (Reading)
open Json (Sound)

variable {record : Record} {depth i : Nat} (bound : Nat)

/-! ## Fields -/

theorem restored_text {x : Option String} (drawn : record.Drawn depth)
    (given : (record.optional i asText : Reading _).Gives x) :
    Restored depth bound i (fun record => (record.optional i asText : Reading _)) x (x.map .str) :=
  Datum.Record.restored_optional (Datum.restores_asText bound) drawn (fun _ _ _ _ _ => Json.noConfusion) given

theorem restored_nat64 {x : Option Nat} (drawn : record.Drawn depth)
    (given : (record.optional i asNat64 : Reading _).Gives x) :
    Restored depth bound i (fun record => (record.optional i asNat64 : Reading _)) x (x.map fun n : Nat => .int n) :=
  Datum.Record.restored_optional (Datum.restores_asNat bound (Nat.le_refl _)) drawn
    (fun _ _ _ _ _ => Json.noConfusion) given

theorem restored_nat32 {x : Option Nat} (drawn : record.Drawn depth)
    (given : (record.optional i asNat32 : Reading _).Gives x) :
    Restored depth bound i (fun record => (record.optional i asNat32 : Reading _)) x (x.map fun n : Nat => .int n) :=
  Datum.Record.restored_optional (Datum.restores_asNat bound (by decide)) drawn
    (fun _ _ _ _ _ => Json.noConfusion) given

/-- A value that is not null is not null in canonical form either. -/
theorem canonical_ne_null {value : Json} (h : value ≠ .null) : value.canonical ≠ .null := by
  cases value with
  | null => exact absurd rfl h
  | _ => exact Json.noConfusion

theorem restored_any {x : Option Json} (drawn : record.Drawn depth)
    (given : (record.optional i asAny : Reading _).Gives x) :
    Restored depth bound i (fun record => (record.optional i asAny : Reading _)) x x := by
  have restored := Datum.Record.restored_optional (Datum.restores_asAny bound) drawn (fun value y isValue hy sound => by
    rw [← (Datum.gives_asAny sound).mp hy]
    exact canonical_ne_null isValue) given
  rwa [Option.map_id, id_eq] at restored

/-- What is written for a path setting, unless it is absent. -/
def Path.Setting.written : Path.Setting → Option Json
  | .whole => none
  | .nothing => some .null
  | .path text => some (.str text)

theorem restored_pathField {x : Path.Setting} (drawn : record.Drawn depth) (given : (pathField record i).Gives x) :
    Restored depth bound i (pathField · i) x x.written := by
  refine Datum.Record.restored_withDefault Path.Setting.written drawn given (fun value sound hvalue written e => ?_)
    (fun written e => by cases e) fun e => ?_
  · cases value with
    | null =>
        obtain rfl := Datum.Reading.gives_pure.mp hvalue
        cases e
        exact ⟨trivial, Nat.zero_le _, fun _ => Datum.Reading.gives_pure.mpr rfl⟩
    | str text =>
        obtain ⟨own, hown, rfl⟩ := Datum.Reading.gives_map.mp hvalue
        obtain rfl := Datum.Reading.gives_pure.mp hown
        cases e
        exact ⟨trivial, Nat.zero_le _, fun _ => hvalue⟩
    | _ =>
        obtain ⟨own, hown, rfl⟩ := Datum.Reading.gives_map.mp hvalue
        exact (Datum.Reading.not_gives_mismatch hown).elim
  · cases x with
    | whole => rfl
    | _ => cases e

/-- What is written for a list, unless it is empty. -/
def listWritten {α : Type} (write : α → Json) : List α → Option Json
  | [] => none
  | items => some (.arr (items.map write))

theorem restored_list {α : Type} {bound : Nat} {first again : Datum → Reading α} {write : α → Json} {xs : List α}
    (h : Restores bound first again write) (drawn : record.Drawn depth)
    (given : (record.withDefault i [] (asList first)).Gives xs) :
    Restored depth bound i (fun record => record.withDefault i [] (asList again)) xs (listWritten write xs) := by
  refine Datum.Record.restored_withDefault (listWritten write) drawn given (fun value sound hvalue written e => ?_)
    (fun written e => by cases e) fun e => ?_
  · cases xs with
    | nil => cases e
    | cons x rest =>
        cases e
        exact Datum.restores_asList h value _ sound hvalue
  · cases xs with
    | nil => rfl
    | cons x rest => cases e

/-- What is written for a flag, unless it is false. -/
def flagWritten (flag : Bool) : Option Json := if flag then some (.bool true) else none

theorem restored_flag {flag : Bool} (drawn : record.Drawn depth)
    (given : (record.withDefault i false asFlag : Reading _).Gives flag) :
    Restored depth bound i (fun record => (record.withDefault i false asFlag : Reading _)) flag (flagWritten flag) := by
  refine Datum.Record.restored_withDefault flagWritten drawn given (fun value sound hvalue written e => ?_)
    (fun written e => by cases e) fun e => ?_
  · cases flag with
    | false => cases e
    | true =>
        cases e
        exact ⟨trivial, Nat.zero_le _, fun _ => Datum.Reading.gives_pure.mpr rfl⟩
  · cases flag with
    | false => rfl
    | true => cases e

/-! ## Entries -/

theorem optionalEntry_eq {α : Type} (key : String) (write : α → Json) (value : Option α) :
    optionalEntry key write value = ((value.map write).map (key, ·)).toList := by
  cases value <;> rfl

theorem textEntry_eq (key : String) (value : Option String) :
    textEntry key value = ((value.map Json.str).map (key, ·)).toList := optionalEntry_eq key _ value

theorem natEntry_eq (key : String) (value : Option Nat) :
    natEntry key value = ((value.map fun n : Nat => Json.int n).map (key, ·)).toList := optionalEntry_eq key _ value

theorem anyEntry_eq (key : String) (value : Option Json) : anyEntry key value = (value.map (key, ·)).toList := by
  cases value <;> rfl

theorem pathEntry_eq (key : String) (setting : Path.Setting) :
    pathEntry key setting = (setting.written.map (key, ·)).toList := by
  cases setting <;> rfl

theorem listEntry_eq {α : Type} (key : String) (write : α → Json) (items : List α) :
    listEntry key write items = ((listWritten write items).map (key, ·)).toList := by
  cases items <;> rfl

theorem endEntry_eq (flag : Bool) :
    (if flag then [("End", Json.bool true)] else []) = ((flagWritten flag).map ("End", ·)).toList := by
  cases flag <;> rfl

/-! ## Rules for failures -/

theorem restores_jitter (empties : Bool) :
    Restores bound (Jitter.read empties) (Jitter.read empties) fun jitter => .str jitter.name := by
  intro value jitter _ _
  refine ⟨trivial, Nat.zero_le _, fun _ => ?_⟩
  cases jitter <;> exact Datum.Reading.gives_pure.mpr rfl

theorem gives_asDouble_finite {value : Json} {rate : Float} (sound : value.Leaves Sound)
    (given : (asDouble (.ofJson value) : Reading _).Gives rate) : rate.isFinite = true := by
  cases value with
  | int n =>
      obtain rfl := Datum.Reading.gives_pure.mp given
      exact Decimal.isFinite_ofInt sound.1 sound.2
  | float x =>
      obtain rfl := Datum.Reading.gives_pure.mp given
      exact sound
  | _ => exact (Datum.Reading.not_gives_mismatch given).elim

/-- A finite rate is restored. -/
theorem restored_rate {rate : Float} (finite : rate.isFinite = true) :
    Datum.Restored bound (asDouble : Datum → Reading _) depth rate (rateToJson rate) := by
  rw [rateToJson, if_pos finite]
  exact ⟨finite, Nat.zero_le _, fun _ => Datum.Reading.gives_pure.mpr rfl⟩

theorem restores_rate : Restores bound (asDouble : Datum → Reading Float) asDouble rateToJson :=
  fun _ _ sound given => restored_rate bound (gives_asDouble_finite sound given)

theorem restores_retrier (empties : Bool) :
    Restores bound (Retrier.read empties) (Retrier.read empties) Retrier.toJson := by
  intro value retrier sound given
  obtain ⟨record, hrecord, -, hbody⟩ := Datum.Record.gives_read.mp given
  have drawn := Datum.Record.drawn_of? sound hrecord
  simp only [Datum.Reading.gives_seq, Datum.Reading.gives_map] at hbody
  obtain ⟨_, jitter, ⟨_, maxDelay, ⟨_, rate, ⟨_, attempts, ⟨_, interval, ⟨errors, herrors, rfl⟩, hinterval, rfl⟩,
    hattempts, rfl⟩, hrate, rfl⟩, hmaxDelay, rfl⟩, hjitter, rfl⟩ := hbody
  have number : ∀ {limit n : Nat}, limit ≤ 2 ^ 64 → n < limit →
      Datum.Restored bound (Datum.asNat limit : Datum → Reading _) 0 n (.int n) := by
    intro limit n small less
    refine ⟨⟨by omega, by omega⟩, Nat.zero_le _, fun _ => ?_⟩
    rw [Datum.ofJson, Datum.asNat, if_pos ⟨by omega, by omega⟩]
    exact Datum.Reading.gives_pure.mpr (Int.toNat_natCast n)
  have errors' := Datum.Record.restored_required (Datum.restores_asList (Datum.restores_asText bound)) drawn herrors
  have interval' := Datum.Record.restored_always (Datum.restores_asNat bound (Nat.le_refl _)) drawn hinterval
    (number (Nat.le_refl _) (by decide))
  have attempts' := Datum.Record.restored_always (Datum.restores_asNat bound (by decide)) drawn hattempts
    (number (by decide) (by decide))
  have rate' := Datum.Record.restored_always (restores_rate bound) drawn hrate (restored_rate bound (by decide +kernel))
  have maxDelay' := restored_nat64 bound drawn hmaxDelay
  have jitter' := Datum.Record.restored_always (restores_jitter bound empties) drawn hjitter
    ⟨trivial, Nat.zero_le _, fun _ => Datum.Reading.gives_pure.mpr rfl⟩
  refine Whole.restored (⟨rfl, ?fits, fun record holds => ?reads⟩ : Whole Retrier.fieldNames value.depth bound _ _
    [some (.arr (errors.map .str)), some (.int interval), some (.int attempts), some (rateToJson rate),
      maxDelay.map fun n : Nat => .int n, some (.str jitter.name)]) (by decide) drawn.positive (.of_eq ?written)
  case fits =>
    simp only [List.forall_mem_cons]
    exact ⟨errors'.fits, interval'.fits, attempts'.fits, rate'.fits, maxDelay'.fits, jitter'.fits,
      fun _ inside => absurd inside List.not_mem_nil⟩
  case reads =>
    exact (errors'.reads record (holds 0 _ rfl)).map _
      |>.seq (interval'.reads record (holds 1 _ rfl))
      |>.seq (attempts'.reads record (holds 2 _ rfl))
      |>.seq (rate'.reads record (holds 3 _ rfl))
      |>.seq (maxDelay'.reads record (holds 4 _ rfl))
      |>.seq (jitter'.reads record (holds 5 _ rfl))
  case written =>
    rw [natEntry_eq]
    rfl

theorem restores_catcher : Restores bound Catcher.read Catcher.read Catcher.toJson := by
  intro value catcher sound given
  obtain ⟨record, hrecord, -, hbody⟩ := Datum.Record.gives_read.mp given
  have drawn := Datum.Record.drawn_of? sound hrecord
  simp only [Datum.Reading.gives_seq, Datum.Reading.gives_map] at hbody
  obtain ⟨_, resultPath, ⟨_, next, ⟨errors, herrors, rfl⟩, hnext, rfl⟩, hresultPath, rfl⟩ := hbody
  have errors' := Datum.Record.restored_required (Datum.restores_asList (Datum.restores_asText bound)) drawn herrors
  have next' := Datum.Record.restored_required (Datum.restores_asText bound) drawn hnext
  have resultPath' := restored_pathField bound drawn hresultPath
  refine Whole.restored (⟨rfl, ?fits, fun record holds => ?reads⟩ : Whole Catcher.fieldNames value.depth bound _ _
    [some (.arr (errors.map .str)), some (.str next), resultPath.written]) (by decide) drawn.positive (.of_eq ?written)
  case fits =>
    simp only [List.forall_mem_cons]
    exact ⟨errors'.fits, next'.fits, resultPath'.fits, fun _ inside => absurd inside List.not_mem_nil⟩
  case reads =>
    exact (errors'.reads record (holds 0 _ rfl)).map _
      |>.seq (next'.reads record (holds 1 _ rfl))
      |>.seq (resultPath'.reads record (holds 2 _ rfl))
  case written =>
    rw [pathEntry_eq]
    simp only [Catcher.fieldNames, Datum.Record.entries, List.append_nil]
    rfl

theorem restored_recovery {retry catching : Nat} {x : Recovery} (drawn : record.Drawn depth)
    (given : (recoveryFields record retry catching).Gives x) :
    RestoredBoth depth bound retry catching (recoveryFields · retry catching) x (listWritten Retrier.toJson x.retriers)
      (listWritten Catcher.toJson x.catchers) := by
  simp only [recoveryFields, Datum.Reading.gives_seq, Datum.Reading.gives_map] at given
  obtain ⟨_, catchers, ⟨retriers, hretriers, rfl⟩, hcatchers, rfl⟩ := given
  have retriers' := restored_list (restores_retrier bound true) drawn hretriers
  have catchers' := restored_list (restores_catcher bound) drawn hcatchers
  exact retriers'.both catchers' Recovery.mk

theorem recoveryEntries_eq (recovery : Recovery) :
    recovery.entries = ((listWritten Retrier.toJson recovery.retriers).map ("Retry", ·)).toList
      ++ ((listWritten Catcher.toJson recovery.catchers).map ("Catch", ·)).toList := by
  rw [Recovery.entries, listEntry_eq, listEntry_eq]

/-! ## Transitions and choice rules -/

theorem restored_transition {next isEnd : Nat} {x : Transition} (drawn : record.Drawn depth)
    (given : (transitionFields record next isEnd).Gives x) :
    RestoredBoth depth bound next isEnd (transitionFields · next isEnd) x (x.next.map .str) (flagWritten x.isEnd) := by
  simp only [transitionFields, Datum.Reading.gives_seq, Datum.Reading.gives_map] at given
  obtain ⟨_, isEnd, ⟨next, hnext, rfl⟩, hisEnd, rfl⟩ := given
  have next' := restored_text bound drawn hnext
  have isEnd' := restored_flag bound drawn hisEnd
  exact next'.both isEnd' Transition.mk

theorem transitionEntries_eq (transition : Transition) :
    transition.entries = ((transition.next.map Json.str).map ("Next", ·)).toList
      ++ ((flagWritten transition.isEnd).map ("End", ·)).toList := by
  rw [Transition.entries, textEntry_eq, endEntry_eq]

theorem restores_rule : Restores bound Choice.Rule.read Choice.Rule.read Choice.Rule.toJson := by
  intro value rule sound given
  have rules : ∀ {value : Json}, value.Leaves Sound →
      Choice.Rule.read (.ofJson value) = .ofExcept (Choice.Rule.parse value.canonical) := by
    intro value sound
    rw [Choice.Rule.read, Datum.toJson?_ofJson sound]
  rw [rules sound, Datum.Reading.gives_ofExcept] at given
  obtain ⟨sound', shallow, canonical, again⟩ := Choice.Rule.restored_of_parse sound.canonical given
  refine ⟨sound', Nat.le_trans shallow (Json.depth_canonical_le value), fun _ => ?_⟩
  rw [rules sound', Json.canonical_of_canonical canonical, Datum.Reading.gives_ofExcept]
  exact again

end Workflow
