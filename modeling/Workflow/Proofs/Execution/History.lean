import Workflow.Proofs.Execution.Lineage

/-!
# `Workflow.Proofs.Execution.History` — what each activation has told

The log of a run mixes the notes of all activations.  Since no two of them have the same name, the notes of one can be
told apart from those of all others, at any time and for good; so whatever its own turns keep of its notes holds of
the part of the log that bears its name.

## Contents
- **Views.** `shown`, what a view shows of the notes of an activation.
- **Errands.** `Activation.errand?`, what an activation was begun for.
- **Stories.** `Lasting`, a property of what an activation has told that its turns keep, and `Story`, one that holds from
  the beginning on.
- **The tree.** `Fresh`: nothing has been told of jobs still to begin; `Logged`, the story of everything under way,
  and `Logged.act`.
- **Endings.** `Followed`: an activation is still at its place, or nothing is ever added to what it has told.
- **Runs.** `logged_of_play`, the story of everything under way in a run, and `followed_play`.
-/

namespace Workflow.Execution

variable {β : Type} {view : Note → Option β} {host : Host} {moment : Moment} {signal : Signal}

/-! ## Views -/

/-- What a view shows of the notes of an activation, in the order of their making. -/
def shown (view : Note → Option β) (log : List Entry) (id : Id) : List β :=
  log.reverse.filterMap fun entry => if entry.activation = id then view entry.note else none

theorem shown_append (more log : List Entry) (id : Id) :
    shown view (more ++ log) id = shown view log id ++ shown view more id := by
  simp [shown]

/-- What others note down is not shown. -/
theorem shown_of_others {entries : List Entry} {id : Id}
    (h : ∀ entry ∈ entries, entry.activation = id → view entry.note = none) : shown view entries id = [] := by
  refine List.filterMap_eq_nil_iff.mpr fun entry hentry => ?_
  split
  · rename_i same
    exact h entry (List.mem_reverse.mp hentry) same
  · rfl

theorem shown_own (notes : List Note) (id : Id) :
    shown view (notes.map fun note => (⟨id, note⟩ : Entry)).reverse id = notes.filterMap view := by
  simp [shown, List.filterMap_map]

/-! ## Errands -/

/-- What an activation was begun for: to run a graph on an input. -/
structure Errand where
  graph : Graph
  input : Json

namespace Activation

/-- The errand of the job at an index. -/
def jobErrand? (activation : Activation) (index : Nat) : Option Errand :=
  match activation.phase with
  | .fanning _ fanOut => (fanOut.jobs[index]?).bind fun job => job.input.toOption.map (⟨job.graph, ·⟩)
  | _ => none

/-- The errand of the activation at a place, given that of the outermost one. -/
def errand? (errand : Errand) : Place → Activation → Option Errand
  | [], _ => some errand
  | index :: place, activation =>
    (activation.jobErrand? index).bind fun next => (activation.child? index).bind (errand? next place)

end Activation

/-! ## Stories -/

/-- A property of what an activation tells that is kept by its turns and by what happens inside it. -/
structure Lasting (host : Host) (view : Note → Option β) (R : List β → Activation → Prop) : Prop where
  turned : ∀ {told activation moment signal turn}, R told activation →
    activation.respond host moment signal = some turn → R (told ++ turn.notes.filterMap view) turn.activation
  within : ∀ {told activation after moment signal index place entries}, R told activation →
    activation.act host moment signal (index :: place) = some (after, entries) → R told after

/-- Whoever acts inside an activation, a lasting property of what it has told lasts. -/
theorem Lasting.act {R : List β → Activation → Prop} (lasting : Lasting host view R) {place : Place}
    {activation after : Activation} {entries : List Entry} {told : List β} (named : activation.Named)
    (hact : activation.act host moment signal place = some (after, entries)) (h : R told activation) :
    R (told ++ shown view entries.reverse activation.frame.id) after := by
  cases place with
  | nil =>
      obtain ⟨turn, hturn, rfl, rfl⟩ := Activation.act_nil hact
      rw [shown_own]
      exact lasting.turned h hturn
  | cons index place =>
      have here : activation.at? [] = some activation := rfl
      have others := named.silent here hact (by simp)
      rw [shown_of_others fun entry hentry same => absurd same (others entry (List.mem_reverse.mp hentry)),
        List.append_nil]
      exact lasting.within h hact

/-- A property of what an activation has told on its errand, which holds at the beginning, lasts, and survives that the
    activation is given up. -/
structure Story (host : Host) (view : Note → Option β) (P : Errand → List β → Activation → Prop) : Prop where
  begun : ∀ id context chance (errand : Errand),
    P errand [] (.begin id errand.graph context errand.input chance)
  lasting : ∀ errand, Lasting host view (P errand)
  givenUp : ∀ {errand told activation}, P errand told activation → P errand told activation.givenUp

/-- A view that shows nothing about a run as a whole. -/
structure IsInner (view : Note → Option β) : Prop where
  started : ∀ input, view (.event (.runStarted input)) = none
  settled : ∀ (settlement : Settlement) millis, ∀ entry ∈ settlement.entries millis, view entry.note = none

/-- What is noted down about the run as a whole is not shown. -/
theorem shown_closing (inner : IsInner view) {closing log : List Entry} {id : Id}
    (last : ∀ entry ∈ closing, Run.Closing entry) : shown view (closing ++ log) id = shown view log id := by
  have silent : ∀ entry ∈ closing, entry.activation = id → view entry.note = none := by
    intro entry hentry _
    obtain ⟨settlement, millis, noted⟩ := last entry hentry
    exact inner.settled settlement millis entry noted
  rw [shown_append, shown_of_others silent, List.append_nil]

/-! ## The tree -/

variable {P : Errand → List β → Activation → Prop}

/-- Under the name of an activation, the log tells only of jobs that have been begun. -/
def Fresh (log : List Entry) (activation : Activation) : Prop :=
  ∀ entry ∈ log, ∀ (origin : Origin) (rest : List Origin),
    entry.activation = activation.frame.id ++ origin :: rest → origin.Before activation.horizon

/-- Nothing has been told under an origin that has not been given. -/
theorem Fresh.silent {log : List Entry} {activation : Activation} {origin : Origin} (h : Fresh log activation)
    (fresh : ¬ origin.Before activation.horizon) :
    ∀ entry ∈ log, ¬ activation.frame.id ++ [origin] <+: entry.activation := by
  rintro entry hentry ⟨rest, hname⟩
  rw [List.append_assoc] at hname
  exact fresh (h entry hentry origin rest hname.symm)

/-- Whoever acts tells something only under origins that had been given before. -/
theorem Fresh.acted {log : List Entry} {place : Place} {activation after : Activation} {entries : List Entry}
    (h : Fresh log activation) (named : activation.Named)
    (hact : activation.act host moment signal place = some (after, entries)) :
    Fresh (entries.reverse ++ log) activation := by
  intro entry hentry origin rest hname
  rcases List.mem_append.mp hentry with new | old
  · have new := List.mem_reverse.mp new
    cases place with
    | nil =>
        obtain ⟨actor, hactor, authored⟩ := Activation.author_of_act hact
        cases hactor
        have longer := (authored entry new).symm.trans hname
        simp at longer
    | cons index place =>
        obtain ⟨origin', path, -, given, owned⟩ := named.author_inside hact
        have same := List.append_cancel_left ((owned entry new).symm.trans hname)
        obtain ⟨rfl, -⟩ := List.cons.inj same
        exact given
  · exact h entry old origin rest hname

theorem Fresh.act {log : List Entry} {place : Place} {activation after : Activation} {entries : List Entry}
    (h : Fresh log activation) (named : activation.Named)
    (hact : activation.act host moment signal place = some (after, entries)) : Fresh (entries.reverse ++ log) after := by
  intro entry hentry origin rest hname
  rw [(Activation.frame_of_act hact).1] at hname
  exact Activation.horizon_of_act hact (h.acted named hact entry hentry origin rest hname)

/-- The story of an activation on its errand and of everything inside it, as the log shows it. -/
structure Logged (view : Note → Option β) (P : Errand → List β → Activation → Prop) (log : List Entry)
    (errand : Errand) (activation : Activation) : Prop where
  fresh : activation.Everywhere (Fresh log)
  told : ∀ place inner, activation.at? place = some inner → ∃ own, activation.errand? errand place = some own ∧
    P own (shown view log inner.frame.id) inner

section Tree

variable {log : List Entry} {errand : Errand}

theorem Logged.self {activation : Activation} (h : Logged view P log errand activation) :
    P errand (shown view log activation.frame.id) activation := by
  obtain ⟨own, e, hown⟩ := h.told [] activation rfl
  cases e
  exact hown

theorem Logged.child {activation child : Activation} {index : Nat} (h : Logged view P log errand activation)
    (hchild : activation.child? index = some child) :
    ∃ next, activation.jobErrand? index = some next ∧ Logged view P log next child := by
  obtain ⟨own, e, -⟩ := h.told [index] child (by simp [Activation.at?, hchild])
  obtain ⟨next, hnext, -⟩ := Option.bind_eq_some_iff.mp e
  refine ⟨next, hnext, h.fresh.child hchild, fun place inner hinner => ?_⟩
  obtain ⟨own, e, hown⟩ := h.told (index :: place) inner (by simp [Activation.at?, hchild, hinner])
  refine ⟨own, ?_, hown⟩
  simpa [Activation.errand?, hnext, hchild] using e

theorem logged_of_children {activation : Activation} (fresh : Fresh log activation)
    (self : P errand (shown view log activation.frame.id) activation)
    (children : ∀ index child, activation.child? index = some child →
      ∃ next, activation.jobErrand? index = some next ∧ Logged view P log next child) :
    Logged view P log errand activation := by
  refine ⟨Activation.everywhere_of_children fresh fun index child hchild => ?_, fun place inner hinner => ?_⟩
  · obtain ⟨next, -, logged⟩ := children index child hchild
    exact logged.fresh
  · cases place with
    | nil =>
        cases hinner
        exact ⟨errand, rfl, self⟩
    | cons index place =>
        obtain ⟨child, hchild, below⟩ := Option.bind_eq_some_iff.mp hinner
        obtain ⟨next, hnext, logged⟩ := children index child hchild
        obtain ⟨own, hown, told⟩ := logged.told place inner below
        exact ⟨own, by simp [Activation.errand?, hnext, hchild, hown], told⟩

/-- What is noted down elsewhere changes nothing. -/
theorem Logged.elsewhere {activation : Activation} {entries : List Entry} (h : Logged view P log errand activation)
    (named : activation.Named)
    (apart : ∀ entry ∈ entries, ¬ activation.frame.id <+: entry.activation) :
    Logged view P (entries ++ log) errand activation := by
  have apart' : ∀ {place inner}, activation.at? place = some inner →
      ∀ entry ∈ entries, ¬ inner.frame.id <+: entry.activation := by
    intro place inner hinner entry hentry hname
    obtain ⟨path, hpath, -⟩ := named.path hinner
    exact apart entry hentry ((hpath ▸ List.prefix_append _ _).trans hname)
  refine ⟨fun place inner hinner entry hentry origin rest hname => ?_, fun place inner hinner => ?_⟩
  · rcases List.mem_append.mp hentry with new | old
    · exact absurd (hname ▸ List.prefix_append _ _) (apart' hinner entry new)
    · exact h.fresh place inner hinner entry old origin rest hname
  · obtain ⟨own, hown, told⟩ := h.told place inner hinner
    refine ⟨own, hown, ?_⟩
    rw [shown_append, shown_of_others fun entry hentry same =>
      absurd (same ▸ List.prefix_refl _) (apart' hinner entry hentry), List.append_nil]
    exact told

/-- The story of what has just begun, under whose name nothing has been told. -/
theorem Story.logged_begin (story : Story host view P) {id : Id} {context : Json} {chance : Chance}
    (silent : ∀ entry ∈ log, ¬ id <+: entry.activation) :
    Logged view P log errand (.begin id errand.graph context errand.input chance) := by
  refine logged_of_children (fun entry hentry origin rest hname => ?_) ?_ fun _ _ hnone => by cases hnone
  · exact absurd (hname ▸ List.prefix_append _ _) (silent entry hentry)
  · have untold : shown view log id = [] :=
      shown_of_others fun entry hentry same => absurd (same ▸ List.prefix_refl _) (silent entry hentry)
    show P errand (shown view log id) _
    rw [untold]
    exact story.begun id context chance errand

/-- After a turn, the stories of the jobs that were under way before go on, and those of the new jobs begin. -/
theorem Logged.respond (story : Story host view P) {activation after child : Activation} {entries : List Entry}
    {index : Nat} (h : Logged view P log errand activation) (named : activation.Named)
    (hact : activation.act host moment signal [] = some (after, entries)) (hchild : after.child? index = some child) :
    ∃ next, after.jobErrand? index = some next ∧ Logged view P (entries.reverse ++ log) next child := by
  obtain ⟨turn, hturn, rfl, -⟩ := Activation.act_nil hact
  rcases child_of_respond hturn hchild with
    ⟨frame, attempt, held, fanOut, rfl, e, same, old⟩ |
    ⟨frame, attempt, fanOut, job, input, e, hjob, hinput, rfl, fresh⟩
  · obtain ⟨next, hnext, logged⟩ := h.child old
    refine ⟨next, ?_, logged.elsewhere (named.child old) fun entry hentry hname => ?_⟩
    · rw [e]
      simpa [Activation.jobErrand?, Activation.phase, same] using hnext
    · -- The holder tells under its own name, which is shorter than that of any job.
      obtain ⟨actor, hactor, authored⟩ := Activation.author_of_act hact
      cases hactor
      obtain ⟨origin, -, -, childName⟩ := named.self.job old
      rw [authored entry (List.mem_reverse.mp hentry), childName] at hname
      simpa using hname.length_le
  · have sameName : frame.id = activation.frame.id := by
      rw [← (respond_continues hturn).id, e]
      rfl
    -- A job that has just begun has a name under which nothing has been told.
    have silent := (h.fresh.self.acted named hact).silent fresh
    rw [← sameName] at silent
    refine ⟨⟨job.graph, input⟩, ?_, story.logged_begin silent⟩
    rw [e]
    simp [Activation.jobErrand?, Activation.phase, hjob, hinput, Except.toOption]

/-- **Whoever acts, every story goes on.** -/
theorem Logged.act (story : Story host view P) : ∀ {place : Place} {activation after : Activation} {entries : List Entry}
    {errand : Errand}, Logged view P log errand activation → activation.Named →
    activation.act host moment signal place = some (after, entries) →
    Logged view P (entries.reverse ++ log) errand after := by
  intro place
  induction place with
  | nil =>
      intro activation after entries errand h named hact
      refine logged_of_children (h.fresh.self.act named hact) ?_ fun _ _ => h.respond story named hact
      rw [(Activation.frame_of_act hact).1, shown_append]
      exact (story.lasting errand).act named hact h.self
  | cons index place ih =>
      intro activation after entries errand h named hact
      refine logged_of_children (h.fresh.self.act named hact) ?_ fun other found hfound => ?_
      · rw [(Activation.frame_of_act hact).1, shown_append]
        exact (story.lasting errand).act named hact h.self
      · obtain ⟨origin, path, rfl, -, owned⟩ := named.author_inside hact
        obtain ⟨frame, attempt, fanOut, child, child', rfl, hchild, hinner, rfl⟩ := Activation.act_cons hact
        -- The log goes on for the job in which somebody acts, and the other jobs are told nothing of it.
        rcases FanOut.child?_of_replace hchild hfound with ⟨rfl, rfl⟩ | ⟨different, hfound⟩
        · obtain ⟨next, hnext, logged⟩ := h.child hchild
          exact ⟨next, hnext, ih logged (named.child hchild) hinner⟩
        · obtain ⟨next, hnext, logged⟩ := h.child hfound
          refine ⟨next, hnext, logged.elsewhere (named.child hfound) fun entry hentry hname => ?_⟩
          rw [owned entry (List.mem_reverse.mp hentry), named.self.2 other found hfound] at hname
          have aligned := (List.prefix_append_right_inj _).mp hname
          exact different (congrArg Origin.index (List.cons_prefix_cons.mp aligned).1)

/-- Who is given up tells nothing more. -/
theorem Logged.givenUp (story : Story host view P) {activation : Activation}
    (h : Logged view P log errand activation) : Logged view P log errand activation.givenUp := by
  have kept : activation.givenUp.frame = activation.frame := by
    cases activation
    rfl
  refine logged_of_children (fun entry hentry origin rest hname => ?_) ?_ fun index child hchild => ?_
  · exact Activation.horizon_givenUp (h.fresh.self entry hentry origin rest (kept ▸ hname))
  · rw [kept]
    exact story.givenUp h.self
  · cases activation
    cases hchild

/-- What is noted down about the run as a whole is no part of a story. -/
theorem Logged.closing (inner : IsInner view) {activation : Activation} {closing : List Entry}
    (h : Logged view P log errand activation) (last : ∀ entry ∈ closing, Run.Closing entry) :
    Logged view P (closing ++ log) errand activation := by
  refine ⟨fun place below hbelow entry hentry origin rest hname => ?_, fun place below hbelow => ?_⟩
  · rcases List.mem_append.mp hentry with new | old
    · rw [(last entry new).activation] at hname
      simp at hname
    · exact h.fresh place below hbelow entry old origin rest hname
  · obtain ⟨own, hown, told⟩ := h.told place below hbelow
    refine ⟨own, hown, ?_⟩
    rw [shown_closing inner last]
    exact told

end Tree

/-! ## Endings -/

/-- **Whoever is under way** acts, or something inside acts; or someone else does, and the activation is still there, or
    its name is spent. -/
theorem Activation.Named.followed : ∀ {place target : Place} {activation after inner : Activation} {entries : List Entry}
    {path : List Origin}, activation.Named → activation.at? place = some inner →
    inner.frame.id = activation.frame.id ++ path → activation.act host moment signal target = some (after, entries) →
    (∃ rest inner', inner.act host moment signal rest = some (inner', entries) ∧ after.at? place = some inner') ∨
    ((∀ entry ∈ entries, entry.activation ≠ inner.frame.id) ∧
      (after.at? place = some inner ∨ after.Spent path)) := by
  intro place
  induction place with
  | nil =>
      intro target activation after inner entries path _ hinner _ hact
      cases hinner
      exact Or.inl ⟨target, after, hact, rfl⟩
  | cons index place ih =>
      intro target activation after inner entries path named hinner hpath hact
      have silent := named.silent hinner hact
      obtain ⟨child, origin, more, rfl, hchild, below, given, -, hmore, innerName⟩ := named.inside hinner
      obtain rfl : path = origin :: more := List.append_cancel_left (hpath.symm.trans innerName)
      cases target with
      | nil =>
          obtain ⟨turn, hturn, rfl, -⟩ := act_nil hact
          refine Or.inr ⟨silent (by simp), ?_⟩
          -- The holder has its turn: it keeps the job on the way, or has spent the name of it.
          by_cases still : turn.activation.child? origin.index = some child
          · exact Or.inl (Option.bind_eq_some_iff.mpr ⟨child, still, below⟩)
          · refine Or.inr ⟨(respond_continues hturn).horizon origin given, fun found hfound hname => ?_⟩
            cases hchild.symm.trans (underWay_of_given given hturn hfound hname)
            exact absurd hfound still
      | cons other target =>
          obtain ⟨frame, attempt, fanOut, acting, acting', rfl, hacting, hinside, rfl⟩ := act_cons hact
          have replaced := FanOut.child?_replace (f := fanOut) other origin.index acting'
          -- Somebody acts inside a job, which is the one on the way or another one.
          by_cases same : origin.index = other
          · subst same
            cases hchild.symm.trans hacting
            rw [if_pos rfl, hacting] at replaced
            rcases ih (named.child hchild) below hmore hinside with
              ⟨rest, inner', hrest, hafter⟩ | ⟨others, still | spent⟩
            · exact Or.inl ⟨rest, inner', hrest, Option.bind_eq_some_iff.mpr ⟨acting', replaced, hafter⟩⟩
            · exact Or.inr ⟨others, Or.inl (Option.bind_eq_some_iff.mpr ⟨acting', replaced, still⟩)⟩
            · refine Or.inr ⟨others, Or.inr ⟨given, fun found hfound _ => ?_⟩⟩
              cases replaced.symm.trans hfound
              exact spent
          · rw [if_neg same] at replaced
            exact Or.inr ⟨silent fun e => same (List.cons.inj e).1.symm, Or.inl (Option.bind_eq_some_iff.mpr
              ⟨child, replaced.trans hchild, below⟩)⟩

/-- An activation is still at its place, or its name is spent; either way the property holds of what it has told. -/
def Followed (view : Note → Option β) (R : List β → Activation → Prop) (place : Place) (id : Id) (log : List Entry)
    (outermost : Activation) : Prop :=
  (∃ last, outermost.at? place = some last ∧ last.frame.id = id ∧ R (shown view log id) last) ∨
    (outermost.Spent id ∧ ∃ last, R (shown view log id) last)

/-- Whoever acts, the property lasts. -/
theorem Followed.act {R : List β → Activation → Prop} (lasting : Lasting host view R) {place target : Place} {id : Id}
    {log : List Entry} {outermost after : Activation} {entries : List Entry} (named : outermost.Named)
    (root : outermost.frame.id = []) (h : Followed view R place id log outermost)
    (hact : outermost.act host moment signal target = some (after, entries)) :
    Followed view R place id (entries.reverse ++ log) after := by
  unfold Followed
  rw [shown_append]
  rcases h with ⟨last, hlast, rfl, hR⟩ | ⟨spent, last, hR⟩
  · rcases named.followed hlast (by rw [root]; rfl) hact with ⟨rest, last', hrest, hafter⟩ | ⟨others, still⟩
    · exact Or.inl ⟨last', hafter, (Activation.frame_of_act hrest).1,
        lasting.act (named.inner hlast) hrest hR⟩
    · rw [shown_of_others fun entry hentry same => absurd same (others entry (List.mem_reverse.mp hentry)),
        List.append_nil]
      exact still.imp (fun still => ⟨last, still, rfl, hR⟩) fun spent => ⟨spent, last, hR⟩
  · have silent := spent.silent named hact
    rw [root, List.nil_append] at silent
    rw [shown_of_others fun entry hentry same =>
      absurd (same ▸ List.prefix_refl _) (silent entry (List.mem_reverse.mp hentry)), List.append_nil]
    exact Or.inr ⟨spent.act hact, last, hR⟩

/-- When all is given up, the names of all jobs are spent. -/
theorem Followed.givenUp {R : List β → Activation → Prop} {index : Nat} {place : Place} {id : Id} {log : List Entry}
    {outermost : Activation} (named : outermost.Named) (root : outermost.frame.id = [])
    (h : Followed view R (index :: place) id log outermost) :
    Followed view R (index :: place) id log outermost.givenUp := by
  rcases h with ⟨last, hlast, rfl, hR⟩ | ⟨spent, last, hR⟩
  · obtain ⟨_, origin, more, -, -, -, given, -, -, lastName⟩ := named.inside hlast
    rw [root, List.nil_append] at lastName
    exact Or.inr ⟨lastName ▸ Activation.spent_givenUp (Activation.horizon_givenUp given), last, hR⟩
  · exact Or.inr ⟨spent.givenUp, last, hR⟩

theorem Followed.closing {R : List β → Activation → Prop} (inner : IsInner view) {place : Place} {id : Id}
    {log closing : List Entry} {outermost : Activation} (h : Followed view R place id log outermost)
    (last : ∀ entry ∈ closing, Run.Closing entry) : Followed view R place id (closing ++ log) outermost := by
  unfold Followed
  rw [shown_closing inner last]
  exact h

/-! ## Runs -/

/-- The errand of a run: to run the graph of the definition on the input. -/
def Setup.errand (setup : Setup) : Errand := ⟨setup.definition.graph, setup.input⟩

namespace Run

variable {setup : Setup} {run after : Run}

theorem logged_start (story : Story host view P) (inner : IsInner view) (setup : Setup) :
    Logged view P (start setup).log setup.errand (start setup).outermost := by
  have silent : ∀ entry ∈ (start setup).log, entry.activation = [] → view entry.note = none := by
    intro entry hentry _
    rw [List.mem_singleton.mp hentry]
    exact inner.started setup.input
  refine logged_of_children (fun entry hentry origin rest hname => ?_) ?_ fun _ _ hnone => nomatch hnone
  · rw [List.mem_singleton.mp hentry] at hname
    simp [start, Activation.begin, Activation.frame] at hname
  · show P setup.errand (shown view (start setup).log []) _
    rw [shown_of_others silent]
    exact story.begun [] (startContext setup) setup.chance setup.errand

theorem logged_move (story : Story setup.host view P) (inner : IsInner view) {next : Move} (named : run.Named)
    (h : Logged view P run.log setup.errand run.outermost) (hmove : run.move setup next = some after) :
    Logged view P after.log setup.errand after.outermost := by
  rcases move_effect hmove with
    ⟨same, sameLog⟩ | ⟨closing, last, same, hlog⟩ | ⟨place, signal, entries, closing, -, hact, last, hlog⟩
  · rw [same, sameLog]
    exact h
  · rw [same, hlog]
    exact (h.givenUp story).closing inner last
  · rw [hlog]
    exact (h.act story named.names hact).closing inner last

/-- **The story of everything under way in a run,** at any depth, is what the log shows. -/
theorem logged_of_play (story : Story setup.host view P) (inner : IsInner view) {moves : List Move}
    (played : (start setup).play setup moves = some run) :
    Logged view P run.log setup.errand run.outermost := by
  have kept : run.Named ∧ Logged view P run.log setup.errand run.outermost := by
    refine play_induct (P := fun r => r.Named ∧ Logged view P r.log setup.errand r.outermost) ?_
      ⟨named_start setup, logged_start story inner setup⟩ played
    rintro next before following ⟨named, logged⟩ hmove
    exact ⟨named.move hmove, logged_move story inner named logged hmove⟩
  exact kept.2

end Run

end Workflow.Execution
