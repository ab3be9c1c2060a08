import Workflow.Proofs.Execution.Surroundings
import Workflow.Proofs.Template

/-!
# `Workflow.Proofs.Execution.Token` — which token of a task the templates of an attempt are told

A token is issued when the handler of a task is invoked, after the input of the invocation has been rendered.  It stays in
the context object up to the next invocation, or until the next state is entered.  So what renders a result is told the
token of its own attempt, and what renders an input is told that of an earlier one, if any attempt of the visit has come to
an invocation before.

## Contents
- **Telling.** `Context.HasToken` and `Context.Tells`, with `Context.HasToken.tells` and `Context.HasToken.render_ne_ok`.
- **Issuing.** `Frame.token`, `issues` and `issued`, the tokens that the attempts of a visit issue.
- **Turns.** `Holds`, what an activation on a visit tells, with one lemma for each function of a turn.
- **Visits.** `Visit.tokens`, what each attempt of a visit is told; and `Visit.issued_eq_nil`, about a task whose input
  asks for the token.
- **Runs.** `Run.tracked_of_play` and `Run.token_told`.
-/

namespace Workflow

/-! ## Telling -/

namespace Context

variable {context : Json} {token? : Option String}

/-- The section of the task tells of a token, or there is no such section. -/
def HasToken (context : Json) (token? : Option String) : Prop :=
  context.field? "Task" = token?.map fun token => .object [("Token", .str token)]

theorem hasToken_issueToken (context : Json) (token : String) : HasToken (issueToken context token) (some token) :=
  field?_setSection_self _ _ _

theorem HasToken.setRetryCount (h : HasToken context token?) (count : Nat) :
    HasToken (setRetryCount context count) token? :=
  (field?_setRetryCount_of_ne context count (by decide)).trans h

theorem HasToken.forItem (h : HasToken context token?) (index : Nat) (item : Json) :
    HasToken (forItem context index item) token? :=
  (field?_setSection_of_ne context _ (by decide)).trans h

/-- The path by which templates ask for the token. -/
def tokenPath : String := "$$.Task.Token"

theorem ofText_tokenPath : Path.ofText tokenPath = .ok ⟨.context, [.field "Task", .field "Token"]⟩ := by
  have parsed : Path.parse tokenPath = .ok ⟨.context, [.field "Task", .field "Token"]⟩ := by cbv
  rw [Path.ofText, parsed]
  rfl

/-- What an expression comes to that asks for the token: the given one, or a failure. -/
def Tells (context : Json) (token? : Option String) : Prop :=
  ∀ data, Path.resolve tokenPath data context = token?.elim (.error (.notFound tokenPath)) fun token => .ok (.str token)

/-- A template that asks for the token is told what the section says, and fails where there is none. -/
theorem HasToken.tells (h : HasToken context token?) : Tells context token? := by
  intro data
  have selected : Path.select? ⟨.context, [.field "Task", .field "Token"]⟩ context = token?.map .str := by
    rw [Path.select?, if_pos (by decide)]
    simp only [Path.walk?, Path.child?]
    rw [show context.field? "Task" = _ from h]
    cases token? with
    | none => rfl
    | some token =>
        have inside : (Json.object [("Token", .str token)]).field? "Token" = some (.str token) :=
          Fields.find?_set_self [] _ _
        simp only [Option.map_some, Option.bind_some, inside]
  simp only [Path.resolve, ofText_tokenPath, bind, Except.bind, selected]
  cases token? <;> rfl

/-- A template that asks for the token, at any place, cannot be rendered where none is told. -/
theorem HasToken.render_ne_ok {scope : Scope} {template : Json} {key : String} (tokenless : HasToken scope.context none)
    (asks : (key, .str tokenPath) ∈ Template.expressions template) (output : Json) :
    Template.render scope template ≠ .ok output := by
  intro rendered
  have evaluated := Template.settled_render scope template
  rw [rendered] at evaluated
  rw [← Template.map_places scope] at asks
  obtain ⟨place, inside, e⟩ := List.mem_map.mp asks
  obtain ⟨-, sees⟩ := Template.alike_places _ _ place inside
  -- The expression that asks has a value like all others, and yet there is none.
  obtain ⟨text, held, hasValue⟩ := Template.evaluateAll_eq_ok_iff.mp evaluated.symm place inside
  cases held.symm.trans (congrArg Prod.snd e)
  rw [if_neg (by decide)] at hasValue
  obtain ⟨value, hvalue⟩ := hasValue
  rw [sees] at hvalue
  cases hvalue.symm.trans (tokenless.tells _)

end Context

namespace Execution

open Context (HasToken Tells)

/-! ## Issuing -/

/-- The token of an attempt, should its handler be invoked. -/
def Frame.token (frame : Frame) (attempt : Attempt) : String := (frame.draw attempt.counters.retries .token).uuid

/-- The token that an attempt issues which begins in a frame: one of a task does, if its input can be told and there is a
    handler. -/
def issues (host : Host) (begun : Frame × Attempt) : Option String :=
  match begun.2.state with
  | .task task =>
    match request host begun.1 begun.2 task with
    | .ok _ => some (begun.1.token begun.2)
    | .error _ => none
  | _ => none

/-- The tokens that the attempts of a visit have issued, in their order. -/
def issued (host : Host) (begun : List (Frame × Attempt)) : List String := begun.filterMap (issues host)

variable {host : Host} {moment : Moment} {start frame : Frame} {state : State} {attempt : Attempt}
  {begun : List (Frame × Attempt)}

theorem issued_concat (begun : List (Frame × Attempt)) (last : Frame × Attempt) :
    issued host (begun ++ [last]) = issued host begun ++ (issues host last).toList := by
  rw [issued, List.filterMap_append]
  cases h : issues host last <;> simp [h, issued]

/-- The token issued last is that of the last attempt, if it has one. -/
theorem getLast?_issued_concat (begun : List (Frame × Attempt)) (last : Frame × Attempt) :
    (issued host (begun ++ [last])).getLast? = (issues host last).or (issued host begun).getLast? := by
  rw [issued_concat, List.getLast?_append]
  cases issues host last <;> rfl

theorem issues_of_not_task (fans : ∀ task, attempt.state ≠ .task task) (frame : Frame) :
    issues host (frame, attempt) = none := by
  unfold issues
  split
  · rename_i task htask
    exact absurd htask (fans task)
  · rfl

/-! ## Turns -/

/-- **What an activation on a visit tells of tokens.** Within an attempt it tells the token that was issued last; and where
    a handler has been invoked, that is the one that the attempt has issued. -/
def Holds (host : Host) (begun : List (Frame × Attempt)) : Activation → Prop
  | .node frame (.invoking attempt _) =>
    HasToken frame.context (some (frame.token attempt)) ∧
      ∃ before began, begun = before ++ [(began, attempt)] ∧ issues host (began, attempt) = some (frame.token attempt)
  | .node frame (.pausing ..) | .node frame (.fanning ..) => HasToken frame.context (issued host begun).getLast?
  | _ => True

theorem leave_holds (next : Option String) (output : Json) : Holds host begun (leave frame next output).activation := by
  cases next <;> trivial

theorem leaveOrFail_holds (outcome : DataFlow.Outcome (Option String × Json)) :
    Holds host begun (leaveOrFail frame outcome).activation := by
  cases outcome with
  | error fault => trivial
  | ok left => exact leave_holds left.1 left.2

theorem recover_holds (h : HasToken frame.context (issued host begun).getLast?) (fault : Fault) :
    Holds host begun (recover moment frame attempt fault).activation := by
  rcases recover_cases moment frame attempt fault with ⟨_, _, _, -, e⟩ | ⟨_, _, _, -, e⟩ | ⟨_, _, -, e⟩ <;> rw [e]
  · exact h
  · trivial
  · trivial

theorem conclude_holds (h : HasToken frame.context (issued host begun).getLast?) (result : Json) :
    Holds host begun (conclude moment frame attempt result).activation := by
  rcases conclude_cases moment frame attempt result with ⟨fault, -, e⟩ | ⟨_, _, -, e⟩ | ⟨_, -, e⟩ <;> rw [e]
  · exact recover_holds h fault
  · exact leave_holds _ _
  · trivial

theorem fan_holds (h : HasToken frame.context (issued host begun).getLast?) (fanOut : FanOut Activation) :
    Holds host begun (fan moment frame attempt fanOut).activation := by
  obtain ⟨filling, rfl, ⟨fault, -, e⟩ | ⟨-, -, e⟩ | ⟨-, -, e⟩⟩ := fan_cases moment frame attempt fanOut <;> rw [e]
  · exact recover_holds h fault
  · exact conclude_holds h _
  · exact h

theorem join_holds (h : HasToken frame.context (issued host begun).getLast?) (fanOut : FanOut Activation) (index : Nat)
    (ending : Ending) : Holds host begun (join moment frame attempt fanOut index ending).activation := by
  cases ending with
  | output value => exact fan_holds h _
  | fault fault => exact recover_holds h _
  | cancelled => trivial

/-- An attempt that begins goes on with the token issued last, unless it issues one of its own. -/
theorem beginAttempt_holds (h : HasToken frame.context (issued host begun).getLast?) :
    Holds host (begun ++ [(frame, attempt)]) (beginAttempt host moment frame attempt).activation := by
  have none_issued (e : issues host (frame, attempt) = none) :
      HasToken frame.context (issued host (begun ++ [(frame, attempt)])).getLast? := by
    rw [getLast?_issued_concat, e]
    exact h
  rcases beginAttempt_cases host moment frame attempt with
    ⟨task, fault, htask, hr, e⟩ | ⟨task, asked, htask, hr, e⟩ | ⟨fault, fans, -, e⟩ | ⟨js, limit, planned, e⟩ <;> rw [e]
  · exact recover_holds (none_issued (by simp only [issues, htask, hr])) fault
  · exact ⟨Context.hasToken_issueToken _ _, begun, frame, rfl, by simp only [issues, htask, hr]; rfl⟩
  · exact recover_holds (none_issued (issues_of_not_task fans frame)) fault
  · refine fan_holds (none_issued (issues_of_not_task (fun task htask => ?_) frame)) _
    rw [htask] at planned
    cases planned

/-- Within an attempt, an activation tells the token issued last. -/
theorem Holds.hasToken {activation : Activation} (h : Holds host begun activation)
    (attempting : activation.attempt? = some attempt) :
    HasToken activation.frame.context (issued host begun).getLast? := by
  obtain ⟨frame, phase⟩ := activation
  cases phase with
  | invoking attempt invocation =>
      obtain ⟨own, before, began, rfl, hissues⟩ := h
      rw [getLast?_issued_concat, hissues]
      exact own
  | pausing attempt due => exact h
  | fanning attempt fanOut => exact h
  | _ => cases attempting

/-- What a turn within an attempt leads to; where a handler has been invoked, it cannot be invoked again. -/
theorem respond_holds {activation : Activation} {signal : Signal} {turn : Turn} (h : Holds host begun activation)
    (inside : activation.phase ≠ .ready)
    (noRetry : ∀ attempt due, activation.phase = .pausing attempt due → moment.cancelled = true)
    (hturn : activation.respond host moment signal = some turn) : Holds host begun turn.activation := by
  rcases respond_cases hturn with ⟨-, hp⟩ | ⟨frame, attempt, fanOut, index, child, ending, -, rfl, -, -, rfl⟩
  · obtain ⟨frame, phase⟩ := activation
    rcases proceed_cases hp with ⟨-, rfl⟩ | ⟨going, ⟨rfl, -⟩ | ⟨wait, effective, _, rfl, -, rfl⟩ |
      ⟨attempt, _, result, rfl, -, rfl⟩ | ⟨attempt, _, fault, rfl, -, rfl⟩ | ⟨attempt, due, rfl, -, -⟩⟩
    · trivial
    · exact absurd rfl inside
    · exact leaveOrFail_holds _
    · exact conclude_holds (h.hasToken rfl) result
    · exact recover_holds (h.hasToken rfl) fault
    · cases going.symm.trans (noRetry attempt due rfl)
  · exact join_holds (h.hasToken rfl) fanOut index ending

/-! ## Visits -/

/-- **What the attempts of a visit are told, and its activation.** Each attempt begins with the token that was issued last
    before it. -/
structure Visit.Tokens (host : Host) (begun : List (Frame × Attempt)) (activation : Activation) : Prop where
  before : ∀ count frame attempt, begun[count]? = some (frame, attempt) →
    HasToken frame.context (issued host (begun.take count)).getLast?
  now : Holds host begun activation

/-- One more attempt begins with the token that was issued last. -/
theorem Visit.Tokens.concat {activation : Activation} (h : Visit.Tokens host begun activation) {turn : Turn}
    (first : HasToken frame.context (issued host begun).getLast?)
    (began : turn.activation = (beginAttempt host moment frame attempt).activation) :
    Visit.Tokens host (begun ++ [(frame, attempt)]) turn.activation where
  before count frame' attempt' hcount := by
    rcases getElem?_concat hcount with earlier | ⟨rfl, e⟩
    · have below := (List.getElem?_eq_some_iff.mp earlier).choose
      rw [List.take_append_of_le_length below.le]
      exact h.before count frame' attempt' earlier
    · cases e
      rw [List.take_left]
      exact first
  now := began ▸ beginAttempt_holds first

/-- **In every visit, attempts are told the token issued last,** if the visit began with sections in order. -/
theorem Visit.tokens {told : List Note} {activation : Activation} (visit : Visit host start state begun told activation)
    (sorted : Fields.Sorted (Context.sections start.context)) : Visit.Tokens host begun activation := by
  induction visit with
  | @entered moment turn defined recoverable going hturn =>
      have began := (congrArg Turn.activation (enter_of_respond going hturn)).trans (activation_enter defined recoverable)
      have before : Visit.Tokens host [] (.node start .ready) := ⟨fun _ _ _ e => (nomatch e), trivial⟩
      exact before.concat (Context.field?_enter_task sorted _ _) began
  | @retried begun told frame attempt due moment turn before going hturn ih =>
      exact ih.concat (ih.now.setRetryCount _) (congrArg Turn.activation (retry_of_respond going hturn))
  | turned before inside noRetry hturn ih => exact ⟨ih.before, respond_holds ih.now inside noRetry hturn⟩
  | within before hact ih =>
      obtain ⟨frame, attempt, fanOut, child, child', rfl, -, -, rfl⟩ := Activation.act_cons hact
      exact ⟨ih.before, ih.now⟩

/-- An attempt cannot render the input that a task asks for with its token, as long as it is told none. -/
theorem request_of_tokenless {task : Task} {parameters : Json} {key : String} (tokenless : HasToken frame.context none)
    (given : task.parameters = some parameters)
    (asks : (key, .str Context.tokenPath) ∈ Template.expressions parameters) :
    ∃ fault, request host frame attempt task = .error fault := by
  cases asked : request host frame attempt task with
  | error fault => exact ⟨fault, rfl⟩
  | ok answer =>
      obtain ⟨effective, -, rest⟩ := DataFlow.bind_eq_ok.mp asked
      obtain ⟨limitSeconds, -, rest⟩ := DataFlow.bind_eq_ok.mp rest
      obtain ⟨input, rendered, -⟩ := DataFlow.bind_eq_ok.mp rest
      rw [given] at rendered
      exact absurd (DataFlow.mapError_eq_ok.mp rendered) (Context.HasToken.render_ne_ok tokenless asks input)

/-- **A task whose input asks for the token issues none,** however often it is tried: each attempt would have to begin with
    one that an attempt before it had issued. -/
theorem Visit.issued_eq_nil {task : Task} {parameters : Json} {key : String} {told : List Note} {activation : Activation}
    (visit : Visit host start (.task task) begun told activation)
    (sorted : Fields.Sorted (Context.sections start.context)) (given : task.parameters = some parameters)
    (asks : (key, .str Context.tokenPath) ∈ Template.expressions parameters) : issued host begun = [] := by
  have tokens := visit.tokens sorted
  have none_issued : ∀ count, issued host (begun.take count) = [] := by
    intro count
    induction count with
    | zero => rfl
    | succ count ih =>
        rw [List.take_add_one]
        cases h : begun[count]? with
        | none => simpa using ih
        | some began =>
            obtain ⟨frame, attempt⟩ := began
            -- No attempt before has issued a token, so this one is told none and cannot render its input.
            have tokenless := tokens.before count frame attempt h
            rw [ih] at tokenless
            obtain ⟨fault, failed⟩ := @request_of_tokenless host frame attempt _ _ _ tokenless given asks
            have silent : issues host (frame, attempt) = none := by
              simp only [issues, (visit.sound.attempts count frame attempt h).same, failed]
            rw [Option.toList_some, issued_concat, ih, silent]
            rfl
  have all := none_issued begun.length
  rwa [List.take_length] at all

/-! ## Runs -/

/-- Whatever reads the context object of an activation reads its section of the task, also where it prepares an iteration. -/
theorem Evaluation.IsFor.hasToken {evaluation : Evaluation} {token? : Option String} (h : evaluation.IsFor frame)
    (told : HasToken frame.context token?) : HasToken evaluation.context token? := by
  obtain ⟨name, context, preparing⟩ := evaluation
  obtain ⟨-, reads⟩ := h
  cases preparing with
  | none =>
      have same : context = frame.context := reads
      exact same ▸ told
  | some prepared =>
      obtain ⟨_, item, -, -, rfl⟩ := reads
      exact told.forItem prepared.2 item

/-- To tell templates of a retry leaves the token as it is. -/
theorem hasToken_during {activation : Activation} {token? : Option String} (attempting : activation.attempt? = some attempt)
    (told : HasToken activation.frame.context token?) :
    HasToken (activation.frame.during host moment activation.phase).context token? := by
  obtain ⟨frame, phase⟩ := activation
  cases phase with
  | pausing attempt due => exact told.setRetryCount _
  | invoking | fanning => exact told
  | _ => cases attempting

namespace Run

variable {setup : Setup} {run : Run}

/-- The activation has a context object that suits its place; and where it is making an attempt, it is on a visit that began
    with the sections of the object in order. -/
def Tracked (setup : Setup) (activation : Activation) : Prop :=
  (∃ iteration, activation.Placed (startContext setup) iteration) ∧
    VisitsFrom (fun start => Fields.Sorted (Context.sections start.context)) setup.host activation

/-- **In every run, everything under way is tracked.** -/
theorem tracked_of_play {moves : List Move} (played : (Run.start setup).play setup moves = some run) :
    run.outermost.Everywhere (Tracked setup) := by
  refine everywhere_of_play ⟨⟨_, Context.keeps_self ?_⟩, fun _ e => nomatch e⟩ ?_ ?_ ?_ played
  · exact Context.sorted_start setup.runId setup.machine (Timestamp.render setup.host.epochMillis) setup.input setup.seed
  · rintro ⟨frame, phase⟩ ⟨⟨iteration, placed⟩, -⟩
    exact ⟨⟨iteration, placed.keeps⟩, fun _ e => nomatch e⟩
  · intro moment signal activation turn before hturn
    obtain ⟨⟨iteration, placed⟩, visits⟩ := before.self
    have after := respond_placed placed hturn
    refine ⟨⟨⟨iteration, after⟩, visitsFrom_respond visits (fun _ => placed.keeps.sorted) hturn⟩, ?_⟩
    rintro index child ⟨frame, attempt, fanOut, job, input, e, hjob, -, rfl⟩
    rw [e] at after
    exact ⟨⟨_, (Activation.born_surrounded after hjob input).self⟩, fun _ e => nomatch e⟩
  · rintro moment signal activation after index place entries ⟨⟨iteration, placed⟩, visits⟩ hact
    refine ⟨⟨iteration, ?_⟩, visitsFrom_within visits hact⟩
    obtain ⟨_, _, _, _, _, rfl, -, -, rfl⟩ := Activation.act_cons hact
    exact placed

/-- **The token of an invocation is told from the invocation on, up to the next one of the visit.** Whoever has its turn in
    a run, at any depth: outside attempts, and in what is evaluated on entering a state, no token is told.  Within a visit,
    each attempt begins with the token that was issued last before it, if any was, and renders the input of its invocation
    with that; and all that is evaluated later in the visit is told the token that was issued last.  Once the handler of an
    attempt has been invoked, this is the one that the attempt has issued itself.  So the handler of a task whose input asks
    for the token is never invoked. -/
theorem token_told (setup : Setup) (moves : List Move) (run : Run) (played : (Run.start setup).play setup moves = some run)
    (place : Place) (activation : Activation) (underWay : run.outermost.at? place = some activation) (signal : Signal)
    (turn : Watched Turn) (hturn : Watched.respond setup.host run.moment signal activation = some turn) :
    (activation.attempt? = none → ∀ evaluation ∈ turn.seen, Tells evaluation.context none) ∧
    ∀ attempt, activation.attempt? = some attempt →
      ∃ start state begun told, Visit setup.host start state begun told activation ∧
        (∀ count frame earlier, begun[count]? = some (frame, earlier) →
          Tells frame.context (issued setup.host (begun.take count)).getLast?) ∧
        (∀ evaluation ∈ turn.seen, Tells evaluation.context (issued setup.host begun).getLast?) ∧
        ∀ invocation, activation.phase = .invoking attempt invocation →
          (issued setup.host begun).getLast? = some (activation.frame.token attempt) ∧
            (∃ before began, begun = before ++ [(began, attempt)] ∧
              issues setup.host (began, attempt) = some (activation.frame.token attempt)) ∧
            ∀ task parameters, attempt.state = .task task → task.parameters = some parameters →
              ∀ key, (key, .str Context.tokenPath) ∉ Template.expressions parameters := by
  have reads := Watched.reads_respond hturn
  refine ⟨fun outside evaluation seen => ?_, fun attempt attempting => ?_⟩
  · obtain ⟨iteration, placed⟩ := (tracked_of_play played place activation underWay).1
    have responds : activation.respond setup.host run.moment signal = some turn.value := by
      rw [← Watched.value_respond, hturn]
      rfl
    obtain ⟨-, tokenless⟩ := during_inside placed responds
    -- Outside an attempt nothing is left of a task that was visited before.
    have none_told : HasToken (activation.frame.during setup.host run.moment activation.phase).context none := by
      refine tokenless (fun attempt invocation e => ?_) (fun attempt due e => ?_)
      · simp [Activation.attempt?, e] at outside
      · simp [Activation.attempt?, e] at outside
    exact ((reads evaluation seen).hasToken none_told).tells
  · obtain ⟨start, state, begun, told, sorted, visit⟩ := (tracked_of_play played place activation underWay).2 attempt attempting
    have tokens := visit.tokens sorted
    have last := tokens.now.hasToken attempting
    refine ⟨start, state, begun, told, visit, fun count frame earlier h => (tokens.before count frame earlier h).tells,
      fun evaluation seen => ((reads evaluation seen).hasToken (hasToken_during attempting last)).tells, ?_⟩
    intro invocation invoking
    obtain ⟨frame, phase⟩ := activation
    cases invoking
    obtain ⟨-, before, began, rfl, hissues⟩ := tokens.now
    -- The handler was invoked by the last attempt, after it had issued its token.
    have own : (issued setup.host (before ++ [(began, attempt)])).getLast? = some (frame.token attempt) := by
      rw [getLast?_issued_concat, hissues]
      rfl
    refine ⟨own, ⟨before, began, rfl, hissues⟩, fun task parameters htask given key asks => ?_⟩
    -- If the input asked for the token, no attempt would have issued one.
    have same := (visit.sound.attempts before.length began attempt (by simp)).same
    rw [htask] at same
    subst same
    rw [visit.issued_eq_nil sorted given asks] at own
    cases own

/-- A chance that yields different numbers for the attempts at a state. -/
def summedChance : Chance := ⟨List.sum, fun seed bound => seed % bound⟩

/-- A run of a task that may be tried twice, whose handler fails whenever it is invoked. -/
def flaky : Setup where
  definition := ⟨flakyStart.graph, none, none⟩
  host := flakyHost
  machine := Setup.defaultMachine
  runId := "run"
  input := .null
  seed := none
  chance := summedChance

/-- The second attempt begins with the token that the first one issued, which is not its own. -/
theorem token_told_flaky : ∃ run attempt turn evaluation start state begun told,
    (Run.start flaky).play flaky [.act [] .proceed, .act [] .proceed, .wait 1000] = some run ∧
    run.outermost.attempt? = some attempt ∧ attempt.counters.retries = 1 ∧
    Watched.respond flaky.host run.moment .proceed run.outermost = some turn ∧ evaluation ∈ turn.seen ∧
    Visit flaky.host start state begun told run.outermost ∧
    Tells evaluation.context (issued flaky.host begun).getLast? ∧
    (issued flaky.host begun).getLast? = some (run.outermost.frame.draw 0 .token).uuid ∧
    (run.outermost.frame.draw 0 .token).uuid ≠ run.outermost.frame.token attempt := by
  have possible : ((Run.start flaky).play flaky [.act [] .proceed, .act [] .proceed, .wait 1000]).any (fun run =>
      run.outermost.attempt?.any (fun attempt => attempt.counters.retries == 1 &&
        (run.outermost.frame.draw 0 .token).uuid != run.outermost.frame.token attempt) &&
      (Watched.respond flaky.host run.moment .proceed run.outermost).any fun turn => turn.seen.any fun evaluation =>
        (Path.resolve Context.tokenPath .null evaluation.context).toOption.bind Json.text? ==
          some (run.outermost.frame.draw 0 .token).uuid) = true := by
    decide +kernel
  obtain ⟨run, played, h⟩ := Option.any_eq_true _ _ |>.mp possible
  obtain ⟨hattempt, hturn⟩ := Bool.and_eq_true_iff.mp h
  obtain ⟨attempt, attempting, h⟩ := Option.any_eq_true _ _ |>.mp hattempt
  obtain ⟨second, other⟩ := Bool.and_eq_true_iff.mp h
  obtain ⟨turn, responds, h⟩ := Option.any_eq_true _ _ |>.mp hturn
  obtain ⟨evaluation, seen, resolved⟩ := List.any_eq_true.mp h
  obtain ⟨-, inside⟩ := token_told flaky _ run played [] run.outermost rfl .proceed turn responds
  obtain ⟨start, state, begun, told, visit, -, last, -⟩ := inside attempt attempting
  have tells := last evaluation seen
  refine ⟨run, attempt, turn, evaluation, start, state, begun, told, played, attempting, beq_iff_eq.mp second, responds,
    seen, visit, tells, ?_, bne_iff_ne.mp other⟩
  have resolved := beq_iff_eq.mp resolved
  rw [tells .null] at resolved
  cases hlast : (issued flaky.host begun).getLast? with
  | none =>
      rw [hlast] at resolved
      cases resolved
  | some earlier =>
      rw [hlast] at resolved
      exact resolved

/-- A run of a task that asks for its token in the input of its handler, which returns whatever it is given. -/
def asking : Setup where
  definition := ⟨⟨none, "Ask", [("Ask", .task
    { flakyTask with parameters := some (.object [("token.$", .str Context.tokenPath)]) })]⟩, none, none⟩
  host := ⟨⟨[("Ask", ⟨fun _ input => ⟨0, .returned input, false⟩⟩)]⟩, [], 0⟩
  machine := Setup.defaultMachine
  runId := "run"
  input := .null
  seed := none
  chance := summedChance

/-- What renders the input is told no token, so that the run fails without having invoked the handler. -/
theorem asking_fails : ∃ turn evaluation run,
    Watched.respond asking.host (Run.start asking).moment .proceed (Run.start asking).outermost = some turn ∧
    evaluation ∈ turn.seen ∧ Tells evaluation.context none ∧
    (Run.start asking).play asking [.act [] .proceed] = some run ∧
    run.status = .failed ∧ run.calls = [] := by
  have possible : (Watched.respond asking.host (Run.start asking).moment .proceed (Run.start asking).outermost).any
      (fun turn => turn.seen.any fun evaluation => (evaluation.context.field? "Task").isNone) = true := by
    decide +kernel
  have fails : ((Run.start asking).play asking [.act [] .proceed]).any (fun run =>
      run.status == .failed && run.calls.isEmpty) = true := by
    decide +kernel
  obtain ⟨turn, responds, h⟩ := Option.any_eq_true _ _ |>.mp possible
  obtain ⟨evaluation, seen, tokenless⟩ := List.any_eq_true.mp h
  obtain ⟨run, played, h⟩ := Option.any_eq_true _ _ |>.mp fails
  obtain ⟨settled, calls⟩ := Bool.and_eq_true_iff.mp h
  have told : HasToken evaluation.context none := Option.isNone_iff_eq_none.mp tokenless
  exact ⟨turn, evaluation, run, responds, seen, told.tells, played, beq_iff_eq.mp settled, List.isEmpty_iff.mp calls⟩

end Run

end Execution

end Workflow
