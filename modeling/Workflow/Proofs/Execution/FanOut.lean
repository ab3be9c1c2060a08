import Workflow.Execution.FanOut

/-!
# `Workflow.Proofs.Execution.FanOut` — jobs begin in order and end in any

What the operations of a fan-out do to the jobs under way, and the account that they keep of all jobs: those
under way and those with an output are, each once, the jobs that have begun.

## Contents
- **Single operations.** `child?_replace`, `child?_of_replace`, `child?_deliver`, and `fill_induct`: to begin jobs
while there is room is to begin single jobs in turn, as `begun_fill` tells.
- **The account.** `Accounted`, kept by all operations, with `outputAt_mem` and `Accounted.outputs_of_idle`.
-/

namespace Workflow.Execution.FanOut

variable {α : Type} {f : FanOut α}

/-! ## Single operations -/

/-- The job at an index is the first one under way that has it. -/
theorem mem_of_child? {index : Nat} {child : α} (h : f.child? index = some child) :
    (index, child) ∈ f.running := by
  obtain ⟨found, hfound, rfl⟩ := Option.map_eq_some_iff.mp h
  have same : found.1 = index := by simpa using List.find?_some hfound
  exact same ▸ List.mem_of_find?_eq_some hfound

theorem child?_of_mem {index : Nat} (h : index ∈ f.running.map (·.1)) : ∃ child, f.child? index = some child := by
  obtain ⟨c, hc, rfl⟩ := List.mem_map.mp h
  cases hfound : f.running.find? (·.1 == c.1) with
  | none => exact absurd (List.find?_eq_none.mp hfound c hc) (by simp)
  | some found => exact ⟨found.2, by simp [child?, hfound]⟩

/-- **A replacement touches one job only.** -/
theorem child?_replace (index other : Nat) (child : α) :
    (f.replace index child).child? other =
      if other = index then (f.child? index).map fun _ => child else f.child? other := by
  simp only [child?, replace]
  induction f.running with
  | nil => split <;> rfl
  | cons first rest ih =>
      by_cases hfirst : first.1 = index
      · by_cases hother : other = index
        · simp [hfirst, hother]
        · have hne : ¬ index = other := fun e => hother e.symm
          have hne' : ¬ first.1 = other := fun e => hne (hfirst ▸ e)
          simpa [hfirst, hother, hne, hne'] using ih
      · by_cases hother : first.1 = other
        · have hne : ¬ other = index := fun e => hfirst (hother.trans e)
          simp [hother, hne]
        · simpa [hfirst, hother] using ih

/-- What is under way after a replacement is the new job, or has been under way elsewhere. -/
theorem child?_of_replace {index other : Nat} {child child' found : α} (hchild : f.child? index = some child)
    (h : (f.replace index child').child? other = some found) :
    (other = index ∧ found = child') ∨ (other ≠ index ∧ f.child? other = some found) := by
  rw [child?_replace] at h
  split at h
  · rename_i same
    rw [hchild] at h
    cases h
    exact Or.inl ⟨same, rfl⟩
  · rename_i different
    exact Or.inr ⟨different, h⟩

/-- **A delivery ends one job only.** -/
theorem child?_deliver (index other : Nat) (output : Json) :
    (f.deliver index output).child? other = if other = index then none else f.child? other := by
  simp only [child?, deliver]
  induction f.running with
  | nil => split <;> rfl
  | cons first rest ih =>
      by_cases hfirst : first.1 = index
      · by_cases hother : other = index
        · simp [hother]
        · have hne : ¬ index = other := fun e => hother e.symm
          simpa [hfirst, hother, hne] using ih
      · by_cases hother : first.1 = other
        · have hne : ¬ other = index := fun e => hfirst (hother.trans e)
          simp [hother, hne]
        · simpa [hfirst, hother] using ih

/-- A fan-out in which the next job has begun. -/
def withNext (f : FanOut α) (child : α) : FanOut α :=
  { f with begun := f.begun + 1, running := f.running ++ [(f.begun, child)] }

theorem child?_withNext {index : Nat} {child found : α} (h : (f.withNext child).child? index = some found) :
    f.child? index = some found ∨ (index = f.begun ∧ found = child) := by
  simp only [child?, withNext, List.find?_append] at h ⊢
  cases hold : f.running.find? (·.1 == index) with
  | some before => exact Or.inl (by simpa [hold] using h)
  | none =>
      by_cases hindex : f.begun = index
      · exact Or.inr ⟨hindex.symm, by simpa [hold, hindex] using h.symm⟩
      · simp [hold, hindex] at h

/-- **To begin jobs while there is room is to begin single jobs in turn.**  What holds before and is kept
    whenever the next job begins holds afterwards. -/
theorem fillWith_induct {P : FanOut α → Prop} {begin : Nat → Job → Json → α}
    (next : ∀ (f : FanOut α) (job : Job) (input : Json), P f → f.jobs[f.begun]? = some job →
      job.input = .ok input → f.running.length < f.limit → P (f.withNext (begin f.begun job input))) :
    ∀ (rest : List Job) (f : FanOut α), rest = f.jobs.drop f.begun → P f →
      P (fillWith begin rest f).fanOut := by
  intro rest
  induction rest with
  | nil => intro f _ hf; exact hf
  | cons job rest ih =>
      intro f hrest hf
      -- The rest of the jobs begins with the one that is next.
      have hjob : f.jobs[f.begun]? = some job := by
        rw [← List.head?_drop, ← hrest]; rfl
      have hrest' : rest = f.jobs.drop (f.begun + 1) := by
        rw [← List.tail_drop, ← hrest]; rfl
      unfold fillWith
      split
      · rename_i room
        split
        · exact hf
        · rename_i input hinput
          exact ih (f.withNext (begin f.begun job input)) hrest' (next f job input hf hjob hinput room)
      · exact hf

theorem fill_induct {P : FanOut α → Prop} {begin : Nat → Job → Json → α}
    (next : ∀ (f : FanOut α) (job : Job) (input : Json), P f → f.jobs[f.begun]? = some job →
      job.input = .ok input → f.running.length < f.limit → P (f.withNext (begin f.begun job input)))
    (h : P f) : P (f.fill begin).fanOut :=
  fillWith_induct next _ f rfl h

/-- Beginning jobs changes neither the jobs nor the limit nor the outputs. -/
theorem fill_keeps (begin : Nat → Job → Json → α) (f : FanOut α) :
    (f.fill begin).fanOut.jobs = f.jobs ∧ (f.fill begin).fanOut.limit = f.limit ∧
      (f.fill begin).fanOut.outputs = f.outputs :=
  fill_induct (P := fun g => g.jobs = f.jobs ∧ g.limit = f.limit ∧ g.outputs = f.outputs)
    (fun _ _ _ hg _ _ _ => hg) ⟨rfl, rfl, rfl⟩

theorem begun_le_fill (begin : Nat → Job → Json → α) (f : FanOut α) : f.begun ≤ (f.fill begin).fanOut.begun :=
  fill_induct (P := fun g => f.begun ≤ g.begun) (fun _ _ _ hg _ _ _ => Nat.le_succ_of_le hg) (Nat.le_refl _)

/-- The jobs that begin are the next ones, in order. -/
theorem begun_fillWith {begin : Nat → Job → Json → α} : ∀ {rest : List Job} {f : FanOut α},
    ∃ count, (fillWith begin rest f).begun = List.range' f.begun count ∧
      (fillWith begin rest f).fanOut.begun = f.begun + count := by
  intro rest
  induction rest with
  | nil => intro f; exact ⟨0, rfl, rfl⟩
  | cons job rest ih =>
      intro f
      unfold fillWith
      split
      · split
        · exact ⟨0, rfl, rfl⟩
        · rename_i input _
          obtain ⟨count, hbegun, hcount⟩ := ih (f := f.withNext (begin f.begun job input))
          have next : (f.withNext (begin f.begun job input)).begun = f.begun + 1 := rfl
          rw [next] at hbegun hcount
          refine ⟨count + 1, ?_, hcount.trans (by omega)⟩
          rw [List.range'_succ]
          exact congrArg (f.begun :: ·) hbegun
      · exact ⟨0, rfl, rfl⟩

theorem begun_fill (begin : Nat → Job → Json → α) (f : FanOut α) :
    ∃ count, (f.fill begin).begun = List.range' f.begun count ∧ (f.fill begin).fanOut.begun = f.begun + count :=
  begun_fillWith

/-- A job under way after jobs began was under way before, or is one of those that began. -/
theorem child?_fill {begin : Nat → Job → Json → α} {index : Nat} {child : α}
    (h : (f.fill begin).fanOut.child? index = some child) :
    f.child? index = some child ∨ ∃ job input, f.begun ≤ index ∧ f.jobs[index]? = some job ∧
      job.input = .ok input ∧ child = begin index job input := by
  let Known (g : FanOut α) : Prop := g.jobs = f.jobs ∧ f.begun ≤ g.begun ∧ ∀ index child,
    g.child? index = some child → f.child? index = some child ∨ ∃ job input, f.begun ≤ index ∧
      f.jobs[index]? = some job ∧ job.input = .ok input ∧ child = begin index job input
  have known : Known (f.fill begin).fanOut := by
    refine fill_induct ?_ ⟨rfl, Nat.le_refl _, fun _ _ h => Or.inl h⟩
    rintro g job input ⟨hjobs, hbegun, hg⟩ hjob hinput _
    refine ⟨hjobs, Nat.le_succ_of_le hbegun, fun index child h => ?_⟩
    rcases child?_withNext h with hold | ⟨rfl, rfl⟩
    · exact hg index child hold
    · exact Or.inr ⟨job, input, hbegun, hjobs ▸ hjob, hinput, rfl⟩
  exact known.2.2 index child h

/-- What keeps jobs from beginning is a job whose input cannot be told. -/
theorem fault_fillWith {begin : Nat → Job → Json → α} {fault : Fault} :
    ∀ {rest : List Job} {f : FanOut α}, (fillWith begin rest f).fault = some fault →
      ∃ job ∈ rest, job.input = .error fault := by
  intro rest
  induction rest with
  | nil => intro f h; simp [fillWith] at h
  | cons job rest ih =>
      intro f h
      unfold fillWith at h
      split at h
      · split at h
        · rename_i fault' hinput
          refine ⟨job, List.mem_cons_self, ?_⟩
          rw [hinput]; exact congrArg _ (Option.some.inj h)
        · obtain ⟨later, hlater, hfault⟩ := ih h
          exact ⟨later, List.mem_cons_of_mem _ hlater, hfault⟩
      · simp at h

theorem fault_fill {begin : Nat → Job → Json → α} {fault : Fault}
    (h : (f.fill begin).fault = some fault) : ∃ job ∈ f.jobs, job.input = .error fault := by
  obtain ⟨job, hjob, hfault⟩ := fault_fillWith h
  exact ⟨job, List.mem_of_mem_drop hjob, hfault⟩

/-- Where no fault keeps jobs from beginning, they begin until none is left or there is no room. -/
theorem full_fillWith {begin : Nat → Job → Json → α} :
    ∀ {rest : List Job} {f : FanOut α}, rest = f.jobs.drop f.begun → f.begun ≤ f.jobs.length →
      (fillWith begin rest f).fault = none →
      (fillWith begin rest f).fanOut.begun = f.jobs.length ∨
        f.limit ≤ (fillWith begin rest f).fanOut.running.length := by
  intro rest
  induction rest with
  | nil =>
      intro f hrest hle _
      -- No job is left, so all have begun.
      have : f.jobs.length ≤ f.begun := List.drop_eq_nil_iff.mp hrest.symm
      exact Or.inl (Nat.le_antisymm hle this)
  | cons job rest ih =>
      intro f hrest _ hfault
      have hlt : f.begun < f.jobs.length := by
        have := congrArg List.length hrest
        simp only [List.length_cons, List.length_drop] at this
        omega
      have hrest' : rest = f.jobs.drop (f.begun + 1) := by
        rw [← List.tail_drop, ← hrest]; rfl
      unfold fillWith at hfault ⊢
      split
      · rename_i room
        rw [if_pos room] at hfault
        split
        · rename_i hinput; rw [hinput] at hfault; simp at hfault
        · rename_i input hinput
          rw [hinput] at hfault
          exact ih (f := f.withNext (begin f.begun job input)) hrest' hlt hfault
      · rename_i noRoom
        exact Or.inr (Nat.le_of_not_lt noRoom)

theorem full_fill {begin : Nat → Job → Json → α} (begun_le : f.begun ≤ f.jobs.length)
    (h : (f.fill begin).fault = none) :
    (f.fill begin).fanOut.begun = f.jobs.length ∨ f.limit ≤ (f.fill begin).fanOut.running.length :=
  full_fillWith rfl begun_le h

/-! ## The account -/

/-- **The account of all jobs.** The jobs under way and those with an output are, each once, the jobs that have
    begun. -/
structure Accounted (f : FanOut α) : Prop where
  begun_le : f.begun ≤ f.jobs.length
  indices : (f.running.map (·.1) ++ f.outputs.map (·.1)).Perm (List.range f.begun)

theorem accounted_ofJobs (jobs : List Job) (limit : Nat) : (ofJobs jobs limit : FanOut α).Accounted :=
  ⟨Nat.zero_le _, .refl _⟩

theorem Accounted.withNext (h : f.Accounted) {job : Job} (hjob : f.jobs[f.begun]? = some job) (child : α) :
    (f.withNext child).Accounted where
  begun_le := (List.getElem?_eq_some_iff.mp hjob).1
  indices := by
    have moved : (f.running.map (·.1) ++ [f.begun] ++ f.outputs.map (·.1)).Perm
        (f.running.map (·.1) ++ f.outputs.map (·.1) ++ [f.begun]) := by
      rw [List.append_assoc, List.append_assoc]
      exact List.Perm.append_left _ List.perm_append_comm
    simpa [FanOut.withNext, List.range_succ] using moved.trans (h.indices.append_right [f.begun])

theorem Accounted.fill (h : f.Accounted) (begin : Nat → Job → Json → α) :
    (f.fill begin).fanOut.Accounted :=
  fill_induct (fun _ _ _ hg hjob _ _ => hg.withNext hjob _) h

theorem map_fst_replace (index : Nat) (child : α) :
    (f.replace index child).running.map (·.1) = f.running.map (·.1) := by
  simp only [replace, List.map_map]
  refine List.map_congr_left fun c _ => ?_
  by_cases hc : c.1 = index
  · simp [hc]
  · simp [hc]

theorem Accounted.replace (h : f.Accounted) (index : Nat) (child : α) :
    (f.replace index child).Accounted :=
  ⟨h.begun_le, by rw [map_fst_replace]; exact h.indices⟩

theorem Accounted.nodup (h : f.Accounted) : (f.running.map (·.1) ++ f.outputs.map (·.1)).Nodup :=
  h.indices.nodup_iff.mpr List.nodup_range

/-- So many are under way as have begun and have no output. -/
theorem Accounted.length (h : f.Accounted) : f.running.length + f.outputs.length = f.begun := by
  simpa using h.indices.length_eq

theorem Accounted.deliver (h : f.Accounted) {index : Nat} {child : α}
    (hchild : f.child? index = some child) (output : Json) : (f.deliver index output).Accounted where
  begun_le := h.begun_le
  indices := by
    have present : index ∈ f.running.map (·.1) := List.mem_map_of_mem (f := (·.1)) (mem_of_child? hchild)
    have nodup : (f.running.map (·.1)).Nodup := (List.nodup_append.mp h.nodup).1
    have dropped : (f.running.filter (·.1 != index)).map (·.1) = (f.running.map (·.1)).erase index := by
      rw [nodup.erase_eq_filter, List.filter_map]; rfl
    have moved := ((List.perm_cons_erase present).symm.append_right (f.outputs.map (·.1)))
    have front : ((f.running.map (·.1)).erase index ++ index :: f.outputs.map (·.1)).Perm
        (index :: (f.running.map (·.1)).erase index ++ f.outputs.map (·.1)) := List.perm_middle
    simpa [FanOut.deliver, dropped] using front.trans (moved.trans h.indices)

/-- A job that is under way has begun. -/
theorem Accounted.lt_of_child? (h : f.Accounted) {index : Nat} {child : α} (hchild : f.child? index = some child) :
    index < f.begun := by
  have present : index ∈ f.running.map (·.1) := List.mem_map_of_mem (f := (·.1)) (mem_of_child? hchild)
  exact List.mem_range.mp (h.indices.mem_iff.mp (List.mem_append_left _ present))

/-- The output at the index of a job that has one is an output of that job. -/
theorem outputAt_mem {index : Nat} (h : index ∈ f.outputs.map (·.1)) : (index, f.outputAt index) ∈ f.outputs := by
  obtain ⟨e, he, rfl⟩ := List.mem_map.mp h
  unfold outputAt
  cases hfound : f.outputs.find? (·.1 == e.1) with
  | none => exact absurd (List.find?_eq_none.mp hfound e he) (by simp)
  | some found =>
      have same : found.1 = e.1 := by simpa using List.find?_some hfound
      exact same ▸ List.mem_of_find?_eq_some hfound

/-- **All outputs are there, each once,** when every job has begun and none is under way. -/
theorem Accounted.outputs_of_idle (h : f.Accounted) (begun : f.begun = f.jobs.length) (idle : f.isIdle = true) :
    (f.outputs.map (·.1)).Perm (List.range f.jobs.length) := by
  have nobody : f.running = [] := List.isEmpty_iff.mp idle
  have indices := h.indices
  rwa [nobody, List.map_nil, List.nil_append, begun] at indices

end Workflow.Execution.FanOut
