import EsModule.Proofs.Loader.Effects

/-!
# For whom a task waits

Whatever happens to a graph, its tasks stay those of their modules (`Continues`), and every task
that waits does so for tasks of modules that it depends on (`AwaitsNamed`): whoever asks for a
module is given the task of that very module to wait for (`ensure_names`).
-/

namespace EsModule.Loader

open EsModule.Compile Relation

namespace Graph

variable {site : Site} {g g' g'' : Graph} {t : Nat} {task : Task} {a : Await}

/-! ## Tasks go on -/

/-- Each task is still there, perhaps at another stage. -/
def Continues (g g' : Graph) : Prop :=
  ∀ (t : Nat) (task : Task), g.tasks[t]? = some task →
    ∃ p, g'.tasks[t]? = some { task with progress := p }

namespace Continues

theorem refl (g : Graph) : g.Continues g := fun _ task ht => ⟨task.progress, ht⟩

theorem trans (h : g.Continues g') (h' : g'.Continues g'') : g.Continues g'' := by
  intro t task ht
  obtain ⟨p, ht'⟩ := h t task ht
  obtain ⟨p', ht''⟩ := h' t _ ht'
  exact ⟨p', ht''⟩

theorem of_keeps (h : ∀ t, Keeps g g' t) : g.Continues g' :=
  fun t task ht => ⟨task.progress, h t task ht⟩

theorem setProgress (g : Graph) (t : Nat) (p : Progress) : g.Continues (g.setProgress t p) := by
  intro u task hu
  rw [tasks_setProgress, hu]
  split
  · exact ⟨p, rfl⟩
  · exact ⟨task.progress, rfl⟩

theorem finish (g : Graph) (t : Nat) (outcome : Outcome) :
    g.Continues (g.finish t outcome) := by
  intro u task hu
  rw [tasks_finish, hu]
  split
  · exact ⟨.done outcome, rfl⟩
  · exact ⟨task.progress, rfl⟩

theorem steps (h : TaskSteps site g g') : g.Continues g' := by
  induction h with
  | refl => exact .refl g
  | tail _ hstep ih =>
    refine ih.trans fun t task ht => ?_
    obtain ⟨p, ht', -⟩ := hstep.effect.stage ht
    exact ⟨p, ht'⟩

end Continues

/-! ## Tasks that are waited for -/

/-- The task that is waited for compiles the module that is waited for. -/
def NamesTask (g : Graph) (a : Await) : Prop :=
  ∃ task, g.tasks[a.task]? = some task ∧ task.storeId = a.target ∧ task.isInline = false

theorem NamesTask.mono (h : g.NamesTask a) (hc : g.Continues g') : g'.NamesTask a := by
  obtain ⟨task, ht, htarget, hslot⟩ := h
  obtain ⟨p, ht'⟩ := hc _ task ht
  exact ⟨_, ht', htarget, hslot⟩

/-- Some tasks to wait for compile modules that are depended on. -/
def AwaitsFit (g : Graph) (dependencies : List String) (awaits : List Await) : Prop :=
  ∀ a ∈ awaits, a.target ∈ dependencies ∧ g.NamesTask a

theorem AwaitsFit.nil (g : Graph) (dependencies : List String) : g.AwaitsFit dependencies [] :=
  fun _ ha => absurd ha List.not_mem_nil

theorem AwaitsFit.mono {dependencies : List String} {awaits : List Await}
    (h : g.AwaitsFit dependencies awaits) (hc : g.Continues g') :
    g'.AwaitsFit dependencies awaits :=
  fun a ha => ⟨(h a ha).1, (h a ha).2.mono hc⟩

/-- Every task waits only for tasks of modules that it depends on. -/
def AwaitsNamed (g : Graph) : Prop :=
  ∀ (t : Nat) (task : Task) (analysis : Analysis), g.tasks[t]? = some task →
    task.progress = .waiting analysis → g.AwaitsFit analysis.dependencies analysis.awaits

namespace AwaitsNamed

variable (h : g.AwaitsNamed)
include h

theorem update (hc : g.Continues g')
    (hnew : ∀ (u : Nat) (task : Task) (analysis : Analysis), g'.tasks[u]? = some task →
      task.progress = .waiting analysis → g.tasks[u]? = some task ∨
        g'.AwaitsFit analysis.dependencies analysis.awaits) : g'.AwaitsNamed := by
  intro u task analysis hu hwaiting
  rcases hnew u task analysis hu hwaiting with hold | hfit
  · exact (h u task analysis hold hwaiting).mono hc
  · exact hfit

theorem of_eq (htasks : g'.tasks = g.tasks) : g'.AwaitsNamed :=
  h.update (.of_keeps fun _ _ ht => htasks ▸ ht) fun _ _ _ hu _ => .inl (htasks ▸ hu)

theorem setProgress (t : Nat) {p : Progress} (hp : ∀ analysis, p = .waiting analysis →
    g.AwaitsFit analysis.dependencies analysis.awaits) : (g.setProgress t p).AwaitsNamed := by
  refine h.update (.setProgress g t p) fun u task analysis hu hwaiting => ?_
  rw [tasks_setProgress] at hu
  split at hu
  · obtain ⟨_, -, rfl⟩ := Option.map_eq_some_iff.mp hu
    exact .inr ((hp analysis hwaiting).mono (.setProgress g t p))
  · exact .inl hu

theorem finish (t : Nat) (outcome : Outcome) : (g.finish t outcome).AwaitsNamed := by
  refine h.update (.finish g t outcome) fun u task analysis hu hwaiting => ?_
  rw [tasks_finish] at hu
  split at hu
  · obtain ⟨_, -, rfl⟩ := Option.map_eq_some_iff.mp hu
    cases hwaiting
  · exact .inl hu

theorem newTask (task : Task) (hnot : ∀ analysis, task.progress ≠ .waiting analysis) :
    (g.newTask task).2.AwaitsNamed := by
  refine h.update (.of_keeps fun _ => keeps_newTask task) fun u task' analysis hu hwaiting => ?_
  have hpush : (g.tasks.push task)[u]? = some task' := hu
  rw [Array.getElem?_push] at hpush
  split at hpush
  · -- the new task waits for nobody
    cases hpush
    exact absurd hwaiting (hnot analysis)
  · exact .inl hpush

theorem ensure (storeId : String) (request : Url) (waiter : Option String) :
    (g.ensure storeId request waiter).2.AwaitsNamed := by
  refine AwaitsNamed.of_eq ?_ (tasks_ensure g storeId request waiter)
  have htasks := tasks_taskFor g storeId request
  split at htasks
  · exact (h.newTask ⟨storeId, request, false, .idle⟩ nofun).of_eq htasks
  · exact h.of_eq htasks

theorem askForAll (storeId : String) (realUrl : Url) (specifiers : List String)
    (children : Children) : (askForAll storeId realUrl specifiers children g).2.AwaitsNamed := by
  induction specifiers generalizing children g with
  | nil => exact h
  | cons specifier specifiers ih =>
    unfold Graph.askForAll
    split
    · exact ih (h.ensure _ _ _) _
    · exact h
    · exact h

theorem abandon (t : Nat) (storeId : String) (awaits : List Await) (e : LoadError) :
    (g.abandon t storeId awaits e).AwaitsNamed :=
  (h.of_eq (tasks_removeWaits g storeId awaits)).finish t _

end AwaitsNamed

/-- Whoever asks for a module is told to wait for its task, if for any. -/
theorem ensure_names (hassigned : g.Assigned) {storeId : String} {request : Url}
    {waiter : Option String} (ha : (g.ensure storeId request waiter).1 = some a) :
    a.target = storeId ∧ (g.ensure storeId request waiter).2.NamesTask a := by
  have htaskFor : ∀ u, (g.taskFor storeId request).1 = some u →
      (g.taskFor storeId request).2.NamesTask ⟨u, storeId⟩ := by
    intro u hu
    have hpending : (g.taskFor storeId request).2.slots[storeId]? = some (.pending u) := by
      unfold taskFor at hu ⊢
      split at hu
      · cases hu
      · cases hu
      · rename_i hslot
        cases hu
        exact hslot
      · cases hu
        exact (Table.getElem?_insert ..).trans (if_pos rfl)
    obtain ⟨task, ht, hid, hslot, -⟩ := (hassigned.taskFor storeId request).inFlight _ _ hpending
    exact ⟨task, ht, hid, hslot⟩
  have htasks := tasks_ensure g storeId request waiter
  -- if somebody is told to wait at all, then for the task in the slot
  have hresult : ∃ u, (g.taskFor storeId request).1 = some u ∧ a = ⟨u, storeId⟩ := by
    unfold Graph.ensure at ha
    split at ha
    · cases ha
    · rename_i u _ heq
      cases ha
      exact ⟨u, by rw [heq], rfl⟩
    · rename_i u _ _ heq
      split at ha
      · cases ha
      · cases ha
        exact ⟨u, by rw [heq], rfl⟩
  obtain ⟨u, hu, rfl⟩ := hresult
  exact ⟨rfl, (htaskFor u hu).mono (.of_keeps fun _ _ ht => htasks ▸ ht)⟩

theorem askForAll_fits (hassigned : g.Assigned) {storeId : String} {realUrl : Url}
    {specifiers : List String} {children children' : Children}
    (hchildren : g.AwaitsFit children.dependencies children.awaits)
    (h : askForAll storeId realUrl specifiers children g = (.ok children', g')) :
    g'.AwaitsFit children'.dependencies children'.awaits := by
  induction specifiers generalizing children g with
  | nil =>
    cases h
    exact hchildren
  | cons specifier specifiers ih =>
    unfold askForAll at h
    split at h
    · rename_i child request _ _
      have hask := AsksFor.ensure g child.text request (some storeId)
      refine ih (hask.assigned hassigned) (fun a ha => ?_) h
      rcases List.mem_append.mp ha with ha | ha
      · obtain ⟨hmem, hnames⟩ := hchildren a ha
        exact ⟨List.mem_append_left _ hmem, hnames.mono (.of_keeps hask.keeps)⟩
      · obtain ⟨htarget, hnames⟩ := ensure_names hassigned (Option.mem_toList.mp ha)
        exact ⟨List.mem_append_right _ (List.mem_singleton.mpr htarget), hnames⟩
    · cases h
    · cases h

theorem AwaitsNamed.analyse (h : g.AwaitsNamed) (hassigned : g.Assigned) (t : Nat)
    (storeId : String) (r : Response) : (g.analyse t storeId r).AwaitsNamed := by
  unfold Graph.analyse
  split
  · exact h.finish t _
  · rename_i m _
    -- what is declared in advance has to do with no task
    have hstart : ∃ g₁ : Graph, g₁ = (if hasStars m.interface then g
        else { g with declared := g.declared.insert storeId m.interface.declared }) ∧
        g₁.AwaitsNamed ∧ g₁.Assigned := by
      refine ⟨_, rfl, ?_⟩
      split
      · exact ⟨h, hassigned⟩
      · exact ⟨h.of_eq rfl, hassigned.of_eq rfl rfl⟩
    obtain ⟨g₁, hg₁, hnamed, hassigned⟩ := hstart
    dsimp only
    rw [← hg₁]
    have hasked := hnamed.askForAll storeId r.finalUrl m.interface.dependencies ⟨[], []⟩
    split
    all_goals
      rename_i heq
      rw [heq] at hasked
    · refine hasked.setProgress t fun analysis hp => ?_
      cases hp
      exact askForAll_fits hassigned (.nil _ _) heq
    · exact hasked.abandon _ _ _ _

theorem TaskStep.awaitsNamed (hs : TaskStep site g g') (hassigned : g.Assigned)
    (h : g.AwaitsNamed) : g'.AwaitsNamed := by
  cases hs.acts with
  | nothing => exact h
  | request =>
    exact (h.of_eq rfl : AwaitsNamed { g with requests := g.requests + 1 }).setProgress _ nofun
  | nearer => exact h.setProgress _ nofun
  | finish => exact h.finish _ _
  | analyse => exact h.analyse hassigned _ _ _
  | arrive ht hprogress =>
    refine (h.of_eq rfl : AwaitsNamed (g.removeWait _)).setProgress _ fun analysis hp => ?_
    cases hp
    exact fun b hb => h _ _ _ ht hprogress b (List.mem_of_mem_erase hb)
  | giveUp => exact h.abandon _ _ _ _

theorem Turn.awaitsNamed (ht : g.Turn g') (hassigned : g.Assigned) (h : g.AwaitsNamed) :
    g'.AwaitsNamed := by
  cases ht with
  | task hs => exact hs.awaitsNamed hassigned h
  | ensure storeId request waiter => exact h.ensure storeId request waiter
  | provide => exact h.newTask _ nofun
  | preload resource => exact h.of_eq (tasks_preload g resource)
  | drop => exact h.of_eq rfl

/-- Whatever happens, slots are assigned to tasks, and tasks wait only for those of modules that
they depend on. -/
theorem Turns.awaitsNamed (ht : Turns g g') (hassigned : g.Assigned) (h : g.AwaitsNamed) :
    g'.Assigned ∧ g'.AwaitsNamed := by
  induction ht with
  | refl => exact ⟨hassigned, h⟩
  | tail _ hturn ih => exact ⟨hturn.effect.assigned ih.1, hturn.awaitsNamed ih.1 ih.2⟩

end Graph

end EsModule.Loader
