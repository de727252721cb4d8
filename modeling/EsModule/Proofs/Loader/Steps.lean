import EsModule.Loader.Compiling
import Mathlib.Data.List.Perm.Basic
import Mathlib.Logic.Relation

/-!
# Driving tasks on takes steps

`TaskStep` says what may happen while tasks are driven on, one small step at a time and in any
order: a request is begun, an answer comes nearer and is received, a task takes down that one it
waits for is done, and a task is given up or completed. Whoever asks for the outcome of a task
causes a run of such steps (`ask_drives`), which leaves the tasks that are being asked already as
they are. So what every step keeps holds whatever the order in which tasks are driven.
-/

namespace EsModule.Loader.Graph

open Relation

variable {site : Site}

/-! ## Steps -/

/-- A step that a task of a graph may take. -/
inductive TaskStep (site : Site) (g : Graph) : Graph → Prop where
  /-- A request is made. -/
  | begin (t : Nat) : TaskStep site g (g.begin site t)
  /-- A delayed answer comes nearer. -/
  | tick (t : Nat) : TaskStep site g (g.tick t)
  /-- An answer is received. -/
  | receive (t : Nat) : TaskStep site g (g.receive t)
  /-- A task that another one waits for was successful. -/
  | arrive {t : Nat} {awaits : List Await} {a : Await} {c : Option Compiled}
    (ha : g.awaitsOf t = some awaits) (hmem : a ∈ awaits)
    (ho : g.outcome? a.task = some (.ok c)) : TaskStep site g (g.arrive t a)
  /-- A task that another one waits for ended in an error. -/
  | giveUp {t : Nat} {awaits : List Await} {a : Await} {e : LoadError}
    (ha : g.awaitsOf t = some awaits) (hmem : a ∈ awaits)
    (ho : g.outcome? a.task = some (.error e)) : TaskStep site g (g.giveUp t e)
  /-- A task that waits for nothing ends. -/
  | complete (t : Nat) : TaskStep site g (g.complete t)

/-- Some steps of tasks. -/
abbrev TaskSteps (site : Site) : Graph → Graph → Prop := ReflTransGen (TaskStep site)

/-! ## What a step does to the tasks -/

/-- A task that is there stays as it is. -/
def Keeps (g g' : Graph) (s : Nat) : Prop :=
  ∀ task, g.tasks[s]? = some task → g'.tasks[s]? = some task

variable {g g' : Graph} {s t : Nat}

theorem Keeps.trans {g'' : Graph} (h : Keeps g g' s) (h' : Keeps g' g'' s) : Keeps g g'' s :=
  fun task ht => h' task (h task ht)

theorem Keeps.progress? (h : Keeps g g' s) {p : Progress} (hp : g.progress? s = some p) :
    g'.progress? s = some p := by
  obtain ⟨task, ht, rfl⟩ := Option.map_eq_some_iff.mp hp
  rw [Graph.progress?, h task ht]
  rfl

theorem Keeps.awaitsOf (h : Keeps g g' s) {awaits : List Await} (ha : g.awaitsOf s = some awaits) :
    g'.awaitsOf s = some awaits := by
  unfold Graph.awaitsOf at ha ⊢
  split at ha
  · rename_i hp
    rw [h.progress? hp]
    exact ha
  · cases ha

theorem tasks_setProgress (g : Graph) (t s : Nat) (p : Progress) :
    (g.setProgress t p).tasks[s]? =
      if t = s then (g.tasks[s]?).map fun task => { task with progress := p } else g.tasks[s]? :=
  Array.getElem?_modify

theorem tasks_setProgress_of {task : Task} (ht : g.tasks[t]? = some task) (p : Progress) (s : Nat) :
    (g.setProgress t p).tasks[s]? =
      if t = s then some { task with progress := p } else g.tasks[s]? := by
  rw [tasks_setProgress]
  refine if_ctx_congr Iff.rfl (fun hts => ?_) fun _ => rfl
  rw [← hts, ht]
  rfl

theorem tasks_setProgress_self {task : Task} (ht : g.tasks[t]? = some task) (p : Progress) :
    (g.setProgress t p).tasks[t]? = some { task with progress := p } :=
  (tasks_setProgress_of ht p t).trans (if_pos rfl)

theorem keeps_setProgress (h : t ≠ s) (p : Progress) : Keeps g (g.setProgress t p) s := by
  intro task ht
  rw [tasks_setProgress, if_neg h, ht]

theorem tasks_settle (g : Graph) (storeId : String) (outcome : Outcome) :
    (g.settle storeId outcome).tasks = g.tasks := by
  unfold settle
  split <;> rfl

theorem tasks_finish (g : Graph) (t s : Nat) (outcome : Outcome) :
    (g.finish t outcome).tasks[s]? =
      if t = s then (g.tasks[s]?).map fun task => { task with progress := .done outcome }
      else g.tasks[s]? := by
  unfold finish
  split
  · rename_i hnone
    split
    · rename_i hts
      rw [← hts, hnone]
      rfl
    · rfl
  · rename_i task _
    rw [tasks_setProgress]
    cases task.isInline <;> simp [tasks_settle]

theorem tasks_finish_of {task : Task} (ht : g.tasks[t]? = some task) (outcome : Outcome) (s : Nat) :
    (g.finish t outcome).tasks[s]? =
      if t = s then some { task with progress := .done outcome } else g.tasks[s]? := by
  rw [tasks_finish, ← tasks_setProgress, tasks_setProgress_of ht]

theorem tasks_finish_self {task : Task} (ht : g.tasks[t]? = some task) (outcome : Outcome) :
    (g.finish t outcome).tasks[t]? = some { task with progress := .done outcome } :=
  (tasks_finish_of ht outcome t).trans (if_pos rfl)

theorem keeps_finish (h : t ≠ s) (outcome : Outcome) : Keeps g (g.finish t outcome) s := by
  intro task ht
  rw [tasks_finish, if_neg h, ht]

theorem tasks_removeWaits (g : Graph) (storeId : String) (awaits : List Await) :
    (awaits.foldl (fun g a => g.removeWait ⟨storeId, a.target⟩) g).tasks = g.tasks := by
  induction awaits generalizing g with
  | nil => rfl
  | cons a awaits ih => exact ih (g.removeWait ⟨storeId, a.target⟩)

theorem tasks_abandon (g : Graph) (t s : Nat) (storeId : String) (awaits : List Await)
    (e : LoadError) : (g.abandon t storeId awaits e).tasks[s]? =
      if t = s then (g.tasks[s]?).map fun task => { task with progress := .done (.error e) }
      else g.tasks[s]? := by
  rw [abandon, tasks_finish, tasks_removeWaits]

theorem keeps_abandon (h : t ≠ s) (storeId : String) (awaits : List Await) (e : LoadError) :
    Keeps g (g.abandon t storeId awaits e) s := by
  intro task ht
  rw [tasks_abandon, if_neg h, ht]

theorem keeps_newTask (task : Task) : Keeps g (g.newTask task).2 s := by
  intro task' ht
  obtain ⟨hs, rfl⟩ := Array.getElem?_eq_some_iff.mp ht
  exact (Array.getElem?_push_lt hs)

theorem keeps_taskFor (storeId : String) (request : Url) :
    Keeps g (g.taskFor storeId request).2 s := by
  unfold taskFor
  split
  · exact fun _ h => h
  · exact fun _ h => h
  · exact fun _ h => h
  · exact keeps_newTask _

theorem tasks_addWait (g : Graph) (w : Wait) : (g.addWait w).tasks = g.tasks := by
  unfold addWait
  split <;> rfl

theorem tasks_ensure (g : Graph) (storeId : String) (request : Url) (waiter : Option String) :
    (g.ensure storeId request waiter).2.tasks = (g.taskFor storeId request).2.tasks := by
  unfold ensure
  split
  · rename_i h
    rw [h]
  · rename_i h
    rw [h]
  · rename_i h
    rw [h]
    split
    · rfl
    · exact tasks_addWait _ _

theorem keeps_ensure (storeId : String) (request : Url) (waiter : Option String) :
    Keeps g (g.ensure storeId request waiter).2 s := by
  intro task ht
  rw [tasks_ensure]
  exact keeps_taskFor storeId request task ht

theorem keeps_askForAll (storeId : String) (realUrl : Url) (specifiers : List String)
    (children : Children) : Keeps g (askForAll storeId realUrl specifiers children g).2 s := by
  induction specifiers generalizing children g with
  | nil => exact fun _ h => h
  | cons specifier specifiers ih =>
    unfold askForAll
    split
    · exact (keeps_ensure _ _ _).trans (ih _)
    · exact fun _ h => h
    · exact fun _ h => h

/-! ### The steps leave other tasks alone -/

theorem keeps_begin (h : t ≠ s) (site : Site) : Keeps g (g.begin site t) s := by
  unfold Graph.begin
  split
  · split
    · exact (keeps_setProgress h _ : Keeps { g with requests := g.requests + 1 } _ s)
    · exact keeps_finish h _
  · exact fun _ h => h

theorem keeps_tick (h : t ≠ s) : Keeps g (g.tick t) s := by
  unfold tick
  split
  · exact keeps_setProgress h _
  · exact fun _ h => h

theorem keeps_analyse (h : t ≠ s) (storeId : String) (r : Response) :
    Keeps g (g.analyse t storeId r) s := by
  unfold analyse
  split
  · exact keeps_finish h _
  · rename_i m _
    have hdeclared : ∀ declared, Keeps g { g with declared := declared } s := fun _ _ h => h
    dsimp only
    split
    · rename_i children g' hask
      have hkeeps := hask ▸
        keeps_askForAll (s := s) storeId r.finalUrl m.interface.dependencies ⟨[], []⟩
      refine Keeps.trans ?_ (Keeps.trans hkeeps (keeps_setProgress h _))
      split
      · exact fun _ h => h
      · exact hdeclared _
    · rename_i e children g' hask
      have hkeeps := hask ▸
        keeps_askForAll (s := s) storeId r.finalUrl m.interface.dependencies ⟨[], []⟩
      refine Keeps.trans ?_ (Keeps.trans hkeeps (keeps_abandon h _ _ _))
      split
      · exact fun _ h => h
      · exact hdeclared _

theorem keeps_receive (h : t ≠ s) : Keeps g (g.receive t) s := by
  unfold receive
  split
  · split
    · split
      · exact keeps_analyse h _ _
      · exact keeps_finish h _
    · exact keeps_finish h _
  · exact fun _ h => h

theorem keeps_arrive (h : t ≠ s) (a : Await) : Keeps g (g.arrive t a) s := by
  unfold arrive
  split
  · exact keeps_setProgress h _
  · exact fun _ h => h

theorem keeps_giveUp (h : t ≠ s) (e : LoadError) : Keeps g (g.giveUp t e) s := by
  unfold giveUp
  split
  · exact keeps_abandon h _ _ _
  · exact fun _ h => h

theorem keeps_complete (h : t ≠ s) : Keeps g (g.complete t) s := by
  unfold complete
  split
  · split
    · exact keeps_finish h _
    · exact fun _ h => h
  · exact fun _ h => h

/-! ## Driving -/

/-- What asking for the outcomes of tasks does, on behalf of tasks that are being asked. -/
structure Drives (site : Site) (asking : List Nat)
    (ask : Nat → Graph → Option Outcome × Graph) : Prop where
  /-- Only steps are taken. -/
  steps : ∀ t g, TaskSteps site g (ask t g).2
  /-- The tasks that are being asked stay as they are. -/
  keeps : ∀ t g, ∀ s ∈ asking, Keeps g (ask t g).2 s
  /-- The outcome that is given is that of the task. -/
  outcome : ∀ t g o, (ask t g).1 = some o → (ask t g).2.outcome? t = some o

/-- What comes of asking the tasks that a task waits for. -/
structure AskedAwaits (site : Site) (t : Nat) (all : Bool) (g : Graph) (result : Asked × Graph) :
    Prop where
  steps : TaskSteps site g result.2
  /-- If all are done, nothing is left to wait for. -/
  allDone : result.1 = .allDone → all = true ∧ result.2.awaitsOf t = some []
  /-- If one ended in an error, the task still waits for it. -/
  failed : ∀ e, result.1 = .failed e → ∃ awaits a, result.2.awaitsOf t = some awaits ∧ a ∈ awaits ∧
    result.2.outcome? a.task = some (.error e)

theorem awaitsOf_eq_some {awaits : List Await} : g.awaitsOf t = some awaits ↔
    ∃ task analysis, g.tasks[t]? = some task ∧ task.progress = .waiting analysis ∧
      analysis.awaits = awaits := by
  unfold Graph.awaitsOf Graph.progress?
  cases g.tasks[t]? with
  | none => simp
  | some task => cases hp : task.progress <;> simp [hp]

theorem outcome?_eq_some {o : Outcome} : g.outcome? t = some o ↔
    ∃ task, g.tasks[t]? = some task ∧ task.progress = .done o := by
  unfold Graph.outcome? Graph.progress?
  cases g.tasks[t]? with
  | none => simp
  | some task => cases hp : task.progress <;> simp [hp]

theorem awaitsOf_arrive {awaits : List Await} (h : g.awaitsOf t = some awaits) (a : Await) :
    (g.arrive t a).awaitsOf t = some (awaits.erase a) := by
  obtain ⟨⟨storeId, request, isInline, progress⟩, analysis, ht, rfl, rfl⟩ := awaitsOf_eq_some.mp h
  have htasks : (g.arrive t a).tasks[t]? = some ⟨storeId, request, isInline,
      .waiting { analysis with awaits := analysis.awaits.erase a }⟩ := by
    unfold arrive
    rw [ht]
    exact tasks_setProgress_self ht _
  exact awaitsOf_eq_some.mpr ⟨_, _, htasks, rfl, rfl⟩

/-- A task waits for some tasks that are kept and some that are still to be asked, in any order. -/
def WaitsFor (g : Graph) (t : Nat) (kept awaits : List Await) : Prop :=
  ∃ current, g.awaitsOf t = some current ∧ current.Perm (kept ++ awaits)

namespace WaitsFor

variable {kept awaits : List Await} {a : Await}

theorem of_awaitsOf (h : g.awaitsOf t = some awaits) : g.WaitsFor t [] awaits :=
  ⟨awaits, h, .refl _⟩

theorem keeps (h : g.WaitsFor t kept awaits) (hk : Keeps g g' t) : g'.WaitsFor t kept awaits := by
  obtain ⟨current, hcurrent, hperm⟩ := h
  exact ⟨current, hk.awaitsOf hcurrent, hperm⟩

theorem mem (h : g.WaitsFor t kept (a :: awaits)) :
    ∃ current, g.awaitsOf t = some current ∧ a ∈ current := by
  obtain ⟨current, hcurrent, hperm⟩ := h
  exact ⟨current, hcurrent, hperm.mem_iff.mpr (List.mem_append_right _ List.mem_cons_self)⟩

/-- One that is not done is kept. -/
theorem keep (h : g.WaitsFor t kept (a :: awaits)) : g.WaitsFor t (kept ++ [a]) awaits := by
  obtain ⟨current, hcurrent, hperm⟩ := h
  exact ⟨current, hcurrent, by simpa using hperm⟩

/-- One that is done is not waited for any more. -/
theorem arrive (h : g.WaitsFor t kept (a :: awaits)) : (g.arrive t a).WaitsFor t kept awaits := by
  obtain ⟨current, hcurrent, hperm⟩ := h
  refine ⟨current.erase a, awaitsOf_arrive hcurrent a, (hperm.erase a).trans ?_⟩
  have hmiddle : (kept ++ a :: awaits).Perm (a :: (kept ++ awaits)) := List.perm_middle
  have herased := hmiddle.erase a
  rwa [List.erase_cons_head] at herased

end WaitsFor

/-- The tasks that a task waits for are asked in their order. Those that have been asked and are not
done are still waited for, and so are those that are to be asked. -/
theorem askAwaits_spec {ask : Nat → Graph → Option Outcome × Graph} {asking : List Nat}
    (h : Drives site asking ask) (ht : t ∈ asking) {kept awaits : List Await} {all : Bool}
    (hw : g.WaitsFor t kept awaits) (hkept : all = true → kept = []) :
    AskedAwaits site t all g (askAwaits ask t awaits all g) := by
  induction awaits generalizing g kept all with
  | nil =>
    obtain ⟨current, hcurrent, hperm⟩ := hw
    refine ⟨.refl, fun hall => ?_, fun e he => ?_⟩
    · cases all with
      | false => cases hall
      | true =>
        obtain rfl := hkept rfl
        obtain rfl := hperm.eq_nil
        exact ⟨rfl, hcurrent⟩
    · cases all <;> cases he
  | cons a awaits ih =>
    have hsteps := h.steps a.task g
    have hkeeps := hw.keeps (h.keeps a.task g t ht)
    have houtcome := h.outcome a.task g
    unfold askAwaits
    split
    · rename_i g' hask
      rw [hask] at hsteps hkeeps
      have hrest : AskedAwaits site t false g' (askAwaits ask t awaits false g') :=
        ih hkeeps.keep nofun
      exact ⟨hsteps.trans hrest.steps, fun hall => absurd (hrest.allDone hall).1 nofun,
        hrest.failed⟩
    · rename_i c g' hask
      rw [hask] at hsteps hkeeps houtcome
      obtain ⟨current, hcurrent, hmem⟩ := hkeeps.mem
      have hstep : TaskStep site g' (g'.arrive t a) := .arrive hcurrent hmem (houtcome _ rfl)
      have hrest := ih hkeeps.arrive hkept
      exact ⟨(hsteps.tail hstep).trans hrest.steps, hrest.allDone, hrest.failed⟩
    · rename_i e g' hask
      rw [hask] at hsteps hkeeps houtcome
      refine ⟨hsteps, nofun, fun e' he => ?_⟩
      obtain rfl := Asked.failed.inj he
      obtain ⟨current, hcurrent, hmem⟩ := hkeeps.mem
      exact ⟨current, a, hcurrent, hmem, houtcome _ rfl⟩

theorem keeps_askAwaits {ask : Nat → Graph → Option Outcome × Graph} {asking : List Nat}
    (h : Drives site asking ask) (hs : s ∈ asking) (hne : t ≠ s) (awaits : List Await)
    (all : Bool) : Keeps g (askAwaits ask t awaits all g).2 s := by
  induction awaits generalizing g all with
  | nil => exact fun _ h => h
  | cons a awaits ih =>
    have hkeeps := h.keeps a.task g s hs
    unfold askAwaits
    split
    · rename_i g' hask
      rw [hask] at hkeeps
      exact hkeeps.trans (ih false)
    · rename_i c g' hask
      rw [hask] at hkeeps
      exact hkeeps.trans ((keeps_arrive hne a).trans (ih all))
    · rename_i e g' hask
      rw [hask] at hkeeps
      exact hkeeps

theorem conclude_steps {all : Bool} {result : Asked × Graph}
    (h : AskedAwaits site t all g result) : TaskSteps site g (result.2.conclude t result.1) := by
  obtain ⟨asked, g'⟩ := result
  refine h.steps.trans ?_
  cases asked with
  | allDone => exact .single (.complete t)
  | notYet => exact .refl
  | failed e =>
    obtain ⟨awaits, a, ha, hmem, ho⟩ := h.failed e rfl
    exact .single (.giveUp ha hmem ho)

theorem keeps_conclude (h : t ≠ s) (asked : Asked) : Keeps g (g.conclude t asked) s := by
  cases asked with
  | allDone => exact keeps_complete h
  | notYet => exact fun _ h => h
  | failed e => exact keeps_giveUp h e

/-- A task that is being asked is not asked again. -/
theorem ask_of_mem {asking : List Nat} (h : t ∈ asking) (depth : Nat) :
    ask site (depth + 1) asking t g = (none, g) := by
  unfold ask
  rw [if_pos h]

/-- A task that is not being asked goes through its own steps, and then asks those it waits for. -/
theorem ask_of_notMem {asking : List Nat} (h : t ∉ asking) (depth : Nat) :
    ask site (depth + 1) asking t g =
      if (g.begin site t).isDelayed t then (none, (g.begin site t).tick t)
      else match ((g.begin site t).receive t).awaitsOf t with
        | some awaits =>
          let result := askAwaits (ask site depth (t :: asking)) t awaits true
            ((g.begin site t).receive t)
          ((result.2.conclude t result.1).outcome? t, result.2.conclude t result.1)
        | none => (((g.begin site t).receive t).outcome? t, (g.begin site t).receive t) := by
  conv_lhs => unfold ask
  exact if_neg h

theorem begin_receive_steps (site : Site) (g : Graph) (t : Nat) :
    TaskSteps site g ((g.begin site t).receive t) :=
  ReflTransGen.tail (.single (.begin t)) (.receive t)

/-- Asking for the outcome of a task takes steps only, and none of a task that is being asked. -/
theorem ask_drives (site : Site) (depth : Nat) (asking : List Nat) :
    Drives site asking (ask site depth asking) := by
  induction depth generalizing asking with
  | zero => exact ⟨fun _ _ => .refl, fun _ _ _ _ _ h => h, nofun⟩
  | succ depth ih =>
    have hspec : ∀ (t : Nat) (g : Graph) (awaits : List Await),
        ((g.begin site t).receive t).awaitsOf t = some awaits →
        AskedAwaits site t true ((g.begin site t).receive t)
          (askAwaits (ask site depth (t :: asking)) t awaits true ((g.begin site t).receive t)) :=
      fun t g awaits ha => askAwaits_spec (ih (t :: asking)) List.mem_cons_self (.of_awaitsOf ha)
        fun _ => rfl
    refine ⟨fun t g => ?_, fun t g s hs => ?_, fun t g o ho => ?_⟩
    · by_cases ht : t ∈ asking
      · rw [ask_of_mem ht]
      rw [ask_of_notMem ht]
      split
      · exact ReflTransGen.tail (.single (.begin t)) (.tick t)
      split
      · rename_i awaits ha
        exact (begin_receive_steps site g t).trans (conclude_steps (hspec t g awaits ha))
      · exact begin_receive_steps site g t
    · by_cases ht : t ∈ asking
      · rw [ask_of_mem ht]
        exact fun _ h => h
      have hne : t ≠ s := fun h => ht (h ▸ hs)
      rw [ask_of_notMem ht]
      split
      · exact (keeps_begin hne site).trans (keeps_tick hne)
      have hkeeps := (keeps_begin (g := g) hne site).trans (keeps_receive hne)
      split
      · rename_i awaits ha
        have hasked := keeps_askAwaits (g := (g.begin site t).receive t) (ih _)
          (List.mem_cons_of_mem t hs) hne awaits true
        exact hkeeps.trans (hasked.trans (keeps_conclude hne _))
      · exact hkeeps
    · by_cases ht : t ∈ asking
      · rw [ask_of_mem ht] at ho
        cases ho
      rw [ask_of_notMem ht] at ho ⊢
      split at ho
      · cases ho
      rename_i hdelayed
      rw [if_neg hdelayed]
      split at ho <;> exact ho

/-! ## What a step does -/

/-- What a step does, if it does anything: it takes one task on that is not done. -/
inductive Acts (g : Graph) : Graph → Prop where
  | nothing : Acts g g
  /-- An idle task makes its request. -/
  | request {t : Nat} {task : Task} {delay : Nat} {answer : Except LoadError Response}
    (ht : g.tasks[t]? = some task) (hprogress : task.progress = .idle) :
    Acts g ({ g with requests := g.requests + 1 }.setProgress t (.fetching delay answer))
  /-- An answer comes nearer. -/
  | nearer {t : Nat} {task : Task} {delay : Nat} {answer : Except LoadError Response}
    (ht : g.tasks[t]? = some task) (hprogress : task.progress = .fetching (delay + 1) answer) :
    Acts g (g.setProgress t (.fetching delay answer))
  /-- A task ends that waits for nobody. A compiled module has the store id of its task, and depends
  on what was asked for. -/
  | finish {t : Nat} {task : Task} {outcome : Outcome} (ht : g.tasks[t]? = some task)
    (hnot : ∀ o, task.progress ≠ .done o)
    (hawaits : ∀ analysis, task.progress = .waiting analysis → analysis.awaits = [])
    (hnamed : ∀ c, outcome = .ok (some c) → c.resource.storeId = task.storeId)
    (hasked : ∀ c, outcome = .ok (some c) → ∃ analysis, task.progress = .waiting analysis ∧
      c.dependencies = analysis.dependencies) :
    Acts g (g.finish t outcome)
  /-- A task takes its text. -/
  | analyse {t : Nat} {task : Task} {r : Response} (ht : g.tasks[t]? = some task)
    (hprogress : task.progress = .fetching 0 (.ok r)) : Acts g (g.analyse t task.storeId r)
  /-- A task takes down that one it waits for was successful. -/
  | arrive {t : Nat} {task : Task} {analysis : Analysis} {a : Await} {c : Option Compiled}
    (ht : g.tasks[t]? = some task) (hprogress : task.progress = .waiting analysis)
    (ho : g.outcome? a.task = some (.ok c)) (hmem : a ∈ analysis.awaits) :
    Acts g ((g.removeWait ⟨task.storeId, a.target⟩).setProgress t
      (.waiting { analysis with awaits := analysis.awaits.erase a }))
  /-- A task gives up. -/
  | giveUp {t : Nat} {task : Task} {analysis : Analysis} {e : LoadError}
    (ht : g.tasks[t]? = some task) (hprogress : task.progress = .waiting analysis) :
    Acts g (g.abandon t task.storeId analysis.awaits e)

theorem storeId_outcomeOf {storeId : String} {a : Analysis} {c : Compiled}
    (h : g.outcomeOf storeId a = .ok (some c)) :
    c.resource.storeId = storeId ∧ c.dependencies = a.dependencies := by
  unfold outcomeOf at h
  split at h
  · cases h
    exact ⟨rfl, rfl⟩
  · cases h

theorem TaskStep.acts (h : TaskStep site g g') : Acts g g' := by
  cases h with
  | begin t =>
    unfold Graph.begin
    split
    · rename_i ht
      split
      · exact .request ht rfl
      · exact .finish ht nofun nofun nofun nofun
    · exact .nothing
  | tick t =>
    unfold Graph.tick
    split
    · rename_i hprogress
      obtain ⟨task, ht, heq⟩ := Option.map_eq_some_iff.mp hprogress
      exact .nearer ht heq
    · exact .nothing
  | receive t =>
    unfold Graph.receive
    split
    · rename_i ht
      split
      · split
        · exact .analyse ht rfl
        · exact .finish ht nofun nofun nofun nofun
      · exact .finish ht nofun nofun nofun nofun
    · exact .nothing
  | arrive ha hmem ho =>
    obtain ⟨task', analysis', ht', hprogress, rfl⟩ := awaitsOf_eq_some.mp ha
    unfold Graph.arrive
    split
    · rename_i ht
      cases ht.symm.trans ht'
      obtain rfl := Progress.waiting.inj hprogress
      exact .arrive ht rfl ho hmem
    · exact .nothing
  | giveUp =>
    unfold Graph.giveUp
    split
    · rename_i ht
      exact .giveUp ht rfl
    · exact .nothing
  | complete t =>
    unfold Graph.complete
    split
    · rename_i ht
      split
      · rename_i hnil
        refine .finish ht nofun (fun analysis hprogress => ?_)
          (fun c hc => (storeId_outcomeOf hc).1) fun c hc => ⟨_, rfl, (storeId_outcomeOf hc).2⟩
        rw [← Progress.waiting.inj hprogress]
        exact List.isEmpty_iff.mp hnil
      · exact .nothing
    · exact .nothing

end EsModule.Loader.Graph
