import EsModule.Proofs.Loader.Slots
import EsModule.Proofs.Loader.Turns

/-!
# What a turn does to tasks and slots

At every moment a slot is pending for the very task that compiles its module, and each task that is
in flight has its slot (`Assigned`). A turn may do much at once, but to tasks and slots it does
little (`Effect`): some modules are asked for (`AsksFor`), and then at most one task goes on or
ends. What every such effect keeps is kept by all turns.
-/

namespace EsModule.Loader

/-- A task compiles the module of a store id, and is not done. -/
def Task.Compiles (task : Task) (s : String) : Prop :=
  task.storeId = s ∧ task.isInline = false ∧ ∀ o, task.progress ≠ .done o

namespace Graph

variable {site : Site} {g g' g'' : Graph} {t : Nat} {task : Task} {s : String}

/-- A task is in flight for a store id. -/
def InFlight (g : Graph) (s : String) (t : Nat) : Prop :=
  ∃ task, g.tasks[t]? = some task ∧ task.Compiles s

theorem InFlight.keeps (h : g.InFlight s t) (hk : Keeps g g' t) : g'.InFlight s t := by
  obtain ⟨task, ht, hcompiles⟩ := h
  exact ⟨task, hk task ht, hcompiles⟩

/-! ## Slots and their tasks -/

/-- Slots are pending for the tasks in flight, each for its own. -/
structure Assigned (g : Graph) : Prop where
  /-- A task in flight owns its slot. -/
  owned : g.Owned
  /-- A slot that is pending has a task in flight. -/
  inFlight : ∀ (s : String) (t : Nat), g.slots[s]? = some (.pending t) → g.InFlight s t
  /-- Only tasks with slots wait to be begun. -/
  slotted : ∀ (t : Nat) (task : Task), g.tasks[t]? = some task → task.progress = .idle →
    task.isInline = false

theorem Assigned.pending (h : g.Assigned) (hflight : g.InFlight s t) :
    g.slots[s]? = some (.pending t) := by
  obtain ⟨task, ht, rfl, hslot, hnot⟩ := hflight
  exact h.owned t task ht hslot hnot

theorem Assigned.of_eq (h : g.Assigned) (hslots : g'.slots = g.slots)
    (htasks : g'.tasks = g.tasks) : g'.Assigned where
  owned := (Abides.of_eq hslots htasks h.owned).1
  inFlight s t hs := (h.inFlight s t (hslots ▸ hs)).keeps fun _ ht => htasks ▸ ht
  slotted t task ht := h.slotted t task (htasks ▸ ht)

theorem assigned_empty : empty.Assigned where
  owned _ _ ht := nomatch ht
  inFlight _ _ hs := nomatch hs
  slotted _ _ ht := nomatch ht

theorem tasks_taskFor (g : Graph) (storeId : String) (request : Url) :
    (g.taskFor storeId request).2.tasks = match g.slots[storeId]? with
      | none => g.tasks.push ⟨storeId, request, false, .idle⟩
      | some _ => g.tasks := by
  unfold taskFor
  rcases g.slots[storeId]? with _ | _ | _ | _ <;> rfl

/-- The slot that is made for a module belongs to the task that is made with it. -/
theorem Assigned.taskFor (h : g.Assigned) (storeId : String) (request : Url) :
    (g.taskFor storeId request).2.Assigned where
  owned := (abides_taskFor g storeId request h.owned).1
  inFlight s t hs := by
    rw [slots_taskFor] at hs
    split at hs
    · rename_i hnew
      obtain ⟨rfl, hvacant⟩ := hnew
      cases hs
      refine ⟨⟨storeId, request, false, .idle⟩, ?_, rfl, rfl, nofun⟩
      rw [tasks_taskFor, hvacant]
      exact Array.getElem?_push_size
    · exact (h.inFlight s t hs).keeps (keeps_taskFor storeId request)
  slotted t task ht hidle := by
    rw [tasks_taskFor] at ht
    split at ht
    · rw [Array.getElem?_push] at ht
      split at ht
      · cases ht
        rfl
      · exact h.slotted t task ht hidle
    · exact h.slotted t task ht hidle

/-- A task that is in flight may go on. -/
theorem Assigned.setProgress (h : g.Assigned) (ht : g.tasks[t]? = some task)
    (hnot : ∀ o, task.progress ≠ .done o) {p : Progress} (hbegun : p ≠ .idle)
    (hp : ∀ o, p ≠ .done o) : (g.setProgress t p).Assigned where
  owned := (abides_setProgress ht hnot p h.owned).1
  inFlight s t' hs := by
    obtain ⟨task', ht', hcompiles⟩ := h.inFlight s t' hs
    unfold InFlight
    rw [tasks_setProgress_of ht]
    split
    · rename_i heq
      obtain rfl : task = task' := Option.some.inj (ht.symm.trans (heq ▸ ht'))
      exact ⟨_, rfl, hcompiles.1, hcompiles.2.1, hp⟩
    · exact ⟨task', ht', hcompiles⟩
  slotted t' task' ht' hidle := by
    rw [tasks_setProgress_of ht] at ht'
    split at ht'
    · cases ht'
      exact absurd hidle hbegun
    · exact h.slotted t' task' ht' hidle

/-- A task that ends settles its own slot, which is not pending any more. -/
theorem Assigned.finish (h : g.Assigned) (ht : g.tasks[t]? = some task)
    (hnot : ∀ o, task.progress ≠ .done o) (outcome : Outcome) : (g.finish t outcome).Assigned where
  owned := (abides_finish ht hnot outcome h.owned).1
  inFlight s t' hs := by
    rw [slots_finish ht] at hs
    split at hs
    · rcases outcome with e | _ | c <;> cases hs
    · rename_i hother
      obtain ⟨task', ht', hcompiles⟩ := h.inFlight s t' hs
      have hne : t ≠ t' := by
        intro heq
        subst heq
        obtain rfl : task = task' := Option.some.inj (ht.symm.trans ht')
        exact hother ⟨hcompiles.1, hcompiles.2.1⟩
      exact ⟨task', keeps_finish hne outcome task' ht', hcompiles⟩
  slotted t' task' ht' hidle := by
    rw [tasks_finish_of ht] at ht'
    split at ht'
    · cases ht'
      cases hidle
    · exact h.slotted t' task' ht' hidle

theorem Assigned.provide (h : g.Assigned) (hinline : task.isInline = true)
    (hbegun : task.progress ≠ .idle) : (g.newTask task).2.Assigned where
  owned := (abides_newTask g hinline h.owned).1
  inFlight s t hs := (h.inFlight s t hs).keeps (keeps_newTask task)
  slotted t task' ht hidle := by
    have htasks : (g.tasks.push task)[t]? = some task' := ht
    rw [Array.getElem?_push] at htasks
    split at htasks
    · cases htasks
      exact absurd hidle hbegun
    · exact h.slotted t task' htasks hidle

theorem Assigned.preload (h : g.Assigned) (resource : Resource) :
    (g.preload resource).2.Assigned where
  owned := (abides_preload g resource h.owned).1
  inFlight s t hs := by
    rw [slots_preload] at hs
    split at hs
    · cases hs
    · exact (h.inFlight s t hs).keeps fun _ ht => (tasks_preload g resource).symm ▸ ht
  slotted t task ht := h.slotted t task (tasks_preload g resource ▸ ht)

/-! ## Asking -/

/-- Modules are asked for, and perhaps waits come and go: tasks stay as they are, unknown modules
may become pending, and no request is made. -/
structure AsksFor (g g' : Graph) : Prop where
  keeps : ∀ t, Keeps g g' t
  slots : ∀ s : String, g'.slots[s]? = g.slots[s]? ∨
    g.slots[s]? = none ∧ ∃ t, g'.slots[s]? = some (.pending t)
  requests : g'.requests = g.requests
  assigned : g.Assigned → g'.Assigned

namespace AsksFor

theorem of_eq (hslots : g'.slots = g.slots) (htasks : g'.tasks = g.tasks)
    (hrequests : g'.requests = g.requests) : AsksFor g g' where
  keeps _ _ ht := htasks ▸ ht
  slots _ := .inl (hslots ▸ rfl)
  requests := hrequests
  assigned h := h.of_eq hslots htasks

theorem refl (g : Graph) : AsksFor g g := of_eq rfl rfl rfl

theorem trans (h : AsksFor g g') (h' : AsksFor g' g'') : AsksFor g g'' where
  keeps t := (h.keeps t).trans (h'.keeps t)
  slots s := by
    rcases h.slots s with heq | ⟨hnone, t, hs⟩
    · exact heq ▸ h'.slots s
    · rcases h'.slots s with heq | ⟨hnone', -⟩
      · exact .inr ⟨hnone, t, heq.trans hs⟩
      · exact nomatch hs.symm.trans hnone'
  requests := h'.requests.trans h.requests
  assigned := h'.assigned ∘ h.assigned

theorem taskFor (g : Graph) (storeId : String) (request : Url) :
    AsksFor g (g.taskFor storeId request).2 where
  keeps _ := keeps_taskFor storeId request
  slots s := by
    rw [slots_taskFor]
    split
    · rename_i h
      exact .inr ⟨h.2, _, rfl⟩
    · exact .inl rfl
  requests := by
    unfold Graph.taskFor
    split <;> rfl
  assigned h := h.taskFor storeId request

theorem ensure (g : Graph) (storeId : String) (request : Url) (waiter : Option String) :
    AsksFor g (g.ensure storeId request waiter).2 := by
  have hrequests : (g.ensure storeId request waiter).2.requests =
      (g.taskFor storeId request).2.requests := by
    unfold Graph.ensure Graph.addWait
    split
    all_goals
      rename_i h
      rw [h]
    split
    · rfl
    · dsimp only
      split <;> rfl
  exact (taskFor g storeId request).trans
    (of_eq (slots_ensure g storeId request waiter) (tasks_ensure g storeId request waiter)
      hrequests)

theorem askForAll (g : Graph) (storeId : String) (realUrl : Url) (specifiers : List String)
    (children : Children) : AsksFor g (askForAll storeId realUrl specifiers children g).2 := by
  induction specifiers generalizing children g with
  | nil => exact refl g
  | cons specifier specifiers ih =>
    unfold Graph.askForAll
    split
    · exact (ensure g _ _ _).trans (ih _ _)
    · exact refl g
    · exact refl g

theorem removeWait (g : Graph) (w : Wait) : AsksFor g (g.removeWait w) := of_eq rfl rfl rfl

theorem removeWaits (g : Graph) (storeId : String) (awaits : List Await) :
    AsksFor g (awaits.foldl (fun g a => g.removeWait ⟨storeId, a.target⟩) g) := by
  induction awaits generalizing g with
  | nil => exact refl g
  | cons a awaits ih => exact (removeWait g _).trans (ih _)

end AsksFor

/-! ## What a turn does to tasks and slots -/

/-- What a turn may do to tasks and slots. -/
inductive Effect (g g' : Graph) : Prop where
  /-- Modules are asked for, and no task goes on. -/
  | asked (hask : AsksFor g g')
  /-- A task makes its request. -/
  | fetched {t : Nat} {task : Task} {delay : Nat} {answer : Except LoadError Response}
    (ht : g.tasks[t]? = some task) (hidle : task.progress = .idle)
    (h : g' = { g with requests := g.requests + 1 }.setProgress t (.fetching delay answer))
  /-- A task that has begun goes on, perhaps after it asked for modules. -/
  | advanced {g₁ : Graph} {t : Nat} {task : Task} {p : Progress}
    (hask : AsksFor g g₁) (ht : g.tasks[t]? = some task) (h : g' = g₁.setProgress t p)
    (hbegun : task.progress ≠ .idle) (hnot : ∀ o, task.progress ≠ .done o)
    (hp : p ≠ .idle) (hpnot : ∀ o, p ≠ .done o)
  /-- A task ends, perhaps after it asked for modules. -/
  | ended {g₁ : Graph} {t : Nat} {task : Task} {outcome : Outcome}
    (hask : AsksFor g g₁) (ht : g.tasks[t]? = some task) (h : g' = g₁.finish t outcome)
    (hnot : ∀ o, task.progress ≠ .done o)
  /-- There is a new task without a slot. -/
  | provided {task : Task} (h : g' = (g.newTask task).2) (hinline : task.isInline = true)
    (hbegun : task.progress ≠ .idle)
  /-- A compiled module is given. -/
  | preloaded (resource : Resource) (h : g' = (g.preload resource).2)

theorem Effect.abandon {g₁ : Graph} (hask : AsksFor g g₁) (ht : g.tasks[t]? = some task)
    (hnot : ∀ o, task.progress ≠ .done o) (storeId : String) (awaits : List Await)
    (e : LoadError) : Effect g (g₁.abandon t storeId awaits e) :=
  .ended (hask.trans (.removeWaits g₁ storeId awaits)) ht rfl hnot

theorem Effect.analyse (ht : g.tasks[t]? = some task) (hbegun : task.progress ≠ .idle)
    (hnot : ∀ o, task.progress ≠ .done o) (storeId : String) (r : Response) :
    Effect g (g.analyse t storeId r) := by
  unfold Graph.analyse
  split
  · exact .ended (.refl g) ht rfl hnot
  · rename_i m _
    have hstart : AsksFor g (if hasStars m.interface then g
        else { g with declared := g.declared.insert storeId m.interface.declared }) := by
      split <;> exact .of_eq rfl rfl rfl
    have hask := hstart.trans
      (.askForAll _ storeId r.finalUrl m.interface.dependencies ⟨[], []⟩)
    dsimp only
    split
    all_goals
      rename_i heq
      rw [heq] at hask
    · exact .advanced hask ht rfl hbegun hnot nofun nofun
    · exact .abandon hask ht hnot _ _ _

theorem TaskStep.effect (h : TaskStep site g g') : Effect g g' := by
  cases h.acts with
  | nothing => exact .asked (.refl g)
  | request ht hidle => exact .fetched ht hidle rfl
  | nearer ht hprogress =>
    exact .advanced (.refl g) ht rfl (hprogress ▸ nofun) (hprogress ▸ nofun) nofun nofun
  | finish ht hnot => exact .ended (.refl g) ht rfl hnot
  | analyse ht hprogress => exact .analyse ht (hprogress ▸ nofun) (hprogress ▸ nofun) _ _
  | arrive ht hprogress =>
    exact .advanced (.removeWait g _) ht rfl (hprogress ▸ nofun) (hprogress ▸ nofun) nofun nofun
  | giveUp ht hprogress => exact .abandon (.refl g) ht (hprogress ▸ nofun) _ _ _

theorem Turn.effect (h : g.Turn g') : Effect g g' := by
  cases h with
  | task hs => exact hs.effect
  | ensure storeId request waiter => exact .asked (.ensure g storeId request waiter)
  | provide storeId served code => exact .provided rfl rfl nofun
  | preload resource => exact .preloaded resource rfl
  | drop => exact .asked (.of_eq rfl rfl rfl)

namespace Effect

theorem assigned (h : Effect g g') (hassigned : g.Assigned) : g'.Assigned := by
  cases h with
  | asked hask => exact hask.assigned hassigned
  | fetched ht hidle h =>
    subst h
    exact (hassigned.of_eq rfl rfl : Assigned { g with requests := g.requests + 1 }).setProgress ht
      (hidle ▸ nofun) nofun nofun
  | advanced hask ht h _ hnot hp hpnot =>
    subst h
    exact (hask.assigned hassigned).setProgress (hask.keeps _ _ ht) hnot hp hpnot
  | ended hask ht h hnot =>
    subst h
    exact (hask.assigned hassigned).finish (hask.keeps _ _ ht) hnot _
  | provided h hinline hbegun =>
    subst h
    exact hassigned.provide hinline hbegun
  | preloaded resource h =>
    subst h
    exact hassigned.preload resource

/-- A task stays what it is, and it never becomes idle again. -/
theorem stage (h : Effect g g') (ht : g.tasks[t]? = some task) : ∃ p : Progress,
    g'.tasks[t]? = some { task with progress := p } ∧ (p = task.progress ∨ p ≠ .idle) := by
  have hkept : ∀ {g₁ : Graph}, g₁.tasks[t]? = some task → ∃ p : Progress,
      g₁.tasks[t]? = some { task with progress := p } ∧ (p = task.progress ∨ p ≠ .idle) :=
    fun ht => ⟨task.progress, ht, .inl rfl⟩
  cases h with
  | asked hask => exact hkept (hask.keeps t task ht)
  | fetched ht' _ h =>
    subst h
    rw [tasks_setProgress_of (g := { g with requests := g.requests + 1 }) ht']
    split
    · rename_i heq
      subst heq
      cases ht.symm.trans ht'
      exact ⟨_, rfl, .inr nofun⟩
    · exact hkept ht
  | advanced hask ht' h _ _ hp _ =>
    subst h
    rw [tasks_setProgress_of (hask.keeps _ _ ht')]
    split
    · rename_i heq
      subst heq
      cases ht.symm.trans ht'
      exact ⟨_, rfl, .inr hp⟩
    · exact hkept (hask.keeps t task ht)
  | ended hask ht' h _ =>
    subst h
    rw [tasks_finish_of (hask.keeps _ _ ht')]
    split
    · rename_i heq
      subst heq
      cases ht.symm.trans ht'
      exact ⟨_, rfl, .inr nofun⟩
    · exact hkept (hask.keeps t task ht)
  | provided h _ _ =>
    subst h
    exact hkept (keeps_newTask _ task ht)
  | preloaded resource h =>
    subst h
    rw [tasks_preload]
    exact hkept ht

end Effect

end Graph

end EsModule.Loader
