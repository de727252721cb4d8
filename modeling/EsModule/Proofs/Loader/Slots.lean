import EsModule.Proofs.Loader.Steps

/-!
# What a step does to the slots

The slot of a store id changes in two ways only: it is made when the module is asked for first, and
it is settled when its task ends. A compiled module is always kept under its own store id
(`SlotsNamed`).

The task that is made together with a slot owns it until the task is done (`Owned`), and only a
task that is not done settles a slot. So no two tasks settle one slot, and whatever tasks do, a
module that is compiled is neither compiled again nor taken away (`Lasts`).
-/

namespace EsModule.Loader.Graph

variable {site : Site} {g g' : Graph} {t : Nat} {s : String}

/-! ## Slots -/

@[simp] theorem slots_setProgress (g : Graph) (t : Nat) (p : Progress) :
    (g.setProgress t p).slots = g.slots := rfl

@[simp] theorem slots_addWait (g : Graph) (w : Wait) : (g.addWait w).slots = g.slots := by
  unfold addWait
  split <;> rfl

theorem slots_removeWaits (g : Graph) (storeId : String) (awaits : List Await) :
    (awaits.foldl (fun g a => g.removeWait ⟨storeId, a.target⟩) g).slots = g.slots := by
  induction awaits generalizing g with
  | nil => rfl
  | cons a awaits ih => exact ih (g.removeWait ⟨storeId, a.target⟩)

/-- What an outcome makes of a slot. -/
def slotOf? : Outcome → Option Slot
  | .ok (some c) => some (.ready c.resource)
  | .ok none => some .absent
  | .error _ => none

theorem slots_settle (g : Graph) (storeId : String) (outcome : Outcome) :
    (g.settle storeId outcome).slots[s]? =
      if storeId = s then slotOf? outcome else g.slots[s]? := by
  unfold settle slotOf?
  split
  · exact Table.getElem?_insert ..
  · exact Table.getElem?_insert ..
  · exact Table.getElem?_erase ..

theorem slots_finish {task : Task} (ht : g.tasks[t]? = some task) (outcome : Outcome) :
    (g.finish t outcome).slots[s]? =
      if task.storeId = s ∧ task.isInline = false then slotOf? outcome else g.slots[s]? := by
  unfold finish
  rw [ht]
  cases hi : task.isInline with
  | true => simp [hi]
  | false => simp [hi, slots_settle]

theorem slots_abandon {task : Task} (ht : g.tasks[t]? = some task) (storeId : String)
    (awaits : List Await) (e : LoadError) : (g.abandon t storeId awaits e).slots[s]? =
      if task.storeId = s ∧ task.isInline = false then none else g.slots[s]? := by
  have hremoved : (awaits.foldl (fun g a => g.removeWait ⟨storeId, a.target⟩) g).tasks[t]? =
      some task := by
    rw [tasks_removeWaits]
    exact ht
  rw [abandon, slots_finish hremoved, slots_removeWaits]
  rfl

theorem slots_taskFor (g : Graph) (storeId : String) (request : Url) :
    (g.taskFor storeId request).2.slots[s]? =
      if storeId = s ∧ g.slots[s]? = none then some (.pending g.tasks.size) else g.slots[s]? := by
  unfold taskFor
  cases h : g.slots[storeId]? with
  | none =>
    refine (Table.getElem?_insert ..).trans ?_
    by_cases hs : storeId = s
    · subst hs
      simp [h, newTask]
    · simp [hs]
      rfl
  | some slot =>
    have hs : ¬ (storeId = s ∧ g.slots[s]? = none) := by
      rintro ⟨rfl, hs⟩
      rw [h] at hs
      cases hs
    rw [if_neg hs]
    cases slot <;> rfl

theorem slots_ensure (g : Graph) (storeId : String) (request : Url) (waiter : Option String) :
    (g.ensure storeId request waiter).2.slots = (g.taskFor storeId request).2.slots := by
  unfold ensure
  split
  · rename_i h
    rw [h]
  · rename_i h
    rw [h]
  · rename_i h
    rw [h]
    split
    · rfl
    · exact slots_addWait _ _

theorem slots_preload (g : Graph) (resource : Resource) (s : String) :
    (g.preload resource).2.slots[s]? =
      if resource.storeId = s ∧ g.slots[s]? = none then some (.ready resource)
      else g.slots[s]? := by
  unfold preload
  rw [Std.TreeMap.contains_eq_isSome_getElem?]
  split
  · rename_i hknown
    have hnot : ¬ (resource.storeId = s ∧ g.slots[s]? = none) := by
      intro hnew
      rw [hnew.1, hnew.2] at hknown
      cases hknown
    rw [if_neg hnot]
  · rename_i hunknown
    refine (Table.getElem?_insert ..).trans (if_congr ⟨fun heq => ⟨heq, ?_⟩, And.left⟩ rfl rfl)
    exact heq ▸ Option.not_isSome_iff_eq_none.mp hunknown

theorem tasks_preload (g : Graph) (resource : Resource) :
    (g.preload resource).2.tasks = g.tasks := by
  unfold preload
  split <;> rfl

/-! ## Compiled modules are kept under their own store ids -/

/-- Every compiled module is kept under its own store id. -/
def SlotsNamed (g : Graph) : Prop :=
  ∀ (s : String) (r : Resource), g.slots[s]? = some (.ready r) → r.storeId = s

/-- No compiled module is new, but for those under their own store ids. -/
def NamesNew (g g' : Graph) : Prop :=
  ∀ (s : String) (r : Resource), g'.slots[s]? = some (.ready r) →
    g.slots[s]? = some (.ready r) ∨ r.storeId = s

theorem SlotsNamed.of_namesNew (h : g.SlotsNamed) (hnew : NamesNew g g') : g'.SlotsNamed :=
  fun s r hr => (hnew s r hr).elim (h s r) id

theorem NamesNew.trans {g'' : Graph} (h : NamesNew g g') (h' : NamesNew g' g'') : NamesNew g g'' :=
  fun s r hr => (h' s r hr).elim (h s r) .inr

theorem NamesNew.of_slots (h : g'.slots = g.slots) : NamesNew g g' :=
  fun _ _ hr => .inl (h ▸ hr)

theorem namesNew_finish {task : Task} (ht : g.tasks[t]? = some task) {outcome : Outcome}
    (ho : ∀ c, outcome = .ok (some c) → c.resource.storeId = task.storeId) :
    NamesNew g (g.finish t outcome) := by
  intro s r hr
  rw [slots_finish ht] at hr
  split at hr
  · rename_i hs
    unfold slotOf? at hr
    split at hr
    · rename_i c
      cases hr
      exact .inr ((ho c rfl).trans hs.1)
    · cases hr
    · cases hr
  · exact .inl hr

theorem namesNew_abandon {task : Task} (ht : g.tasks[t]? = some task) (storeId : String)
    (awaits : List Await) (e : LoadError) : NamesNew g (g.abandon t storeId awaits e) := by
  intro s r hr
  rw [slots_abandon ht] at hr
  split at hr
  · cases hr
  · exact .inl hr

theorem namesNew_ensure (g : Graph) (storeId : String) (request : Url) (waiter : Option String) :
    NamesNew g (g.ensure storeId request waiter).2 := by
  intro s r hr
  rw [slots_ensure, slots_taskFor] at hr
  split at hr
  · cases hr
  · exact .inl hr

theorem namesNew_askForAll (storeId : String) (realUrl : Url) (specifiers : List String)
    (children : Children) : NamesNew g (askForAll storeId realUrl specifiers children g).2 := by
  induction specifiers generalizing children g with
  | nil => exact .of_slots rfl
  | cons specifier specifiers ih =>
    unfold askForAll
    split
    · exact (namesNew_ensure _ _ _ _).trans (ih _)
    · exact .of_slots rfl
    · exact .of_slots rfl

theorem namesNew_analyse {task : Task} (ht : g.tasks[t]? = some task) (storeId : String)
    (r : Response) : NamesNew g (g.analyse t storeId r) := by
  unfold analyse
  split
  · exact namesNew_finish ht nofun
  · rename_i m _
    have hask : ∀ g₀ : Graph, g₀.slots = g.slots → g₀.tasks = g.tasks →
        NamesNew g (askForAll storeId r.finalUrl m.interface.dependencies ⟨[], []⟩ g₀).2 ∧
        (askForAll storeId r.finalUrl m.interface.dependencies ⟨[], []⟩ g₀).2.tasks[t]? =
          some task := fun g₀ hslots htasks =>
      ⟨(NamesNew.of_slots hslots).trans (namesNew_askForAll _ _ _ _),
        keeps_askForAll _ _ _ _ _ (htasks ▸ ht)⟩
    have hstart := hask (if hasStars m.interface then g
      else { g with declared := g.declared.insert storeId m.interface.declared })
      (by split <;> rfl) (by split <;> rfl)
    dsimp only
    split
    · rename_i h
      rw [h] at hstart
      exact hstart.1.trans (.of_slots rfl)
    · rename_i h
      rw [h] at hstart
      exact hstart.1.trans (namesNew_abandon hstart.2 _ _ _)

/-- A step of a task makes compiled modules under their own store ids only. -/
theorem TaskStep.namesNew (h : TaskStep site g g') : NamesNew g g' := by
  cases h.acts with
  | nothing => exact .of_slots rfl
  | request => exact .of_slots rfl
  | nearer => exact .of_slots rfl
  | finish ht _ _ hnamed => exact namesNew_finish ht hnamed
  | analyse ht => exact namesNew_analyse ht _ _
  | arrive => exact .of_slots rfl
  | giveUp ht => exact namesNew_abandon ht _ _ _

/-! ## A compiled module stays as it is -/

/-- A task of a module with a slot owns the slot until it is done. -/
def Owned (g : Graph) : Prop :=
  ∀ (t : Nat) (task : Task), g.tasks[t]? = some task → task.isInline = false →
    (∀ o, task.progress ≠ .done o) → g.slots[task.storeId]? = some (.pending t)

/-- Modules that are compiled stay so. -/
def Lasts (g g' : Graph) : Prop :=
  ∀ (s : String) (resource : Resource), g.slots[s]? = some (.ready resource) →
    g'.slots[s]? = some (.ready resource)

theorem Lasts.trans {g g' g'' : Graph} (h : g.Lasts g') (h' : g'.Lasts g'') : g.Lasts g'' :=
  fun s resource hs => h' s resource (h s resource hs)

/-- Where tasks own their slots, they do so afterwards, and compiled modules stay. -/
def Abides (g g' : Graph) : Prop := g.Owned → g'.Owned ∧ g.Lasts g'

variable {g'' : Graph} {task : Task}

namespace Abides

theorem refl (g : Graph) : g.Abides g := fun h => ⟨h, fun _ _ hs => hs⟩

theorem trans (h : g.Abides g') (h' : g'.Abides g'') : g.Abides g'' := fun howned =>
  ⟨(h' (h howned).1).1, (h howned).2.trans (h' (h howned).1).2⟩

theorem of_eq (hslots : g'.slots = g.slots) (htasks : g'.tasks = g.tasks) : g.Abides g' := by
  intro howned
  refine ⟨fun t task ht hslot hnot => ?_, fun s resource hs => hslots ▸ hs⟩
  rw [htasks] at ht
  rw [hslots]
  exact howned t task ht hslot hnot

end Abides

theorem not_owned_twice (h : g.Owned) {t' : Nat} {task' : Task} (ht : g.tasks[t]? = some task)
    (hslot : task.isInline = false) (hnot : ∀ o, task.progress ≠ .done o)
    (ht' : g.tasks[t']? = some task') (hslot' : task'.isInline = false)
    (hnot' : ∀ o, task'.progress ≠ .done o) (heq : task.storeId = task'.storeId) : t = t' := by
  have hpending := h t task ht hslot hnot
  rw [heq, h t' task' ht' hslot' hnot'] at hpending
  cases hpending
  rfl

/-! ### Tasks -/

theorem abides_setProgress (ht : g.tasks[t]? = some task) (hnot : ∀ o, task.progress ≠ .done o)
    (p : Progress) : g.Abides (g.setProgress t p) := by
  intro howned
  refine ⟨fun t' task' ht' hslot' hnot' => ?_, fun _ _ hs => hs⟩
  rw [tasks_setProgress_of ht] at ht'
  split at ht'
  · rename_i heq
    cases ht'
    exact heq ▸ howned t task ht hslot' hnot
  · exact howned t' task' ht' hslot' hnot'

/-- Only a task that is not done settles a slot, which is its own. -/
theorem abides_finish (ht : g.tasks[t]? = some task) (hnot : ∀ o, task.progress ≠ .done o)
    (outcome : Outcome) : g.Abides (g.finish t outcome) := by
  intro howned
  refine ⟨fun t' task' ht' hslot' hnot' => ?_, fun s resource hs => ?_⟩
  · rw [tasks_finish_of ht] at ht'
    split at ht'
    · cases ht'
      exact absurd rfl (hnot' outcome)
    · rename_i hne
      rw [slots_finish ht, if_neg]
      · exact howned t' task' ht' hslot' hnot'
      · exact fun hown => hne (not_owned_twice howned ht hown.2 hnot ht' hslot' hnot' hown.1)
  · rw [slots_finish ht, if_neg, hs]
    rintro ⟨rfl, hslot⟩
    rw [howned t task ht hslot hnot] at hs
    cases hs

theorem abides_abandon (ht : g.tasks[t]? = some task) (hnot : ∀ o, task.progress ≠ .done o)
    (storeId : String) (awaits : List Await) (e : LoadError) :
    g.Abides (g.abandon t storeId awaits e) := by
  have htasks := tasks_removeWaits g storeId awaits
  exact (Abides.of_eq (slots_removeWaits g storeId awaits) htasks).trans
    (abides_finish (htasks ▸ ht) hnot _)

/-- A slot that is made now is owned by the task that is made with it. -/
theorem abides_taskFor (g : Graph) (storeId : String) (request : Url) :
    g.Abides (g.taskFor storeId request).2 := by
  intro howned
  refine ⟨?_, fun s resource hs => ?_⟩
  · unfold taskFor
    split
    · exact howned
    · exact howned
    · exact howned
    · rename_i hvacant
      intro t task ht hslot hnot
      have hinsert := Table.getElem?_insert g.slots storeId task.storeId (.pending g.tasks.size)
      refine hinsert.trans ?_
      have htasks : (g.newTask ⟨storeId, request, false, .idle⟩).2.tasks[t]? = some task := ht
      rw [newTask, Array.getElem?_push] at htasks
      split at htasks
      · rename_i heq
        cases htasks
        rw [if_pos rfl, heq]
      · have hown := howned t task htasks hslot hnot
        rw [if_neg, hown]
        rintro rfl
        cases hvacant.symm.trans hown
  · rw [slots_taskFor, if_neg, hs]
    rintro ⟨-, hvacant⟩
    cases hs.symm.trans hvacant

theorem abides_ensure (g : Graph) (storeId : String) (request : Url) (waiter : Option String) :
    g.Abides (g.ensure storeId request waiter).2 :=
  (abides_taskFor g storeId request).trans
    (.of_eq (slots_ensure g storeId request waiter) (tasks_ensure g storeId request waiter))

theorem abides_askForAll (g : Graph) (storeId : String) (realUrl : Url)
    (specifiers : List String) (children : Children) :
    g.Abides (askForAll storeId realUrl specifiers children g).2 := by
  induction specifiers generalizing children g with
  | nil => exact .refl g
  | cons specifier specifiers ih =>
    unfold askForAll
    split
    · exact (abides_ensure g _ _ _).trans (ih _ _)
    · exact .refl g
    · exact .refl g

/-- A task without a slot owns nothing. -/
theorem abides_newTask (g : Graph) (htask : task.isInline = true) :
    g.Abides (g.newTask task).2 := by
  intro howned
  refine ⟨fun t' task' ht' hslot' hnot' => ?_, fun _ _ hs => hs⟩
  have htasks : (g.tasks.push task)[t']? = some task' := ht'
  rw [Array.getElem?_push] at htasks
  split at htasks
  · cases htasks
    exact nomatch htask.symm.trans hslot'
  · exact howned t' task' htasks hslot' hnot'

theorem abides_preload (g : Graph) (resource : Resource) :
    g.Abides (g.preload resource).2 := by
  have hother : ∀ (s : String) (slot : Slot), g.slots[s]? = some slot →
      (g.preload resource).2.slots[s]? = some slot := by
    intro s slot hs
    have hknown : ¬ (resource.storeId = s ∧ g.slots[s]? = none) := fun hnew =>
      nomatch hs.symm.trans hnew.2
    rw [slots_preload, if_neg hknown, hs]
  intro howned
  refine ⟨fun t task ht hslot hnot => ?_, fun s r hs => hother s _ hs⟩
  rw [tasks_preload] at ht
  exact hother _ _ (howned t task ht hslot hnot)

/-! ### The steps of a task -/

theorem abides_analyse (ht : g.tasks[t]? = some task) (hnot : ∀ o, task.progress ≠ .done o)
    (storeId : String) (r : Response) : g.Abides (g.analyse t storeId r) := by
  unfold analyse
  split
  · exact abides_finish ht hnot _
  · rename_i m _
    -- the task stays as it is while the modules that it depends on are asked for
    have hask : ∀ g₀ : Graph, g₀.slots = g.slots → g₀.tasks = g.tasks →
        g.Abides (askForAll storeId r.finalUrl m.interface.dependencies ⟨[], []⟩ g₀).2 ∧
        (askForAll storeId r.finalUrl m.interface.dependencies ⟨[], []⟩ g₀).2.tasks[t]? =
          some task := fun g₀ hslots htasks =>
      ⟨(Abides.of_eq hslots htasks).trans (abides_askForAll g₀ _ _ _ _),
        keeps_askForAll _ _ _ _ _ (htasks ▸ ht)⟩
    have hstart := hask (if hasStars m.interface then g
      else { g with declared := g.declared.insert storeId m.interface.declared })
      (by split <;> rfl) (by split <;> rfl)
    dsimp only
    split
    · rename_i h
      rw [h] at hstart
      exact hstart.1.trans (abides_setProgress hstart.2 hnot _)
    · rename_i h
      rw [h] at hstart
      exact hstart.1.trans (abides_abandon hstart.2 hnot _ _ _)

/-- A step of a task leaves what is compiled. -/
theorem TaskStep.abides (h : TaskStep site g g') : g.Abides g' := by
  cases h.acts with
  | nothing => exact .refl g
  | request ht hidle =>
    exact (Abides.of_eq rfl rfl).trans
      (abides_setProgress (g := { g with requests := g.requests + 1 }) ht (hidle ▸ nofun) _)
  | nearer ht hprogress => exact abides_setProgress ht (hprogress ▸ nofun) _
  | finish ht hnot => exact abides_finish ht hnot _
  | analyse ht hprogress => exact abides_analyse ht (hprogress ▸ nofun) _ _
  | arrive ht hprogress =>
    exact (abides_setProgress ht (hprogress ▸ nofun) _).trans (.of_eq rfl rfl)
  | giveUp ht hprogress => exact abides_abandon ht (hprogress ▸ nofun) _ _ _

end EsModule.Loader.Graph
