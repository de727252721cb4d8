import EsModule.Proofs.Loader.Dependency
import EsModule.Proofs.Loader.Search
import EsModule.Proofs.Loader.Slots

/-!
# Tasks follow the dependency graph

While the modules behind an entry are compiled, tasks, slots and waits say nothing but what the
dependency graph of the site says (`Follows`). A task that waits has asked for all modules that its
module names, each of which is settled or still waited for; and a module is compiled only after all
these are settled, so it is compiled with their final export lists. Every step of a task keeps this,
so it holds whatever the order in which answers come and tasks go on.

Here it counts that no module depends on itself: a wait never closes a circle, so none is left out.
-/

namespace EsModule.Loader

open EsModule.Compile EsModule.Scope Relation

namespace Graph

/-! ## What follows the dependency graph -/

/-- A module is compiled, or it is known not to be served. -/
def Settled (g : Graph) (u : Url) : Prop :=
  g.slots[u.text]? = some .absent ∨ ∃ r, g.slots[u.text]? = some (.ready r)

/-- What is known once is still known, and tasks stay those of their modules. -/
structure Grows (g g' : Graph) : Prop where
  settled : ∀ u, g.Settled u → g'.Settled u
  tasks : ∀ (t : Nat) (task : Task), g.tasks[t]? = some task →
    ∃ task', g'.tasks[t]? = some task' ∧ task'.request = task.request

theorem Grows.refl (g : Graph) : Grows g g := ⟨fun _ h => h, fun _ task h => ⟨task, h, rfl⟩⟩

theorem Grows.trans {g g' g'' : Graph} (h : Grows g g') (h' : Grows g' g'') : Grows g g'' := by
  refine ⟨fun u hu => h'.settled u (h.settled u hu), fun t task ht => ?_⟩
  obtain ⟨task', ht', hrequest⟩ := h.tasks t task ht
  obtain ⟨task'', ht'', hrequest'⟩ := h'.tasks t task' ht'
  exact ⟨task'', ht'', hrequest'.trans hrequest⟩

theorem Grows.of_eq {g g' : Graph} (hslots : g'.slots = g.slots) (htasks : g'.tasks = g.tasks) :
    Grows g g' := by
  refine ⟨fun u hu => ?_, fun t task ht => ⟨task, htasks ▸ ht, rfl⟩⟩
  unfold Settled at hu ⊢
  rwa [hslots]

section
variable (site : Site) (entry : Url) (E : Url → List String)

/-- What a task that waits for the modules that the module at `u` names has to do with the
dependency graph. -/
structure WaitsFit (g : Graph) (u : Url) (a : Analysis) : Prop where
  /-- It compiles the module that is served. -/
  module : site.module? u = some a.module
  /-- It waits for modules only that the module names. -/
  awaits : ∀ b ∈ a.awaits, ∃ v task, site.Depends u v ∧ b.target = v.text ∧
    g.tasks[b.task]? = some task ∧ task.request = v
  /-- All others are settled. -/
  rest : ∀ v, site.Depends u v → g.Settled v ∨ ∃ b ∈ a.awaits, b.target = v.text

/-- What the stage of a task that compiles the module at `u` has to do with the dependency graph. -/
def ProgressFits (g : Graph) (u : Url) : Progress → Prop
  | .idle => True
  | .fetching _ answer => answer = site.fetcher.retrieve u
  | .waiting a => WaitsFit site g u a
  | .done (.ok _) => g.Settled u
  | .done (.error _) => ¬ site.Links entry E

/-- What a task has to do with the dependency graph. -/
structure TaskFits (g : Graph) (t : Nat) (task : Task) : Prop where
  /-- It compiles a module behind the entry, and requests it under its own address. -/
  reached : site.Reaches entry task.request
  storeId : task.storeId = task.request.text
  slot : task.isInline = false
  progress : ProgressFits site entry E g task.request task.progress
  /-- Until it is done, the slot of the module is its own. -/
  pending : (∀ o, task.progress ≠ .done o) → g.slots[task.storeId]? = some (.pending t)

/-- What a compiled module has to do with the dependency graph. -/
structure CompiledFits (g : Graph) (u : Url) (r : Resource) : Prop where
  reached : site.Reaches entry u
  served : (site.module? u).isSome
  exports : r.exports = E u
  links : site.LinksAt E u
  /-- The modules that it names are settled. -/
  settled : ∀ v, site.Depends u v → g.Settled v

/-- A task that is not done compiles the module of a store id. -/
def Compiles (g : Graph) (t : Nat) (s : String) : Prop :=
  ∃ task, g.tasks[t]? = some task ∧ task.storeId = s ∧ ∀ o, task.progress ≠ .done o

/-- What the slot of a store id has to do with the dependency graph. -/
def SlotFits (g : Graph) (s : String) : Slot → Prop
  | .pending t => g.Compiles t s
  | .ready r => ∃ u, u.text = s ∧ CompiledFits site entry E g u r
  | .absent => ∃ u, u.text = s ∧ site.Reaches entry u ∧ site.module? u = none

/-- One store id waits for another only if its module names the other one. -/
def WaitFits (w : Wait) : Prop :=
  ∃ u v, site.Reaches entry u ∧ site.Depends u v ∧ w = ⟨u.text, v.text⟩

/-- Everything that is compiled, and the way in which it is compiled, follows the dependency graph
behind an entry. -/
structure Follows (g : Graph) : Prop where
  tasks : ∀ (t : Nat) (task : Task), g.tasks[t]? = some task → TaskFits site entry E g t task
  slots : ∀ (s : String) (slot : Slot), g.slots[s]? = some slot → SlotFits site entry E g s slot
  waits : ∀ w ∈ g.waits, WaitFits site entry w

end

variable {site : Site} {entry u v : Url} {E : Url → List String} {g g' : Graph} {t : Nat}
  {task : Task}

theorem waits_settle (g : Graph) (storeId : String) (outcome : Outcome) :
    (g.settle storeId outcome).waits = g.waits := by
  unfold settle
  split <;> rfl

theorem waits_finish (g : Graph) (t : Nat) (outcome : Outcome) :
    (g.finish t outcome).waits = g.waits := by
  unfold Graph.finish
  split
  · rfl
  · dsimp only
    split
    · rfl
    · exact waits_settle _ _ _

theorem waits_removeWaits {storeId : String} {awaits : List Await} {w : Wait}
    (h : w ∈ (awaits.foldl (fun g a => g.removeWait ⟨storeId, a.target⟩) g).waits) :
    w ∈ g.waits := by
  induction awaits generalizing g with
  | nil => exact h
  | cons a awaits ih => exact List.mem_of_mem_filter (ih h)

/-! ## What is known stays -/

theorem WaitsFit.mono {a : Analysis} (h : WaitsFit site g u a) (hg : Grows g g') :
    WaitsFit site g' u a where
  module := h.module
  awaits b hb := by
    obtain ⟨v, task, hdep, htarget, ht, rfl⟩ := h.awaits b hb
    obtain ⟨task', ht', hrequest⟩ := hg.tasks _ _ ht
    exact ⟨_, task', hdep, htarget, ht', hrequest⟩
  rest v hdep := (h.rest v hdep).imp_left (hg.settled v)

theorem ProgressFits.mono {p : Progress} (h : ProgressFits site entry E g u p) (hg : Grows g g') :
    ProgressFits site entry E g' u p := by
  cases p with
  | idle => trivial
  | fetching => exact h
  | waiting a => exact WaitsFit.mono h hg
  | done outcome =>
    cases outcome with
    | ok => exact hg.settled u h
    | error => exact h

theorem CompiledFits.mono {r : Resource} (h : CompiledFits site entry E g u r) (hg : Grows g g') :
    CompiledFits site entry E g' u r :=
  ⟨h.reached, h.served, h.exports, h.links, fun v hdep => hg.settled v (h.settled v hdep)⟩

theorem SlotFits.mono {s : String} {slot : Slot} (h : SlotFits site entry E g s slot)
    (hg : Grows g g') (hpending : ∀ t, slot = .pending t → g.Compiles t s → g'.Compiles t s) :
    SlotFits site entry E g' s slot := by
  cases slot with
  | pending t => exact hpending t rfl h
  | ready r =>
    obtain ⟨u, hu, hfits⟩ := h
    exact ⟨u, hu, hfits.mono hg⟩
  | absent => exact h

namespace Follows

variable (h : Follows site entry E g)
include h

/-- Neither the tasks nor the slots change. -/
theorem of_eq (htasks : g'.tasks = g.tasks) (hslots : g'.slots = g.slots)
    (hwaits : ∀ w ∈ g'.waits, w ∈ g.waits ∨ WaitFits site entry w) :
    Follows site entry E g' := by
  have hg := Grows.of_eq hslots htasks
  refine ⟨fun t task ht => ?_, fun s slot hs => ?_, fun w hw => (hwaits w hw).elim (h.waits w) id⟩
  · have hfits := h.tasks t task (htasks ▸ ht)
    exact { hfits with
      progress := hfits.progress.mono hg
      pending := fun hnot => hslots ▸ hfits.pending hnot }
  · refine (h.slots s slot (hslots ▸ hs)).mono hg fun t _ hcompiles => ?_
    unfold Compiles at hcompiles ⊢
    rwa [htasks]

/-- A task that is not done goes to another stage, and no slot changes but its own. -/
theorem update (ht : g.tasks[t]? = some task) (hnot : ∀ o, task.progress ≠ .done o)
    {p : Progress} (htasks : ∀ s, g'.tasks[s]? =
      if t = s then some { task with progress := p } else g.tasks[s]?)
    (hslots : ∀ s, task.storeId ≠ s → g'.slots[s]? = g.slots[s]?) (hwaits : g'.waits = g.waits)
    (hp : Grows g g' → ProgressFits site entry E g' task.request p)
    (hpending : (∀ o, p ≠ .done o) → g'.slots[task.storeId]? = some (.pending t))
    (hslot : Grows g g' → ∀ slot, g'.slots[task.storeId]? = some slot →
      SlotFits site entry E g' task.storeId slot) :
    Follows site entry E g' ∧ Grows g g' := by
  have hown := (h.tasks t task ht).pending hnot
  have hg : Grows g g' := by
    refine ⟨fun u hu => ?_, fun s task' hs => ?_⟩
    · have hne : task.storeId ≠ u.text := by
        intro heq
        unfold Settled at hu
        rw [← heq, hown] at hu
        rcases hu with hu | ⟨_, hu⟩ <;> cases hu
      unfold Settled at hu ⊢
      rwa [hslots _ hne]
    · rw [htasks]
      split
      · rename_i hts
        subst hts
        obtain rfl := Option.some.inj (ht.symm.trans hs)
        exact ⟨_, rfl, rfl⟩
      · exact ⟨task', hs, rfl⟩
  refine ⟨⟨fun s task' hs => ?_, fun s slot hs => ?_, hwaits ▸ h.waits⟩, hg⟩
  · rw [htasks] at hs
    split at hs
    · rename_i hts
      subst hts
      cases hs
      have hfits := h.tasks t task ht
      exact ⟨hfits.reached, hfits.storeId, hfits.slot, hp hg, hpending⟩
    · rename_i hne
      have hfits := h.tasks s task' hs
      refine { hfits with progress := hfits.progress.mono hg, pending := fun hnot' => ?_ }
      -- another task that is not done has a slot of its own
      have hpending' := hfits.pending hnot'
      rw [hslots, hpending']
      intro heq
      rw [← heq, hown] at hpending'
      cases hpending'
      exact hne rfl
  · by_cases hs' : task.storeId = s
    · subst hs'
      exact hslot hg slot hs
    · refine (h.slots s slot (hslots s hs' ▸ hs)).mono hg fun t' _ hcompiles => ?_
      obtain ⟨task', ht', hstoreId, hnot'⟩ := hcompiles
      refine ⟨task', ?_, hstoreId, hnot'⟩
      rw [htasks, if_neg, ht']
      rintro rfl
      obtain rfl := Option.some.inj (ht.symm.trans ht')
      exact hs' hstoreId

/-- A task goes to another stage that is not the last one. -/
theorem setProgress (ht : g.tasks[t]? = some task) (hnot : ∀ o, task.progress ≠ .done o)
    {p : Progress} (hnot' : ∀ o, p ≠ .done o) (hp : ProgressFits site entry E g task.request p) :
    Follows site entry E (g.setProgress t p) ∧ Grows g (g.setProgress t p) := by
  have hpending := (h.tasks t task ht).pending hnot
  refine h.update ht hnot (tasks_setProgress_of ht p) (fun _ _ => rfl) rfl hp.mono
    (fun _ => hpending) fun hg slot hslot => ?_
  obtain rfl := Option.some.inj (hpending.symm.trans hslot)
  exact ⟨_, tasks_setProgress_self ht p, rfl, hnot'⟩

end Follows

/-- What the outcome of a task that compiles the module at `u` has to do with the dependency graph.
-/
def OutcomeFits (site : Site) (entry : Url) (E : Url → List String) (g : Graph) (u : Url) :
    Outcome → Prop
  | .ok (some c) => CompiledFits site entry E g u c.resource
  | .ok none => site.module? u = none
  | .error _ => ¬ site.Links entry E

/-- A task ends. -/
theorem Follows.finish (h : Follows site entry E g) (ht : g.tasks[t]? = some task)
    (hnot : ∀ o, task.progress ≠ .done o) {outcome : Outcome}
    (ho : OutcomeFits site entry E g task.request outcome) :
    Follows site entry E (g.finish t outcome) ∧ Grows g (g.finish t outcome) := by
  have hfits := h.tasks t task ht
  have hslots : ∀ s, (g.finish t outcome).slots[s]? =
      if task.storeId = s then slotOf? outcome else g.slots[s]? := by
    intro s
    rw [slots_finish ht]
    simp only [hfits.slot, and_true]
  have hown := (hslots task.storeId).trans (if_pos rfl)
  refine h.update ht hnot (tasks_finish_of ht outcome) (fun s hs => (hslots s).trans (if_neg hs)) ?_
    (fun _ => ?_) (fun hnot' => absurd rfl (hnot' outcome)) fun hg slot hslot => ?_
  · exact waits_finish g t outcome
  · rcases outcome with e | _ | c
    · exact ho
    · exact .inl (hfits.storeId ▸ hown)
    · exact .inr ⟨_, hfits.storeId ▸ hown⟩
  · rw [hown] at hslot
    rcases outcome with e | _ | c
    · cases hslot
    · cases hslot
      exact ⟨task.request, hfits.storeId.symm, hfits.reached, ho⟩
    · cases hslot
      exact ⟨task.request, hfits.storeId.symm, ho.mono hg⟩

/-! ## Asking for the modules that a module names -/

/-- Nothing waits for a module that depends on the waiting one, since then a module would depend on
itself. -/
theorem Follows.reaches_eq_false (h : Follows site entry E g) (hp : site.Plain entry)
    (hu : site.Reaches entry u) (hdep : site.Depends u v) : g.reaches v.text u.text = false := by
  have hv := hu.tail hdep
  -- waits lead from the module only to what is behind it
  let P : String → Prop := fun a => ∃ x, site.Reaches v x ∧ x.text = a
  have hnext : ∀ a, P a → ∀ b ∈ g.waitsOf a, P b := by
    rintro a ⟨x, hx, rfl⟩ b hb
    obtain ⟨w, hw, rfl⟩ := List.mem_map.mp hb
    obtain ⟨hw, hwaiter⟩ := List.mem_filter.mp hw
    obtain ⟨u', v', hu', hdep', rfl⟩ := h.waits w hw
    obtain rfl := hp.text_inj hu' (hv.trans hx) (of_decide_eq_true hwaiter)
    exact ⟨v', hx.tail hdep', rfl⟩
  have hstart : ∀ a ∈ [v.text], P a := fun a ha =>
    ⟨v, .refl, (List.mem_singleton.mp ha).symm⟩
  rw [Bool.eq_false_iff]
  intro hreaches
  obtain ⟨x, hx, hxu⟩ := (g.search_waits v.text).induct hnext hstart (by simp) _
    (List.mem_of_elem_eq_true hreaches)
  obtain rfl := hp.text_inj (hv.trans hx) hu hxu
  exact hp.acyclic x hu (.head' hdep hx)

theorem mem_addWait {w w' : Wait} (h : w ∈ (g.addWait w').waits) : w ∈ g.waits ∨ w = w' := by
  unfold addWait at h
  split at h
  · exact .inl h
  · exact (List.mem_append.mp h).imp_right List.mem_singleton.mp

/-- What comes of asking for a module that the module at `u` names. -/
structure Asks (site : Site) (entry : Url) (E : Url → List String) (g : Graph) (v : Url)
    (result : Option Await × Graph) : Prop where
  follows : Follows site entry E result.2
  grows : Grows g result.2
  /-- Either there is a task to wait for, or the module is settled. -/
  await : match result.1 with
    | some b => b.target = v.text ∧
      ∃ task, result.2.tasks[b.task]? = some task ∧ task.request = v
    | none => result.2.Settled v

/-- A task is made for a module that has no slot. -/
theorem Follows.addTask (h : Follows site entry E g) (hv : site.Reaches entry v)
    (hslot : g.slots[v.text]? = none) :
    Follows site entry E { (g.newTask ⟨v.text, v, false, .idle⟩).2 with
      slots := g.slots.insert v.text (.pending g.tasks.size) } ∧
    Grows g { (g.newTask ⟨v.text, v, false, .idle⟩).2 with
      slots := g.slots.insert v.text (.pending g.tasks.size) } := by
  let g' : Graph := { (g.newTask ⟨v.text, v, false, .idle⟩).2 with
    slots := g.slots.insert v.text (.pending g.tasks.size) }
  change Follows site entry E g' ∧ Grows g g'
  have hslots : ∀ s, g'.slots[s]? =
      if v.text = s then some (.pending g.tasks.size) else g.slots[s]? :=
    fun s => Table.getElem?_insert ..
  have htasks : ∀ t, g'.tasks[t]? =
      if t = g.tasks.size then some ⟨v.text, v, false, .idle⟩ else g.tasks[t]? :=
    fun t => Array.getElem?_push
  have hold : ∀ (s : String) (slot : Slot), g.slots[s]? = some slot → v.text ≠ s := by
    rintro s slot hs rfl
    rw [hslot] at hs
    cases hs
  have hlt : ∀ (t : Nat) (task : Task), g.tasks[t]? = some task → t ≠ g.tasks.size := by
    rintro t task ht rfl
    rw [Array.getElem?_eq_none (Nat.le_refl _)] at ht
    cases ht
  have hg : Grows g g' := by
    refine ⟨fun u hu => ?_, fun t task ht => ⟨task, ?_, rfl⟩⟩
    · unfold Settled at hu ⊢
      have hne : v.text ≠ u.text := hu.elim (hold _ _) fun ⟨_, hr⟩ => hold _ _ hr
      rwa [hslots, if_neg hne]
    · rw [htasks, if_neg (hlt t task ht), ht]
  refine ⟨⟨fun t task ht => ?_, fun s slot hs => ?_, h.waits⟩, hg⟩
  · rw [htasks] at ht
    split at ht
    · rename_i hsize
      cases ht
      exact ⟨hv, rfl, rfl, trivial, fun _ => by rw [hslots, if_pos rfl, hsize]⟩
    · have hfits := h.tasks t task ht
      refine { hfits with progress := hfits.progress.mono hg, pending := fun hnot => ?_ }
      have hpending := hfits.pending hnot
      rw [hslots, if_neg (hold _ _ hpending), hpending]
  · rw [hslots] at hs
    split at hs
    · rename_i hs'
      cases hs
      exact ⟨_, (htasks _).trans (if_pos rfl), hs', nofun⟩
    · refine (h.slots s slot hs).mono hg fun t _ ⟨task, ht, hstoreId, hnot⟩ => ?_
      exact ⟨task, by rw [htasks, if_neg (hlt t task ht), ht], hstoreId, hnot⟩

/-- The task of a module compiles that module, and there is none if the module is settled. -/
theorem Follows.taskFor (h : Follows site entry E g) (hp : site.Plain entry)
    (hv : site.Reaches entry v) : Asks site entry E g v
      ((g.taskFor v.text v).1.map (⟨·, v.text⟩), (g.taskFor v.text v).2) := by
  unfold Graph.taskFor
  cases hslot : g.slots[v.text]? with
  | some slot =>
    cases slot with
    | pending t =>
      obtain ⟨task, ht, hstoreId, -⟩ := h.slots _ _ hslot
      have hfits := h.tasks t task ht
      exact ⟨h, .refl g, rfl, task, ht,
        hp.text_inj hfits.reached hv (hfits.storeId.symm.trans hstoreId)⟩
    | ready r => exact ⟨h, .refl g, .inr ⟨r, hslot⟩⟩
    | absent => exact ⟨h, .refl g, .inl hslot⟩
  | none =>
    obtain ⟨hfollows, hg⟩ := h.addTask hv hslot
    exact ⟨hfollows, hg, rfl, _, Array.getElem?_push_size, rfl⟩

/-- A module asks for one that it names. -/
theorem Follows.ensure (h : Follows site entry E g) (hp : site.Plain entry)
    (hu : site.Reaches entry u) (hdep : site.Depends u v) :
    Asks site entry E g v (g.ensure v.text v (some u.text)) := by
  have hasks := h.taskFor hp (hu.tail hdep)
  unfold Graph.ensure
  generalize g.taskFor v.text v = asked at hasks
  obtain ⟨t, g'⟩ := asked
  cases t with
  | none => exact hasks
  | some t =>
    have hreaches := hasks.follows.reaches_eq_false hp hu hdep
    dsimp only at hreaches ⊢
    rw [hreaches]
    obtain ⟨hfollows, hg, htarget, task, ht, hrequest⟩ := hasks
    have htasks := tasks_addWait g' ⟨u.text, v.text⟩
    have hslots := slots_addWait g' ⟨u.text, v.text⟩
    refine ⟨hfollows.of_eq htasks hslots fun w hw => ?_, hg.trans (.of_eq hslots htasks), rfl, task,
      htasks ▸ ht, hrequest⟩
    exact (mem_addWait hw).imp_right fun heq => ⟨u, v, hu, hdep, heq⟩

/-- Relative to an address of its own, a specifier stands for the same as relative to the written
one. -/
theorem join_of_resolve (hp : site.Plain entry) (hu : site.Reaches entry u) {specifier : String}
    (hv : resolve u.text specifier = .ok v) :
    (u.join specifier).mapError (LoadError.ofUrl specifier) = .ok v := by
  unfold resolve at hv
  rw [hp.canonical u hu] at hv
  exact hv

/-- What comes of asking for modules that the module at `u` names. -/
structure AsksAll (site : Site) (entry : Url) (E : Url → List String) (g : Graph) (u : Url)
    (specifiers : List String) (before children : Children) (g' : Graph) : Prop where
  follows : Follows site entry E g'
  grows : Grows g g'
  /-- What was waited for before is still waited for, and every other task is that of a module that
  is named. -/
  kept : ∀ b ∈ before.awaits, b ∈ children.awaits
  awaits : ∀ b ∈ children.awaits, b ∈ before.awaits ∨ ∃ v task, site.Depends u v ∧
    b.target = v.text ∧ g'.tasks[b.task]? = some task ∧ task.request = v
  /-- Every module that is named is settled or waited for. -/
  asked : ∀ specifier ∈ specifiers, ∀ v, resolve u.text specifier = .ok v →
    g'.Settled v ∨ ∃ b ∈ children.awaits, b.target = v.text

theorem Follows.askForAll (h : Follows site entry E g) (hp : site.Plain entry)
    (hu : site.Reaches entry u) {m : Module} (hm : site.module? u = some m)
    {specifiers : List String} (hs : ∀ s ∈ specifiers, s ∈ m.interface.dependencies)
    (before : Children) : ∃ children g',
      askForAll u.text u specifiers before g = (.ok children, g') ∧
      AsksAll site entry E g u specifiers before children g' := by
  induction specifiers generalizing g before with
  | nil =>
    exact ⟨before, g, rfl, h, .refl g, fun _ hb => hb, fun _ hb => .inl hb, fun _ hs => by cases hs⟩
  | cons specifier specifiers ih =>
    have hmem := hs specifier List.mem_cons_self
    obtain ⟨v, hv⟩ := hp.resolvable u hu m hm specifier hmem
    have hdep : site.Depends u v := ⟨m, specifier, hm, hmem, hv⟩
    have hasks := h.ensure hp hu hdep
    unfold askForAll
    rw [hv, join_of_resolve hp hu hv]
    dsimp only
    generalize g.ensure v.text v (some u.text) = asked at hasks
    obtain ⟨await, g₁⟩ := asked
    obtain ⟨children, g', hall, hrest⟩ := ih hasks.follows
      (fun s hs' => hs s (List.mem_cons_of_mem _ hs'))
      ⟨before.dependencies ++ [v.text], before.awaits ++ await.toList⟩
    refine ⟨children, g', hall, hrest.follows, hasks.grows.trans hrest.grows,
      fun b hb => hrest.kept b (List.mem_append_left _ hb), fun b hb => ?_, ?_⟩
    · refine (hrest.awaits b hb).elim (fun hb => ?_) .inr
      refine (List.mem_append.mp hb).imp_right fun hb => ?_
      obtain rfl := Option.mem_toList.mp hb
      obtain ⟨htarget, task, ht, hrequest⟩ := hasks.await
      obtain ⟨task', ht', hrequest'⟩ := hrest.grows.tasks _ _ ht
      exact ⟨v, task', hdep, htarget, ht', hrequest'.trans hrequest⟩
    · intro s hs' v' hv'
      rcases List.mem_cons.mp hs' with rfl | hs'
      · obtain rfl := Except.ok.inj (hv.symm.trans hv')
        cases await with
        | none => exact .inl (hrest.grows.settled _ hasks.await)
        | some b => exact .inr ⟨b, hrest.kept b (by simp), hasks.await.1⟩
      · exact hrest.asked s hs' v' hv'

/-! ## The steps -/

/-- How an answer with a text is taken: the module asks for all modules that it names, and then its
task waits. -/
structure Analyses (site : Site) (entry : Url) (E : Url → List String) (g : Graph) (t : Nat)
    (task : Task) (m : Module) (children : Children) (g₁ g' : Graph) : Prop where
  module : site.module? task.request = some m
  /-- What is declared for certain has nothing to do with the dependency graph. -/
  slots : g₁.slots = g.slots
  tasks : g₁.tasks = g.tasks
  asked : Graph.askForAll task.request.text task.request m.interface.dependencies ⟨[], []⟩ g₁ =
    (.ok children, g')
  asks : AsksAll site entry E g₁ task.request m.interface.dependencies ⟨[], []⟩ children g'
  task : g'.tasks[t]? = some task

section
variable (h : Follows site entry E g) (hp : site.Plain entry)
include h hp

theorem Follows.analyse_eq (ht : g.tasks[t]? = some task) {r : Response}
    (hprogress : task.progress = .fetching 0 (.ok r)) (hsuccess : r.isSuccess = true) :
    ∃ m children g₁ g', Analyses site entry E g t task m children g₁ g' ∧
      g.analyse t task.storeId r =
        g'.setProgress t (.waiting ⟨m, task.request, children.dependencies, children.awaits⟩) := by
  have hfits := h.tasks t task ht
  have hretrieve : site.fetcher.retrieve task.request = .ok r := by
    have := hfits.progress
    rw [hprogress] at this
    exact this.symm
  have hsource : site.source? task.request = some r.body := by
    rw [Site.source?, hretrieve]
    exact if_pos hsuccess
  obtain ⟨m, hread⟩ := hp.readable _ hfits.reached _ hsource
  have hm : site.module? task.request = some m := Site.module?_of_source? hsource hread
  unfold Graph.analyse
  rw [hfits.storeId, hread, hp.direct _ hfits.reached r hretrieve]
  dsimp only
  generalize hg₁ : (if hasStars m.interface then g else
    { g with declared := g.declared.insert task.request.text m.interface.declared }) = g₁
  have hslots : g₁.slots = g.slots := by rw [← hg₁]; split <;> rfl
  have htasks : g₁.tasks = g.tasks := by rw [← hg₁]; split <;> rfl
  have hwaits : g₁.waits = g.waits := by rw [← hg₁]; split <;> rfl
  obtain ⟨children, g', hall, hasks⟩ := (h.of_eq htasks hslots
    fun w hw => .inl (hwaits ▸ hw)).askForAll hp hfits.reached hm (fun _ hs => hs) ⟨[], []⟩
  have hkeeps := keeps_askForAll task.request.text task.request m.interface.dependencies ⟨[], []⟩
    task (htasks ▸ ht)
  rw [hall] at hkeeps ⊢
  exact ⟨m, children, g₁, g', ⟨hm, hslots, htasks, hall, hasks, hkeeps⟩, rfl⟩

/-- An answer with a text is taken. -/
theorem Follows.analyse (ht : g.tasks[t]? = some task) {r : Response}
    (hprogress : task.progress = .fetching 0 (.ok r)) (hsuccess : r.isSuccess = true) :
    Follows site entry E (g.analyse t task.storeId r) ∧ Grows g (g.analyse t task.storeId r) := by
  obtain ⟨m, children, g₁, g', ha, heq⟩ := h.analyse_eq hp ht hprogress hsuccess
  rw [heq]
  have hwaiting : WaitsFit site g' task.request
      ⟨m, task.request, children.dependencies, children.awaits⟩ := by
    refine ⟨ha.module, fun b hb => (ha.asks.awaits b hb).resolve_left (fun hb => by cases hb), ?_⟩
    rintro v ⟨m', specifier, hm', hs, hv⟩
    obtain rfl := Option.some.inj (ha.module.symm.trans hm')
    exact ha.asks.asked specifier hs v hv
  obtain ⟨hfollows, hgrows⟩ := ha.asks.follows.setProgress ha.task (by rw [hprogress]; nofun)
    (p := .waiting ⟨m, task.request, children.dependencies, children.awaits⟩) nofun hwaiting
  exact ⟨hfollows, ((Grows.of_eq ha.slots ha.tasks).trans ha.asks.grows).trans hgrows⟩

theorem Follows.receive (t : Nat) :
    Follows site entry E (g.receive t) ∧ Grows g (g.receive t) := by
  unfold Graph.receive
  split
  · rename_i storeId request isInline answer ht
    have hfits := h.tasks t _ ht
    have hanswer : answer = site.fetcher.retrieve request := hfits.progress
    have hnot : ∀ o, Progress.fetching 0 answer ≠ .done o := fun _ => Progress.noConfusion
    have hnone : site.source? request = none → OutcomeFits site entry E g request (.ok none) := by
      intro hsource
      rw [OutcomeFits, Site.module?, hsource]
      rfl
    split
    · rename_i r
      split
      · exact h.analyse hp ht rfl ‹_›
      · rename_i hfailed
        refine h.finish ht hnot (hnone ?_)
        rw [Site.source?, ← hanswer]
        exact if_neg hfailed
    · refine h.finish ht hnot (hnone ?_)
      rw [Site.source?, ← hanswer]
  · exact ⟨h, .refl g⟩

theorem Follows.begin (t : Nat) :
    Follows site entry E (g.begin site t) ∧ Grows g (g.begin site t) := by
  unfold Graph.begin
  split
  · rename_i storeId request isInline ht
    have hfits := h.tasks t _ ht
    rw [if_pos (hp.allowed _ hfits.reached)]
    have hsame : Follows site entry E { g with requests := g.requests + 1 } :=
      h.of_eq rfl rfl fun w hw => .inl hw
    obtain ⟨hfollows, hgrows⟩ := hsame.setProgress ht nofun
      (p := .fetching ((site.fetcher.delays[request.text]?).getD 0) (site.fetcher.retrieve request))
      nofun rfl
    have hcounted : Grows g { g with requests := g.requests + 1 } := .of_eq rfl rfl
    exact ⟨hfollows, hcounted.trans hgrows⟩
  · exact ⟨h, .refl g⟩

omit hp in
theorem Follows.tick (t : Nat) : Follows site entry E (g.tick t) ∧ Grows g (g.tick t) := by
  unfold Graph.tick
  split
  · rename_i delay answer hprogress
    obtain ⟨task, ht, hprogress⟩ := Option.map_eq_some_iff.mp hprogress
    have hfits := (h.tasks t task ht).progress
    rw [hprogress] at hfits
    exact h.setProgress ht (by rw [hprogress]; nofun) nofun hfits
  · exact ⟨h, .refl g⟩

/-- What a module looks up once the modules that it names are settled are their export lists. -/
theorem Follows.lookup_eq (hu : site.Reaches entry u) {m : Module} (hm : site.module? u = some m)
    (hsettled : ∀ v, site.Depends u v → g.Settled v) :
    ∀ specifier ∈ m.interface.dependencies,
      g.lookup u.text specifier = site.lookup E u specifier := by
  intro specifier hs
  obtain ⟨v, hv⟩ := hp.resolvable u hu m hm specifier hs
  have hdep : site.Depends u v := ⟨m, specifier, hm, hs, hv⟩
  have hreached := hu.tail hdep
  unfold Graph.lookup Site.lookup Graph.knownExports
  rw [hv]
  dsimp only
  rcases hsettled v hdep with habsent | ⟨r, hready⟩
  · obtain ⟨v', htext, hv', hmodule⟩ := h.slots _ _ habsent
    obtain rfl := hp.text_inj hv' hreached htext
    rw [habsent, hp.source?_eq_none hv' hmodule]
    rfl
  · obtain ⟨v', htext, hfits⟩ := h.slots _ _ hready
    obtain rfl := hp.text_inj hfits.reached hreached htext
    obtain ⟨body, hbody⟩ := Option.isSome_iff_exists.mp
      ((hp.isSome_module? hfits.reached).symm.trans hfits.served)
    rw [hready, hbody, Option.map_some, ← hfits.exports]

theorem Follows.complete (hE : site.ExportLists entry E) (t : Nat) :
    Follows site entry E (g.complete t) ∧ Grows g (g.complete t) := by
  unfold Graph.complete
  split
  · rename_i storeId request isInline a ht
    have hfits := h.tasks t _ ht
    split
    · rename_i hempty
      refine h.finish ht nofun ?_
      have hwaits : WaitsFit site g request a := hfits.progress
      obtain rfl : storeId = request.text := hfits.storeId
      -- nothing is waited for any more, so everything that is named has its final list
      have hsettled : ∀ v, site.Depends request v → g.Settled v := by
        intro v hdep
        refine (hwaits.rest v hdep).resolve_right ?_
        rw [List.isEmpty_iff.mp hempty]
        exact fun ⟨_, hb, _⟩ => by cases hb
      have hlookup := h.lookup_eq hp hfits.reached hwaits.module hsettled
      obtain ⟨body, -, hread⟩ := Site.source?_of_module? hwaits.module
      have hlinks := (Module.links_congr hlookup).trans (Site.linksAt_iff hwaits.module).symm
      unfold Graph.outcomeOf
      rcases Module.output_of_ofSource hread (g.lookup request.text) with
        ⟨hl, out, hout, hexports⟩ | ⟨hl, e, hout⟩
      · rw [hout]
        refine ⟨hfits.reached, by rw [hwaits.module]; rfl, ?_, hlinks.mp hl, hsettled⟩
        exact hexports.trans ((Module.exportList_congr hlookup).trans
          (hE request _ hfits.reached hwaits.module).symm)
      · rw [hout]
        exact fun hall => hl (hlinks.mpr (hall _ hfits.reached))
    · exact ⟨h, .refl g⟩
  · exact ⟨h, .refl g⟩

omit hp in
/-- The module behind a task that ended well is settled, and if a task ended in an error, some name
is missing. -/
theorem Follows.fits_of_outcome? {o : Outcome} (ht : g.tasks[t]? = some task)
    (ho : g.outcome? t = some o) : ProgressFits site entry E g task.request (.done o) := by
  obtain ⟨task', ht', hprogress⟩ := outcome?_eq_some.mp ho
  obtain rfl := Option.some.inj (ht.symm.trans ht')
  exact hprogress ▸ (h.tasks t task ht).progress

theorem Follows.arrive {awaits : List Await} {b : Await} {c : Option Compiled}
    (ha : g.awaitsOf t = some awaits) (hmem : b ∈ awaits) (ho : g.outcome? b.task = some (.ok c)) :
    Follows site entry E (g.arrive t b) ∧ Grows g (g.arrive t b) := by
  obtain ⟨⟨storeId, request, isInline, _⟩, a, ht, rfl, rfl⟩ := awaitsOf_eq_some.mp ha
  have hfits := h.tasks t _ ht
  have hwaits : WaitsFit site g request a := hfits.progress
  have hwaiting : WaitsFit site g request { a with awaits := a.awaits.erase b } := by
    refine ⟨hwaits.module, fun b' hb => hwaits.awaits b' (List.mem_of_mem_erase hb), ?_⟩
    intro v hdep
    rcases hwaits.rest v hdep with hsettled | ⟨b', hb', htarget⟩
    · exact .inl hsettled
    by_cases heq : b' = b
    -- the one that is done is settled, since its task ended well
    · subst heq
      obtain ⟨v', task, hdep', htarget', ht', hrequest⟩ := hwaits.awaits b' hb'
      obtain rfl := hp.text_inj (hfits.reached.tail hdep) (hfits.reached.tail hdep')
        (htarget.symm.trans htarget')
      have hsettled : g.Settled task.request := h.fits_of_outcome? ht' ho
      exact .inl (hrequest ▸ hsettled)
    · exact .inr ⟨b', (List.mem_erase_of_ne heq).mpr hb', htarget⟩
  unfold Graph.arrive
  rw [ht]
  dsimp only
  obtain ⟨hfollows, hgrows⟩ := h.setProgress ht nofun
    (p := .waiting { a with awaits := a.awaits.erase b }) nofun hwaiting
  exact ⟨hfollows.of_eq rfl rfl fun w hw => .inl (List.mem_of_mem_filter hw),
    hgrows.trans (.of_eq rfl rfl)⟩

omit hp in
theorem Follows.giveUp {awaits : List Await} {b : Await} {e : LoadError}
    (ha : g.awaitsOf t = some awaits) (hmem : b ∈ awaits)
    (ho : g.outcome? b.task = some (.error e)) :
    Follows site entry E (g.giveUp t e) ∧ Grows g (g.giveUp t e) := by
  obtain ⟨⟨storeId, request, isInline, _⟩, a, ht, rfl, rfl⟩ := awaitsOf_eq_some.mp ha
  have hwaits : WaitsFit site g request a := (h.tasks t _ ht).progress
  obtain ⟨v, task, -, -, ht', -⟩ := hwaits.awaits b hmem
  have hlinks : ¬ site.Links entry E := h.fits_of_outcome? ht' ho
  unfold Graph.giveUp
  rw [ht]
  dsimp only
  unfold Graph.abandon
  have htasks := tasks_removeWaits g storeId a.awaits
  have hslots := slots_removeWaits g storeId a.awaits
  have hsame := h.of_eq htasks hslots fun w hw => .inl (waits_removeWaits hw)
  have hsameTask : (a.awaits.foldl (fun g b => g.removeWait ⟨storeId, b.target⟩) g).tasks[t]? =
      some ⟨storeId, request, isInline, .waiting a⟩ := htasks ▸ ht
  have ho : OutcomeFits site entry E
      (a.awaits.foldl (fun g b => g.removeWait ⟨storeId, b.target⟩) g) request (.error e) := hlinks
  obtain ⟨hfollows, hgrows⟩ := hsame.finish hsameTask nofun ho
  exact ⟨hfollows, (Grows.of_eq hslots htasks).trans hgrows⟩

/-- Every step of a task follows the dependency graph. -/
theorem Follows.step (hE : site.ExportLists entry E) (hs : TaskStep site g g') :
    Follows site entry E g' ∧ Grows g g' := by
  cases hs with
  | begin t => exact h.begin hp t
  | tick t => exact h.tick t
  | receive t => exact h.receive hp t
  | arrive ha hmem ho => exact h.arrive hp ha hmem ho
  | giveUp ha hmem ho => exact h.giveUp ha hmem ho
  | complete t => exact h.complete hp hE t

/-- And so do any steps, in any order. -/
theorem Follows.steps (hE : site.ExportLists entry E) (hs : TaskSteps site g g') :
    Follows site entry E g' ∧ Grows g g' := by
  induction hs with
  | refl => exact ⟨h, .refl g⟩
  | tail _ hstep ih =>
    obtain ⟨hfollows, hgrows⟩ := ih
    obtain ⟨hfollows', hgrows'⟩ := hfollows.step hp hE hstep
    exact ⟨hfollows', hgrows.trans hgrows'⟩

/-! ## The end -/

omit hp in
/-- Once the entry is settled, so is every module behind it. -/
theorem Follows.settled (hp : site.Plain entry) (hentry : g.Settled entry)
    (hu : site.Reaches entry u) : g.Settled u := by
  induction hu with
  | refl => exact hentry
  | @tail w v hw hdep ih =>
    rcases ih with habsent | ⟨r, hready⟩
    · obtain ⟨w', htext, hw', hmodule⟩ := h.slots _ _ habsent
      obtain rfl := hp.text_inj hw' hw htext
      obtain ⟨m, _, hm, -, -⟩ := hdep
      rw [hmodule] at hm
      cases hm
    · obtain ⟨w', htext, hfits⟩ := h.slots _ _ hready
      obtain rfl := hp.text_inj hfits.reached hw htext
      exact hfits.settled v hdep

end

end Graph

/-- Everything behind an entry is delivered: what is served is compiled, with its export list, and
what is not served is known to be absent. -/
structure Site.Delivered (site : Site) (entry : Url) (E : Url → List String) (g : Graph) :
    Prop where
  compiled : ∀ u, site.Reaches entry u → (site.source? u).isSome →
    ∃ r, g.resource? u.text = some r ∧ r.exports = E u
  absent : ∀ u, site.Reaches entry u → site.source? u = none →
    g.slots[u.text]? = some .absent

namespace Graph

variable {site : Site} {entry : Url} {E : Url → List String} {g : Graph} {t : Nat}

/-- Once the entry is settled, no name is missing behind it and everything is delivered. -/
theorem Follows.delivered (h : Follows site entry E g) (hp : site.Plain entry)
    (hentry : g.Settled entry) : site.Links entry E ∧ site.Delivered entry E g := by
  have hready : ∀ u r, site.Reaches entry u → g.slots[u.text]? = some (.ready r) →
      CompiledFits site entry E g u r := by
    intro u r hu hr
    obtain ⟨u', htext, hfits⟩ := h.slots _ _ hr
    obtain rfl := hp.text_inj hfits.reached hu htext
    exact hfits
  have habsent : ∀ u, site.Reaches entry u → g.slots[u.text]? = some .absent →
      site.module? u = none := by
    intro u hu hr
    obtain ⟨u', htext, hu', hmodule⟩ := h.slots _ _ hr
    obtain rfl := hp.text_inj hu' hu htext
    exact hmodule
  refine ⟨fun u hu => ?_, ⟨fun u hu hserved => ?_, fun u hu hserved => ?_⟩⟩
  · rcases h.settled hp hentry hu with hslot | ⟨r, hslot⟩
    · intro m hm
      rw [habsent u hu hslot] at hm
      cases hm
    · exact (hready u r hu hslot).links
  · rcases h.settled hp hentry hu with hslot | ⟨r, hslot⟩
    · rw [hp.source?_eq_none hu (habsent u hu hslot)] at hserved
      cases hserved
    · exact ⟨r, by rw [resource?, hslot], (hready u r hu hslot).exports⟩
  · rcases h.settled hp hentry hu with hslot | ⟨r, hslot⟩
    · exact hslot
    · have hserved' := (hready u r hu hslot).served
      rw [hp.isSome_module? hu, hserved] at hserved'
      cases hserved'

/-- The graph of a loader that has been asked for nothing but an entry. -/
def askedFor (entry : Url) : Graph := (empty.ensure entry.text entry none).2

theorem follows_askedFor (hp : site.Plain entry) : Follows site entry E (askedFor entry) := by
  have hempty : Follows site entry E empty := by
    refine ⟨fun t task ht => ?_, fun s slot hs => ?_, fun w hw => ?_⟩
    · cases ht
    · have hnone : (∅ : Table Slot)[s]? = none := Std.TreeMap.getElem?_emptyc
      exact nomatch hnone.symm.trans hs
    · cases hw
  have htask := (hempty.taskFor hp .refl).follows
  unfold askedFor ensure
  generalize empty.taskFor entry.text entry = asked at htask
  obtain ⟨t, g⟩ := asked
  cases t <;> exact htask

end Graph

end EsModule.Loader
