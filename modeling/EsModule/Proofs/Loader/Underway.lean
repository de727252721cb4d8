import EsModule.Proofs.Compile.Interface
import EsModule.Proofs.Loader.Confined

/-!
# Modules that are compiled at the same time

Hosts make calls at any time, so many modules are compiled at once, and some calls fail or are
dropped meanwhile. What a task leaves for the others is kept by store id: the waits, and the names
that its module declares in advance. No two tasks of modules that are not done share a store id,
since each of them owns its slot. So as long as code that a host gives has its store id to itself
(`CodeApart`), no task takes away what another one left (`AllMarked`). Then no task ever waits for
itself through others (`not_awaits_itself`), and what a module exports is known as soon as it is
analysed, unless one of its items leaves that open (`knownExports_of_waiting`).
-/

namespace EsModule.Loader

open EsModule.Compile EsModule.Syntax Relation

/-! ## Items that leave open what a module exports -/

/-- An item exports all of another module under no name of its own, or lists no name at all that it
exports from there. -/
def LeavesOpen (item : Node) : Prop :=
  ∃ source, item.kind = .exportAllDeclaration none source ∨
    item.kind = .exportNamedDeclaration none [] (some source)

theorem leavesOpen_iff {item : Node} (h : Derives false .item item) (handles : String → String) :
    LeavesOpen item ↔ ∃ i, reexportOf? handles item = some i ∧
      (i.isExport && i.names.isEmpty) = true := by
  have hlist := derives_specifiers h
  unfold LeavesOpen reexportOf?
  generalize item.kind = kind at hlist
  cases kind
  case exportNamedDeclaration declaration specifiers source =>
    cases declaration with
    | some declaration => simp
    | none =>
      cases source with
      | none => simp
      | some source =>
        -- each specifier of the list gives a name
        have hempty : exportPairs specifiers = [] ↔ specifiers = [] := by
          cases specifiers with
          | nil => simp [exportPairs]
          | cons s specifiers =>
            cases hlist (s :: specifiers) _ rfl s List.mem_cons_self
            exact iff_of_false (List.cons_ne_nil _ _) (List.cons_ne_nil _ _)
        simp [hempty]
  case exportAllDeclaration asName source => cases asName <;> simp
  all_goals simp

namespace Graph

/-- Whether what a module exports depends on other modules is found out from its items. -/
theorem hasStars_iff {source file : String} {m : Module} (hm : Module.ofSource source file = .ok m) :
    hasStars m.interface = true ↔ ∃ item ∈ itemsOf m.root, LeavesOpen item := by
  obtain ⟨-, -, items, hread⟩ := isRead_of_ofSource hm
  rw [hread.interface, hread.itemsOf, hasStars, Interface.ofItems]
  dsimp only
  generalize handleOf (dependencies items) = handles
  -- what is imported is no export
  have himports : (items.filterMap (importOf? handles)).any
      (fun i => i.isExport && i.names.isEmpty) = false := by
    rw [List.any_eq_false]
    intro i hi
    obtain ⟨item, -, hitem⟩ := List.mem_filterMap.mp hi
    unfold importOf? at hitem
    split at hitem
    · cases hitem
      exact nofun
    · cases hitem
  rw [List.any_append, himports, Bool.false_or, List.any_eq_true]
  constructor
  · intro hany
    obtain ⟨i, hi, hopen⟩ := hany
    obtain ⟨item, hmem, hitem⟩ := List.mem_filterMap.mp hi
    exact ⟨item, hmem, (leavesOpen_iff (hread.tree.items item hmem) handles).mpr ⟨i, hitem, hopen⟩⟩
  · intro hany
    obtain ⟨item, hmem, hopen⟩ := hany
    obtain ⟨i, hitem, hi⟩ := (leavesOpen_iff (hread.tree.items item hmem) handles).mp hopen
    exact ⟨i, List.mem_filterMap.mpr ⟨item, hmem, hitem⟩, hi⟩

variable {site : Site} {g g' g'' : Graph} {t u : Nat} {task task' : Task} {s : String}
  {analysis : Analysis}

/-! ## Tasks that share a store id -/

/-- Code that a host gives has its store id to itself: no other task is of the same one. -/
def CodeApart (g : Graph) : Prop :=
  ∀ (t u : Nat) (task task' : Task), g.tasks[t]? = some task → g.tasks[u]? = some task' →
    task.isInline = true → task.storeId = task'.storeId → t = u

theorem CodeApart.before (h : g'.CodeApart) (hc : g.Continues g') : g.CodeApart := by
  intro t u task task' ht hu hinline heq
  obtain ⟨p, ht'⟩ := hc t task ht
  obtain ⟨p', hu'⟩ := hc u task' hu
  exact h t u _ _ ht' hu' hinline heq

/-- No other task that is not done is of the same store id. -/
theorem CodeApart.alone (h : g.CodeApart) (hassigned : g.Assigned) (ht : g.tasks[t]? = some task)
    (hnot : ∀ o, task.progress ≠ .done o) (hu : g.tasks[u]? = some task')
    (hslot : task'.isInline = false) (hnot' : ∀ o, task'.progress ≠ .done o)
    (heq : task.storeId = task'.storeId) : t = u := by
  cases hinline : task.isInline with
  | true => exact h t u task task' ht hu hinline heq
  | false => exact not_owned_twice hassigned.owned ht hinline hnot hu hslot hnot' heq

/-- What can happen to a graph next. Waits end early only if they are those of some code, whose call
is dropped. -/
inductive Orderly (g : Graph) : Graph → Prop where
  /-- A task takes a step. -/
  | task {site : Site} {g' : Graph} (h : TaskStep site g g') : Orderly g g'
  /-- A host asks for a module. -/
  | ensure (storeId : String) (request : Url) : Orderly g (g.ensure storeId request none).2
  /-- A host gives some code, whose module has no slot. -/
  | provide (storeId : String) (served : Url) (code : String) :
    Orderly g (g.newTask (inlineTask storeId served code)).2
  /-- A host gives a compiled module. -/
  | preload (resource : Resource) : Orderly g (g.preload resource).2
  /-- A call is dropped, with the code that was given for it. -/
  | drop {waits : List Wait} (h : ∀ w ∈ waits, w ∈ g.waits)
    (hcode : ∀ w ∈ g.waits, w ∈ waits ∨
      ∃ (t : Nat) (task : Task), g.tasks[t]? = some task ∧ task.isInline = true ∧
        task.storeId = w.waiter) :
    Orderly g { g with waits := waits }

theorem Orderly.turn (h : g.Orderly g') : g.Turn g' := by
  cases h with
  | task hs => exact .task hs
  | ensure storeId request => exact .ensure storeId request none
  | provide storeId served code => exact .provide storeId served code
  | preload resource => exact .preload resource
  | drop h => exact .drop h

theorem Turn.continues (h : g.Turn g') : g.Continues g' := by
  intro t task ht
  obtain ⟨p, ht', -⟩ := h.effect.stage ht
  exact ⟨p, ht'⟩

/-- A task that is done keeps its outcome, whatever happens. -/
theorem Turn.outcome? (h : g.Turn g') {o : Outcome} (ho : g.outcome? t = some o) :
    g'.outcome? t = some o := by
  cases h with
  | task hs => exact hs.outcome? ho
  | ensure storeId request waiter => exact (keeps_ensure storeId request waiter).outcome? ho
  | provide => exact (keeps_newTask _).outcome? ho
  | preload resource =>
    have hkeeps : Keeps g (g.preload resource).2 t := fun _ ht =>
      (tasks_preload g resource).symm ▸ ht
    exact hkeeps.outcome? ho
  | drop => exact ho

/-! ## What a task leaves for others -/

/-- What a task of a store id leaves for others while it waits. -/
structure Marked (g : Graph) (s : String) (analysis : Analysis) : Prop where
  /-- Its module was read from some text. -/
  read : ∃ source, Module.ofSource source s = .ok analysis.module
  /-- It waits for each module once. -/
  single : ∀ a ∈ analysis.awaits, ∀ b ∈ analysis.awaits, a.target = b.target → a = b
  /-- There is a wait for each module whose task is not done. -/
  waits : ∀ a ∈ analysis.awaits, g.outcome? a.task = none → g.WaitsOn s a.target
  /-- The names are declared in advance that its module exports for certain. -/
  declared : hasStars analysis.module.interface = false →
    g.declared[s]? = some analysis.module.interface.declared

/-- All tasks of modules have left what they should. -/
def AllMarked (g : Graph) : Prop :=
  ∀ (t : Nat) (task : Task) (analysis : Analysis), g.tasks[t]? = some task →
    task.isInline = false → task.progress = .waiting analysis → g.Marked task.storeId analysis

/-- What one task of a store id may do to what the others left: nothing. -/
structure Spares (t : Nat) (s : String) (g g' : Graph) : Prop where
  /-- Whatever other task waits did so before. -/
  waiting : ∀ (u : Nat) (task : Task) (analysis : Analysis), u ≠ t → g'.tasks[u]? = some task →
    task.progress = .waiting analysis → g.tasks[u]? = some task
  waits : ∀ w ∈ g.waits, w.waiter ≠ s → w ∈ g'.waits
  declared : ∀ s' : String, s ≠ s' → g'.declared[s']? = g.declared[s']?

namespace Spares

theorem of_eq (htasks : g'.tasks = g.tasks) (hwaits : g'.waits = g.waits)
    (hdeclared : g'.declared = g.declared) : Spares t s g g' where
  waiting _ _ _ _ hu _ := htasks ▸ hu
  waits _ hw _ := hwaits ▸ hw
  declared _ _ := hdeclared ▸ rfl

theorem trans (h : Spares t s g g') (h' : Spares t s g' g'') : Spares t s g g'' where
  waiting u task analysis hne hu hwaiting :=
    h.waiting u task analysis hne (h'.waiting u task analysis hne hu hwaiting) hwaiting
  waits w hw hne := h'.waits w (h.waits w hw hne) hne
  declared s' hne := (h'.declared s' hne).trans (h.declared s' hne)

theorem setProgress (g : Graph) (t : Nat) (s : String) (p : Progress) :
    Spares t s g (g.setProgress t p) where
  waiting u task analysis hne hu _ := by rwa [tasks_setProgress, if_neg (Ne.symm hne)] at hu
  waits _ hw _ := hw
  declared _ _ := rfl

theorem finish (ht : g.tasks[t]? = some task) (outcome : Outcome) :
    Spares t task.storeId g (g.finish t outcome) where
  waiting u task analysis hne hu _ := by rwa [tasks_finish, if_neg (Ne.symm hne)] at hu
  waits _ hw _ := (waits_finish g t outcome).symm ▸ hw
  declared s' hne := by rw [declared_finish ht, if_neg hne]

theorem removeWait (g : Graph) (t : Nat) (s target : String) :
    Spares t s g (g.removeWait ⟨s, target⟩) where
  waiting _ _ _ _ hu _ := hu
  waits _ hw hne := List.mem_filter.mpr ⟨hw, decide_eq_true fun heq => hne (heq ▸ rfl)⟩
  declared _ _ := rfl

theorem removeWaits (g : Graph) (t : Nat) (s : String) (awaits : List Await) :
    Spares t s g (awaits.foldl (fun g a => g.removeWait ⟨s, a.target⟩) g) := by
  induction awaits generalizing g with
  | nil => exact .of_eq rfl rfl rfl
  | cons a awaits ih => exact (removeWait g t s a.target).trans (ih _)

theorem abandon (ht : g.tasks[t]? = some task) (awaits : List Await) (e : LoadError) :
    Spares t task.storeId g (g.abandon t task.storeId awaits e) :=
  (removeWaits g t task.storeId awaits).trans
    (finish ((tasks_removeWaits g task.storeId awaits).symm ▸ ht) _)

theorem declare (g : Graph) (t : Nat) (s : String) (names : List String) :
    Spares t s g { g with declared := g.declared.insert s names } where
  waiting _ _ _ _ hu _ := hu
  waits _ hw _ := hw
  declared _ hne := (Table.getElem?_insert ..).trans (if_neg hne)

end Spares

/-! ### Asking for modules -/

/-- Whoever asks for a module takes no wait away. -/
theorem waits_ensure (g : Graph) (storeId : String) (request : Url) (waiter : Option String) :
    ∀ w ∈ g.waits, w ∈ (g.ensure storeId request waiter).2.waits := by
  intro w hw
  have htaskFor : w ∈ (g.taskFor storeId request).2.waits :=
    (waits_taskFor g storeId request).symm ▸ hw
  unfold Graph.ensure
  split
  all_goals
    rename_i heq
    rw [heq] at htaskFor
  · exact htaskFor
  · exact htaskFor
  · split
    · exact htaskFor
    · unfold addWait
      split
      · exact htaskFor
      · exact List.mem_append_left _ htaskFor

theorem waiting_ensure {storeId : String} {request : Url} {waiter : Option String}
    (hu : (g.ensure storeId request waiter).2.tasks[u]? = some task)
    (hwaiting : task.progress = .waiting analysis) : g.tasks[u]? = some task := by
  rw [tasks_ensure, tasks_taskFor] at hu
  split at hu
  · rw [Array.getElem?_push] at hu
    split at hu
    · -- a new task has not begun
      cases hu
      cases hwaiting
    · exact hu
  · exact hu

theorem Spares.ensure (g : Graph) (t : Nat) (s storeId : String) (request : Url)
    (waiter : Option String) : Spares t s g (g.ensure storeId request waiter).2 where
  waiting _ _ _ _ hu hwaiting := waiting_ensure hu hwaiting
  waits w hw _ := waits_ensure g storeId request waiter w hw
  declared _ _ := by rw [(edges_ensure g storeId request waiter).2]

theorem Spares.askForAll (g : Graph) (t : Nat) (s storeId : String) (realUrl : Url)
    (specifiers : List String) (children : Children) :
    Spares t s g (askForAll storeId realUrl specifiers children g).2 := by
  induction specifiers generalizing children g with
  | nil => exact .of_eq rfl rfl rfl
  | cons specifier specifiers ih =>
    unfold Graph.askForAll
    split
    · exact (Spares.ensure g t s _ _ _).trans (ih _ _)
    · exact .of_eq rfl rfl rfl
    · exact .of_eq rfl rfl rfl

/-- A task that is waited for is in the slot of its module, and there is a wait for it. -/
def Noted (g : Graph) (waiter : String) (a : Await) : Prop :=
  g.slots[a.target]? = some (.pending a.task) ∧ g.WaitsOn waiter a.target

theorem noted_ensure {storeId waiter : String} {request : Url} {a : Await}
    (ha : (g.ensure storeId request (some waiter)).1 = some a) :
    (g.ensure storeId request (some waiter)).2.Noted waiter a := by
  have hpending : ∀ u, (g.taskFor storeId request).1 = some u →
      (g.taskFor storeId request).2.slots[storeId]? = some (.pending u) := by
    intro u hu
    unfold taskFor at hu ⊢
    split at hu
    · cases hu
    · cases hu
    · rename_i hslot
      cases hu
      exact hslot
    · cases hu
      exact (Table.getElem?_insert ..).trans (if_pos rfl)
  unfold Graph.ensure at ha ⊢
  generalize g.taskFor storeId request = asking at ha hpending ⊢
  obtain ⟨asked?, asked⟩ := asking
  cases asked? with
  | none => cases ha
  | some u =>
    dsimp only at ha hpending ⊢
    split at ha
    · cases ha
    · rename_i hreaches
      cases ha
      rw [if_neg hreaches]
      refine ⟨(slots_addWait asked _).symm ▸ hpending u rfl, ?_⟩
      unfold WaitsOn addWait
      split
      · assumption
      · exact List.mem_append_right _ (List.mem_singleton_self _)

theorem Noted.ensure {waiter : String} {a : Await} (h : g.Noted waiter a) (storeId : String)
    (request : Url) (waiter' : Option String) :
    (g.ensure storeId request waiter').2.Noted waiter a := by
  refine ⟨?_, waits_ensure g storeId request waiter' _ h.2⟩
  rcases (AsksFor.ensure g storeId request waiter').slots a.target with heq | ⟨hnone, -⟩
  · exact heq.trans h.1
  · exact nomatch hnone.symm.trans h.1

/-- When all modules have been asked for, each task that is waited for is noted. -/
theorem askForAll_noted {storeId : String} {realUrl : Url} {specifiers : List String}
    {children children' : Children} (hchildren : ∀ a ∈ children.awaits, g.Noted storeId a)
    (h : askForAll storeId realUrl specifiers children g = (.ok children', g')) :
    ∀ a ∈ children'.awaits, g'.Noted storeId a := by
  induction specifiers generalizing children g with
  | nil =>
    cases h
    exact hchildren
  | cons specifier specifiers ih =>
    unfold askForAll at h
    split at h
    · refine ih (fun a ha => ?_) h
      rcases List.mem_append.mp ha with ha | ha
      · exact (hchildren a ha).ensure _ _ _
      · exact noted_ensure (Option.mem_toList.mp ha)
    · cases h
    · cases h

/-! ### Every step keeps what tasks left -/

/-- What a task left is there as long as nobody takes it away. -/
theorem Marked.mono (h : g.Marked s analysis)
    (hdone : ∀ (u : Nat) (o : Outcome), g.outcome? u = some o → g'.outcome? u = some o)
    (hwaits : ∀ target, g.WaitsOn s target → g'.WaitsOn s target)
    (hdeclared : g'.declared[s]? = g.declared[s]?) : g'.Marked s analysis where
  read := h.read
  single := h.single
  waits a ha hopen := by
    refine hwaits _ (h.waits a ha ?_)
    cases ho : g.outcome? a.task with
    | none => rfl
    | some o => exact nomatch (hdone _ _ ho).symm.trans hopen
  declared hclosed := hdeclared.trans (h.declared hclosed)

namespace AllMarked

variable (h : g.AllMarked)
include h

/-- A task does something, and leaves what it should if it waits then. -/
theorem act (hassigned : g.Assigned) (hapart : g.CodeApart) (ht : g.tasks[t]? = some task)
    (hnot : ∀ o, task.progress ≠ .done o) (hspares : Spares t task.storeId g g')
    (hdone : ∀ (u : Nat) (o : Outcome), g.outcome? u = some o → g'.outcome? u = some o)
    (hown : ∀ (task' : Task) (analysis : Analysis), g'.tasks[t]? = some task' →
      task'.isInline = false → task'.progress = .waiting analysis →
      g'.Marked task'.storeId analysis) : g'.AllMarked := by
  intro u task' analysis hu hslot hwaiting
  by_cases hut : u = t
  · subst hut
    exact hown task' analysis hu hslot hwaiting
  have hbefore := hspares.waiting u task' analysis hut hu hwaiting
  have hother : task'.storeId ≠ task.storeId := fun heq =>
    hut (hapart.alone hassigned ht hnot hbefore hslot (hwaiting ▸ nofun) heq.symm).symm
  exact (h u task' analysis hbefore hslot hwaiting).mono hdone
    (fun target hw => hspares.waits _ hw hother) (hspares.declared _ (Ne.symm hother))

/-- No task goes on, and tasks of modules keep their waits. -/
theorem rest
    (hdone : ∀ (u : Nat) (o : Outcome), g.outcome? u = some o → g'.outcome? u = some o)
    (hwaiting : ∀ (u : Nat) (task : Task) (analysis : Analysis), g'.tasks[u]? = some task →
      task.progress = .waiting analysis → g.tasks[u]? = some task)
    (hwaits : ∀ (u : Nat) (task : Task) (target : String), g.tasks[u]? = some task →
      task.isInline = false → g.WaitsOn task.storeId target → g'.WaitsOn task.storeId target)
    (hdeclared : g'.declared = g.declared) : g'.AllMarked := by
  intro u task analysis hu hslot hprogress
  have hbefore := hwaiting u task analysis hu hprogress
  exact (h u task analysis hbefore hslot hprogress).mono hdone
    (fun target => hwaits u task target hbefore hslot) (hdeclared ▸ rfl)

end AllMarked

theorem progress_of_setProgress {p : Progress} (hu : (g.setProgress t p).tasks[t]? = some task) :
    task.progress = p := by
  rw [tasks_setProgress, if_pos rfl] at hu
  obtain ⟨_, -, rfl⟩ := Option.map_eq_some_iff.mp hu
  rfl

theorem progress_of_finish {outcome : Outcome}
    (hu : (g.finish t outcome).tasks[t]? = some task) : task.progress = .done outcome := by
  rw [tasks_finish, if_pos rfl] at hu
  obtain ⟨_, -, rfl⟩ := Option.map_eq_some_iff.mp hu
  rfl

theorem declared_askForAll (g : Graph) (storeId : String) (realUrl : Url)
    (specifiers : List String) (children : Children) :
    (askForAll storeId realUrl specifiers children g).2.declared = g.declared := by
  induction specifiers generalizing children g with
  | nil => rfl
  | cons specifier specifiers ih =>
    unfold askForAll
    split
    · exact (ih _ _).trans (edges_ensure g _ _ _).2
    · rfl
    · rfl

/-- A task that takes its text spares the others, and leaves what it should. -/
theorem analyse_marks (ht : g.tasks[t]? = some task) (r : Response) :
    Spares t task.storeId g (g.analyse t task.storeId r) ∧
      ∀ (task' : Task) (analysis : Analysis),
        (g.analyse t task.storeId r).tasks[t]? = some task' →
        task'.progress = .waiting analysis →
        (g.analyse t task.storeId r).Marked task'.storeId analysis := by
  unfold analyse
  split
  · refine ⟨.finish ht _, fun task' analysis hu hwaiting => ?_⟩
    exact nomatch (progress_of_finish hu).symm.trans hwaiting
  · rename_i m hm
    have hstart : ∃ g₁ : Graph, g₁ = (if hasStars m.interface then g
        else { g with declared := g.declared.insert task.storeId m.interface.declared }) ∧
        Spares t task.storeId g g₁ ∧ g₁.tasks = g.tasks ∧ (hasStars m.interface = false →
          g₁.declared[task.storeId]? = some m.interface.declared) := by
      refine ⟨_, rfl, ?_⟩
      split
      · rename_i hopen
        exact ⟨.of_eq rfl rfl rfl, rfl, fun hclosed => nomatch hopen.symm.trans hclosed⟩
      · exact ⟨.declare g t _ _, rfl, fun _ => (Table.getElem?_insert ..).trans (if_pos rfl)⟩
    obtain ⟨g₁, hg₁, hspares, htasks, hdeclared⟩ := hstart
    dsimp only
    rw [← hg₁]
    have hasked := hspares.trans
      (.askForAll g₁ t _ task.storeId r.finalUrl m.interface.dependencies ⟨[], []⟩)
    have hsame := declared_askForAll g₁ task.storeId r.finalUrl m.interface.dependencies ⟨[], []⟩
    have hkept := keeps_askForAll task.storeId r.finalUrl m.interface.dependencies ⟨[], []⟩ task
      (htasks.symm ▸ ht)
    split
    all_goals
      rename_i heq
      rw [heq] at hasked hsame hkept
    · refine ⟨hasked.trans (.setProgress _ t _ _), fun task' analysis hu hwaiting => ?_⟩
      have hself := (tasks_setProgress_self hkept _).symm.trans hu
      cases hself
      cases hwaiting
      have hnoted := askForAll_noted (fun a ha => absurd ha List.not_mem_nil) heq
      refine ⟨⟨r.body, hm⟩, fun a ha b hb htarget => ?_, fun a ha _ => (hnoted a ha).2,
        fun hclosed => hsame ▸ hdeclared hclosed⟩
      -- both are in the same slot
      have hslot := (hnoted a ha).1
      rw [htarget, (hnoted b hb).1] at hslot
      cases a
      cases b
      cases htarget
      cases hslot
      rfl
    · refine ⟨hasked.trans (.abandon hkept _ _), fun task' analysis hu hwaiting => ?_⟩
      exact nomatch (progress_of_finish hu).symm.trans hwaiting

/-- A task that takes down that another one is done still has a wait for each of the others. -/
theorem Marked.arrive (h : g.Marked s analysis) {a : Await} (hmem : a ∈ analysis.awaits)
    {o : Outcome} (ho : g.outcome? a.task = some o)
    (hdone : ∀ (u : Nat) (o : Outcome), g.outcome? u = some o → g'.outcome? u = some o)
    (hwaits : ∀ target, a.target ≠ target → g.WaitsOn s target → g'.WaitsOn s target)
    (hdeclared : g'.declared[s]? = g.declared[s]?) :
    g'.Marked s { analysis with awaits := analysis.awaits.erase a } where
  read := h.read
  single b hb c hc := h.single b (List.mem_of_mem_erase hb) c (List.mem_of_mem_erase hc)
  waits b hb hopen := by
    have hbefore : ∀ o, g.outcome? b.task ≠ some o := fun o hb =>
      nomatch (hdone _ _ hb).symm.trans hopen
    have hb' := List.mem_of_mem_erase hb
    refine hwaits _ (fun htarget => ?_) (h.waits b hb' (Option.eq_none_iff_forall_ne_some.mpr
      hbefore))
    -- there is one task for each module that is waited for, and this one is done
    obtain rfl := h.single a hmem b hb' htarget
    exact hbefore o ho
  declared hclosed := hdeclared.trans (h.declared hclosed)

theorem TaskStep.allMarked (hs : TaskStep site g g') (hassigned : g.Assigned)
    (hapart : g.CodeApart) (h : g.AllMarked) : g'.AllMarked := by
  have hdone := fun (u : Nat) (o : Outcome) => hs.outcome? (t := u) (o := o)
  cases hs.acts with
  | nothing => exact h
  | @request t task delay answer ht hprogress =>
    let counted : Graph := { g with requests := g.requests + 1 }
    have hcounted : Spares t task.storeId g counted := .of_eq rfl rfl rfl
    refine h.act hassigned hapart ht (hprogress ▸ nofun)
      (hcounted.trans (.setProgress counted t _ (.fetching delay answer))) hdone
      fun task' analysis hu _ hwaiting => ?_
    exact nomatch (progress_of_setProgress (g := counted) hu).symm.trans hwaiting
  | nearer ht hprogress =>
    refine h.act hassigned hapart ht (hprogress ▸ nofun) (.setProgress g _ _ _) hdone
      fun task' analysis hu _ hwaiting => ?_
    exact nomatch (progress_of_setProgress hu).symm.trans hwaiting
  | finish ht hnot =>
    refine h.act hassigned hapart ht hnot (.finish ht _) hdone
      fun task' analysis hu _ hwaiting => ?_
    exact nomatch (progress_of_finish hu).symm.trans hwaiting
  | analyse ht hprogress =>
    obtain ⟨hspares, hown⟩ := analyse_marks ht _
    exact h.act hassigned hapart ht (hprogress ▸ nofun) hspares hdone
      fun task' analysis hu _ hwaiting => hown task' analysis hu hwaiting
  | @arrive t task analysis a c ht hprogress ho hmem =>
    have hspares : Spares t task.storeId g ((g.removeWait ⟨task.storeId, a.target⟩).setProgress t
        (.waiting { analysis with awaits := analysis.awaits.erase a })) :=
      (Spares.removeWait g t _ _).trans (.setProgress _ t _ _)
    refine h.act hassigned hapart ht (hprogress ▸ nofun) hspares hdone
      fun task' analysis' hu hslot hwaiting => ?_
    cases (tasks_setProgress_self (g := g.removeWait ⟨task.storeId, a.target⟩) ht _).symm.trans hu
    cases hwaiting
    refine (h t task analysis ht hslot hprogress).arrive hmem ho hdone
      (fun target hne hw => List.mem_filter.mpr ⟨hw, decide_eq_true fun heq => ?_⟩) rfl
    exact hne (Wait.mk.inj heq).2.symm
  | giveUp ht hprogress =>
    refine h.act hassigned hapart ht (hprogress ▸ nofun) (.abandon ht _ _) hdone
      fun task' analysis hu _ hwaiting => ?_
    exact nomatch (progress_of_finish hu).symm.trans hwaiting

theorem waiting_provide {storeId code : String} {served : Url}
    (hu : (g.newTask (inlineTask storeId served code)).2.tasks[u]? = some task)
    (hwaiting : task.progress = .waiting analysis) : g.tasks[u]? = some task := by
  have htasks : (g.tasks.push (inlineTask storeId served code))[u]? = some task := hu
  rw [Array.getElem?_push] at htasks
  split at htasks
  · -- the code has not been read yet
    cases htasks
    cases hwaiting
  · exact htasks

theorem Orderly.allMarked (hs : g.Orderly g') (hassigned : g.Assigned) (hapart : g.CodeApart)
    (h : g.AllMarked) : g'.AllMarked := by
  have hdone := fun (u : Nat) (o : Outcome) => hs.turn.outcome? (t := u) (o := o)
  cases hs with
  | task hs => exact hs.allMarked hassigned hapart h
  | ensure storeId request =>
    exact h.rest hdone (fun _ _ _ => waiting_ensure)
      (fun _ _ _ _ _ => waits_ensure g storeId request none _) (edges_ensure g storeId request none).2
  | provide storeId served code =>
    exact h.rest hdone (fun _ _ _ => waiting_provide) (fun _ _ _ _ _ => id) rfl
  | preload resource =>
    have hsame : (g.preload resource).2.waits = g.waits ∧
        (g.preload resource).2.declared = g.declared := by
      unfold Graph.preload
      split <;> exact ⟨rfl, rfl⟩
    exact h.rest hdone (fun _ _ _ hu _ => tasks_preload g resource ▸ hu)
      (fun _ _ _ _ _ hw => by rwa [WaitsOn, hsame.1]) hsame.2
  | drop _ hcode =>
    refine h.rest hdone (fun _ _ _ hu _ => hu) (fun u task target hu hslot hw => ?_) rfl
    rcases hcode _ hw with hkept | ⟨t, code, ht, hinline, heq⟩
    · exact hkept
    · -- the task of a module is not that of the code
      obtain rfl := hapart t u code task ht hu hinline heq
      cases ht.symm.trans hu
      exact nomatch hinline.symm.trans hslot

/-! ## All moments -/

variable (h : ReflTransGen Orderly .empty g) (hapart : g.CodeApart)
include h

theorem turns_of_orderly : Turns .empty g :=
  ReflTransGen.mono (fun _ _ => Orderly.turn) _ _ h

theorem awaitsNamed_of_orderly : g.Assigned ∧ g.AwaitsNamed :=
  (turns_of_orderly h).awaitsNamed assigned_empty fun _ _ _ ht => nomatch ht

include hapart

/-- Whatever happens, tasks have left what they should. -/
theorem allMarked_of_orderly : g.AllMarked := by
  induction h with
  | refl => exact fun _ _ _ ht => nomatch ht
  | tail hs hstep ih =>
    have hbefore := hapart.before hstep.turn.continues
    exact hstep.allMarked (awaitsNamed_of_orderly hs).1 hbefore (ih hbefore)

/-- From when a module is analysed until its task is done, its exports are known to all others: the
names that it declares, if none of its items leaves open what it exports. -/
theorem knownExports_of_waiting (ht : g.tasks[t]? = some task) (hslot : task.isInline = false)
    (hwaiting : task.progress = .waiting analysis)
    (hclosed : ∀ item ∈ itemsOf analysis.module.root, ¬ LeavesOpen item) :
    g.knownExports task.storeId = some analysis.module.interface.declared := by
  have hmarked := allMarked_of_orderly h hapart t task analysis ht hslot hwaiting
  obtain ⟨source, hread⟩ := hmarked.read
  have hstars : hasStars analysis.module.interface = false := by
    rw [← Bool.not_eq_true, hasStars_iff hread]
    intro hopen
    obtain ⟨item, hi, hopen⟩ := hopen
    exact hclosed item hi hopen
  have hpending := (awaitsNamed_of_orderly h).1.owned t task ht hslot (hwaiting ▸ nofun)
  rw [knownExports, hpending]
  exact hmarked.declared hstars

omit h hapart

/-- A task waits for another one, which is not done. -/
def Awaits (g : Graph) (t u : Nat) : Prop :=
  ∃ (task : Task) (analysis : Analysis) (a : Await), g.tasks[t]? = some task ∧
    task.progress = .waiting analysis ∧ a ∈ analysis.awaits ∧ a.task = u ∧ g.outcome? u = none

/-- Whoever is waited for is the task of a module. -/
theorem Awaits.target (hnamed : g.AwaitsNamed) (h : g.Awaits t u) :
    ∃ task, g.tasks[u]? = some task ∧ task.isInline = false := by
  obtain ⟨task, analysis, a, ht, hwaiting, ha, rfl, -⟩ := h
  obtain ⟨-, target, hu, -, hslot⟩ := hnamed t task analysis ht hwaiting a ha
  exact ⟨target, hu, hslot⟩

/-- If the task of a module waits for another one, so does its store id. -/
theorem Awaits.waitsOn (hnamed : g.AwaitsNamed) (hmarked : g.AllMarked) (h : g.Awaits t u)
    (ht : g.tasks[t]? = some task) (hslot : task.isInline = false)
    (hu : g.tasks[u]? = some task') : g.WaitsOn task.storeId task'.storeId := by
  obtain ⟨_, analysis, a, ht', hwaiting, ha, rfl, hopen⟩ := h
  cases ht.symm.trans ht'
  obtain ⟨-, _, hu', htarget, -⟩ := hnamed t task analysis ht hwaiting a ha
  cases hu.symm.trans hu'
  exact htarget ▸ (hmarked t task analysis ht hslot hwaiting).waits a ha hopen

theorem transGen_waitsOn (hnamed : g.AwaitsNamed) (hmarked : g.AllMarked)
    (h : TransGen g.Awaits t u) (ht : g.tasks[t]? = some task) (hslot : task.isInline = false) :
    ∃ task', g.tasks[u]? = some task' ∧ task'.isInline = false ∧
      TransGen g.WaitsOn task.storeId task'.storeId := by
  induction h with
  | single hw =>
    obtain ⟨task', hu, hslot'⟩ := hw.target hnamed
    exact ⟨task', hu, hslot', .single (hw.waitsOn hnamed hmarked ht hslot hu)⟩
  | tail _ hw ih =>
    obtain ⟨between, hb, hslotb, hpath⟩ := ih
    obtain ⟨task', hu, hslot'⟩ := hw.target hnamed
    exact ⟨task', hu, hslot', hpath.tail (hw.waitsOn hnamed hmarked hb hslotb hu)⟩

/-- Whatever happens, no task waits for itself, neither directly nor through others. -/
theorem not_awaits_itself (h : ReflTransGen Orderly .empty g) (hapart : g.CodeApart) (t : Nat) :
    ¬ TransGen g.Awaits t t := by
  intro hcircle
  have hmarked := allMarked_of_orderly h hapart
  have hnamed := (awaitsNamed_of_orderly h).2
  have hacyclic : g.WaitsAcyclic := (turns_of_orderly h).waitsAcyclic fun s hs => by
    obtain ⟨_, hw, -⟩ := TransGen.head'_iff.mp hs
    cases hw
  -- somebody waits for the task, so that it is one of a module
  obtain ⟨_, -, hlast⟩ := TransGen.tail'_iff.mp hcircle
  obtain ⟨task, ht, hslot⟩ := hlast.target hnamed
  obtain ⟨_, ht', -, hpath⟩ := transGen_waitsOn hnamed hmarked hcircle ht hslot
  cases ht.symm.trans ht'
  exact hacyclic _ hpath

end Graph

/-- A call that goes on does only what can happen to a graph in order. -/
theorem World.advance_orderly (w : World) (depth : Nat) (call : Call) :
    ReflTransGen Graph.Orderly w.graph (w.advance depth call).2.graph := by
  have hstable : Graph.Stable w.site (ReflTransGen Graph.Orderly w.graph) :=
    { task := fun hstep h => h.tail (.task hstep)
      ensure := fun _ storeId request h => h.tail (.ensure storeId request)
      provide := fun _ storeId served code h => h.tail (.provide storeId served code) }
  exact advance_stable hstable .refl depth call

end EsModule.Loader
