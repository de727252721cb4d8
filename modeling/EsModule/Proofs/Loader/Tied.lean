import EsModule.Proofs.Loader.Effects
import EsModule.Proofs.Loader.Waits

/-!
# Who waits for what is under way

While a module is compiled, everything that is under way belongs to tasks that wait (`Tied`): each
wait, each name that is declared in advance, and each task but the first one, which an earlier task
waits for unless it was successful, or unless that earlier one has failed. This is shown for each
step by taking the task in hand (`inHand`): what it waits for is then told apart from what the other
tasks wait for, may grow while the task asks for modules, and is put back with the task.
-/

namespace EsModule.Loader.Graph

variable {site : Site} {g g' : Graph} {root t : Nat} {task : Task} {s : String}
  {awaits : List Await}

/-! ## Tasks that wait -/

/-- Which tasks wait, as tasks of which store id, for which others. -/
def Waiting (g : Graph) (t : Nat) (s : String) (awaits : List Await) : Prop :=
  ∃ (task : Task) (analysis : Analysis), g.tasks[t]? = some task ∧ task.storeId = s ∧
    task.progress = .waiting analysis ∧ analysis.awaits = awaits

/-- Who waits, if one task is in hand: of that one, what it waits for is told apart. -/
def inHand (g : Graph) (t : Nat) (s : String) (awaits : List Await) (u : Nat) (s' : String)
    (awaits' : List Await) : Prop :=
  if u = t then s' = s ∧ awaits' = awaits else g.Waiting u s' awaits'

theorem inHand_self {s' : String} {awaits' : List Await} :
    g.inHand t s awaits t s' awaits' ↔ s' = s ∧ awaits' = awaits := by
  unfold inHand
  rw [if_pos rfl]

theorem inHand_of_ne {u : Nat} (h : u ≠ t) {s' : String} {awaits' : List Await} :
    g.inHand t s awaits u s' awaits' ↔ g.Waiting u s' awaits' := by
  unfold inHand
  rw [if_neg h]

/-- Everything that is under way belongs to tasks that wait or are waited for. All tasks before the
root are done. -/
structure Tied (root : Nat) (waiting : Nat → String → List Await → Prop) (g : Graph) :
    Prop where
  assigned : g.Assigned
  /-- The tasks before the root are done. -/
  earlier : ∀ (t : Nat) (task : Task), g.tasks[t]? = some task → t < root →
    ∃ o, task.progress = .done o
  /-- The other ones have slots. -/
  slotted : ∀ (t : Nat) (task : Task), g.tasks[t]? = some task → root ≤ t → task.isInline = false
  /-- Each wait is one of a task that waits. -/
  waits : ∀ w ∈ g.waits, ∃ t awaits, waiting t w.waiter awaits ∧ ∃ a ∈ awaits, a.target = w.target
  /-- Names are declared in advance for tasks that wait. -/
  declared : ∀ s : String, g.declared[s]? ≠ none → ∃ t awaits, waiting t s awaits
  /-- For each task that is not successful, an earlier one waits, or it has failed. -/
  heeded : ∀ (t : Nat) (task : Task), g.tasks[t]? = some task → root < t →
    (∀ c, task.progress ≠ .done (.ok c)) → ∃ u, root ≤ u ∧ u < t ∧
      ((∃ s awaits, waiting u s awaits ∧ ∃ a ∈ awaits, a.task = t) ∨
        ∃ e, g.outcome? u = some (.error e))

/-- A graph in which the module of one task is compiled. -/
abbrev Loads (root : Nat) (g : Graph) : Prop := Tied root g.Waiting g

/-! ## A task in hand -/

namespace Tied

variable {waiting waiting' : Nat → String → List Await → Prop}

theorem mono (h : Tied root waiting g)
    (hwaiting : ∀ t s awaits, waiting t s awaits → waiting' t s awaits) :
    Tied root waiting' g where
  assigned := h.assigned
  earlier := h.earlier
  slotted := h.slotted
  waits w hw := by
    obtain ⟨t, awaits, ht, ha⟩ := h.waits w hw
    exact ⟨t, awaits, hwaiting _ _ _ ht, ha⟩
  declared s hs := by
    obtain ⟨t, awaits, ht⟩ := h.declared s hs
    exact ⟨t, awaits, hwaiting _ _ _ ht⟩
  heeded t task ht hlt hbad := by
    obtain ⟨u, hu, hut, hheeds⟩ := h.heeded t task ht hlt hbad
    refine ⟨u, hu, hut, hheeds.imp_left fun hwaits => ?_⟩
    obtain ⟨s, awaits, hs, ha⟩ := hwaits
    exact ⟨s, awaits, hwaiting _ _ _ hs, ha⟩

theorem root_le (h : Tied root waiting g) (ht : g.tasks[t]? = some task)
    (hnot : ∀ o, task.progress ≠ .done o) : root ≤ t := by
  by_contra hlt
  obtain ⟨o, ho⟩ := h.earlier t task ht (Nat.lt_of_not_le hlt)
  exact hnot o ho

theorem inFlight (h : Tied root waiting g) (ht : g.tasks[t]? = some task)
    (hnot : ∀ o, task.progress ≠ .done o) : g.InFlight task.storeId t :=
  ⟨task, ht, rfl, h.slotted t task ht (h.root_le ht hnot), hnot⟩

end Tied

/-- A task is taken in hand. -/
theorem Loads.inHand (h : Loads root g) (ht : g.tasks[t]? = some task)
    (hawaits : ∀ analysis, task.progress = .waiting analysis → analysis.awaits = awaits) :
    Tied root (g.inHand t task.storeId awaits) g := by
  refine h.mono fun u s awaits' hwaiting => ?_
  by_cases hut : u = t
  · subst hut
    obtain ⟨task', analysis, ht', hs, hprogress, hawaits'⟩ := hwaiting
    obtain rfl : task = task' := Option.some.inj (ht.symm.trans ht')
    exact inHand_self.mpr ⟨hs.symm, hawaits'.symm.trans (hawaits analysis hprogress)⟩
  · exact (inHand_of_ne hut).mpr hwaiting

theorem Waiting.keeps {u : Nat} (h : g.Waiting u s awaits) (hk : Keeps g g' u) :
    g'.Waiting u s awaits := by
  obtain ⟨task, analysis, ht, hrest⟩ := h
  exact ⟨task, analysis, hk task ht, hrest⟩

theorem Keeps.outcome? {u : Nat} (hk : Keeps g g' u) {o : Outcome} (h : g.outcome? u = some o) :
    g'.outcome? u = some o := by
  obtain ⟨task, ht, hprogress⟩ := outcome?_eq_some.mp h
  exact outcome?_eq_some.mpr ⟨task, hk task ht, hprogress⟩

/-- A task that is done keeps its outcome. -/
theorem TaskStep.outcome? (h : TaskStep site g g') {o : Outcome} (ho : g.outcome? t = some o) :
    g'.outcome? t = some o := by
  obtain ⟨task, ht, hdone⟩ := outcome?_eq_some.mp ho
  have hne : ∀ {u : Nat} {task' : Task}, g.tasks[u]? = some task' →
      (∀ o, task'.progress ≠ .done o) → u ≠ t := by
    rintro u task' hu hnot rfl
    cases ht.symm.trans hu
    exact hnot o hdone
  -- whatever a step does, it does to a task that is not done
  have hkeeps : Keeps g g' t := by
    cases h.acts with
    | nothing => exact fun _ h => h
    | request hu hprogress | nearer hu hprogress | arrive hu hprogress =>
      exact keeps_setProgress (hne hu (hprogress ▸ nofun)) _
    | finish hu hnot => exact keeps_finish (hne hu hnot) _
    | analyse hu hprogress => exact keeps_analyse (hne hu (hprogress ▸ nofun)) _ _
    | giveUp hu hprogress => exact keeps_abandon (hne hu (hprogress ▸ nofun)) _ _ _
  exact hkeeps.outcome? ho

theorem TaskSteps.outcome? (h : TaskSteps site g g') {o : Outcome} (ho : g.outcome? t = some o) :
    g'.outcome? t = some o := by
  induction h with
  | refl => exact ho
  | tail _ hstep ih => exact hstep.outcome? ih

theorem declared_taskFor (g : Graph) (storeId : String) (request : Url) :
    (g.taskFor storeId request).2.declared = g.declared := by
  unfold taskFor
  split <;> rfl

theorem declared_settle (g : Graph) (storeId : String) (outcome : Outcome) :
    (g.settle storeId outcome).declared = g.declared := by
  unfold settle
  split <;> rfl

theorem declared_finish (ht : g.tasks[t]? = some task) (outcome : Outcome) (s : String) :
    (g.finish t outcome).declared[s]? =
      if task.storeId = s then none else g.declared[s]? := by
  have heq : (g.finish t outcome).declared = g.declared.erase task.storeId := by
    unfold Graph.finish
    rw [ht]
    dsimp only
    split
    · rfl
    · exact declared_settle _ _ _
  rw [heq]
  exact Table.getElem?_erase ..

/-- A task in hand is put back at another stage. -/
theorem Tied.putBack {waiting waiting' : Nat → String → List Await → Prop} {p : Progress}
    (h : Tied root waiting g) (ht : g.tasks[t]? = some task)
    (hnot : ∀ o, task.progress ≠ .done o) (hassigned : g'.Assigned)
    (htasks : ∀ u, g'.tasks[u]? = if t = u then some { task with progress := p } else g.tasks[u]?)
    (hwaits : ∀ w ∈ g'.waits, ∃ u awaits, waiting' u w.waiter awaits ∧
      ∃ a ∈ awaits, a.target = w.target)
    (hdeclared : ∀ s : String, g'.declared[s]? ≠ none → ∃ u awaits, waiting' u s awaits)
    (hheeds : ∀ u s awaits, waiting u s awaits → waiting' u s awaits ∨ awaits = [] ∨
      ∃ e, g'.outcome? u = some (.error e)) : Tied root waiting' g' := by
  have hroot := h.root_le ht hnot
  have hkeeps : ∀ u, t ≠ u → Keeps g g' u := by
    intro u hne task' ht'
    rw [htasks, if_neg hne, ht']
  -- every task was there before, and it was not successful unless it is so now
  have hbefore : ∀ (u : Nat) (task' : Task), g'.tasks[u]? = some task' →
      ∃ task₀, g.tasks[u]? = some task₀ ∧ task₀.isInline = task'.isInline ∧
        (task₀ = task' ∨ u = t) := by
    intro u task' ht'
    rw [htasks] at ht'
    split at ht'
    · rename_i heq
      subst heq
      cases ht'
      exact ⟨task, ht, rfl, .inr rfl⟩
    · exact ⟨task', ht', rfl, .inl rfl⟩
  refine ⟨hassigned, fun u task' ht' hlt => ?_, fun u task' ht' hle => ?_, hwaits, hdeclared,
    fun u task' ht' hlt hbad => ?_⟩
  · obtain ⟨task₀, ht₀, -, rfl | rfl⟩ := hbefore u task' ht'
    · exact h.earlier u task₀ ht₀ hlt
    · exact absurd hlt (Nat.not_lt_of_le hroot)
  · obtain ⟨task₀, ht₀, hinline, -⟩ := hbefore u task' ht'
    exact hinline ▸ h.slotted u task₀ ht₀ hle
  · obtain ⟨task₀, ht₀, -, hsame⟩ := hbefore u task' ht'
    have hbad₀ : ∀ c, task₀.progress ≠ .done (.ok c) := by
      rcases hsame with rfl | rfl
      · exact hbad
      · obtain rfl : task = task₀ := Option.some.inj (ht.symm.trans ht₀)
        exact fun c => hnot _
    obtain ⟨v, hv, hvu, hheeded⟩ := h.heeded u task₀ ht₀ hlt hbad₀
    refine ⟨v, hv, hvu, ?_⟩
    rcases hheeded with ⟨s, awaits, hwaiting, a, ha, htask⟩ | ⟨e, he⟩
    · rcases hheeds v s awaits hwaiting with hwaiting' | rfl | hfailed
      · exact .inl ⟨s, awaits, hwaiting', a, ha, htask⟩
      · cases ha
      · exact .inr hfailed
    · have hne : t ≠ v := by
        intro heq
        subst heq
        obtain ⟨failed, hfailed, herror⟩ := outcome?_eq_some.mp he
        obtain rfl : task = failed := Option.some.inj (ht.symm.trans hfailed)
        exact hnot _ herror
      exact .inr ⟨e, (hkeeps v hne).outcome? he⟩

/-- A task in hand goes on to wait for what is told of it. -/
theorem Tied.setWaiting (h : Tied root (g.inHand t task.storeId awaits) g)
    (ht : g.tasks[t]? = some task) (hnot : ∀ o, task.progress ≠ .done o) {analysis : Analysis}
    (hawaits : analysis.awaits = awaits) : Loads root (g.setProgress t (.waiting analysis)) := by
  have hwaiting : ∀ u s awaits', g.inHand t task.storeId awaits u s awaits' →
      (g.setProgress t (.waiting analysis)).Waiting u s awaits' := by
    intro u s awaits' hu
    by_cases hut : u = t
    · subst hut
      obtain ⟨rfl, rfl⟩ := inHand_self.mp hu
      exact ⟨_, analysis, tasks_setProgress_self ht _, rfl, rfl, hawaits⟩
    · exact ((inHand_of_ne hut).mp hu).keeps (keeps_setProgress (Ne.symm hut) _)
  have hmono := h.mono hwaiting
  exact h.putBack ht hnot (h.assigned.setProgress ht hnot nofun nofun)
    (tasks_setProgress_of ht (.waiting analysis)) hmono.waits hmono.declared
    fun u s awaits' hu => .inl (hwaiting u s awaits' hu)

/-- A task that waits for nobody goes on. -/
theorem Loads.setFetching (h : Loads root g) (ht : g.tasks[t]? = some task)
    (hnot : ∀ o, task.progress ≠ .done o) (hwaits : ∀ analysis, task.progress ≠ .waiting analysis)
    (delay : Nat) (answer : Except LoadError Response) :
    Loads root (g.setProgress t (.fetching delay answer)) := by
  have hwaiting : ∀ u s awaits, g.Waiting u s awaits →
      (g.setProgress t (.fetching delay answer)).Waiting u s awaits := by
    intro u s awaits hu
    have hne : t ≠ u := by
      intro heq
      subst heq
      obtain ⟨task', analysis, ht', -, hprogress, -⟩ := hu
      obtain rfl : task = task' := Option.some.inj (ht.symm.trans ht')
      exact hwaits analysis hprogress
    exact hu.keeps (keeps_setProgress hne _)
  have hmono := h.mono hwaiting
  exact h.putBack ht hnot (h.assigned.setProgress ht hnot nofun nofun)
    (tasks_setProgress_of ht (.fetching delay answer)) hmono.waits hmono.declared
    fun u s awaits hu => .inl (hwaiting u s awaits hu)

/-- A task in hand ends. It leaves no waits, and it ends in an error if others were made for it. -/
theorem Tied.finish (h : Tied root (g.inHand t task.storeId awaits) g)
    (ht : g.tasks[t]? = some task) (hnot : ∀ o, task.progress ≠ .done o)
    (hwaits : ∀ w ∈ g.waits, w.waiter = task.storeId → ∀ a ∈ awaits, a.target ≠ w.target)
    {outcome : Outcome} (houtcome : awaits = [] ∨ ∃ e, outcome = .error e) :
    Loads root (g.finish t outcome) := by
  have hwaiting : ∀ u s awaits', u ≠ t → g.inHand t task.storeId awaits u s awaits' →
      (g.finish t outcome).Waiting u s awaits' := by
    intro u s awaits' hut hu
    exact ((inHand_of_ne hut).mp hu).keeps (keeps_finish (Ne.symm hut) _)
  refine h.putBack ht hnot (h.assigned.finish ht hnot outcome) (tasks_finish_of ht outcome)
    (fun w hw => ?_) (fun s hs => ?_) fun u s awaits' hu => ?_
  · rw [waits_finish] at hw
    obtain ⟨u, awaits', hu, a, ha, htarget⟩ := h.waits w hw
    by_cases hut : u = t
    · subst hut
      obtain ⟨hwaiter, rfl⟩ := inHand_self.mp hu
      exact absurd htarget (hwaits w hw hwaiter a ha)
    · exact ⟨u, awaits', hwaiting u _ awaits' hut hu, a, ha, htarget⟩
  · rw [declared_finish ht] at hs
    split at hs
    · exact absurd rfl hs
    · rename_i hother
      obtain ⟨u, awaits', hu⟩ := h.declared s hs
      have hut : u ≠ t := by
        intro hut
        subst hut
        exact hother (inHand_self.mp hu).1.symm
      exact ⟨u, awaits', hwaiting u s awaits' hut hu⟩
  · by_cases hut : u = t
    · subst hut
      obtain ⟨-, rfl⟩ := inHand_self.mp hu
      rcases houtcome with hnil | ⟨e, rfl⟩
      · exact .inr (.inl hnil)
      · exact .inr (.inr ⟨e, outcome?_eq_some.mpr ⟨_, tasks_finish_self ht _, rfl⟩⟩)
    · exact .inl (hwaiting u s awaits' hut hu)

/-! ## Asking for the modules that a task in hand depends on -/

theorem slots_of_waiting (h : Tied root (g.inHand t s awaits) g) (hflight : g.InFlight s t)
    {u : Nat} {s' : String} {awaits' : List Await} (hu : g.inHand t s awaits u s' awaits') :
    ∃ v, g.slots[s']? = some (.pending v) := by
  by_cases hut : u = t
  · subst hut
    obtain ⟨rfl, -⟩ := inHand_self.mp hu
    exact ⟨u, h.assigned.pending hflight⟩
  · obtain ⟨task, analysis, ht, rfl, hprogress, -⟩ := (inHand_of_ne hut).mp hu
    have hnot : ∀ o, task.progress ≠ .done o := fun o ho => nomatch hprogress.symm.trans ho
    exact ⟨u, h.assigned.pending (h.inFlight ht hnot)⟩

/-- An unknown module waits for nobody, so that a wait for it is always made. -/
theorem reaches_of_unknown (h : Tied root (g.inHand t s awaits) g) (hflight : g.InFlight s t)
    {child : String} (hslot : g.slots[child]? = none) : g.reaches child s = false := by
  by_contra hreaches
  rcases ((reaches_iff g child s).mp (Bool.not_eq_false _ ▸ hreaches)).cases_head with rfl | hhead
  · exact nomatch hslot.symm.trans (h.assigned.pending hflight)
  · obtain ⟨target, hw, -⟩ := hhead
    obtain ⟨u, awaits', hu, -⟩ := h.waits _ hw
    obtain ⟨v, hv⟩ := slots_of_waiting h hflight hu
    exact nomatch hslot.symm.trans hv

theorem declared_addWait (g : Graph) (w : Wait) : (g.addWait w).declared = g.declared := by
  unfold addWait
  split <;> rfl

theorem Tied.declare (h : Tied root (g.inHand t s awaits) g) (names : List String) :
    Tied root (Graph.inHand { g with declared := g.declared.insert s names } t s awaits)
      { g with declared := g.declared.insert s names } := by
  refine ⟨h.assigned.of_eq rfl rfl, h.earlier, h.slotted, h.waits, fun s' hs => ?_, h.heeded⟩
  by_cases heq : s = s'
  · subst heq
    exact ⟨t, awaits, inHand_self.mpr ⟨rfl, rfl⟩⟩
  · have hother : (g.declared.insert s names)[s']? = g.declared[s']? :=
      (Table.getElem?_insert ..).trans (if_neg heq)
    exact h.declared s' (hother ▸ hs)

/-- More is asked for on behalf of a task in hand: each new task and each new wait are its own. -/
theorem Tied.ask (h : Tied root (g.inHand t s awaits) g) (hflight : g.InFlight s t)
    (hroot : root ≤ t) {more : List Await} (hasks : AsksFor g g')
    (hdeclared : g'.declared = g.declared)
    (hnew : ∀ (u : Nat) (task : Task), g'.tasks[u]? = some task → g.tasks[u]? = some task ∨
      g.tasks[u]? = none ∧ task.isInline = false ∧ ∃ a ∈ more, a.task = u)
    (hwaits : ∀ w ∈ g'.waits, w ∈ g.waits ∨ w.waiter = s ∧ ∃ a ∈ more, a.target = w.target) :
    Tied root (g'.inHand t s (awaits ++ more)) g' := by
  obtain ⟨own, hown, -⟩ := hflight
  have hlt : ∀ u, g.tasks[u]? = none → t < u := fun u hu =>
    Nat.lt_of_lt_of_le (Array.getElem?_eq_some_iff.mp hown).1 (Array.getElem?_eq_none_iff.mp hu)
  -- whoever waited still does, and the task in hand waits for more
  have hinHand : ∀ u s' awaits', g.inHand t s awaits u s' awaits' →
      ∃ awaits'', g'.inHand t s (awaits ++ more) u s' awaits'' ∧ ∀ a ∈ awaits', a ∈ awaits'' := by
    intro u s' awaits' hu
    by_cases hut : u = t
    · subst hut
      obtain ⟨rfl, rfl⟩ := inHand_self.mp hu
      exact ⟨_, inHand_self.mpr ⟨rfl, rfl⟩, fun a ha => List.mem_append_left _ ha⟩
    · exact ⟨awaits', (inHand_of_ne hut).mpr (((inHand_of_ne hut).mp hu).keeps (hasks.keeps u)),
        fun a ha => ha⟩
  have hhand : g'.inHand t s (awaits ++ more) t s (awaits ++ more) :=
    inHand_self.mpr ⟨rfl, rfl⟩
  refine ⟨hasks.assigned h.assigned, fun u task ht hu => ?_, fun u task ht hu => ?_,
    fun w hw => ?_, fun s' hs => ?_, fun u task ht hu hbad => ?_⟩
  · rcases hnew u task ht with ht | ⟨hnone, -⟩
    · exact h.earlier u task ht hu
    · exact absurd (hlt u hnone) (Nat.not_lt_of_le (Nat.le_trans (Nat.le_of_lt hu) hroot))
  · rcases hnew u task ht with ht | ⟨-, hinline, -⟩
    · exact h.slotted u task ht hu
    · exact hinline
  · rcases hwaits w hw with hw | ⟨rfl, a, ha, htarget⟩
    · obtain ⟨u, awaits', hu, a, ha, htarget⟩ := h.waits w hw
      obtain ⟨awaits'', hu', hsub⟩ := hinHand u _ awaits' hu
      exact ⟨u, awaits'', hu', a, hsub a ha, htarget⟩
    · exact ⟨t, _, hhand, a, List.mem_append_right _ ha, htarget⟩
  · obtain ⟨u, awaits', hu⟩ := h.declared s' (hdeclared ▸ hs)
    obtain ⟨awaits'', hu', -⟩ := hinHand u _ awaits' hu
    exact ⟨u, awaits'', hu'⟩
  · rcases hnew u task ht with ht | ⟨hnone, -, a, ha, rfl⟩
    · obtain ⟨v, hv, hvu, hheeded⟩ := h.heeded u task ht hu hbad
      refine ⟨v, hv, hvu, ?_⟩
      rcases hheeded with ⟨s', awaits', hwaiting, a, ha, htask⟩ | ⟨e, he⟩
      · obtain ⟨awaits'', hv', hsub⟩ := hinHand v _ awaits' hwaiting
        exact .inl ⟨s', awaits'', hv', a, hsub a ha, htask⟩
      · exact .inr ⟨e, (hasks.keeps v).outcome? he⟩
    · exact ⟨t, hroot, hlt _ hnone, .inl ⟨s, _, hhand, a, List.mem_append_right _ ha, rfl⟩⟩

theorem Tied.ensure (h : Tied root (g.inHand t s awaits) g) (hflight : g.InFlight s t)
    (hroot : root ≤ t) (child : String) (request : Url) :
    Tied root ((g.ensure child request (some s)).2.inHand t s
      (awaits ++ (g.ensure child request (some s)).1.toList))
      (g.ensure child request (some s)).2 := by
  have hasks := AsksFor.ensure g child request (some s)
  cases hslot : g.slots[child]? with
  | none =>
    have htaskFor : g.taskFor child request = (some g.tasks.size,
        { (g.newTask ⟨child, request, false, .idle⟩).2 with
          slots := g.slots.insert child (.pending g.tasks.size) }) := by
      unfold taskFor
      rw [hslot]
      rfl
    have hreaches := reaches_of_unknown h hflight hslot
    have hensure : g.ensure child request (some s) = (some ⟨g.tasks.size, child⟩,
        (g.taskFor child request).2.addWait ⟨s, child⟩) := by
      unfold Graph.ensure
      rw [htaskFor]
      exact if_neg (Bool.eq_false_iff.mp hreaches)
    rw [hensure] at hasks ⊢
    refine h.ask hflight hroot hasks ?_ (fun u task ht => ?_) fun w hw => ?_
    · rw [declared_addWait, declared_taskFor]
    · rw [tasks_addWait, tasks_taskFor, hslot] at ht
      have hpush : (g.tasks.push ⟨child, request, false, .idle⟩)[u]? = some task := ht
      rw [Array.getElem?_push] at hpush
      split at hpush
      · rename_i heq
        subst heq
        cases hpush
        exact .inr ⟨Array.getElem?_eq_none_iff.mpr (Nat.le_refl _), rfl, _,
          List.mem_singleton_self _, rfl⟩
      · exact .inl hpush
    · rcases mem_addWait hw with hw | rfl
      · exact .inl (waits_taskFor g child request ▸ hw)
      · exact .inr ⟨rfl, _, List.mem_singleton_self _, rfl⟩
  | some slot =>
    have hnothing : Tied root (g.inHand t s (awaits ++ [])) g :=
      h.ask hflight hroot (.refl g) rfl (fun _ _ ht => .inl ht) fun _ hw => .inl hw
    cases slot with
    | pending v =>
      have hensure : g.ensure child request (some s) =
          if g.reaches child s then (none, g) else (some ⟨v, child⟩, g.addWait ⟨s, child⟩) := by
        unfold Graph.ensure taskFor
        rw [hslot]
      rw [hensure] at hasks ⊢
      split at hasks
      · rename_i hreaches
        rw [if_pos hreaches]
        exact hnothing
      · rename_i hreaches
        rw [if_neg hreaches]
        refine h.ask hflight hroot hasks (declared_addWait _ _)
          (fun u task ht => .inl (tasks_addWait g _ ▸ ht)) fun w hw => ?_
        rcases mem_addWait hw with hw | rfl
        · exact .inl hw
        · exact .inr ⟨rfl, _, List.mem_singleton_self _, rfl⟩
    | _ =>
      have hensure : g.ensure child request (some s) = (none, g) := by
        unfold Graph.ensure taskFor
        rw [hslot]
      rw [hensure]
      exact hnothing

/-- The tasks that are waited for once a module was asked for, perhaps not to the end. -/
def awaitsAfter : Except (LoadError × Children) Children → List Await
  | .ok children => children.awaits
  | .error (_, children) => children.awaits

theorem Tied.askForAll (children : Children) (h : Tied root (g.inHand t s children.awaits) g)
    (hflight : g.InFlight s t) (hroot : root ≤ t) (realUrl : Url) (specifiers : List String) :
    Tied root ((askForAll s realUrl specifiers children g).2.inHand t s
      (awaitsAfter (askForAll s realUrl specifiers children g).1))
      (askForAll s realUrl specifiers children g).2 := by
  induction specifiers generalizing children g with
  | nil => exact h
  | cons specifier specifiers ih =>
    unfold Graph.askForAll
    split
    · rename_i child request _ _
      have hensure := h.ensure hflight hroot child.text request
      exact ih ⟨_, _⟩ hensure (hflight.keeps (keeps_ensure child.text request (some s)))
    · exact h
    · exact h

/-! ## Steps -/

/-- The waits of some tasks are removed. -/
theorem removeWaits_eq (g : Graph) (storeId : String) (awaits : List Await) :
    awaits.foldl (fun g a => g.removeWait ⟨storeId, a.target⟩) g =
      { g with waits := g.waits.filter fun w =>
        awaits.all fun a => w ≠ ⟨storeId, a.target⟩ } := by
  induction awaits generalizing g with
  | nil => simp
  | cons a awaits ih =>
    rw [List.foldl_cons, ih]
    simp only [removeWait, List.filter_filter, List.all_cons, Bool.and_comm]

/-- A task in hand is given up, and with it all its waits. -/
theorem Tied.abandon (h : Tied root (g.inHand t task.storeId awaits) g)
    (ht : g.tasks[t]? = some task) (hnot : ∀ o, task.progress ≠ .done o) (e : LoadError) :
    Loads root (g.abandon t task.storeId awaits e) := by
  unfold Graph.abandon
  rw [removeWaits_eq]
  have hremoved : ∀ left : List Wait, (∀ w ∈ left, w ∈ g.waits) →
      Tied root (Graph.inHand { g with waits := left } t task.storeId awaits)
        { g with waits := left } := fun left hleft =>
    ⟨h.assigned.of_eq rfl rfl, h.earlier, h.slotted, fun w hw => h.waits w (hleft w hw),
      h.declared, h.heeded⟩
  refine (hremoved _ fun w hw => List.mem_of_mem_filter hw).finish ht hnot
    (fun w hw hwaiter a ha htarget => ?_) (.inr ⟨e, rfl⟩)
  have hother := List.all_eq_true.mp (List.mem_filter.mp hw).2 a ha
  exact of_decide_eq_true hother (by rw [← hwaiter, htarget])

/-- A task in hand takes down that one it waits for was successful. -/
theorem Tied.arrive (h : Tied root (g.inHand t s awaits) g) {a : Await} {c : Option Compiled}
    (ho : g.outcome? a.task = some (.ok c)) :
    Tied root ((g.removeWait ⟨s, a.target⟩).inHand t s (awaits.erase a))
      (g.removeWait ⟨s, a.target⟩) := by
  refine ⟨h.assigned.of_eq rfl rfl, h.earlier, h.slotted, fun w hw => ?_, fun s' hs => ?_,
    fun u task ht hu hbad => ?_⟩
  · obtain ⟨hw, hne⟩ := List.mem_filter.mp hw
    obtain ⟨u, awaits', hu, b, hb, htarget⟩ := h.waits w hw
    by_cases hut : u = t
    · subst hut
      obtain ⟨hwaiter, rfl⟩ := inHand_self.mp hu
      have hba : b ≠ a := by
        intro heq
        subst heq
        exact of_decide_eq_true hne (by rw [← hwaiter, htarget])
      exact ⟨u, _, inHand_self.mpr ⟨hwaiter, rfl⟩, b, (List.mem_erase_of_ne hba).mpr hb, htarget⟩
    · exact ⟨u, awaits', (inHand_of_ne hut).mpr ((inHand_of_ne hut).mp hu), b, hb, htarget⟩
  · obtain ⟨u, awaits', hu⟩ := h.declared s' hs
    by_cases hut : u = t
    · subst hut
      exact ⟨u, _, inHand_self.mpr ⟨(inHand_self.mp hu).1, rfl⟩⟩
    · exact ⟨u, awaits', (inHand_of_ne hut).mpr ((inHand_of_ne hut).mp hu)⟩
  · obtain ⟨v, hv, hvu, hheeded⟩ := h.heeded u task ht hu hbad
    refine ⟨v, hv, hvu, hheeded.imp_left fun hwaits => ?_⟩
    obtain ⟨s', awaits', hwaiting, b, hb, rfl⟩ := hwaits
    by_cases hvt : v = t
    · subst hvt
      obtain ⟨rfl, rfl⟩ := inHand_self.mp hwaiting
      have hba : b ≠ a := by
        intro heq
        subst heq
        obtain ⟨task', ht', hdone⟩ := outcome?_eq_some.mp ho
        obtain rfl : task = task' := Option.some.inj (ht.symm.trans ht')
        exact hbad c hdone
      exact ⟨s', _, inHand_self.mpr ⟨rfl, rfl⟩, b, (List.mem_erase_of_ne hba).mpr hb, rfl⟩
    · exact ⟨s', awaits', (inHand_of_ne hvt).mpr ((inHand_of_ne hvt).mp hwaiting), b, hb, rfl⟩

/-- A task that waits for nobody ends. -/
theorem Loads.finish (h : Loads root g) (ht : g.tasks[t]? = some task)
    (hnot : ∀ o, task.progress ≠ .done o)
    (hawaits : ∀ analysis, task.progress = .waiting analysis → analysis.awaits = [])
    (outcome : Outcome) : Loads root (g.finish t outcome) :=
  Tied.finish (h.inHand ht hawaits) ht hnot (fun _ _ _ _ ha => nomatch ha) (.inl rfl)

theorem awaits_of_waiting {p : Progress} {analysis : Analysis} (h : p = .waiting analysis) :
    ∀ a, p = .waiting a → a.awaits = analysis.awaits :=
  fun a ha => by rw [Progress.waiting.inj (h.symm.trans ha)]

theorem Loads.analyse (h : Loads root g) (ht : g.tasks[t]? = some task)
    (hnot : ∀ o, task.progress ≠ .done o) (hwaits : ∀ analysis, task.progress ≠ .waiting analysis)
    (r : Response) : Loads root (g.analyse t task.storeId r) := by
  unfold Graph.analyse
  split
  · exact h.finish ht hnot (fun analysis hp => absurd hp (hwaits analysis)) _
  · rename_i m _
    have hhand : Tied root (g.inHand t task.storeId []) g :=
      h.inHand ht fun analysis hp => absurd hp (hwaits analysis)
    have hstart : ∃ g₀ : Graph, g₀ = (if hasStars m.interface then g
          else { g with declared := g.declared.insert task.storeId m.interface.declared }) ∧
        Tied root (g₀.inHand t task.storeId []) g₀ ∧ g₀.tasks[t]? = some task := by
      split
      · exact ⟨g, rfl, hhand, ht⟩
      · exact ⟨_, rfl, hhand.declare _, ht⟩
    obtain ⟨g₀, hg₀, hhand, ht₀⟩ := hstart
    have hask := hhand.askForAll ⟨[], []⟩ (hhand.inFlight ht₀ hnot) (h.root_le ht hnot) r.finalUrl
      m.interface.dependencies
    have hkeeps := keeps_askForAll task.storeId r.finalUrl m.interface.dependencies ⟨[], []⟩ task
      ht₀
    dsimp only
    rw [← hg₀]
    split
    all_goals
      rename_i heq
      rw [heq] at hask hkeeps
    · exact hask.setWaiting hkeeps hnot rfl
    · exact hask.abandon hkeeps hnot _

theorem TaskStep.loads (hs : TaskStep site g g') (h : Loads root g) : Loads root g' := by
  cases hs.acts with
  | nothing => exact h
  | request ht hidle =>
    have hcounted : Loads root { g with requests := g.requests + 1 } :=
      ⟨h.assigned.of_eq rfl rfl, h.earlier, h.slotted, h.waits, h.declared, h.heeded⟩
    exact hcounted.setFetching ht (hidle ▸ nofun) (hidle ▸ nofun) _ _
  | nearer ht hprogress => exact h.setFetching ht (hprogress ▸ nofun) (hprogress ▸ nofun) _ _
  | finish ht hnot hawaits => exact h.finish ht hnot hawaits _
  | analyse ht hprogress => exact h.analyse ht (hprogress ▸ nofun) (hprogress ▸ nofun) _
  | arrive ht hprogress ho =>
    exact (Tied.arrive (h.inHand ht (awaits_of_waiting hprogress)) ho).setWaiting ht
      (hprogress ▸ nofun) rfl
  | giveUp ht hprogress =>
    exact (h.inHand ht (awaits_of_waiting hprogress)).abandon ht (hprogress ▸ nofun) _

theorem TaskSteps.loads (hs : TaskSteps site g g') (h : Loads root g) : Loads root g' := by
  induction hs with
  | refl => exact h
  | tail _ hstep ih => exact hstep.loads ih

end EsModule.Loader.Graph
