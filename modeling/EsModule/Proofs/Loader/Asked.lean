import EsModule.Proofs.Loader.Underway

/-!
# What a module depends on is settled before it runs

A call runs its module when nothing is pending any more that the module depends on, through others
too (`World.advance_settled`). A module is compiled only after all modules were asked for that it
names (`HasAsked`), and what was asked for becomes unknown again only if its task fails. So if no
task has failed, everything that the module depends on is compiled or absent by then
(`settled_of_pendingFrom`).
-/

namespace EsModule.Loader

open EsModule.Compile Relation

namespace Graph

variable {site : Site} {g g' : Graph} {t : Nat} {task : Task} {s : String}

/-! ## What was asked for -/

/-- Something is known of every module that was asked for: of those that the module of a task which
waits depends on, and of those that compiled modules depend on. -/
structure HasAsked (g : Graph) : Prop where
  waiting : ∀ (t : Nat) (task : Task) (analysis : Analysis), g.tasks[t]? = some task →
    task.progress = .waiting analysis → ∀ s ∈ analysis.dependencies, g.slots[s]? ≠ none
  edges : ∀ s s', g.Depends s s' → g.slots[s']? ≠ none

/-- Nothing becomes unknown unless a task fails. -/
theorem Turn.known (h : g.Turn g') (hassigned : g.Assigned)
    (hgood : ∀ t e, g'.outcome? t ≠ some (.error e)) (hs : g.slots[s]? ≠ none) :
    g'.slots[s]? ≠ none := by
  cases h.effect.moves hassigned s with
  | stays heq => rwa [heq]
  | asked _ heq => exact heq ▸ nofun
  | preloaded _ heq => exact heq ▸ nofun
  | compiled _ heq => exact heq ▸ nofun
  | missing _ heq => exact heq ▸ nofun
  | failed _ _ ho => exact absurd ho (hgood _ _)

theorem slots_ensure_known (g : Graph) (storeId : String) (request : Url)
    (waiter : Option String) : (g.ensure storeId request waiter).2.slots[storeId]? ≠ none := by
  rw [slots_ensure, slots_taskFor]
  split
  · exact nofun
  · rename_i hknown
    exact fun hnone => hknown ⟨rfl, hnone⟩

theorem askForAll_known {storeId : String} {realUrl : Url} {specifiers : List String}
    {children children' : Children}
    (hchildren : ∀ s ∈ children.dependencies, g.slots[s]? ≠ none)
    (h : askForAll storeId realUrl specifiers children g = (.ok children', g')) :
    ∀ s ∈ children'.dependencies, g'.slots[s]? ≠ none := by
  induction specifiers generalizing children g with
  | nil =>
    cases h
    exact hchildren
  | cons specifier specifiers ih =>
    unfold askForAll at h
    split at h
    · rename_i child request _ _
      refine ih (fun s hs => ?_) h
      rcases List.mem_append.mp hs with hs | hs
      · rcases (AsksFor.ensure g child.text request (some storeId)).slots s with heq | ⟨hnone, -⟩
        · exact heq ▸ hchildren s hs
        · exact absurd hnone (hchildren s hs)
      · exact List.mem_singleton.mp hs ▸ slots_ensure_known _ _ _ _
    · cases h
    · cases h

theorem HasAsked.update (h : g.HasAsked)
    (hknown : ∀ s : String, g.slots[s]? ≠ none → g'.slots[s]? ≠ none)
    (hwaiting : ∀ (u : Nat) (task : Task) (analysis : Analysis), g'.tasks[u]? = some task →
      task.progress = .waiting analysis → g.tasks[u]? = some task ∨
        ∀ s ∈ analysis.dependencies, g'.slots[s]? ≠ none)
    (hedges : ∀ s s', g'.Depends s s' → g.Depends s s' ∨ g'.slots[s']? ≠ none) : g'.HasAsked where
  waiting u task analysis hu hprogress s hs := by
    rcases hwaiting u task analysis hu hprogress with hbefore | hnew
    · exact hknown s (h.waiting u task analysis hbefore hprogress s hs)
    · exact hnew s hs
  edges s s' hdep := (hedges s s' hdep).elim (fun hbefore => hknown s' (h.edges s s' hbefore)) id

theorem edges_askForAll (g : Graph) (storeId : String) (realUrl : Url) (specifiers : List String)
    (children : Children) : (askForAll storeId realUrl specifiers children g).2.edges = g.edges := by
  induction specifiers generalizing children g with
  | nil => rfl
  | cons specifier specifiers ih =>
    unfold askForAll
    split
    · exact (ih _ _).trans (edges_ensure g _ _ _).1
    · rfl
    · rfl

theorem outcome?_abandon (ht : g.tasks[t]? = some task) (storeId : String) (awaits : List Await)
    (e : LoadError) : (g.abandon t storeId awaits e).outcome? t = some (.error e) := by
  have hself : (g.abandon t storeId awaits e).tasks[t]? =
      some { task with progress := .done (.error e) } := by
    rw [tasks_abandon, if_pos rfl, ht]
    rfl
  exact outcome?_eq_some.mpr ⟨_, hself, rfl⟩

/-- A task that takes its text has asked for all that its module depends on, unless it fails. -/
theorem analyse_known (ht : g.tasks[t]? = some task) (r : Response) :
    (∃ e, (g.analyse t task.storeId r).outcome? t = some (.error e)) ∨
      (g.analyse t task.storeId r).edges = g.edges ∧
        ∀ (task' : Task) (analysis : Analysis),
          (g.analyse t task.storeId r).tasks[t]? = some task' →
          task'.progress = .waiting analysis → ∀ s ∈ analysis.dependencies,
            (g.analyse t task.storeId r).slots[s]? ≠ none := by
  unfold analyse
  split
  · rename_i e _
    exact .inl ⟨_, outcome?_eq_some.mpr ⟨_, tasks_finish_self ht _, rfl⟩⟩
  · rename_i m hm
    dsimp only
    generalize hg₁ : (if hasStars m.interface then g
      else { g with declared := g.declared.insert task.storeId m.interface.declared }) = g₁
    have hsame : g₁.tasks = g.tasks ∧ g₁.edges = g.edges := by
      subst hg₁
      split <;> exact ⟨rfl, rfl⟩
    have hkept := keeps_askForAll task.storeId r.finalUrl m.interface.dependencies ⟨[], []⟩ task
      (hsame.1.symm ▸ ht)
    have hedges := edges_askForAll g₁ task.storeId r.finalUrl m.interface.dependencies ⟨[], []⟩
    split
    all_goals
      rename_i heq
      rw [heq] at hkept hedges
    · refine .inr ⟨hedges.trans hsame.2, fun task' analysis hu hwaiting => ?_⟩
      cases (tasks_setProgress_self hkept _).symm.trans hu
      cases hwaiting
      -- the graph is the one that asking gave, up to the stage of the task
      have hasked := askForAll_known (fun s hs => absurd hs List.not_mem_nil) heq
      exact hasked
    · exact .inl ⟨_, outcome?_abandon hkept _ _ _⟩

theorem TaskStep.hasAsked (hs : TaskStep site g g') (hassigned : g.Assigned)
    (hgood : ∀ t e, g'.outcome? t ≠ some (.error e)) (h : g.HasAsked) : g'.HasAsked := by
  have hknown := fun (s : String) => (Turn.task hs).known (s := s) hassigned hgood
  -- a task takes the step: those that wait besides it did so before
  have hact : ∀ {t : Nat} {task : Task}, Spares t task.storeId g g' →
      (∀ (task' : Task) (analysis : Analysis), g'.tasks[t]? = some task' →
        task'.progress = .waiting analysis → ∀ s ∈ analysis.dependencies, g'.slots[s]? ≠ none) →
      (∀ s s', g'.Depends s s' → g.Depends s s' ∨ g'.slots[s']? ≠ none) → g'.HasAsked := by
    intro t task hspares hown hedges
    refine h.update hknown (fun u task' analysis hu hwaiting => ?_) hedges
    by_cases hut : u = t
    · exact .inr (hown task' analysis (hut ▸ hu) hwaiting)
    · exact .inl (hspares.waiting u task' analysis hut hu hwaiting)
  cases hs.acts with
  | nothing => exact h
  | @request t task delay answer ht hprogress =>
    let counted : Graph := { g with requests := g.requests + 1 }
    have hcounted : Spares t task.storeId g counted := .of_eq rfl rfl rfl
    refine hact (hcounted.trans (.setProgress counted t _ (.fetching delay answer)))
      (fun task' analysis hu hwaiting => ?_) fun _ _ => .inl
    exact nomatch (progress_of_setProgress (g := counted) hu).symm.trans hwaiting
  | @nearer t task delay answer ht hprogress =>
    refine hact (.setProgress g t task.storeId _) (fun task' analysis hu hwaiting => ?_)
      fun _ _ => .inl
    exact nomatch (progress_of_setProgress hu).symm.trans hwaiting
  | @finish t task outcome ht hnot _ _ hasked =>
    refine hact (.finish ht outcome) (fun task' analysis hu hwaiting => ?_) fun s s' hdep => ?_
    · exact nomatch (progress_of_finish hu).symm.trans hwaiting
    · unfold Depends edgesOf at hdep ⊢
      rcases edges_finish ht outcome s with heq | ⟨-, hnone | ⟨c, hc, heq⟩⟩
      · exact .inl (heq ▸ hdep)
      · rw [hnone] at hdep
        cases hdep
      · -- the edges of the compiled module lead to what its task has asked for
        rw [heq] at hdep
        obtain ⟨analysis, hwaiting, hsame⟩ := hasked c hc
        exact .inr (hknown s' (h.waiting t task analysis ht hwaiting s' (hsame ▸ hdep)))
  | @analyse t task r ht hprogress =>
    rcases analyse_known ht r with ⟨e, he⟩ | ⟨hedges, hown⟩
    · exact absurd he (hgood t e)
    · refine hact (analyse_marks ht r).1 hown fun s s' hdep => .inl ?_
      rwa [Depends, edgesOf, hedges] at hdep
  | @arrive t task analysis a c ht hprogress ho hmem =>
    refine hact ((Spares.removeWait g t task.storeId _).trans (.setProgress _ t _ _))
      (fun task' analysis' hu hwaiting s hs => ?_) fun _ _ => .inl
    cases (progress_of_setProgress hu).symm.trans hwaiting
    exact hknown s (h.waiting t task analysis ht hprogress s hs)
  | @giveUp t task analysis e ht hprogress =>
    exact absurd (outcome?_abandon ht _ _ _) (hgood t e)

theorem Turn.hasAsked (hs : g.Turn g') (hassigned : g.Assigned)
    (hgood : ∀ t e, g'.outcome? t ≠ some (.error e)) (h : g.HasAsked) : g'.HasAsked := by
  have hknown := fun (s : String) => hs.known (s := s) hassigned hgood
  cases hs with
  | task hs => exact hs.hasAsked hassigned hgood h
  | ensure storeId request waiter =>
    refine h.update hknown (fun _ _ _ hu hwaiting => .inl (waiting_ensure hu hwaiting))
      fun s s' hdep => .inl ?_
    rwa [Depends, edgesOf, (edges_ensure g storeId request waiter).1] at hdep
  | provide storeId served code =>
    exact h.update hknown (fun _ _ _ hu hwaiting => .inl (waiting_provide hu hwaiting))
      fun _ _ => .inl
  | preload resource =>
    have hedges : (g.preload resource).2.edges = g.edges := by
      unfold Graph.preload
      split <;> rfl
    refine h.update hknown (fun _ _ _ hu _ => .inl (tasks_preload g resource ▸ hu))
      fun s s' hdep => .inl ?_
    rwa [Depends, edgesOf, hedges] at hdep
  | drop => exact h.update hknown (fun _ _ _ hu _ => .inl hu) fun _ _ => .inl

/-- As long as no task has failed, something is known of all modules that were asked for. -/
theorem Turns.hasAsked (h : Turns .empty g) (hgood : ∀ t e, g.outcome? t ≠ some (.error e)) :
    g.HasAsked := by
  induction h with
  | refl =>
    refine ⟨fun _ _ _ ht => (nomatch ht), fun s s' hdep => ?_⟩
    rw [Depends, edgesOf, empty, Std.TreeMap.getElem?_emptyc] at hdep
    cases hdep
  | tail hs hstep ih =>
    have hassigned := (Turns.awaitsNamed hs assigned_empty fun _ _ _ ht => nomatch ht).1
    exact hstep.hasAsked hassigned hgood (ih fun t e ho => hgood t e (hstep.outcome? ho))

/-- When there is no task left that is not done of what some modules depend on, none of that is
pending. -/
theorem not_pending_of_pendingFrom {roots : List String} (hnil : g.pendingFrom roots = [])
    {root : String} (hroot : root ∈ roots) (hdep : ReflTransGen g.Depends root s) (t : Nat) :
    g.slots[s]? ≠ some (.pending t) := by
  intro hpending
  obtain ⟨ids, -, hids, htasks⟩ := g.pendingFrom_spec roots
  rw [hnil] at htasks
  cases htasks
  exact List.not_mem_nil ((hids s).mpr ⟨⟨t, hpending⟩, root, hroot, hdep⟩)

/-- When nothing is pending that some modules depend on, all of it is compiled or absent, if
something is known of these modules and no task has failed. -/
theorem settled_of_pendingFrom (h : Turns .empty g)
    (hgood : ∀ t e, g.outcome? t ≠ some (.error e)) {roots : List String}
    (hroots : ∀ root ∈ roots, g.slots[root]? ≠ none) (hnil : g.pendingFrom roots = [])
    {root : String} (hroot : root ∈ roots) (hdep : ReflTransGen g.Depends root s) :
    g.slots[s]? = some .absent ∨ ∃ resource, g.slots[s]? = some (.ready resource) := by
  have hknown : g.slots[s]? ≠ none := by
    rcases ReflTransGen.cases_tail hdep with rfl | ⟨s', -, hlast⟩
    · exact hroots s hroot
    · exact (h.hasAsked hgood).edges s' s hlast
  cases hslot : g.slots[s]? with
  | none => exact absurd hslot hknown
  | some slot =>
    cases slot with
    | pending t => exact absurd hslot (not_pending_of_pendingFrom hnil hroot hdep t)
    | ready resource => exact .inr ⟨resource, rfl⟩
    | absent => exact .inl rfl

end Graph

/-! ## Calls -/

/-- A call that waits for what some modules depend on starts no body as long as any of it is
pending. -/
theorem World.advance_settled {w : World} {depth : Nat} {tasks : List Nat} {roots : List String} {target : Target}
    (hruns : (w.advance depth (.settling tasks roots target)).2.runs ≠ w.runs) {root s : String}
    (hroot : root ∈ roots)
    (hdep : ReflTransGen (w.advance depth (.settling tasks roots target)).2.graph.Depends root s)
    (t : Nat) :
    (w.advance depth (.settling tasks roots target)).2.graph.slots[s]? ≠ some (.pending t) := by
  refine Graph.not_pending_of_pendingFrom ?_ hroot hdep t
  clear hdep
  have hask : (w.askAll depth tasks).2.runs = w.runs := rfl
  unfold advance at hruns ⊢
  dsimp only at hruns ⊢
  split at hruns
  all_goals
    rename_i heq
    rw [heq] at hask
  · exact absurd hask hruns
  · exact absurd hask hruns
  · split at hruns
    · rename_i hnil
      dsimp only
      rw [graph_runTarget]
      exact hnil
    · exact absurd hask hruns

end EsModule.Loader
