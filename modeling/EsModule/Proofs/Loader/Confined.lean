import EsModule.Proofs.Loader.Awaits
import EsModule.Proofs.Loader.LifeCycle
import EsModule.Proofs.Loader.Tied

/-!
# What compiling some text has to do with

The *static graph* of a text is what compiling it may come upon: the modules that the text names,
those that their texts name, and so on (`StaticGraph`). A module that is compiled already leads on
to what it depends on, and one that is being compiled to what its task still does. While the text is
compiled, nothing else is touched (`Confined`): asking for the outcome of a task in the static graph
asks only for modules in the static graph (`Confined.ask`), and so does the search for tasks that
are not done (`Confined.pendingFrom`). So if the store id of the text itself is not in its static
graph, then what is known of that store id stays as it is.
-/

namespace EsModule.Loader

open EsModule.Compile EsModule.Scope Relation

namespace Graph

variable {site : Site} {g g' : Graph} {t : Nat} {task : Task}

/-! ## Static graphs -/

/-- Something that belongs to the static graph of a text. -/
inductive Part where
  /-- A module. -/
  | module (storeId : String)
  /-- A request for the text of a module. -/
  | request (storeId : String) (url : Url)
  /-- A text that is compiled as the module of a store id. -/
  | text (storeId : String) (r : Response)

/-- A store id that is neither compiled nor absent. -/
def Unsettled (g : Graph) (storeId : String) : Prop :=
  ∀ slot, g.slots[storeId]? = some slot → ∃ t, slot = .pending t

/-- The static graph of a text that is compiled as the module of a store id, where a graph holds
what is compiled or being compiled already. -/
inductive StaticGraph (site : Site) (g : Graph) (storeId : String) (r : Response) :
    Part → Prop where
  | text : StaticGraph site g storeId r (.text storeId r)
  /-- What a text names is requested relative to where the text was served. -/
  | names {a : String} {r' : Response} {m : Module} {specifier : String} {child url : Url}
    (h : StaticGraph site g storeId r (.text a r')) (hm : Module.ofSource r'.body a = .ok m)
    (hmem : specifier ∈ m.interface.dependencies) (hchild : resolve a specifier = .ok child)
    (hurl : r'.finalUrl.join specifier = .ok url) :
    StaticGraph site g storeId r (.request child.text url)
  | requested {a : String} {url : Url} (h : StaticGraph site g storeId r (.request a url)) :
    StaticGraph site g storeId r (.module a)
  /-- The answer to a request is compiled, unless the module is compiled or absent. -/
  | served {a : String} {url : Url} {r' : Response}
    (h : StaticGraph site g storeId r (.request a url)) (hnew : g.Unsettled a)
    (hallowed : site.config.allows url.scheme = true) (hr : site.fetcher.retrieve url = .ok r')
    (hsuccess : r'.isSuccess = true) : StaticGraph site g storeId r (.text a r')
  /-- A compiled module leads to those that it depends on. -/
  | compiled {a b : String} (h : StaticGraph site g storeId r (.module a))
    (hmem : b ∈ g.edgesOf a) : StaticGraph site g storeId r (.module b)
  /-- The task of a module may have its request still to make. -/
  | idle {a : String} {t : Nat} {task : Task} (h : StaticGraph site g storeId r (.module a))
    (hslot : g.slots[a]? = some (.pending t)) (ht : g.tasks[t]? = some task)
    (hprogress : task.progress = .idle) : StaticGraph site g storeId r (.request a task.request)
  /-- It may have an answer that is not received yet. -/
  | fetching {a : String} {t : Nat} {task : Task} {delay : Nat} {r' : Response}
    (h : StaticGraph site g storeId r (.module a)) (hslot : g.slots[a]? = some (.pending t))
    (ht : g.tasks[t]? = some task) (hprogress : task.progress = .fetching delay (.ok r'))
    (hsuccess : r'.isSuccess = true) : StaticGraph site g storeId r (.text a r')
  /-- Or it waits for modules. -/
  | waiting {a b : String} {t : Nat} {task : Task} {analysis : Analysis}
    (h : StaticGraph site g storeId r (.module a)) (hslot : g.slots[a]? = some (.pending t))
    (ht : g.tasks[t]? = some task) (hprogress : task.progress = .waiting analysis)
    (hmem : b ∈ analysis.dependencies) : StaticGraph site g storeId r (.module b)

/-! ## The invariant -/

section

variable (site : Site) (g₀ : Graph) (s : String) (r : Response)

/-- A task compiles a module of the static graph, or it compiles the text itself. That one is the
first task that is made. -/
def Plays (t : Nat) (task : Task) : Prop :=
  t = g₀.tasks.size ∨
    task.isInline = false ∧ StaticGraph site g₀ s r (.module task.storeId)

/-- A task that is there compiles a module of the static graph, or the text itself. -/
def InPlay (g : Graph) (t : Nat) : Prop :=
  ∃ task, g.tasks[t]? = some task ∧ Plays site g₀ s r t task

/-- A compiled module is that of a store id, and it depends on modules of the static graph. -/
def OutcomeInside (storeId : String) (outcome : Outcome) : Prop :=
  ∀ c, outcome = .ok (some c) → c.resource.storeId = storeId ∧
    ∀ b ∈ c.dependencies, StaticGraph site g₀ s r (.module b)

/-- What a task still does stays inside the static graph. There is a text for the one that compiles
the text itself. -/
def StageInside (task : Task) : Progress → Prop
  | .idle => ∀ r', site.config.allows task.request.scheme = true →
      site.fetcher.retrieve task.request = .ok r' → r'.isSuccess = true →
      StaticGraph site g₀ s r (.text task.storeId r')
  | .fetching _ answer => (∀ r', answer = .ok r' → r'.isSuccess = true →
      StaticGraph site g₀ s r (.text task.storeId r')) ∧
      (task.isInline = true → ∃ r', answer = .ok r' ∧ r'.isSuccess = true)
  | .waiting analysis => ∀ b ∈ analysis.dependencies, StaticGraph site g₀ s r (.module b)
  | .done outcome => task.isInline = true →
      OutcomeInside site g₀ s r task.storeId outcome ∧ outcome ≠ .ok none

/-- A graph comes from another one by compiling a text as the module of a store id. -/
structure Confined (g : Graph) : Prop where
  assigned : g.Assigned
  awaits : g.AwaitsNamed
  /-- The first task that was made compiles the text. -/
  code : ∃ task, g.tasks[g₀.tasks.size]? = some task ∧ task.storeId = s ∧ task.isInline = true
  stages : ∀ (t : Nat) (task : Task), g.tasks[t]? = some task → Plays site g₀ s r t task →
    StageInside site g₀ s r task task.progress
  edges : ∀ a, StaticGraph site g₀ s r (.module a) → ∀ b ∈ g.edgesOf a,
    StaticGraph site g₀ s r (.module b)
  settled : ∀ (a : String) (slot : Slot), g₀.slots[a]? = some slot → (∀ t, slot ≠ .pending t) →
    g.slots[a]? = some slot
  /-- What is known of the store id itself is what was known before. -/
  slot : g.slots[s]? = g₀.slots[s]?
  edge : g.edges[s]? = g₀.edges[s]?
  /-- Once the text is compiled, nothing is declared in advance. -/
  declared : ∀ o, g.outcome? g₀.tasks.size = some o → g.declared[s]? = none

end

variable {g₀ : Graph} {s : String} {r : Response}

theorem InPlay.plays (h : InPlay site g₀ s r g t) (ht : g.tasks[t]? = some task) :
    Plays site g₀ s r t task := by
  obtain ⟨task', ht', hplays⟩ := h
  cases ht.symm.trans ht'
  exact hplays

theorem InPlay.mono (h : InPlay site g₀ s r g t) (hc : g.Continues g') :
    InPlay site g₀ s r g' t := by
  obtain ⟨task, ht, hplays⟩ := h
  obtain ⟨p, ht'⟩ := hc t task ht
  exact ⟨_, ht', hplays⟩

theorem OutcomeInside.error (storeId : String) (e : LoadError) :
    OutcomeInside site g₀ s r storeId (.error e) := nofun

/-! ## Edges -/

/-- The end of a task changes the edges of its own module only, which are then those of the compiled
module, if it is compiled. -/
theorem edges_finish (ht : g.tasks[t]? = some task) (outcome : Outcome) (a : String) :
    (g.finish t outcome).edges[a]? = g.edges[a]? ∨
      (task.storeId = a ∧ task.isInline = false) ∧
        ((g.finish t outcome).edges[a]? = none ∨
          ∃ c, outcome = .ok (some c) ∧ (g.finish t outcome).edges[a]? = some c.dependencies) := by
  unfold Graph.finish
  rw [ht]
  dsimp only
  split
  · exact .inl rfl
  · rename_i hinline
    by_cases ha : task.storeId = a
    · rcases outcome with e | _ | c
      · refine .inr ⟨⟨ha, Bool.not_eq_true _ ▸ hinline⟩, .inl ?_⟩
        exact (Table.getElem?_erase ..).trans (if_pos ha)
      · exact .inl rfl
      · refine .inr ⟨⟨ha, Bool.not_eq_true _ ▸ hinline⟩, .inr ⟨c, rfl, ?_⟩⟩
        exact (Table.getElem?_insert ..).trans (if_pos ha)
    · rcases outcome with e | _ | c
      · exact .inl ((Table.getElem?_erase ..).trans (if_neg ha))
      · exact .inl rfl
      · exact .inl ((Table.getElem?_insert ..).trans (if_neg ha))

theorem edges_ensure (g : Graph) (storeId : String) (request : Url) (waiter : Option String) :
    (g.ensure storeId request waiter).2.edges = g.edges ∧
      (g.ensure storeId request waiter).2.declared = g.declared := by
  have htaskFor : (g.taskFor storeId request).2.edges = g.edges := by
    unfold taskFor
    split <;> rfl
  have hdeclared := declared_taskFor g storeId request
  unfold Graph.ensure
  split
  all_goals
    rename_i heq
    rw [heq] at htaskFor hdeclared
  · exact ⟨htaskFor, hdeclared⟩
  · exact ⟨htaskFor, hdeclared⟩
  · split
    · exact ⟨htaskFor, hdeclared⟩
    · refine ⟨?_, (declared_addWait _ _).trans hdeclared⟩
      unfold addWait
      split <;> exact htaskFor

/-! ## A task goes on -/

namespace Confined

variable (h : Confined site g₀ s r g)
include h

/-- Only what is declared in advance, waits and the count of requests change. -/
theorem of_eq (htasks : g'.tasks = g.tasks) (hslots : g'.slots = g.slots)
    (hedges : g'.edges = g.edges)
    (hdeclared : ∀ o, g.outcome? g₀.tasks.size = some o → g'.declared[s]? = none) :
    Confined site g₀ s r g' where
  assigned := h.assigned.of_eq hslots htasks
  awaits := h.awaits.of_eq htasks
  code := htasks ▸ h.code
  stages t task ht := h.stages t task (htasks ▸ ht)
  edges a ha b hb := h.edges a ha b (by rwa [edgesOf, hedges] at hb)
  settled a slot hslot hsettled := hslots ▸ h.settled a slot hslot hsettled
  slot := hslots ▸ h.slot
  edge := hedges ▸ h.edge
  declared o ho := by
    refine hdeclared o ?_
    obtain ⟨task, ht, hprogress⟩ := outcome?_eq_some.mp ho
    exact outcome?_eq_some.mpr ⟨task, htasks ▸ ht, hprogress⟩

theorem setProgress (ht : g.tasks[t]? = some task) (hnot : ∀ o, task.progress ≠ .done o)
    {p : Progress} (hbegun : p ≠ .idle) (hp : ∀ o, p ≠ .done o)
    (hinside : StageInside site g₀ s r task p)
    (hawaits : ∀ analysis, p = .waiting analysis →
      g.AwaitsFit analysis.dependencies analysis.awaits) :
    Confined site g₀ s r (g.setProgress t p) where
  assigned := h.assigned.setProgress ht hnot hbegun hp
  awaits := h.awaits.setProgress t hawaits
  code := by
    obtain ⟨code, hcode, hid, hinline⟩ := h.code
    obtain ⟨p', hcode'⟩ := Continues.setProgress g t p _ code hcode
    exact ⟨_, hcode', hid, hinline⟩
  stages u task' hu hplays := by
    rw [tasks_setProgress_of ht] at hu
    split at hu
    · cases hu
      exact hinside
    · exact h.stages u task' hu hplays
  edges := h.edges
  settled := h.settled
  slot := h.slot
  edge := h.edge
  declared o ho := by
    obtain ⟨task', ht', hprogress⟩ := outcome?_eq_some.mp ho
    rw [tasks_setProgress_of ht] at ht'
    split at ht'
    · cases ht'
      exact absurd hprogress (hp o)
    · exact h.declared o (outcome?_eq_some.mpr ⟨task', ht', hprogress⟩)

variable (hs : ¬ StaticGraph site g₀ s r (.module s))
include hs

/-- The slot of the store id itself belongs to no task in play. -/
theorem ne_own (hplays : Plays site g₀ s r t task) (ht : g.tasks[t]? = some task) :
    ¬ (task.storeId = s ∧ task.isInline = false) := by
  rintro ⟨rfl, hslot⟩
  rcases hplays with rfl | ⟨-, hinside⟩
  · obtain ⟨code, hcode, -, hinline⟩ := h.code
    cases hcode.symm.trans ht
    exact nomatch hinline.symm.trans hslot
  · exact hs hinside

theorem finish (ht : g.tasks[t]? = some task) (hnot : ∀ o, task.progress ≠ .done o)
    (hplays : Plays site g₀ s r t task) {outcome : Outcome}
    (hinside : OutcomeInside site g₀ s r task.storeId outcome)
    (htext : task.isInline = true → outcome ≠ .ok none) :
    Confined site g₀ s r (g.finish t outcome) where
  assigned := h.assigned.finish ht hnot outcome
  awaits := h.awaits.finish t outcome
  code := by
    obtain ⟨code, hcode, hid, hinline⟩ := h.code
    obtain ⟨p, hcode'⟩ := Continues.finish g t outcome _ code hcode
    exact ⟨_, hcode', hid, hinline⟩
  stages u task' hu hplays' := by
    rw [tasks_finish_of ht] at hu
    split at hu
    · cases hu
      exact fun hinline => ⟨hinside, htext hinline⟩
    · exact h.stages u task' hu hplays'
  edges a ha b hb := by
    rcases edges_finish ht outcome a with heq | ⟨-, heq | ⟨c, hc, heq⟩⟩
    · rw [edgesOf, heq] at hb
      exact h.edges a ha b hb
    · rw [edgesOf, heq] at hb
      cases hb
    · rw [edgesOf, heq] at hb
      exact (hinside c hc).2 b hb
  settled a slot hslot hsettled :=
    (Moves.finish h.assigned (.refl g) ht hnot outcome a).lasts
      (h.settled a slot hslot hsettled) hsettled
  slot := by
    rw [slots_finish ht, if_neg (h.ne_own hs hplays ht), h.slot]
  edge := by
    rcases edges_finish ht outcome s with heq | ⟨hown, -⟩
    · exact heq.trans h.edge
    · exact absurd hown (h.ne_own hs hplays ht)
  declared o ho := by
    rw [declared_finish ht]
    split
    · rfl
    · rename_i hother
      obtain ⟨task', ht', hprogress⟩ := outcome?_eq_some.mp ho
      rw [tasks_finish_of ht] at ht'
      split at ht'
      · -- only the task of the text has the number of the first task that was made
        rename_i heq
        subst heq
        obtain ⟨code, hcode, hid, -⟩ := h.code
        cases hcode.symm.trans ht
        exact absurd hid hother
      · exact h.declared o (outcome?_eq_some.mpr ⟨task', ht', hprogress⟩)

/-- A task in play ends in an error, and does not wait any more. -/
theorem abandon (ht : g.tasks[t]? = some task) (hnot : ∀ o, task.progress ≠ .done o)
    (hplays : Plays site g₀ s r t task) (storeId : String) (awaits : List Await) (e : LoadError) :
    Confined site g₀ s r (g.abandon t storeId awaits e) := by
  unfold Graph.abandon
  rw [removeWaits_eq]
  generalize g.waits.filter _ = waits
  have hremoved : Confined site g₀ s r { g with waits := waits } := h.of_eq rfl rfl rfl h.declared
  exact hremoved.finish hs ht hnot hplays (.error _ e) nofun

/-! ## A task in play asks for modules -/

omit hs in
/-- Nothing was known of a store id of which nothing is known now, unless it was being compiled. -/
theorem unsettled {a : String} (hslot : g.slots[a]? = none) : g₀.Unsettled a := by
  intro slot hbefore
  by_contra hsettled
  have hsame := h.settled a slot hbefore fun t ht => hsettled ⟨t, ht⟩
  exact nomatch hslot.symm.trans hsame

theorem ensure {child : String} {url : Url} (hchild : StaticGraph site g₀ s r (.request child url))
    (waiter : Option String) : Confined site g₀ s r (g.ensure child url waiter).2 := by
  have hask := AsksFor.ensure g child url waiter
  obtain ⟨hedges, hdeclared⟩ := edges_ensure g child url waiter
  obtain ⟨code, hcode, hid, hinline⟩ := h.code
  have hcode' := hask.keeps _ code hcode
  refine ⟨hask.assigned h.assigned, h.awaits.ensure child url waiter, ⟨code, hcode', hid, hinline⟩,
    fun u task hu hplays => ?_, fun a ha b hb => ?_, fun a slot hslot hsettled => ?_, ?_, ?_,
    fun o ho => ?_⟩
  · rw [tasks_ensure, tasks_taskFor] at hu
    split at hu
    · rename_i hvacant
      rw [Array.getElem?_push] at hu
      split at hu
      · -- the new task requests what may be compiled, since nothing is known of the module
        cases hu
        exact fun r' hallowed hr hsuccess =>
          .served hchild (h.unsettled hvacant) hallowed hr hsuccess
      · exact h.stages u task hu hplays
    · exact h.stages u task hu hplays
  · rw [edgesOf, hedges] at hb
    exact h.edges a ha b hb
  · have hbefore := h.settled a slot hslot hsettled
    rcases hask.slots a with heq | ⟨hnone, -⟩
    · exact heq.trans hbefore
    · exact nomatch hnone.symm.trans hbefore
  · rw [slots_ensure, slots_taskFor, if_neg, h.slot]
    rintro ⟨rfl, -⟩
    exact hs (.requested hchild)
  · exact hedges ▸ h.edge
  · rw [hdeclared]
    obtain ⟨task, ht, hprogress⟩ := outcome?_eq_some.mp ho
    cases hcode'.symm.trans ht
    exact h.declared o (outcome?_eq_some.mpr ⟨code, hcode, hprogress⟩)

/-- Whatever a text names is in its static graph. -/
theorem askForAll {a : String} {r' : Response} {m : Module}
    (htext : StaticGraph site g₀ s r (.text a r')) (hm : Module.ofSource r'.body a = .ok m)
    {specifiers : List String} (hsub : ∀ x ∈ specifiers, x ∈ m.interface.dependencies)
    (children : Children)
    (hchildren : ∀ b ∈ children.dependencies, StaticGraph site g₀ s r (.module b)) :
    Confined site g₀ s r (askForAll a r'.finalUrl specifiers children g).2 ∧
      ∀ children', (askForAll a r'.finalUrl specifiers children g).1 = .ok children' →
        ∀ b ∈ children'.dependencies, StaticGraph site g₀ s r (.module b) := by
  induction specifiers generalizing children g with
  | nil =>
    refine ⟨h, fun children' heq => ?_⟩
    cases heq
    exact hchildren
  | cons specifier specifiers ih =>
    unfold Graph.askForAll
    split
    · rename_i child url hchild hurl
      have hrequest : StaticGraph site g₀ s r (.request child.text url) :=
        .names htext hm (hsub _ List.mem_cons_self) hchild (mapError_eq_ok.mp hurl)
      refine ih (h.ensure hs hrequest _) (fun x hx => hsub x (List.mem_cons_of_mem _ hx)) _
        fun b hb => ?_
      rcases List.mem_append.mp hb with hb | hb
      · exact hchildren b hb
      · exact List.mem_singleton.mp hb ▸ .requested hrequest
    · exact ⟨h, nofun⟩
    · exact ⟨h, nofun⟩

theorem analyse (ht : g.tasks[t]? = some task) (hplays : Plays site g₀ s r t task) {r' : Response}
    (hprogress : task.progress = .fetching 0 (.ok r')) (hsuccess : r'.isSuccess = true) :
    Confined site g₀ s r (g.analyse t task.storeId r') := by
  have hnot : ∀ o, task.progress ≠ .done o := hprogress ▸ nofun
  have hstage := h.stages t task ht hplays
  rw [hprogress] at hstage
  have htext := hstage.1 r' rfl hsuccess
  unfold Graph.analyse
  split
  · exact h.finish hs ht hnot hplays (.error _ _) nofun
  · rename_i m hm
    have hstart : ∃ g₁ : Graph, g₁ = (if hasStars m.interface then g
        else { g with declared := g.declared.insert task.storeId m.interface.declared }) ∧
        Confined site g₀ s r g₁ ∧ g₁.tasks = g.tasks := by
      refine ⟨_, rfl, ?_⟩
      split
      · exact ⟨h, rfl⟩
      · refine ⟨h.of_eq rfl rfl rfl fun o ho => ?_, rfl⟩
        have hother : task.storeId ≠ s := by
          intro heq
          rcases hplays with rfl | ⟨-, hinside⟩
          · -- the task of the text is not done yet
            obtain ⟨task', ht', hdone⟩ := outcome?_eq_some.mp ho
            cases ht.symm.trans ht'
            exact hnot o hdone
          · exact hs (heq ▸ hinside)
        exact (Table.getElem?_insert ..).trans ((if_neg hother).trans (h.declared o ho))
    obtain ⟨g₁, hg₁, hstart, htasks⟩ := hstart
    have hasked := hstart.askForAll hs htext hm (fun _ hx => hx) ⟨[], []⟩
      fun _ hb => absurd hb List.not_mem_nil
    have hkeeps := keeps_askForAll (g := g₁) task.storeId r'.finalUrl m.interface.dependencies
      ⟨[], []⟩ task (htasks ▸ ht)
    dsimp only
    rw [← hg₁]
    split
    all_goals
      rename_i heq
      rw [heq] at hasked hkeeps
    · refine hasked.1.setProgress hkeeps hnot nofun nofun (hasked.2 _ rfl) fun analysis hp => ?_
      cases hp
      exact askForAll_fits hstart.assigned (.nil _ _) heq
    · exact hasked.1.abandon hs hkeeps hnot hplays _ _ _

/-! ## Steps of a task in play -/

section

variable (hplay : InPlay site g₀ s r g t)
include hplay

theorem begin : Confined site g₀ s r (g.begin site t) := by
  unfold Graph.begin
  split
  · rename_i storeId request isInline ht
    have hplays := hplay.plays ht
    have hstage := h.stages t _ ht hplays
    split
    · rename_i hallowed
      have hcounted : Confined site g₀ s r { g with requests := g.requests + 1 } :=
        h.of_eq rfl rfl rfl h.declared
      refine hcounted.setProgress ht nofun nofun nofun
        ⟨fun r' hr hsuccess => hstage r' hallowed hr hsuccess, fun hinline => ?_⟩ nofun
      -- a text that a host gives needs no request
      exact nomatch hinline.symm.trans (h.assigned.slotted t _ ht rfl)
    · exact h.finish hs ht nofun hplays (.error _ _) nofun
  · exact h

omit hs in
theorem tick : Confined site g₀ s r (g.tick t) := by
  unfold Graph.tick
  split
  · rename_i delay answer hprogress
    obtain ⟨task, ht, heq⟩ := Option.map_eq_some_iff.mp hprogress
    have hstage := h.stages t task ht (hplay.plays ht)
    rw [heq] at hstage
    exact h.setProgress ht (heq ▸ nofun) nofun nofun hstage nofun
  · exact h

theorem receive : Confined site g₀ s r (g.receive t) := by
  unfold Graph.receive
  split
  · rename_i storeId request isInline answer ht
    have hplays := hplay.plays ht
    obtain ⟨-, htext⟩ := h.stages t _ ht hplays
    -- only a module may be missing: the text itself is there from the beginning
    have hmissing : (∀ r', answer = .ok r' → r'.isSuccess = false) →
        Confined site g₀ s r (g.finish t (.ok none)) := by
      refine fun hfails => h.finish hs ht nofun hplays nofun fun hinline => ?_
      obtain ⟨r', hr, hsuccess⟩ := htext hinline
      exact nomatch hsuccess.symm.trans (hfails r' hr)
    split
    · rename_i r'
      split
      · rename_i hsuccess
        exact h.analyse hs ht hplays rfl hsuccess
      · rename_i hfails
        refine hmissing fun r'' hr => ?_
        cases hr
        exact Bool.not_eq_true _ ▸ hfails
    · exact hmissing nofun
  · exact h

omit hs in
theorem arrive (a : Await) : Confined site g₀ s r (g.arrive t a) := by
  unfold Graph.arrive
  split
  · rename_i storeId request isInline analysis ht
    have hstage := h.stages t _ ht (hplay.plays ht)
    have harrived : Confined site g₀ s r (g.setProgress t
        (.waiting { analysis with awaits := analysis.awaits.erase a })) := by
      refine h.setProgress ht nofun nofun nofun hstage fun analysis' hp => ?_
      cases hp
      exact fun b hb => h.awaits t _ analysis ht rfl b (List.mem_of_mem_erase hb)
    exact harrived.of_eq rfl rfl rfl harrived.declared
  · exact h

theorem giveUp (e : LoadError) : Confined site g₀ s r (g.giveUp t e) := by
  unfold Graph.giveUp
  split
  · rename_i ht
    exact h.abandon hs ht nofun (hplay.plays ht) _ _ e
  · exact h

theorem complete : Confined site g₀ s r (g.complete t) := by
  unfold Graph.complete
  split
  · rename_i storeId request isInline analysis ht
    have hplays := hplay.plays ht
    have hstage := h.stages t _ ht hplays
    split
    · refine h.finish hs ht nofun hplays (fun c hc => ⟨(storeId_outcomeOf hc).1, ?_⟩) fun _ hc => ?_
      · unfold outcomeOf at hc
        split at hc
        · cases hc
          exact hstage
        · cases hc
      · unfold outcomeOf at hc
        split at hc <;> cases hc
    · exact h
  · exact h

theorem conclude (asked : Asked) : Confined site g₀ s r (g.conclude t asked) := by
  cases asked with
  | allDone => exact h.complete hs hplay
  | notYet => exact h
  | failed e => exact h.giveUp hs hplay e

end

omit h

/-! ## Asking for the outcome of a task in play -/

omit hs in
/-- The tasks that a task waits for are in play if it is. -/
theorem inPlay_of_await (h : Confined site g₀ s r g) (hplay : InPlay site g₀ s r g t)
    {awaits : List Await} (hawaits : g.awaitsOf t = some awaits) :
    ∀ a ∈ awaits, InPlay site g₀ s r g a.task := by
  obtain ⟨task, analysis, ht, hprogress, rfl⟩ := awaitsOf_eq_some.mp hawaits
  intro a ha
  have hstage := h.stages t task ht (hplay.plays ht)
  rw [hprogress] at hstage
  obtain ⟨htarget, task', ht', hid, hslot⟩ := h.awaits t task analysis ht hprogress a ha
  exact ⟨task', ht', .inr ⟨hslot, hid ▸ hstage _ htarget⟩⟩

omit hs in
theorem askAwaits {ask : Nat → Graph → Option Outcome × Graph} {asking : List Nat}
    (hdrives : Drives site asking ask)
    (hask : ∀ {g : Graph} {t : Nat}, Confined site g₀ s r g → InPlay site g₀ s r g t →
      Confined site g₀ s r (ask t g).2)
    (h : Confined site g₀ s r g) (hplay : InPlay site g₀ s r g t) {awaits : List Await}
    (hawaits : ∀ a ∈ awaits, InPlay site g₀ s r g a.task) (all : Bool) :
    Confined site g₀ s r (Graph.askAwaits ask t awaits all g).2 ∧
      InPlay site g₀ s r (Graph.askAwaits ask t awaits all g).2 t := by
  induction awaits generalizing g all with
  | nil => exact ⟨h, hplay⟩
  | cons a awaits ih =>
    have hasked := hask h (hawaits a List.mem_cons_self)
    have hgoes := Continues.steps (hdrives.steps a.task g)
    have hrest : ∀ b ∈ awaits, InPlay site g₀ s r g b.task :=
      fun b hb => hawaits b (List.mem_cons_of_mem _ hb)
    unfold Graph.askAwaits
    split
    all_goals
      rename_i heq
      rw [heq] at hasked hgoes
    · exact ih hasked (hplay.mono hgoes) (fun b hb => (hrest b hb).mono hgoes) false
    · rename_i c g'
      have harrives : g'.Continues (g'.arrive t a) := by
        unfold Graph.arrive
        split
        · exact .setProgress g' t _
        · exact .refl g'
      have hgoes' := hgoes.trans harrives
      exact ih (hasked.arrive (hplay.mono hgoes) a) (hplay.mono hgoes')
        (fun b hb => (hrest b hb).mono hgoes') all
    · exact ⟨hasked, hplay.mono hgoes⟩

/-- Asking for the outcome of a task in play stays inside the static graph. -/
theorem ask (h : Confined site g₀ s r g) (hplay : InPlay site g₀ s r g t) (depth : Nat)
    (asking : List Nat) : Confined site g₀ s r (ask site depth asking t g).2 := by
  -- the depth falls from a task to those that it waits for, which are in play with it
  induction depth generalizing asking t g with
  | zero => exact h
  | succ depth ih =>
    by_cases hasking : t ∈ asking
    · rw [ask_of_mem hasking]
      exact h
    rw [ask_of_notMem hasking]
    have hbegun := h.begin hs hplay
    have hplay' := hplay.mono (.steps (.single (.begin t : TaskStep site g _)))
    split
    · exact hbegun.tick hplay'
    have hreceived := hbegun.receive hs hplay'
    have hplay := hplay.mono (.steps (begin_receive_steps site g t))
    split
    · rename_i awaits hawaits
      obtain ⟨hasked, hplay⟩ := askAwaits (ask_drives site depth (t :: asking))
        (fun h hplay => ih h hplay _) hreceived hplay (hreceived.inPlay_of_await hplay hawaits) true
      exact hasked.conclude hs hplay _
    · exact hreceived

/-- The same for several tasks. Those that are not done are among them. -/
theorem askAll (h : Confined site g₀ s r g) (depth : Nat) {tasks : List Nat}
    (hplay : ∀ t ∈ tasks, InPlay site g₀ s r g t) :
    Confined site g₀ s r (askAll (Graph.ask site depth []) tasks g).2 ∧
      ∀ left, (Graph.askAll (Graph.ask site depth []) tasks g).1 = .ok left →
        ∀ t ∈ left, t ∈ tasks := by
  induction tasks generalizing g with
  | nil =>
    refine ⟨h, fun left heq => ?_⟩
    cases heq
    exact fun _ => id
  | cons t tasks ih =>
    have hasked := ask hs h (hplay t List.mem_cons_self) depth []
    have hgoes := Continues.steps ((ask_drives site depth []).steps t g)
    have hrest : ∀ u ∈ tasks, InPlay site g₀ s r (Graph.ask site depth [] t g).2 u :=
      fun u hu => (hplay u (List.mem_cons_of_mem _ hu)).mono hgoes
    obtain ⟨hconfined, hleft⟩ := ih hasked hrest
    unfold Graph.askAll
    split
    · rename_i heq
      rw [heq] at hasked
      exact ⟨hasked, nofun⟩
    · rename_i outcome g' _ heq
      rw [heq] at hconfined hleft
      split
      all_goals
        rename_i heq'
        rw [heq'] at hconfined hleft
      · rename_i left _
        refine ⟨hconfined, fun left' hleft' => ?_⟩
        cases hleft'
        split
        · intro u hu
          rcases List.mem_cons.mp hu with rfl | hu
          · exact List.mem_cons_self
          · exact List.mem_cons_of_mem _ (hleft left rfl u hu)
        · exact fun u hu => List.mem_cons_of_mem _ (hleft left rfl u hu)
      · exact ⟨hconfined, nofun⟩

omit hs in
/-- The tasks that are not done of the modules that a text depends on are in play. -/
theorem pendingFrom (h : Confined site g₀ s r g) {roots : List String}
    (hroots : ∀ a ∈ roots, StaticGraph site g₀ s r (.module a)) :
    ∀ t ∈ g.pendingFrom roots, InPlay site g₀ s r g t := by
  intro t ht
  obtain ⟨a, ha, hpending⟩ := List.mem_filterMap.mp ht
  have hinside : StaticGraph site g₀ s r (.module a) :=
    (g.search_edges roots).induct h.edges (fun b hb => hroots b (List.mem_reverse.mp hb))
      (fun _ hb => absurd hb List.not_mem_nil) a ha
  have hslot := pendingTask?_eq_some.mp hpending
  obtain ⟨task, htask, rfl, hinline, -⟩ := h.assigned.inFlight a t hslot
  exact ⟨task, htask, .inr ⟨hinline, hinside⟩⟩

omit hs in
/-- Once the text is compiled, there is a module, which depends on modules of the static graph. -/
theorem outcome (h : Confined site g₀ s r g) {o : Outcome}
    (ho : g.outcome? g₀.tasks.size = some o) : OutcomeInside site g₀ s r s o ∧ o ≠ .ok none := by
  obtain ⟨task, ht, rfl, hinline⟩ := h.code
  obtain ⟨task', ht', hdone⟩ := outcome?_eq_some.mp ho
  cases ht.symm.trans ht'
  have hstage := h.stages _ task ht (.inl rfl)
  rw [hdone] at hstage
  exact hstage hinline

/-! ## The beginning -/

omit hs in
/-- The task of a text is made, which is there already. -/
theorem start (hassigned : g₀.Assigned) (hawaits : g₀.AwaitsNamed) (s : String) (served : Url)
    (code : String) : Confined site g₀ s ⟨200, served, code⟩
      (g₀.newTask (inlineTask s served code)).2 := by
  have hnew : ∀ u, (g₀.newTask (inlineTask s served code)).2.tasks[u]? =
      if u = g₀.tasks.size then some (inlineTask s served code) else g₀.tasks[u]? :=
    fun u => Array.getElem?_push
  refine ⟨hassigned.provide rfl nofun, hawaits.newTask _ nofun, ⟨_, (hnew _).trans (if_pos rfl), rfl,
    rfl⟩, fun t task ht hplays => ?_, fun a ha b hb => .compiled ha hb, fun _ _ h _ => h, rfl, rfl,
    fun o ho => ?_⟩
  · rw [hnew] at ht
    split at ht
    · cases ht
      refine ⟨fun r' hr _ => ?_, fun _ => ⟨_, rfl, rfl⟩⟩
      cases hr
      exact .text
    · -- the other tasks in play are under way already, and that is in the static graph
      rename_i hne
      rcases hplays with heq | ⟨hslot, hinside⟩
      · exact absurd heq hne
      cases hprogress : task.progress with
      | done => exact fun hinline => nomatch hslot.symm.trans hinline
      | idle =>
        have hpending := hassigned.pending ⟨task, ht, rfl, hslot, hprogress ▸ nofun⟩
        refine fun r' hallowed hr hsuccess => ?_
        refine .served (.idle hinside hpending ht hprogress) (fun slot heq => ?_) hallowed hr
          hsuccess
        exact ⟨t, Option.some.inj (heq.symm.trans hpending)⟩
      | fetching delay answer =>
        have hpending := hassigned.pending ⟨task, ht, rfl, hslot, hprogress ▸ nofun⟩
        refine ⟨fun r' hr hsuccess => ?_, fun hinline => nomatch hslot.symm.trans hinline⟩
        subst hr
        exact .fetching hinside hpending ht hprogress hsuccess
      | waiting analysis =>
        have hpending := hassigned.pending ⟨task, ht, rfl, hslot, hprogress ▸ nofun⟩
        exact fun b hb => .waiting hinside hpending ht hprogress hb
  · obtain ⟨task, ht, hdone⟩ := outcome?_eq_some.mp ho
    rw [hnew, if_pos rfl] at ht
    cases ht
    cases hdone

end Confined

end Graph

end EsModule.Loader
