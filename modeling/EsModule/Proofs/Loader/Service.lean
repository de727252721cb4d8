import EsModule.Proofs.Loader.Naming
import EsModule.Proofs.Scope.Steps

/-!
# A loader that serves many calls

Hosts make requests of a loader at any time, and drive the calls that they have made in any order.
A call can also be dropped. In between, tasks go on, and hosts import modules, ask for namespaces,
run code with capabilities and change what is around the loader. `Service` is a loader with the
calls that are made, and `Service.Step` says what can happen next; driving some requests to their
end is made of such steps (`request_serves`).

What a call has done fits its request (`Call.Fits`): a call for a module goes on to run the module
of the store id that was asked for, and has as its result the namespace of the record that is
registered then. Every step keeps this (`Service.Fits.step`).
-/

namespace EsModule.Loader

open EsModule.Scope Relation

/-! ## Services -/

/-- A loader with the calls that hosts have made. -/
structure Service where
  /-- The loader and what is around it. -/
  world : World
  /-- The calls, each with what was asked for. -/
  calls : List (Request × Call)

/-- What can happen to a loader that serves calls. -/
inductive Service.Step : Service → Service → Prop where
  /-- A host makes a request. -/
  | ask (w : World) (calls : List (Request × Call)) (request : Request) :
    Step ⟨w, calls⟩ ⟨w, calls ++ [(request, .asked request)]⟩
  /-- A call is taken one step on. -/
  | advance (w : World) (before : List (Request × Call)) (request : Request) (call : Call)
    (after : List (Request × Call)) (depth : Nat) :
    Step ⟨w, before ++ (request, call) :: after⟩
      ⟨(w.advance depth call).2, before ++ (request, (w.advance depth call).1.1) :: after⟩
  /-- A call is dropped, and waits of code that was given with it may end. -/
  | drop (w : World) (before : List (Request × Call)) (call : Request × Call)
    (after : List (Request × Call)) {waits : List Wait} (h : ∀ a ∈ waits, a ∈ w.graph.waits) :
    Step ⟨w, before ++ call :: after⟩
      ⟨{ w with graph := { w.graph with waits := waits } }, before ++ after⟩
  /-- A task takes a step. -/
  | task {w : World} {g : Graph} (h : Graph.TaskStep w.site w.graph g)
    (calls : List (Request × Call)) : Step ⟨w, calls⟩ ⟨{ w with graph := g }, calls⟩
  /-- A host imports a compiled module. -/
  | importModule (w : World) (id : String) (calls : List (Request × Call)) :
    Step ⟨w, calls⟩ ⟨(w.importModule id).2, calls⟩
  /-- A host asks for the namespace of a record that is there. -/
  | namespaceOf {w : World} {r : Nat} (h : (w.heap.record? r).isSome)
    (calls : List (Request × Call)) : Step ⟨w, calls⟩ ⟨(w.namespaceOf r).2, calls⟩
  /-- A host runs some code with capabilities that it has. -/
  | runWith (w : World) (caps : Capabilities) (body : Body) (calls : List (Request × Call)) :
    Step ⟨w, calls⟩ ⟨(w.runWith caps body).2, calls⟩
  /-- A host reads an export of a record. -/
  | get (w : World) (r : Nat) (name : String) (calls : List (Request × Call)) :
    Step ⟨w, calls⟩ ⟨{ w with heap := (w.heap.get r name).2 }, calls⟩
  /-- A binding is given a value. -/
  | store (w : World) (c : Cell) (v : Value) (calls : List (Request × Call)) :
    Step ⟨w, calls⟩ ⟨{ w with heap := w.heap.store c v }, calls⟩
  /-- A host gives a compiled module. -/
  | preload (w : World) (resource : Resource) (calls : List (Request × Call)) :
    Step ⟨w, calls⟩ ⟨{ w with graph := (w.graph.preload resource).2 }, calls⟩
  /-- What is around the loader changes. -/
  | around (w : World) (fetcher : Fetcher) (bodies : Table Body) (runs : Nat)
    (log : List LogEntry) (kept : Table Capabilities) (calls : List (Request × Call)) :
    Step ⟨w, calls⟩ ⟨{ w with fetcher := fetcher, bodies := bodies, runs := runs, log := log,
                              kept := kept }, calls⟩
  /-- Records that nothing holds are given up. -/
  | sweep (w : World) (held : List Nat) (calls : List (Request × Call)) :
    Step ⟨w, calls⟩ ⟨w.sweep held, calls⟩

/-- One service comes from another by steps. -/
abbrev Serves : Service → Service → Prop := ReflTransGen Service.Step

/-! ## What a request is for -/

/-- The store id that an id stands for. -/
def storeIdOf? (base : Option Url) (id : String) : Option String :=
  (resolveId base id).toOption.map (·.text)

/-- The store id of the module that is to be run, if a request is for one. A specifier is resolved
first. -/
def Request.storeId? (base : Option Url) : Request → Option String
  | .importUrl id _ => storeIdOf? base id
  | .importDynamic specifier none => (storeIdOf? base specifier).bind (storeIdOf? base)
  | .importDynamic specifier (some importer) => do
    let importer ← storeIdOf? base importer
    let url ← (resolve importer specifier).toOption
    storeIdOf? base url.text
  | .importWith caps specifier => do
    let url ← (resolve caps.storeId specifier).toOption
    storeIdOf? base url.text
  | .compile .. | .importCode .. => none

namespace World

variable {w w' : World} {s : String} {n : Namespace} {request : Request}

/-- A namespace is that of the record which is registered for a module. The store id is resolved
when the module is imported. -/
def Holds (w : World) (s : String) (n : Namespace) : Prop :=
  ∃ s', storeIdOf? w.base s = some s' ∧ w.modules[s']? = some n.record ∧ n ∈ w.heap.namespaces

theorem Holds.mono (h : w.Holds s n) (hl : w.Later w') : w'.Holds s n := by
  obtain ⟨s', hs', hr, hn⟩ := h
  exact ⟨s', hl.base ▸ hs', hl.modules s' _ hr, hl.namespaces n hn⟩

end World

/-- What a call has done fits the request that it was made for. -/
def Call.Fits (w : World) (request : Request) : Call → Prop
  | .asked request' => request' = request
  | .compiling _ (.run s) | .settling _ _ (.module s) => request.storeId? w.base = some s
  | .compiling _ .runInline | .settling _ _ (.code _) => request.storeId? w.base = none
  | .compiling _ .compile => True
  | .done (.ok (some n)) => ∀ s, request.storeId? w.base = some s → w.Holds s n
  | .done _ => True

variable {w w' : World} {request : Request} {call : Call}

/-- While a call settles, only its target counts. -/
theorem Call.Fits.settling {tasks tasks' : List Nat} {roots roots' : List String} {target : Target}
    (h : (Call.settling tasks roots target).Fits w request) (hbase : w'.base = w.base) :
    (Call.settling tasks' roots' target).Fits w' request := by
  have hstore : request.storeId? w'.base = request.storeId? w.base := by rw [hbase]
  cases target <;> exact hstore.trans h

theorem Call.Fits.mono (h : call.Fits w request) (hl : w.Later w') : call.Fits w' request := by
  have hstore : request.storeId? w'.base = request.storeId? w.base := by rw [hl.base]
  cases call with
  | asked request' => exact h
  | compiling t goal =>
    cases goal with
    | compile => trivial
    | run s => exact hstore.trans h
    | runInline => exact hstore.trans h
  | settling tasks roots target => exact h.settling hl.base
  | done result =>
    rcases result with e | ⟨_ | n⟩
    · trivial
    · trivial
    · exact fun s hs => (h s (hstore.symm.trans hs)).mono hl

/-! ## Compiling modules -/

namespace World

theorem Leads.graph {g : Graph} (h : w.graph.Abides g) (hnames : Graph.NamesNew w.graph g) :
    w.Leads { w with graph := g } := fun hs =>
  ⟨{ named := hs.named.of_namesNew hnames
     owned := (h hs.owned).1
     heap := hs.heap
     registered := fun s r hr => by
      obtain ⟨resource, hready, horigin⟩ := hs.registered s r hr
      exact ⟨resource, (h hs.owned).2 s resource hready, horigin⟩ },
   { base := rfl
     resources := (h hs.owned).2
     modules := fun _ _ h => h
     namespaces := fun _ h => h
     size := Nat.le_refl _ }⟩

theorem Leads.task {g : Graph} (h : Graph.TaskStep w.site w.graph g) :
    w.Leads { w with graph := g } :=
  .graph h.abides h.namesNew

theorem Leads.tasks {g : Graph} (h : Graph.TaskSteps w.site w.graph g) :
    w.Leads { w with graph := g } := by
  induction h with
  | refl => exact .refl w
  | tail _ hs ih => exact ih.trans (Leads.task (w := { w with graph := _ }) hs)

theorem Leads.ensure (w : World) (storeId : String) (request : Url) :
    w.Leads { w with graph := (w.graph.ensure storeId request none).2 } :=
  .graph (Graph.abides_ensure _ _ _ _) (Graph.namesNew_ensure _ _ _ _)

theorem Leads.preload (w : World) (resource : Resource) :
    w.Leads { w with graph := (w.graph.preload resource).2 } :=
  have hstep : GraphStep w.site w.graph (w.graph.preload resource).2 := .preload resource
  .graph (Graph.abides_preload w.graph resource) hstep.namesNew

/-- Some code is given, whose module has no slot. -/
theorem Leads.provide (w : World) {task : Task} (htask : task.isInline = true) :
    w.Leads { w with graph := (w.graph.newTask task).2 } :=
  .graph (Graph.abides_newTask _ htask) (.of_slots rfl)

/-- Reading an export may make a namespace. -/
theorem get_leads (w : World) (r : Nat) (name : String) :
    w.Leads { w with heap := (w.heap.get r name).2 } := by
  have hlights := w.get_light r name
  generalize { w with heap := (w.heap.get r name).2 } = w' at hlights
  induction hlights with
  | refl => exact .refl w
  | tail _ hlight ih => exact ih.trans hlight.leads

/-! ## Calls -/

/-- A call goes on: a sound world is followed by a sound one, in which the call fits its request. -/
structure CallGoes (w : World) (request : Request) (result : Call × World) : Prop where
  leads : w.Leads result.2
  fits : w.Sound → result.1.Fits result.2 request

theorem CallGoes.done (w : World) (request : Request) (e : LoadError) :
    w.CallGoes request (.done (.error e), w) :=
  ⟨.refl w, fun _ => trivial⟩

/-- A call is done with the namespace of a record, which is the registered one if a module was asked
for. -/
theorem CallGoes.named {r : Nat} (h : w.Leads w') (hr : w.Sound → r < w'.heap.records.size)
    (hregistered : ∀ s, request.storeId? w.base = some s → w.Sound → ∃ s',
      storeIdOf? w.base s = some s' ∧ w'.modules[s']? = some r) :
    w.CallGoes request (.done (.ok (some (w'.namespaceOf r).1)), (w'.namespaceOf r).2) := by
  have hleads : w.Leads (w'.namespaceOf r).2 := fun hs =>
    h.trans (.namespaceOf fun _ => hr hs) hs
  refine ⟨hleads, fun hs s hstore => ?_⟩
  have hbase : (w'.namespaceOf r).2.base = w.base := (hleads hs).2.base
  rw [hbase] at hstore
  obtain ⟨s', hs', hmodules⟩ := hregistered s hstore hs
  obtain ⟨hmem, hrecord⟩ := w'.heap.mem_namespaceOf r
  exact ⟨s', hbase ▸ hs', hmodules.trans (congrArg some hrecord.symm), hmem⟩

/-- Running a target gives the namespace of the record that it has run with. -/
theorem runTarget_goes {target : Target} (h : (Call.settling [] [] target).Fits w request) :
    w.CallGoes request (w.runTarget target) := by
  unfold runTarget
  cases target with
  | module s =>
    have himport := w.importModule_leads s
    have hresult (r : Nat) (w' : World) (hs : w.Sound) (heq : w.importModule s = (.ok r, w')) :=
      (importAt_isSound w.importDepth).registered hs heq
    dsimp only
    generalize w.importModule s = imported at himport hresult
    obtain ⟨result, w'⟩ := imported
    cases result with
    | error e => exact ⟨himport, fun _ => trivial⟩
    | ok r =>
      refine .named himport (fun hs => ?_) fun s' hs' hs => ?_
      · obtain ⟨url, -, hr⟩ := hresult r w' hs rfl
        exact (himport hs).1.lt_size hr
      · obtain ⟨url, hurl, hr⟩ := hresult r w' hs rfl
        cases h.symm.trans hs'
        exact ⟨url.text, by rw [storeIdOf?, hurl]; rfl, hr⟩
  | code resource =>
    have hrun := w.runInline_leads resource
    have hresult := w.runInline_lt_size resource
    dsimp only
    generalize w.runInline resource = ran at hrun hresult
    obtain ⟨result, w'⟩ := ran
    cases result with
    | error e => exact ⟨hrun, fun _ => trivial⟩
    | ok r => exact .named hrun (hresult r · rfl) fun s hs => nomatch h.symm.trans hs

theorem beginCompile_goes (store url : Url) {goal : Goal}
    (h : (Call.compiling 0 goal).Fits w request) :
    w.CallGoes request (w.beginCompile store url goal) := by
  have hleads := Leads.ensure w store.text url
  unfold beginCompile
  generalize w.graph.ensure store.text url none = asked at hleads
  obtain ⟨await, g⟩ := asked
  refine ⟨?_, fun hs => ?_⟩
  · cases await <;> cases goal <;> exact hleads
  · cases await <;> cases goal <;> first | exact h | trivial

/-- A call to import an id is for the module that the id stands for. -/
theorem beginImport_goes {id : String} (url : Option String)
    (h : request.storeId? w.base = storeIdOf? w.base id) :
    w.CallGoes request (w.beginImport id url) := by
  unfold beginImport
  split
  · exact .done w request _
  cases hid : resolveId w.base id with
  | error e => exact .done w request e
  | ok store =>
    have hstore : request.storeId? w.base = some store.text := by
      rw [h, storeIdOf?, hid]
      rfl
    dsimp only
    split
    · exact runTarget_goes hstore
    split
    · exact .done w request _
    · exact beginCompile_goes _ _ hstore

theorem beginCode_goes (code id : String) (url : Option String)
    (h : request.storeId? w.base = none) : w.CallGoes request (w.beginCode code id url) := by
  unfold beginCode
  split
  · exact .done w request _
  split
  · exact .done w request _
  split
  · exact .done w request _
  split
  · exact .done w request _
  · exact ⟨.provide w rfl, fun _ => h⟩

/-- A call to import what a specifier names is for the module that the specifier stands for. -/
theorem beginTarget_goes {target : Except LoadError (Url × Url)}
    (h : ∀ store url, target = .ok (store, url) →
      request.storeId? w.base = storeIdOf? w.base store.text) :
    w.CallGoes request (w.beginTarget target) := by
  cases target with
  | error e => exact .done w request e
  | ok target => exact beginImport_goes _ (h target.1 target.2 rfl)

theorem storeId?_dynamicTarget {specifier : String} {importer : Option String} {store url : Url}
    (h : w.dynamicTarget specifier importer = .ok (store, url)) :
    (Request.importDynamic specifier importer).storeId? w.base =
      storeIdOf? w.base store.text := by
  cases importer with
  | none =>
    have hmap : (resolveId w.base specifier).map (fun url => (url, url)) = .ok (store, url) := h
    cases hid : resolveId w.base specifier with
    | error e =>
      rw [hid] at hmap
      cases hmap
    | ok found =>
      rw [hid] at hmap
      cases hmap
      simp [Request.storeId?, storeIdOf?, hid, Except.toOption]
  | some importer =>
    obtain ⟨found, hid, h⟩ := bind_eq_ok.mp h
    obtain ⟨store', hstore, h⟩ := bind_eq_ok.mp h
    obtain ⟨url', -, h⟩ := bind_eq_ok.mp h
    cases h
    simp [Request.storeId?, storeIdOf?, hid, hstore, Except.toOption]

theorem storeId?_targetWith {caps : Capabilities} {specifier : String} {store url : Url}
    (h : w.targetWith caps specifier = .ok (store, url)) :
    (Request.importWith caps specifier).storeId? w.base = storeIdOf? w.base store.text := by
  obtain ⟨store', hstore, h⟩ := bind_eq_ok.mp h
  obtain ⟨url', -, h⟩ := bind_eq_ok.mp h
  split at h
  · cases h
    simp [Request.storeId?, hstore, Except.toOption]
  · cases h

theorem begin_goes (w : World) (request : Request) : w.CallGoes request (w.begin request) := by
  cases request with
  | compile id url =>
    unfold begin
    dsimp only
    split
    · exact .done w _ _
    split
    · exact .done w _ _
    · exact beginCompile_goes _ _ trivial
  | importUrl id url => exact beginImport_goes url rfl
  | importCode code id url => exact beginCode_goes code id url rfl
  | importDynamic specifier importer =>
    exact beginTarget_goes fun _ _ => storeId?_dynamicTarget
  | importWith caps specifier =>
    exact beginTarget_goes fun _ _ => storeId?_targetWith

theorem afterTask_fits {t : Nat} {goal : Goal} (h : (Call.compiling t goal).Fits w request)
    (outcome : Outcome) : (afterTask goal outcome).Fits w request := by
  cases outcome with
  | error e => cases goal <;> trivial
  | ok c => cases c <;> cases goal <;> first | exact h | trivial

theorem CallGoes.after {result : Call × World} (hleads : w.Leads w')
    (h : w'.CallGoes request result) : w.CallGoes request result :=
  ⟨hleads.trans h.leads, fun hs => h.fits (hleads hs).1⟩

theorem ask_leads (w : World) (depth t : Nat) : w.Leads (w.ask depth t).2 :=
  .tasks ((Graph.ask_drives w.site depth []).steps t w.graph)

theorem askAll_leads (w : World) (depth : Nat) (tasks : List Nat) :
    w.Leads (w.askAll depth tasks).2 :=
  .tasks (askAll_steps (Graph.ask_drives w.site depth []) tasks w.graph)

/-- Every step of a call keeps that it fits its request. -/
theorem advance_goes (h : call.Fits w request) (depth : Nat) :
    w.CallGoes request ((w.advance depth call).1.1, (w.advance depth call).2) := by
  cases call with
  | asked request' =>
    cases h
    exact begin_goes w request
  | compiling t goal =>
    have hask := w.ask_leads depth t
    unfold advance
    dsimp only
    split
    all_goals
      rename_i heq
      rw [heq] at hask
    · exact ⟨hask, fun hs => (afterTask_fits h _).mono (hask hs).2⟩
    · exact ⟨hask, fun hs => h.mono (hask hs).2⟩
  | settling tasks roots target =>
    have hask := w.askAll_leads depth tasks
    have hbase : (w.askAll depth tasks).2.base = w.base := rfl
    unfold advance
    dsimp only
    split
    all_goals
      rename_i heq
      rw [heq] at hask hbase
    · exact ⟨hask, fun _ => trivial⟩
    · exact ⟨hask, fun _ => h.settling hbase⟩
    · split
      · exact .after hask (runTarget_goes (h.settling hbase))
      · exact ⟨hask, fun _ => h.settling hbase⟩
  | done result => exact ⟨.refl w, fun _ => h⟩

end World

/-! ## Steps -/

namespace Service

variable {s s' : Service}

/-- The loader is sound, and all calls fit their requests. -/
structure Fits (s : Service) : Prop where
  sound : s.world.Sound
  calls : ∀ request call, (request, call) ∈ s.calls → call.Fits s.world request

/-- What a step does: a sound world is followed by a sound one, and calls that are new or have gone
on fit their requests. -/
structure Goes (s s' : Service) : Prop where
  leads : s.world.Leads s'.world
  calls : ∀ request call, (request, call) ∈ s'.calls →
    (request, call) ∈ s.calls ∨ call.Fits s'.world request

theorem Goes.of_leads {w w' : World} {calls : List (Request × Call)} (h : w.Leads w') :
    Goes ⟨w, calls⟩ ⟨w', calls⟩ :=
  ⟨h, fun _ _ hmem => .inl hmem⟩

theorem Step.goes (h : Step s s') (hs : s.Fits) : s.Goes s' := by
  cases h with
  | ask w calls request =>
    refine ⟨.refl w, fun request' call hmem => ?_⟩
    rcases List.mem_append.mp hmem with hmem | hmem
    · exact .inl hmem
    · cases List.mem_singleton.mp hmem
      exact .inr rfl
  | advance w before request call after depth =>
    have hfits := hs.calls request call (List.mem_append_right _ List.mem_cons_self)
    have hgoes := World.advance_goes hfits depth
    refine ⟨hgoes.leads, fun request' call' hmem => ?_⟩
    rcases List.mem_append.mp hmem with hmem | hmem
    · exact .inl (List.mem_append_left _ hmem)
    rcases List.mem_cons.mp hmem with heq | hmem
    · cases heq
      exact .inr (hgoes.fits hs.sound)
    · exact .inl (List.mem_append_right _ (List.mem_cons_of_mem _ hmem))
  | drop w before call after =>
    refine ⟨fun hs => ⟨⟨hs.named, hs.owned, hs.heap, hs.registered⟩, ⟨rfl, fun _ _ h => h,
      fun _ _ h => h, fun _ h => h, Nat.le_refl _⟩⟩, fun request call hmem => .inl ?_⟩
    rcases List.mem_append.mp hmem with hmem | hmem
    · exact List.mem_append_left _ hmem
    · exact List.mem_append_right _ (List.mem_cons_of_mem _ hmem)
  | task h => exact .of_leads (.task h)
  | importModule w id => exact .of_leads (w.importModule_leads id)
  | namespaceOf h => exact .of_leads (.namespaceOf fun _ => Heap.lt_of_record? h)
  | runWith w caps body => exact .of_leads (w.runWith_leads caps body)
  | get w r name => exact .of_leads (w.get_leads r name)
  | store w c v => exact .of_leads (.store w c v)
  | preload w resource => exact .of_leads (.preload w resource)
  | around w => exact .of_leads (.around w _ _ _ _ _)
  | sweep w held => exact .of_leads (.sweep w held)

/-- Every step keeps that all calls fit their requests. -/
theorem Fits.step (hs : s.Fits) (h : Step s s') : s'.Fits ∧ s.world.Later s'.world := by
  have hgoes := h.goes hs
  obtain ⟨hsound, hlater⟩ := hgoes.leads hs.sound
  refine ⟨⟨hsound, fun request call hmem => ?_⟩, hlater⟩
  rcases hgoes.calls request call hmem with hmem | hfits
  · exact (hs.calls request call hmem).mono hlater
  · exact hfits

theorem Fits.serves (hs : s.Fits) (h : Serves s s') : s'.Fits ∧ s.world.Later s'.world := by
  induction h with
  | refl => exact ⟨hs, .refl _⟩
  | tail _ hstep ih =>
    obtain ⟨hfits, hlater⟩ := ih.1.step hstep
    exact ⟨hfits, ih.2.trans hlater⟩

end Service

/-! ## Driving calls to their end -/

namespace World

theorem poll_serves (w : World) (before : List (Request × Call)) (request : Request) (call : Call)
    (after : List (Request × Call)) (depth steps : Nat) :
    Serves ⟨w, before ++ (request, call) :: after⟩
      ⟨(poll depth steps call w).2, before ++ (request, (poll depth steps call w).1) :: after⟩ := by
  induction steps generalizing call w with
  | zero => exact .refl
  | succ steps ih =>
    have hstep := Service.Step.advance w before request call after depth
    unfold poll
    split
    · rename_i heq
      rw [heq] at hstep
      exact .head hstep (ih _ _)
    · rename_i heq
      rw [heq] at hstep
      exact .single hstep

theorem pollAll_serves (w : World) (before calls : List (Request × Call)) (bound : Nat) :
    ∃ calls' : List (Request × Call),
      Serves ⟨w, before ++ calls⟩ ⟨(pollAll bound (calls.map (·.2)) w).2, before ++ calls'⟩ ∧
      calls'.map (·.1) = calls.map (·.1) ∧
      calls'.map (·.2) = (pollAll bound (calls.map (·.2)) w).1 := by
  induction calls generalizing w before with
  | nil => exact ⟨[], .refl, rfl, rfl⟩
  | cons call calls ih =>
    obtain ⟨request, call⟩ := call
    have hfirst := w.poll_serves before request call calls bound bound
    obtain ⟨calls', hrest, hrequests, hcalls⟩ := ih (poll bound bound call w).2
      (before ++ [(request, (poll bound bound call w).1)])
    simp only [List.append_assoc, List.singleton_append] at hrest
    exact ⟨(request, (poll bound bound call w).1) :: calls', hfirst.trans hrest,
      congrArg (request :: ·) hrequests, congrArg ((poll bound bound call w).1 :: ·) hcalls⟩

theorem drive_serves (w : World) (calls : List (Request × Call)) (bound rounds : Nat) :
    ∃ calls' : List (Request × Call),
      Serves ⟨w, calls⟩ ⟨(drive bound rounds (calls.map (·.2)) w).2, calls'⟩ ∧
      calls'.map (·.1) = calls.map (·.1) ∧
      calls'.map (·.2.result?) = (drive bound rounds (calls.map (·.2)) w).1 := by
  induction rounds generalizing w calls with
  | zero => exact ⟨calls, .refl, rfl, by simp [drive]⟩
  | succ rounds ih =>
    unfold drive
    split
    · exact ⟨calls, .refl, rfl, by simp⟩
    · obtain ⟨polled, hpolled, hrequests, hcalls⟩ := w.pollAll_serves [] calls bound
      obtain ⟨calls', hrest, hrequests', hresults⟩ :=
        ih (pollAll bound (calls.map (·.2)) w).2 polled
      rw [hcalls] at hrest hresults
      exact ⟨calls', hpolled.trans hrest, hrequests'.trans hrequests, hresults⟩

theorem ask_serves (w : World) (calls : List (Request × Call)) (requests : List Request) :
    Serves ⟨w, calls⟩ ⟨w, calls ++ requests.map fun request => (request, .asked request)⟩ := by
  induction requests generalizing calls with
  | nil =>
    rw [List.map_nil, List.append_nil]
  | cons request requests ih =>
    have hrest := ih (calls ++ [(request, Call.asked request)])
    rw [List.append_assoc] at hrest
    exact .head (.ask w calls request) hrest

/-- What hosts ask for together is driven by the steps of a service, and the results are those of
its calls. -/
theorem request_serves (w : World) (requests : List Request) :
    ∃ calls : List (Request × Call), Serves ⟨w, []⟩ ⟨(w.request requests).2, calls⟩ ∧
      calls.map (·.1) = requests ∧ calls.map (·.2.result?) = (w.request requests).1 := by
  obtain ⟨calls, hdriven, hrequests, hresults⟩ := w.drive_serves
    (requests.map fun request => (request, .asked request)) patience patience
  simp only [List.map_map, Function.comp_def, List.map_id'] at hdriven hrequests hresults
  exact ⟨calls, (w.ask_serves [] requests).trans hdriven, hrequests, hresults⟩

end World

end EsModule.Loader
