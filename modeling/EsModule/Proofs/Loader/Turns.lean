import EsModule.Proofs.Loader.Service

/-!
# What can happen to the graph of a loader

`Turn` lists what can happen to the graph of modules until the loader is torn down, one small thing
at a time and in any order: a task takes a step, somebody asks for a module, a host gives some code
or a compiled module, and whoever waits for a task goes away. Nothing is said about who does so and
when. That a loader with many calls does nothing else to its graph is shown here
(`Serves.turns`): bodies do not touch the graph at all, and calls only ask for modules, give
code and drive tasks on, whether they come to an end or are dropped.
-/

namespace EsModule.Loader

open Relation

/-! ## Turns -/

namespace Graph

/-- The task of some code that a host gives. Its text is there already. -/
def inlineTask (storeId : String) (served : Url) (code : String) : Task :=
  ⟨storeId, served, true, .fetching 0 (.ok ⟨200, served, code⟩)⟩

/-- What can happen to a graph next. -/
inductive Turn (g : Graph) : Graph → Prop where
  /-- A task takes a step. -/
  | task {site : Site} {g' : Graph} (h : TaskStep site g g') : Turn g g'
  /-- Somebody asks for a module: a host, or a module that would wait for it. -/
  | ensure (storeId : String) (request : Url) (waiter : Option String) :
    Turn g (g.ensure storeId request waiter).2
  /-- A host gives some code, whose module has no slot. -/
  | provide (storeId : String) (served : Url) (code : String) :
    Turn g (g.newTask (inlineTask storeId served code)).2
  /-- A host gives a compiled module. -/
  | preload (resource : Resource) : Turn g (g.preload resource).2
  /-- Some waits end, because those who wait are dropped. -/
  | drop {waits : List Wait} (h : ∀ a ∈ waits, a ∈ g.waits) : Turn g { g with waits := waits }

/-- Some turns. -/
abbrev Turns : Graph → Graph → Prop := ReflTransGen Turn

/-- What holds of a graph stays true whatever is done for calls: a task takes a step, a host asks for
a module, or a host gives some code. -/
structure Stable (site : Site) (P : Graph → Prop) : Prop where
  task : ∀ {g g' : Graph}, TaskStep site g g' → P g → P g'
  ensure : ∀ (g : Graph) (storeId : String) (request : Url), P g →
    P (g.ensure storeId request none).2
  provide : ∀ (g : Graph) (storeId : String) (served : Url) (code : String), P g →
    P (g.newTask (inlineTask storeId served code)).2

theorem Stable.tasks {site : Site} {P : Graph → Prop} (hP : Stable site P) {g g' : Graph}
    (h : TaskSteps site g g') (hg : P g) : P g' := by
  induction h with
  | refl => exact hg
  | tail _ hstep ih => exact hP.task hstep ih

theorem stable_turns (site : Site) (g : Graph) : Stable site (Turns g) where
  task hstep h := h.tail (.task hstep)
  ensure _ storeId request h := h.tail (.ensure storeId request none)
  provide _ storeId served code h := h.tail (.provide storeId served code)

end Graph

/-! ## Bodies leave the graph as it is -/

theorem keeps_graph {importModule : Importer}
    (h : ∀ id w, (importModule id w).2.graph = w.graph) (g : Graph) :
    importModule.Keeps (fun w => w.graph = g) where
  around hw hgraph _ := hgraph.trans hw
  imported id _ hw := (h id _).trans hw

namespace World

variable {importModule : Importer} (h : ∀ id w, (importModule id w).2.graph = w.graph)
include h

theorem graph_execute (w : World) (resource : Resource) (r : Nat) :
    (w.execute importModule resource r).2.graph = w.graph :=
  (concludeRun_other _ _ _ _).1.trans ((keeps_graph h w.graph).runModule rfl _)

theorem graph_start (w : World) (s : String) (resource : Resource) :
    (w.start importModule s resource).2.graph = w.graph :=
  graph_execute h (w.enrol s resource).2 resource (w.enrol s resource).1

theorem graph_runBody (w : World) (caps : Capabilities) (body : Body) :
    (w.runBody importModule caps body).2.graph = w.graph :=
  (keeps_graph h w.graph).run (w := { w with heap := (w.heap.newFrame caps.loader).2 }) _ body rfl

end World

theorem graph_importAt (depth : Nat) (id : String) (w : World) :
    (importAt depth id w).2.graph = w.graph := by
  induction depth generalizing id w with
  | zero => rfl
  | succ depth ih =>
    unfold importAt
    split
    · rfl
    split
    · split <;> rfl
    · exact World.graph_start ih w _ _
    · rfl
    · rfl

namespace World

theorem graph_runInline (w : World) (resource : Resource) :
    (w.runInline resource).2.graph = w.graph :=
  graph_execute (graph_importAt _) (w.detach resource).2 resource (w.detach resource).1

theorem graph_runTarget (w : World) (target : Target) :
    (w.runTarget target).2.graph = w.graph := by
  unfold runTarget
  cases target with
  | module storeId =>
    have hrun := graph_importAt w.importDepth storeId w
    dsimp only [importModule]
    split <;> exact hrun
  | code resource =>
    have hrun := w.graph_runInline resource
    dsimp only
    split <;> exact hrun

/-! ## What calls do -/

section

variable {w : World} {P : Graph → Prop} (hP : Graph.Stable w.site P) (hg : P w.graph)
include hP hg

theorem beginCompile_stable (store request : Url) (goal : Goal) :
    P (w.beginCompile store request goal).2.graph := by
  have hensure : P (w.graph.ensure store.text request none).2 := hP.ensure _ _ _ hg
  unfold beginCompile
  generalize w.graph.ensure store.text request none = asked at hensure
  obtain ⟨await, g⟩ := asked
  cases await <;> cases goal <;> exact hensure

theorem beginImport_stable (id : String) (url : Option String) :
    P (w.beginImport id url).2.graph := by
  unfold beginImport
  split
  · exact hg
  split
  · exact hg
  split
  · rw [graph_runTarget]
    exact hg
  split
  · exact hg
  · exact beginCompile_stable hP hg _ _ _

theorem beginCode_stable (code id : String) (url : Option String) :
    P (w.beginCode code id url).2.graph := by
  unfold beginCode
  split
  · exact hg
  split
  · exact hg
  split
  · exact hg
  split
  · exact hg
  · exact hP.provide _ _ _ _ hg

theorem beginTarget_stable (target : Except LoadError (Url × Url)) :
    P (w.beginTarget target).2.graph := by
  cases target with
  | ok target => exact beginImport_stable hP hg _ _
  | error e => exact hg

theorem begin_stable (request : Request) : P (w.begin request).2.graph := by
  cases request with
  | compile id url =>
    unfold World.begin
    dsimp only
    split
    · exact hg
    split
    · exact hg
    · exact beginCompile_stable hP hg _ _ _
  | importUrl id url => exact beginImport_stable hP hg id url
  | importCode code id url => exact beginCode_stable hP hg code id url
  | importDynamic specifier importer => exact beginTarget_stable hP hg _
  | importWith caps specifier => exact beginTarget_stable hP hg _

/-- A step of a call keeps what is stable under all that is done for calls. -/
theorem advance_stable (depth : Nat) (call : Call) : P (w.advance depth call).2.graph := by
  cases call with
  | asked request => exact begin_stable hP hg request
  | compiling t goal =>
    have hask : P (w.ask depth t).2.graph :=
      hP.tasks ((Graph.ask_drives w.site depth []).steps t w.graph) hg
    unfold advance
    dsimp only
    split
    all_goals
      rename_i heq
      rw [heq] at hask
      exact hask
  | settling tasks roots target =>
    have hask : P (w.askAll depth tasks).2.graph :=
      hP.tasks (askAll_steps (Graph.ask_drives w.site depth []) tasks w.graph) hg
    unfold advance
    dsimp only
    split
    all_goals
      rename_i heq
      rw [heq] at hask
    · exact hask
    · exact hask
    · split
      · rw [graph_runTarget]
        exact hask
      · exact hask
  | done result => exact hg

end

end World

/-! ## Services take turns -/

theorem Service.Step.turns {s s' : Service} (h : Service.Step s s') :
    Graph.Turns s.world.graph s'.world.graph := by
  cases h with
  | advance w before request call after depth =>
    exact World.advance_stable (Graph.stable_turns w.site w.graph) .refl depth call
  | drop w before call after h => exact .single (.drop h)
  | task h => exact .single (.task h)
  | importModule w id => exact graph_importAt w.importDepth id w ▸ .refl
  | runWith w caps body =>
    exact World.graph_runBody (graph_importAt w.importDepth) w caps body ▸ .refl
  | preload w resource => exact .single (.preload resource)
  | ask | namespaceOf | get | store | around | sweep => exact .refl

/-- Whatever a loader does that serves many calls, its graph takes turns. -/
theorem Serves.turns {s s' : Service} (h : Serves s s') :
    Graph.Turns s.world.graph s'.world.graph := by
  induction h with
  | refl => exact .refl
  | tail _ hstep ih => exact ih.trans hstep.turns

end EsModule.Loader
