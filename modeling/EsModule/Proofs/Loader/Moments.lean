import EsModule.Loader.Session
import EsModule.Proofs.Loader.Slots

/-!
# What can happen to a loader

While bodies run, they import other modules, and whoever drives a loader may do anything that it
allows in between. A *moment* is a loader together with the bodies that are running, and `Step` says
how one moment can follow another: a body is started or ends, or something happens that no body has
to do with. Nothing is said about what bodies do, so the steps allow every behaviour of bodies, with
their errors thrown, caught or forwarded. That all the loader does is made of such steps is shown
from the bottom up, from one action of a body (`Body.run_performs`) and an import
(`importAt_performs`) to a command of a host (`Session.step_performs`).
-/

namespace EsModule.Loader

open Relation

/-! ## Steps that no body has to do with -/

/-- A step of compiling modules. -/
inductive GraphStep (site : Site) (g : Graph) : Graph → Prop where
  /-- A task takes a step. -/
  | task {g' : Graph} (h : Graph.TaskStep site g g') : GraphStep site g g'
  /-- A host asks for a module. -/
  | ensure (storeId : String) (request : Url) : GraphStep site g (g.ensure storeId request none).2
  /-- A host gives some code. -/
  | provide (task : Task) : GraphStep site g (g.newTask task).2
  /-- A host gives a compiled module. -/
  | preload (resource : Resource) : GraphStep site g (g.preload resource).2

/-- A step that changes no record but for its readers. -/
inductive HeapStep (h : Heap) : Heap → Prop where
  | install (r : Nat) (entries : List (String × Reader)) : HeapStep h (h.install r entries)
  | newFrame (loader : Nat) : HeapStep h (h.newFrame loader).2
  | setHandle (frame : Nat) (handle : String) (r : Nat) : HeapStep h (h.setHandle frame handle r)
  | store (c : Cell) (v : Value) : HeapStep h (h.store c v)
  | namespaceOf (r : Nat) : HeapStep h (h.namespaceOf r).2

/-- A step in which no body is started or ends. -/
inductive World.Quiet (w : World) : World → Prop where
  | graph {g : Graph} (h : GraphStep w.site w.graph g) : Quiet w { w with graph := g }
  | heap {heap : Heap} (h : HeapStep w.heap heap) : Quiet w { w with heap := heap }
  /-- Records that nothing holds are given up. -/
  | sweep (held : List Nat) : Quiet w (w.sweep held)
  /-- What is around the loader changes. -/
  | around (fetcher : Fetcher) (bodies : Table Body) (runs : Nat) (log : List LogEntry)
    (kept : Table Capabilities) : Quiet w
      { w with fetcher := fetcher, bodies := bodies, runs := runs, log := log, kept := kept }

/-! ## Steps -/

/-- One execution of a module body. -/
structure Run where
  /-- The module. -/
  storeId : String
  /-- Its record. -/
  record : Nat
  /-- Whether the record was registered before the body was started. -/
  isRegistered : Bool
deriving DecidableEq

/-- A loader while bodies are running. -/
structure Moment where
  /-- The loader and what is around it. -/
  world : World
  /-- The bodies that are running. -/
  running : List Run

/-- What happens to a module with a registered record. -/
inductive Event where
  /-- Its body is started. -/
  | started (storeId : String) (r : Nat)
  /-- Its body ends. -/
  | ended (storeId : String) (r : Nat) (result : Except LoadError Unit)

/-- The module to which something happens. -/
def Event.storeId : Event → String
  | .started storeId _ | .ended storeId _ _ => storeId

/-- What happens when a run ends: nothing that is taken down, if its record was not registered. -/
def Run.ending (run : Run) (result : Except LoadError Unit) : List Event :=
  if run.isRegistered then [.ended run.storeId run.record result] else []

/-- Registers a record for a compiled module that is about to run. -/
def World.enrol (w : World) (storeId : String) (resource : Resource) : Nat × World :=
  let (r, heap) := w.heap.newRecord storeId resource.exports
  (r, { w with heap := heap, modules := w.modules.insert storeId r })

/-- Makes a record for a compiled module that is about to run, and does not register it. -/
def World.detach (w : World) (resource : Resource) : Nat × World :=
  let (r, heap) := w.heap.newRecord resource.storeId resource.exports
  (r, { w with heap := heap })

/-- How one moment can follow another, and what happens to registered records meanwhile. -/
inductive Step : Moment → List Event → Moment → Prop where
  | quiet {w w' : World} (h : w.Quiet w') (running : List Run) : Step ⟨w, running⟩ [] ⟨w', running⟩
  /-- The body of a compiled module is started, which has no registered record. -/
  | start {w : World} {s : String} {resource : Resource} (hnew : w.modules[s]? = none)
    (hready : w.graph.slots[s]? = some (.ready resource)) (running : List Run) :
    Step ⟨w, running⟩ [.started s (w.enrol s resource).1]
      ⟨(w.enrol s resource).2, ⟨resource.storeId, (w.enrol s resource).1, true⟩ :: running⟩
  /-- The body of a module without a slot is started. -/
  | startInline (w : World) (resource : Resource) (running : List Run) :
    Step ⟨w, running⟩ []
      ⟨(w.detach resource).2, ⟨resource.storeId, (w.detach resource).1, false⟩ :: running⟩
  /-- One of the bodies that are running ends, in any way. -/
  | finish {w : World} {running : List Run} {run : Run} (h : run ∈ running)
    (result : Except LoadError Unit) : Step ⟨w, running⟩ (run.ending result)
      ⟨w.concludeRun run.storeId run.record result, running.erase run⟩

/-- Any steps from a moment to another one, and what happens to registered records meanwhile, with
the latest event first. -/
inductive Runs (m : Moment) : List Event → Moment → Prop where
  | refl : Runs m [] m
  | step {history events : List Event} {m' m'' : Moment} (h : Runs m history m')
    (hs : Step m' events m'') : Runs m (events ++ history) m''

theorem Runs.trans {m m' m'' : Moment} {history later : List Event} (h : Runs m history m')
    (h' : Runs m' later m'') : Runs m (later ++ history) m'' := by
  induction h' with
  | refl => exact h
  | step _ hs ih =>
    rw [List.append_assoc]
    exact .step ih hs

/-! ## What steps make up -/

/-- One state of a loader comes from another by steps in which all bodies that are started end. -/
def Performs (w w' : World) : Prop :=
  ∀ running, ∃ history, Runs ⟨w, running⟩ history ⟨w', running⟩

namespace Performs

variable {w w' w'' : World}

theorem refl (w : World) : Performs w w := fun _ => ⟨[], .refl⟩

theorem trans (h : Performs w w') (h' : Performs w' w'') : Performs w w'' := by
  intro running
  obtain ⟨history, hruns⟩ := h running
  obtain ⟨later, hlater⟩ := h' running
  exact ⟨later ++ history, hruns.trans hlater⟩

theorem quiet (h : w.Quiet w') : Performs w w' :=
  fun running => ⟨[], .step .refl (.quiet h running)⟩

theorem around (w : World) (fetcher : Fetcher) (bodies : Table Body) (runs : Nat)
    (log : List LogEntry) (kept : Table Capabilities) : Performs w
      { w with fetcher := fetcher, bodies := bodies, runs := runs, log := log, kept := kept } :=
  quiet (.around fetcher bodies runs log kept)

theorem heap {h : Heap} (hs : ReflTransGen HeapStep w.heap h) :
    Performs w { w with heap := h } := by
  induction hs with
  | refl => exact .refl w
  | tail _ hstep ih => exact ih.trans (quiet (w := { w with heap := _ }) (.heap hstep))

theorem graph {g : Graph} (hs : GraphStep w.site w.graph g) : Performs w { w with graph := g } :=
  quiet (.graph hs)

theorem tasks {g : Graph} (hs : Graph.TaskSteps w.site w.graph g) :
    Performs w { w with graph := g } := by
  induction hs with
  | refl => exact .refl w
  | tail _ hstep ih => exact ih.trans (graph (w := { w with graph := _ }) (.task hstep))

end Performs

/-! ## Bodies -/

theorem Heap.openNamespace_steps (h : Heap) (loader r : Nat) :
    ReflTransGen HeapStep h (h.openNamespace loader r).2 := by
  unfold openNamespace
  split
  · exact .single (.namespaceOf r)
  · exact .refl

theorem Heap.read_steps (bound r : Nat) (name : String) (h : Heap) :
    ReflTransGen HeapStep h (read bound r name h).2 := by
  induction bound generalizing r name with
  | zero => exact .refl
  | succ bound ih =>
    unfold read
    split
    · exact .refl
    split <;> try exact .refl
    · split
      · exact ih _ _
      · exact .refl
    · split
      · exact h.openNamespace_steps _ _
      · exact .refl

theorem Heap.get_steps (h : Heap) (r : Nat) (name : String) :
    ReflTransGen HeapStep h (h.get r name).2 :=
  read_steps _ r name h

namespace World

variable {caps : Capabilities} {importModule : Importer}

theorem installExports_performs (w : World) (frame : Nat) (entries : List (String × Source)) :
    Performs w (w.installExports caps frame entries).2 := by
  unfold installExports
  split
  · exact .heap (.single (.install _ _))
  · exact .refl w

theorem importFor_performs (h : ∀ id w, Performs w (importModule id w).2) (w : World) (frame : Nat)
    (specifier handle : String) :
    Performs w (w.importFor importModule caps frame specifier handle).2 := by
  unfold importFor
  split
  · exact .refl w
  rename_i url _
  split
  · have himport := h url.text w
    split
    · rename_i heq
      rw [heq] at himport
      exact himport.trans (.heap (.single (.setHandle frame handle _)))
    · rename_i heq
      rw [heq] at himport
      exact himport
  · exact .refl w

theorem readFor_performs (w : World) (frame : Nat) (handle name : String) :
    Performs w (w.readFor frame handle name).2 := by
  unfold readFor
  split
  · exact .heap (Heap.read_steps _ _ _ _)
  · exact .refl w

theorem writeFor_performs (w : World) (frame : Nat) (handle name : String) :
    Performs w (w.writeFor frame handle name).2 := by
  unfold writeFor
  split <;> exact .refl w

theorem openFor_performs (w : World) (frame : Nat) (handle : String) :
    Performs w (w.openFor caps frame handle).2 := by
  unfold openFor
  split
  · exact .heap (Heap.openNamespace_steps _ _ _)
  · exact .refl w

end World

/-- A body is made of steps if its imports are. -/
theorem Body.run_performs {importModule : Importer} (h : ∀ id w, Performs w (importModule id w).2)
    (caps : Capabilities) (frame : Nat) (body : Body) (w : World) :
    Performs w (body.run importModule caps frame w).2 := by
  induction body generalizing w with
  | finish => exact .refl w
  | installExports entries _ ih => exact (w.installExports_performs frame entries).trans (ih _ _)
  | importModule specifier handle _ ih =>
    exact (w.importFor_performs h frame specifier handle).trans (ih _ _)
  | read handle name _ ih => exact (w.readFor_performs frame handle name).trans (ih _ _)
  | write handle name _ ih => exact (w.writeFor_performs frame handle name).trans (ih _ _)
  | openNamespace handle _ ih => exact (w.openFor_performs frame handle).trans (ih _ _)
  | store name v _ ih => exact (Performs.heap (.single (.store _ v))).trans (ih _)
  | address _ ih => exact ih _ w
  | keep _ ih => exact (Performs.around w _ _ _ _ _).trans (ih _)
  | log entry _ ih => exact (Performs.around w _ _ _ _ _).trans (ih _)

namespace World

variable {importModule : Importer}

theorem runBody_performs (h : ∀ id w, Performs w (importModule id w).2) (w : World)
    (caps : Capabilities) (body : Body) : Performs w (w.runBody importModule caps body).2 :=
  (Performs.heap (.single (.newFrame caps.loader))).trans (body.run_performs h caps _ _)

theorem runModule_performs (h : ∀ id w, Performs w (importModule id w).2) (w : World)
    (caps : Capabilities) : Performs w (w.runModule importModule caps).2 := by
  unfold runModule
  split
  · exact .refl w
  · exact (Performs.around w _ _ _ _ _).trans (runBody_performs h _ caps _)

/-- Running a module takes steps if its body is taken for running, and takes down how it ended. -/
theorem execute_runs (h : ∀ id w, Performs w (importModule id w).2) (w : World)
    (resource : Resource) (r : Nat) (isRegistered : Bool) (running : List Run) :
    ∃ history, Runs ⟨w, ⟨resource.storeId, r, isRegistered⟩ :: running⟩ history
      ⟨(w.execute importModule resource r).2, running⟩ := by
  let run : Run := ⟨resource.storeId, r, isRegistered⟩
  -- whatever the body does, it is the first of the running ones when it ends
  obtain ⟨history, hruns⟩ := runModule_performs h w
    ⟨w.heap.loader.getD 0, r, resource.storeId, resource.realUrl⟩ (run :: running)
  have hfinish := hruns.step (.finish (List.mem_cons_self (a := run))
    (w.runModule importModule
      ⟨w.heap.loader.getD 0, r, resource.storeId, resource.realUrl⟩).1)
  rw [List.erase_cons_head] at hfinish
  exact ⟨_, hfinish⟩

theorem start_performs (h : ∀ id w, Performs w (importModule id w).2) {w : World} {s : String}
    {resource : Resource} (hnew : w.modules[s]? = none)
    (hready : w.graph.slots[s]? = some (.ready resource)) :
    Performs w (w.start importModule s resource).2 := by
  intro running
  obtain ⟨history, hruns⟩ :=
    execute_runs h (w.enrol s resource).2 resource (w.enrol s resource).1 true running
  exact ⟨_, (Runs.step .refl (.start hnew hready running)).trans hruns⟩

end World

/-- An import is made of steps. -/
theorem importAt_performs (depth : Nat) (id : String) (w : World) :
    Performs w (importAt depth id w).2 := by
  -- the depth falls from an import to those inside of the body that it starts
  induction depth generalizing id w with
  | zero => exact .refl w
  | succ depth ih =>
    unfold importAt
    split
    · exact .refl w
    split
    · split <;> exact .refl w
    · rename_i hnew hready
      exact World.start_performs ih hnew hready
    · exact .refl w
    · exact .refl w

namespace World

theorem importModule_performs (w : World) (id : String) : Performs w (w.importModule id).2 :=
  importAt_performs _ id w

theorem runInline_performs (w : World) (resource : Resource) :
    Performs w (w.runInline resource).2 := by
  intro running
  obtain ⟨history, hruns⟩ := execute_runs (importAt_performs w.importDepth) (w.detach resource).2
    resource (w.detach resource).1 false running
  exact ⟨_, (Runs.step .refl (.startInline w resource running)).trans hruns⟩

theorem runWith_performs (w : World) (caps : Capabilities) (body : Body) :
    Performs w (w.runWith caps body).2 :=
  runBody_performs (importAt_performs _) w caps body

/-! ## Calls -/

theorem beginCompile_performs (w : World) (store request : Url) (goal : Goal) :
    Performs w (w.beginCompile store request goal).2 := by
  have hensure := Performs.graph (w := w) (.ensure store.text request)
  unfold beginCompile
  generalize w.graph.ensure store.text request none = asked at hensure
  obtain ⟨await, g⟩ := asked
  cases await <;> cases goal <;> exact hensure

theorem runTarget_performs (w : World) (target : Target) : Performs w (w.runTarget target).2 := by
  unfold runTarget
  cases target with
  | module storeId =>
    have hrun := w.importModule_performs storeId
    dsimp only
    split
    · exact hrun
    · exact hrun.trans (.heap (.single (.namespaceOf _)))
  | code resource =>
    have hrun := w.runInline_performs resource
    dsimp only
    split
    · exact hrun
    · exact hrun.trans (.heap (.single (.namespaceOf _)))

theorem beginImport_performs (w : World) (id : String) (url : Option String) :
    Performs w (w.beginImport id url).2 := by
  unfold beginImport
  split
  · exact .refl w
  split
  · exact .refl w
  split
  · exact w.runTarget_performs _
  split
  · exact .refl w
  · exact w.beginCompile_performs _ _ _

theorem beginCode_performs (w : World) (code id : String) (url : Option String) :
    Performs w (w.beginCode code id url).2 := by
  unfold beginCode
  split
  · exact .refl w
  split
  · exact .refl w
  split
  · exact .refl w
  split
  · exact .refl w
  · exact .graph (.provide _)

theorem beginTarget_performs (w : World) (target : Except LoadError (Url × Url)) :
    Performs w (w.beginTarget target).2 := by
  cases target with
  | ok target => exact w.beginImport_performs _ _
  | error e => exact .refl w

theorem begin_performs (w : World) (request : Request) : Performs w (w.begin request).2 := by
  cases request with
  | compile id url =>
    unfold World.begin
    dsimp only
    split
    · exact .refl w
    split
    · exact .refl w
    · exact w.beginCompile_performs _ _ _
  | importUrl id url => exact w.beginImport_performs id url
  | importCode code id url => exact w.beginCode_performs code id url
  | importDynamic specifier importer => exact w.beginTarget_performs _
  | importWith caps specifier => exact w.beginTarget_performs _

theorem ask_performs (w : World) (depth t : Nat) : Performs w (w.ask depth t).2 :=
  .tasks ((Graph.ask_drives w.site depth []).steps t w.graph)

theorem askAll_steps {site : Site} {asking : List Nat}
    {ask : Nat → Graph → Option Outcome × Graph} (h : Graph.Drives site asking ask)
    (tasks : List Nat) (g : Graph) : Graph.TaskSteps site g (Graph.askAll ask tasks g).2 := by
  induction tasks generalizing g with
  | nil => exact .refl
  | cons t tasks ih =>
    have hask := h.steps t g
    unfold Graph.askAll
    split
    · rename_i heq
      rw [heq] at hask
      exact hask
    · rename_i outcome g' _ heq
      rw [heq] at hask
      have hrest := ih g'
      split
      all_goals
        rename_i heq'
        rw [heq'] at hrest
        exact hask.trans hrest

theorem askAll_performs (w : World) (depth : Nat) (tasks : List Nat) :
    Performs w (w.askAll depth tasks).2 :=
  .tasks (askAll_steps (Graph.ask_drives w.site depth []) tasks w.graph)

theorem advance_performs (w : World) (depth : Nat) (call : Call) :
    Performs w (w.advance depth call).2 := by
  cases call with
  | asked request => exact w.begin_performs request
  | compiling t goal =>
    have hask := w.ask_performs depth t
    unfold advance
    dsimp only
    split
    all_goals
      rename_i heq
      rw [heq] at hask
      exact hask
  | settling tasks roots target =>
    have hask := w.askAll_performs depth tasks
    unfold advance
    dsimp only
    split
    · rename_i heq
      rw [heq] at hask
      exact hask
    · rename_i heq
      rw [heq] at hask
      exact hask
    · rename_i w' heq
      rw [heq] at hask
      split
      · exact hask.trans (w'.runTarget_performs target)
      · exact hask
  | done result => exact .refl w

theorem poll_performs (depth steps : Nat) (call : Call) (w : World) :
    Performs w (poll depth steps call w).2 := by
  induction steps generalizing call w with
  | zero => exact .refl w
  | succ steps ih =>
    have hstep := w.advance_performs depth call
    unfold poll
    split
    · rename_i heq
      rw [heq] at hstep
      exact hstep.trans (ih _ _)
    · rename_i heq
      rw [heq] at hstep
      exact hstep

theorem pollAll_performs (bound : Nat) (calls : List Call) (w : World) :
    Performs w (pollAll bound calls w).2 := by
  induction calls generalizing w with
  | nil => exact .refl w
  | cons call calls ih => exact (poll_performs bound bound call w).trans (ih _)

theorem drive_performs (bound rounds : Nat) (calls : List Call) (w : World) :
    Performs w (drive bound rounds calls w).2 := by
  induction rounds generalizing calls w with
  | zero => exact .refl w
  | succ rounds ih =>
    unfold drive
    split
    · exact .refl w
    · exact (pollAll_performs bound calls w).trans (ih _ _)

/-- What hosts ask for together is made of steps. -/
theorem request_performs (w : World) (requests : List Request) :
    Performs w (w.request requests).2 :=
  drive_performs _ _ _ w

end World

/-! ## Commands -/

/-- Whether a command leaves the loader open and does not make it forget anything. -/
def Command.keepsLoader : Command → Bool
  | .openLoader _ | .closeLoader | .teardown => false
  | _ => true

namespace Session

theorem world_keepResult (s : Session) (name : String)
    (result : Option (Except LoadError (Option Namespace))) :
    (s.keepResult name result).2.world = s.world := by
  unfold keepResult
  split <;> rfl

theorem world_keepResults (s : Session)
    (results : List (String × Option (Except LoadError (Option Namespace)))) :
    (s.keepResults results).2.world = s.world := by
  induction results generalizing s with
  | nil => rfl
  | cons result results ih => exact (ih _).trans (world_keepResult s _ _)

theorem request_performs (s : Session) (requests : List (Request × String)) :
    Performs s.world (s.request requests).2.world := by
  unfold request
  dsimp only
  rw [world_keepResults]
  exact s.world.request_performs _

theorem getProperty_performs (s : Session) (n : Namespace) (key : String) :
    Performs s.world (s.getProperty n key).2.world := by
  refine Performs.heap (h := (s.world.heap.getProperty n key).2) ?_
  unfold Heap.getProperty
  split
  · split
    · exact Heap.get_steps _ _ _
    · exact .refl
  · exact .refl

theorem preload_performs (s : Session) (resource : Resource) :
    Performs s.world (s.preload resource).2.world :=
  .graph (.preload resource)

/-- A command to an open loader is made of steps. -/
theorem runOpen?_performs {s : Session} {c : Command} {result : Answer × Session}
    (hc : c.keepsLoader = true) (h : s.runOpen? c = some result) :
    Performs s.world result.2.world := by
  cases c
  case request requests together =>
    have hrequest := s.request_performs requests
    simp only [runOpen?] at h
    generalize s.request requests = answered at h hrequest
    cases h
    exact hrequest
  case importModule id name =>
    have himport := s.world.importModule_performs id
    simp only [runOpen?] at h
    split at h
    all_goals
      rename_i heq
      rw [heq] at himport
      cases h
      exact himport
  case namespaceOf record name =>
    obtain ⟨r, _, h⟩ := Option.bind_eq_some_iff.mp h
    cases h
    exact .heap (.single (.namespaceOf r))
  case preloadSaved name =>
    obtain ⟨resource, _, h⟩ := Option.bind_eq_some_iff.mp h
    cases h
    exact s.preload_performs resource
  case preload resource =>
    cases resource with
    | none =>
      cases h
      exact .refl s.world
    | some resource =>
      cases h
      exact s.preload_performs resource
  case teardown => cases hc
  case currentRecord | resource | save =>
    simp only [runOpen?] at h
    split at h <;> (cases h; exact .refl s.world)
  all_goals
    cases h
    try exact .refl s.world

/-- A command that needs no loader is made of steps. -/
theorem runClosed?_performs {s : Session} {c : Command} {result : Answer × Session}
    (hc : c.keepsLoader = true) (h : s.runClosed? c = some result) :
    Performs s.world result.2.world := by
  cases c
  case openLoader | closeLoader => cases hc
  case requestWith id specifier name =>
    simp only [runClosed?] at h
    obtain ⟨caps, _, h⟩ := Option.bind_eq_some_iff.mp h
    have hrequest := s.request_performs [(.importWith caps specifier, name)]
    -- the calls are driven very often, so nothing must look into them
    generalize s.request [(.importWith caps specifier, name)] = answered at h hrequest
    cases h
    exact hrequest
  case getProperty name key =>
    obtain ⟨n, _, h⟩ := Option.bind_eq_some_iff.mp h
    cases h
    exact s.getProperty_performs n key
  case property space key name =>
    obtain ⟨n, _, h⟩ := Option.bind_eq_some_iff.mp h
    have hget := s.getProperty_performs n key
    dsimp only at h
    split at h <;> (cases h; exact hget)
  case sameValue a keyA b keyB =>
    obtain ⟨nA, _, h⟩ := Option.bind_eq_some_iff.mp h
    obtain ⟨nB, _, h⟩ := Option.bind_eq_some_iff.mp h
    cases h
    exact (s.getProperty_performs nA keyA).trans (getProperty_performs _ nB keyB)
  case getExport name key =>
    obtain ⟨r, _, h⟩ := Option.bind_eq_some_iff.mp h
    rw [← Option.some.inj h]
    exact .heap (s.world.heap.get_steps r key)
  case store c v =>
    cases h
    exact Performs.heap (.single (.store c v))
  case serve | bodies =>
    cases h
    exact .around _ _ _ _ _ _
  case runWith id body =>
    obtain ⟨caps, _, h⟩ := Option.bind_eq_some_iff.mp h
    cases h
    exact s.world.runWith_performs caps body
  case setProperty | hasProperty | showNamespace | setExport | showRecord =>
    obtain ⟨_, _, h⟩ := Option.bind_eq_some_iff.mp h
    cases h
    exact .refl s.world
  case sameNamespace | sameRecord =>
    obtain ⟨_, _, h⟩ := Option.bind_eq_some_iff.mp h
    obtain ⟨_, _, h⟩ := Option.bind_eq_some_iff.mp h
    cases h
    exact .refl s.world
  case recordBehind space name =>
    obtain ⟨n, _, h⟩ := Option.bind_eq_some_iff.mp h
    split at h <;> (cases h; exact .refl s.world)
  all_goals
    cases h
    try exact .refl s.world

/-- A command is made of steps, unless it takes the loader away or makes it forget. -/
theorem step_performs {s : Session} {c : Command} (hc : c.keepsLoader = true) :
    Performs s.world (s.step c).2.2.world := by
  have hrun : Performs s.world (s.run c).2.world := by
    unfold run
    split
    · rename_i result h
      exact runClosed?_performs hc h
    split
    · rename_i result h
      split at h
      · exact runOpen?_performs hc h
      · cases h
    · exact .refl s.world
  exact (hrun.trans (.around _ _ _ _ [] _)).trans (.quiet (.sweep _))

end Session

end EsModule.Loader
