import EsModule.Proofs.Loader.Apart
import EsModule.Proofs.Loader.Clean
import EsModule.Proofs.Loader.Confined

/-!
# Code does not touch the module of its own id

Code that a host gives is compiled under a store id, and so is the module of that store id. Nothing
tells the two apart but that the task of the code has no slot, and that its record is not
registered. Still, a call to run some code leaves the module of the same store id alone, whatever
comes of it (`importCode_leavesAlone`), if neither the static graph of the code nor the bodies that
may be executed lead to that module.

While the code is compiled, the call stays inside the static graph (`Graph.Confined`), and while it
runs, apart from what is not imported (`World.Apart`). `Call.Alone` says so of each stage of the
call.
-/

namespace EsModule.Loader

open EsModule.Compile Relation

/-! ## States of a loader -/

namespace World

variable {w w' : World}

/-- What holds of a loader at every moment. -/
structure Ordered (w : World) : Prop where
  sound : w.Sound
  assigned : w.graph.Assigned
  awaits : w.graph.AwaitsNamed

/-- All tasks have come to an end. -/
def AllDone (w : World) : Prop :=
  ∀ (t : Nat) (task : Task), w.graph.tasks[t]? = some task → ∃ o, task.progress = .done o

/-- What hosts may have made of a loader: they opened it, made requests of it and let it forget, in
any order. It is opened or made to forget when its tasks have come to an end. -/
inductive Reachable : World → Prop where
  | closed (fetcher : Fetcher) (bodies : Table Body) : Reachable (.closed fetcher bodies)
  | opened {w w' : World} {config : Config} (h : Reachable w) (hdone : w.AllDone)
    (hopen : w.reopen config = (.ok (), w')) : Reachable w'
  | served {w : World} {service : Service} (h : Reachable w) (hserves : Serves ⟨w, []⟩ service) :
    Reachable service.world
  | forgot {w : World} (h : Reachable w) (hdone : w.AllDone) : Reachable w.teardown

/-- A loader that knows nothing, and in which nothing is under way. -/
theorem Ordered.fresh (hclean : w.graph.Clean) (hslots : ∀ s : String, w.graph.slots[s]? = none)
    (hmodules : ∀ s : String, w.modules[s]? = none) (hnamespaces : w.heap.namespaces = [])
    (hhandles : ∀ frame handle r, w.heap.handle frame handle = .ok r → r < w.heap.records.size) :
    w.Ordered where
  sound := {
    named := fun s r hr => nomatch (hslots s).symm.trans hr
    owned := hclean.assigned.owned
    heap := by
      refine ⟨hhandles, ?_, ⟨?_, ?_, ?_⟩, ?_⟩
      all_goals
        rw [hnamespaces]
        simp
    registered := fun s r hr => nomatch (hmodules s).symm.trans hr }
  assigned := hclean.assigned
  awaits t task analysis ht hwaiting := by
    obtain ⟨o, ho⟩ := hclean.done t task ht
    exact nomatch hwaiting.symm.trans ho

theorem AllDone.clean (hdone : w.AllDone) : w.graph.clear.Clean where
  done := hdone
  settled _ _ hs := nomatch Std.TreeMap.getElem?_emptyc.symm.trans hs
  declared _ := Std.TreeMap.getElem?_emptyc
  waits := rfl

theorem Ordered.teardown (h : w.Ordered) (hdone : w.AllDone) : w.teardown.Ordered :=
  .fresh hdone.clean (fun _ => Std.TreeMap.getElem?_emptyc) (fun _ => Std.TreeMap.getElem?_emptyc)
    rfl h.sound.heap.handles

theorem Ordered.reopen (h : w.Ordered) (hdone : w.AllDone) {config : Config}
    (hopen : w.reopen config = (.ok (), w')) : w'.Ordered := by
  unfold World.reopen at hopen
  dsimp only at hopen
  split at hopen
  · cases hopen
  · cases hopen
    exact .fresh hdone.clean (fun _ => Std.TreeMap.getElem?_emptyc)
      (fun _ => Std.TreeMap.getElem?_emptyc) rfl h.sound.heap.handles

theorem ordered_closed (fetcher : Fetcher) (bodies : Table Body) :
    (World.closed fetcher bodies).Ordered :=
  .fresh Graph.clean_empty (fun _ => Std.TreeMap.getElem?_emptyc)
    (fun _ => Std.TreeMap.getElem?_emptyc) rfl (fun _ _ _ hr => nomatch hr)

theorem Reachable.ordered (h : w.Reachable) : w.Ordered := by
  induction h with
  | closed fetcher bodies => exact ordered_closed fetcher bodies
  | opened _ hdone hopen ih => exact ih.reopen hdone hopen
  | served _ hserves ih =>
    have hfits : Service.Fits ⟨_, []⟩ := ⟨ih.sound, nofun⟩
    obtain ⟨hassigned, hawaits⟩ := hserves.turns.awaitsNamed ih.assigned ih.awaits
    exact ⟨(hfits.serves hserves).1.sound, hassigned, hawaits⟩
  | forgot _ hdone ih => exact ih.teardown hdone

end World

/-! ## What is left alone -/

/-- What a call that runs some code leaves alone of the module with the same store id. -/
structure World.LeavesAlone (w : World) (s : String)
    (result : Except LoadError (Option Namespace)) (w' : World) : Prop where
  /-- The module stays compiled, absent or unknown as it was. -/
  slot : w'.graph.slots[s]? = w.graph.slots[s]?
  edges : w'.graph.edges[s]? = w.graph.edges[s]?
  /-- Nothing is declared in advance. Only a call that is refused at once changes nothing at all. -/
  declared : w'.graph.declared[s]? = none ∨ w' = w
  modules : w'.modules[s]? = w.modules[s]?
  record : ∀ r, w.modules[s]? = some r → w'.heap.record? r = w.heap.record? r
  /-- If its record has a namespace, then it is that one as before. -/
  space : ∀ r, w.modules[s]? = some r → ∀ n ∈ w.heap.namespaces, n.record = r →
    ∀ n', n'.record = r → (n' ∈ w'.heap.namespaces ↔ n' = n)
  /-- If not, none is made, unless a module that has run before hands on the record. -/
  unnamed : ∀ r, w.modules[s]? = some r → (∀ n ∈ w.heap.namespaces, n.record ≠ r) →
    ¬ w.Gets s r → ∀ n ∈ w'.heap.namespaces, n.record ≠ r
  /-- A call that succeeds gives the namespace of a record that was made by it, and so of none that
  was registered. -/
  own : ∀ space, result = .ok space → ∃ n, space = some n ∧ n ∈ w'.heap.namespaces ∧
    w.heap.records.size ≤ n.record ∧
    ∀ (a : String) (r : Nat), w.modules[a]? = some r → n.record ≠ r

namespace World

variable {w v : World} {s : String} {r : Response} {result : Except LoadError (Option Namespace)}

/-- A call that is refused changes nothing. -/
theorem LeavesAlone.refused (hs : w.Sound) (s : String) (e : LoadError) :
    w.LeavesAlone s (.error e) w where
  slot := rfl
  edges := rfl
  declared := .inr rfl
  modules := rfl
  record _ _ := rfl
  space _ _ _ hn hr _ hr' :=
    ⟨fun hn' => hs.heap.distinguishes.eq_of_record hn' hn (hr'.trans hr.symm), fun h => h ▸ hn⟩
  unnamed _ _ hunnamed _ := hunnamed
  own := nofun

/-- What is left alone by compiling and running the code. -/
theorem Apart.leavesAlone (ha : w.Apart s v) (hw : w.Sound) (hv : v.Sound)
    (himported : ¬ w.Imported s s) (h : Graph.Confined w.site w.graph s r v.graph) {o : Outcome}
    (hdone : v.graph.outcome? w.graph.tasks.size = some o)
    (hresult : ∀ space, result = .ok space → ∃ n, space = some n ∧ n ∈ v.heap.namespaces ∧
      w.heap.records.size ≤ n.record) : w.LeavesAlone s result v where
  slot := h.slot
  edges := h.edge
  declared := .inl (h.declared o hdone)
  modules := ha.others s himported
  record r hr := ha.heap.older r (hw.lt_size hr)
  space r _ n hn hr n' hr' := by
    have hkept := ha.heap.namespaces n hn
    refine ⟨fun hn' => ?_, fun heq => heq ▸ hkept⟩
    exact hv.heap.distinguishes.eq_of_record hn' hkept (hr'.trans hr.symm)
  unnamed r hr hunnamed hgets n hn hrecord := by
    -- the namespace is an old one, that of a new record, or that of a record that was handed on
    rcases ha.heap.named n hn with hn | hle | hgot
    · exact hunnamed n hn hrecord
    · exact absurd (hw.lt_size hr) (Nat.not_lt_of_le (hrecord ▸ hle))
    · exact hgets (hrecord ▸ hgot)
  own space heq := by
    obtain ⟨n, hspace, hn, hle⟩ := hresult space heq
    refine ⟨n, hspace, hn, hle, fun a r hr hrecord => ?_⟩
    exact absurd (hw.lt_size hr) (Nat.not_lt_of_le (hrecord ▸ hle))

end World

/-! ## The stages of a call -/

/-- How a call stands that was made to run some code. -/
inductive Call.Alone (w : World) (s : String) (request : Request) : World → Call → Prop where
  | asked : Alone w s request w (.asked request)
  /-- Its code is being compiled, and the static graph of the code is without the store id. -/
  | compiling {r : Response} {g : Graph} (hsound : { w with graph := g }.Sound)
    (hs : ¬ Graph.StaticGraph w.site w.graph s r (.module s))
    (h : Graph.Confined w.site w.graph s r g) :
    Alone w s request { w with graph := g } (.compiling w.graph.tasks.size .runInline)
  /-- It is compiled, and waits for what it depends on. -/
  | settling {r : Response} {g : Graph} {o : Outcome} {tasks : List Nat} {roots : List String}
    {resource : Resource} (hsound : { w with graph := g }.Sound)
    (hs : ¬ Graph.StaticGraph w.site w.graph s r (.module s))
    (h : Graph.Confined w.site w.graph s r g)
    (hdone : g.outcome? w.graph.tasks.size = some o)
    (htasks : ∀ t ∈ tasks, Graph.InPlay w.site w.graph s r g t)
    (hroots : ∀ a ∈ roots, Graph.StaticGraph w.site w.graph s r (.module a))
    (hresource : resource.storeId = s) :
    Alone w s request { w with graph := g } (.settling tasks roots (.code resource))
  | done {v : World} {result : Except LoadError (Option Namespace)}
    (h : w.LeavesAlone s result v) : Alone w s request v (.done result)

namespace World

variable {w w' v : World} {s : String} {call : Call} {request : Request}

theorem beginCode_alone (hw : w.Ordered) {code id : String} {url : Option String} {store : Url}
    (hid : resolveId w.base id = .ok store)
    (hgraph : ∀ served, w.requestFor store url = .ok served →
      ¬ Graph.StaticGraph w.site w.graph store.text ⟨200, served, code⟩ (.module store.text))
    (request : Request) :
    (w.beginCode code id url).1.Alone w store.text request (w.beginCode code id url).2 := by
  unfold beginCode
  split
  · exact .done (.refused hw.sound _ _)
  split
  · exact .done (.refused hw.sound _ _)
  rw [hid]
  dsimp only
  split
  · exact .done (.refused hw.sound _ _)
  · rename_i served hserved
    let task := Graph.inlineTask store.text served code
    have hsound : { w with graph := (w.graph.newTask task).2 }.Sound :=
      (Leads.provide w rfl hw.sound).1
    exact .compiling hsound (hgraph served hserved)
      (.start hw.assigned hw.awaits store.text served code)

section

variable (hw : w.Ordered) (himported : ¬ w.Imported s s) {g : Graph} {r : Response}
  (hsound : { w with graph := g }.Sound)
  (hs : ¬ Graph.StaticGraph w.site w.graph s r (.module s))
  (h : Graph.Confined w.site w.graph s r g)
include hw himported hsound h

/-- The code runs once all that it depends on is compiled. -/
theorem runCode_alone {o : Outcome} (hdone : g.outcome? w.graph.tasks.size = some o)
    {resource : Resource} (hresource : resource.storeId = s) :
    ({ w with graph := g }.runTarget (.code resource)).1.Alone w s request
      ({ w with graph := g }.runTarget (.code resource)).2 := by
  subst hresource
  have hran := Apart.runInline hw.sound hsound.named resource
  have hleads := { w with graph := g }.runInline_leads resource hsound
  have hlt := { w with graph := g }.runInline_lt_size resource
  have hgraph := { w with graph := g }.graph_runInline resource
  unfold runTarget
  dsimp only
  generalize { w with graph := g }.runInline resource = ran at hran hleads hlt hgraph
  obtain ⟨result, v⟩ := ran
  dsimp only at hran hleads hlt hgraph
  obtain ⟨hapart, hmade⟩ := hran
  cases result with
  | error e =>
    exact .done (hapart.leavesAlone hw.sound hleads.1 himported (hgraph ▸ h) (hgraph ▸ hdone) nofun)
  | ok r =>
    -- the record is new, so its namespace may be made
    obtain rfl := hmade r rfl
    have hnamed := hapart.of_heap (hapart.heap.namespaceOf (.inl (Nat.le_refl _)))
    have hsound' := (Leads.namespaceOf (fun _ => hlt _ hsound rfl) hleads.1).1
    obtain ⟨hmem, hrecord⟩ := v.heap.mem_namespaceOf w.heap.records.size
    refine .done (hnamed.leavesAlone hw.sound hsound' himported (hgraph ▸ h) (hgraph ▸ hdone) ?_)
    rintro space ⟨⟩
    exact ⟨_, rfl, hmem, Nat.le_of_eq hrecord.symm⟩

include hs

/-- The code is compiled, fails to compile, or has to wait. -/
theorem compiling_alone (depth : Nat) :
    ({ w with graph := g }.advance depth (.compiling w.graph.tasks.size .runInline)).1.1.Alone
      w s request
      ({ w with graph := g }.advance depth (.compiling w.graph.tasks.size .runInline)).2 := by
  obtain ⟨task, ht, -⟩ := h.code
  have hasked := h.ask hs ⟨task, ht, .inl rfl⟩ depth []
  have hsound' : { w with graph := (Graph.ask w.site depth [] w.graph.tasks.size g).2 }.Sound :=
    ({ w with graph := g }.ask_leads depth w.graph.tasks.size hsound).1
  have houtcome := (Graph.ask_drives w.site depth []).outcome w.graph.tasks.size g
  have hsite : { w with graph := g }.site = w.site := rfl
  unfold advance World.ask
  rw [hsite]
  dsimp only
  generalize Graph.ask w.site depth [] w.graph.tasks.size g = asked at *
  obtain ⟨outcome, g'⟩ := asked
  cases outcome with
  | none => exact .compiling hsound' hs hasked
  | some outcome =>
    have hdone := houtcome outcome rfl
    obtain ⟨hinside, hcompiled⟩ := hasked.outcome hdone
    cases outcome with
    | error e =>
      exact .done ((Apart.start w s hsound'.named).leavesAlone hw.sound hsound' himported hasked
        hdone nofun)
    | ok c =>
      cases c with
      | none =>
        -- the text was there from the beginning
        exact absurd rfl hcompiled
      | some c =>
        obtain ⟨hresource, hroots⟩ := hinside c rfl
        exact .settling hsound' hs hasked hdone nofun hroots hresource

/-- Nothing that the code depends on is pending any more, a task fails, or the call has to wait. -/
theorem settling_alone {o : Outcome} (hdone : g.outcome? w.graph.tasks.size = some o)
    {tasks : List Nat} (htasks : ∀ t ∈ tasks, Graph.InPlay w.site w.graph s r g t)
    {roots : List String} (hroots : ∀ a ∈ roots, Graph.StaticGraph w.site w.graph s r (.module a))
    {resource : Resource} (hresource : resource.storeId = s) (depth : Nat) :
    ({ w with graph := g }.advance depth (.settling tasks roots (.code resource))).1.1.Alone
      w s request
      ({ w with graph := g }.advance depth (.settling tasks roots (.code resource))).2 := by
  have hasked := h.askAll hs depth htasks
  have hsound' : { w with graph := (Graph.askAll (Graph.ask w.site depth []) tasks g).2 }.Sound :=
    ({ w with graph := g }.askAll_leads depth tasks hsound).1
  have hsteps := askAll_steps (Graph.ask_drives w.site depth []) tasks g
  have hsite : { w with graph := g }.site = w.site := rfl
  unfold advance World.askAll
  rw [hsite]
  dsimp only
  generalize Graph.askAll (Graph.ask w.site depth []) tasks g = asked at *
  obtain ⟨left, g'⟩ := asked
  obtain ⟨hconfined, hleft⟩ := hasked
  have hdone' := Graph.TaskSteps.outcome? hsteps hdone
  -- a task has failed, some are left, or all are done
  split
  all_goals
    rename_i heq
    cases heq
  · exact .done ((Apart.start w s hsound'.named).leavesAlone hw.sound hsound' himported hconfined
      hdone' nofun)
  · exact .settling hsound' hs hconfined hdone' (fun u hu =>
      (htasks u (hleft _ rfl u hu)).mono (.steps hsteps)) hroots hresource
  · dsimp only
    split
    · exact runCode_alone hw himported hsound' hconfined hdone' hresource
    · exact .settling hsound' hs hconfined hdone' (hconfined.pendingFrom hroots) hroots hresource

end

/-- Each step of a call that runs some code keeps the module of the same store id alone. -/
theorem advance_alone (hw : w.Ordered) (himported : ¬ w.Imported s s)
    (hbegin : (w.begin request).1.Alone w s request (w.begin request).2)
    (h : call.Alone w s request v) (depth : Nat) :
    (v.advance depth call).1.1.Alone w s request (v.advance depth call).2 := by
  cases h with
  | asked => exact hbegin
  | compiling hsound hs h => exact compiling_alone hw himported hsound hs h depth
  | settling hsound hs h hdone htasks hroots hresource =>
    exact settling_alone hw himported hsound hs h hdone htasks hroots hresource depth
  | done h => exact .done h

/-- Whatever hosts have done with a loader before, and whatever comes of the call: running some code
leaves the module of the same store id alone, if neither the static graph of the code nor the bodies
that may be executed lead to that module. `LeavesAlone` makes two exceptions. A call that is refused
at once changes nothing, so it does not even take back what was declared in advance. And if the
record of the module had no namespace, one may be made where a module that the bodies import has run
before and hands on the record (`Gets`). -/
theorem importCode_leavesAlone (hw : w.Reachable) {code id : String} {url : Option String}
    {store : Url} (hid : resolveId w.base id = .ok store)
    (hgraph : ∀ served, w.requestFor store url = .ok served →
      ¬ Graph.StaticGraph w.site w.graph store.text ⟨200, served, code⟩ (.module store.text))
    (himported : ¬ w.Imported store.text store.text) {bound rounds : Nat}
    {result : Except LoadError (Option Namespace)}
    (hdrive : drive bound rounds [.asked (.importCode code id url)] w = ([some result], w')) :
    w.LeavesAlone store.text result w' := by
  have hbegin := beginCode_alone hw.ordered hid hgraph (.importCode code id url)
  have hdone := drive_induct (P := fun v call => call.Alone w store.text _ v)
    (fun depth halone => advance_alone hw.ordered himported hbegin halone depth) .asked hdrive
  cases hdone with
  | done halone => exact halone

end World

/-! ### Code with the store id of a module that runs -/

namespace SameId

def resource (name : String) : Resource :=
  ⟨"app:/" ++ name ++ ".js", "app:/" ++ name ++ ".js", "", ⟨3, "", [], [], [], ""⟩, [name]⟩

/-- The body of the module is that of the code, too. -/
def body : Body := .ofScript "app:/a.js"
  [⟨.installExports [("a", .variable "a")], false⟩, ⟨.importModule "./b.js" "b", false⟩]

def bodies : Table Body :=
  .ofEntries [("app:/a.js", body), ("app:/b.js", .ofScript "app:/b.js" [])]

def opened : World := ((World.closed .empty bodies).reopen .standard).2

/-- A loader in which the module and another one that it imports have run. -/
def world : World :=
  let first : World := { opened with graph := (opened.graph.preload (resource "a")).2 }
  let second : World := { first with graph := (first.graph.preload (resource "b")).2 }
  { (second.request [.importUrl "app:/a.js" none]).2 with bodies := bodies }

def answer : Response :=
  ⟨200, ⟨"app", none, .parts ["a.js"], none, none⟩, "import './b.js'; export const a = 2;"⟩

theorem reachable : world.Reachable := by
  have hopened : opened.Reachable :=
    .opened (.closed .empty _) (fun _ _ ht => nomatch ht)
      (show (World.closed .empty _).reopen .standard = (.ok (), opened) from rfl)
  obtain ⟨calls, hserved, -⟩ := World.request_serves _ [.importUrl "app:/a.js" none]
  have hran := ReflTransGen.head (.preload opened (resource "a") [])
    (.head (.preload _ (resource "b") []) hserved)
  exact .served hopened (hran.tail (.around _ _ bodies _ _ _ calls))

/-- What belongs to the static graph of the code: besides the code only the other module. -/
def Inside : Graph.Part → Prop
  | .module storeId | .request storeId _ => storeId = "app:/b.js"
  | .text storeId r => storeId = "app:/a.js" ∧ r = answer

theorem slot_other : ∃ resource, world.graph.slots["app:/b.js"]? = some (.ready resource) := by
  have hresource : (world.graph.resource? "app:/b.js").isSome := by decide +kernel
  unfold Graph.resource? at hresource
  split at hresource
  · rename_i resource hslot
    exact ⟨resource, hslot⟩
  · cases hresource

theorem inside {part : Graph.Part}
    (h : Graph.StaticGraph world.site world.graph "app:/a.js" answer part) : Inside part := by
  have hcode : ((Module.ofSource answer.body "app:/a.js").toOption.map
      (·.interface.dependencies)) = some ["./b.js"] := by decide +kernel
  have hchild : (resolve "app:/a.js" "./b.js").toOption.map (·.text) = some "app:/b.js" := by
    decide +kernel
  have hedges : world.graph.edgesOf "app:/b.js" = [] := by decide +kernel
  obtain ⟨ready, hready⟩ := slot_other
  have hnone : ∀ t, world.graph.slots["app:/b.js"]? ≠ some (.pending t) := fun t ht =>
    nomatch hready.symm.trans ht
  induction h with
  | text => exact ⟨rfl, rfl⟩
  | @names _ _ m specifier _ _ _ hm hmem hresolve _ ih =>
    obtain ⟨rfl, rfl⟩ := ih
    rw [hm] at hcode
    have hdependencies : m.interface.dependencies = ["./b.js"] := Option.some.inj hcode
    obtain rfl : specifier = "./b.js" := by simpa [hdependencies] using hmem
    rw [hresolve] at hchild
    exact Option.some.inj hchild
  | requested _ ih => exact ih
  | served _ hnew _ _ _ ih =>
    obtain rfl := ih
    obtain ⟨t, ht⟩ := hnew _ hready
    cases ht
  | compiled _ hmem ih =>
    obtain rfl := ih
    rw [hedges] at hmem
    cases hmem
  | idle _ hslot _ _ ih | fetching _ hslot _ _ _ ih | waiting _ hslot _ _ _ ih =>
    obtain rfl := ih
    exact absurd hslot (hnone _)

theorem imported {a : String} (h : world.Imported "app:/a.js" a) : a = "app:/b.js" := by
  have htarget : world.target? "app:/a.js" "./b.js" = some "app:/b.js" := by decide +kernel
  have hregistered : (world.modules["app:/b.js"]?).isSome := by decide +kernel
  have hbody : world.bodies["app:/a.js"]? = some body := (Cycle.getElem?_ofEntries _ _).1
  induction h with
  | own h =>
    obtain ⟨body', specifier, hbody', hmay, htarget'⟩ := h
    cases hbody.symm.trans hbody'
    obtain rfl : specifier = "./b.js" := by
      obtain ⟨step, hmem, handle, hstep⟩ := Body.MayImport.ofScript hmay
      rcases List.mem_pair.mp hmem with rfl | rfl
      · cases hstep
      · cases hstep
        rfl
    exact Option.some.inj (htarget'.symm.trans htarget)
  | further _ hnew _ ih =>
    obtain rfl := ih
    rw [hnew] at hregistered
    cases hregistered

end SameId

/-- The module has run and has a namespace, and so has the code with its store id after that. -/
theorem World.importCode_leavesAlone_registered : ∃ (w w' : World) (n n' : Namespace),
    w.Reachable ∧ w.modules["app:/a.js"]? = some n.record ∧ n ∈ w.heap.namespaces ∧
    w.request [.importCode SameId.answer.body "app:/a.js" none] = ([some (.ok (some n'))], w') ∧
    w.LeavesAlone "app:/a.js" (.ok (some n')) w' := by
  let n : Namespace := ⟨0, 0, "app:/a.js", ["a"]⟩
  let n' : Namespace := ⟨1, 2, "app:/a.js", ["a"]⟩
  let request : Request := .importCode SameId.answer.body "app:/a.js" none
  let store : Url := ⟨"app", none, .parts ["a.js"], none, none⟩
  have hid : resolveId SameId.world.base "app:/a.js" = .ok store := by decide +kernel
  have hstore : store.text = "app:/a.js" := by decide +kernel
  have hresults : (SameId.world.request [request]).1 = [some (.ok (some n'))] := by decide +kernel
  have hdrive : SameId.world.request [request] =
      ([some (.ok (some n'))], (SameId.world.request [request]).2) := by
    rw [← hresults]
  have halone := importCode_leavesAlone SameId.reachable hid (fun served hserved => ?_) ?_ hdrive
  · rw [hstore] at halone
    exact ⟨_, _, n, n', SameId.reachable, by decide +kernel, by decide +kernel, hdrive, halone⟩
  · cases hserved
    rw [hstore]
    intro h
    have hother : "app:/a.js" = "app:/b.js" := SameId.inside h
    exact absurd hother (by decide)
  · rw [hstore]
    exact fun h => absurd (SameId.imported h) (by decide)

end EsModule.Loader
