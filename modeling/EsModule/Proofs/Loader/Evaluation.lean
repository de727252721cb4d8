import EsModule.Proofs.Loader.Depth
import EsModule.Proofs.Loader.Trace
import EsModule.Proofs.Loader.Traversal

/-!
# The order in which the modules of a static graph are evaluated

The body of a module, as it is generated, installs its exports, then imports the modules that it
depends on in their order, and then goes on by itself. If all modules behind an entry are compiled,
have such bodies and have not run, then importing the entry is a depth-first traversal of the
graph of modules, also if the graph has cycles (`evaluates_depth_first`): the bodies of exactly the
modules that the entry reaches are started, each once and in pre-order, and end in post-order.
An import that meets a module again is given its record at once, and by then the exports of that
module are installed.

The invariant is `World.Visited`: exactly the modules that the traversal has visited are registered,
without an error and with their exports installed. `World.Passes` says what one stretch of the
traversal does, and stretches are put together by `World.Passes.trans`.
-/

namespace EsModule.Loader

open EsModule.Compile Relation

/-! ## Bodies as they are generated -/

/-- A body goes on by itself, without exports and imports, and ends without an error. -/
inductive Body.Completes : Body → Prop where
  | finish : Completes (.finish (.ok ()))
  | read {handle name : String} {next : Except LoadError Value → Body}
    (h : ∀ v, (next v).Completes) : Completes (.read handle name next)
  | write {handle name : String} {next : Except LoadError Unit → Body}
    (h : ∀ result, (next result).Completes) : Completes (.write handle name next)
  | openNamespace {handle : String} {next : Except LoadError Namespace → Body}
    (h : ∀ n, (next n).Completes) : Completes (.openNamespace handle next)
  | store {name : String} {v : Value} {next : Body} (h : next.Completes) :
    Completes (.store name v next)
  | address {next : String → Body} (h : ∀ url, (next url).Completes) : Completes (.address next)
  | keep {next : Body} (h : next.Completes) : Completes (.keep next)
  | log {entry : LogEntry} {next : Body} (h : next.Completes) : Completes (.log entry next)

/-- A body imports some modules by their specifiers, in their order, and then goes on by itself. -/
inductive Body.Imports : List String → Body → Prop where
  | rest {body : Body} (h : body.Completes) : Imports [] body
  | next {specifier handle : String} {specifiers : List String}
    {next : Except LoadError Unit → Body} (h : (next (.ok ())).Imports specifiers) :
    Imports (specifier :: specifiers) (.importModule specifier handle next)

/-- A body is as it is generated: it installs all its exports, and then imports some modules. -/
inductive Body.IsGenerated (exports specifiers : List String) : Body → Prop where
  | mk {entries : List (String × Source)} {next : Except LoadError Unit → Body}
    (hexports : ∀ name ∈ exports, name ∈ entries.map (·.1))
    (h : (next (.ok ())).Imports specifiers) :
    IsGenerated exports specifiers (.installExports entries next)

/-! ## Static graphs -/

namespace World

/-- The store id that an import of a specifier in the code of a module is for. -/
def target? (w : World) (storeId specifier : String) : Option String :=
  match resolve storeId specifier with
  | .error _ => none
  | .ok url => (resolveId w.base url.text).toOption.map (·.text)

/-- The store ids of the modules that a module depends on, in their order. -/
def targets (w : World) (modules : String → Option Module) (s : String) : List String :=
  match modules s with
  | some m => m.interface.dependencies.filterMap (w.target? s)
  | none => []

/-- Some modules, known by their store ids, are compiled and have not run. There are only so many of
them as there are slots. -/
structure Prepared (w : World) (modules : String → Option Module) : Prop where
  isOpen : w.isOpen = true
  /-- Each one is compiled, and its body is as it is generated. -/
  compiled : ∀ s m, modules s = some m → ∃ resource body,
    w.graph.slots[s]? = some (.ready resource) ∧ resource.storeId = s ∧
    w.bodies[s]? = some body ∧ body.IsGenerated resource.exports m.interface.dependencies
  notRun : ∀ s m, modules s = some m → w.modules[s]? = none
  /-- Whatever one of them depends on is one of them. -/
  closed : ∀ s m, modules s = some m → ∀ specifier ∈ m.interface.dependencies,
    ∃ s', w.target? s specifier = some s' ∧ (modules s').isSome

/-- All exports of a module are among some names. -/
def Installed (w : World) (s : String) (names : List String) : Prop :=
  ∀ resource, w.graph.slots[s]? = some (.ready resource) → ∀ name ∈ resource.exports, name ∈ names

end World

/-! ## The invariant -/

namespace World

variable {w v v' v'' : World} {modules : String → Option Module} {seen seen' : List String}
  {s : String} {r : Nat}

/-- What nothing changes that a body does by itself. -/
structure Alike (v v' : World) : Prop where
  graph : v'.graph = v.graph
  bodies : v'.bodies = v.bodies
  base : v'.base = v.base
  runs : v'.runs = v.runs
  modules : v'.modules = v.modules
  loader : v'.heap.loader = v.heap.loader
  records : v'.heap.records = v.heap.records

theorem Alike.refl (v : World) : v.Alike v := ⟨rfl, rfl, rfl, rfl, rfl, rfl, rfl⟩

theorem Alike.trans (h : v.Alike v') (h' : v'.Alike v'') : v.Alike v'' where
  graph := h'.graph.trans h.graph
  bodies := h'.bodies.trans h.bodies
  base := h'.base.trans h.base
  runs := h'.runs.trans h.runs
  modules := h'.modules.trans h.modules
  loader := h'.loader.trans h.loader
  records := h'.records.trans h.records

theorem Light.alike (h : v.Light v') : v.Alike v' := by
  cases h with
  | name h =>
    unfold Heap.namespaceOf
    split <;> exact ⟨rfl, rfl, rfl, rfl, rfl, rfl, rfl⟩
  | store | leave => exact ⟨rfl, rfl, rfl, rfl, rfl, rfl, rfl⟩

theorem alike_of_lights (h : ReflTransGen Light v v') : v.Alike v' := by
  induction h with
  | refl => exact .refl v
  | tail _ hstep ih => exact ih.trans hstep.alike

/-- How far a traversal has got that began with a world: the modules that it has visited are
registered, and no others are that were not before. -/
structure Visited (w v : World) (seen : List String) : Prop where
  graph : v.graph = w.graph
  bodies : v.bodies = w.bodies
  base : v.base = w.base
  loader : v.heap.loader = w.heap.loader
  unseen : ∀ s, s ∉ seen → v.modules[s]? = w.modules[s]?
  registered : ∀ s ∈ seen, ∃ r record, v.modules[s]? = some r ∧ v.heap.record? r = some record ∧
    record.failure = none ∧ w.Installed s record.keys

theorem Visited.start (w : World) : w.Visited w [] :=
  ⟨rfl, rfl, rfl, rfl, fun _ _ => rfl, nofun⟩

theorem Visited.alike (h : w.Visited v seen) (hv : v.Alike v') : w.Visited v' seen where
  graph := hv.graph.trans h.graph
  bodies := hv.bodies.trans h.bodies
  base := hv.base.trans h.base
  loader := hv.loader.trans h.loader
  unseen s hs := by rw [hv.modules, h.unseen s hs]
  registered s hs := by
    rw [hv.modules]
    obtain ⟨r, record, hr, hrecord, hrest⟩ := h.registered s hs
    exact ⟨r, record, hr, by rw [Heap.record?, hv.records]; exact hrecord, hrest⟩

/-- The modules that could still be started. -/
def left (w : World) (seen : List String) : List String :=
  w.startable.filter fun s => s ∉ seen

theorem left_le (h : ∀ s ∈ seen, s ∈ seen') : (w.left seen').length ≤ (w.left seen).length := by
  have hleft : w.left seen' = (w.left seen).filter fun s => s ∉ seen' := by
    unfold left
    rw [List.filter_filter]
    refine List.filter_congr fun s _ => ?_
    have := h s
    by_cases hs : s ∈ seen <;> simp_all
  rw [hleft]
  exact List.length_filter_le ..

theorem left_cons_lt (hs : s ∉ seen) (hstartable : s ∈ w.startable) :
    (w.left (s :: seen)).length < (w.left seen).length := by
  have hleft : w.left (s :: seen) = (w.left seen).filter fun s' => s' ≠ s := by
    unfold left
    rw [List.filter_filter]
    refine List.filter_congr fun s' _ => ?_
    simp [not_or]
  rw [hleft]
  refine List.length_filter_lt_length_iff_exists.mpr ⟨s, ?_, by simp⟩
  exact List.mem_filter.mpr ⟨hstartable, by simpa using hs⟩

/-- A world in which the body of a module is about to be started. -/
def entered (v : World) (s : String) (resource : Resource) : World :=
  { (v.enrol s resource).2 with runs := v.runs + 1 }

theorem modules_entered (v : World) (s : String) (resource : Resource) (s' : String) :
    (v.entered s resource).modules[s']? =
      if s = s' then some v.heap.records.size else v.modules[s']? :=
  modules_enrol v s resource s'

/-- A module that is registered then is the one that is entered, or it was registered before. -/
theorem registered_entered {resource : Resource} {s' : String}
    (hr : (v.entered s resource).modules[s']? = some r) :
    v.modules[s']? = some r ∨ s' = s ∧ r = v.heap.records.size := by
  rw [modules_entered] at hr
  split at hr
  · rename_i heq
    cases hr
    exact .inr ⟨heq.symm, rfl⟩
  · exact .inl hr

theorem record?_entered (v : World) (s : String) (resource : Resource) (r : Nat) :
    (v.entered s resource).heap.record? r =
      if r = v.heap.records.size then some (.fresh s resource.exports) else v.heap.record? r :=
  record?_enrol v s resource r

/-- The readers that a body installs which is started in a world. -/
def readers (w : World) (caps : Capabilities) (entries : List (String × Source)) :
    List (String × Reader) :=
  entries.map fun (name, source) => (name, source.reader caps.storeId w.heap.frames.size)

/-- A world in which a body has been started and has installed its exports. -/
def begun (w : World) (caps : Capabilities) (entries : List (String × Source)) : World :=
  { w with heap := (w.heap.newFrame caps.loader).2.install caps.record (w.readers caps entries) }

theorem record?_begun (w : World) (caps : Capabilities) (entries : List (String × Source))
    (r : Nat) : (w.begun caps entries).heap.record? r =
      if caps.record = r then (w.heap.record? r).map (·.install (w.readers caps entries))
      else w.heap.record? r :=
  Heap.record?_modifyRecord ..

/-- A module is entered: its record is registered, and its exports are installed before anything
else happens. -/
theorem Visited.enter (h : w.Visited v seen) {resource : Resource}
    (hready : w.graph.slots[s]? = some (.ready resource)) (hs : s ∉ seen)
    {entries : List (String × Source)} (hexports : ∀ name ∈ resource.exports,
      name ∈ entries.map (·.1)) {caps : Capabilities}
    (hrecord : caps.record = v.heap.records.size) :
    w.Visited ((v.entered s resource).begun caps entries) (s :: seen) where
  graph := h.graph
  bodies := h.bodies
  base := h.base
  loader := h.loader
  unseen s' hs' := by
    obtain ⟨hne, hs'⟩ := not_or.mp (List.mem_cons.not.mp hs')
    exact (modules_entered v s resource s').trans ((if_neg (Ne.symm hne)).trans (h.unseen s' hs'))
  registered s' hs' := by
    have hmodules := modules_entered v s resource s'
    simp only [record?_begun, hrecord, record?_entered]
    rcases List.mem_cons.mp hs' with rfl | hs'
    · refine ⟨_, _, hmodules.trans (if_pos rfl), by rw [if_pos rfl, if_pos rfl, Option.map_some],
        rfl, ?_⟩
      intro resource' hready' name hname
      cases hready.symm.trans hready'
      refine (Table.mem_keys_addAll ..).mpr (.inr ?_)
      simpa [readers] using hexports name hname
    · -- the records from before are other ones
      obtain ⟨r, record, hr, hrecord', hrest⟩ := h.registered s' hs'
      have hne : s ≠ s' := fun heq => hs (heq ▸ hs')
      have hlt : r < v.heap.records.size := Heap.lt_of_record? (by rw [hrecord']; rfl)
      refine ⟨r, record, hmodules.trans ((if_neg hne).trans hr), ?_, hrest⟩
      rw [if_neg (Nat.ne_of_gt hlt), if_neg (Nat.ne_of_lt hlt), hrecord']

end World

/-! ## What a stretch of the traversal does -/

/-- What a passage is in the course of a traversal. -/
def Passage.mark : Passage → Mark
  | .start storeId _ => .enter storeId
  | .give storeId _ _ => .again storeId
  | .finish storeId _ _ => .leave storeId

namespace World

variable {w v v' v'' : World} {modules : String → Option Module} {seen seen' seen'' : List String}
  {places places' : List String} {trace trace' : List Passage} {t t' : Traversal}

/-- From one world to another, a loader traverses some places of a graph of modules. -/
structure Passes (w : World) (modules : String → Option Module) (v : World)
    (seen places : List String) (trace : List Passage) (v' : World) (seen' : List String)
    (t : Traversal) : Prop where
  depthFirst : DepthFirst (w.targets modules) seen places t seen'
  visited : w.Visited v' seen'
  marks : trace.map Passage.mark = t.marks
  /-- A record that an import gives at once has its exports by then, and was started before. -/
  given : ∀ s r names, .give s r names ∈ trace → w.Installed s names ∧ w.modules[s]? = none ∧
    (v.modules[s]? = some r ∨ .start s r ∈ trace)
  /-- A record is registered when its body is started. -/
  registered : ∀ (s : String) (r : Nat), v'.modules[s]? = some r →
    v.modules[s]? = some r ∨ .start s r ∈ trace
  ended : ∀ s r result, .finish s r result ∈ trace → result = .ok () ∧ .start s r ∈ trace
  runs : v'.runs = v.runs + t.preorder.length

/-- Nothing is traversed by what a body does by itself. -/
theorem Passes.alike (h : w.Visited v seen) (hv : v.Alike v') :
    w.Passes modules v seen [] [] v' seen .done where
  depthFirst := .done seen
  visited := h.alike hv
  marks := rfl
  given := nofun
  registered _ _ hr := .inl (hv.modules ▸ hr)
  ended := nofun
  runs := hv.runs

theorem Passes.trans (h : w.Passes modules v seen places trace v' seen' t)
    (h' : w.Passes modules v' seen' places' trace' v'' seen'' t') :
    w.Passes modules v seen (places ++ places') (trace ++ trace') v'' seen'' (t.append t') where
  depthFirst := h.depthFirst.append h'.depthFirst
  visited := h'.visited
  marks := by rw [List.map_append, Traversal.marks_append, h.marks, h'.marks]
  given s r names hmem := by
    simp only [List.mem_append] at hmem ⊢
    rcases hmem with hmem | hmem
    · obtain ⟨hinstalled, hnew, hstart⟩ := h.given s r names hmem
      exact ⟨hinstalled, hnew, hstart.imp_right .inl⟩
    · obtain ⟨hinstalled, hnew, hr | hstart⟩ := h'.given s r names hmem
      · exact ⟨hinstalled, hnew, (h.registered s r hr).imp_right .inl⟩
      · exact ⟨hinstalled, hnew, .inr (.inr hstart)⟩
  registered s r hr := by
    simp only [List.mem_append]
    rcases h'.registered s r hr with hr | hstart
    · exact (h.registered s r hr).imp_right .inl
    · exact .inr (.inr hstart)
  ended s r result hmem := by
    simp only [List.mem_append] at hmem ⊢
    rcases hmem with hmem | hmem
    · exact (h.ended s r result hmem).imp_right .inl
    · exact (h'.ended s r result hmem).imp_right .inr
  runs := by rw [h'.runs, h.runs, Traversal.preorder_append, List.length_append, Nat.add_assoc]

/-- What was visited stays so. -/
theorem Passes.seen_subset (h : w.Passes modules v seen places trace v' seen' t) :
    ∀ s ∈ seen, s ∈ seen' := fun s hs => (h.depthFirst.mem_seen s).mpr (.inl hs)

/-- The modules whose bodies are started are entered. -/
theorem Passes.mem_preorder (h : w.Passes modules v seen places trace v' seen' t) {s : String}
    {r : Nat} (hstart : .start s r ∈ trace) : s ∈ t.preorder := by
  rw [← t.entered_marks, ← h.marks]
  exact List.mem_filterMap.mpr ⟨_, List.mem_map_of_mem hstart, rfl⟩

/-- A module that was visited is met again. -/
theorem Passes.again (h : w.Visited v seen) {s : String} (hs : s ∈ seen)
    (hnew : w.modules[s]? = none) {r : Nat} (hr : v.modules[s]? = some r) {names : List String}
    (hinstalled : w.Installed s names) :
    w.Passes modules v seen [s] [.give s r names] v seen (.again s .done) where
  depthFirst := .again hs (.done seen)
  visited := h
  marks := rfl
  given s' r' names' hmem := by
    cases List.mem_singleton.mp hmem
    exact ⟨hinstalled, hnew, .inl hr⟩
  registered _ _ := .inl
  ended s' r' result hmem := by simp at hmem
  runs := rfl

/-- A module is entered, and what it depends on is traversed before it is left. -/
theorem Passes.first {s : String} {resource : Resource} (hs : s ∉ seen)
    (h : w.Passes modules (v.entered s resource) (s :: seen) (w.targets modules s) trace v' seen'
      t) :
    w.Passes modules v seen [s]
      (.start s v.heap.records.size :: trace ++ [.finish s v.heap.records.size (.ok ())]) v' seen'
      (.first s t .done) where
  depthFirst := .first hs h.depthFirst (.done seen')
  visited := h.visited
  marks := by simp [h.marks, Passage.mark, Traversal.marks]
  given s' r names hmem := by
    obtain ⟨hinstalled, hnew, hr | hstart⟩ := h.given s' r names (by simpa using hmem)
    · refine ⟨hinstalled, hnew, (registered_entered hr).imp_right ?_⟩
      rintro ⟨rfl, rfl⟩
      simp
    · exact ⟨hinstalled, hnew, .inr (by simp [hstart])⟩
  registered s' r hr := by
    rcases h.registered s' r hr with hr | hstart
    · refine (registered_entered hr).imp_right ?_
      rintro ⟨rfl, rfl⟩
      simp
    · exact .inr (by simp [hstart])
  ended s' r result hmem := by
    simp only [List.cons_append, List.mem_cons, List.mem_append, List.not_mem_nil, reduceCtorEq,
      Passage.finish.injEq, false_or, or_false] at hmem ⊢
    rcases hmem with hmem | ⟨rfl, rfl, rfl⟩
    · exact (h.ended s' r result hmem).imp_right fun hstart => .inr hstart
    · exact ⟨rfl, .inl rfl⟩
  runs := by
    rw [h.runs]
    simp [entered, Traversal.preorder, Nat.add_assoc, Nat.add_comm]

end World

/-! ## Bodies traverse what they import -/

section Bodies

variable {importModule : Importer} {tracer : Tracer} {caps : Capabilities} {frame : Nat}
  {w v : World} {modules : String → Option Module} {seen : List String}

/-- A body that goes on by itself ends without an error, and no module is imported meanwhile. -/
theorem Body.Completes.run {body : Body} (h : body.Completes) (importModule : Importer)
    (tracer : Tracer) (v : World) :
    (body.run importModule caps frame v).1 = .ok () ∧
      v.Alike (body.run importModule caps frame v).2 ∧
      body.trace importModule tracer caps frame v = [] := by
  induction h generalizing v with
  | finish => exact ⟨rfl, .refl v, rfl⟩
  | @read handle name next _ ih =>
    obtain ⟨hresult, halike, htrace⟩ := ih (v.readFor frame handle name).1
      (v.readFor frame handle name).2
    have hread := World.alike_of_lights (v.readFor_light frame handle name)
    exact ⟨hresult, hread.trans halike, htrace⟩
  | @write handle name next _ ih =>
    obtain ⟨hresult, halike, htrace⟩ := ih (v.writeFor frame handle name).1
      (v.writeFor frame handle name).2
    have hwritten := World.alike_of_lights (v.writeFor_light frame handle name)
    exact ⟨hresult, hwritten.trans halike, htrace⟩
  | @openNamespace handle next _ ih =>
    obtain ⟨hresult, halike, htrace⟩ := ih (v.openFor caps frame handle).1
      (v.openFor caps frame handle).2
    have hopened : v.Alike (v.openFor caps frame handle).2 :=
      World.alike_of_lights (v.openFor_light frame handle)
    exact ⟨hresult, hopened.trans halike, htrace⟩
  | address _ ih => exact ih _ v
  | @store name value next _ ih =>
    have hstep : v.Light { v with heap := v.heap.store ⟨caps.storeId, name⟩ value } := .store _ _
    obtain ⟨hresult, halike, htrace⟩ := ih _
    exact ⟨hresult, hstep.alike.trans halike, htrace⟩
  | keep _ ih =>
    have hstep : v.Light { v with kept := v.kept.insert caps.storeId caps } := .leave v.log _
    obtain ⟨hresult, halike, htrace⟩ := ih _
    exact ⟨hresult, hstep.alike.trans halike, htrace⟩
  | @log entry next _ ih =>
    have hstep : v.Light (v.addLog entry) := .leave (v.log ++ [entry]) v.kept
    obtain ⟨hresult, halike, htrace⟩ := ih _
    exact ⟨hresult, hstep.alike.trans halike, htrace⟩

/-- A body that begins with its exports goes on when they are installed. -/
theorem World.runBody_begun (importModule : Importer) (tracer : Tracer) {record : Record}
    (h : v.heap.record? caps.record = some record) (entries : List (String × Source))
    (next : Except LoadError Unit → Body) :
    v.runBody importModule caps (.installExports entries next) =
        (next (.ok ())).run importModule caps v.heap.frames.size (v.begun caps entries) ∧
      v.traceBody importModule tracer caps (.installExports entries next) =
        (next (.ok ())).trace importModule tracer caps v.heap.frames.size
          (v.begun caps entries) := by
  have hrecord : (v.heap.newFrame caps.loader).2.record? caps.record = some record := h
  have hinstall : World.installExports { v with heap := (v.heap.newFrame caps.loader).2 } caps
      v.heap.frames.size entries = (.ok (), v.begun caps entries) := by
    rw [World.installExports, hrecord]
    rfl
  constructor
  · exact congrArg (fun installed : Except LoadError Unit × World =>
      (next installed.1).run importModule caps v.heap.frames.size installed.2) hinstall
  · exact congrArg (fun installed : Except LoadError Unit × World =>
      (next installed.1).trace importModule tracer caps v.heap.frames.size installed.2) hinstall

/-- An importer traverses a graph of modules from each of its modules, if there are fewer modules
left than so many. -/
def World.TraversedBy (w : World) (modules : String → Option Module) (bound : Nat)
    (importModule : Importer) (tracer : Tracer) : Prop :=
  ∀ (v : World) (seen : List String) (id : String) (url : Url), w.Visited v seen →
    resolveId w.base id = .ok url → (modules url.text).isSome → (w.left seen).length < bound →
    ∃ r seen' t, (importModule id v).1 = .ok r ∧
      (importModule id v).2.modules[url.text]? = some r ∧
      w.Passes modules v seen [url.text] (tracer id v) (importModule id v).2 seen' t

/-- What a specifier stands for is imported, and its record is given a handle. -/
theorem World.TraversedBy.importFor {bound : Nat}
    (h : w.TraversedBy modules bound importModule tracer) (hv : w.Visited v seen)
    (hopen : v.heap.isOpen caps.loader = true) (hbound : (w.left seen).length < bound)
    {specifier s : String} (htarget : w.target? caps.storeId specifier = some s)
    (hs : (modules s).isSome) (frame : Nat) (handle : String) : ∃ seen' t,
      (v.importFor importModule caps frame specifier handle).1 = .ok () ∧
      w.Passes modules v seen [s] (v.traceFor tracer caps specifier)
        (v.importFor importModule caps frame specifier handle).2 seen' t := by
  unfold World.target? at htarget
  unfold World.importFor World.traceFor
  cases hresolve : resolve caps.storeId specifier with
  | error e =>
    rw [hresolve] at htarget
    cases htarget
  | ok url =>
    simp only [hresolve] at htarget
    cases hid : resolveId w.base url.text with
    | error e =>
      rw [hid] at htarget
      cases htarget
    | ok target =>
      rw [hid] at htarget
      cases htarget
      obtain ⟨r, seen', t, hresult, _, hpasses⟩ := h v seen url.text target hv hid hs hbound
      simp only [hopen, if_true]
      generalize himport : importModule url.text v = imported at hresult hpasses
      obtain ⟨result, v'⟩ := imported
      cases hresult
      have halike : v'.Alike { v' with heap := v'.heap.setHandle frame handle r } :=
        ⟨rfl, rfl, rfl, rfl, rfl, rfl, rfl⟩
      refine ⟨seen', t.append .done, rfl, ?_⟩
      simpa using hpasses.trans (.alike hpasses.visited halike)

/-- A body traverses the modules that it imports, in their order. -/
theorem Body.Imports.passes {bound : Nat} (h : w.TraversedBy modules bound importModule tracer)
    {specifiers : List String} {body : Body} (hbody : body.Imports specifiers)
    (hv : w.Visited v seen) (hopen : w.heap.isOpen caps.loader = true)
    (hbound : (w.left seen).length < bound)
    (htargets : ∀ specifier ∈ specifiers, ∃ s, w.target? caps.storeId specifier = some s ∧
      (modules s).isSome) (frame : Nat) : ∃ seen' t,
      (body.run importModule caps frame v).1 = .ok () ∧
      w.Passes modules v seen (specifiers.filterMap (w.target? caps.storeId))
        (body.trace importModule tracer caps frame v)
        (body.run importModule caps frame v).2 seen' t := by
  induction hbody generalizing v seen with
  | rest hcompletes =>
    obtain ⟨hresult, halike, htrace⟩ :=
      hcompletes.run importModule tracer v
    rw [htrace]
    exact ⟨seen, .done, hresult, .alike hv halike⟩
  | @next specifier handle specifiers next _ ih =>
    obtain ⟨⟨s, htarget, hs⟩, htargets⟩ := List.forall_mem_cons.mp htargets
    have hopen' : v.heap.isOpen caps.loader = true := by
      rw [Heap.isOpen, hv.loader]
      exact hopen
    obtain ⟨seen₁, t₁, hresult, hfirst⟩ := h.importFor hv hopen' hbound htarget hs frame handle
    have hbound₁ := Nat.lt_of_le_of_lt (World.left_le hfirst.seen_subset) hbound
    obtain ⟨seen₂, t₂, hresult₂, hrest⟩ := ih hfirst.visited hbound₁ htargets
    refine ⟨seen₂, t₁.append t₂, ?_, ?_⟩
    · simpa only [Body.run, hresult] using hresult₂
    · simpa only [Body.run, Body.trace, hresult, List.filterMap_cons, htarget,
        List.singleton_append] using hfirst.trans hrest

end Bodies

/-! ## Imports traverse the graph -/

namespace World

variable {w v v' : World} {modules : String → Option Module} {seen seen' : List String}

/-- The body of a module that is entered traverses what the module depends on. -/
theorem TraversedBy.runModule {bound : Nat} {importModule : Importer} {tracer : Tracer}
    (h : w.TraversedBy modules bound importModule tracer) (hw : w.Prepared modules)
    (hv : w.Visited v seen) {s : String} {m : Module} (hm : modules s = some m) (hs : s ∉ seen)
    {resource : Resource} (hready : w.graph.slots[s]? = some (.ready resource))
    (hstoreId : resource.storeId = s) (hbound : (w.left (s :: seen)).length < bound) :
    ∃ seen' t,
      ((v.enrol s resource).2.runModule importModule (v.capabilities resource)).1 = .ok () ∧
      w.Passes modules (v.entered s resource) (s :: seen) (w.targets modules s)
        ((v.enrol s resource).2.traceModule importModule tracer (v.capabilities resource))
        ((v.enrol s resource).2.runModule importModule (v.capabilities resource)).2 seen' t := by
  have hcaps : (v.capabilities resource).storeId = s := hstoreId
  have hopen : w.heap.isOpen (v.capabilities resource).loader = true := by
    obtain ⟨loader, hloader⟩ := Option.isSome_iff_exists.mp hw.isOpen
    simp [capabilities, Heap.isOpen, hv.loader, hloader]
  have hfresh : (v.entered s resource).heap.record? (v.capabilities resource).record =
      some (.fresh s resource.exports) := by
    rw [record?_entered]
    exact if_pos rfl
  have htargets : w.targets modules s =
      m.interface.dependencies.filterMap (w.target? (v.capabilities resource).storeId) := by
    rw [hcaps, targets, hm]
  obtain ⟨resource', body, hready', -, hbody, hgenerated⟩ := hw.compiled s m hm
  cases hready.symm.trans hready'
  have hbody' : (v.enrol s resource).2.bodies[(v.capabilities resource).storeId]? = some body := by
    rw [hcaps]
    exact (congrArg (·[s]?) hv.bodies).trans hbody
  unfold World.runModule World.traceModule
  rw [hbody', htargets]
  cases hgenerated with
  | @mk entries next hexports himports =>
  obtain ⟨hrun, htrace⟩ := runBody_begun importModule tracer hfresh entries next
  have hclosed := hw.closed s m hm
  rw [← hcaps] at hclosed
  have hentered := hv.enter hready hs hexports (show (v.capabilities resource).record = _ from rfl)
  obtain ⟨seen', t, hresult, hpasses⟩ := himports.passes h hentered hopen hbound hclosed
    (v.entered s resource).heap.frames.size
  rw [← hrun] at hresult hpasses
  rw [← htrace] at hpasses
  exact ⟨seen', t, hresult, hpasses.depthFirst, hpasses.visited, hpasses.marks, hpasses.given,
    hpasses.registered, hpasses.ended, hpasses.runs⟩

/-- A module keeps the record that it was entered with. -/
theorem Passes.modules_entered {s : String} {resource : Resource} {places : List String}
    {trace : List Passage} {t : Traversal}
    (h : w.Passes modules (v.entered s resource) (s :: seen) places trace v' seen' t) :
    v'.modules[s]? = some v.heap.records.size := by
  have hs : s ∈ seen' := h.seen_subset s List.mem_cons_self
  obtain ⟨r, -, hr, -⟩ := h.visited.registered s hs
  rcases h.registered s r hr with hentered | hstart
  · rwa [World.modules_entered, if_pos rfl, ← hr, eq_comm] at hentered
  · exact absurd (h.mem_preorder hstart) (h.depthFirst.notMem_preorder List.mem_cons_self)

/-- With a greater bound than there are modules left, an import traverses the graph. -/
theorem Prepared.traversedBy (hw : w.Prepared modules) (depth : Nat) :
    w.TraversedBy modules depth (importAt depth) (importTrace depth) := by
  -- the depth falls with the number of modules that are left
  induction depth with
  | zero => exact fun _ _ _ _ _ _ _ hbound => absurd hbound (Nat.not_lt_zero _)
  | succ depth ih =>
  intro v seen id url hv hid hentry hbound
  obtain ⟨m, hm⟩ := Option.isSome_iff_exists.mp hentry
  have hnotRun := hw.notRun _ m hm
  obtain ⟨resource, body, hready, hstoreId, -⟩ := hw.compiled _ m hm
  have hid' : resolveId v.base id = .ok url := hv.base ▸ hid
  by_cases hseen : url.text ∈ seen
  · obtain ⟨r, record, hr, hrecord, hfailure, hinstalled⟩ := hv.registered _ hseen
    have hnone : v.failure? r = none := by
      rw [World.failure?, hrecord]
      exact hfailure
    refine ⟨r, seen, .again url.text .done, ?_⟩
    simp only [importAt, importTrace, hid', hr, hnone, hrecord]
    exact ⟨trivial, trivial, .again hv hseen hnotRun hr hinstalled⟩
  · have hnew : v.modules[url.text]? = none := (hv.unseen _ hseen).trans hnotRun
    have hready' : v.graph.slots[url.text]? = some (.ready resource) := by
      rw [hv.graph]
      exact hready
    have hstartable : url.text ∈ w.startable :=
      List.mem_filter.mpr ⟨Table.mem_keys hready, by rw [hnotRun]; rfl⟩
    have hfewer := left_cons_lt hseen hstartable
    obtain ⟨seen', t, hresult, hpasses⟩ :=
      ih.runModule hw hv hm hseen hready hstoreId (by omega)
    refine ⟨v.heap.records.size, seen', .first url.text t .done, ?_⟩
    simp only [importAt, importTrace, hid', hnew, hready', start_ok hresult, traceStart_ok hresult,
      hstoreId]
    exact ⟨trivial, hpasses.modules_entered, .first hseen hpasses⟩

end World

/-! ## Evaluation order -/

/-- The modules whose bodies are started, in order. -/
def startedIn (trace : List Passage) : List String :=
  (trace.map Passage.mark).filterMap Mark.entered?

/-- The modules whose bodies end, in order. -/
def finishedIn (trace : List Passage) : List String :=
  (trace.map Passage.mark).filterMap Mark.left?

namespace World

variable {w : World} {modules : String → Option Module} {id : String} {url : Url}

/-- Importing an entry evaluates the modules behind it in the order of a traversal, when so many
bodies may run inside of each other. -/
structure EvaluatesInOrder (w : World) (modules : String → Option Module) (id entry : String)
    (t : Traversal) (depth : Nat) : Prop where
  /-- What the trace says of bodies is what the loader does. -/
  runs : Retraces (importTrace depth id w) w (importAt depth id w).2
  /-- The import succeeds, with the record that is registered then. -/
  returns : ∃ r, (importAt depth id w).1 = .ok r ∧
    (importAt depth id w).2.modules[entry]? = some r
  /-- Bodies are started in pre-order. -/
  preorder : startedIn (importTrace depth id w) = t.preorder
  /-- Bodies end in post-order. -/
  postorder : finishedIn (importTrace depth id w) = t.postorder
  /-- Which modules are entered, met again and left is the course of the traversal. -/
  course : (importTrace depth id w).map Passage.mark = t.marks
  /-- Exactly the modules that the entry reaches are started. -/
  reached : ∀ s, s ∈ startedIn (importTrace depth id w) ↔
    ReflTransGen (fun a b => b ∈ w.targets modules a) entry s
  /-- Each of them is started once, and ends. -/
  once : (startedIn (importTrace depth id w)).Nodup
  complete : (finishedIn (importTrace depth id w)).Perm (startedIn (importTrace depth id w))
  /-- No other bodies are run. -/
  count : (importAt depth id w).2.runs = w.runs + t.preorder.length
  /-- No body ends in an error. -/
  ended : ∀ s r result, .finish s r result ∈ importTrace depth id w → result = .ok ()
  /-- An import that meets a module again is given at once the record with which the module was
  started, and all exports are installed in it. -/
  given : ∀ s r names, .give s r names ∈ importTrace depth id w →
    .start s r ∈ importTrace depth id w ∧ w.Installed s names

/-- If all modules behind an entry are compiled and have not run, and their bodies are as they are
generated, then importing the entry evaluates them by a depth-first traversal of the graph of
modules, whether it has cycles or not. -/
theorem evaluates_depth_first (hw : w.Prepared modules) (hid : resolveId w.base id = .ok url)
    (hentry : (modules url.text).isSome) : ∃ t seen,
      DepthFirst (w.targets modules) [] [url.text] t seen ∧
      ∀ depth ≥ w.importDepth, w.EvaluatesInOrder modules id url.text t depth := by
  have hpasses (depth : Nat) (hdepth : w.importDepth ≤ depth) : ∃ r seen t,
      (importAt depth id w).1 = .ok r ∧ (importAt depth id w).2.modules[url.text]? = some r ∧
      w.Passes modules w [] [url.text] (importTrace depth id w) (importAt depth id w).2 seen t := by
    refine hw.traversedBy depth w [] id url (.start w) hid hentry ?_
    have hleft : (w.left []).length ≤ w.startable.length := List.length_filter_le ..
    have := startable_lt_importDepth w
    omega
  obtain ⟨-, seen, t, -, -, hfirst⟩ := hpasses w.importDepth (Nat.le_refl _)
  refine ⟨t, seen, hfirst.depthFirst, fun depth hdepth => ?_⟩
  obtain ⟨r, seen', t', hresult, hr, hp⟩ := hpasses depth hdepth
  obtain ⟨rfl, rfl⟩ := hfirst.depthFirst.unique hp.depthFirst
  have hstarted : startedIn (importTrace depth id w) = t.preorder := by
    rw [startedIn, hp.marks, t.entered_marks]
  have hfinished : finishedIn (importTrace depth id w) = t.postorder := by
    rw [finishedIn, hp.marks, t.left_marks]
  exact {
    runs := importTrace_runs depth id w
    returns := ⟨r, hresult, hr⟩
    preorder := hstarted
    postorder := hfinished
    course := hp.marks
    reached := fun s => by rw [hstarted, hp.depthFirst.mem_preorder]
    once := hstarted ▸ hp.depthFirst.nodup_preorder
    complete := by
      rw [hstarted, hfinished]
      exact t.postorder_perm
    count := hp.runs
    ended := fun s r result hmem => (hp.ended s r result hmem).1
    given := fun s r names hmem => by
      obtain ⟨hinstalled, hnew, hr | hstart⟩ := hp.given s r names hmem
      · exact nomatch hnew.symm.trans hr
      · exact ⟨hstart, hinstalled⟩ }

end World

/-! ### Two modules that import each other -/

namespace Cycle

/-- A module of the cycle, which imports the other one. -/
def module? (name other : String) : Option Module :=
  (Module.ofSource ("import './" ++ other ++ ".js'; export const " ++ name ++ " = true;")
    ("app:/" ++ name ++ ".js")).toOption

def modules (s : String) : Option Module :=
  if s = "app:/a.js" then module? "a" "b" else if s = "app:/b.js" then module? "b" "a" else none

def resource (name : String) : Resource :=
  ⟨"app:/" ++ name ++ ".js", "app:/" ++ name ++ ".js", "", ⟨3, "", [], [], [], ""⟩, [name]⟩

def body (name other : String) : Body :=
  .ofScript ("app:/" ++ name ++ ".js")
    [⟨.installExports [(name, .variable name)], false⟩,
      ⟨.importModule ("./" ++ other ++ ".js") other, false⟩, ⟨.store name (.boolean true), false⟩]

/-- A loader in which both modules are compiled. -/
def world : World :=
  let bodies := .ofEntries [("app:/a.js", body "a" "b"), ("app:/b.js", body "b" "a")]
  let slots := .ofEntries
    [("app:/a.js", .ready (resource "a")), ("app:/b.js", .ready (resource "b"))]
  { ((World.closed .empty bodies).reopen .standard).2 with
    graph := { Graph.empty with slots := slots } }

theorem getElem?_ofEntries {α : Type} (a b : α) :
    (Table.ofEntries [("app:/a.js", a), ("app:/b.js", b)])["app:/a.js"]? = some a ∧
      (Table.ofEntries [("app:/a.js", a), ("app:/b.js", b)])["app:/b.js"]? = some b :=
  ⟨(Table.getElem?_insert ..).trans ((if_neg (show ¬ "app:/b.js" = "app:/a.js" by decide)).trans
      ((Table.getElem?_insert ..).trans (if_pos rfl))),
    (Table.getElem?_insert ..).trans (if_pos rfl)⟩

theorem modules_eq_some {s : String} {m : Module} (hm : modules s = some m) :
    s = "app:/a.js" ∧ m.interface.dependencies = ["./b.js"] ∨
      s = "app:/b.js" ∧ m.interface.dependencies = ["./a.js"] := by
  have hdependencies : (module? "a" "b").map (·.interface.dependencies) = some ["./b.js"] ∧
      (module? "b" "a").map (·.interface.dependencies) = some ["./a.js"] := by decide +kernel
  unfold modules at hm
  split at hm
  · rename_i hs
    rw [hm] at hdependencies
    exact .inl ⟨hs, Option.some.inj hdependencies.1⟩
  · split at hm
    · rename_i hs
      rw [hm] at hdependencies
      exact .inr ⟨hs, Option.some.inj hdependencies.2⟩
    · cases hm

theorem isGenerated_body (name other : String) :
    (body name other).IsGenerated [name] ["./" ++ other ++ ".js"] :=
  .mk (fun _ => id) (.next (.rest (.store .finish)))

theorem prepared : world.Prepared modules where
  isOpen := rfl
  compiled s m hm := by
    have hslots := getElem?_ofEntries (Slot.ready (resource "a")) (Slot.ready (resource "b"))
    have hbodies := getElem?_ofEntries (body "a" "b") (body "b" "a")
    rcases modules_eq_some hm with ⟨rfl, hdependencies⟩ | ⟨rfl, hdependencies⟩
    all_goals rw [hdependencies]
    · exact ⟨_, _, hslots.1, rfl, hbodies.1, isGenerated_body "a" "b"⟩
    · exact ⟨_, _, hslots.2, rfl, hbodies.2, isGenerated_body "b" "a"⟩
  notRun _ _ _ := Std.TreeMap.getElem?_emptyc
  closed s m hm := by
    rcases modules_eq_some hm with ⟨rfl, hdependencies⟩ | ⟨rfl, hdependencies⟩
    all_goals rw [hdependencies, List.forall_mem_singleton]
    · exact ⟨"app:/b.js", by decide +kernel, by decide +kernel⟩
    · exact ⟨"app:/a.js", by decide +kernel, by decide +kernel⟩

end Cycle

/-- The second module gets the record of the first one, which is still running. -/
theorem evaluates_depth_first_cycle : ∃ (url : Url) (t : Traversal),
    Cycle.world.Prepared Cycle.modules ∧ resolveId Cycle.world.base "app:/a.js" = .ok url ∧
    (Cycle.modules url.text).isSome ∧ t.marks = [.enter "app:/a.js", .enter "app:/b.js",
      .again "app:/a.js", .leave "app:/b.js", .leave "app:/a.js"] ∧
    Cycle.world.EvaluatesInOrder Cycle.modules "app:/a.js" "app:/a.js" t
      Cycle.world.importDepth := by
  let url : Url := ⟨"app", none, .parts ["a.js"], none, none⟩
  have hid : resolveId Cycle.world.base "app:/a.js" = .ok url := by decide +kernel
  have htext : url.text = "app:/a.js" := by decide +kernel
  have hentry : (Cycle.modules url.text).isSome := by decide +kernel
  obtain ⟨t, seen, hfirst, hevaluates⟩ := World.evaluates_depth_first Cycle.prepared hid hentry
  rw [htext] at hfirst hevaluates
  have htargets : Cycle.world.targets Cycle.modules "app:/a.js" = ["app:/b.js"] ∧
      Cycle.world.targets Cycle.modules "app:/b.js" = ["app:/a.js"] := by decide +kernel
  have hcourse : DepthFirst (Cycle.world.targets Cycle.modules) [] ["app:/a.js"]
      (.first "app:/a.js" (.first "app:/b.js" (.again "app:/a.js" .done) .done) .done)
      ["app:/b.js", "app:/a.js"] := by
    refine .first List.not_mem_nil ?_ (.done _)
    rw [htargets.1]
    refine .first (by decide) ?_ (.done _)
    rw [htargets.2]
    exact .again (by decide) (.done _)
  obtain ⟨rfl, -⟩ := hfirst.unique hcourse
  exact ⟨url, _, Cycle.prepared, hid, hentry, rfl, hevaluates _ (Nat.le_refl _)⟩

end EsModule.Loader
