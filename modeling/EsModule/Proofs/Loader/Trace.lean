import EsModule.Proofs.Loader.Moments

/-!
# What happens while a module is imported

An import may start many bodies, and these import further modules. `importTrace` lists what happens
meanwhile in order: which bodies are started and end, and which imports find a record that is
registered and give it at once. It goes through the same worlds as `importAt`.

Whatever holds of the single things that a body does holds of all that it does
(`Importer.Obeys.run`). So what a trace says of bodies is a run of the loader
(`importTrace_runs`).
-/

namespace EsModule.Loader

open Relation

/-! ## Traces -/

/-- What happens while a module is imported. -/
inductive Passage where
  /-- A body is started with a record. -/
  | start (storeId : String) (r : Nat)
  /-- An import gives at once a record that is registered, in which some names are installed. -/
  | give (storeId : String) (r : Nat) (installed : List String)
  /-- A body ends. -/
  | finish (storeId : String) (r : Nat) (result : Except LoadError Unit)

/-- Says what happens while a module is imported. -/
abbrev Tracer : Type := String → World → List Passage

/-- What happens while a body imports a module by its specifier. -/
def World.traceFor (tracer : Tracer) (w : World) (caps : Capabilities) (specifier : String) :
    List Passage :=
  match resolve caps.storeId specifier with
  | .error _ => []
  | .ok url => if w.heap.isOpen caps.loader then tracer url.text w else []

/-- What happens while a body runs. -/
def Body.trace (importModule : Importer) (tracer : Tracer) (caps : Capabilities) (frame : Nat) :
    Body → World → List Passage
  | .finish _, _ => []
  | .installExports entries next, w =>
    let (result, w) := w.installExports caps frame entries
    (next result).trace importModule tracer caps frame w
  | .importModule specifier handle next, w =>
    let (result, w') := w.importFor importModule caps frame specifier handle
    w.traceFor tracer caps specifier ++ (next result).trace importModule tracer caps frame w'
  | .read handle name next, w =>
    let (v, w) := w.readFor frame handle name
    (next v).trace importModule tracer caps frame w
  | .write handle name next, w =>
    let (result, w) := w.writeFor frame handle name
    (next result).trace importModule tracer caps frame w
  | .openNamespace handle next, w =>
    let (n, w) := w.openFor caps frame handle
    (next n).trace importModule tracer caps frame w
  | .store name v next, w =>
    next.trace importModule tracer caps frame
      { w with heap := w.heap.store ⟨caps.storeId, name⟩ v }
  | .address next, w => (next caps.realUrl).trace importModule tracer caps frame w
  | .keep next, w =>
    next.trace importModule tracer caps frame { w with kept := w.kept.insert caps.storeId caps }
  | .log entry next, w => next.trace importModule tracer caps frame (w.addLog entry)

/-- What happens while a body runs in an execution of its own. -/
def World.traceBody (importModule : Importer) (tracer : Tracer) (w : World) (caps : Capabilities)
    (body : Body) : List Passage :=
  let (frame, heap) := w.heap.newFrame caps.loader
  body.trace importModule tracer caps frame { w with heap := heap }

/-- What happens while the body of a module runs. -/
def World.traceModule (importModule : Importer) (tracer : Tracer) (w : World)
    (caps : Capabilities) : List Passage :=
  match w.bodies[caps.storeId]? with
  | none => []
  | some body => { w with runs := w.runs + 1 }.traceBody importModule tracer caps body

/-- What happens when a compiled module runs that has not run yet. -/
def World.traceStart (importModule : Importer) (tracer : Tracer) (w : World) (storeId : String)
    (resource : Resource) : List Passage :=
  let (r, w) := w.enrol storeId resource
  let caps : Capabilities := ⟨w.heap.loader.getD 0, r, resource.storeId, resource.realUrl⟩
  .start storeId r :: w.traceModule importModule tracer caps ++
    [.finish resource.storeId r (w.runModule importModule caps).1]

/-- What happens while the module of a store id is imported, when so many bodies may run inside of
each other. -/
def importTrace : Nat → Tracer
  | 0, _, _ => []
  | depth + 1, id, w =>
    match resolveId w.base id with
    | .error _ => []
    | .ok url =>
      match w.modules[url.text]?, w.graph.slots[url.text]? with
      | some r, _ =>
        match w.failure? r with
        | some _ => []
        | none => [.give url.text r (((w.heap.record? r).map (·.keys)).getD [])]
      | none, some (.ready resource) =>
        w.traceStart (importAt depth) (importTrace depth) url.text resource
      | none, _ => []

/-! ## The single things that a body does -/

/-- What a body does that changes no record. -/
inductive World.Light (w : World) : World → Prop where
  /-- It is given the namespace of a record under a handle. -/
  | name {frame r : Nat} {handle : String} (h : w.heap.handle frame handle = .ok r) :
    Light w { w with heap := (w.heap.namespaceOf r).2 }
  /-- It gives a binding a value. -/
  | store (c : Cell) (v : Value) : Light w { w with heap := w.heap.store c v }
  /-- It leaves something in the log or keeps its capabilities. -/
  | leave (log : List LogEntry) (kept : Table Capabilities) :
    Light w { w with log := log, kept := kept }

theorem Heap.openNamespace_eq (h : Heap) (loader r : Nat) :
    (h.openNamespace loader r).2 = h ∨ (h.openNamespace loader r).2 = (h.namespaceOf r).2 := by
  unfold openNamespace
  split
  · exact .inr rfl
  · exact .inl rfl

/-- Reading an export changes nothing, or makes a namespace for a record under a handle. -/
theorem Heap.read_eq (bound r : Nat) (name : String) (h : Heap) :
    (read bound r name h).2 = h ∨ ∃ frame handle r', h.handle frame handle = .ok r' ∧
      (read bound r name h).2 = (h.namespaceOf r').2 := by
  induction bound generalizing r name with
  | zero => exact .inl rfl
  | succ bound ih =>
    unfold read
    split
    · exact .inl rfl
    split <;> try exact .inl rfl
    · split
      · exact ih _ _
      · exact .inl rfl
    · split
      · rename_i hhandle
        exact (h.openNamespace_eq _ _).imp_right fun heq => ⟨_, _, _, hhandle, heq⟩
      · exact .inl rfl

namespace World

variable {w : World} {caps : Capabilities}

/-- Reading an export of a record is light. -/
theorem get_light (w : World) (r : Nat) (name : String) :
    ReflTransGen Light w { w with heap := (w.heap.get r name).2 } := by
  unfold Heap.get
  rcases w.heap.read_eq (w.heap.readerCount + 1) r name with heq | ⟨frame, handle, r', hr', heq⟩
  · rw [heq]
  · rw [heq]
    exact .single (.name hr')

theorem readFor_light (w : World) (frame : Nat) (handle name : String) :
    ReflTransGen Light w (w.readFor frame handle name).2 := by
  unfold readFor
  split
  · exact w.get_light _ name
  · exact .refl

theorem writeFor_light (w : World) (frame : Nat) (handle name : String) :
    ReflTransGen Light w (w.writeFor frame handle name).2 := by
  unfold writeFor
  split <;> exact .refl

theorem openFor_light (w : World) (frame : Nat) (handle : String) :
    ReflTransGen Light w (w.openFor caps frame handle).2 := by
  unfold openFor
  split
  · rename_i r hr
    dsimp only
    rcases w.heap.openNamespace_eq caps.loader r with heq | heq
    · rw [heq]
    · rw [heq]
      exact .single (.name hr)
  · exact .refl

end World

/-! ## All that a body does -/

/-- A property of passing from one world to another, with what happens meanwhile, that holds of the
single things that a body does, and of its imports. -/
structure Importer.Obeys (importModule : Importer) (tracer : Tracer)
    (P : List Passage → World → World → Prop) : Prop where
  refl : ∀ w, P [] w w
  trans : ∀ {l l' : List Passage} {w w' w'' : World}, P l w w' → P l' w' w'' → P (l ++ l') w w''
  light : ∀ {w w' : World}, w.Light w' → P [] w w'
  install : ∀ (w : World) (r : Nat) (entries : List (String × Reader)),
    P [] w { w with heap := w.heap.install r entries }
  imported : ∀ id w, P (tracer id w) w (importModule id w).2
  /-- A record that was imported is given a handle. -/
  handled : ∀ {id : String} {w w' : World} {r : Nat}, importModule id w = (.ok r, w') →
    ∀ frame handle, P (tracer id w) w { w' with heap := w'.heap.setHandle frame handle r }

namespace Importer.Obeys

variable {importModule : Importer} {tracer : Tracer} {P : List Passage → World → World → Prop}
  {caps : Capabilities} {w : World} (h : importModule.Obeys tracer P)
include h

theorem lights {w w' : World} (hs : ReflTransGen World.Light w w') : P [] w w' := by
  induction hs with
  | refl => exact h.refl w
  | tail _ hstep ih => exact h.trans ih (h.light hstep)

theorem installExports (w : World) (frame : Nat) (entries : List (String × Source)) :
    P [] w (w.installExports caps frame entries).2 := by
  unfold World.installExports
  split
  · exact h.install w _ _
  · exact h.refl w

theorem importFor (w : World) (frame : Nat) (specifier handle : String) :
    P (w.traceFor tracer caps specifier) w
      (w.importFor importModule caps frame specifier handle).2 := by
  unfold World.importFor World.traceFor
  cases resolve caps.storeId specifier with
  | error e => exact h.refl w
  | ok url =>
    dsimp only
    split
    · split
      · rename_i heq
        exact h.handled heq frame handle
      · rename_i heq
        have himport := h.imported url.text w
        rw [heq] at himport
        exact himport
    · exact h.refl w

/-- What holds of the single things that a body does holds of all that it does. -/
theorem run (frame : Nat) (body : Body) (w : World) :
    P (body.trace importModule tracer caps frame w) w (body.run importModule caps frame w).2 := by
  induction body generalizing w with
  | finish => exact h.refl w
  | installExports entries _ ih => exact h.trans (h.installExports w frame entries) (ih _ _)
  | importModule specifier handle _ ih =>
    exact h.trans (h.importFor w frame specifier handle) (ih _ _)
  | read handle name _ ih => exact h.trans (h.lights (w.readFor_light frame handle name)) (ih _ _)
  | write handle name _ ih => exact h.trans (h.lights (w.writeFor_light frame handle name)) (ih _ _)
  | openNamespace handle _ ih => exact h.trans (h.lights (w.openFor_light frame handle)) (ih _ _)
  | store name v _ ih => exact h.trans (h.light (.store ⟨caps.storeId, name⟩ v)) (ih _)
  | address _ ih => exact ih _ w
  | keep _ ih => exact h.trans (h.light (.leave w.log _)) (ih _)
  | log entry _ ih => exact h.trans (h.light (.leave (w.log ++ [entry]) w.kept)) (ih _)

end Importer.Obeys

/-! ## Modules that end without an error -/

namespace World

/-- The capabilities of a module that is started now. -/
def capabilities (v : World) (resource : Resource) : Capabilities :=
  ⟨v.heap.loader.getD 0, v.heap.records.size, resource.storeId, resource.realUrl⟩

section Start

variable {v : World} {s : String} {resource : Resource} {importModule : Importer} {tracer : Tracer}
  (h : ((v.enrol s resource).2.runModule importModule (v.capabilities resource)).1 = .ok ())
include h

/-- A module that is started and ends without an error gives the record that it was started with. -/
theorem start_ok : v.start importModule s resource = (.ok v.heap.records.size,
    ((v.enrol s resource).2.runModule importModule (v.capabilities resource)).2) := by
  have hexecute : (v.enrol s resource).2.execute importModule resource v.heap.records.size =
      (.ok (), _) :=
    congrArg (fun result : Except LoadError Unit => (result,
      ((v.enrol s resource).2.runModule importModule (v.capabilities resource)).2.concludeRun
        resource.storeId v.heap.records.size result)) h
  exact congrArg (fun ran : Except LoadError Unit × World =>
    (ran.1.map fun _ => v.heap.records.size, ran.2)) hexecute

theorem traceStart_ok : v.traceStart importModule tracer s resource =
    .start s v.heap.records.size ::
      (v.enrol s resource).2.traceModule importModule tracer (v.capabilities resource) ++
        [.finish resource.storeId v.heap.records.size (.ok ())] :=
  congrArg (fun result => .start s v.heap.records.size ::
    (v.enrol s resource).2.traceModule importModule tracer (v.capabilities resource) ++
      [Passage.finish resource.storeId v.heap.records.size result]) h

end Start

end World

/-! ## Traces are runs -/

/-- What happens to registered records, if anything does. -/
def Passage.event? : Passage → Option Event
  | .start storeId r => some (.started storeId r)
  | .give .. => none
  | .finish storeId r result => some (.ended storeId r result)

/-- What happens to registered records, with the latest event first. -/
def events (trace : List Passage) : List Event := (trace.filterMap Passage.event?).reverse

theorem events_append (l l' : List Passage) : events (l ++ l') = events l' ++ events l := by
  simp [events]

theorem World.Light.quiet {w w' : World} (h : w.Light w') : w.Quiet w' := by
  cases h with
  | name h => exact .heap (.namespaceOf _)
  | store c v => exact .heap (.store c v)
  | leave log kept => exact .around w.fetcher w.bodies w.runs log kept

/-- One state of a loader comes from another by steps whose events are those of a trace, while some
bodies are running. -/
def Retraces (l : List Passage) (w w' : World) : Prop :=
  ∀ running, Runs ⟨w, running⟩ (events l) ⟨w', running⟩

namespace Retraces

variable {importModule : Importer} {tracer : Tracer} {w w' w'' : World}

theorem trans {l l' : List Passage} (h : Retraces l w w') (h' : Retraces l' w' w'') :
    Retraces (l ++ l') w w'' := by
  intro running
  rw [events_append]
  exact (h running).trans (h' running)

theorem quiet (h : w.Quiet w') : Retraces [] w w' :=
  fun running => .step .refl (.quiet h running)

/-- An importer whose imports retrace their traces has bodies that do. -/
theorem obeys (h : ∀ id w, Retraces (tracer id w) w (importModule id w).2) :
    importModule.Obeys tracer Retraces where
  refl _ _ := .refl
  trans := trans
  light hstep := quiet hstep.quiet
  install _ r entries := quiet (.heap (.install r entries))
  imported := h
  handled {id w w' r} heq frame handle := by
    have hhandled : Retraces [] w' { w' with heap := w'.heap.setHandle frame handle r } :=
      quiet (.heap (.setHandle frame handle r))
    have himported := h id w
    rw [heq] at himported
    have hboth := himported.trans hhandled
    rwa [List.append_nil] at hboth

theorem runBody (h : ∀ id w, Retraces (tracer id w) w (importModule id w).2) (w : World)
    (caps : Capabilities) (body : Body) : Retraces (w.traceBody importModule tracer caps body) w
      (w.runBody importModule caps body).2 :=
  (quiet (.heap (.newFrame caps.loader))).trans ((obeys h).run _ body _)

theorem runModule (h : ∀ id w, Retraces (tracer id w) w (importModule id w).2) (w : World)
    (caps : Capabilities) : Retraces (w.traceModule importModule tracer caps) w
      (w.runModule importModule caps).2 := by
  unfold World.traceModule World.runModule
  cases w.bodies[caps.storeId]? with
  | none => exact fun _ => .refl
  | some body =>
    have hcounted : Retraces [] w { w with runs := w.runs + 1 } :=
      quiet (.around w.fetcher w.bodies (w.runs + 1) w.log w.kept)
    exact hcounted.trans (runBody h _ caps body)

/-- A module that is started: its body is the first of the running ones until it ends. -/
theorem start (h : ∀ id w, Retraces (tracer id w) w (importModule id w).2) {s : String}
    {resource : Resource} (hnew : w.modules[s]? = none)
    (hready : w.graph.slots[s]? = some (.ready resource)) :
    Retraces (w.traceStart importModule tracer s resource) w
      (w.start importModule s resource).2 := by
  intro running
  let run : Run := ⟨resource.storeId, (w.enrol s resource).1, true⟩
  let caps : Capabilities := ⟨(w.enrol s resource).2.heap.loader.getD 0, (w.enrol s resource).1,
    resource.storeId, resource.realUrl⟩
  have hstart := Runs.step .refl (.start hnew hready running)
  have hbody := runModule h (w.enrol s resource).2 caps (run :: running)
  have hfinish := (hstart.trans hbody).step (.finish (List.mem_cons_self (a := run))
    ((w.enrol s resource).2.runModule importModule caps).1)
  rw [List.erase_cons_head] at hfinish
  have hevents : events (w.traceStart importModule tracer s resource) =
      run.ending ((w.enrol s resource).2.runModule importModule caps).1 ++
        (events ((w.enrol s resource).2.traceModule importModule tracer caps) ++
          ([Event.started s (w.enrol s resource).1] ++ [])) := by
    simp [World.traceStart, events, Passage.event?, Run.ending, run, caps]
  rw [hevents]
  exact hfinish

end Retraces

/-- What a trace says of bodies is a run of the loader. -/
theorem importTrace_runs (depth : Nat) (id : String) (w : World) :
    Retraces (importTrace depth id w) w (importAt depth id w).2 := by
  -- the depth falls from an import to those inside of the body that it starts
  induction depth generalizing id w with
  | zero => exact fun _ => .refl
  | succ depth ih =>
    unfold importTrace importAt
    cases resolveId w.base id with
    | error e => exact fun _ => .refl
    | ok url =>
      dsimp only
      cases hmodules : w.modules[url.text]? with
      | some r =>
        dsimp only
        cases w.failure? r <;> exact fun _ => .refl
      | none =>
        cases hslot : w.graph.slots[url.text]? with
        | none => exact fun _ => .refl
        | some slot =>
          cases slot with
          | ready resource => exact Retraces.start ih hmodules hslot
          | pending t => exact fun _ => .refl
          | absent => exact fun _ => .refl

end EsModule.Loader
