import EsModule.Loader.Graph

/-!
# The steps of compiling modules

Everything that happens to the graph while modules are compiled is one of these steps. `ensure` asks
for a module. `begin`, `tick` and `receive` take a task from its request to the modules that it
depends on. `arrive` takes down that one of these is done, and `giveUp` and `complete` end the task.
Each step does nothing to a task that is at another stage.
-/

namespace EsModule.Loader

open EsModule.Compile

namespace Graph

/-! ## Asking for a module -/

/-- The task of a store id that is not settled. If there is none, one is made, which is idle and
will request the text at some address. -/
def taskFor (g : Graph) (storeId : String) (request : Url) : Option Nat × Graph :=
  match g.slots[storeId]? with
  | some (.ready _) | some .absent => (none, g)
  | some (.pending t) => (some t, g)
  | none =>
    let (t, g) := g.newTask ⟨storeId, request, false, .idle⟩
    (some t, { g with slots := g.slots.insert storeId (.pending t) })

/-- Asks for a module on behalf of another one, or of the host. There is nothing to wait for if the
module is settled, or if waiting for it would close a circle. -/
def ensure (g : Graph) (storeId : String) (request : Url) (waiter : Option String) :
    Option Await × Graph :=
  match g.taskFor storeId request, waiter with
  | (none, g), _ => (none, g)
  | (some t, g), none => (some ⟨t, storeId⟩, g)
  | (some t, g), some waiter =>
    if g.reaches storeId waiter then (none, g)
    else (some ⟨t, storeId⟩, g.addWait ⟨waiter, storeId⟩)

/-! ## The end of a task -/

/-- What a store id becomes when its task is done. After an error nothing is known of it any more.
-/
def settle (g : Graph) (storeId : String) (outcome : Outcome) : Graph :=
  match outcome with
  | .ok (some c) =>
    { g with slots := g.slots.insert storeId (.ready c.resource)
             edges := g.edges.insert storeId c.dependencies }
  | .ok none => { g with slots := g.slots.insert storeId .absent }
  | .error _ => { g with slots := g.slots.erase storeId, edges := g.edges.erase storeId }

/-- Ends a task. -/
def finish (g : Graph) (t : Nat) (outcome : Outcome) : Graph :=
  match g.tasks[t]? with
  | none => g
  | some task =>
    let g := { g with declared := g.declared.erase task.storeId }
    let g := if task.isInline then g else g.settle task.storeId outcome
    g.setProgress t (.done outcome)

/-- Ends a task in an error. It does not wait any more. -/
def abandon (g : Graph) (t : Nat) (storeId : String) (awaits : List Await) (e : LoadError) :
    Graph :=
  (awaits.foldl (fun g a => g.removeWait ⟨storeId, a.target⟩) g).finish t (.error e)

/-! ## Fetching -/

/-- Begins an idle task: makes its request, if the scheme is allowed. -/
def begin (g : Graph) (site : Site) (t : Nat) : Graph :=
  match g.tasks[t]? with
  | some ⟨_, request, _, .idle⟩ =>
    if site.config.allows request.scheme then
      let delay := (site.fetcher.delays[request.text]?).getD 0
      let answer := site.fetcher.retrieve request
      { g with requests := g.requests + 1 }.setProgress t (.fetching delay answer)
    else g.finish t (.error (.schemeNotAllowed request.scheme request.text))
  | _ => g

/-- Asks in vain for an answer that is delayed. -/
def tick (g : Graph) (t : Nat) : Graph :=
  match g.progress? t with
  | some (.fetching (delay + 1) answer) => g.setProgress t (.fetching delay answer)
  | _ => g

/-- Whether a task waits for an answer that is delayed. -/
def isDelayed (g : Graph) (t : Nat) : Bool :=
  match g.progress? t with
  | some (.fetching (_ + 1) _) => true
  | _ => false

/-! ## Analysing -/

/-- Whether what a module exports depends on other modules. -/
def hasStars (i : Interface) : Bool := i.imports.any fun i => i.isExport && i.names.isEmpty

/-- Asks for the modules that a module depends on. -/
def askForAll (storeId : String) (realUrl : Url) :
    List String → Children → Graph → Except (LoadError × Children) Children × Graph
  | [], children, g => (.ok children, g)
  | specifier :: specifiers, children, g =>
    match resolve storeId specifier,
        (realUrl.join specifier).mapError (LoadError.ofUrl specifier) with
    | .ok child, .ok request =>
      let (await, g) := g.ensure child.text request (some storeId)
      askForAll storeId realUrl specifiers
        ⟨children.dependencies ++ [child.text], children.awaits ++ await.toList⟩ g
    | .error e, _ | .ok _, .error e => (.error (e, children), g)

/-- Takes the text of a module: reads it, says what the module exports for certain, and asks for the
modules that it depends on. -/
def analyse (g : Graph) (t : Nat) (storeId : String) (r : Response) : Graph :=
  match Module.ofSource r.body storeId with
  | .error e => g.finish t (.error (.compile e))
  | .ok m =>
    let i := m.interface
    let g := if hasStars i then g
      else { g with declared := g.declared.insert storeId i.declared }
    match askForAll storeId r.finalUrl i.dependencies ⟨[], []⟩ g with
    | (.ok children, g) =>
      g.setProgress t (.waiting ⟨m, r.finalUrl, children.dependencies, children.awaits⟩)
    | (.error (e, children), g) => g.abandon t storeId children.awaits e

/-- Takes an answer that is there. -/
def receive (g : Graph) (t : Nat) : Graph :=
  match g.tasks[t]? with
  | some ⟨storeId, _, _, .fetching 0 answer⟩ =>
    match answer with
    | .ok r => if r.isSuccess then g.analyse t storeId r else g.finish t (.ok none)
    | .error _ => g.finish t (.ok none)
  | _ => g

/-! ## Waiting -/

/-- Takes down that a task for which another one waits is done. -/
def arrive (g : Graph) (t : Nat) (a : Await) : Graph :=
  match g.tasks[t]? with
  | some ⟨storeId, _, _, .waiting analysis⟩ =>
    (g.setProgress t (.waiting { analysis with awaits := analysis.awaits.erase a })).removeWait
      ⟨storeId, a.target⟩
  | _ => g

/-- Gives up a task, since one that it waits for ended in an error. -/
def giveUp (g : Graph) (t : Nat) (e : LoadError) : Graph :=
  match g.tasks[t]? with
  | some ⟨storeId, _, _, .waiting analysis⟩ => g.abandon t storeId analysis.awaits e
  | _ => g

/-- The outcome of a module whose dependencies are compiled. -/
def outcomeOf (g : Graph) (storeId : String) (a : Analysis) : Outcome :=
  match a.module.output (g.lookup storeId) with
  | .ok o => .ok (some ⟨⟨storeId, a.realUrl.text, o.code, o.map, o.exports⟩, a.dependencies⟩)
  | .error e => .error (.compile e)

/-- Ends a task that waits for nothing any more. -/
def complete (g : Graph) (t : Nat) : Graph :=
  match g.tasks[t]? with
  | some ⟨storeId, _, _, .waiting analysis⟩ =>
    if analysis.awaits.isEmpty then g.finish t (g.outcomeOf storeId analysis) else g
  | _ => g

/-!
## Driving tasks on

Nothing happens to a task unless somebody asks for its outcome. Who asks drives the task on as far
as it goes: through its own steps, and then by asking the tasks that it waits for, one after the
other. The first of these that ended in an error ends the task at once, and those behind it are not
asked. A task that is being asked already gives no outcome; else the first one would wait for
itself.

Asking goes from task to task, and each one can make further tasks. How deep that goes has no bound
that could be known before, so `depth` gives one.
-/

/-- What came of asking several tasks. -/
inductive Asked where
  /-- All of them are done. -/
  | allDone
  /-- Some of them are not done. -/
  | notYet
  /-- One of them ended in an error. -/
  | failed (e : LoadError)

/-- Asks the tasks that a task waits for, in their order. -/
def askAwaits (ask : Nat → Graph → Option Outcome × Graph) (t : Nat) :
    List Await → Bool → Graph → Asked × Graph
  | [], all, g => (if all then .allDone else .notYet, g)
  | a :: awaits, all, g =>
    match ask a.task g with
    | (none, g) => askAwaits ask t awaits false g
    | (some (.ok _), g) => askAwaits ask t awaits all (g.arrive t a)
    | (some (.error e), g) => (.failed e, g)

/-- Ends a task, or not, as the tasks that it waits for say. -/
def conclude (g : Graph) (t : Nat) : Asked → Graph
  | .allDone => g.complete t
  | .notYet => g
  | .failed e => g.giveUp t e

/-- The outcome of a task that is done. -/
def outcome? (g : Graph) (t : Nat) : Option Outcome :=
  match g.progress? t with
  | some (.done outcome) => some outcome
  | _ => none

/-- The tasks that a task waits for. -/
def awaitsOf (g : Graph) (t : Nat) : Option (List Await) :=
  match g.progress? t with
  | some (.waiting analysis) => some analysis.awaits
  | _ => none

/-- Asks for the outcome of a task, on behalf of the tasks that are being asked. -/
def ask (site : Site) : Nat → List Nat → Nat → Graph → Option Outcome × Graph
  | 0, _, _, g => (none, g)
  | depth + 1, asking, t, g =>
    if t ∈ asking then (none, g)
    else
      let g := g.begin site t
      if g.isDelayed t then (none, g.tick t)
      else
        let g := g.receive t
        match g.awaitsOf t with
        | some awaits =>
          let (asked, g) := askAwaits (ask site depth (t :: asking)) t awaits true g
          let g := g.conclude t asked
          (g.outcome? t, g)
        | none => (g.outcome? t, g)

/-- Asks several tasks, in their order. Also gives those that are not done. -/
def askAll (ask : Nat → Graph → Option Outcome × Graph) :
    List Nat → Graph → Except LoadError (List Nat) × Graph
  | [], g => (.ok [], g)
  | t :: tasks, g =>
    match ask t g with
    | (some (.error e), g) => (.error e, g)
    | (outcome, g) =>
      match askAll ask tasks g with
      | (.ok left, g) => (.ok (if outcome.isNone then t :: left else left), g)
      | (.error e, g) => (.error e, g)

end Graph

end EsModule.Loader
