import EsModule.Loader.Call
import EsModule.Proofs.Loader.Progress
import Mathlib.Algebra.Order.BigOperators.Group.Finset

/-!
# Compiling modules that do not depend on themselves

If no module behind an entry depends on itself, the export lists of all of them are fixed before any
is compiled (`Site.ExportLists`). Then a call that compiles the entry comes to an end. Whatever the
order in which answers come and tasks go on, the entry is compiled exactly if no name is missing
behind it, and then every module behind it is compiled with its export list
(`compile_acyclic`).
-/

namespace EsModule.Loader

open EsModule.Compile Relation

variable {entry : Url} {E : Url → List String}

/-! ## Rounds -/

namespace Graph

/-- How much is left to be done for some modules. -/
def workOn (site : Site) (R : Finset Url) (g : Graph) : Nat := R.sum (work site g)

theorem workOn_lt {site : Site} {R : Finset Url} {g g' : Graph}
    (hR : ∀ u, u ∈ R ↔ site.Reaches entry u) (h : Shrinks site entry g g')
    (h' : ShrinksSome site entry g g') : workOn site R g' < workOn site R g := by
  obtain ⟨u, hu, hlt⟩ := h'
  exact Finset.sum_lt_sum (fun v hv => h v ((hR v).mp hv)) ⟨u, (hR u).mpr hu, hlt⟩

end Graph

/-- What a call that compiles the module of a task becomes, once it knows what there is of the
outcome. -/
def Call.ofOutcome (t : Nat) : Option Outcome → Call
  | some o => .done (o.map fun _ => none)
  | none => .compiling t .compile

namespace World

variable {w : World} {t : Nat}

theorem poll_done (depth steps : Nat) (result : Except LoadError (Option Namespace)) (w : World) :
    poll depth steps (.done result) w = (.done result, w) := by
  cases steps <;> rfl

/-- A call that waits for a task asks for its outcome once. -/
theorem poll_compiling (depth steps t : Nat) (w : World) :
    poll depth (steps + 1) (.compiling t .compile) w =
      (.ofOutcome t (w.ask depth t).1, (w.ask depth t).2) := by
  unfold poll advance
  dsimp only
  generalize w.ask depth t = result
  obtain ⟨_ | _ | _, g⟩ := result
  · rfl
  · exact poll_done ..
  · exact poll_done ..

/-- A call that was only asked for begins, and goes on at once. -/
theorem poll_asked {request : Request} {call : Call} {w' : World} (depth steps : Nat)
    (h : w.begin request = (call, w')) :
    poll depth (steps + 1) (.asked request) w = poll depth steps call w' := by
  conv_lhs => unfold poll advance
  dsimp only
  rw [h]

theorem drive_done (bound rounds : Nat) (result : Except LoadError (Option Namespace)) (w : World) :
    drive bound rounds [.done result] w = ([some result], w) := by
  cases rounds <;> rfl

/-- A call that is not done is polled once in every round. -/
theorem drive_succ {call : Call} (h : call.result? = none) (bound rounds : Nat) (w : World) :
    drive bound (rounds + 1) [call] w =
      drive bound rounds [(poll bound bound call w).1] (poll bound bound call w).2 := by
  conv_lhs => unfold drive
  simp only [List.all_cons, h, Option.isSome_none, Bool.false_and, Bool.false_eq_true, reduceIte,
    pollAll]

/-- A call that compiles a module is done after as many rounds as there is work to be done. -/
theorem drive_compiling (hp : w.site.Plain entry) (hE : w.site.ExportLists entry E)
    {R : Finset Url} (hR : ∀ u, u ∈ R ↔ w.site.Reaches entry u) {height : Url → Nat}
    (hheight : ∀ u, w.site.Reaches entry u → ∀ v, w.site.Depends u v → height v < height u)
    {bound : Nat} {task : Task} (hdepth : height task.request < bound)
    (h : w.graph.Follows w.site entry E) (ht : w.graph.tasks[t]? = some task)
    {rounds : Nat} (hrounds : w.graph.workOn w.site R < rounds) :
    ∃ o g, drive bound rounds [.compiling t .compile] w =
        ([some (o.map fun _ => none)], { w with graph := g }) ∧
      Graph.TaskSteps w.site w.graph g ∧ g.outcome? t = some o := by
  induction rounds generalizing w task with
  | zero => exact absurd hrounds (Nat.not_lt_zero _)
  | succ rounds ih =>
    obtain ⟨bound, rfl⟩ := Nat.exists_eq_succ_of_ne_zero (Nat.ne_zero_of_lt hdepth)
    have hdrives := Graph.ask_drives w.site (bound + 1) []
    have hsteps := hdrives.steps t w.graph
    have houtcome := hdrives.outcome t w.graph
    have hasking : Graph.AskedFrom w.site w.graph [] task.request := nofun
    have hadvances := h.ask_advances hp hE hheight ht hdepth hasking
    rw [drive_succ rfl, poll_compiling, World.ask]
    generalize Graph.ask w.site (bound + 1) [] t w.graph = result at *
    obtain ⟨outcome, g⟩ := result
    cases outcome with
    | some o =>
      refine ⟨o, g, ?_, hsteps, houtcome o rfl⟩
      exact drive_done ..
    | none =>
      -- a round that does not end the call leaves less to be done
      obtain ⟨hfollows, hgrows⟩ := h.steps hp hE hsteps
      obtain ⟨task', ht', hrequest⟩ := hgrows.tasks t task ht
      have hless := Graph.workOn_lt hR hadvances.1 hadvances.2
      obtain ⟨o, g', hdrive, hsteps', ho⟩ := ih (w := { w with graph := g }) hp hE hR hheight
        (hrequest ▸ hdepth) hfollows ht' (Nat.lt_of_lt_of_le hless (Nat.le_of_lt_succ hrounds))
      exact ⟨o, g', hdrive, hsteps.trans hsteps', ho⟩

end World

/-! ## A fresh loader -/

theorem Graph.ensure_empty (entry : Url) :
    empty.ensure entry.text entry none = (some ⟨0, entry.text⟩, askedFor entry) ∧
      (askedFor entry).tasks[0]? = some ⟨entry.text, entry, false, .idle⟩ := by
  have hslot : empty.slots[entry.text]? = none := Std.TreeMap.getElem?_emptyc
  have htask : empty.taskFor entry.text entry =
      (some 0, (empty.taskFor entry.text entry).2) ∧
      (empty.taskFor entry.text entry).2.tasks[0]? = some ⟨entry.text, entry, false, .idle⟩ := by
    unfold taskFor
    rw [hslot]
    exact ⟨rfl, rfl⟩
  unfold askedFor ensure
  rw [htask.1]
  exact ⟨rfl, htask.2⟩

theorem World.begin_compile {w : World} {id : String} (hw : w.graph = .empty)
    (hid : resolveId w.base id = .ok entry) : w.begin (.compile id none) =
      (.compiling 0 .compile, { w with graph := Graph.askedFor entry }) := by
  unfold World.begin
  dsimp only
  rw [hid]
  unfold World.beginCompile
  dsimp only [World.requestFor]
  rw [hw, (Graph.ensure_empty entry).1]

/-! ## Compiling an entry -/

/-- An entry ends as the dependency graph behind it says: well exactly if no name is missing there,
and then everything behind it is delivered. -/
structure Site.EndsRightly (site : Site) (entry : Url) (E : Url → List String) (endsWell : Prop)
    (g : Graph) : Prop where
  links : endsWell ↔ site.Links entry E
  delivered : endsWell → site.Delivered entry E g

/-- What it means that a fresh loader compiles an entry rightly. -/
structure World.CompilesRightly (w : World) (id : String) (entry : Url) (E : Url → List String) :
    Prop where
  /-- Whatever the order in which requests are made, answers come and tasks go on, the task of the
  entry ends rightly. -/
  ends : ∀ g, Graph.TaskSteps w.site (Graph.askedFor entry) g → ∀ o, g.outcome? 0 = some o →
    w.site.EndsRightly entry E (o.isOk = true) g
  /-- Wherever that has got to, the call comes to an end if it is asked often enough. -/
  goesOn : ∀ g, Graph.TaskSteps w.site (Graph.askedFor entry) g → ∃ patience, ∀ bound ≥ patience,
    ∃ result g', World.drive bound bound [.compiling 0 .compile] { w with graph := g } =
        ([some result], { w with graph := g' }) ∧
      w.site.EndsRightly entry E (result = .ok none) g'
  /-- So does the call from its beginning. -/
  returns : ∃ patience, ∀ bound ≥ patience,
    ∃ result g, World.drive bound bound [.asked (.compile id none)] w =
        ([some result], { w with graph := g }) ∧
      w.site.EndsRightly entry E (result = .ok none) g

/-- The task of the entry ends rightly. -/
theorem Site.Plain.endsRightly {site : Site} {g : Graph} {o : Outcome} (hp : site.Plain entry)
    (hE : site.ExportLists entry E) (hsteps : Graph.TaskSteps site (Graph.askedFor entry) g)
    (ho : g.outcome? 0 = some o) : site.EndsRightly entry E (o.isOk = true) g := by
  obtain ⟨hfollows, hgrows⟩ := (Graph.follows_askedFor hp).steps hp hE hsteps
  obtain ⟨task, ht, hrequest⟩ := hgrows.tasks 0 _ (Graph.ensure_empty entry).2
  have hfits := hfollows.fits_of_outcome? ht ho
  rw [hrequest] at hfits
  cases o with
  | error e => exact ⟨⟨nofun, fun h => absurd h hfits⟩, nofun⟩
  | ok c =>
    have hsettled : g.Settled entry := hfits
    obtain ⟨hlinks, hdelivered⟩ := hfollows.delivered hp hsettled
    exact ⟨⟨fun _ => hlinks, fun _ => rfl⟩, fun _ => hdelivered⟩

/-- The call that compiles the entry comes to an end. -/
theorem World.exists_patience {w : World} (hp : w.site.Plain entry)
    (hE : w.site.ExportLists entry E)
    (hsteps : Graph.TaskSteps w.site (Graph.askedFor entry) w.graph) :
    ∃ patience, ∀ bound ≥ patience, ∃ result g,
      World.drive bound bound [.compiling 0 .compile] w = ([some result], { w with graph := g }) ∧
      w.site.EndsRightly entry E (result = .ok none) g := by
  classical
  obtain ⟨behind, hbehind⟩ := hp.exists_finset
  obtain ⟨height, hheight⟩ := hp.exists_height
  let R := behind.filter (w.site.Reaches entry)
  have hR : ∀ u, u ∈ R ↔ w.site.Reaches entry u := fun u =>
    ⟨fun hu => (Finset.mem_filter.mp hu).2, fun hu => Finset.mem_filter.mpr ⟨hbehind u hu, hu⟩⟩
  obtain ⟨hfollows, hgrows⟩ := (Graph.follows_askedFor hp).steps hp hE hsteps
  obtain ⟨task, ht, hrequest⟩ := hgrows.tasks 0 _ (Graph.ensure_empty entry).2
  have hrequest : task.request = entry := hrequest
  refine ⟨height entry + w.graph.workOn w.site R + 1, fun bound hbound => ?_⟩
  have hdepth : height task.request < bound := by
    rw [hrequest]
    omega
  have hrounds : w.graph.workOn w.site R < bound := by omega
  obtain ⟨o, g, hdrive, hrest, ho⟩ :=
    World.drive_compiling hp hE hR hheight hdepth hfollows ht hrounds
  refine ⟨_, g, hdrive, ?_⟩
  have hends := hp.endsRightly hE (hsteps.trans hrest) ho
  have hresult : o.map (fun _ => none) = (.ok none : Except LoadError (Option Namespace)) ↔
      o.isOk = true := by
    cases o <;> simp [Except.map, Except.isOk, Except.toBool]
  exact ⟨hresult.trans hends.links, fun h => hends.delivered (hresult.mp h)⟩

/-- If no module behind an entry depends on itself, all of them have export lists, and a fresh
loader compiles the entry rightly with regard to them. -/
theorem compile_acyclic {w : World} {id : String} (hw : w.graph = .empty)
    (hid : resolveId w.base id = .ok entry) (hp : w.site.Plain entry) :
    (∃ E, w.site.ExportLists entry E) ∧
      ∀ E, w.site.ExportLists entry E → w.CompilesRightly id entry E := by
  refine ⟨Site.exists_exportLists hp, fun E hE => ⟨fun g hsteps o => hp.endsRightly hE hsteps,
    fun g hsteps => World.exists_patience (w := { w with graph := g }) hp hE hsteps, ?_⟩⟩
  let begun : World := { w with graph := Graph.askedFor entry }
  obtain ⟨patience, hpatience⟩ := World.exists_patience (w := begun) hp hE .refl
  refine ⟨patience + 2, fun bound hbound => ?_⟩
  obtain ⟨result, g, hdrive, hends⟩ := hpatience bound (by omega)
  obtain ⟨rounds, rfl⟩ : ∃ rounds, bound = rounds + 2 := ⟨bound - 2, by omega⟩
  refine ⟨result, g, ?_, hends⟩
  rw [World.drive_succ rfl, World.poll_asked _ _ (World.begin_compile hw hid),
    World.poll_compiling, ← World.poll_compiling _ (rounds + 1), ← World.drive_succ rfl]
  exact hdrive

/-- A module that imports a name and exports everything of a module that exports everything of the
same one, and names one that is not served. -/
theorem compile_acyclic_shared : ∃ (w : World) (entry : Url) (E : Url → List String),
    w.graph = .empty ∧ w.fetcher.sources = .ofEntries [
      ("app:/a.js", "import {c} from './c.js'; export * from './b.js'; c;"),
      ("app:/b.js", "export * from './c.js'; import './d.js';"),
      ("app:/c.js", "export const c = 1;")] ∧
    resolveId w.base "app:/a.js" = .ok entry ∧ w.site.Plain entry ∧
    w.site.ExportLists entry E ∧ w.CompilesRightly "app:/a.js" entry E := by
  let w : World := { World.closed .empty ∅ with
    config := { Config.standard with allowedSchemes := ["app"] }
    fetcher := { Fetcher.empty with sources := .ofEntries [
      ("app:/a.js", "import {c} from './c.js'; export * from './b.js'; c;"),
      ("app:/b.js", "export * from './c.js'; import './d.js';"),
      ("app:/c.js", "export const c = 1;")] } }
  let url (name : String) : Url := ⟨"app", none, .parts [name], none, none⟩
  have hid : resolveId w.base "app:/a.js" = .ok (url "a.js") := by decide +kernel
  have hdescends : w.site.Descends [url "a.js", url "b.js", url "c.js", url "d.js"] := by
    decide +kernel
  have hp : w.site.Plain (url "a.js") :=
    hdescends.plain List.mem_cons_self (by decide +kernel) (by decide +kernel)
  obtain ⟨⟨E, hE⟩, hcompiles⟩ := compile_acyclic rfl hid hp
  exact ⟨w, url "a.js", E, rfl, rfl, hid, hp, hE, hcompiles E hE⟩

end EsModule.Loader
