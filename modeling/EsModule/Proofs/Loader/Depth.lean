import EsModule.Proofs.Loader.Registry

/-!
# The bound for bodies inside of each other never counts

A body is started only for a store id with a slot and without a registered record, and it is
registered before it runs. So the number of store ids that could still be started falls from each
body to the ones that run inside of it, and `importAt` gives the same for all bounds above that
number (`importAt_bound`). `World.importDepth` is such a bound.
-/

namespace EsModule.Loader

variable {w w' w'' : World} {s : String} {importModule : Importer} {caps : Capabilities}

/-! ## What a body keeps -/

/-- What holds of a world because of its graph and of what is registered, and is kept by importing a
module. -/
structure Importer.Keeps (importModule : Importer) (P : World → Prop) : Prop where
  around : ∀ {w w' : World}, P w → w'.graph = w.graph → w'.modules = w.modules → P w'
  imported : ∀ (id : String) {w : World}, P w → P (importModule id w).2

namespace Importer.Keeps

variable {P : World → Prop} (h : importModule.Keeps P)
include h

theorem installExports (hw : P w) (frame : Nat) (entries : List (String × Source)) :
    P (w.installExports caps frame entries).2 := by
  unfold World.installExports
  split <;> exact h.around hw rfl rfl

theorem importFor (hw : P w) (frame : Nat) (specifier handle : String) :
    P (w.importFor importModule caps frame specifier handle).2 := by
  unfold World.importFor
  split
  · exact hw
  split
  · rename_i url _ _
    have himport := h.imported url.text hw
    split
    all_goals
      rename_i heq
      rw [heq] at himport
      exact h.around himport rfl rfl
  · exact hw

theorem readFor (hw : P w) (frame : Nat) (handle name : String) :
    P (w.readFor frame handle name).2 := by
  unfold World.readFor
  split <;> exact h.around hw rfl rfl

theorem writeFor (hw : P w) (frame : Nat) (handle name : String) :
    P (w.writeFor frame handle name).2 := by
  unfold World.writeFor
  split <;> exact h.around hw rfl rfl

theorem openFor (hw : P w) (frame : Nat) (handle : String) :
    P (w.openFor caps frame handle).2 := by
  unfold World.openFor
  split <;> exact h.around hw rfl rfl

/-- What importing a module keeps, running a body keeps. -/
theorem run (frame : Nat) (body : Body) (hw : P w) :
    P (body.run importModule caps frame w).2 := by
  induction body generalizing w with
  | finish => exact hw
  | installExports entries _ ih => exact ih _ (h.installExports hw frame entries)
  | importModule specifier handle _ ih => exact ih _ (h.importFor hw frame specifier handle)
  | read handle name _ ih => exact ih _ (h.readFor hw frame handle name)
  | write handle name _ ih => exact ih _ (h.writeFor hw frame handle name)
  | openNamespace handle _ ih => exact ih _ (h.openFor hw frame handle)
  | address _ ih => exact ih _ hw
  | store | keep | log =>
    rename_i ih
    exact ih (h.around hw rfl rfl)

theorem runModule (hw : P w) (caps : Capabilities) : P (w.runModule importModule caps).2 := by
  unfold World.runModule
  split
  · exact hw
  · exact h.run _ _ (h.around hw rfl rfl)

/-- A body does not tell importers from each other that agree wherever it comes. -/
theorem run_congr {importModule' : Importer}
    (hagree : ∀ id {w}, P w → importModule id w = importModule' id w) (frame : Nat) (body : Body)
    (hw : P w) : body.run importModule caps frame w = body.run importModule' caps frame w := by
  induction body generalizing w with
  | finish => rfl
  | installExports entries _ ih => exact ih _ (h.installExports hw frame entries)
  | importModule specifier handle next ih =>
    have himport : w.importFor importModule caps frame specifier handle =
        w.importFor importModule' caps frame specifier handle := by
      unfold World.importFor
      split
      · rfl
      · rw [hagree _ hw]
    exact (ih _ (h.importFor hw frame specifier handle)).trans
      (congrArg (fun result => (next result.1).run importModule' caps frame result.2) himport)
  | read handle name _ ih => exact ih _ (h.readFor hw frame handle name)
  | write handle name _ ih => exact ih _ (h.writeFor hw frame handle name)
  | openNamespace handle _ ih => exact ih _ (h.openFor hw frame handle)
  | address _ ih => exact ih _ hw
  | store | keep | log =>
    rename_i ih
    exact ih (h.around hw rfl rfl)

theorem runModule_congr {importModule' : Importer}
    (hagree : ∀ id {w}, P w → importModule id w = importModule' id w) (hw : P w)
    (caps : Capabilities) : w.runModule importModule caps = w.runModule importModule' caps := by
  unfold World.runModule
  split
  · rfl
  · exact h.run_congr hagree _ _ (h.around hw rfl rfl)

end Importer.Keeps

/-! ## What importing a module keeps -/

/-- Nothing is compiled, and every record that is registered stays. -/
structure World.Extends (w w' : World) : Prop where
  graph : w'.graph = w.graph
  modules : ∀ (s : String) (r : Nat), w.modules[s]? = some r → w'.modules[s]? = some r

theorem World.Extends.refl (w : World) : w.Extends w := ⟨rfl, fun _ _ h => h⟩

theorem World.Extends.trans (h : w.Extends w') (h' : w'.Extends w'') : w.Extends w'' :=
  ⟨h'.graph.trans h.graph, fun s r hr => h'.modules s r (h.modules s r hr)⟩

theorem extends_enrol (hnew : w.modules[s]? = none) (resource : Resource) :
    w.Extends (w.enrol s resource).2 := by
  refine ⟨rfl, fun s' r hr => ?_⟩
  rw [modules_enrol, if_neg, hr]
  rintro rfl
  rw [hnew] at hr
  cases hr

/-- How a run ended changes only what is registered under its store id. -/
theorem concludeRun_other (w : World) (storeId : String) (r : Nat)
    (result : Except LoadError Unit) :
    (w.concludeRun storeId r result).graph = w.graph ∧ ∀ s : String, storeId ≠ s →
      (w.concludeRun storeId r result).modules[s]? = w.modules[s]? := by
  unfold World.concludeRun
  split
  · exact ⟨rfl, fun _ _ => rfl⟩
  · split
    · exact ⟨rfl, fun s hs => (Table.getElem?_erase ..).trans (if_neg hs)⟩
    · exact ⟨rfl, fun _ _ => rfl⟩
  · exact ⟨rfl, fun _ _ => rfl⟩

/-- What extends a world is kept by an importer that extends worlds. -/
theorem keeps_extends (hnamed : w.graph.SlotsNamed)
    (h : ∀ (id : String) {w : World}, w.graph.SlotsNamed → w.Extends (importModule id w).2) :
    importModule.Keeps w.Extends where
  around hw hgraph hmodules :=
    ⟨hgraph.trans hw.graph, fun s r hr => hmodules ▸ hw.modules s r hr⟩
  imported id _ hw := hw.trans (h id (hw.graph ▸ hnamed))

/-- A module that is started leaves what was registered before. -/
theorem start_extends (hnamed : w.graph.SlotsNamed)
    (h : ∀ (id : String) {w : World}, w.graph.SlotsNamed → w.Extends (importModule id w).2)
    {resource : Resource} (hnew : w.modules[s]? = none)
    (hready : w.graph.slots[s]? = some (.ready resource)) :
    w.Extends (w.start importModule s resource).2 := by
  obtain rfl : resource.storeId = s := hnamed s resource hready
  have henrol := extends_enrol hnew resource
  have hkeeps := keeps_extends (w := (w.enrol resource.storeId resource).2) hnamed h
  have hrun := hkeeps.runModule (.refl _) ⟨(w.heap.newRecord resource.storeId
    resource.exports).2.loader.getD 0, w.heap.records.size, resource.storeId, resource.realUrl⟩
  have hend := concludeRun_other
  refine ⟨(hend _ _ _ _).1.trans (hrun.graph.trans henrol.graph), fun s r hr => ?_⟩
  have hne : resource.storeId ≠ s := by
    rintro rfl
    rw [hnew] at hr
    cases hr
  exact ((hend _ _ _ _).2 s hne).trans (hrun.modules s r (henrol.modules s r hr))

theorem importAt_extends (depth : Nat) (id : String) (hnamed : w.graph.SlotsNamed) :
    w.Extends (importAt depth id w).2 := by
  induction depth generalizing id w with
  | zero => exact .refl w
  | succ depth ih =>
    unfold importAt
    split
    · exact .refl w
    split
    · split <;> exact .refl w
    · rename_i hnew hready
      have hkeep : ∀ (id : String) {w : World}, w.graph.SlotsNamed →
          w.Extends (importAt depth id w).2 := fun id _ => ih id
      exact start_extends hnamed hkeep hnew hready
    · exact .refl w
    · exact .refl w

/-! ## The bound -/

/-- The store ids with a slot and without a registered record. -/
def World.startable (w : World) : List String :=
  w.graph.slots.keys.filter fun s => (w.modules[s]?).isNone

theorem World.Extends.startable (h : w.Extends w') :
    w'.startable = w.startable.filter fun s => (w'.modules[s]?).isNone := by
  unfold World.startable
  rw [h.graph, List.filter_filter]
  refine List.filter_congr fun s _ => ?_
  cases hr : w.modules[s]? with
  | none => simp
  | some r => simp [h.modules s r hr]

theorem startable_le (h : w.Extends w') : w'.startable.length ≤ w.startable.length := by
  rw [h.startable]
  exact List.length_filter_le ..

/-- A module whose record is registered now cannot be started any more. -/
theorem startable_enrol_lt {resource : Resource} (hnew : w.modules[s]? = none)
    (hready : w.graph.slots[s]? = some (.ready resource)) :
    (w.enrol s resource).2.startable.length < w.startable.length := by
  rw [(extends_enrol hnew resource).startable]
  refine List.length_filter_lt_length_iff_exists.mpr ⟨s, List.mem_filter.mpr ⟨?_, ?_⟩, ?_⟩
  · exact Table.mem_keys hready
  · rw [hnew]
    rfl
  · rw [modules_enrol, if_pos rfl]
    exact Bool.false_ne_true

/-- Starting a module does not tell importers from each other that agree wherever its body comes. -/
theorem start_congr {importModule' : Importer} {resource : Resource}
    (hkeeps : importModule.Keeps (w.enrol s resource).2.Extends)
    (hagree : ∀ (id : String) {w' : World}, (w.enrol s resource).2.Extends w' →
      importModule id w' = importModule' id w') :
    w.start importModule s resource = w.start importModule' s resource := by
  have hrun := hkeeps.runModule_congr hagree (.refl _)
    ⟨(w.heap.newRecord s resource.exports).2.loader.getD 0, w.heap.records.size, resource.storeId,
      resource.realUrl⟩
  exact congrArg (fun result => (result.1.map fun _ => w.heap.records.size,
    result.2.concludeRun resource.storeId w.heap.records.size result.1)) hrun

/-- All bounds give the same that are greater than the number of modules that could be started. -/
theorem importAt_bound {depth depth' : Nat} (id : String) (hnamed : w.graph.SlotsNamed)
    (hdepth : w.startable.length < depth) (hdepth' : w.startable.length < depth') :
    importAt depth id w = importAt depth' id w := by
  induction depth generalizing depth' id w with
  | zero => exact absurd hdepth (Nat.not_lt_zero _)
  | succ depth ih =>
    cases depth' with
    | zero => exact absurd hdepth' (Nat.not_lt_zero _)
    | succ depth' =>
      unfold importAt
      split
      · rfl
      split
      · rfl
      · rename_i url _ _ _ resource hnew hready
        have hfewer := startable_enrol_lt hnew hready
        have hkeeps : Importer.Keeps (importAt depth) (w.enrol url.text resource).2.Extends :=
          keeps_extends hnamed fun id _ => importAt_extends depth id
        refine start_congr hkeeps fun id w' hw => ih id (hw.graph ▸ hnamed) ?_ ?_
        · have := startable_le hw
          omega
        · have := startable_le hw
          omega
      · rfl
      · rfl

/-- The bound of a loader is great enough. -/
theorem startable_lt_importDepth (w : World) : w.startable.length < w.importDepth := by
  have hkeys : w.graph.slots.keys.length = w.graph.slots.size := Std.TreeMap.length_keys
  exact Nat.lt_succ_of_le (hkeys ▸ List.length_filter_le ..)

end EsModule.Loader
