import EsModule.Proofs.Loader.Evaluation
import EsModule.Proofs.Loader.Naming

/-!
# What running a body has to do with

A body imports modules, and bodies that are started by that import others (`World.Imported`). What
they are given are records that are made meanwhile, the registered records of imported modules, and
what those hold (`World.Within`). So a body that runs leaves all else alone (`World.Apart`): records
from before stay as they are, a module that nobody imports keeps its registration, and a namespace
is made only for a record within reach. Each single thing that a body does keeps this, and so does a
run of an importer whatever bodies it starts (`World.Apart.importAt`).
-/

namespace EsModule.Loader

/-! ## Heaps -/

namespace Heap

variable {h₀ h : Heap} {reach : Nat → Prop} {r r' : Nat}

/-- What a reader of a record leads to is held by the record. -/
theorem mem_heldBy {record : Record} {name handle : String} {reader : Reader} {frame : Nat}
    (hrecord : h.record? r = some record) (hreader : record.slots[name]? = some reader)
    (hframe : reader.frame? = some frame) (hr' : h.handle frame handle = .ok r') :
    r' ∈ h.heldBy r := by
  obtain ⟨f, hf, hhandle⟩ := Option.bind_eq_some_iff.mp (handle_eq_ok.mp hr')
  have hvalue : r' ∈ f.handles.values := Table.mem_values hhandle
  unfold heldBy
  rw [hrecord]
  refine List.mem_flatMap.mpr ⟨reader, Table.mem_values hreader, ?_⟩
  simpa [hframe, hf] using hvalue

/-- A heap comes from another one by what executions do that were started since. They are given
only records within reach. -/
structure Apart (h₀ : Heap) (reach : Nat → Prop) (h : Heap) : Prop where
  records : h₀.records.size ≤ h.records.size
  frames : h₀.frames.size ≤ h.frames.size
  /-- Records from before stay as they are. -/
  older : ∀ r < h₀.records.size, h.record? r = h₀.record? r
  namespaces : ∀ n ∈ h₀.namespaces, n ∈ h.namespaces
  named : ∀ n ∈ h.namespaces, n ∈ h₀.namespaces ∨ reach n.record
  /-- Records that are made are within reach. -/
  made : ∀ r, h₀.records.size ≤ r → reach r
  handles : ∀ (frame : Nat) (handle : String) (r : Nat), h₀.frames.size ≤ frame →
    h.handle frame handle = .ok r → reach r
  /-- Readers of records within reach lead to records within reach. -/
  readers : ∀ (r r' : Nat) (record : Record) (name handle : String) (reader : Reader) (frame : Nat),
    reach r → h.record? r = some record → record.slots[name]? = some reader →
    reader.frame? = some frame → h.handle frame handle = .ok r' → reach r'

namespace Apart

/-- Reach may be anything that is closed under what records hold and has all new ones. -/
theorem start (hmade : ∀ r, h.records.size ≤ r → reach r)
    (hheld : ∀ r r', r < h.records.size → reach r → r' ∈ h.heldBy r → reach r') :
    h.Apart reach h where
  records := Nat.le_refl _
  frames := Nat.le_refl _
  older _ _ := rfl
  namespaces _ := id
  named _ hn := .inl hn
  made := hmade
  handles frame handle r hle hr := by
    rw [handle_eq_ok, Array.getElem?_eq_none hle] at hr
    cases hr
  readers r r' record name handle reader frame hr hrecord hreader hframe hr' :=
    hheld r r' (lt_of_record? (by rw [hrecord]; rfl)) hr (mem_heldBy hrecord hreader hframe hr')

variable (ha : h₀.Apart reach h)
include ha

/-- A record that was made since may change, and readers that need only new executions may come. -/
theorem modifyRecord (hr : h₀.records.size ≤ r) (change : Record → Record)
    (hchange : ∀ (record : Record) (name : String) (reader : Reader),
      (change record).slots[name]? = some reader → record.slots[name]? = some reader ∨
        ∀ frame, reader.frame? = some frame → h₀.frames.size ≤ frame) :
    h₀.Apart reach (h.modifyRecord r change) where
  records := Nat.le_trans ha.records (Nat.le_of_eq Array.size_modify.symm)
  frames := ha.frames
  older r' hr' := by
    rw [record?_modifyRecord, if_neg (by omega)]
    exact ha.older r' hr'
  namespaces := ha.namespaces
  named := ha.named
  made := ha.made
  handles := ha.handles
  readers r₁ r₂ record name handle reader frame hr₁ hrecord hreader hframe hr₂ := by
    rw [record?_modifyRecord] at hrecord
    split at hrecord
    · obtain ⟨record', hrecord', rfl⟩ := Option.map_eq_some_iff.mp hrecord
      rcases hchange record' name reader hreader with hold | hnew
      · exact ha.readers r₁ r₂ record' name handle reader frame hr₁ hrecord' hold hframe hr₂
      · exact ha.handles frame handle r₂ (hnew frame hframe) hr₂
    · exact ha.readers r₁ r₂ record name handle reader frame hr₁ hrecord hreader hframe hr₂

theorem install (hr : h₀.records.size ≤ r) {entries : List (String × Reader)}
    (hentries : ∀ entry ∈ entries, ∀ frame, entry.2.frame? = some frame →
      h₀.frames.size ≤ frame) : h₀.Apart reach (h.install r entries) :=
  ha.modifyRecord hr _ fun _ _ _ hreader =>
    (Table.mem_of_addAll hreader).imp_right fun hmem => hentries _ hmem

theorem fail (hr : h₀.records.size ≤ r) (e : LoadError) : h₀.Apart reach (h.fail r e) :=
  ha.modifyRecord hr _ fun _ _ _ hreader => .inl hreader

theorem newRecord (storeId : String) (exports : List String) :
    h₀.Apart reach (h.newRecord storeId exports).2 where
  records := Nat.le_trans ha.records (by simp [Heap.newRecord])
  frames := ha.frames
  older r hr := by
    have hle := ha.records
    rw [record?_newRecord, if_neg (by omega)]
    exact ha.older r hr
  namespaces := ha.namespaces
  named := ha.named
  made := ha.made
  handles := ha.handles
  readers r r' record name handle reader frame hr hrecord hreader hframe hr' := by
    rw [record?_newRecord] at hrecord
    split at hrecord
    · cases hrecord
      exact nomatch Std.TreeMap.getElem?_emptyc.symm.trans hreader
    · exact ha.readers r r' record name handle reader frame hr hrecord hreader hframe hr'

/-- Executions may be started and given records within reach. -/
theorem of_frames {frames : Array Frame} (hsize : h₀.frames.size ≤ frames.size)
    (hhandles : ∀ frame handle r, ({ h with frames := frames } : Heap).handle frame handle = .ok r →
      reach r ∨ h.handle frame handle = .ok r) :
    h₀.Apart reach { h with frames := frames } where
  records := ha.records
  frames := hsize
  older := ha.older
  namespaces := ha.namespaces
  named := ha.named
  made := ha.made
  handles frame handle r hle hr := (hhandles frame handle r hr).elim id (ha.handles _ _ _ hle)
  readers r r' record name handle reader frame hr hrecord hreader hframe hr' :=
    (hhandles frame handle r' hr').elim id
      (ha.readers r r' record name handle reader frame hr hrecord hreader hframe)

theorem newFrame (loader : Nat) : h₀.Apart reach (h.newFrame loader).2 := by
  have hle := ha.frames
  refine ha.of_frames (by simp; omega) fun frame handle r hr => .inr ?_
  rw [handle_eq_ok] at hr ⊢
  dsimp only at hr
  rw [Array.getElem?_push] at hr
  split at hr
  · simp at hr
  · exact hr

theorem setHandle (frame : Nat) (handle : String) (hr : reach r) :
    h₀.Apart reach (h.setHandle frame handle r) := by
  have hsize := ha.frames
  refine ha.of_frames (by simpa using hsize) fun frame' handle' r' hr' => ?_
  rw [handle_eq_ok] at hr' ⊢
  dsimp only at hr'
  rw [Array.getElem?_modify] at hr'
  split at hr'
  · obtain ⟨f, hf, hr'⟩ := Option.bind_eq_some_iff.mp hr'
    obtain ⟨f', hf', rfl⟩ := Option.map_eq_some_iff.mp hf
    rw [Table.getElem?_insert] at hr'
    split at hr'
    · cases hr'
      exact .inl hr
    · exact .inr (Option.bind_eq_some_iff.mpr ⟨f', hf', hr'⟩)
  · exact .inr hr'

theorem store (c : Cell) (v : Value) : h₀.Apart reach (h.store c v) :=
  ⟨ha.records, ha.frames, ha.older, ha.namespaces, ha.named, ha.made, ha.handles, ha.readers⟩

theorem namespaceOf (hr : reach r) : h₀.Apart reach (h.namespaceOf r).2 := by
  have hrecords := h.records_namespaceOf r
  have hframes := h.frames_namespaceOf r
  have hrecord : ∀ r', (h.namespaceOf r).2.record? r' = h.record? r' := fun r' => by
    rw [record?, hrecords]
    rfl
  have hhandle : ∀ frame handle, (h.namespaceOf r).2.handle frame handle = h.handle frame handle :=
    fun frame handle => by
      rw [Heap.handle, hframes]
      rfl
  refine ⟨?_, ?_, fun r' hr' => ?_, fun n hn => ?_, fun n hn => ?_, ha.made, ?_, ?_⟩
  · rw [hrecords]
    exact ha.records
  · rw [hframes]
    exact ha.frames
  · rw [hrecord]
    exact ha.older r' hr'
  · exact h.namespaces_namespaceOf r n (ha.namespaces n hn)
  · rcases of_mem_namespaceOf hn with hn | ⟨rfl, -⟩
    · exact ha.named n hn
    · exact .inr hr
  · simpa only [hhandle] using ha.handles
  · simpa only [hhandle, hrecord] using ha.readers

theorem openNamespace (loader : Nat) (hr : reach r) :
    h₀.Apart reach (h.openNamespace loader r).2 := by
  rcases h.openNamespace_eq loader r with heq | heq
  · rw [heq]
    exact ha
  · rw [heq]
    exact ha.namespaceOf hr

/-- Reading an export of a record within reach comes only to records within reach. -/
theorem read (bound : Nat) (hr : reach r) (name : String) :
    h₀.Apart reach (Heap.read bound r name h).2 := by
  induction bound generalizing r name with
  | zero => exact ha
  | succ bound ih =>
    unfold Heap.read
    split
    · exact ha
    rename_i record hrecord
    split <;> try exact ha
    all_goals
      rename_i hreader
      split
    · rename_i r' hr'
      exact ih (ha.readers r r' record _ _ _ _ hr hrecord hreader rfl hr') _
    · exact ha
    · rename_i r' hr'
      exact ha.openNamespace _ (ha.readers r r' record _ _ _ _ hr hrecord hreader rfl hr')
    · exact ha

end Apart

end Heap

/-! ## What bodies import -/

/-- A body may come to import a module by a specifier. -/
def Body.MayImport (specifier : String) : Body → Prop
  | .finish _ => False
  | .installExports _ next => ∃ result, (next result).MayImport specifier
  | .importModule specifier' _ next =>
    specifier' = specifier ∨ ∃ result, (next result).MayImport specifier
  | .read _ _ next => ∃ v, (next v).MayImport specifier
  | .write _ _ next => ∃ result, (next result).MayImport specifier
  | .openNamespace _ next => ∃ n, (next n).MayImport specifier
  | .address next => ∃ url, (next url).MayImport specifier
  | .store _ _ next | .keep next | .log _ next => next.MayImport specifier

theorem Body.MayImport.action {specifier storeId : String} {next : Except LoadError Unit → Body}
    {action : ScriptAction} (h : (action.body storeId next).MayImport specifier) :
    (∃ handle, action = .importModule specifier handle) ∨
      ∃ result, (next result).MayImport specifier := by
  cases action with
  | importModule specifier' handle =>
    rcases h with rfl | h
    · exact .inl ⟨handle, rfl⟩
    · exact .inr h
  | installExports | write => exact .inr h
  | store | keep | throw | log => exact .inr ⟨_, h⟩
  | address =>
    obtain ⟨_, h⟩ := h
    exact .inr ⟨_, h⟩
  | read handle name into | openNamespace handle into =>
    obtain ⟨_ | _, h⟩ := h
    · exact .inr ⟨_, h⟩
    · cases into <;> exact .inr ⟨_, h⟩

/-- A script imports modules by its actions only. -/
theorem Body.MayImport.ofScript {specifier storeId : String} {steps : List ScriptStep}
    (h : (Body.ofScript storeId steps).MayImport specifier) :
    ∃ step ∈ steps, ∃ handle, step.action = .importModule specifier handle := by
  induction steps with
  | nil => exact h.elim
  | cons step steps ih =>
    rcases Body.MayImport.action h with hstep | ⟨result, h⟩
    · exact ⟨step, List.mem_cons_self, hstep⟩
    have hrest : (Body.ofScript storeId steps).MayImport specifier := by
      cases result with
      | ok => exact h
      | error e =>
        dsimp only at h
        split at h
        · exact h
        · exact h.elim
    obtain ⟨step', hmem, hstep⟩ := ih hrest
    exact ⟨step', List.mem_cons_of_mem step hmem, hstep⟩

/-- A reader that an execution installs needs at most the handles of that execution. -/
theorem Source.frame?_reader {owner : String} {frame frame' : Nat} {source : Source}
    (h : (source.reader owner frame).frame? = some frame') : frame' = frame := by
  cases source <;> cases h <;> rfl

namespace World

/-- The body of a module may come to import another module. -/
def BodyImports (w : World) (a b : String) : Prop :=
  ∃ body specifier, w.bodies[a]? = some body ∧ body.MayImport specifier ∧
    w.target? a specifier = some b

/-- A module that may come to be imported while the body of a module runs: by that body, or by one
that is started since its module is imported and has not run. -/
inductive Imported (w : World) (s : String) : String → Prop where
  | own {a : String} (h : w.BodyImports s a) : Imported w s a
  | further {a b : String} (h : Imported w s a) (hnew : w.modules[a]? = none)
    (himports : w.BodyImports a b) : Imported w s b

/-- A record from before that bodies may be given meanwhile: that of an imported module, or one that
such a record holds. -/
inductive Gets (w : World) (s : String) : Nat → Prop where
  | imported {a : String} {r : Nat} (h : w.Imported s a) (hr : w.modules[a]? = some r) : Gets w s r
  | held {r r' : Nat} (h : Gets w s r) (hr' : r' ∈ w.heap.heldBy r) : Gets w s r'

/-- A record within reach is made meanwhile, or bodies may be given it. -/
def Within (w : World) (s : String) (r : Nat) : Prop := w.heap.records.size ≤ r ∨ w.Gets s r

/-- A world comes from another one by running the body of a module. -/
structure Apart (w : World) (s : String) (v : World) : Prop where
  bodies : v.bodies = w.bodies
  base : v.base = w.base
  named : v.graph.SlotsNamed
  heap : w.heap.Apart (w.Within s) v.heap
  /-- What is not imported is registered as before. -/
  others : ∀ a : String, ¬ w.Imported s a → v.modules[a]? = w.modules[a]?
  stays : ∀ (a : String) (r : Nat), w.modules[a]? = some r → v.modules[a]? = some r
  registered : ∀ (a : String) (r : Nat), v.modules[a]? = some r →
    w.modules[a]? = some r ∨ w.heap.records.size ≤ r

/-- An importer keeps apart what the body of a module does not import, and gives records within
reach. -/
def ApartBy (w : World) (s : String) (importModule : Importer) : Prop :=
  ∀ (id : String) (v : World), w.Apart s v →
    (∀ url, resolveId w.base id = .ok url → w.Imported s url.text) →
    w.Apart s (importModule id v).2 ∧ ∀ r, (importModule id v).1 = .ok r → w.Within s r

theorem eq_of_map_const {ε α β : Type} {result : Except ε α} {a b : β}
    (h : (result.map fun _ => a) = .ok b) : b = a := by
  cases result <;> cases h
  rfl

theorem bodies_concludeRun (w : World) (storeId : String) (r : Nat)
    (result : Except LoadError Unit) : (w.concludeRun storeId r result).bodies = w.bodies := by
  unfold concludeRun
  split
  · rfl
  · split <;> rfl
  · rfl

namespace Apart

variable {w v : World} {s : String} {r : Nat} {importModule : Importer} {caps : Capabilities}
  {resource : Resource}

/-- Before the body runs, modules are compiled. -/
theorem start (w : World) (s : String) {g : Graph} (hnamed : g.SlotsNamed) :
    w.Apart s { w with graph := g } where
  bodies := rfl
  base := rfl
  named := hnamed
  heap := .start (fun _ => .inl) fun r r' hlt hr hr' => by
    -- none of the records that are there is made meanwhile
    rcases hr with hle | hgets
    · exact absurd hlt (Nat.not_lt_of_le hle)
    · exact .inr (.held hgets hr')
  others _ _ := rfl
  stays _ _ hr := hr
  registered _ _ hr := .inl hr

section

variable (ha : w.Apart s v)
include ha

theorem of_heap {h : Heap} (hh : w.heap.Apart (w.Within s) h) : w.Apart s { v with heap := h } :=
  ⟨ha.bodies, ha.base, ha.named, hh, ha.others, ha.stays, ha.registered⟩

/-- What is around the loader may change. -/
theorem around (runs : Nat) (log : List LogEntry) (kept : Table Capabilities) :
    w.Apart s { v with runs := runs, log := log, kept := kept } :=
  ⟨ha.bodies, ha.base, ha.named, ha.heap, ha.others, ha.stays, ha.registered⟩

/-! ### What a body does -/

theorem installExports (hrecord : w.heap.records.size ≤ caps.record) {frame : Nat}
    (hframe : w.heap.frames.size ≤ frame) (entries : List (String × Source)) :
    w.Apart s (v.installExports caps frame entries).2 := by
  unfold World.installExports
  split
  · refine ha.of_heap (ha.heap.install hrecord fun entry hentry frame' hframe' => ?_)
    obtain ⟨⟨name, source⟩, -, rfl⟩ := List.mem_map.mp hentry
    exact Source.frame?_reader hframe' ▸ hframe
  · exact ha

theorem importFor (himport : w.ApartBy s importModule) (frame : Nat) {specifier : String}
    (hspecifier : ∀ a, w.target? caps.storeId specifier = some a → w.Imported s a)
    (handle : String) : w.Apart s (v.importFor importModule caps frame specifier handle).2 := by
  unfold World.importFor
  split
  · exact ha
  rename_i url hurl
  split
  · have himported := himport url.text v ha fun url' hurl' => by
      refine hspecifier _ ?_
      rw [target?, hurl]
      dsimp only
      rw [hurl']
      rfl
    split
    all_goals
      rename_i heq
      rw [heq] at himported
    · exact himported.1.of_heap (himported.1.heap.setHandle frame handle (himported.2 _ rfl))
    · exact himported.1
  · exact ha

theorem readFor {frame : Nat} (hframe : w.heap.frames.size ≤ frame) (handle name : String) :
    w.Apart s (v.readFor frame handle name).2 := by
  unfold World.readFor
  split
  · rename_i r hr
    exact ha.of_heap (ha.heap.read _ (ha.heap.handles frame handle r hframe hr) name)
  · exact ha

theorem writeFor (frame : Nat) (handle name : String) :
    w.Apart s (v.writeFor frame handle name).2 := by
  unfold World.writeFor
  split <;> exact ha

theorem openFor {frame : Nat} (hframe : w.heap.frames.size ≤ frame) (handle : String) :
    w.Apart s (v.openFor caps frame handle).2 := by
  unfold World.openFor
  split
  · rename_i r hr
    exact ha.of_heap (ha.heap.openNamespace _ (ha.heap.handles frame handle r hframe hr))
  · exact ha

end

/-- A body that runs in an execution of its own keeps apart what it does not import. -/
theorem run (himport : w.ApartBy s importModule) (hrecord : w.heap.records.size ≤ caps.record)
    {frame : Nat} (hframe : w.heap.frames.size ≤ frame) {body : Body}
    (hbody : ∀ specifier, body.MayImport specifier → ∀ a,
      w.target? caps.storeId specifier = some a → w.Imported s a) (ha : w.Apart s v) :
    w.Apart s (body.run importModule caps frame v).2 := by
  induction body generalizing v with
  | finish => exact ha
  | installExports entries next ih =>
    exact ih _ (fun specifier h => hbody specifier ⟨_, h⟩)
      (ha.installExports hrecord hframe entries)
  | importModule specifier handle next ih =>
    exact ih _ (fun specifier' h => hbody specifier' (.inr ⟨_, h⟩))
      (ha.importFor himport frame (hbody specifier (.inl rfl)) handle)
  | read handle name next ih =>
    exact ih _ (fun specifier h => hbody specifier ⟨_, h⟩) (ha.readFor hframe handle name)
  | write handle name next ih =>
    exact ih _ (fun specifier h => hbody specifier ⟨_, h⟩) (ha.writeFor frame handle name)
  | openNamespace handle next ih =>
    exact ih _ (fun specifier h => hbody specifier ⟨_, h⟩) (ha.openFor hframe handle)
  | store name x next ih => exact ih hbody (ha.of_heap (ha.heap.store _ x))
  | address next ih => exact ih _ (fun specifier h => hbody specifier ⟨_, h⟩) ha
  | keep next ih => exact ih hbody (ha.around v.runs v.log _)
  | log entry next ih => exact ih hbody (ha.around v.runs _ v.kept)

/-! ### Modules that are run -/

theorem runModule (himport : w.ApartBy s importModule)
    (hbodies : ∀ b, w.BodyImports caps.storeId b → w.Imported s b)
    (hrecord : w.heap.records.size ≤ caps.record) (ha : w.Apart s v) :
    w.Apart s (v.runModule importModule caps).2 := by
  unfold World.runModule
  split
  · exact ha
  rename_i body hbody
  refine .run himport hrecord ha.heap.frames (fun specifier h a htarget => hbodies a ?_) ?_
  · exact ⟨body, specifier, ha.bodies ▸ hbody, h, htarget⟩
  · exact (ha.around (v.runs + 1) v.log v.kept).of_heap (ha.heap.newFrame _)

/-- A record that was made meanwhile is registered by the end of its run at most. -/
theorem concludeRun (hs : w.Sound) (ha : w.Apart s v) (hr : w.heap.records.size ≤ r) (a : String)
    (result : Except LoadError Unit) : w.Apart s (v.concludeRun a r result) := by
  have hother : ∀ (b : String) (r' : Nat), w.modules[b]? = some r' →
      (v.concludeRun a r result).modules[b]? = some r' := fun b r' hr' => by
    have hlt := hs.lt_size hr'
    exact modules_concludeRun (ha.stays b r' hr') (by omega) a result
  have hends := concludeRun_concludes v a r result
  have hregistered : ∀ (b : String) (r' : Nat), (v.concludeRun a r result).modules[b]? = some r' →
      w.modules[b]? = some r' ∨ w.heap.records.size ≤ r' := fun b r' hr' =>
    ha.registered b r' (hends.modules b r' hr')
  refine ⟨?_, (base_concludeRun ..).trans ha.base, hends.graph ▸ ha.named, ?_, fun b hb => ?_,
    hother, hregistered⟩
  · rw [bodies_concludeRun]
    exact ha.bodies
  · rcases concludeRun_heap v a r result with heq | ⟨e, heq⟩
    · exact heq ▸ ha.heap
    · exact heq ▸ ha.heap.fail hr e
  · -- the record that is given up was made meanwhile, and this module got none meanwhile
    cases hb' : w.modules[b]? with
    | some r' => exact hother b r' hb'
    | none =>
      have hnone := (ha.others b hb).trans hb'
      refine Option.eq_none_iff_forall_ne_some.mpr fun r' hr' => ?_
      exact nomatch hnone.symm.trans (hends.modules b r' hr')

theorem execute (hs : w.Sound) (himport : w.ApartBy s importModule)
    (hbodies : ∀ b, w.BodyImports resource.storeId b → w.Imported s b)
    (hr : w.heap.records.size ≤ r) (ha : w.Apart s v) :
    w.Apart s (v.execute importModule resource r).2 := by
  exact .concludeRun hs (.runModule himport hbodies hr ha) hr resource.storeId _

/-- A module that is imported may be registered with a record that is made for it. -/
theorem enrol (ha : w.Apart s v) {a : String} (himported : w.Imported s a)
    (hnew : v.modules[a]? = none) (resource : Resource) : w.Apart s (v.enrol a resource).2 := by
  refine ⟨ha.bodies, ha.base, ha.named, ha.heap.newRecord a resource.exports, fun b hb => ?_,
    fun b r hr => ?_, fun b r hr => ?_⟩
  · rw [modules_enrol, if_neg, ha.others b hb]
    rintro rfl
    exact hb himported
  · have hr := ha.stays b r hr
    rw [modules_enrol, if_neg, hr]
    rintro rfl
    exact nomatch hnew.symm.trans hr
  · rw [modules_enrol] at hr
    split at hr
    · cases hr
      exact .inr ha.heap.records
    · exact ha.registered b r hr

theorem startModule (hs : w.Sound) (himport : w.ApartBy s importModule) (ha : w.Apart s v)
    {a : String} (himported : w.Imported s a) (hnew : v.modules[a]? = none)
    (hready : v.graph.slots[a]? = some (.ready resource)) :
    w.Apart s (v.start importModule a resource).2 ∧
      ∀ r, (v.start importModule a resource).1 = .ok r → w.Within s r := by
  have hstoreId : resource.storeId = a := ha.named a resource hready
  -- what was registered before still is
  have hnotRun : w.modules[a]? = none := by
    refine Option.eq_none_iff_forall_ne_some.mpr fun r hr => ?_
    exact nomatch hnew.symm.trans (ha.stays a r hr)
  have hbodies : ∀ b, w.BodyImports resource.storeId b → w.Imported s b := fun b hb =>
    .further himported hnotRun (hstoreId ▸ hb)
  refine ⟨.execute hs himport hbodies ha.heap.records (ha.enrol himported hnew resource),
    fun r hr => .inl ?_⟩
  rw [eq_of_map_const hr]
  exact ha.heap.records

/-- Whatever bodies an import starts, it keeps apart what these do not import. -/
theorem importAt (hs : w.Sound) (s : String) (depth : Nat) : w.ApartBy s (importAt depth) := by
  -- the depth falls from an import to those inside of the body that it starts
  induction depth with
  | zero => exact fun _ _ ha _ => ⟨ha, nofun⟩
  | succ depth ih =>
    intro id v ha hid
    unfold Loader.importAt
    rw [ha.base]
    split
    · exact ⟨ha, fun _ h => by cases h⟩
    rename_i url hurl
    have himported := hid url hurl
    split
    · rename_i r hr
      split
      · exact ⟨ha, fun _ h => by cases h⟩
      · refine ⟨ha, fun r' hr' => ?_⟩
        cases hr'
        exact (ha.registered _ r hr).symm.imp_right (.imported himported)
    · rename_i hnew hready
      exact ha.startModule hs ih himported hnew hready
    · exact ⟨ha, fun _ h => by cases h⟩
    · exact ⟨ha, fun _ h => by cases h⟩

/-- Code that is run once modules are compiled keeps apart what it does not import, and its record
is a new one. -/
theorem runInline (hs : w.Sound) {g : Graph} (hnamed : g.SlotsNamed) (resource : Resource) :
    w.Apart resource.storeId ({ w with graph := g }.runInline resource).2 ∧
      ∀ r, ({ w with graph := g }.runInline resource).1 = .ok r → r = w.heap.records.size := by
  have hcompiled := start w resource.storeId hnamed
  refine ⟨?_, fun r hr => eq_of_map_const hr⟩
  exact .execute hs (importAt hs resource.storeId _) (fun _ => .own) (Nat.le_refl _)
    (hcompiled.of_heap (hcompiled.heap.newRecord resource.storeId resource.exports))

end Apart

end World

end EsModule.Loader
