import EsModule.Proofs.Loader.Depth
import EsModule.Proofs.Loader.Slots
import EsModule.Proofs.Loader.Trace
import Mathlib.Data.List.Nodup

/-!
# Namespaces belong to their records

The heap keeps at most one namespace for a record, and no two namespaces have one identity
(`Heap.Distinguishes`). What a namespace says of its module is true for as long as its record is
there (`Heap.Sound`): a record keeps its store id and its export list, and a namespace is made only
for a record that exists, so its number is not given to another one.

A registered record has the export list of the compiled module under its store id (`World.Sound`).
Bodies keep this, whatever they do and import, and leave what is registered, the namespaces and the
compiled modules (`World.Later`). So `World.Leads` holds of every import (`importAt_leads`).
-/

namespace EsModule.Loader

open Relation

/-! ## Namespaces -/

namespace Heap

variable {h h' : Heap} {r : Nat} {n n' : Namespace}

/-- There is at most one namespace for a record, and none has the identity of another one. -/
structure Distinguishes (h : Heap) : Prop where
  /-- An identity that is given now is new. -/
  older : ∀ n ∈ h.namespaces, n.id < h.namespaceCount
  ids : (h.namespaces.map (·.id)).Nodup
  records : (h.namespaces.map (·.record)).Nodup

theorem Distinguishes.eq_of_id (hd : h.Distinguishes) (hn : n ∈ h.namespaces)
    (hn' : n' ∈ h.namespaces) (heq : n.id = n'.id) : n = n' :=
  List.inj_on_of_nodup_map hd.ids hn hn' heq

theorem Distinguishes.eq_of_record (hd : h.Distinguishes) (hn : n ∈ h.namespaces)
    (hn' : n' ∈ h.namespaces) (heq : n.record = n'.record) : n = n' :=
  List.inj_on_of_nodup_map hd.records hn hn' heq

theorem records_namespaceOf (h : Heap) (r : Nat) : (h.namespaceOf r).2.records = h.records := by
  unfold namespaceOf
  split <;> rfl

theorem frames_namespaceOf (h : Heap) (r : Nat) : (h.namespaceOf r).2.frames = h.frames := by
  unfold namespaceOf
  split <;> rfl

/-- The namespace of a record is kept. -/
theorem mem_namespaceOf (h : Heap) (r : Nat) :
    (h.namespaceOf r).1 ∈ (h.namespaceOf r).2.namespaces ∧ (h.namespaceOf r).1.record = r := by
  unfold namespaceOf
  split
  · rename_i hfind
    exact ⟨List.mem_of_find?_eq_some hfind, by simpa using List.find?_some hfind⟩
  · exact ⟨List.mem_append_right _ List.mem_cons_self, rfl⟩

/-- The namespaces from before stay. -/
theorem namespaces_namespaceOf (h : Heap) (r : Nat) :
    ∀ n ∈ h.namespaces, n ∈ (h.namespaceOf r).2.namespaces := by
  unfold namespaceOf
  split
  · exact fun _ => id
  · exact fun _ => List.mem_append_left _

/-- Of the namespaces, at most that of the record is new, and it says what the record says. -/
theorem of_mem_namespaceOf (hn : n ∈ (h.namespaceOf r).2.namespaces) :
    n ∈ h.namespaces ∨ n.record = r ∧ ∀ record, h.record? r = some record →
      n.storeId = record.storeId ∧ n.keys = record.exportKeys := by
  unfold namespaceOf at hn
  split at hn
  · exact .inl hn
  · rcases List.mem_append.mp hn with hn | hn
    · exact .inl hn
    · cases List.mem_singleton.mp hn
      exact .inr ⟨rfl, fun record hr => by simp [hr]⟩

theorem Distinguishes.namespaceOf (hd : h.Distinguishes) (r : Nat) :
    (h.namespaceOf r).2.Distinguishes := by
  unfold Heap.namespaceOf
  split
  · exact hd
  · rename_i hnone
    have hrecord : r ∉ h.namespaces.map (·.record) := by
      simpa [List.mem_map] using hnone
    have hid : h.namespaceCount ∉ h.namespaces.map (·.id) := fun hmem => by
      obtain ⟨n, hn, heq⟩ := List.mem_map.mp hmem
      exact Nat.lt_irrefl _ (heq ▸ hd.older n hn)
    refine ⟨fun n hn => ?_, ?_, ?_⟩
    · rcases List.mem_append.mp hn with hn | hn
      · exact Nat.lt_succ_of_lt (hd.older n hn)
      · cases List.mem_singleton.mp hn
        exact Nat.lt_succ_self _
    · rw [List.map_append]
      exact List.nodup_append'.mpr ⟨hd.ids, List.nodup_singleton _, by simpa using hid⟩
    · rw [List.map_append]
      exact List.nodup_append'.mpr ⟨hd.records, List.nodup_singleton _, by simpa using hrecord⟩

/-! ## What records are made of -/

/-- The module of a record and its export list, as the record was made. -/
def origin? (h : Heap) (r : Nat) : Option (String × List String) :=
  (h.record? r).map fun record => (record.storeId, record.exports)

theorem origin?_eq_some {o : String × List String} : h.origin? r = some o ↔
    ∃ record, h.record? r = some record ∧ record.storeId = o.1 ∧ record.exports = o.2 := by
  unfold origin?
  rw [Option.map_eq_some_iff]
  exact exists_congr fun record => and_congr_right fun _ => Prod.ext_iff

theorem origin?_namespaceOf (h : Heap) (r r' : Nat) :
    (h.namespaceOf r).2.origin? r' = h.origin? r' := by
  rw [origin?, record?, records_namespaceOf]
  rfl

theorem origin?_newRecord (h : Heap) (storeId : String) (exports : List String) (r : Nat) :
    (h.newRecord storeId exports).2.origin? r =
      if r = h.records.size then some (storeId, exports) else h.origin? r := by
  unfold origin?
  rw [record?_newRecord]
  split <;> rfl

theorem origin?_install (h : Heap) (r : Nat) (entries : List (String × Reader)) (r' : Nat) :
    (h.install r entries).origin? r' = h.origin? r' := by
  unfold origin?
  rw [install, record?_modifyRecord]
  split
  · cases h.record? r' <;> rfl
  · rfl

theorem origin?_fail (h : Heap) (r : Nat) (e : LoadError) (r' : Nat) :
    (h.fail r e).origin? r' = h.origin? r' := by
  unfold origin?
  rw [fail, record?_modifyRecord]
  split
  · cases h.record? r' <;> rfl
  · rfl

theorem origin?_sweep_root {roots : List Nat} (hr : r ∈ roots) :
    (h.sweep roots).origin? r = h.origin? r :=
  congrArg _ (record?_sweep hr)

/-- A record that is left was there before. -/
theorem origin?_of_sweep {roots : List Nat} {o : String × List String}
    (ho : (h.sweep roots).origin? r = some o) : h.origin? r = some o := by
  rw [origin?_eq_some] at ho ⊢
  obtain ⟨record, hr, hrest⟩ := ho
  refine ⟨record, ?_, hrest⟩
  unfold sweep record? at hr
  dsimp only at hr
  rw [Array.getElem?_mapIdx] at hr
  unfold record?
  cases hrecord : h.records[r]? with
  | none =>
    rw [hrecord] at hr
    cases hr
  | some slot =>
    rw [hrecord] at hr
    simp only [Option.map_some, Option.join_some] at hr ⊢
    split at hr
    · exact hr
    · cases hr

/-! ## Sound heaps -/

theorem handle_eq_ok {frame : Nat} {handle : String} : h.handle frame handle = .ok r ↔
    (h.frames[frame]?).bind (·.handles[handle]?) = some r := by
  unfold Heap.handle
  split
  · rename_i hr
    simp [hr]
  · rename_i hr
    simp [hr]

/-- The names of some exports, sorted and each once. -/
def keysOf (exports : List String) : List String := (Table.ofEntries (exports.map (·, ()))).keys

/-- Handles and namespaces are for records that were made, and a namespace says of its record what
that was made of. -/
structure Sound (h : Heap) : Prop where
  handles : ∀ frame handle r, h.handle frame handle = .ok r → r < h.records.size
  made : ∀ n ∈ h.namespaces, n.record < h.records.size
  distinguishes : h.Distinguishes
  faithful : ∀ n ∈ h.namespaces, ∀ o, h.origin? n.record = some o →
    n.storeId = o.1 ∧ n.keys = keysOf o.2

namespace Sound

theorem empty : Heap.empty.Sound where
  handles frame handle r hr := by
    rw [handle_eq_ok, Heap.empty, Array.getElem?_empty] at hr
    cases hr
  made _ hn := nomatch hn
  distinguishes := ⟨(fun _ hn => nomatch hn), List.nodup_nil, List.nodup_nil⟩
  faithful _ hn := nomatch hn

/-- Records may be made and may go. -/
theorem of_records (hs : h.Sound) (hframes : h'.frames = h.frames)
    (hnamespaces : h'.namespaces = h.namespaces) (hcount : h'.namespaceCount = h.namespaceCount)
    (hsize : h.records.size ≤ h'.records.size)
    (horigin : ∀ r < h.records.size, ∀ o, h'.origin? r = some o → h.origin? r = some o) :
    h'.Sound where
  handles frame handle r hr := by
    unfold Heap.handle at hr
    rw [hframes] at hr
    exact Nat.lt_of_lt_of_le (hs.handles frame handle r hr) hsize
  made n hn := Nat.lt_of_lt_of_le (hs.made n (hnamespaces ▸ hn)) hsize
  distinguishes := by
    obtain ⟨holder, hids, hrecords⟩ := hs.distinguishes
    constructor
    all_goals rw [hnamespaces]
    · rw [hcount]
      exact holder
    · exact hids
    · exact hrecords
  faithful n hn o ho := by
    rw [hnamespaces] at hn
    exact hs.faithful n hn o (horigin n.record (hs.made n hn) o ho)

theorem install (hs : h.Sound) (r : Nat) (entries : List (String × Reader)) :
    (h.install r entries).Sound :=
  hs.of_records rfl rfl rfl (Nat.le_of_eq Array.size_modify.symm)
    fun r' _ _ ho => (origin?_install h r entries r').symm.trans ho

theorem fail (hs : h.Sound) (r : Nat) (e : LoadError) : (h.fail r e).Sound :=
  hs.of_records rfl rfl rfl (Nat.le_of_eq Array.size_modify.symm)
    fun r' _ _ ho => (origin?_fail h r e r').symm.trans ho

theorem sweep (hs : h.Sound) (roots : List Nat) : (h.sweep roots).Sound :=
  hs.of_records rfl rfl rfl (Nat.le_of_eq Array.size_mapIdx.symm)
    fun _ _ _ ho => origin?_of_sweep ho

theorem newRecord (hs : h.Sound) (storeId : String) (exports : List String) :
    (h.newRecord storeId exports).2.Sound := by
  have hsize : (h.newRecord storeId exports).2.records.size = h.records.size + 1 :=
    Array.size_push _
  refine hs.of_records rfl rfl rfl (by omega) fun r hr o ho => ?_
  rwa [origin?_newRecord, if_neg (Nat.ne_of_lt hr)] at ho

theorem newFrame (hs : h.Sound) (loader : Nat) : (h.newFrame loader).2.Sound where
  handles frame handle r hr := by
    refine hs.handles frame handle r ?_
    rw [handle_eq_ok] at hr ⊢
    unfold Heap.newFrame at hr
    rw [Array.getElem?_push] at hr
    split at hr
    · simp at hr
    · exact hr
  made := hs.made
  distinguishes := ⟨hs.distinguishes.older, hs.distinguishes.ids, hs.distinguishes.records⟩
  faithful := hs.faithful

theorem setHandle (hs : h.Sound) (frame : Nat) (handle : String) {r : Nat}
    (hr : r < h.records.size) : (h.setHandle frame handle r).Sound where
  handles frame' handle' r' hr' := by
    rw [handle_eq_ok] at hr'
    unfold Heap.setHandle at hr'
    rw [Array.getElem?_modify] at hr'
    split at hr'
    · obtain ⟨f, hf, hr'⟩ := Option.bind_eq_some_iff.mp hr'
      obtain ⟨f', hf', rfl⟩ := Option.map_eq_some_iff.mp hf
      rw [Table.getElem?_insert] at hr'
      split at hr'
      · cases hr'
        exact hr
      · refine hs.handles frame' handle' r' (handle_eq_ok.mpr ?_)
        exact Option.bind_eq_some_iff.mpr ⟨f', hf', hr'⟩
    · exact hs.handles frame' handle' r' (handle_eq_ok.mpr hr')
  made := hs.made
  distinguishes := ⟨hs.distinguishes.older, hs.distinguishes.ids, hs.distinguishes.records⟩
  faithful := hs.faithful

theorem store (hs : h.Sound) (c : Cell) (v : Value) : (h.store c v).Sound :=
  hs.of_records rfl rfl rfl (Nat.le_refl _) fun _ _ _ ho => ho

theorem namespaceOf (hs : h.Sound) {r : Nat} (hr : r < h.records.size) :
    (h.namespaceOf r).2.Sound where
  handles frame handle r' hr' := by
    rw [records_namespaceOf]
    unfold Heap.handle at hr'
    rw [frames_namespaceOf] at hr'
    exact hs.handles frame handle r' hr'
  made n hn := by
    rw [records_namespaceOf]
    rcases of_mem_namespaceOf hn with hn | ⟨rfl, -⟩
    · exact hs.made n hn
    · exact hr
  distinguishes := hs.distinguishes.namespaceOf r
  faithful n hn o ho := by
    have horigin : h.origin? n.record = some o := (origin?_namespaceOf h r _).symm.trans ho
    rcases of_mem_namespaceOf hn with hn | ⟨rfl, hrecord⟩
    · exact hs.faithful n hn o horigin
    · obtain ⟨record, hr, hstoreId, hexports⟩ := origin?_eq_some.mp horigin
      obtain ⟨hn, hkeys⟩ := hrecord record hr
      exact ⟨hn.trans hstoreId, hkeys.trans (congrArg keysOf hexports)⟩

end Sound

end Heap

/-! ## Sound worlds -/

variable {w w' w'' : World} {s : String} {r : Nat}

/-- What is registered was made from the compiled module under its store id. -/
structure World.Sound (w : World) : Prop where
  named : w.graph.SlotsNamed
  owned : w.graph.Owned
  heap : w.heap.Sound
  registered : ∀ (s : String) (r : Nat), w.modules[s]? = some r → ∃ resource,
    w.graph.slots[s]? = some (.ready resource) ∧ w.heap.origin? r = some (s, resource.exports)

/-- A world comes after another one: what is compiled or registered stays, and so do the
namespaces. -/
structure World.Later (w w' : World) : Prop where
  base : w'.base = w.base
  resources : w.graph.Lasts w'.graph
  modules : ∀ (s : String) (r : Nat), w.modules[s]? = some r → w'.modules[s]? = some r
  namespaces : ∀ n ∈ w.heap.namespaces, n ∈ w'.heap.namespaces
  size : w.heap.records.size ≤ w'.heap.records.size

/-- A sound world is followed by a sound one. -/
def World.Leads (w w' : World) : Prop := w.Sound → w'.Sound ∧ w.Later w'

namespace World

theorem Later.refl (w : World) : w.Later w :=
  ⟨rfl, fun _ _ h => h, fun _ _ h => h, fun _ h => h, Nat.le_refl _⟩

theorem Later.trans (h : w.Later w') (h' : w'.Later w'') : w.Later w'' where
  base := h'.base.trans h.base
  resources := h.resources.trans h'.resources
  modules s r hr := h'.modules s r (h.modules s r hr)
  namespaces n hn := h'.namespaces n (h.namespaces n hn)
  size := Nat.le_trans h.size h'.size

theorem Sound.lt_size (h : w.Sound) (hr : w.modules[s]? = some r) : r < w.heap.records.size := by
  obtain ⟨resource, -, horigin⟩ := h.registered s r hr
  obtain ⟨record, hrecord, -⟩ := Heap.origin?_eq_some.mp horigin
  exact Heap.lt_of_record? (by rw [hrecord]; rfl)

namespace Leads

theorem refl (w : World) : w.Leads w := fun h => ⟨h, .refl w⟩

theorem trans (h : w.Leads w') (h' : w'.Leads w'') : w.Leads w'' := fun hs =>
  ⟨(h' (h hs).1).1, (h hs).2.trans (h' (h hs).1).2⟩

/-- The heap may change if that leaves the origins of registered records. -/
theorem heap {h : Heap} (hsound : w.heap.Sound → h.Sound)
    (hnamespaces : ∀ n ∈ w.heap.namespaces, n ∈ h.namespaces)
    (hsize : w.heap.records.size ≤ h.records.size)
    (horigin : ∀ (s : String) (r : Nat), w.modules[s]? = some r →
      r < w.heap.records.size → h.origin? r = w.heap.origin? r) :
    w.Leads { w with heap := h } := fun hs =>
  ⟨{ named := hs.named
     owned := hs.owned
     heap := hsound hs.heap
     registered := fun s r hr => by
      obtain ⟨resource, hready, hrecord⟩ := hs.registered s r hr
      exact ⟨resource, hready, (horigin s r hr (hs.lt_size hr)).trans hrecord⟩ },
   { base := rfl
     resources := fun _ _ h => h
     modules := fun _ _ h => h
     namespaces := hnamespaces
     size := hsize }⟩

theorem install (w : World) (r : Nat) (entries : List (String × Reader)) :
    w.Leads { w with heap := w.heap.install r entries } :=
  .heap (fun h => h.install r entries) (fun _ => id) (Nat.le_of_eq Array.size_modify.symm)
    fun _ r' _ _ => Heap.origin?_install w.heap r entries r'

theorem newFrame (w : World) (loader : Nat) :
    w.Leads { w with heap := (w.heap.newFrame loader).2 } :=
  .heap (fun h => h.newFrame loader) (fun _ => id) (Nat.le_refl _) fun _ _ _ _ => rfl

theorem setHandle (frame : Nat) (handle : String) (hr : r < w.heap.records.size) :
    w.Leads { w with heap := w.heap.setHandle frame handle r } :=
  .heap (fun h => h.setHandle frame handle hr) (fun _ => id) (Nat.le_refl _) fun _ _ _ _ => rfl

theorem store (w : World) (c : Cell) (v : Value) :
    w.Leads { w with heap := w.heap.store c v } :=
  .heap (fun h => h.store c v) (fun _ => id) (Nat.le_refl _) fun _ _ _ _ => rfl

theorem namespaceOf (hr : w.heap.Sound → r < w.heap.records.size) :
    w.Leads (w.namespaceOf r).2 := by
  have hrecords := w.heap.records_namespaceOf r
  exact .heap (fun h => h.namespaceOf (hr h)) (w.heap.namespaces_namespaceOf r)
    (Nat.le_of_eq (congrArg _ hrecords.symm)) fun _ r' _ _ => w.heap.origin?_namespaceOf r r'

/-- What is around the loader may change. -/
theorem around (w : World) (fetcher : Fetcher) (bodies : Table Body) (runs : Nat)
    (log : List LogEntry) (kept : Table Capabilities) : w.Leads
      { w with fetcher := fetcher, bodies := bodies, runs := runs, log := log, kept := kept } :=
  fun hs => ⟨⟨hs.named, hs.owned, hs.heap, hs.registered⟩, ⟨rfl, fun _ _ h => h, fun _ _ h => h,
    fun _ h => h, Nat.le_refl _⟩⟩

/-- Records that nothing holds may go. -/
theorem sweep (w : World) (held : List Nat) : w.Leads (w.sweep held) :=
  .heap (fun h => h.sweep _) (fun _ => id) (Nat.le_of_eq Array.size_mapIdx.symm)
    fun _ _ hr _ => Heap.origin?_sweep_root (List.mem_append_right _ (mem_roots hr))

end Leads

theorem Light.leads (h : w.Light w') : w.Leads w' := by
  cases h with
  | name hr => exact .namespaceOf fun hs => hs.handles _ _ _ hr
  | store c v => exact .store w c v
  | leave log kept => exact .around w w.fetcher w.bodies w.runs log kept

end World

/-! ## Bodies -/

/-- Imports lead from sound worlds to sound ones, and give records that are registered then. -/
structure Importer.IsSound (importModule : Importer) : Prop where
  leads : ∀ (id : String) (w : World), w.Leads (importModule id w).2
  registered : ∀ {id : String} {w w' : World} {r : Nat}, w.Sound →
    importModule id w = (.ok r, w') → ∃ url, resolveId w.base id = .ok url ∧
      w'.modules[url.text]? = some r

namespace Importer.IsSound

variable {importModule : Importer} {caps : Capabilities} (h : importModule.IsSound)
include h

/-- What a body does leads from sound worlds to sound ones. -/
theorem obeys : importModule.Obeys (fun _ _ => []) fun _ => World.Leads where
  refl := .refl
  trans := .trans
  light := World.Light.leads
  install w r entries := .install w r entries
  imported := h.leads
  handled {id w w' r} heq frame handle hs := by
    have himported := h.leads id w
    rw [heq] at himported
    obtain ⟨url, -, hr⟩ := h.registered hs heq
    have hhandled : w'.Leads { w' with heap := w'.heap.setHandle frame handle r } :=
      .setHandle frame handle ((himported hs).1.lt_size hr)
    exact himported.trans hhandled hs

theorem runBody_leads (w : World) (caps : Capabilities) (body : Body) :
    w.Leads (w.runBody importModule caps body).2 :=
  (World.Leads.newFrame w caps.loader).trans (h.obeys.run _ body _)

theorem runModule_leads (w : World) (caps : Capabilities) :
    w.Leads (w.runModule importModule caps).2 := by
  unfold World.runModule
  split
  · exact .refl w
  · exact (World.Leads.around w w.fetcher w.bodies (w.runs + 1) w.log w.kept).trans
      (h.runBody_leads _ caps _)

end Importer.IsSound

/-! ## Modules that are started -/

namespace World

variable {importModule : Importer} {resource : Resource}

theorem concludeRun_heap (w : World) (storeId : String) (r : Nat)
    (result : Except LoadError Unit) : (w.concludeRun storeId r result).heap = w.heap ∨
      ∃ e, (w.concludeRun storeId r result).heap = w.heap.fail r e := by
  unfold concludeRun
  split
  · exact .inl rfl
  · split <;> exact .inl rfl
  · exact .inr ⟨_, rfl⟩

theorem base_concludeRun (w : World) (storeId : String) (r : Nat)
    (result : Except LoadError Unit) : (w.concludeRun storeId r result).base = w.base := by
  unfold concludeRun
  split
  · rfl
  · split <;> rfl
  · rfl

/-- The end of a run takes nothing away but its own record. -/
theorem modules_concludeRun {s : String} {r r' : Nat} (hr : w.modules[s]? = some r') (hne : r' ≠ r)
    (storeId : String) (result : Except LoadError Unit) :
    (w.concludeRun storeId r result).modules[s]? = some r' := by
  unfold concludeRun
  split
  · exact hr
  · split
    · rename_i hown
      refine (Table.getElem?_erase ..).trans ((if_neg ?_).trans hr)
      rintro rfl
      exact hne (Option.some.inj (hr.symm.trans hown))
    · exact hr
  · exact hr

theorem Sound.concludeRun (h : w.Sound) (storeId : String) (r : Nat)
    (result : Except LoadError Unit) : (w.concludeRun storeId r result).Sound := by
  have hends := concludeRun_concludes w storeId r result
  have hheap := concludeRun_heap w storeId r result
  refine ⟨hends.graph ▸ h.named, hends.graph ▸ h.owned, ?_, fun s r' hr => ?_⟩
  · rcases hheap with heq | ⟨e, heq⟩
    · exact heq ▸ h.heap
    · exact heq ▸ h.heap.fail r e
  · obtain ⟨resource, hready, horigin⟩ := h.registered s r' (hends.modules s r' hr)
    refine ⟨resource, hends.graph ▸ hready, ?_⟩
    rcases hheap with heq | ⟨e, heq⟩
    · rw [heq, horigin]
    · rw [heq, Heap.origin?_fail, horigin]

/-- A record is registered for a compiled module. -/
theorem Leads.enrol (hnew : w.modules[s]? = none)
    (hready : w.graph.slots[s]? = some (.ready resource)) : w.Leads (w.enrol s resource).2 := by
  intro hs
  have hsize : (w.enrol s resource).2.heap.records.size = w.heap.records.size + 1 :=
    Array.size_push _
  have horigin := w.heap.origin?_newRecord s resource.exports
  refine ⟨⟨hs.named, hs.owned, hs.heap.newRecord s resource.exports, fun s' r hr => ?_⟩,
    ⟨rfl, fun _ _ h => h, fun s' r hr => ?_, fun _ h => h, by omega⟩⟩
  · rw [modules_enrol] at hr
    split at hr
    · rename_i heq
      cases hr
      exact heq ▸ ⟨resource, hready, (horigin _).trans (if_pos rfl)⟩
    · obtain ⟨resource', hready', hrecord⟩ := hs.registered s' r hr
      exact ⟨resource', hready',
        (horigin r).trans ((if_neg (Nat.ne_of_lt (hs.lt_size hr))).trans hrecord)⟩
  · rw [modules_enrol, if_neg, hr]
    rintro rfl
    exact nomatch hnew.symm.trans hr

/-- A record is made that is not registered. -/
theorem Leads.detach (w : World) (resource : Resource) : w.Leads (w.detach resource).2 := by
  have hsize : (w.heap.newRecord resource.storeId resource.exports).2.records.size =
      w.heap.records.size + 1 := Array.size_push _
  exact .heap (fun h => h.newRecord _ _) (fun _ => id) (hsize ▸ Nat.le_succ _) fun _ r _ hr =>
    (Heap.origin?_newRecord ..).trans (if_neg (Nat.ne_of_lt hr))

/-- A module runs with a record that was made for it. -/
theorem Leads.execute (h : w.Leads w') (himporter : importModule.IsSound) (resource : Resource)
    (hr : w.heap.records.size ≤ r) : w.Leads (w'.execute importModule resource r).2 := by
  let caps : Capabilities :=
    ⟨w'.heap.loader.getD 0, r, resource.storeId, resource.realUrl⟩
  intro hs
  obtain ⟨hran, hlater⟩ := h.trans (himporter.runModule_leads w' caps) hs
  let result := (w'.runModule importModule caps).1
  refine ⟨hran.concludeRun resource.storeId r result, ?_⟩
  have hends := concludeRun_concludes (w'.runModule importModule caps).2 resource.storeId r result
  exact {
    base := (base_concludeRun ..).trans hlater.base
    resources := hends.graph ▸ hlater.resources
    modules := fun s r' hr' => by
      have hlt := hs.lt_size hr'
      exact modules_concludeRun (hlater.modules s r' hr') (by omega) _ _
    namespaces := fun n hn => by
      rcases concludeRun_heap (w'.runModule importModule caps).2 resource.storeId r result with
        heq | ⟨e, heq⟩
      · exact heq ▸ hlater.namespaces n hn
      · exact heq ▸ hlater.namespaces n hn
    size := Nat.le_trans hlater.size (Nat.le_of_eq hends.size.symm) }

theorem execute_size (himporter : importModule.IsSound) (hs : w.Sound) (resource : Resource)
    (r : Nat) : w.heap.records.size ≤
      (w.execute importModule resource r).2.heap.records.size :=
  Nat.le_trans (himporter.runModule_leads w _ hs).2.size
    (Nat.le_of_eq (concludeRun_concludes _ _ _ _).size.symm)

theorem start_leads (h : importModule.IsSound) (hnew : w.modules[s]? = none)
    (hready : w.graph.slots[s]? = some (.ready resource)) :
    w.Leads (w.start importModule s resource).2 :=
  (Leads.enrol hnew hready).execute h resource (Nat.le_refl _)

/-- The record of a module that was started without an error is registered. -/
theorem start_registered (h : importModule.IsSound) (hs : w.Sound) (hnew : w.modules[s]? = none)
    (hready : w.graph.slots[s]? = some (.ready resource))
    (hr : (w.start importModule s resource).1 = .ok r) :
    (w.start importModule s resource).2.modules[s]? = some r := by
  have henrolled := (Leads.enrol hnew hready hs).1
  have hkept := (h.runModule_leads _ (w.capabilities resource) henrolled).2.modules s _
    ((modules_enrol w s resource s).trans (if_pos rfl))
  have hstart : (w.start importModule s resource).1 =
      ((w.enrol s resource).2.runModule importModule (w.capabilities resource)).1.map fun _ =>
        w.heap.records.size := rfl
  cases hresult : ((w.enrol s resource).2.runModule importModule (w.capabilities resource)).1 with
  | ok =>
    rw [start_ok hresult] at hr ⊢
    cases hr
    exact hkept
  | error e =>
    rw [hstart, hresult] at hr
    cases hr

end World

/-! ## Imports -/

/-- Every import leads from a sound world to a sound one. -/
theorem importAt_isSound (depth : Nat) : (importAt depth).IsSound := by
  -- the depth falls from an import to those inside of the body that it starts
  induction depth with
  | zero => exact ⟨fun _ w => .refl w, nofun⟩
  | succ depth ih =>
    refine ⟨fun id w => ?_, fun {id w w' r} hs heq => ?_⟩
    · unfold importAt
      split
      · exact .refl w
      split
      · split <;> exact .refl w
      · rename_i hnew hready
        exact World.start_leads ih hnew hready
      · exact .refl w
      · exact .refl w
    · unfold importAt at heq
      split at heq
      · cases heq
      rename_i url hurl
      refine ⟨url, hurl, ?_⟩
      split at heq
      · rename_i hr
        split at heq <;> cases heq
        exact hr
      · rename_i hnew hready
        have hregistered := World.start_registered (r := r) ih hs hnew hready (by rw [heq])
        rwa [heq] at hregistered
      · cases heq
      · cases heq

namespace World

theorem importModule_leads (w : World) (id : String) : w.Leads (w.importModule id).2 :=
  (importAt_isSound w.importDepth).leads id w

theorem runInline_leads (w : World) (resource : Resource) : w.Leads (w.runInline resource).2 :=
  (Leads.detach w resource).execute (importAt_isSound w.importDepth) resource (Nat.le_refl _)

/-- The record of a module without a slot was made when it ran. -/
theorem runInline_lt_size (w : World) (resource : Resource) (r : Nat) (hs : w.Sound)
    (hr : (w.runInline resource).1 = .ok r) :
    r < (w.runInline resource).2.heap.records.size := by
  let ran := (w.detach resource).2.execute (importAt w.importDepth) resource w.heap.records.size
  have hmade : (w.detach resource).2.heap.records.size = w.heap.records.size + 1 :=
    Array.size_push _
  have hgrown : (w.detach resource).2.heap.records.size ≤ ran.2.heap.records.size :=
    execute_size (importAt_isSound w.importDepth) (Leads.detach w resource hs).1 resource _
  have hresult : (w.runInline resource).1 = ran.1.map fun _ => w.heap.records.size := rfl
  rw [hresult] at hr
  have hr : r = w.heap.records.size := by
    cases hran : ran.1 with
    | ok =>
      rw [hran] at hr
      cases hr
      rfl
    | error e =>
      rw [hran] at hr
      cases hr
  have hworld : (w.runInline resource).2 = ran.2 := rfl
  rw [hworld]
  omega

theorem runWith_leads (w : World) (caps : Capabilities) (body : Body) :
    w.Leads (w.runWith caps body).2 :=
  (importAt_isSound w.importDepth).runBody_leads w caps body

end World

end EsModule.Loader
