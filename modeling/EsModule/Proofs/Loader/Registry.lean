import EsModule.Proofs.Loader.Moments

/-!
# A module body runs at most once

The record of a module is registered when its body is started. From then on every import of the
module gives that record, also from inside of the body and of what it imports, and after the body
has ended. If the body ended in an error, the error is what every import gives. Only if the error
was that another module is not compiled yet, the record is given up and the body can be started
again.

`Registry` is the invariant of all moments of a loader: what is registered under a store id, and the
error that is kept with it, is what the latest event about that store id left (`Event.leaves`).
-/

namespace EsModule.Loader

variable {history : List Event} {w w' : World} {m : Moment} {s : String} {r : Nat}

/-! ## Events -/

/-- The latest event about a module. -/
def lastOf (s : String) (history : List Event) : Option Event :=
  history.find? (·.storeId = s)

/-- The record that is registered after an event, and the error that is kept with it. -/
def Event.leaves : Event → Option (Nat × Option LoadError)
  | .started _ r | .ended _ r (.ok ()) => some (r, none)
  | .ended _ _ (.error (.notCompiled _)) => none
  | .ended _ r (.error e) => some (r, some e)

@[simp] theorem lastOf_cons (s : String) (event : Event) (history : List Event) :
    lastOf s (event :: history) = if event.storeId = s then some event else lastOf s history := by
  by_cases h : event.storeId = s <;> simp [lastOf, h]

theorem leaves_failed {e : LoadError} (he : ∀ id, e ≠ .notCompiled id) (s : String) (r : Nat) :
    (Event.ended s r (.error e)).leaves = some (r, some e) := by
  cases e <;> first | rfl | exact absurd rfl (he _)

/-- An event leaves nothing if a run ended because a module was not compiled, and only then. -/
theorem leaves_eq_none {event : Event} (h : event.leaves = none) :
    ∃ r id, event = .ended event.storeId r (.error (.notCompiled id)) := by
  unfold Event.leaves at h
  split at h
  · cases h
  · cases h
  · exact ⟨_, _, rfl⟩
  · cases h

/-- The events are in a right order: a body is started only if the latest event left no record, and
only a body that was started ends. -/
inductive Orderly : List Event → Prop where
  | nil : Orderly []
  | started {history : List Event} {s : String} (h : Orderly history)
    (hfree : (lastOf s history).bind Event.leaves = none) (r : Nat) :
    Orderly (.started s r :: history)
  | ended {history : List Event} {s : String} {r : Nat} (h : Orderly history)
    (hlast : lastOf s history = some (.started s r)) (result : Except LoadError Unit) :
    Orderly (.ended s r result :: history)

/-- After a run that left its record, no event about the module follows. -/
theorem Orderly.lastOf_ended (h : Orderly history) {result : Except LoadError Unit}
    (hmem : .ended s r result ∈ history) (hleaves : (Event.ended s r result).leaves ≠ none) :
    lastOf s history = some (.ended s r result) := by
  induction h with
  | nil => cases hmem
  | @started history s' h hfree r' ih =>
    -- a start of the same body would need a latest event that left no record
    have hlast := ih (by simpa using hmem)
    have hne : s' ≠ s := by
      rintro rfl
      rw [hlast] at hfree
      exact hleaves hfree
    simpa [Event.storeId, hne] using hlast
  | @ended history s' r' h hlast' result' ih =>
    rcases List.mem_cons.mp hmem with heq | hmem
    · rw [← heq]
      simp [Event.storeId]
    -- and an end of it would need a start as the latest event
    have hlast := ih hmem
    have hne : s' ≠ s := by
      rintro rfl
      rw [hlast] at hlast'
      cases hlast'
    simpa [Event.storeId, hne] using hlast

/-- A body is started again only after a run that ended because a module was not compiled. -/
theorem Orderly.lastOf_again {later earlier : List Event}
    (h : Orderly (later ++ .started s r :: earlier)) (hmem : ∃ event ∈ earlier, event.storeId = s) :
    ∃ r' id, lastOf s earlier = some (.ended s r' (.error (.notCompiled id))) := by
  induction later with
  | nil =>
    cases h with
    | started h hfree =>
      obtain ⟨event, hlast⟩ : ∃ event, lastOf s earlier = some event :=
        Option.isSome_iff_exists.mp (by simpa [lastOf] using hmem)
      obtain rfl : event.storeId = s := by simpa using List.find?_some hlast
      rw [hlast] at hfree
      obtain ⟨r', id, hevent⟩ := leaves_eq_none hfree
      exact ⟨r', id, by rw [hlast]; exact congrArg some hevent⟩
  | cons event later ih =>
    cases h with
    | started h => exact ih h
    | ended h => exact ih h

/-! ## What is registered -/

namespace Heap

theorem record?_newRecord (h : Heap) (storeId : String) (exports : List String) (r : Nat) :
    (h.newRecord storeId exports).2.record? r =
      if r = h.records.size then some (.fresh storeId exports) else h.record? r := by
  unfold newRecord record?
  dsimp only
  rw [Array.getElem?_push]
  split <;> rfl

theorem record?_modifyRecord (h : Heap) (r r' : Nat) (change : Record → Record) :
    (h.modifyRecord r change).record? r' =
      if r = r' then (h.record? r').map change else h.record? r' := by
  unfold modifyRecord record?
  dsimp only
  rw [Array.getElem?_modify]
  split
  · cases h.records[r']? <;> rfl
  · rfl

theorem lt_of_record? {h : Heap} (hr : (h.record? r).isSome) : r < h.records.size := by
  by_contra hlt
  rw [record?, Array.getElem?_eq_none (by omega)] at hr
  cases hr

/-- A record that a root holds is not given up. -/
theorem mem_alive {h : Heap} {roots : List Nat} (hr : r ∈ roots) (hrecord : (h.record? r).isSome) :
    r ∈ h.alive roots := by
  have hpresent : r ∈ h.present :=
    List.mem_filter.mpr ⟨List.mem_range.mpr (lt_of_record? hrecord), hrecord⟩
  unfold alive
  generalize List.range h.records.size = rounds
  generalize h.present = among at hpresent
  induction rounds generalizing among with
  | nil => exact hpresent
  | cons _ rounds ih =>
    refine ih _ (List.mem_filter.mpr ⟨hpresent, ?_⟩)
    simp [hr]

theorem record?_sweep {h : Heap} {roots : List Nat} (hr : r ∈ roots) :
    (h.sweep roots).record? r = h.record? r := by
  unfold sweep record?
  dsimp only
  rw [Array.getElem?_mapIdx]
  cases hrecord : h.records[r]? with
  | none => rfl
  | some record =>
    cases record with
    | none => simp
    | some record =>
      have halive := mem_alive (h := h) hr (by rw [record?, hrecord]; rfl)
      simp [halive]

end Heap

/-- The record that is registered for a module, and the error that is kept with it. -/
def World.registered? (w : World) (s : String) : Option (Nat × Option LoadError) :=
  (w.modules[s]?).map fun r => (r, w.failure? r)

theorem modules_of_registered? {failure : Option LoadError}
    (h : w.registered? s = some (r, failure)) :
    w.modules[s]? = some r ∧ w.failure? r = failure := by
  obtain ⟨r', hmodules, heq⟩ := Option.map_eq_some_iff.mp h
  cases heq
  exact ⟨hmodules, rfl⟩

/-- What no step changes in which no body is started or ends. -/
structure World.Same (w w' : World) : Prop where
  modules : w'.modules = w.modules
  size : w'.heap.records.size = w.heap.records.size
  /-- The errors that registered records have. -/
  failures : ∀ (s : String) (r : Nat), w.modules[s]? = some r →
    (w'.heap.record? r).map (·.failure) = (w.heap.record? r).map (·.failure)
  named : w.graph.SlotsNamed → w'.graph.SlotsNamed

theorem World.mem_roots (h : w.modules[s]? = some r) : r ∈ w.roots :=
  List.mem_append_left _ (Table.mem_values h)

theorem GraphStep.namesNew {site : Site} {g g' : Graph} (h : GraphStep site g g') :
    Graph.NamesNew g g' := by
  cases h with
  | task h => exact h.namesNew
  | ensure storeId request => exact Graph.namesNew_ensure g storeId request none
  | provide task => exact .of_slots rfl
  | preload resource =>
    unfold Graph.preload
    split
    · exact .of_slots rfl
    · intro s r hr
      rw [Table.getElem?_insert] at hr
      split at hr
      · rename_i heq
        cases hr
        exact .inr heq
      · exact .inl hr

theorem HeapStep.same {h h' : Heap} (hs : HeapStep h h') : h'.records.size = h.records.size ∧
    ∀ r, (h'.record? r).map (·.failure) = (h.record? r).map (·.failure) := by
  cases hs with
  | install r entries =>
    refine ⟨Array.size_modify, fun r' => ?_⟩
    rw [Heap.install, Heap.record?_modifyRecord]
    split
    · cases h.record? r' <;> rfl
    · rfl
  | newFrame | setHandle | store => exact ⟨rfl, fun _ => rfl⟩
  | namespaceOf r =>
    unfold Heap.namespaceOf
    split <;> exact ⟨rfl, fun _ => rfl⟩

theorem World.Quiet.same (h : w.Quiet w') : w.Same w' := by
  cases h with
  | graph h => exact ⟨rfl, rfl, fun _ _ _ => rfl, fun hnamed => hnamed.of_namesNew h.namesNew⟩
  | heap h => exact ⟨rfl, h.same.1, fun _ r _ => h.same.2 r, id⟩
  | sweep held =>
    -- a registered record is a root, so it is not given up
    refine ⟨rfl, Array.size_mapIdx, fun s r hr => ?_, id⟩
    exact congrArg _ (Heap.record?_sweep (List.mem_append_right _ (World.mem_roots hr)))
  | around => exact ⟨rfl, rfl, fun _ _ _ => rfl, id⟩

theorem World.failure?_eq (w : World) (r : Nat) :
    w.failure? r = ((w.heap.record? r).map (·.failure)).join := by
  unfold failure?
  cases w.heap.record? r <;> rfl

theorem World.Same.registered? (h : w.Same w') (s : String) :
    w'.registered? s = w.registered? s := by
  unfold World.registered?
  rw [h.modules]
  cases hr : w.modules[s]? with
  | none => rfl
  | some r =>
    simp only [Option.map_some, World.failure?_eq]
    rw [h.failures s r hr]

/-! ## How steps change what is registered -/

theorem modules_enrol (w : World) (s : String) (resource : Resource) (s' : String) :
    (w.enrol s resource).2.modules[s']? =
      if s = s' then some w.heap.records.size else w.modules[s']? :=
  Table.getElem?_insert ..

theorem record?_enrol (w : World) (s : String) (resource : Resource) (r : Nat) :
    (w.enrol s resource).2.heap.record? r =
      if r = w.heap.records.size then some (.fresh s resource.exports) else w.heap.record? r :=
  Heap.record?_newRecord ..

theorem record?_detach (w : World) (resource : Resource) (r : Nat) :
    (w.detach resource).2.heap.record? r =
      if r = w.heap.records.size then some (.fresh resource.storeId resource.exports)
      else w.heap.record? r :=
  Heap.record?_newRecord ..

theorem concludeRun_failed {e : LoadError} (he : ∀ id, e ≠ .notCompiled id) (w : World) (s : String)
    (r : Nat) : w.concludeRun s r (.error e) = { w with heap := w.heap.fail r e } := by
  cases e <;> first | rfl | exact absurd rfl (he _)

/-- What taking down the end of a run leaves as it is. -/
structure World.Concludes (w w' : World) : Prop where
  graph : w'.graph = w.graph
  size : w'.heap.records.size = w.heap.records.size
  present : ∀ r, (w'.heap.record? r).isSome = (w.heap.record? r).isSome
  modules : ∀ (s : String) (r : Nat), w'.modules[s]? = some r → w.modules[s]? = some r

theorem concludeRun_concludes (w : World) (s : String) (r : Nat) (result : Except LoadError Unit) :
    w.Concludes (w.concludeRun s r result) := by
  cases result with
  | ok => exact ⟨rfl, rfl, fun _ => rfl, fun _ _ h => h⟩
  | error e =>
    by_cases he : ∃ id, e = .notCompiled id
    · obtain ⟨id, rfl⟩ := he
      unfold World.concludeRun
      dsimp only
      split
      · refine ⟨rfl, rfl, fun _ => rfl, fun s' r' h => ?_⟩
        rw [Table.getElem?_erase] at h
        split at h
        · cases h
        · exact h
      · exact ⟨rfl, rfl, fun _ => rfl, fun _ _ h => h⟩
    · rw [concludeRun_failed (not_exists.mp he)]
      refine ⟨rfl, Array.size_modify, fun r' => ?_, fun _ _ h => h⟩
      dsimp only
      rw [Heap.fail, Heap.record?_modifyRecord]
      split <;> simp

theorem registered?_fail {e : LoadError} (hrecord : (w.heap.record? r).isSome) (s' : String) :
    ({ w with heap := w.heap.fail r e } : World).registered? s' =
      if w.modules[s']? = some r then some (r, some e) else w.registered? s' := by
  unfold World.registered? World.failure?
  dsimp only
  cases hmodules : w.modules[s']? with
  | none => simp
  | some r' =>
    rw [Heap.fail, Option.map_some, Heap.record?_modifyRecord]
    obtain ⟨record, hr⟩ := Option.isSome_iff_exists.mp hrecord
    by_cases h : r = r'
    · subst h
      simp [hr]
    · have h' : ¬ some r' = some r := fun heq => h (Option.some.inj heq).symm
      simp [h, h']

/-- The end of a run leaves what it should under its store id, if its record is registered there and
nowhere else. -/
theorem registered?_concludeRun (hmodules : w.modules[s]? = some r)
    (hinjective : ∀ s' : String, w.modules[s']? = some r → s = s') (hfailure : w.failure? r = none)
    (hrecord : (w.heap.record? r).isSome) (result : Except LoadError Unit) (s' : String) :
    (w.concludeRun s r result).registered? s' =
      if s = s' then (Event.ended s r result).leaves else w.registered? s' := by
  have hiff : w.modules[s']? = some r ↔ s = s' := ⟨hinjective s', fun h => h ▸ hmodules⟩
  cases result with
  | ok =>
    split
    · rename_i h
      subst h
      rw [World.concludeRun, World.registered?, hmodules, Option.map_some, hfailure]
      rfl
    · rfl
  | error e =>
    by_cases he : ∃ id, e = .notCompiled id
    · obtain ⟨id, rfl⟩ := he
      unfold World.concludeRun
      dsimp only
      rw [if_pos hmodules]
      unfold World.registered?
      dsimp only
      rw [Table.getElem?_erase]
      split <;> rfl
    · rw [concludeRun_failed (not_exists.mp he), leaves_failed (not_exists.mp he),
        registered?_fail hrecord]
      simp only [hiff]

/-- The end of a run changes nothing that is registered, if its record is not. -/
theorem registered?_concludeRun_detached (hdetached : ∀ s' : String, w.modules[s']? ≠ some r)
    (s : String) (result : Except LoadError Unit) (s' : String) :
    (w.concludeRun s r result).registered? s' = w.registered? s' := by
  cases result with
  | ok => rfl
  | error e =>
    by_cases he : ∃ id, e = .notCompiled id
    · obtain ⟨id, rfl⟩ := he
      unfold World.concludeRun
      dsimp only
      rw [if_neg (hdetached s)]
    · rw [concludeRun_failed (not_exists.mp he)]
      unfold World.registered? World.failure?
      dsimp only
      cases hmodules : w.modules[s']? with
      | none => rfl
      | some r' =>
        have hne : r ≠ r' := fun h => hdetached s' (h ▸ hmodules)
        rw [Option.map_some, Heap.fail, Heap.record?_modifyRecord, if_neg hne]
        rfl

/-! ## The invariant -/

/-- What holds of a loader at every moment, after what has happened to its registered records. -/
structure Registry (history : List Event) (m : Moment) : Prop where
  /-- Compiled modules are kept under their own store ids. -/
  named : m.world.graph.SlotsNamed
  orderly : Orderly history
  /-- What is registered is what the latest event left. -/
  latest : ∀ s, m.world.registered? s = (lastOf s history).bind Event.leaves
  /-- Registered records are there. -/
  present : ∀ (s : String) (r : Nat), m.world.modules[s]? = some r →
    (m.world.heap.record? r).isSome
  /-- No record is registered twice. -/
  injective : ∀ (s s' : String) (r : Nat), m.world.modules[s]? = some r →
    m.world.modules[s']? = some r → s = s'
  /-- The bodies that are running have records of their own. -/
  older : ∀ run ∈ m.running, run.record < m.world.heap.records.size
  nodup : m.running.Nodup
  /-- Nothing has happened to a registered record since its body was started. -/
  registered : ∀ run ∈ m.running, run.isRegistered = true →
    lastOf run.storeId history = some (.started run.storeId run.record)
  /-- The record of code without a slot is not registered. -/
  detached : ∀ run ∈ m.running, run.isRegistered = false →
    ∀ s : String, m.world.modules[s]? ≠ some run.record

namespace Registry

variable {running : List Run}

theorem lt_size (h : Registry history m) (hr : m.world.modules[s]? = some r) :
    r < m.world.heap.records.size :=
  Heap.lt_of_record? (h.present s r hr)

/-- The record of a body that is running is registered, without an error. -/
theorem registered?_running (h : Registry history m) {run : Run} (hrun : run ∈ m.running)
    (hregistered : run.isRegistered = true) :
    m.world.registered? run.storeId = some (run.record, none) := by
  rw [h.latest, h.registered run hrun hregistered]
  rfl

theorem quiet (h : Registry history ⟨w, running⟩) (hw : w.Same w') :
    Registry history ⟨w', running⟩ where
  named := hw.named h.named
  orderly := h.orderly
  latest s := (hw.registered? s).trans (h.latest s)
  present s r hr := by
    rw [hw.modules] at hr
    have hsame := congrArg Option.isSome (hw.failures s r hr)
    simp only [Option.isSome_map] at hsame
    exact hsame.trans (h.present s r hr)
  injective s s' r hr hr' := by
    rw [hw.modules] at hr hr'
    exact h.injective s s' r hr hr'
  older run hrun := hw.size ▸ h.older run hrun
  nodup := h.nodup
  registered := h.registered
  detached run hrun hnot s := hw.modules ▸ h.detached run hrun hnot s

/-- A record that is made now is not registered yet, and no run has it. -/
theorem ne_size (h : Registry history m) : ∀ s : String,
    m.world.modules[s]? ≠ some m.world.heap.records.size := fun _ hr =>
  Nat.lt_irrefl _ (h.lt_size hr)

theorem notMem_running (h : Registry history m) (s : String) (isRegistered : Bool) :
    ⟨s, m.world.heap.records.size, isRegistered⟩ ∉ m.running := fun hrun =>
  Nat.lt_irrefl _ (h.older _ hrun)

/-- The records that were made before keep their errors when another one is made. -/
theorem failure?_newRecord (h : Registry history m) {heap : Heap} {record : Record}
    (hheap : ∀ r, heap.record? r =
      if r = m.world.heap.records.size then some record else m.world.heap.record? r)
    (hr : m.world.modules[s]? = some r) :
    (heap.record? r).bind (·.failure) = m.world.failure? r := by
  rw [hheap, if_neg (Nat.ne_of_lt (h.lt_size hr))]
  rfl

/-- The body of a module without a registered record is started. -/
theorem start (h : Registry history ⟨w, running⟩) (hnew : w.modules[s]? = none)
    (resource : Resource) : Registry (.started s (w.enrol s resource).1 :: history)
      ⟨(w.enrol s resource).2, ⟨s, (w.enrol s resource).1, true⟩ :: running⟩ where
  named := h.named
  orderly := by
    refine h.orderly.started ?_ _
    rw [← h.latest s, World.registered?, hnew]
    rfl
  latest s' := by
    rw [lastOf_cons, World.registered?, modules_enrol]
    by_cases hs : s = s'
    · have hfailure : (w.enrol s resource).2.failure? w.heap.records.size = none := by
        rw [World.failure?, record?_enrol, if_pos rfl]
        rfl
      rw [if_pos (show (Event.started s _).storeId = s' from hs), if_pos hs]
      exact congrArg (fun failure => some (w.heap.records.size, failure)) hfailure
    · simp only [Event.storeId, hs, if_false]
      rw [← h.latest s', World.registered?]
      cases hr : w.modules[s']? with
      | none => rfl
      | some r =>
        exact congrArg (fun failure => some (r, failure))
          (h.failure?_newRecord (record?_enrol w s resource) hr)
  present s' r hr := by
    rw [modules_enrol] at hr
    rw [record?_enrol]
    split
    · rfl
    · split at hr
      · rename_i hne _
        exact absurd (Option.some.inj hr).symm hne
      · exact h.present s' r hr
  injective s₁ s₂ r h₁ h₂ := by
    rw [modules_enrol] at h₁ h₂
    split at h₁ <;> split at h₂
    · rename_i hs₁ hs₂
      exact hs₁.symm.trans hs₂
    · exact absurd (h₁ ▸ h₂) (h.ne_size s₂)
    · exact absurd (h₂ ▸ h₁) (h.ne_size s₁)
    · exact h.injective s₁ s₂ r h₁ h₂
  older run hrun := by
    have hsize : (w.enrol s resource).2.heap.records.size = w.heap.records.size + 1 :=
      Array.size_push _
    rw [hsize]
    rcases List.mem_cons.mp hrun with rfl | hrun
    · exact Nat.lt_succ_self _
    · exact Nat.lt_succ_of_lt (h.older run hrun)
  nodup := List.nodup_cons.mpr ⟨h.notMem_running s true, h.nodup⟩
  registered run hrun hregistered := by
    rw [lastOf_cons]
    rcases List.mem_cons.mp hrun with rfl | hold
    · exact if_pos rfl
    · have hne : s ≠ run.storeId := by
        rintro rfl
        have hmodules := (modules_of_registered? (h.registered?_running hold hregistered)).1
        exact nomatch hnew.symm.trans hmodules
      exact (if_neg hne).trans (h.registered run hold hregistered)
  detached run hrun hnot s' hr := by
    rw [modules_enrol] at hr
    rcases List.mem_cons.mp hrun with rfl | hrun
    · cases hnot
    split at hr
    · exact Nat.ne_of_lt (h.older run hrun) (Option.some.inj hr).symm
    · exact h.detached run hrun hnot s' hr

/-- The body of a module without a slot is started. -/
theorem startInline (h : Registry history ⟨w, running⟩) (resource : Resource) :
    Registry history ⟨(w.detach resource).2,
      ⟨resource.storeId, (w.detach resource).1, false⟩ :: running⟩ where
  named := h.named
  orderly := h.orderly
  latest s := by
    rw [← h.latest s]
    unfold World.registered?
    cases hr : w.modules[s]? with
    | none => rw [show (w.detach resource).2.modules[s]? = none from hr]; rfl
    | some r =>
      rw [show (w.detach resource).2.modules[s]? = some r from hr]
      exact congrArg (fun failure => some (r, failure))
        (h.failure?_newRecord (record?_detach w resource) hr)
  present s r hr := by
    rw [record?_detach]
    split
    · rfl
    · exact h.present s r hr
  injective := h.injective
  older run hrun := by
    have hsize : (w.detach resource).2.heap.records.size = w.heap.records.size + 1 :=
      Array.size_push _
    rw [hsize]
    rcases List.mem_cons.mp hrun with rfl | hrun
    · exact Nat.lt_succ_self _
    · exact Nat.lt_succ_of_lt (h.older run hrun)
  nodup := List.nodup_cons.mpr ⟨h.notMem_running _ false, h.nodup⟩
  registered run hrun hregistered := by
    rcases List.mem_cons.mp hrun with rfl | hrun
    · cases hregistered
    · exact h.registered run hrun hregistered
  detached run hrun hnot s := by
    rcases List.mem_cons.mp hrun with rfl | hrun
    · exact h.ne_size s
    · exact h.detached run hrun hnot s

/-- A body ends whose record is not registered. -/
theorem finishDetached (h : Registry history ⟨w, running⟩) {run : Run} (hrun : run ∈ running)
    (hnot : run.isRegistered = false) (result : Except LoadError Unit) :
    Registry history ⟨w.concludeRun run.storeId run.record result, running.erase run⟩ := by
  have hw := concludeRun_concludes w run.storeId run.record result
  have hdetached := h.detached run hrun hnot
  exact {
    named := hw.graph ▸ h.named
    orderly := h.orderly
    latest := fun s => (registered?_concludeRun_detached hdetached _ _ s).trans (h.latest s)
    present := fun s r hr => (hw.present r).trans (h.present s r (hw.modules s r hr))
    injective := fun s s' r hr hr' => h.injective s s' r (hw.modules s r hr) (hw.modules s' r hr')
    older := fun run hrun => hw.size ▸ h.older run (List.mem_of_mem_erase hrun)
    nodup := h.nodup.erase run
    registered := fun run hrun => h.registered run (List.mem_of_mem_erase hrun)
    detached := fun run hrun hnot s hr =>
      h.detached run (List.mem_of_mem_erase hrun) hnot s (hw.modules s _ hr) }

/-- A body ends whose record is registered. -/
theorem finishRegistered (h : Registry history ⟨w, running⟩) {run : Run} (hrun : run ∈ running)
    (hregistered : run.isRegistered = true) (result : Except LoadError Unit) :
    Registry (.ended run.storeId run.record result :: history)
      ⟨w.concludeRun run.storeId run.record result, running.erase run⟩ := by
  have hw := concludeRun_concludes w run.storeId run.record result
  obtain ⟨hmodules, hfailure⟩ := modules_of_registered? (h.registered?_running hrun hregistered)
  exact {
    named := hw.graph ▸ h.named
    orderly := h.orderly.ended (h.registered run hrun hregistered) result
    latest := fun s => by
      rw [registered?_concludeRun hmodules (fun s' => h.injective _ s' _ hmodules) hfailure
        (h.present _ _ hmodules), lastOf_cons]
      by_cases hs : run.storeId = s
      · simp [Event.storeId, hs]
      · simpa [Event.storeId, hs] using h.latest s
    present := fun s r hr => (hw.present r).trans (h.present s r (hw.modules s r hr))
    injective := fun s s' r hr hr' => h.injective s s' r (hw.modules s r hr) (hw.modules s' r hr')
    older := fun run hrun => hw.size ▸ h.older run (List.mem_of_mem_erase hrun)
    nodup := h.nodup.erase run
    registered := fun other hother hregistered' => by
      obtain ⟨hne, hother⟩ := h.nodup.mem_erase_iff.mp hother
      have hlast := h.registered other hother hregistered'
      -- two registered runs of one module would be the same run
      have hs : run.storeId ≠ other.storeId := by
        intro hs
        rw [← hs, h.registered run hrun hregistered] at hlast
        obtain ⟨s, r, isRegistered⟩ := run
        obtain ⟨s', r', isRegistered'⟩ := other
        cases hs
        cases hlast
        cases hregistered
        cases hregistered'
        exact hne rfl
      rw [lastOf_cons]
      exact (if_neg hs).trans hlast
    detached := fun run hrun hnot s hr =>
      h.detached run (List.mem_of_mem_erase hrun) hnot s (hw.modules s _ hr) }

/-- Every step keeps the invariant. -/
theorem step {events : List Event} {m' : Moment} (h : Registry history m) (hs : Step m events m') :
    Registry (events ++ history) m' := by
  cases hs with
  | quiet hw running => exact h.quiet hw.same
  | @start w s resource hnew hready running =>
    obtain rfl : resource.storeId = s := h.named s resource hready
    exact h.start hnew resource
  | startInline w resource running => exact h.startInline resource
  | @finish w running run hrun result =>
    unfold Run.ending
    split
    · rename_i hregistered
      exact h.finishRegistered hrun hregistered result
    · rename_i hnot
      exact h.finishDetached hrun (Bool.eq_false_iff.mpr hnot) result

/-- The invariant holds when a loader has just been opened. -/
theorem opened {config : Config} {w₀ : World} (h : w₀.reopen config = (.ok (), w)) :
    Registry [] ⟨w, []⟩ := by
  unfold World.reopen at h
  dsimp only at h
  split at h
  · cases h
  cases h
  have hempty : ∀ s : String, (∅ : Table Nat)[s]? = none := fun s => Std.TreeMap.getElem?_emptyc
  have hslots : ∀ s : String, (∅ : Table Slot)[s]? = none := fun s => Std.TreeMap.getElem?_emptyc
  exact {
    named := fun s r hr => nomatch (hslots s).symm.trans hr
    orderly := .nil
    latest := fun s => by
      rw [World.registered?]
      exact congrArg (Option.map _) (hempty s)
    present := fun s r hr => nomatch (hempty s).symm.trans hr
    injective := fun s _ r hr => nomatch (hempty s).symm.trans hr
    older := nofun
    nodup := .nil
    registered := nofun
    detached := nofun }

/-- The invariant holds after any steps. -/
theorem of_runs {config : Config} {w₀ : World} (hw : w₀.reopen config = (.ok (), w))
    (hruns : Runs ⟨w, []⟩ history m) : Registry history m := by
  induction hruns with
  | refl => exact opened hw
  | step _ hs ih => exact ih.step hs

end Registry

/-! ## Imports -/

/-- Every import of a module gives a result and changes nothing, so that no body is started. -/
def World.Gives (w : World) (s : String) (result : Except LoadError Nat) : Prop :=
  ∀ (depth : Nat) (id : String) (url : Url), resolveId w.base id = .ok url → url.text = s →
    importAt (depth + 1) id w = (result, w)

/-- An import of a module with a registered record without an error gives the record. -/
theorem World.gives_record (h : w.registered? s = some (r, none)) : w.Gives s (.ok r) := by
  rintro depth id url hurl rfl
  obtain ⟨hmodules, hfailure⟩ := modules_of_registered? h
  simp only [importAt, hurl, hmodules, hfailure]

/-- An import of a module with a registered record that has an error gives the error. -/
theorem World.gives_failure {e : LoadError} (h : w.registered? s = some (r, some e)) :
    w.Gives s (.error e) := by
  rintro depth id url hurl rfl
  obtain ⟨hmodules, hfailure⟩ := modules_of_registered? h
  simp only [importAt, hurl, hmodules, hfailure]

/-- What at-most-once execution with a kept outcome means at a moment of a loader, after what has
happened to its registered records. -/
structure AtMostOnce (history : List Event) (m : Moment) : Prop where
  /-- While a body is running, every import of its module gives its record. -/
  running : ∀ run ∈ m.running, run.isRegistered = true →
    m.world.Gives run.storeId (.ok run.record)
  /-- So it is for ever after the body has ended without an error. -/
  succeeded : ∀ s r, .ended s r (.ok ()) ∈ history → m.world.Gives s (.ok r)
  /-- After a body has ended in an error, every import of its module gives that error, unless it is
  that a module is not compiled. -/
  failed : ∀ s r e, .ended s r (.error e) ∈ history → (∀ id, e ≠ .notCompiled id) →
    m.world.Gives s (.error e)
  /-- If it is, the module has no registered record when the body has ended. -/
  released : ∀ s r id, lastOf s history = some (.ended s r (.error (.notCompiled id))) →
    m.world.modules[s]? = none
  /-- A body is started again only after a run that ended in this way. -/
  again : ∀ later s r earlier, history = later ++ .started s r :: earlier →
    (∃ r', .started s r' ∈ earlier) →
    ∃ r' id, lastOf s earlier = some (.ended s r' (.error (.notCompiled id)))

/-- Whatever a loader does and whatever the bodies do, the body of a module is executed at most
once, and its outcome is kept: at every moment after the loader was opened, also while bodies are
running. -/
theorem executes_at_most_once {config : Config} {w₀ w : World} {history : List Event} {m : Moment}
    (hw : w₀.reopen config = (.ok (), w)) (hruns : Runs ⟨w, []⟩ history m) :
    AtMostOnce history m := by
  have h := Registry.of_runs hw hruns
  refine ⟨fun run hrun hregistered => ?_, fun s r hmem => ?_, fun s r e hmem he => ?_,
    fun s r id hlast => ?_, fun later s r earlier hhistory hmem => ?_⟩
  · exact World.gives_record (h.registered?_running hrun hregistered)
  · have hlast := h.orderly.lastOf_ended hmem (nofun)
    exact World.gives_record ((h.latest s).trans (by rw [hlast]; rfl))
  · have hleaves := leaves_failed he s r
    have hlast := h.orderly.lastOf_ended hmem (by rw [hleaves]; nofun)
    exact World.gives_failure ((h.latest s).trans (by rw [hlast]; exact hleaves))
  · have hentry := h.latest s
    rw [hlast] at hentry
    exact Option.map_eq_none_iff.mp hentry
  · obtain ⟨r', hmem⟩ := hmem
    exact (hhistory ▸ h.orderly).lastOf_again ⟨_, hmem, rfl⟩

/-- A module whose body throws: a second import gives the error that was thrown. -/
theorem executes_at_most_once_thrown : ∃ (w : World) (history : List Event) (m : Moment),
    (World.closed .empty ∅).reopen .standard = (.ok (), w) ∧ Runs ⟨w, []⟩ history m ∧
    history = [.ended "app:a" 0 (.error (.thrown "stop")), .started "app:a" 0] ∧
    m.world.importModule "app:a" = (.error (.thrown "stop"), m.world) := by
  let resource : Resource := ⟨"app:a", "app:a", "", ⟨3, "", [], [], [], ""⟩, []⟩
  let opened : World := ((World.closed .empty ∅).reopen .standard).2
  let loaded : World := { opened with graph := (opened.graph.preload resource).2 }
  have hnew : loaded.modules["app:a"]? = none := by decide +kernel
  have hready : loaded.graph.slots["app:a"]? = some (.ready resource) :=
    (Table.getElem?_insert ..).trans (if_pos rfl)
  have hruns := ((Runs.refl (m := ⟨opened, []⟩)).step
    (.quiet (.graph (.preload resource)) [])).step (.start hnew hready [])
    |>.step (.finish List.mem_cons_self (.error (.thrown "stop")))
  have hopened : (World.closed .empty ∅).reopen .standard = (.ok (), opened) := rfl
  have honce := executes_at_most_once hopened hruns
  obtain ⟨url, hurl, htext⟩ : ∃ url, resolveId none "app:a" = .ok url ∧ url.text = "app:a" := by
    refine ⟨⟨"app", none, .opaqueText "a", none, none⟩, by decide +kernel, by decide +kernel⟩
  exact ⟨opened, _, _, rfl, hruns, rfl,
    honce.failed "app:a" 0 (.thrown "stop") List.mem_cons_self nofun _ _ url hurl htext⟩

end EsModule.Loader
