import EsModule.Proofs.Loader.Identity
import Mathlib.Data.List.Perm.Subperm

/-!
# A record is a map of live bindings

Readers are installed in a record and replaced, in any order and also under names that are no
exports, while the bindings behind them are given values. What the record and its namespace show at
any time depends only on the readers installed last and on the values stored last (`LiveMap`).
`Heap.Represents` ties a heap to this map. It holds of a new record, and everything that is done
keeps it (`Represents.perform`); so after any deeds the two show the map (`shows_liveMap`), and
writes to them were rejected and have changed nothing.

A read of an export gives what the reader under its name gives when it is asked now
(`Heap.get_eq_ask`). Reading is bounded by the number of readers. That bound is never felt where
readers do not lead back to themselves (`Heap.Ends`): the places that such a read passes are all
different, and there is a reader at each of them. The names of a namespace are in order, so a search
by halves finds exactly these (`Namespace.has_iff`).
-/

namespace EsModule.Loader

open Relation

/-! ## Searching by halves -/

namespace Namespace

variable {names : Array String} {key : String} {low high : Nat}

/-- What a search by halves finds is there, in order or not. -/
theorem mem_of_isAmong (h : isAmong names key low high = true) : key ∈ names := by
  fun_induction isAmong names key low high with
  | case1 low high hlt hmiddle ih | case3 low high hlt hmiddle ih => exact ih h
  | case2 low high hlt hmiddle =>
    rw [← Std.LawfulEqCmp.compare_eq_iff_eq.mp hmiddle]
    exact Array.getElem_mem _
  | case4 => cases h

/-- A search by halves among names that are in order finds each that is at an index searched. -/
theorem isAmong_getElem (hsorted : names.toList.Pairwise (· < ·)) (hhigh : high ≤ names.size)
    {i : Nat} (hi : i < names.size) (hlow : low ≤ i) (hlt : i < high) :
    isAmong names names[i] low high = true := by
  have hlater : ∀ j (hj : j < names.size), names[j] < names[i] → j < i := fun j hj h => by
    by_contra hle
    rcases Nat.eq_or_lt_of_le (Nat.le_of_not_lt hle) with rfl | hle
    · exact String.lt_irrefl _ h
    · exact String.lt_asymm h (List.pairwise_iff_getElem.mp hsorted i j hi hj hle)
  have hearlier : ∀ j (hj : j < names.size), names[i] < names[j] → i < j := fun j hj h => by
    by_contra hle
    rcases Nat.eq_or_lt_of_le (Nat.le_of_not_lt hle) with rfl | hle
    · exact String.lt_irrefl _ h
    · exact String.lt_asymm h (List.pairwise_iff_getElem.mp hsorted j i hj hi hle)
  fun_induction isAmong names names[i] low high with
  | case1 low high _ hmiddle ih =>
    exact ih hhigh (hlater _ _ (compareOfLessAndEq_eq_lt.mp hmiddle)) hlt
  | case2 => rfl
  | case3 low high _ hmiddle ih =>
    rw [Std.OrientedCmp.gt_iff_lt] at hmiddle
    exact ih (by omega) hlow (hearlier _ _ (compareOfLessAndEq_eq_lt.mp hmiddle))
  | case4 low high h => exact absurd ⟨by omega, hhigh⟩ h

/-- A namespace has exactly the names that are its keys. -/
theorem has_iff {n : Namespace} (hsorted : n.keys.Pairwise (· < ·)) :
    n.has key = true ↔ key ∈ n.keys := by
  constructor
  · exact fun h => List.mem_toArray.mp (mem_of_isAmong h)
  · intro hmem
    obtain ⟨i, hi, rfl⟩ := List.mem_iff_getElem.mp hmem
    have hsorted : n.keys.toArray.toList.Pairwise (· < ·) := hsorted
    exact isAmong_getElem hsorted (Nat.le_refl _) hi (Nat.zero_le i) hi

end Namespace

/-! ## Asking a reader -/

namespace Heap

variable {h : Heap}

/-- What a reader gives when it is asked. -/
def ask (h : Heap) : Reader → Except LoadError Value × Heap
  | .cell c => (h.load c, h)
  | .constant v => (.ok v, h)
  | .throws reason => (.error (.thrown reason), h)
  | .member frame handle name =>
    match h.handle frame handle with
    | .ok r => h.get r name
    | .error e => (.error e, h)
  | .namespaceOf frame handle =>
    match h.handle frame handle with
    | .ok r =>
      let loader := ((h.frames[frame]?).map (·.loader)).getD 0
      let (n, h) := h.openNamespace loader r
      (n.map .namespaceObject, h)
    | .error e => (.error e, h)

/-- A place for a reader: a record and a name. -/
abbrev Place : Type := Nat × String

/-- The reader at a place. -/
def readerAt (h : Heap) (p : Place) : Option Reader :=
  (h.record? p.1).bind (·.slots[p.2]?)

theorem readerAt_eq_some {p : Place} {reader : Reader} : h.readerAt p = some reader ↔
    ∃ record, h.record? p.1 = some record ∧ record.slots[p.2]? = some reader :=
  Option.bind_eq_some_iff

/-- The reader at one place reads another one. -/
def Passes (h : Heap) (q p : Place) : Prop :=
  ∃ frame handle, h.readerAt p = some (.member frame handle q.2) ∧
    h.handle frame handle = .ok q.1

/-- A read comes to an end: what is read in turn does not lead back to where it was. -/
def Ends (h : Heap) (p : Place) : Prop := Acc h.Passes p

theorem Ends.passes {p q : Place} (hp : h.Ends p) (hq : h.Passes q p) : h.Ends q := hp.inv hq

theorem Ends.not_passes_self {p : Place} (hp : h.Ends p) : ¬ TransGen h.Passes p p := by
  have hacc : Acc (TransGen h.Passes) p := hp.transGen
  induction hacc with
  | intro p _ ih => exact fun hself => ih p hself hp hself

/-! ## How many readers there are -/

/-- All places with a reader. -/
def places (h : Heap) : List Place :=
  h.records.toList.zipIdx.flatMap fun (record, r) =>
    ((record.map (·.slots.keys)).getD []).map fun name => (r, name)

theorem mem_places {p : Place} {reader : Reader} (hp : h.readerAt p = some reader) :
    p ∈ h.places := by
  obtain ⟨record, hrecord, hslot⟩ := readerAt_eq_some.mp hp
  have hslots : (some record, p.1) ∈ h.records.toList.zipIdx := by
    rw [List.mem_zipIdx_iff_getElem?, Array.getElem?_toList]
    exact Option.join_eq_some_iff.mp hrecord
  exact List.mem_flatMap.mpr ⟨_, hslots, List.mem_map.mpr ⟨p.2, Table.mem_keys hslot, rfl⟩⟩

theorem length_places (h : Heap) : h.places.length = h.readerCount := by
  have hlength : ∀ record : Option Record,
      ((record.map (·.slots.keys)).getD []).length = (record.map (·.slots.size)).getD 0
    | none => rfl
    | some record => Std.TreeMap.length_keys
  unfold places readerCount
  rw [List.length_flatMap, ← Array.foldl_toList]
  simp only [List.length_map, hlength]
  rw [← List.foldl_map (g := fun n m => n + m), ← List.sum_eq_foldl,
    ← List.zipIdx_map_fst 0 h.records.toList, List.map_map, List.zipIdx_map_fst]
  rfl

/-- Reading with a bound that is large enough for the places that were not passed yet gives what
reading with a larger bound gives. -/
theorem read_bound {bound : Nat} {p : Place} (hends : h.Ends p) {passed : List Place}
    (hnodup : passed.Nodup) (hpassed : ∀ q ∈ passed, q ∈ h.places ∧ TransGen h.Passes p q)
    (hbound : h.readerCount < bound + passed.length) :
    read (bound + 1) p.1 p.2 h = read bound p.1 p.2 h := by
  induction bound generalizing p passed with
  | zero =>
    have hle := (List.Nodup.subperm hnodup fun q hq => (hpassed q hq).1).length_le
    rw [length_places] at hle
    omega
  | succ bound ih =>
    rw [read, read]
    split
    · rfl
    rename_i record hrecord
    split <;> try rfl
    rename_i frame handle name hslot
    split
    · rename_i r hhandle
      have hreader := readerAt_eq_some.mpr ⟨record, hrecord, hslot⟩
      have hpasses : h.Passes (r, name) p := ⟨frame, handle, hreader, hhandle⟩
      -- a place that is passed twice would lead back to itself
      have hnodup : (p :: passed).Nodup := List.nodup_cons.mpr
        ⟨fun hmem => hends.not_passes_self (hpassed p hmem).2, hnodup⟩
      refine ih (p := (r, name)) (hends.passes hpasses) hnodup ?_ ?_
      · rintro q (_ | ⟨_, hq⟩)
        · exact ⟨mem_places hreader, .single hpasses⟩
        · exact ⟨(hpassed q hq).1, .head hpasses (hpassed q hq).2⟩
      · rw [List.length_cons]
        omega
    · rfl

/-- A read that comes to an end gives what the reader under the name gives when it is asked. -/
theorem get_eq_ask {r : Nat} {name : String} {reader : Reader}
    (hreader : h.readerAt (r, name) = some reader) (hends : h.Ends (r, name)) :
    h.get r name = h.ask reader := by
  obtain ⟨record, hrecord, hslot⟩ := readerAt_eq_some.mp hreader
  dsimp only at hrecord hslot
  rw [get, read, hrecord]
  dsimp only
  rw [hslot]
  cases reader with
  | cell | constant | throws | namespaceOf => rfl
  | member frame handle name' =>
    unfold ask
    dsimp only
    cases hhandle : h.handle frame handle with
    | error => rfl
    | ok r' =>
      have hpasses : h.Passes (r', name') (r, name) := ⟨frame, handle, hreader, hhandle⟩
      refine (read_bound (p := (r', name')) (hends.passes hpasses)
        (List.nodup_singleton (r, name)) (fun q hq => ?_) ?_).symm
      · cases List.mem_singleton.mp hq
        exact ⟨mem_places hreader, .single hpasses⟩
      · rw [List.length_singleton]
        exact Nat.lt_succ_self _

end Heap

/-! ## Deeds -/

/-- What is done with records, bindings, executions and namespaces. -/
inductive Deed where
  | newRecord (storeId : String) (exports : List String)
  | install (r : Nat) (entries : List (String × Reader))
  | store (c : Cell) (v : Value)
  | newFrame (loader : Nat)
  | setHandle (frame : Nat) (handle : String) (r : Nat)
  | namespaceOf (r : Nat)
  | get (r : Nat) (name : String)
  | set (r : Nat) (name : String) (v : Value)
  | getProperty (n : Namespace) (key : String)
  | setProperty (n : Namespace) (key : String) (v : Value)

/-- The heap after a deed. -/
def Heap.perform (h : Heap) : Deed → Heap
  | .newRecord storeId exports => (h.newRecord storeId exports).2
  | .install r entries => h.install r entries
  | .store c v => h.store c v
  | .newFrame loader => (h.newFrame loader).2
  | .setHandle frame handle r => h.setHandle frame handle r
  | .namespaceOf r => (h.namespaceOf r).2
  | .get r name => (h.get r name).2
  | .set r name v => (h.set r name v).2
  | .getProperty n key => (h.getProperty n key).2
  | .setProperty n key v => (h.setProperty n key v).2

/-- What a record is worth: the readers that were installed last, and the values that were stored
last. -/
structure LiveMap where
  /-- The names of the exports. -/
  exports : List String
  reader? : String → Option Reader
  value? : Cell → Option Value

/-- The map of a record after a deed: only installing in this record and storing count. -/
def LiveMap.after (r : Nat) (m : LiveMap) : Deed → LiveMap
  | .install r' entries =>
    if r' = r then
      { m with reader? := fun name => (entries.reverse.lookup name).or (m.reader? name) }
    else m
  | .store c v => { m with value? := fun d => if d = c then some v else m.value? d }
  | _ => m

/-! ## What a record and its namespace show -/

/-- A record and its namespace show a map. -/
structure Heap.Shows (h : Heap) (r : Nat) (n : Namespace) (m : LiveMap) : Prop where
  /-- An export is what the reader that was installed last gives now, if it gives anything. -/
  get : ∀ name reader, m.reader? name = some reader → h.Ends (r, name) →
    h.get r name = h.ask reader
  /-- A reader of a binding gives the value that was stored last. -/
  binding : ∀ name c, m.reader? name = some (.cell c) →
    h.get r name = ((m.value? c).elim (.error (.readBeforeInit c.name)) .ok, h)
  /-- Where no reader was installed, an export is not initialized, and there is nothing else. -/
  withoutReader : ∀ name, m.reader? name = none → h.get r name =
    (if name ∈ m.exports then .error (.readBeforeInit name) else .ok .undefined, h)
  /-- The names of the record are those that were installed. -/
  keys : ∃ record, h.record? r = some record ∧ record.keys.Pairwise (· < ·) ∧
    ∀ name, name ∈ record.keys ↔ (m.reader? name).isSome
  /-- The names of the namespace are those of the exports. -/
  names : n.keys.Pairwise (· < ·) ∧ ∀ name, name ∈ n.keys ↔ name ∈ m.exports
  has : ∀ name, n.has name = true ↔ name ∈ m.exports
  getProperty : ∀ name, h.getProperty n name =
    if name ∈ m.exports then h.get r name else (.ok .undefined, h)
  /-- A write to the record is rejected and changes nothing. -/
  set : ∀ name v, h.set r name v = (.error .constantAssignment, h)
  /-- A write to the namespace is rejected and changes nothing. -/
  setProperty : ∀ name v, h.setProperty n name v =
    (.error (if name ∈ m.exports then .readOnly name else .notExtensible name), h)

/-- A record holds the readers of a map, and bindings the values. -/
structure Heap.Represents (h : Heap) (r : Nat) (m : LiveMap) : Prop where
  record : ∃ record, h.record? r = some record ∧ record.exports = m.exports ∧
    ∀ name, record.slots[name]? = m.reader? name
  values : h.cells = m.value?
  names : ∀ n ∈ h.namespaces, n.record = r → n.keys = Heap.keysOf m.exports

namespace Heap.Represents

variable {h h' : Heap} {r : Nat} {m : LiveMap}

/-- A new record holds no readers. -/
theorem newRecord (hs : h.Sound) (storeId : String) (exports : List String) :
    (h.newRecord storeId exports).2.Represents (h.newRecord storeId exports).1
      ⟨exports, fun _ => none, h.cells⟩ where
  record := ⟨.fresh storeId exports,
    (record?_newRecord h storeId exports _).trans (if_pos rfl), rfl,
    fun _ => Std.TreeMap.getElem?_emptyc⟩
  values := rfl
  -- the number of the record is new, so no namespace has it yet
  names n hn heq := absurd (hs.made n hn) (Nat.not_lt_of_le (Nat.le_of_eq heq.symm))

/-- What leaves the record, the bindings and the namespaces keeps this. -/
theorem of_eq (hm : h.Represents r m) (hrecord : h'.record? r = h.record? r)
    (hcells : h'.cells = h.cells) (hnamespaces : h'.namespaces = h.namespaces) :
    h'.Represents r m where
  record := hrecord ▸ hm.record
  values := hcells.trans hm.values
  names n hn := hm.names n (hnamespaces ▸ hn)

theorem install (hm : h.Represents r m) (r' : Nat) (entries : List (String × Reader)) :
    (h.install r' entries).Represents r (m.after r (.install r' entries)) := by
  obtain ⟨record, hrecord, hexports, hslots⟩ := hm.record
  unfold LiveMap.after
  dsimp only
  split
  · rename_i heq
    refine ⟨⟨record.install entries, ?_, hexports, fun name => ?_⟩, hm.values, hm.names⟩
    · rw [Heap.install, record?_modifyRecord, if_pos heq, hrecord]
      rfl
    · rw [Record.install, Table.getElem?_addAll, hslots name]
  · rename_i hne
    refine hm.of_eq ?_ rfl rfl
    rw [Heap.install, record?_modifyRecord, if_neg hne]

theorem store (hm : h.Represents r m) (c : Cell) (v : Value) :
    (h.store c v).Represents r (m.after r (.store c v)) where
  record := hm.record
  values := by
    unfold Heap.store LiveMap.after
    dsimp only
    rw [hm.values]
  names := hm.names

theorem namespaceOf (hm : h.Represents r m) (r' : Nat) :
    (h.namespaceOf r').2.Represents r m where
  record := by
    rw [record?, records_namespaceOf]
    exact hm.record
  values := by
    rw [← hm.values]
    unfold Heap.namespaceOf
    split <;> rfl
  names n hn heq := by
    rcases of_mem_namespaceOf hn with hn | ⟨hr, hkeys⟩
    · exact hm.names n hn heq
    · obtain ⟨record, hrecord, hexports, _⟩ := hm.record
      rw [(hkeys record (by rw [← hr, heq, hrecord])).2, Record.exportKeys, hexports]
      rfl

theorem get (hm : h.Represents r m) (r' : Nat) (name : String) :
    (h.get r' name).2.Represents r m := by
  rcases h.read_eq (h.readerCount + 1) r' name with heq | ⟨_, _, r'', _, heq⟩
  · rw [Heap.get, heq]
    exact hm
  · rw [Heap.get, heq]
    exact hm.namespaceOf r''

theorem getProperty (hm : h.Represents r m) (n : Namespace) (key : String) :
    (h.getProperty n key).2.Represents r m := by
  unfold Heap.getProperty
  split
  · split
    · exact hm.get n.record key
    · exact hm
  · exact hm

/-- Every deed does to the heap what it does to the map. -/
theorem perform (hm : h.Represents r m) (deed : Deed) :
    (h.perform deed).Represents r (m.after r deed) := by
  cases deed with
  | newRecord storeId exports =>
    refine hm.of_eq ?_ rfl rfl
    obtain ⟨record, hrecord, -⟩ := hm.record
    have hlt := lt_of_record? (h := h) (r := r) (by rw [hrecord]; rfl)
    exact (record?_newRecord h storeId exports r).trans (if_neg (Nat.ne_of_lt hlt))
  | install r' entries => exact hm.install r' entries
  | store c v => exact hm.store c v
  | newFrame | setHandle => exact hm.of_eq rfl rfl rfl
  | namespaceOf r' => exact hm.namespaceOf r'
  | get r' name => exact hm.get r' name
  | getProperty n key => exact hm.getProperty n key
  | set | setProperty => exact hm

theorem performs (hm : h.Represents r m) (deeds : List Deed) :
    (deeds.foldl Heap.perform h).Represents r (deeds.foldl (LiveMap.after r) m) := by
  induction deeds generalizing h m with
  | nil => exact hm
  | cons deed deeds ih => exact ih (hm.perform deed)

end Heap.Represents

theorem LiveMap.exports_after (r : Nat) (m : LiveMap) (deed : Deed) :
    (m.after r deed).exports = m.exports := by
  unfold after
  split <;> try rfl
  split <;> rfl

theorem LiveMap.exports_foldl_after (r : Nat) (m : LiveMap) (deeds : List Deed) :
    (deeds.foldl (after r) m).exports = m.exports := by
  induction deeds generalizing m with
  | nil => rfl
  | cons deed deeds ih => exact (ih (m.after r deed)).trans (m.exports_after r deed)

/-- What represents a map shows it, through any namespace with the names of the exports. -/
theorem Heap.Represents.shows {h : Heap} {r : Nat} {m : LiveMap} {n : Namespace}
    (hm : h.Represents r m) (hr : n.record = r) (hkeys : n.keys = Heap.keysOf m.exports) :
    h.Shows r n m := by
  obtain ⟨record, hrecord, hexports, hslots⟩ := hm.record
  have hreader : ∀ {name reader}, m.reader? name = some reader →
      h.readerAt (r, name) = some reader := fun hreader =>
    Heap.readerAt_eq_some.mpr ⟨record, hrecord, (hslots _).trans hreader⟩
  have hnames : n.keys.Pairwise (· < ·) ∧ ∀ name, name ∈ n.keys ↔ name ∈ m.exports :=
    hkeys ▸ ⟨Heap.keysOf_sorted m.exports, fun _ => Heap.mem_keysOf⟩
  have hhas : ∀ name, n.has name = true ↔ name ∈ m.exports := fun name =>
    (Namespace.has_iff hnames.1).trans (hnames.2 name)
  exact {
    get := fun name reader h' hends => Heap.get_eq_ask (hreader h') hends
    binding := fun name c h' => by
      have hends : h.Ends (r, name) := ⟨_, fun q ⟨_, _, hpasses, _⟩ => by
        cases (hreader h').symm.trans hpasses⟩
      rw [Heap.get_eq_ask (hreader h') hends, Heap.ask, Heap.load, hm.values]
      cases m.value? c <;> rfl
    withoutReader := fun name h' => by
      rw [Heap.get, Heap.read, hrecord]
      dsimp only
      rw [hslots name, h']
      dsimp only
      rw [Record.withoutReader, hexports]
    keys := ⟨record, hrecord, record.slots.keys_sorted, fun name => by
        rw [Record.keys, Std.TreeMap.mem_keys, Std.TreeMap.mem_iff_isSome_getElem?, hslots name]⟩
    names := hnames
    has := hhas
    getProperty := fun name => by
      unfold Heap.getProperty Heap.recordBehind
      rw [hr, hrecord]
      exact if_congr (hhas name) rfl rfl
    set := fun _ _ => rfl
    setProperty := fun name _ => by
      rw [Heap.setProperty, if_congr (hhas name) rfl rfl] }

/-- Whatever is done with a new record, with its namespace once this was asked for, and with anything
else: the two show the readers that were installed last and the values that were stored last. -/
theorem shows_liveMap {h₀ : Heap} (hs : h₀.Sound) (storeId : String) (exports : List String)
    (earlier later : List Deed) :
    let (r, h₁) := h₀.newRecord storeId exports
    let (n, h₂) := (earlier.foldl Heap.perform h₁).namespaceOf r
    (later.foldl Heap.perform h₂).Shows r n
      ((earlier ++ later).foldl (LiveMap.after r) ⟨exports, fun _ => none, h₀.cells⟩) := by
  have hm := (Heap.Represents.newRecord hs storeId exports).performs earlier
  have hnamed := hm.namespaceOf h₀.records.size
  obtain ⟨hn, hr⟩ := Heap.mem_namespaceOf (earlier.foldl Heap.perform
    (h₀.newRecord storeId exports).2) h₀.records.size
  have hkeys := hnamed.names _ hn hr
  have hlater := hnamed.performs later
  rw [← List.foldl_append] at hlater
  refine hlater.shows hr ?_
  rw [LiveMap.exports_foldl_after] at hkeys ⊢
  exact hkeys

/-- Two exports of which one has a reader that was replaced, and a reader under a name that is no
export: writes to the exports are rejected, and the second value of the binding is shown. -/
theorem shows_liveMap_replaced : ∃ (earlier later : List Deed) (h : Heap) (n : Namespace),
    Heap.empty.Sound ∧
    n = ((earlier.foldl Heap.perform (Heap.empty.newRecord "app:/m.js" ["b", "a"]).2).namespaceOf
      0).1 ∧
    h = later.foldl Heap.perform ((earlier.foldl Heap.perform
      (Heap.empty.newRecord "app:/m.js" ["b", "a"]).2).namespaceOf 0).2 ∧
    n.keys = ["a", "b"] ∧
    h.get 0 "b" = (.ok (.string "second"), h) ∧ h.getProperty n "b" = h.get 0 "b" ∧
    h.get 0 "a" = (.error (.readBeforeInit "a"), h) ∧ h.getProperty n "a" = h.get 0 "a" ∧
    h.get 0 "x" = (.ok .null, h) ∧ h.getProperty n "x" = (.ok .undefined, h) ∧
    h.get 0 "y" = (.ok .undefined, h) ∧
    h.setProperty n "x" .null = (.error (.notExtensible "x"), h) := by
  let cell : Cell := ⟨"app:/m.js", "b"⟩
  let n : Namespace := ⟨0, 0, "app:/m.js", ["a", "b"]⟩
  let earlier : List Deed := [
    .install 0 [("b", .throws "early"), ("x", .constant .null), ("b", .cell cell)],
    .store cell (.string "first"), .set 0 "b" .null]
  let later : List Deed := [.setProperty n "b" .null, .store cell (.string "second"),
    .setProperty n "x" .null]
  have hshows := shows_liveMap Heap.Sound.empty "app:/m.js" ["b", "a"] earlier later
  refine ⟨earlier, later, _, n, Heap.Sound.empty, rfl, rfl, rfl, hshows.binding "b" cell rfl,
    hshows.getProperty "b", hshows.withoutReader "a" rfl, hshows.getProperty "a", ?_,
    hshows.getProperty "x", hshows.withoutReader "y" rfl, hshows.setProperty "x" .null⟩
  exact hshows.get "x" (.constant .null) rfl ⟨_, fun q hq => nomatch hq⟩

end EsModule.Loader
