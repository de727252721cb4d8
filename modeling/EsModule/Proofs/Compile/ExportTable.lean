import EsModule.Proofs.Compile.Wrapped

/-!
# The exports of a compiled module

The exports that compiling reports are the members of the table that the compiled module installs, in
the same order: first what the items export by name, and then what exports of everything provide.
What a module is known to export before the other modules are known is delivered, but for aliases
that are provided twice.
-/

namespace EsModule.Compile

open EsModule.Syntax EsModule.Scope EsModule.SourceMap

/-! ## The final tree -/

/-- The tree that is printed, where the exports of other modules are looked up. -/
def Module.finalTree (m : Module) (lookup : ExportLookup) : Node :=
  m.compiled (m.interface.allExports lookup)

/-- What compiling gives is the final tree in print and the names of the exports, if no import is
known to be missing. -/
theorem output_eq_ok {m : Module} {lookup : ExportLookup} {out : Output} :
    m.output lookup = .ok out ↔ checkImports lookup m.file m.interface.imports = .ok () ∧
      out = ⟨(generate (m.finalTree lookup) m.source m.file).code,
        (generate (m.finalTree lookup) m.source m.file).map,
        (m.interface.allExports lookup).map (·.1)⟩ := by
  have houtput : m.output lookup = (checkImports lookup m.file m.interface.imports).bind fun _ =>
      .ok ⟨(generate (m.finalTree lookup) m.source m.file).code,
        (generate (m.finalTree lookup) m.source m.file).map,
        (m.interface.allExports lookup).map (·.1)⟩ := rfl
  rw [houtput]
  constructor
  · intro h
    obtain ⟨_, hcheck, h⟩ := bind_eq_ok.mp h
    exact ⟨hcheck, (Except.ok.inj h).symm⟩
  · rintro ⟨hcheck, rfl⟩
    rw [hcheck]
    rfl

/-- The final tree has its parts, and its items are what became of the items. -/
theorem IsRead.exists_finalParts {m : Module} {items : List Node} (h : IsRead m items)
    (lookup : ExportLookup) : ∃ p : Parts,
      p.Of (m.finalTree lookup) (m.interface.allExports lookup) (dependencies items) ∧
      List.Forall₂ (ItemBecomes (UsesImport items m.scopes)) items p.items :=
  h.exists_parts (m.interface.allExports lookup)

/-! ## The table of exports -/

/-- The name of a key that is not computed. -/
def keyName? (key : Node) : Option String :=
  match key.kind with
  | .identifier name => some name
  | .literal (.string value _) => some value
  | _ => none

/-- The key of a member of an object. -/
def memberName? (member : Node) : Option String :=
  match member.kind with
  | .property key _ _ false _ _ => keyName? key
  | _ => none

theorem IsKey.keyName? {name : String} {key : Node} (h : IsKey name key) :
    Compile.keyName? key = some name := by
  unfold IsKey at h
  unfold Compile.keyName?
  split at h <;> rw [h]

theorem Parts.Of.keys {p : Parts} {tree : Node} {exports : List (String × Reading)}
    {dependencies : List String} (hp : p.Of tree exports dependencies) :
    p.members.map memberName? = exports.map fun e => some e.1 := by
  have hmembers := hp.members
  generalize p.members = members at hmembers
  clear hp
  induction hmembers with
  | nil => rfl
  | cons h _ ih =>
    obtain ⟨key, reader, value, hmember, hkey, -, -⟩ := h
    rw [List.map_cons, List.map_cons, ih, memberName?, hmember]
    exact congrArg (· :: _) hkey.keyName?

theorem exists_of_isOk {ε α : Type} {x : Except ε α} (h : x.isOk = true) : ∃ a, x = .ok a := by
  cases x with
  | error => cases h
  | ok a => exact ⟨a, rfl⟩

/-- What is known of the exports of a compiled module with some items. -/
structure ExportTable (m : Module) (items : List Node) (lookup : ExportLookup) (out : Output) :
    Prop where
  /-- No name is exported twice. -/
  nodup : out.exports.Nodup
  /-- The names that the items export themselves come first, each where it occurs first, and names
  that exports of everything offer come behind them in the order of the offers. -/
  order : ∃ provided, out.exports = (items.flatMap exportedNames).eraseDups ++ provided ∧
    provided.Sublist ((exportAlls items).flatMap (offeredBy lookup))
  /-- A name that no item exports itself is exported if exactly one pair of an export of everything
  and an occurrence provides it. -/
  provided : ∀ name, name ∉ items.flatMap exportedNames →
    (name ∈ out.exports ↔ ∃! pair, PairProvides lookup (exportAlls items) pair name)
  /-- The code is the final tree in print, whose parts install one table with these keys. -/
  table : out.code = (generate (m.finalTree lookup) m.source m.file).code ∧
    ∃ p : Parts, p.Of (m.finalTree lookup) (m.interface.allExports lookup) (dependencies items) ∧
      p.members.map memberName? = out.exports.map some ∧
      ∀ n ∈ (m.finalTree lookup).nodes, CallsInserted m.root .exportTable n → n = p.installCall

/-- The exports that compiling reports are those of the table, and exactly the names that the module
is meant to export. -/
theorem exportTable_output {source file : String} {m : Module} {lookup : ExportLookup} {out : Output}
    (hm : Module.ofSource source file = .ok m) (ho : m.output lookup = .ok out) :
    ∃ items, m.root.kind = .program items ∧ ExportTable m items lookup out := by
  obtain ⟨-, -, items, hread⟩ := isRead_of_ofSource hm
  obtain ⟨-, rfl⟩ := output_eq_ok.mp ho
  have hnames := names_allExports hread.tree.items m.scopes lookup
  rw [← hread.interface] at hnames
  refine ⟨items, hread.tree.kind, ?_, ⟨_, hnames, List.filter_sublist⟩, fun name hname => ?_, ?_, ?_⟩
  · rw [hread.interface]
    exact nodup_allExports hread.tree.items m.scopes lookup
  · dsimp only
    rw [hnames, List.mem_append, List.mem_eraseDups, mem_providedNames]
    exact ⟨fun h => h.elim (absurd · hname) (·.2), fun h => .inr ⟨hname, h⟩⟩
  · dsimp only
  · obtain ⟨p, hp, hitems⟩ := hread.exists_finalParts lookup
    refine ⟨p, hp, ?_, ?_⟩
    · rw [hp.keys, List.map_map]
      rfl
    · intro n hn hcalls
      exact (hp.calls hread hitems hn hcalls).installs rfl

/-- Two exports of everything, an alias and names that are exported twice. -/
theorem exportTable_output_mixed : ∃ m out items,
    Module.ofSource "export * from 'x'; export const a = 1; export * as b from 'y'; export {a as c};"
      "test.js" = .ok m ∧
    m.output (fun s => if s = "x" then some ["p", "a", "default", "q", "q"] else none) = .ok out ∧
    m.root.kind = .program items ∧
    ExportTable m items (fun s => if s = "x" then some ["p", "a", "default", "q", "q"] else none)
      out := by
  have hok : (Module.ofSource
      "export * from 'x'; export const a = 1; export * as b from 'y'; export {a as c};"
      "test.js" >>= fun m => m.output
        fun s => if s = "x" then some ["p", "a", "default", "q", "q"] else none).isOk = true := by
    decide +kernel
  obtain ⟨out, h⟩ := exists_of_isOk hok
  obtain ⟨m, hm, ho⟩ := bind_eq_ok.mp h
  obtain ⟨items, hitems⟩ := exportTable_output hm ho
  exact ⟨m, out, items, hm, ho, hitems⟩

/-! ## Declared exports -/

/-- A module declares what its items export themselves, and the aliases of exports of everything. -/
theorem mem_declared {items : List Node} (h : ∀ n ∈ items, Derives false .item n)
    (scopes : ScopeTree) {name : String} : name ∈ (Interface.ofItems items scopes).declared ↔
      name ∈ items.flatMap exportedNames ∨ ∃ source, (some name, source) ∈ exportAlls items := by
  have hitem : ∀ handles imported?, ∀ item ∈ items,
      (name ∈ declaredNames handles imported? item ↔ name ∈ exportedNames item ∨
        ∃ source, item.kind = .exportAllDeclaration (some name) source) := by
    intro handles imported? item hi
    have hexplicit := map_explicitExports (h item hi) handles imported?
    unfold declaredNames
    rw [hexplicit]
    unfold starExport? exportedNames
    cases item.kind <;> simp [eq_comm]
  have halls : (∃ source, (some name, source) ∈ exportAlls items) ↔
      ∃ item ∈ items, ∃ source, item.kind = .exportAllDeclaration (some name) source := by
    unfold exportAlls
    simp only [List.mem_filterMap]
    constructor
    · rintro ⟨source, item, hi, hentry⟩
      split at hentry
      · rename_i hk
        cases hentry
        exact ⟨item, hi, source, hk⟩
      · cases hentry
    · rintro ⟨item, hi, source, hk⟩
      exact ⟨source, item, hi, by rw [hk]⟩
  unfold Interface.ofItems
  dsimp only
  rw [keys_firstOfEach, List.map_map, List.mem_eraseDups, halls]
  simp only [Function.comp_def, List.map_id', List.mem_flatMap]
  constructor
  · rintro ⟨item, hi, hname⟩
    exact ((hitem _ _ item hi).mp hname).imp (⟨item, hi, ·⟩) (⟨item, hi, ·⟩)
  · rintro (⟨item, hi, hname⟩ | ⟨item, hi, hname⟩)
    · exact ⟨item, hi, (hitem _ _ item hi).mpr (.inl hname)⟩
    · exact ⟨item, hi, (hitem _ _ item hi).mpr (.inr hname)⟩

/-- A declared name is exported if an item exports it itself, or if exactly one pair of an export of
everything and an occurrence provides it. So only an alias that is provided a second time is lost. -/
theorem declared_mem_exports {source file : String} {m : Module} {lookup : ExportLookup}
    {out : Output} (hm : Module.ofSource source file = .ok m) (ho : m.output lookup = .ok out)
    {name : String} (hd : name ∈ m.interface.declared) :
    ∃ items, m.root.kind = .program items ∧
      (name ∈ items.flatMap exportedNames ∨ ∃ target, (some name, target) ∈ exportAlls items) ∧
      (name ∈ out.exports ↔ name ∈ items.flatMap exportedNames ∨
        ∃! pair, PairProvides lookup (exportAlls items) pair name) := by
  obtain ⟨-, -, items, hread⟩ := isRead_of_ofSource hm
  obtain ⟨-, rfl⟩ := output_eq_ok.mp ho
  have hnames := names_allExports hread.tree.items m.scopes lookup
  rw [hread.interface] at hd
  rw [← hread.interface] at hnames
  refine ⟨items, hread.tree.kind, (mem_declared hread.tree.items m.scopes).mp hd, ?_⟩
  dsimp only
  rw [hnames, List.mem_append, List.mem_eraseDups, mem_providedNames]
  tauto

/-- An alias of its own is delivered. -/
theorem declared_mem_exports_alias : ∃ m out items,
    Module.ofSource "export * as a from 'm';" "test.js" = .ok m ∧ m.output noExports = .ok out ∧
      "a" ∈ m.interface.declared ∧ m.root.kind = .program items ∧
      ("a" ∈ out.exports ↔ "a" ∈ items.flatMap exportedNames ∨
        ∃! pair, PairProvides noExports (exportAlls items) pair "a") := by
  have hok : (Module.ofSource "export * as a from 'm';" "test.js" >>= fun m =>
      m.output noExports >>= fun out => .ok (m.interface.declared, out.exports)) =
        .ok (["a"], ["a"]) := by
    decide +kernel
  obtain ⟨m, hm, h⟩ := bind_eq_ok.mp hok
  obtain ⟨out, ho, h⟩ := bind_eq_ok.mp h
  have hd : "a" ∈ m.interface.declared := by
    rw [(Prod.mk.inj (Except.ok.inj h)).1]
    exact List.mem_singleton_self "a"
  obtain ⟨items, hitems, -, hiff⟩ := declared_mem_exports hm ho hd
  exact ⟨m, out, items, hm, ho, hd, hitems, hiff⟩

/-- Two exports of everything with one alias declare the alias, and then neither provides it. -/
theorem declared_not_exported : ∃ m out,
    Module.ofSource "export * as a from 'm';export * as a from 'n';" "test.js" = .ok m ∧
      m.output noExports = .ok out ∧ "a" ∈ m.interface.declared ∧ "a" ∉ out.exports := by
  have hok : (Module.ofSource "export * as a from 'm';export * as a from 'n';" "test.js" >>= fun m =>
      m.output noExports >>= fun out => .ok (m.interface.declared, out.exports)) =
        .ok (["a"], []) := by
    decide +kernel
  obtain ⟨m, hm, h⟩ := bind_eq_ok.mp hok
  obtain ⟨out, ho, h⟩ := bind_eq_ok.mp h
  obtain ⟨hd, he⟩ := Prod.mk.inj (Except.ok.inj h)
  exact ⟨m, out, hm, ho, by rw [hd]; exact List.mem_singleton_self "a", by rw [he]; nofun⟩

end EsModule.Compile
