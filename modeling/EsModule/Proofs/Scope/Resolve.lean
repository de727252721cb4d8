import EsModule.Proofs.Scope.Steps

/-!
# What collecting finds

Which binding a name resolves to depends on the kinds of the bindings alone, not on who uses them,
so resolving the uses one after the other gives each of them the binding that the walk had found
for it. `collect_spec` says so: the scopes hold the declarations of the walk, a binding lists the
uses that resolve to it, and what resolves to nothing is a global.
-/

namespace EsModule.Scope

open EsModule.Syntax

/-! ## Association lists -/

theorem lookup_modifyKey {β : Type} (f : β → β) (key k : String) (l : List (String × β)) :
    (modifyKey f key l).lookup k = if k = key then (l.lookup k).map f else l.lookup k := by
  induction l with
  | nil => simp [modifyKey]
  | cons p l ih =>
    obtain ⟨k', b⟩ := p
    unfold modifyKey
    by_cases hkey : k' = key
    · subst hkey
      by_cases hk : k = k'
      · simp [hk]
      · have hb : (k == k') = false := beq_eq_false_iff_ne.mpr hk
        simp [hk, hb, List.lookup_cons]
    · by_cases hk : k = k'
      · subst hk
        simp [hkey]
      · have hb : (k == k') = false := beq_eq_false_iff_ne.mpr hk
        simp [hkey, hb, List.lookup_cons, ih]

theorem mem_addOnce {i n : Nat} {ns : List Nat} : i ∈ addOnce n ns ↔ i = n ∨ i ∈ ns := by
  unfold addOnce
  split
  · rename_i h
    rw [List.contains_iff_mem] at h
    constructor
    · exact .inr
    · rintro (rfl | h')
      · exact h
      · exact h'
  · rw [List.mem_append, List.mem_singleton, or_comm]

namespace ScopeTree

/-! ## What is declared -/

/-- The binding of a name in a scope. -/
def bindingAt? (t : ScopeTree) (scope : Nat) (name : String) : Option Binding :=
  t.scopes[scope]?.bind (·.binding? name)

/-- The kind of the binding of a name in a scope, and the node that declared it. -/
def declared? (t : ScopeTree) (scope : Nat) (name : String) : Option (BindingKind × Nat) :=
  (t.bindingAt? scope name).map fun b => (b.kind, b.node)

/-- The scope whose binding a use resolves to. -/
def target? (t : ScopeTree) (u : Use) : Option Nat :=
  (t.resolve u.chain u.name u.params).map (·.1)

/-- Whether what is declared can be seen from lists of parameters. -/
def seen (params : List Nat) (scope : Nat) (d : BindingKind × Nat) : Option Nat :=
  if params.contains scope && !d.1.seenByParams then none else some scope

theorem visible?_map (t : ScopeTree) (params : List Nat) (name : String) (scope : Nat) :
    (t.visible? params name scope).map (·.1) = (t.declared? scope name).bind (seen params scope) := by
  unfold visible? declared? bindingAt? seen
  cases t.scopes[scope]? with
  | none => rfl
  | some s =>
    cases h : s.binding? name with
    | none => simp [h]
    | some b =>
      simp only [h, Option.bind_eq_bind, Option.bind_some, Option.map_some]
      split <;> rfl

/-- The scope that a name resolves to is the first one of the chain in which it is declared and can
be seen. -/
theorem target?_eq (t : ScopeTree) (u : Use) :
    t.target? u = u.chain.findSome? fun s => (t.declared? s u.name).bind (seen u.params s) := by
  unfold target? resolve
  induction u.chain with
  | nil => rfl
  | cons s chain ih =>
    rw [List.findSome?_cons, List.findSome?_cons, ← visible?_map]
    cases h : t.visible? u.params u.name s with
    | none => simpa [h] using ih
    | some b => simp

theorem target?_congr {t t' : ScopeTree} (h : ∀ s x, t'.declared? s x = t.declared? s x) (u : Use) :
    t'.target? u = t.target? u := by
  rw [target?_eq, target?_eq]
  simp only [h]

theorem bindingAt?_modifyBinding (t : ScopeTree) (scope : Nat) (name : String)
    (f : Binding → Binding) (s : Nat) (x : String) :
    (t.modifyBinding scope name f).bindingAt? s x =
      if s = scope ∧ x = name then (t.bindingAt? s x).map f else t.bindingAt? s x := by
  unfold modifyBinding bindingAt?
  rw [Array.getElem?_modify]
  by_cases hs : scope = s
  · subst hs
    cases h : t.scopes[scope]? with
    | none => simp
    | some sc =>
      simp only [if_true, Option.map_some, Option.bind_some, Scope.binding?, lookup_modifyKey,
        true_and]
  · simp [hs, Ne.symm hs]

/-! ## One use -/

/-- What recording a use does to the bindings. -/
theorem bindingAt?_recordUse (t : ScopeTree) (u : Use) (s : Nat) (x : String) :
    (t.recordUse u).bindingAt? s x =
      (t.bindingAt? s x).map fun b =>
        if t.target? u = some s ∧ x = u.name then
          match u.access with
          | .read => { b with references := addOnce u.node b.references }
          | .write => { b with mutations := addOnce u.node b.mutations }
        else b := by
  have hid : ∀ o : Option Binding, o = o.map fun b => b := by
    intro o
    cases o <;> rfl
  unfold recordUse target?
  cases h : t.resolve u.chain u.name u.params with
  | none =>
    simp only [Option.map_none, reduceCtorEq, false_and, if_false]
    exact hid _
  | some r =>
    obtain ⟨scope, b⟩ := r
    cases hu : u.access with
    | read =>
      dsimp only
      rw [bindingAt?_modifyBinding]
      by_cases hs : s = scope ∧ x = u.name
      · simp [hs]
      · rw [if_neg hs]
        simp [eq_comm, hs, ← hid]
    | write =>
      dsimp only
      rw [bindingAt?_modifyBinding]
      by_cases hs : s = scope ∧ x = u.name
      · simp [hs]
      · rw [if_neg hs]
        simp [eq_comm, hs, ← hid]

theorem declared?_recordUse (t : ScopeTree) (u : Use) (s : Nat) (x : String) :
    (t.recordUse u).declared? s x = t.declared? s x := by
  unfold declared?
  rw [bindingAt?_recordUse, Option.map_map]
  congr 1
  funext b
  simp only [Function.comp]
  split
  · cases u.access <;> rfl
  · rfl

theorem mem_globals_recordUse (t : ScopeTree) (u : Use) (i : Nat) :
    i ∈ (t.recordUse u).globals ↔ i ∈ t.globals ∨ u.node = i ∧ t.target? u = none := by
  unfold recordUse target?
  cases h : t.resolve u.chain u.name u.params with
  | none =>
    simp only [mem_addOnce, Option.map_none, and_true]
    rw [eq_comm, or_comm]
  | some r =>
    obtain ⟨scope, b⟩ := r
    cases u.access <;> simp [modifyBinding]

/-! ## All uses -/

/-- What is known of scopes in which some uses were recorded, by the declarations of the scopes `t`
in which they were not. -/
structure Records (t : ScopeTree) (uses : List Use) (t' : ScopeTree) : Prop where
  /-- Nothing else is declared. -/
  declared : ∀ s x, t'.declared? s x = t.declared? s x
  /-- A binding lists those that read it. -/
  references : ∀ {s x b}, t'.bindingAt? s x = some b → ∀ i, i ∈ b.references ↔
    ∃ u ∈ uses, u.access = .read ∧ u.node = i ∧ u.name = x ∧ t.target? u = some s
  /-- It lists those that write it. -/
  mutations : ∀ {s x b}, t'.bindingAt? s x = some b → ∀ i, i ∈ b.mutations ↔
    ∃ u ∈ uses, u.access = .write ∧ u.node = i ∧ u.name = x ∧ t.target? u = some s
  /-- What resolves to nothing is a global. -/
  globals : ∀ i, i ∈ t'.globals ↔ ∃ u ∈ uses, u.node = i ∧ t.target? u = none

/-- Whether no use was recorded yet. -/
structure Unused (t : ScopeTree) : Prop where
  /-- No binding lists a use. -/
  bindings : ∀ {s x b}, t.bindingAt? s x = some b → b.references = [] ∧ b.mutations = []
  /-- There are no globals. -/
  globals : t.globals = []

theorem Unused.records {t : ScopeTree} (h : t.Unused) : Records t [] t where
  declared _ _ := rfl
  references hb i := by simp [(h.bindings hb).1]
  mutations hb i := by simp [(h.bindings hb).2]
  globals i := by simp [h.globals]

theorem Records.recordUse {t t' : ScopeTree} {uses : List Use} (h : Records t uses t') (u : Use) :
    Records t (uses ++ [u]) (t'.recordUse u) := by
  have htarget : t'.target? u = t.target? u := target?_congr h.declared u
  refine ⟨fun s x => ?_, fun {s x b} hb i => ?_, fun {s x b} hb i => ?_, fun i => ?_⟩
  · rw [declared?_recordUse, h.declared]
  · rw [bindingAt?_recordUse, Option.map_eq_some_iff] at hb
    obtain ⟨b', hb', rfl⟩ := hb
    rw [htarget]
    have hold := h.references hb' i
    simp only [List.mem_append, List.mem_singleton, or_and_right, exists_or, exists_eq_left, ← hold]
    cases hu : u.access <;> by_cases hs : t.target? u = some s ∧ x = u.name
    · simp [hs, mem_addOnce, or_comm, eq_comm]
    · simp only [hs, if_false]
      grind
    · simp [hs]
    · simp [hs]
  · rw [bindingAt?_recordUse, Option.map_eq_some_iff] at hb
    obtain ⟨b', hb', rfl⟩ := hb
    rw [htarget]
    have hold := h.mutations hb' i
    simp only [List.mem_append, List.mem_singleton, or_and_right, exists_or, exists_eq_left, ← hold]
    cases hu : u.access <;> by_cases hs : t.target? u = some s ∧ x = u.name
    · simp [hs]
    · simp [hs]
    · simp [hs, mem_addOnce, or_comm, eq_comm]
    · simp only [hs, if_false]
      grind
  · rw [mem_globals_recordUse, h.globals, htarget]
    simp only [List.mem_append, List.mem_singleton, or_and_right, exists_or, exists_eq_left]

theorem Records.foldl {t t' : ScopeTree} {uses : List Use} (h : Records t uses t')
    (more : List Use) : Records t (uses ++ more) (more.foldl ScopeTree.recordUse t') := by
  induction more generalizing uses t' with
  | nil => simpa using h
  | cons u more ih =>
    have := ih (h.recordUse u)
    rwa [List.append_assoc] at this

/-! ## What the walk changes -/

theorem bindingAt?_openScope (t : ScopeTree) (node : Nat) (kind : ScopeKind) (outer : List Nat)
    (s : Nat) (x : String) : (t.openScope node kind outer).bindingAt? s x = t.bindingAt? s x := by
  unfold openScope bindingAt?
  rw [Array.getElem?_push]
  split
  · rename_i h
    simp [h, Scope.binding?]
  · rfl

theorem bindingAt?_label (t : ScopeTree) (scope : Nat) (name : String) (node s : Nat)
    (x : String) : (t.label scope name node).bindingAt? s x = t.bindingAt? s x := by
  unfold label bindingAt?
  rw [Array.getElem?_modify]
  by_cases hs : scope = s
  · subst hs
    cases t.scopes[scope]? <;> simp [Scope.binding?]
  · simp [hs]

/-- The kinds of all scopes, the nodes that open them, and the scopes around them. -/
def shapes (t : ScopeTree) : List (ScopeKind × Nat × List Nat) :=
  t.scopes.toList.map fun s => (s.kind, s.node, s.enclosing)

theorem getElem?_shapes (t : ScopeTree) (s : Nat) :
    t.shapes[s]? = t.scopes[s]?.map fun s => (s.kind, s.node, s.enclosing) := by
  simp [shapes]

theorem shapes_openScope (t : ScopeTree) (node : Nat) (kind : ScopeKind) (outer : List Nat) :
    (t.openScope node kind outer).shapes = t.shapes ++ [(kind, node, outer)] := by
  simp [openScope, shapes]

theorem shapes_label (t : ScopeTree) (scope : Nat) (name : String) (node : Nat) :
    (t.label scope name node).shapes = t.shapes := by
  refine List.ext_getElem? fun s => ?_
  rw [getElem?_shapes, getElem?_shapes, label, Array.getElem?_modify]
  split <;> simp [Function.comp_def]

theorem shapes_recordUse (t : ScopeTree) (u : Use) : (t.recordUse u).shapes = t.shapes := by
  have hmodify : ∀ (scope : Nat) (name : String) (f : Binding → Binding),
      (t.modifyBinding scope name f).shapes = t.shapes := by
    intro scope name f
    refine List.ext_getElem? fun s => ?_
    rw [getElem?_shapes, getElem?_shapes, modifyBinding, Array.getElem?_modify]
    split <;> simp [Function.comp_def]
  unfold recordUse
  split
  · exact hmodify ..
  · exact hmodify ..
  · rfl

/-- A declaration is accepted unless the name is held by another node and one of the two
declarations allows no other. -/
def Allows (held : Option (BindingKind × Nat)) (kind : BindingKind) (node : Nat) : Prop :=
  ∀ k n, held = some (k, n) →
    n = node ∨ k = .param ∨ k.isLexical = false ∧ kind.isLexical = false

theorem declare_eq_ok {t : ScopeTree} {scope : Nat} {kind : BindingKind} {name : String}
    {node : Nat} : (∃ t', t.declare scope kind name node = .ok t') ↔
      Allows (t.declared? scope name) kind node := by
  unfold ScopeTree.declare declared? bindingAt? Allows
  cases hs : t.scopes[scope]? with
  | none => simp
  | some s =>
    have hbind : (∃ t' : ScopeTree, (do
        let s ← s.declare kind name node
        return { t with scopes := t.scopes.setIfInBounds scope s }) = Except.ok t') ↔
        ∃ s', s.declare kind name node = .ok s' := by
      simp only [bind_eq_ok]
      exact ⟨fun ⟨_, s', h, _⟩ => ⟨s', h⟩, fun ⟨s', h⟩ => ⟨_, s', h, rfl⟩⟩
    refine hbind.trans ?_
    unfold Scope.declare
    cases hheld : s.binding? name with
    | none => simp [hheld]
    | some held =>
      simp only [hheld, Option.bind_some, Option.map_some, Option.some.injEq, Prod.mk.injEq]
      constructor
      · rintro ⟨s', h⟩ k n ⟨rfl, rfl⟩
        split at h
        · rename_i hsame
          simp only [Bool.or_eq_true, decide_eq_true_eq] at hsame
          exact hsame.imp_right .inl
        split at h
        · cases h
        · rename_i hlexical
          exact .inr (.inr (by simpa using hlexical))
      · intro h
        rcases h _ _ ⟨rfl, rfl⟩ with h | h | h
        · exact ⟨s, by simp [h]⟩
        · exact ⟨s, by simp [h]⟩
        · exact ⟨s, by simp [h]⟩

/-- What is declared once a declaration was accepted. -/
theorem declared?_declare {t t' : ScopeTree} {scope : Nat} {kind : BindingKind} {name : String}
    {node : Nat} (h : t.declare scope kind name node = .ok t') (s : Nat) (x : String) :
    t'.declared? s x = if s = scope ∧ x = name ∧ s < t.scopes.size
      then (t.declared? s x).or (some (kind, node)) else t.declared? s x := by
  unfold ScopeTree.declare at h
  unfold declared? bindingAt?
  cases hs : t.scopes[scope]? with
  | none =>
    rw [hs] at h
    obtain rfl := Except.ok.inj h
    have hsize := Array.getElem?_eq_none_iff.mp hs
    rw [if_neg]
    rintro ⟨rfl, -, hlt⟩
    omega
  | some sc =>
    rw [hs] at h
    obtain ⟨sc', hsc, h⟩ := bind_eq_ok.mp h
    obtain rfl := Except.ok.inj h
    have hlt : scope < t.scopes.size := (Array.getElem?_eq_some_iff.mp hs).1
    dsimp only
    by_cases hscope : s = scope
    · subst hscope
      rw [Array.getElem?_setIfInBounds_self_of_lt hlt, hs]
      unfold Scope.declare at hsc
      cases hheld : sc.binding? name with
      | none =>
        rw [hheld] at hsc
        obtain rfl := Except.ok.inj hsc
        have hnone : sc.bindings.lookup name = none := hheld
        by_cases hx : x = name
        · subst hx
          simp [Scope.binding?, List.lookup_append, hnone, hlt]
        · have hb : (x == name) = false := beq_eq_false_iff_ne.mpr hx
          simp [Scope.binding?, List.lookup_append, List.lookup_cons, hb, hx]
      | some held =>
        have hsame : sc' = sc := by
          rw [hheld] at hsc
          dsimp only at hsc
          split at hsc
          · exact (Except.ok.inj hsc).symm
          split at hsc
          · cases hsc
          · exact (Except.ok.inj hsc).symm
        subst hsame
        by_cases hx : x = name
        · subst hx
          simp [hheld]
        · simp [hx]
    · rw [Array.getElem?_setIfInBounds_ne (Ne.symm hscope), if_neg]
      exact fun h => hscope h.1

theorem shapes_declare {t t' : ScopeTree} {scope : Nat} {kind : BindingKind} {name : String}
    {node : Nat} (h : t.declare scope kind name node = .ok t') : t'.shapes = t.shapes := by
  unfold ScopeTree.declare at h
  cases hs : t.scopes[scope]? with
  | none =>
    rw [hs] at h
    obtain rfl := Except.ok.inj h
    rfl
  | some sc =>
    rw [hs] at h
    obtain ⟨sc', hsc, h⟩ := bind_eq_ok.mp h
    obtain rfl := Except.ok.inj h
    have hshape : (sc'.kind, sc'.node, sc'.enclosing) = (sc.kind, sc.node, sc.enclosing) := by
      unfold Scope.declare at hsc
      split at hsc
      · obtain rfl := Except.ok.inj hsc
        rfl
      split at hsc
      · obtain rfl := Except.ok.inj hsc
        rfl
      split at hsc
      · cases hsc
      · obtain rfl := Except.ok.inj hsc
        rfl
    have hlt : scope < t.scopes.size := (Array.getElem?_eq_some_iff.mp hs).1
    refine List.ext_getElem? fun s => ?_
    rw [getElem?_shapes, getElem?_shapes]
    by_cases hscope : s = scope
    · subst hscope
      rw [Array.getElem?_setIfInBounds_self_of_lt hlt, hs, Option.map_some, Option.map_some, hshape]
    · rw [Array.getElem?_setIfInBounds_ne (Ne.symm hscope)]

theorem Unused.congr {t t' : ScopeTree} (h : t.Unused)
    (hb : ∀ s x b, t'.bindingAt? s x = some b →
      t.bindingAt? s x = some b ∨ b.references = [] ∧ b.mutations = [])
    (hg : t'.globals = t.globals) : t'.Unused := by
  refine ⟨fun {s x b} hbound => ?_, hg.trans h.globals⟩
  rcases hb s x b hbound with hold | hnew
  · exact h.bindings hold
  · exact hnew

theorem Unused.declare {t t' : ScopeTree} (h : t.Unused) {scope : Nat} {kind : BindingKind}
    {name : String} {node : Nat} (hd : t.declare scope kind name node = .ok t') : t'.Unused := by
  unfold ScopeTree.declare at hd
  cases hs : t.scopes[scope]? with
  | none =>
    rw [hs] at hd
    obtain rfl := Except.ok.inj hd
    exact h
  | some sc =>
    rw [hs] at hd
    obtain ⟨sc', hsc, hd⟩ := bind_eq_ok.mp hd
    obtain rfl := Except.ok.inj hd
    refine h.congr (fun s x b hb => ?_) rfl
    unfold bindingAt? at hb ⊢
    by_cases hscope : s = scope
    · subst hscope
      have hlt : s < t.scopes.size := (Array.getElem?_eq_some_iff.mp hs).1
      rw [Array.getElem?_setIfInBounds_self_of_lt hlt, Option.bind_some] at hb
      rw [hs, Option.bind_some]
      unfold Scope.declare at hsc
      cases hheld : sc.binding? name with
      | none =>
        rw [hheld] at hsc
        obtain rfl := Except.ok.inj hsc
        unfold Scope.binding? at hb ⊢
        rw [List.lookup_append, Option.or_eq_some_iff] at hb
        rcases hb with hb | ⟨-, hb⟩
        · exact .inl hb
        · rw [List.lookup_cons] at hb
          split at hb
          · obtain rfl := Option.some.inj hb
            exact .inr ⟨rfl, rfl⟩
          · cases hb
      | some held =>
        rw [hheld] at hsc
        dsimp only at hsc
        split at hsc
        · obtain rfl := Except.ok.inj hsc
          exact .inl hb
        split at hsc
        · cases hsc
        · obtain rfl := Except.ok.inj hsc
          exact .inl hb
    · rw [Array.getElem?_setIfInBounds_ne (Ne.symm hscope)] at hb
      exact .inl hb

end ScopeTree

theorem Step.bindingAt?_opened (e : Step) (t : ScopeTree) (s : Nat) (x : String) :
    (e.opened t).bindingAt? s x = t.bindingAt? s x := by
  unfold Step.opened
  split
  · exact ScopeTree.bindingAt?_openScope ..
  · rfl

theorem Step.bindingAt?_labelled (e : Step) (t : ScopeTree) (s : Nat) (x : String) :
    (e.labelled t).bindingAt? s x = t.bindingAt? s x := by
  unfold Step.labelled
  split
  · exact ScopeTree.bindingAt?_label ..
  · rfl

/-- What opening scopes, labels and declarations keep is kept by all steps. -/
theorem foldlM_run_keeps {P : ScopeTree → Prop}
    (hopen : ∀ t node kind outer, P t → P (t.openScope node kind outer))
    (hlabel : ∀ t scope name node, P t → P (t.label scope name node))
    (hdeclare : ∀ t t' scope kind name node, P t → t.declare scope kind name node = .ok t' → P t')
    {es : List Step} {found found' : Findings} (h : P found.tree)
    (hrun : es.foldlM Step.run found = .ok found') : P found'.tree := by
  have hdeclares : ∀ (e : Step) (ds : List Declaration) (t t' : ScopeTree), P t →
      ds.foldlM e.declare t = .ok t' → P t' := by
    intro e ds
    induction ds with
    | nil =>
      intro t t' ht hd
      obtain rfl := Except.ok.inj hd
      exact ht
    | cons d ds ih =>
      intro t t' ht hd
      rw [List.foldlM_cons] at hd
      obtain ⟨t1, h1, hd⟩ := bind_eq_ok.mp hd
      exact ih t1 t' (hdeclare _ _ _ _ _ _ ht h1) hd
  have hstart : ∀ (e : Step) (t : ScopeTree), P t → P (e.labelled (e.opened t)) := by
    intro e t ht
    have hopened : P (e.opened t) := by
      unfold Step.opened
      split
      · exact hopen _ _ _ _ ht
      · exact ht
    unfold Step.labelled
    split
    · exact hlabel _ _ _ _ hopened
    · exact hopened
  induction es generalizing found with
  | nil =>
    obtain rfl := Except.ok.inj hrun
    exact h
  | cons e es ih =>
    rw [List.foldlM_cons] at hrun
    obtain ⟨found1, he, hrun⟩ := bind_eq_ok.mp hrun
    obtain ⟨t, ht, he⟩ := bind_eq_ok.mp he
    obtain rfl := Except.ok.inj he
    exact ih (hdeclares _ _ _ _ (hstart _ _ h) ht) hrun

theorem unused_foldlM_run {es : List Step} {found found' : Findings} (h : found.tree.Unused)
    (hrun : es.foldlM Step.run found = .ok found') : found'.tree.Unused := by
  refine foldlM_run_keeps (fun t node kind outer ht => ?_) (fun t scope name node ht => ?_)
    (fun t t' scope kind name node ht hd => ht.declare hd) h hrun
  · exact ht.congr (fun s x b hb => .inl (by rwa [t.bindingAt?_openScope] at hb)) rfl
  · exact ht.congr (fun s x b hb => .inl (by rwa [t.bindingAt?_label] at hb)) rfl

theorem unused_ofRoot (node : Nat) : (ScopeTree.ofRoot node).Unused := by
  refine ⟨fun {s x b} hb => ?_, rfl⟩
  unfold ScopeTree.bindingAt? ScopeTree.ofRoot at hb
  match s, hb with
  | 0, hb => cases hb
  | s + 1, hb => cases hb

/-! ## No name twice -/

theorem lookup_of_mem {κ β : Type} [BEq κ] [LawfulBEq κ] {l : List (κ × β)}
    (h : (l.map (·.1)).Nodup) {x : κ} {b : β} (hm : (x, b) ∈ l) : l.lookup x = some b := by
  induction l with
  | nil => cases hm
  | cons p l ih =>
    obtain ⟨k, b'⟩ := p
    rw [List.map_cons, List.nodup_cons] at h
    rcases List.mem_cons.mp hm with heq | hrest
    · obtain ⟨rfl, rfl⟩ := Prod.mk.inj heq
      exact List.lookup_cons_self
    · have hne : x ≠ k := by
        rintro rfl
        exact h.1 (List.mem_map.mpr ⟨_, hrest, rfl⟩)
      rw [List.lookup_cons, beq_eq_false_iff_ne.mpr hne]
      exact ih h.2 hrest

theorem mem_of_lookup {κ β : Type} [BEq κ] [LawfulBEq κ] {l : List (κ × β)} {x : κ} {b : β}
    (h : l.lookup x = some b) : (x, b) ∈ l := by
  obtain ⟨l1, l2, rfl, -⟩ := List.lookup_eq_some_iff.mp h
  simp

/-- Whether no scope lists a name twice. -/
def ScopeTree.Keyed (t : ScopeTree) : Prop :=
  ∀ (s : Nat) (sc : EsModule.Scope), t.scopes[s]? = some sc → (sc.bindings.map (·.1)).Nodup

theorem ScopeTree.Keyed.modify {t : ScopeTree} (h : t.Keyed) {scope : Nat}
    {f : EsModule.Scope → EsModule.Scope}
    (hf : ∀ sc, (f sc).bindings.map (·.1) = sc.bindings.map (·.1)) :
    ScopeTree.Keyed { t with scopes := t.scopes.modify scope f } := by
  intro s sc hs
  dsimp only at hs
  rw [Array.getElem?_modify] at hs
  split at hs
  · obtain ⟨sc', hs', rfl⟩ := Option.map_eq_some_iff.mp hs
    rw [hf]
    exact h _ _ hs'
  · exact h _ _ hs

theorem ScopeTree.Keyed.declare {t t' : ScopeTree} (h : t.Keyed) {scope : Nat}
    {kind : BindingKind} {name : String} {node : Nat}
    (hd : t.declare scope kind name node = .ok t') : t'.Keyed := by
  unfold ScopeTree.declare at hd
  cases hs : t.scopes[scope]? with
  | none =>
    rw [hs] at hd
    obtain rfl := Except.ok.inj hd
    exact h
  | some sc =>
    rw [hs] at hd
    obtain ⟨sc', hsc, hd⟩ := bind_eq_ok.mp hd
    obtain rfl := Except.ok.inj hd
    have hlt : scope < t.scopes.size := (Array.getElem?_eq_some_iff.mp hs).1
    have hkeys := h _ _ hs
    have hnew : (sc'.bindings.map (·.1)).Nodup := by
      unfold Scope.declare at hsc
      split at hsc
      · rename_i hnone
        obtain rfl := Except.ok.inj hsc
        rw [List.map_append, List.nodup_append]
        refine ⟨hkeys, by simp, ?_⟩
        rintro x hx _ hy rfl
        obtain rfl := List.mem_singleton.mp hy
        obtain ⟨⟨x, b⟩, hb, rfl⟩ := List.mem_map.mp hx
        rw [Scope.binding?, lookup_of_mem hkeys hb] at hnone
        cases hnone
      split at hsc
      · obtain rfl := Except.ok.inj hsc
        exact hkeys
      split at hsc
      · cases hsc
      · obtain rfl := Except.ok.inj hsc
        exact hkeys
    intro s sc1 hs1
    by_cases hscope : s = scope
    · subst hscope
      rw [Array.getElem?_setIfInBounds_self_of_lt hlt] at hs1
      obtain rfl := Option.some.inj hs1
      exact hnew
    · rw [Array.getElem?_setIfInBounds_ne (Ne.symm hscope)] at hs1
      exact h _ _ hs1

theorem map_modifyKey {β : Type} (f : β → β) (key : String) (l : List (String × β)) :
    (modifyKey f key l).map (·.1) = l.map (·.1) := by
  induction l with
  | nil => rfl
  | cons p l ih =>
    unfold modifyKey
    split
    · rfl
    · rw [List.map_cons, ih, List.map_cons]

theorem ScopeTree.Keyed.recordUse {t : ScopeTree} (h : t.Keyed) (u : Use) :
    (t.recordUse u).Keyed := by
  unfold ScopeTree.recordUse
  split
  · exact h.modify fun sc => map_modifyKey ..
  · exact h.modify fun sc => map_modifyKey ..
  · exact h

theorem keyed_ofRoot (node : Nat) : (ScopeTree.ofRoot node).Keyed := by
  intro s sc hs
  unfold ScopeTree.ofRoot at hs
  match s, hs with
  | 0, hs =>
    obtain rfl := Option.some.inj hs
    exact List.nodup_nil

theorem keyed_foldlM_run {es : List Step} {found found' : Findings} (h : found.tree.Keyed)
    (hrun : es.foldlM Step.run found = .ok found') : found'.tree.Keyed := by
  refine foldlM_run_keeps (fun t node kind outer ht => ?_) (fun t scope name node ht => ?_)
    (fun t t' scope kind name node ht hd => ht.declare hd) h hrun
  · intro s sc hs
    unfold ScopeTree.openScope at hs
    rw [Array.getElem?_push] at hs
    split at hs
    · obtain rfl := Option.some.inj hs
      exact List.nodup_nil
    · exact ht _ _ hs
  · exact ht.modify fun sc => rfl

/-- The steps of the walk over a whole tree. -/
def moduleSteps (root : Node) : List Step := root.steps ⟨none, none, [0], []⟩ 1

/-- What the walk over a whole tree starts from. -/
def startFindings (root : Node) : Findings := ⟨.ofRoot root.id, #[]⟩

end EsModule.Scope
