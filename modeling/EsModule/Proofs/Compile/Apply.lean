import EsModule.Proofs.Compile.Forms

/-!
# The patches of all stages

A patch changes the entries of a few numbers and leaves all others as they are. The patches of an
item stay within the numbers of the item and the ones that are given out for it, so the items do not
disturb each other, in whatever order the stages take them (`agree_laterPatches`), and what the
patches make of one item is the settled item (`Fits.holds_settle`).
-/

namespace EsModule.Compile

open EsModule.Syntax

/-! ## What a patch leaves as it is -/

/-- Whether two tables have the same entries for some numbers. -/
def Agree (region : Nat → Prop) (t t' : NodeTable) : Prop :=
  ∀ i, region i → t.entries[i]? = t'.entries[i]?

namespace Agree

variable {region : Nat → Prop} {t t' t'' : NodeTable}

theorem refl (t : NodeTable) : Agree region t t := fun _ _ => rfl

theorem trans (h : Agree region t t') (h' : Agree region t' t'') : Agree region t t'' :=
  fun i hi => (h i hi).trans (h' i hi)

theorem kind (h : Agree region t t') {i : Nat} (hi : region i) : t.kind i = t'.kind i := by
  unfold NodeTable.kind
  rw [h i hi]

theorem setKind (h : Agree region t t') (id : Nat) {kind kind' : Kind Nat}
    (hkind : region id → kind = kind') : Agree region (t.setKind id kind) (t'.setKind id kind') := by
  intro i hi
  rw [NodeTable.getElem?_setKind, NodeTable.getElem?_setKind, h i hi]
  split
  · rename_i hid
    rw [hkind (hid ▸ hi)]
  · rfl

theorem addAll (h : Agree region t t') (trees : List Node) :
    Agree region (trees.foldl NodeTable.add t) (trees.foldl NodeTable.add t') := by
  intro i hi
  rw [NodeTable.getElem?_addAll, NodeTable.getElem?_addAll, h i hi]

end Agree

/-- The numbers of the nodes that a patch changes or adds. -/
def Patch.ids : Patch → List Nat
  | .replace target kind => target :: idsOf kind.children
  | .unwrap target inner => [target, inner]
  | .intoExpression target | .remove target => [target]

section

variable {region : Nat → Prop} {t t' : NodeTable}

theorem Patch.agree_apply {p : Patch} (hp : ∀ i ∈ p.ids, region i) (h : Agree region t t') :
    Agree region (p.apply t) (p.apply t') := by
  cases p with
  | replace target kind => exact (h.addAll _).setKind _ fun _ => rfl
  | unwrap target inner =>
    have hinner : region inner := hp inner (by simp [ids])
    exact (h.setKind target fun _ => h.kind hinner).setKind inner fun _ => rfl
  | intoExpression target => exact h.setKind target fun hi => by rw [h.kind hi]
  | remove target => exact h.setKind target fun _ => rfl

theorem agree_setKind {id : Nat} (h : ¬ region id) (kind : Kind Nat) :
    Agree region (t.setKind id kind) t := by
  intro i hi
  rw [NodeTable.getElem?_setKind, if_neg]
  rintro rfl
  exact h hi

theorem agree_addAll {trees : List Node} (h : ∀ i ∈ idsOf trees, ¬ region i) :
    Agree region (trees.foldl NodeTable.add t) t := by
  intro i hi
  rw [NodeTable.getElem?_addAll]
  have hnone : (trees.flatMap Node.nodes).find? (·.id = i) = none := by
    rw [List.find?_eq_none]
    intro n hn
    rw [decide_eq_true_eq]
    rintro rfl
    exact h n.id (List.mem_map_of_mem hn) hi
  rw [hnone, Option.map_none, Option.or_none]

/-- A patch of nodes outside a region leaves the region as it is. -/
theorem Patch.agree_of_outside {p : Patch} (hp : ∀ i ∈ p.ids, ¬ region i) :
    Agree region (p.apply t) t := by
  cases p with
  | replace target kind =>
    simp only [ids, List.mem_cons, forall_eq_or_imp] at hp
    exact (agree_setKind hp.1 _).trans (agree_addAll hp.2)
  | unwrap target inner =>
    simp only [ids, List.mem_cons, List.not_mem_nil, or_false, forall_eq_or_imp, forall_eq] at hp
    exact (agree_setKind hp.2 _).trans (agree_setKind hp.1 _)
  | intoExpression target => exact agree_setKind (hp target List.mem_cons_self) _
  | remove target => exact agree_setKind (hp target List.mem_cons_self) _

theorem agree_foldl_apply {ps : List Patch} (hp : ∀ p ∈ ps, ∀ i ∈ p.ids, region i)
    (h : Agree region t t') : Agree region (ps.foldl Patch.apply t) (ps.foldl Patch.apply t') := by
  induction ps generalizing t t' with
  | nil => exact h
  | cons p ps ih =>
    exact ih (fun q hq => hp q (List.mem_cons_of_mem _ hq))
      (Patch.agree_apply (hp p List.mem_cons_self) h)

theorem agree_foldl_of_outside {ps : List Patch} (hp : ∀ p ∈ ps, ∀ i ∈ p.ids, ¬ region i) :
    Agree region (ps.foldl Patch.apply t) t := by
  induction ps generalizing t with
  | nil => exact .refl t
  | cons p ps ih =>
    exact (ih fun q hq => hp q (List.mem_cons_of_mem _ hq)).trans
      (Patch.agree_of_outside (hp p List.mem_cons_self))

/-- Among patches of two stages, only those of one item count for its region. -/
theorem agree_staged {a b c d own own' : List Patch}
    (hout : ∀ p ∈ a ++ b ++ c ++ d, ∀ i ∈ p.ids, ¬ region i)
    (hown : ∀ p ∈ own ++ own', ∀ i ∈ p.ids, region i) :
    Agree region ((a ++ own ++ b ++ (c ++ own' ++ d)).foldl Patch.apply t)
      ((own ++ own').foldl Patch.apply t) := by
  simp only [List.forall_mem_append] at hout hown
  simp only [List.foldl_append]
  refine (agree_foldl_of_outside hout.2).trans (agree_foldl_apply hown.2 ?_)
  refine (agree_foldl_of_outside hout.1.2).trans ?_
  refine (agree_foldl_of_outside hout.1.1.2).trans (agree_foldl_apply hown.1 ?_)
  exact agree_foldl_of_outside hout.1.1.1

end

/-! ## The region of an item -/

/-- The numbers of an item and the ones that are given out for it. -/
def Region (item : Node) (s i : Nat) : Prop := i ∈ idsOf [item] ∨ s ≤ i ∧ i < s + spent item

theorem mem_idsOf_child {n c : Node} {i : Nat} (hc : c ∈ n.kind.children) (hi : i ∈ idsOf [c]) :
    i ∈ idsOf [n] := by
  rw [idsOf_singleton]
  refine List.mem_cons_of_mem _ ?_
  exact (idsOf_sublist (List.singleton_sublist.mpr hc)).subset hi

theorem id_mem_idsOf (n : Node) : n.id ∈ idsOf [n] := by
  rw [idsOf_singleton]
  exact List.mem_cons_self

/-- The declaration that takes the place of an item is a child of the item. -/
theorem unwrapped_mem_children {item declaration : Node}
    (h : treatment item = .unwrapped declaration) : declaration ∈ item.kind.children := by
  unfold treatment at h
  split at h
  case h_5 hk =>
    split at h
    · cases h
      rw [hk]
      exact List.mem_singleton_self _
    · cases h
  all_goals simp_all [Kind.children]

/-- So is the value that a constant holds. -/
theorem held_mem_children {item value : Node} (h : treatment item = .held value) :
    value ∈ item.kind.children := by
  unfold treatment at h
  split at h
  case h_5 hk =>
    split at h
    · cases h
    · cases h
      rw [hk]
      exact List.mem_singleton_self _
  all_goals simp_all

theorem nodes_holderNode (s : Nat) (value : Node) : (holderNode s value).nodes =
    holderNode s value :: nameNode s defaultHolder :: value.nodes := by
  rw [Node.nodes_eq]
  change holderNode s value :: [nameNode s defaultHolder, value].flatMap Node.nodes = _
  rw [List.flatMap_cons, List.flatMap_singleton, Node.nodes_eq (nameNode s defaultHolder)]
  rfl

theorem idsOf_holderKind (s : Nat) (value : Node) :
    idsOf (holderKind s value).children = (s + 1) :: s :: idsOf [value] := by
  change idsOf [holderNode s value] = _
  rw [idsOf, List.flatMap_singleton, nodes_holderNode, idsOf_eq]
  rfl

/-- The patches for an item stay in its region. -/
theorem region_of_patchesOf {item : Node} {s i : Nat} {p : Stage × Patch}
    (hp : p ∈ patchesOf item s) (hi : i ∈ p.2.ids) : Region item s i := by
  unfold patchesOf at hp
  cases ht : treatment item with
  | kept =>
    rw [ht] at hp
    cases hp
  | removed =>
    rw [ht, List.mem_singleton] at hp
    subst hp
    rw [Patch.ids, List.mem_singleton] at hi
    exact .inl (hi ▸ id_mem_idsOf item)
  | unwrapped declaration =>
    rw [ht, List.mem_singleton] at hp
    subst hp
    simp only [Patch.ids, List.mem_cons, List.not_mem_nil, or_false] at hi
    rcases hi with rfl | rfl
    · exact .inl (id_mem_idsOf item)
    · exact .inl (mem_idsOf_child (unwrapped_mem_children ht) (id_mem_idsOf _))
  | held value =>
    have hvalue := held_mem_children ht
    rw [ht, List.mem_append, List.mem_singleton] at hp
    rcases hp with hp | rfl
    · split at hp
      · rw [List.mem_singleton] at hp
        subst hp
        rw [Patch.ids, List.mem_singleton] at hi
        exact .inl (hi ▸ mem_idsOf_child hvalue (id_mem_idsOf value))
      · cases hp
    · rw [Patch.ids, List.mem_cons, idsOf_holderKind, List.mem_cons, List.mem_cons] at hi
      rcases hi with rfl | rfl | rfl | hi
      · exact .inl (id_mem_idsOf item)
      · exact .inr (by simp [spent, ht])
      · exact .inr (by simp [spent, ht])
      · exact .inl (mem_idsOf_child hvalue hi)

theorem of_mem_patchesOfAll {items : List Node} {s i : Nat} {p : Stage × Patch}
    (hp : p ∈ patchesOfAll items s) (hi : i ∈ p.2.ids) :
    i ∈ idsOf items ∨ s ≤ i ∧ i < s + spentAll items := by
  induction items generalizing s with
  | nil => cases hp
  | cons item items ih =>
    have hsum : spentAll (item :: items) = spent item + spentAll items := rfl
    rw [idsOf_cons, List.mem_append, hsum]
    rcases List.mem_append.mp hp with hp | hp
    · rcases region_of_patchesOf hp hi with hi | hi
      · exact .inl (.inl hi)
      · exact .inr (by omega)
    · rcases ih hp with hi | hi
      · exact .inl (.inr hi)
      · exact .inr (by omega)

/-- The patches of the last two stages, in the order in which they are applied. -/
def laterPatches (items : List Node) (s : Nat) : List Patch :=
  ofStage .declaration (patchesOfAll items s) ++ ofStage .removal (patchesOfAll items s)

theorem of_mem_ofStage {stage : Stage} {staged : List (Stage × Patch)} {p : Patch}
    (h : p ∈ ofStage stage staged) : (stage, p) ∈ staged := by
  obtain ⟨⟨stage', p'⟩, hp, heq⟩ := List.mem_filterMap.mp h
  split at heq
  · rename_i hstage
    obtain rfl := Option.some.inj heq
    exact hstage ▸ hp
  · cases heq

/-- All patches for an item are of one stage. -/
theorem ofStage_patchesOf (item : Node) (s : Nat) :
    ofStage .declaration (patchesOf item s) ++ ofStage .removal (patchesOf item s) =
      (patchesOf item s).map (·.2) := by
  unfold patchesOf ofStage
  cases treatment item with
  | held value => by_cases h : isFunctionOrClass value = true <;> simp [h]
  | _ => rfl

/-- Nothing but the patches for an item matters in its region. -/
theorem agree_laterPatches {as bs : List Node} {item : Node} {s : Nat} {t : NodeTable}
    (hnodup : (idsOf (as ++ item :: bs)).Nodup) (hlt : ∀ i ∈ idsOf (as ++ item :: bs), i < s) :
    Agree (Region item (s + spentAll as)) ((laterPatches (as ++ item :: bs) s).foldl Patch.apply t)
      (((patchesOf item (s + spentAll as)).map (·.2)).foldl Patch.apply t) := by
  rw [idsOf_append, idsOf_cons, List.nodup_append, List.nodup_append] at hnodup
  obtain ⟨-, ⟨-, -, hbs⟩, has⟩ := hnodup
  simp only [idsOf_append, idsOf_cons item bs, List.mem_append] at hlt
  have hout : ∀ stage, (∀ p ∈ ofStage stage (patchesOfAll as s), ∀ i ∈ p.ids,
        ¬ Region item (s + spentAll as) i) ∧
      ∀ p ∈ ofStage stage (patchesOfAll bs (s + spentAll as + spent item)), ∀ i ∈ p.ids,
        ¬ Region item (s + spentAll as) i := by
    refine fun stage => ⟨fun p hp i hi hregion => ?_, fun p hp i hi hregion => ?_⟩
    · rcases of_mem_patchesOfAll (of_mem_ofStage hp) hi with hi | hi <;>
        rcases hregion with hr | hr
      · exact has i hi i (List.mem_append_left _ hr) rfl
      · have := hlt i (.inl hi)
        omega
      · have := hlt i (.inr (.inl hr))
        omega
      · omega
    · rcases of_mem_patchesOfAll (of_mem_ofStage hp) hi with hi | hi <;>
        rcases hregion with hr | hr
      · exact hbs i hr i hi rfl
      · have := hlt i (.inr (.inr hi))
        omega
      · have := hlt i (.inr (.inl hr))
        omega
      · omega
  have hown : ∀ p ∈ ofStage .declaration (patchesOf item (s + spentAll as)) ++
      ofStage .removal (patchesOf item (s + spentAll as)), ∀ i ∈ p.ids,
      Region item (s + spentAll as) i := by
    intro p hp i hi
    rcases List.mem_append.mp hp with hp | hp
    · exact region_of_patchesOf (of_mem_ofStage hp) hi
    · exact region_of_patchesOf (of_mem_ofStage hp) hi
  rw [← ofStage_patchesOf, laterPatches, patchesOfAll_append, patchesOfAll]
  simp only [ofStage_append, ← List.append_assoc]
  simp only [List.append_assoc]
  have hstaged := agree_staged (t := t)
    (a := ofStage .declaration (patchesOfAll as s))
    (b := ofStage .declaration (patchesOfAll bs (s + spentAll as + spent item)))
    (c := ofStage .removal (patchesOfAll as s))
    (d := ofStage .removal (patchesOfAll bs (s + spentAll as + spent item))) (by
      simp only [List.forall_mem_append]
      exact ⟨⟨⟨(hout _).1, (hout _).2⟩, (hout _).1⟩, (hout _).2⟩) hown
  simpa only [List.append_assoc] using hstaged

/-- What belongs to no item stays as it is. -/
theorem agree_outside {items : List Node} {s : Nat} {t : NodeTable} :
    Agree (fun i => i ∉ idsOf items ∧ i < s) ((laterPatches items s).foldl Patch.apply t) t := by
  refine agree_foldl_of_outside fun p hp i hi hregion => ?_
  have hmem : ∃ stage, (stage, p) ∈ patchesOfAll items s := by
    rcases List.mem_append.mp hp with hp | hp
    · exact ⟨_, of_mem_ofStage hp⟩
    · exact ⟨_, of_mem_ofStage hp⟩
  obtain ⟨stage, hmem⟩ := hmem
  rcases of_mem_patchesOfAll hmem hi with hi | hi
  · exact hregion.1 hi
  · omega

/-! ## One item -/

theorem holds_setKind {t : NodeTable} {m : Node} (h : t.Holds m) {id : Nat} (hne : m.id ≠ id)
    (kind : Kind Nat) : (t.setKind id kind).Holds m := by
  unfold NodeTable.Holds
  rw [NodeTable.getElem?_setKind, if_neg hne]
  exact h

theorem holds_setKind_self {t : NodeTable} {m : Node} (h : t.Holds m) (kind : Kind Node) :
    (t.setKind m.id (kind.map Node.id)).Holds (m.withKind kind) := by
  unfold NodeTable.Holds
  have hid : (m.withKind kind).id = m.id := rfl
  rw [hid, NodeTable.getElem?_setKind, if_pos rfl, h]
  rfl

theorem holds_addAll {t : NodeTable} {m : Node} (h : t.Holds m) (trees : List Node) :
    (trees.foldl NodeTable.add t).Holds m := by
  unfold NodeTable.Holds
  rw [NodeTable.getElem?_addAll, h, Option.some_or]

theorem kind_of_holds {t : NodeTable} {m : Node} (h : t.Holds m) :
    t.kind m.id = m.kind.map Node.id := by
  unfold NodeTable.kind
  rw [h]
  rfl

theorem map_asExpression {α β : Type} (f : α → β) (kind : Kind α) :
    (asExpression kind).map f = asExpression (kind.map f) := by
  cases kind <;> rfl

theorem children_asExpression {α : Type} (kind : Kind α) :
    (asExpression kind).children = kind.children := by
  cases kind <;> rfl

@[simp] theorem id_settledValue (forms : List Form) (value : Node) :
    (settledValue forms value).id = value.id := by
  unfold settledValue
  split
  · exact id_rewrite value
  · exact id_rewrite value

theorem children_settledValue (forms : List Form) (value : Node) :
    (settledValue forms value).kind.children = (rewrite forms value).kind.children := by
  unfold settledValue
  split
  · exact children_asExpression _
  · rfl

/-- Whether a table holds an item whose nodes have taken their forms, and nothing under the numbers
that are given out for the item. -/
structure Ready (forms : List Form) (item : Node) (s : Nat) (t : NodeTable) : Prop where
  /-- The nodes of the item. -/
  old : ∀ n ∈ item.nodes, t.Holds (rewrite forms n)
  /-- All new nodes of the forms. -/
  news : ∀ f ∈ forms, ∀ c ∈ f.news, ∀ m ∈ c.nodes, t.Holds m
  /-- The numbers given out for the item. -/
  none : ∀ i, s ≤ i → i < s + spent item → t.entries[i]? = none

section

variable {forms : List Form} {root : Node} {low high : Nat}

namespace Fits

theorem id_of_mem_rewrite (h : Fits forms root low high) (hd : root.Distinct) {n m : Node}
    (hn : n ∈ root.nodes) (hm : m ∈ (rewrite forms n).nodes) :
    m.id ∈ idsOf [n] ∨ low ≤ m.id ∧ m.id < high := by
  induction n using Node.induct with
  | h n ih =>
    rw [Node.nodes_eq, h.children_rewrite hd hn, List.mem_cons, List.mem_flatMap] at hm
    rcases hm with rfl | ⟨c, hc, hm⟩
    · rw [id_rewrite]
      exact .inl (id_mem_idsOf n)
    rcases List.mem_append.mp hc with hc | hc
    · exact .inr (h.newsAt_bounds (mem_idsOf.mpr ⟨c, hc, m, hm, rfl⟩))
    · obtain ⟨d, hdn, rfl⟩ := List.mem_map.mp hc
      exact (ih d hdn (Node.mem_nodes_below hn hdn) hm).imp_left (mem_idsOf_child hdn)

/-- What stands below a node that has taken its form has a number of a node below it, or a new
one. -/
theorem id_below (h : Fits forms root low high) (hd : root.Distinct) {n c m : Node}
    (hn : n ∈ root.nodes) (hc : c ∈ (rewrite forms n).kind.children) (hm : m ∈ c.nodes) :
    m.id ∈ idsOf n.kind.children ∨ low ≤ m.id ∧ m.id < high := by
  rw [h.children_rewrite hd hn] at hc
  rcases List.mem_append.mp hc with hc | hc
  · exact .inr (h.newsAt_bounds (mem_idsOf.mpr ⟨c, hc, m, hm, rfl⟩))
  · obtain ⟨d, hdn, rfl⟩ := List.mem_map.mp hc
    refine (h.id_of_mem_rewrite hd (Node.mem_nodes_below hn hdn) hm).imp_left fun hi => ?_
    exact (idsOf_sublist (List.singleton_sublist.mpr hdn)).subset hi

theorem lt_of_mem_idsOf (h : Fits forms root low high) {n : Node} (hn : n ∈ root.nodes) {i : Nat}
    (hi : i ∈ idsOf [n]) : i < low := by
  obtain ⟨_, hn', m, hm, rfl⟩ := mem_idsOf.mp hi
  obtain rfl := List.mem_singleton.mp hn'
  exact h.old m (Node.mem_nodes_trans hm hn)

theorem ne_below (h : Fits forms root low high) (hd : root.Distinct) {n c m k : Node}
    (hn : n ∈ root.nodes) (hk : n ∈ k.nodes) (hkn : k ∈ root.nodes)
    (hc : c ∈ (rewrite forms n).kind.children) (hm : m ∈ c.nodes) : m.id ≠ k.id := by
  intro he
  rcases h.id_below hd hn hc hm with hi | hi
  · obtain ⟨a, ha, b, hb, hid⟩ := mem_idsOf.mp hi
    have han := Node.mem_nodes_below hn ha
    obtain rfl := hd.eq_of_id (Node.mem_nodes_trans hb han) hkn (hid.trans he)
    have hle := Node.length_nodes_le hb
    have hlt := Node.length_nodes_lt ha
    have hle' := Node.length_nodes_le hk
    omega
  · have := h.old k hkn
    omega

/-- What stands below a node of an item is held before any patch for the item. -/
theorem holds_below (h : Fits forms root low high) (hd : root.Distinct) {item : Node} {s : Nat}
    {t : NodeTable} (hi : item ∈ root.nodes) (hr : Ready forms item s t) {n c m : Node}
    (hn : n ∈ item.nodes) (hc : c ∈ (rewrite forms n).kind.children) (hm : m ∈ c.nodes) :
    t.Holds m :=
  h.holds hd hr.news (Node.mem_nodes_trans hn hi)
    (fun k hk => hr.old k (Node.mem_nodes_trans hk hn)) m (Node.mem_nodes_of_child hc hm)

theorem holds_item {item : Node} {t : NodeTable} (h : t.Holds (rewrite forms item))
    (kind : Kind Node) :
    (t.setKind item.id (kind.map Node.id)).Holds (.mk item.id item.span kind) := by
  have hset := holds_setKind_self h kind
  rwa [Node.withKind, id_rewrite, span_rewrite] at hset

theorem holds_unwrapped (h : Fits forms root low high) (hd : root.Distinct) {item d : Node}
    {s : Nat} {t : NodeTable} (hi : item ∈ root.nodes) (hr : Ready forms item s t)
    (hdi : d ∈ item.kind.children) :
    ∀ m ∈ (Node.mk item.id item.span (rewrite forms d).kind).nodes,
      ((Patch.unwrap item.id d.id).apply t).Holds m := by
  have hdn : d ∈ item.nodes := Node.mem_nodes_of_child hdi d.mem_nodes_self
  have hne : item.id ≠ d.id := by
    intro he
    obtain rfl := hd.eq_of_id hi (Node.mem_nodes_below hi hdi) he
    exact absurd hdi (Node.root_not_child item.mem_nodes_self)
  have hkind : t.kind d.id = (rewrite forms d).kind.map Node.id := by
    have hk := kind_of_holds (hr.old d hdn)
    rwa [id_rewrite] at hk
  intro m hm
  rw [Node.nodes_eq, List.mem_cons, List.mem_flatMap] at hm
  unfold Patch.apply
  dsimp only
  rw [hkind]
  rcases hm with rfl | ⟨c, hc, hm⟩
  · refine holds_setKind (m := .mk item.id item.span _) ?_ hne _
    exact holds_item (hr.old item item.mem_nodes_self) _
  · have hbelow := h.holds_below hd hi hr hdn hc hm
    have hd' := Node.mem_nodes_below hi hdi
    refine holds_setKind (holds_setKind hbelow ?_ _) ?_ _
    · exact h.ne_below hd hd' hdn hi hc hm
    · exact h.ne_below hd hd' d.mem_nodes_self hd' hc hm

/-- The table in which a default value has become an expression. -/
def withExpression (t : NodeTable) (value : Node) : NodeTable :=
  if isFunctionOrClass value then (Patch.intoExpression value.id).apply t else t

theorem holds_settledValue {value : Node} {t : NodeTable} (h : t.Holds (rewrite forms value)) :
    (withExpression t value).Holds (settledValue forms value) := by
  unfold withExpression settledValue
  split
  · have hset := holds_setKind_self h (asExpression (rewrite forms value).kind)
    rw [map_asExpression, ← kind_of_holds h, id_rewrite] at hset
    exact hset
  · exact h

theorem holds_withExpression {value m : Node} {t : NodeTable} (h : t.Holds m)
    (hne : m.id ≠ value.id) : (withExpression t value).Holds m := by
  unfold withExpression
  split
  · exact holds_setKind h hne _
  · exact h

theorem getElem?_withExpression {value : Node} {t : NodeTable} {i : Nat}
    (h : t.entries[i]? = none) : (withExpression t value).entries[i]? = none := by
  unfold withExpression
  split
  · refine (NodeTable.getElem?_setKind ..).trans ?_
    rw [h]
    split <;> rfl
  · exact h

/-- The nodes of the constant that holds a default value come into a table that has nothing under
their numbers. -/
theorem holds_holder {value value' : Node} {s : Nat} {t : NodeTable} (hid : value'.id = value.id)
    (h0 : t.entries[s]? = none) (h1 : t.entries[s + 1]? = none) :
    ((holderKind s value).children.foldl NodeTable.add t).Holds (holderNode s value') ∧
      ((holderKind s value).children.foldl NodeTable.add t).Holds (nameNode s defaultHolder) := by
  have hnodes : (holderKind s value).children.flatMap Node.nodes = (holderNode s value).nodes :=
    List.flatMap_singleton ..
  have hentry : (holderNode s value).entry = (holderNode s value').entry := by
    unfold Node.entry holderNode
    simp only [Node.kind, Node.span, Kind.map, Option.map_some, hid]
  have h0' : t.entries[(nameNode s defaultHolder).id]? = none := h0
  have h1' : t.entries[(holderNode s value').id]? = none := h1
  have hne : (holderNode s value).id ≠ (nameNode s defaultHolder).id := Nat.succ_ne_self s
  unfold NodeTable.Holds
  rw [NodeTable.getElem?_addAll, NodeTable.getElem?_addAll, hnodes, nodes_holderNode, h0', h1',
    Option.none_or, Option.none_or]
  constructor
  · have hid' : (holderNode s value).id = (holderNode s value').id := rfl
    rw [List.find?_cons_of_pos (by simp [hid']), Option.map_some, hentry]
  · rw [List.find?_cons_of_neg (by simpa using hne), List.find?_cons_of_pos (by simp),
      Option.map_some]

theorem holds_held (h : Fits forms root low high) (hd : root.Distinct) {item value : Node} {s : Nat}
    {t : NodeTable} (hi : item ∈ root.nodes) (hlow : low ≤ s)
    (hr : Ready forms item s t) (ht : treatment item = .held value) :
    ∀ m ∈ (Node.mk item.id item.span (holderKind s (settledValue forms value))).nodes,
      ((Patch.replace item.id (holderKind s value)).apply (withExpression t value)).Holds m := by
  have hvi := held_mem_children ht
  have hvn : value ∈ item.nodes := Node.mem_nodes_of_child hvi value.mem_nodes_self
  have hv : value ∈ root.nodes := Node.mem_nodes_below hi hvi
  have hne : item.id ≠ value.id := by
    intro he
    obtain rfl := hd.eq_of_id hi hv he
    exact absurd hvi (Node.root_not_child item.mem_nodes_self)
  have hspent : spent item = 2 := by rw [spent, ht]
  have hlt := h.old item hi
  have hnone : ∀ i, s ≤ i → i < s + 2 → (withExpression t value).entries[i]? = none :=
    fun i h1 h2 => getElem?_withExpression (hr.none i h1 (by omega))
  obtain ⟨hholder, hname⟩ := holds_holder (id_settledValue forms value)
    (hnone s (Nat.le_refl s) (by omega)) (hnone (s + 1) (by omega) (by omega))
  have hkind : (holderKind s value).map Node.id =
      (holderKind s (settledValue forms value)).map Node.id := rfl
  intro m hm
  rw [Node.nodes_eq, List.mem_cons, List.mem_flatMap] at hm
  unfold Patch.apply
  dsimp only
  rw [hkind]
  rcases hm with rfl | ⟨c, hc, hm⟩
  · refine holds_item (holds_addAll (holds_withExpression (hr.old item item.mem_nodes_self) ?_) _) _
    rw [id_rewrite]
    exact hne
  obtain rfl : c = holderNode s (settledValue forms value) := List.mem_singleton.mp hc
  rw [nodes_holderNode, List.mem_cons, List.mem_cons, Node.nodes_eq (settledValue forms value),
    List.mem_cons, children_settledValue, List.mem_flatMap] at hm
  rcases hm with rfl | rfl | rfl | ⟨c, hc, hm⟩
  · refine holds_setKind hholder ?_ _
    change s + 1 ≠ item.id
    omega
  · refine holds_setKind hname ?_ _
    change s ≠ item.id
    omega
  · refine holds_setKind (holds_addAll (holds_settledValue (hr.old value hvn)) _) ?_ _
    rw [id_settledValue]
    exact hne.symm
  · have hbelow := h.holds_below hd hi hr hvn hc hm
    refine holds_setKind (holds_addAll (holds_withExpression hbelow ?_) _) ?_ _
    · exact h.ne_below hd hv value.mem_nodes_self hv hc hm
    · exact h.ne_below hd hv hvn hi hc hm

/-- The patches for an item settle it. -/
theorem holds_settle (h : Fits forms root low high) (hd : root.Distinct) {item : Node} {s : Nat}
    {t : NodeTable} (hi : item ∈ root.nodes) (hlow : low ≤ s) (hr : Ready forms item s t) :
    ∀ m ∈ (settle forms item s).nodes,
      (((patchesOf item s).map (·.2)).foldl Patch.apply t).Holds m := by
  unfold settle patchesOf
  cases ht : treatment item with
  | kept => exact h.holds hd hr.news hi hr.old
  | removed =>
    intro m hm
    rw [Node.nodes_eq] at hm
    obtain rfl := List.mem_singleton.mp hm
    exact holds_item (hr.old item item.mem_nodes_self) .removed
  | unwrapped declaration => exact h.holds_unwrapped hd hi hr (unwrapped_mem_children ht)
  | held value =>
    have hheld := h.holds_held hd hi hlow hr ht
    unfold withExpression at hheld
    by_cases hfc : isFunctionOrClass value = true
    · simpa [hfc] using hheld
    · simpa [hfc] using hheld

end Fits

end

end EsModule.Compile
