import EsModule.Proofs.Grammar.Statement
import EsModule.Syntax.Parse

/-!
# What rules read: items and modules

Every rule reads its nonterminal if the rules one depth below do, and at depth zero nothing is read,
so the rules of every depth do (`sound_ofDepth`). What comes out at the end is that the items of a
module are trees of the grammar whose nodes all have different numbers (`parseTree_sound`).
-/

namespace EsModule.Syntax

open EsModule.Text

section

variable {g : Grammar}

/-! ## Imports -/

theorem Ensures.moduleSpecifier {c : Context} {s : State} {Q : String → State → Prop}
    (h : ∀ name, Q name s.next) : Ensures Grammar.moduleSpecifier c s Q := by
  refine .bind (.current ?_)
  split
  · exact .bind (.advance (.pure (h _)))
  · exact .unexpected

/-- The name of an export, which can be bound where a name that can be bound is read. -/
theorem ensures_exportName {c : Context} {s : State} (hs : s.Normal) :
    Ensures Grammar.exportName c s fun name s' => s' = s.next ∧
      ((∃ own, s.current.kind = .identifier own) ∨ s.current.kind = .keyword .kwAsync →
        IsPlainName name) := by
  refine .bind (.current ?_)
  split
  · rename_i value hk
    refine .bind (.advance (.pure ⟨rfl, ?_⟩))
    rintro (⟨own, h⟩ | h) <;> simp [hk] at h
  · refine .bind (.current ?_)
    split
    · rename_i name hname
      refine .bind (.advance (.pure ⟨rfl, ?_⟩))
      rintro (⟨own, h⟩ | h)
      · rw [h] at hname
        obtain rfl := Option.some.inj hname
        exact .inr (hs.isOwnName h)
      · rw [h] at hname
        obtain rfl := Option.some.inj hname
        exact .inl rfl
    · exact .unexpected

theorem ensures_importEnd {c : Context} {s0 s : State} {specifiers : List Node}
    (hm : Made s0 s specifiers) (hc : ImportClause specifiers)
    (hd : ∀ n ∈ specifiers, Derives c.inGenerator .importSpecifier n) (start : Nat) :
    Ensures (Grammar.importEnd start specifiers) c s fun n s' =>
      Made s0 s' [n] ∧ Derives c.inGenerator .item n := by
  refine .bind (.expectName fun _ => .bind (.moduleSpecifier fun source => ?_))
  refine .bind (.semicolon (.node fun span => ?_) (.node fun span => ?_))
  · exact ⟨hm.next.next.next.node rfl span, .importItem hc hd⟩
  · exact ⟨hm.next.next.node rfl span, .importItem hc hd⟩

theorem ensures_importSpecifier {c : Context} {s : State} (hs : s.Normal) :
    Ensures Grammar.importSpecifier c s fun n s' => Made s s' [n] ∧
      Derives c.inGenerator .importSpecifier n ∧ n.isNamedImport = true := by
  refine .bind (.here (.step (P := fun short s' => s' = s ∧ (short = true →
    (∃ name, s.current.kind = .identifier name) ∨ s.current.kind = .keyword .kwAsync))
    (.atBindingName (fun h => ⟨rfl, fun _ => h⟩) ⟨rfl, nofun⟩) ?_))
  rintro short s1 ⟨rfl, hshort⟩
  refine .step (ensures_exportName hs) ?_
  rintro imported s2 ⟨rfl, hname⟩
  have h1 := (Made.start hs).next
  refine .bind (.eatName (fun _ => .ite (fun _ => ?_) (absurd rfl)) fun _ => .ite nofun fun _ => ?_)
  · refine .step (sound_bindingName c _ (State.normal_next _)) ?_
    rintro binding s3 ⟨h3, hd⟩
    exact .node fun span => ⟨(h1.next.append h3).node rfl span, .importSpecifier hd, rfl⟩
  · refine .ite (fun hb => .bind (.get (.bind (.nodeAt (.node fun span => ?_))))) fun _ => .bind .fail
    exact ⟨(h1.node rfl _).node rfl span, .importSpecifier (.name (hname (hshort hb))), rfl⟩

theorem ensures_importDefaultSpecifier {c : Context} {s : State} (hs : s.Normal) :
    Ensures Grammar.importDefaultSpecifier c s fun n s' => Made s s' [n] ∧
      Derives c.inGenerator .importSpecifier n ∧ n.isDefaultImport = true := by
  refine .bind (.here (.step (sound_bindingName c s hs) ?_))
  rintro binding s1 ⟨hm, hd⟩
  exact .node fun span => ⟨hm.node rfl span, .importDefaultSpecifier hd, rfl⟩

theorem ensures_importList {c : Context} {s : State} (hs : s.Normal) :
    Ensures Grammar.importList c s fun ns s' => Made s s' ns ∧
      (∀ n ∈ ns, Derives c.inGenerator .importSpecifier n) ∧
      ((∃ n : Node, ns = [n] ∧ n.isNamespaceImport = true) ∨
        ∀ n ∈ ns, n.isNamedImport = true) := by
  have h1 := (Made.start hs).next
  refine .bind (.here (.bind (.eat (fun _ => .ite (fun _ => ?_) (absurd rfl)) fun _ =>
    .ite nofun fun _ => ?_)))
  · refine .bind (.expectName fun _ => .step (sound_bindingName c _ (State.normal_next _)) ?_)
    rintro binding s2 ⟨h2, hd⟩
    refine .bind (.node fun span => .pure ⟨(h1.next.append h2).node rfl span, ?_, .inl ?_⟩)
    · exact List.forall_mem_singleton.mpr (.importNamespaceSpecifier hd)
    · exact ⟨_, rfl, rfl⟩
  refine .bind (.eat (fun _ => .ite (fun _ => ?_) (absurd rfl)) fun _ =>
    .ite nofun fun _ => .unexpected)
  refine .step (P := fun ns s' => Made s s' ns ∧ ∀ n ∈ ns,
    Derives c.inGenerator .importSpecifier n ∧ n.isNamedImport = true) ?_ ?_
  · refine .listUntil _ ⟨h1, nofun⟩ (fun _ _ h => h) ?_
    rintro ns s2 ⟨hm, hd⟩
    refine .step (ensures_importSpecifier hm.normal) ?_
    rintro n s3 ⟨h3, hn⟩
    have hd' := forall_mem_concat hd hn
    exact .bind (.eat (fun _ => .pure ⟨(hm.append h3).next, hd'⟩)
      fun _ => .pure ⟨hm.append h3, hd'⟩)
  · rintro ns s2 ⟨hm, hd⟩
    exact .bind (.expect fun _ => .pure ⟨hm.next, fun n hn => (hd n hn).1,
      .inr fun n hn => (hd n hn).2⟩)

theorem ensures_importDeclaration {c : Context} {s : State} (hs : s.Normal) :
    Ensures Grammar.importDeclaration c s fun n s' =>
      Made s s' [n] ∧ Derives c.inGenerator .item n := by
  have h1 := (Made.start hs).next
  refine .bind (.here (.bind (.advance (.bind (.current ?_)))))
  split
  · rename_i source _
    have hd : ∀ id span, Derives c.inGenerator .item (.mk id span (.importDeclaration [] source)) :=
      fun _ _ => .importItem ⟨[], [], rfl, .inl rfl, .inr nofun⟩ nofun
    refine .bind (.advance (.bind (.semicolon (.node fun span => ?_) (.node fun span => ?_))))
    · exact ⟨h1.next.next.node rfl span, hd _ _⟩
    · exact ⟨h1.next.node rfl span, hd _ _⟩
  refine .step (P := fun _ s' => s' = s.next) (.atBindingName (fun _ => rfl) rfl) ?_
  rintro b s1 rfl
  refine .ite (fun _ => ?_) fun _ => ?_
  · refine .step (ensures_importDefaultSpecifier h1.normal) ?_
    rintro first s2 ⟨h2, hd, hdefault⟩
    have hm := h1.append h2
    refine .bind (.eat (fun _ => .ite (fun _ => ?_) (absurd rfl)) fun _ => .ite nofun fun _ => ?_)
    · refine .step (ensures_importList s2.normal_next) ?_
      rintro ns s3 ⟨h3, hns, hc⟩
      refine ensures_importEnd (hm.next.append h3) ?_ ?_ _
      · exact ⟨[first], ns, rfl, .inr ⟨first, rfl, hdefault⟩, hc⟩
      · exact List.forall_mem_cons.mpr ⟨hd, hns⟩
    · refine ensures_importEnd hm ?_ (List.forall_mem_singleton.mpr hd) _
      exact ⟨[first], [], rfl, .inr ⟨first, rfl, hdefault⟩, .inr nofun⟩
  · refine .step (ensures_importList h1.normal) ?_
    rintro ns s3 ⟨h3, hns, hc⟩
    exact ensures_importEnd (h1.append h3) ⟨[], ns, rfl, .inl rfl, hc⟩ hns _

/-! ## Exports -/

theorem ensures_exportedDeclaration {c : Context} {s0 s : State} {declaration : Parser Node}
    {P : Node → Prop} (h : Ensures declaration c s fun n s' => Made s0 s' [n] ∧ P n)
    (hp : ∀ id span n, P n →
      Derives c.inGenerator .item (.mk id span (.exportNamedDeclaration (some n) [] none)))
    (start : Nat) :
    Ensures (Grammar.exportedDeclaration start declaration) c s fun n s' =>
      Made s0 s' [n] ∧ Derives c.inGenerator .item n := by
  refine .step h ?_
  rintro n s1 ⟨hm, hn⟩
  exact .node fun span => ⟨hm.node rfl span, hp _ _ n hn⟩

theorem ensures_exportAll {c : Context} {s0 s : State} (hm : Made s0 s []) (start : Nat) :
    Ensures (Grammar.exportAll start) c s fun n s' =>
      Made s0 s' [n] ∧ Derives c.inGenerator .item n := by
  refine .bind (.advance (.bind (.eatName (fun _ => ?_) fun _ => ?_)))
  all_goals
    extract_lets behind
    have hbehind : ∀ exported s1, Made s0 s1 [] → Ensures (behind exported) c s1 fun n s' =>
        Made s0 s' [n] ∧ Derives c.inGenerator .item n := by
      intro exported s1 h1
      refine .bind (.expectName fun _ => .bind (.moduleSpecifier fun source => ?_))
      refine .bind (.semicolon (.node fun span => ?_) (.node fun span => ?_))
      · exact ⟨h1.next.next.next.node rfl span, .exportAll⟩
      · exact ⟨h1.next.next.node rfl span, .exportAll⟩
    refine .ite (fun _ => ?_) fun _ => ?_
  · refine .step (ensures_exportName (State.normal_next _)) ?_
    rintro name s1 ⟨rfl, -⟩
    exact .bind (.pure (hbehind _ _ hm.next.next.next))
  · contradiction
  · contradiction
  · exact .bind (.pure (hbehind _ _ hm.next))

theorem ensures_exportDefault (hg : g.Sound) {c : Context} {s0 s : State} (hm : Made s0 s [])
    (start : Nat) :
    Ensures (g.exportDefault start) c s fun n s' =>
      Made s0 s' [n] ∧ Derives c.inGenerator .item n := by
  refine .bind (.advance (.bind (.startsAsyncFunction fun _ _ => ?_)))
  extract_lets behind
  have hdeclaration : ∀ n s1, Made s.next s1 [n] → Derives c.inGenerator (.declaration false) n →
      Ensures (behind n) c s1 fun n s' => Made s0 s' [n] ∧ Derives c.inGenerator .item n :=
    fun n s1 h1 hd => .node fun span =>
      ⟨(hm.next.append h1).node rfl span, .exportDefaultDeclaration hd⟩
  have h1 := Made.start s.normal_next
  refine .ite (fun _ => .bind (.advance ?_)) fun _ => .bind (.current ?_)
  · refine .step (ensures_functionDeclaration hg h1.next.normal true none false nofun) ?_
    exact fun n s1 h => hdeclaration n s1 (h1.next.append h.1) h.2
  split
  · refine .step (ensures_functionDeclaration hg h1.normal false none false nofun) ?_
    exact fun n s1 h => hdeclaration n s1 h.1 h.2
  · refine .step (ensures_classDeclaration hg h1.normal none false nofun) ?_
    exact fun n s1 h => hdeclaration n s1 h.1 h.2
  · refine .step (.withIn (hg.assignment _ _ h1.normal)) ?_
    rintro e s1 ⟨he, hd⟩
    have hm1 := hm.next.append he
    refine .bind (.semicolon (.bind (.pure (.node fun span => ?_)))
      (.bind (.pure (.node fun span => ?_))))
    · exact ⟨hm1.next.node rfl span, .exportDefaultValue hd⟩
    · exact ⟨hm1.node rfl span, .exportDefaultValue hd⟩

/-- A name in a list of exports. It is one of this module unless it is marked. -/
theorem ensures_exportSpecifier {c : Context} {s : State} (hs : s.Normal) :
    Ensures Grammar.exportSpecifier c s fun r s' => Made s s' [r.1] ∧
      ∀ isLocal, (isLocal = true → r.2 = none) →
        Derives c.inGenerator (.exportSpecifier isLocal) r.1 := by
  refine .bind (.here (.step (P := fun plain s' => s' = s ∧ (plain = true →
    (∃ name, s.current.kind = .identifier name) ∨ s.current.kind = .keyword .kwAsync))
    (.atBindingName (fun h => ⟨rfl, fun _ => h⟩) ⟨rfl, nofun⟩) ?_))
  rintro plain s1 ⟨rfl, hplain⟩
  refine .step (ensures_exportName hs) ?_
  rintro name s2 ⟨rfl, hname⟩
  have hm := (Made.start hs).next.node (k := .identifier name) rfl
  refine .bind (.get (.bind (.nodeAt (.bind (.eatName (fun _ => ?_) fun _ => ?_)))))
  all_goals
    extract_lets behind
    have hbehind : ∀ exported s3,
        Made s1 s3 [.mk s1.next.nextId s1.next.previous (.identifier name)] →
        Ensures (behind exported) c s3 fun r s' => Made s1 s' [r.1] ∧
          ∀ isLocal, (isLocal = true → r.2 = none) →
            Derives c.inGenerator (.exportSpecifier isLocal) r.1 := by
      intro exported s3 h3
      refine .bind (.node fun span => .pure ⟨h3.node rfl span, fun isLocal hlocal => ?_⟩)
      refine .exportSpecifier fun h => hname (hplain ?_)
      have hnone := hlocal h
      cases plain with
      | true => rfl
      | false => cases hnone
    refine .ite (fun _ => ?_) fun _ => ?_
  · refine .step (ensures_exportName (State.normal_next _)) ?_
    rintro exported s3 ⟨rfl, -⟩
    exact hbehind _ _ (hm _).next.next
  · contradiction
  · contradiction
  · exact .bind (.pure (hbehind _ _ (hm _)))

theorem ensures_exportList {c : Context} {s0 s : State} (hm : Made s0 s []) (start : Nat) :
    Ensures (Grammar.exportList start) c s fun n s' =>
      Made s0 s' [n] ∧ Derives c.inGenerator .item n := by
  refine .bind (.advance ?_)
  refine .step (P := fun (ms : List (Node × Option String)) s' => Made s0 s' (ms.map (·.1)) ∧
    ∀ m ∈ ms, ∀ isLocal, (isLocal = true → m.2 = none) →
      Derives c.inGenerator (.exportSpecifier isLocal) m.1) ?_ ?_
  · refine .listUntil _ ⟨hm.next, nofun⟩ (fun _ _ h => h) ?_
    rintro ms s1 ⟨h1, hd⟩
    refine .step (ensures_exportSpecifier h1.normal) ?_
    rintro m s2 ⟨h2, hm2⟩
    have hd' := forall_mem_concat hd hm2
    have h12 := h1.append_of_eq (l := (ms ++ [m]).map (·.1)) h2 (by simp)
    exact .bind (.eat (fun _ => .pure ⟨h12.next, hd'⟩) fun _ => .pure ⟨h12, hd'⟩)
  rintro ms s1 ⟨h1, hd⟩
  refine .bind (.expect fun _ => .bind (.eatName (fun _ => ?_) fun _ => ?_))
  all_goals
    extract_lets behind
    have hbehind : ∀ source s2, Made s0 s2 (ms.map (·.1)) →
        (source.isNone = true → ∀ m ∈ ms, m.2 = none) →
        Ensures (behind source) c s2 fun n s' => Made s0 s' [n] ∧ Derives c.inGenerator .item n := by
      intro source s2 h2 hsource
      have hlist : ∀ n ∈ ms.map (·.1), Derives c.inGenerator (.exportSpecifier source.isNone) n := by
        intro n hn
        obtain ⟨m, hmem, rfl⟩ := List.mem_map.mp hn
        exact hd m hmem _ fun h => hsource h m hmem
      refine .bind (.semicolon (.node fun span => ?_) (.node fun span => ?_))
      · exact ⟨h2.next.node (List.nil_append _) span, .exportList hlist⟩
      · exact ⟨h2.node (List.nil_append _) span, .exportList hlist⟩
    refine .ite (fun _ => ?_) fun _ => ?_
  · exact .bind (.moduleSpecifier fun source => .bind (.pure (hbehind _ _ h1.next.next.next nofun)))
  · contradiction
  · contradiction
  · split
    · exact .bind .fail
    · rename_i hnone
      refine .bind (.pure (hbehind none _ h1.next fun _ m hmem => ?_))
      exact List.findSome?_eq_none_iff.mp hnone m hmem

theorem ensures_exportDeclaration (hg : g.Sound) {c : Context} {s : State} (hs : s.Normal) :
    Ensures g.exportDeclaration c s fun n s' =>
      Made s s' [n] ∧ Derives c.inGenerator .item n := by
  have h1 := (Made.start hs).next
  refine .bind (.here (.bind (.advance (.bind (.current ?_)))))
  extract_lets kind
  clear_value kind
  split
  · rename_i declared _
    refine ensures_exportedDeclaration (P := Derives c.inGenerator .variables) ?_
      (fun _ _ _ => .exportVariables) _
    refine .step (ensures_variableDeclaration hg h1.normal declared) ?_
    rintro n s2 ⟨h2, hd⟩
    have hm := h1.append h2
    exact .bind (.semicolon (.pure ⟨hm.next, hd⟩) (.pure ⟨hm, hd⟩))
  refine .bind (.peek (.ite (fun _ => ?_) fun _ => ?_))
  · refine .bind (.advance (ensures_exportedDeclaration
      ((ensures_functionDeclaration hg (State.normal_next _) true _ true fun _ => rfl).mono
        fun n s' h => ⟨h1.next.append h.1, h.2⟩) (fun _ _ _ => .exportDeclaration) _))
  split
  · exact ensures_exportAll h1 _
  · exact ensures_exportList h1 _
  · exact ensures_exportDefault hg h1 _
  · exact ensures_exportedDeclaration
      ((ensures_functionDeclaration hg h1.normal false _ true fun _ => rfl).mono
        fun n s' h => ⟨h1.append h.1, h.2⟩) (fun _ _ _ => .exportDeclaration) _
  · exact ensures_exportedDeclaration
      ((ensures_classDeclaration hg h1.normal _ true fun _ => rfl).mono
        fun n s' h => ⟨h1.append h.1, h.2⟩) (fun _ _ _ => .exportDeclaration) _
  · exact .unexpected

/-! ## Modules -/

theorem sound_moduleItem (hg : g.Sound) : Sound .item g.moduleItem := by
  intro c s hs
  have hstatement := (hg.statement c s hs).mono fun n s' h =>
    (⟨h.1, .statementItem h.2⟩ : Made s s' [n] ∧ Derives c.inGenerator .item n)
  refine .bind (.current ?_)
  split
  · exact .bind (.peek (.ite (fun _ => hstatement) fun _ => ensures_importDeclaration hs))
  · exact ensures_exportDeclaration hg hs
  · exact hstatement

theorem ensures_moduleBody (hg : g.Sound) {c : Context} {s : State} (hs : s.Normal) :
    Ensures g.moduleBody c s fun items s' => Made s s' items ∧
      ∀ n ∈ items, Derives c.inGenerator .item n := by
  refine .listUntil _ ⟨.start hs, nofun⟩ (fun _ _ h => h) ?_
  rintro items s1 ⟨hm, hd⟩
  refine .step (sound_moduleItem hg c s1 hm.normal) ?_
  rintro n s2 ⟨hn, hdn⟩
  exact .pure ⟨hm.append hn, forall_mem_concat hd hdn⟩

end

theorem sound_ofDepth (depth : Nat) : (Grammar.ofDepth depth).Sound := by
  induction depth with
  | zero =>
    exact ⟨fun _ _ _ => .fail, fun _ _ _ => .fail, fun _ _ _ _ => .fail, fun _ _ _ => .fail,
      fun _ _ _ => .fail, fun _ _ _ => .fail, fun _ _ _ => .fail⟩
  | succ depth ih =>
    exact ⟨sound_statementRule ih, sound_assignmentRule ih, sound_binaryRule ih, sound_unaryRule ih,
      sound_leftHandSideRule ih, fun _ _ => ensures_newExpressionRule ih, sound_bindingTargetRule ih⟩

theorem State.normal_start (source : List Char) : (State.start source).Normal := rfl

/-- The tree of a module has items of the grammar below its root, and no two of its nodes have the
same number. -/
theorem parseTree_sound {source : List Char} {root : Node} (h : parseTree source = .ok root) :
    ∃ span items, root = .mk 0 span (.program items) ∧ (∀ n ∈ items, Derives false .item n) ∧
      (root.nodes.map Node.id).Nodup := by
  unfold parseTree at h
  cases hitems : parseItems source with
  | error e =>
    rw [hitems] at h
    cases h
  | ok items =>
    rw [hitems] at h
    obtain rfl := Except.ok.inj h
    unfold parseItems at hitems
    dsimp only at hitems
    generalize hrun : (Grammar.moduleBody _ _).run _ = run at hitems
    cases run with
    | error e => cases hitems
    | ok result =>
      obtain ⟨items', s'⟩ := result
      obtain rfl := Except.ok.inj hitems
      obtain ⟨hm, hd⟩ := ensures_moduleBody (sound_ofDepth _) (State.normal_start source) _ _ hrun
      refine ⟨_, _, rfl, hd, ?_⟩
      have hids := hm.within
      rw [Node.nodes_eq, List.map_cons, List.nodup_cons]
      refine ⟨fun h0 => ?_, hids.nodup⟩
      exact absurd (hids.mem 0 h0).1 (Nat.not_succ_le_zero 0)

end EsModule.Syntax
