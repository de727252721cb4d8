import EsModule.Proofs.Layout.Statement
import EsModule.Proofs.Grammar.Item

/-!
# Where rules lay their nodes: imports, exports and modules

The name in a list of exports may be written as a string, so its node is made together with the one
above it. Between the items of a module only blanks, line ends and comments are left (`gaps`): an
item ends where the next token is looked for.
-/

namespace EsModule.Syntax

open EsModule.Text

section

variable {source : List Char} {g : Grammar} {c : Context} {s s' : State} {ns : List Node}

/-! ## Imports -/

/-- Where a name can be bound, what is exported is that name and no string. -/
theorem name_of_bindable {k : TokenKind} {name : String}
    (hk : (∃ own, k = .identifier own) ∨ k = .keyword .kwAsync)
    (h : k = .string name ∨ k.name? = some name) : k.name? = some name := by
  rcases hk with ⟨own, rfl⟩ | rfl
  · exact h.resolve_left nofun
  · exact h.resolve_left nofun

theorem moves_exportName : Ensures Grammar.exportName c s fun name s' => s' = s.next ∧
    (s.current.kind = .string name ∨ s.current.kind.name? = some name) := by
  refine .bind (.current ?_)
  split
  · rename_i value hk
    exact .bind (.advance (.pure ⟨rfl, .inl hk⟩))
  · refine .bind (.current ?_)
    split
    · rename_i name hname
      exact .bind (.advance (.pure ⟨rfl, .inr hname⟩))
    · exact .unexpected

theorem spans_importEnd {specifiers : List Node} (h : Laid source s s' specifiers) :
    Ensures (Grammar.importEnd s.current.span.start specifiers) c s' (Spanned source s) :=
  .bind (.expectName fun _ => .bind (.moduleSpecifier fun _ =>
    h.next.next.endsWithSemicolon rfl rfl))

theorem lays_importSpecifier : Lays source Grammar.importSpecifier := by
  intro c s hs
  refine .bind (.here (.step (P := fun short s' => s' = s ∧ (short = true →
    (∃ name, s.current.kind = .identifier name) ∨ s.current.kind = .keyword .kwAsync))
    (.atBindingName (fun h => ⟨rfl, fun _ => h⟩) ⟨rfl, nofun⟩) ?_))
  intro short s' h
  obtain ⟨rfl, hshort⟩ := h
  refine .step moves_exportName ?_
  intro imported s1 h
  obtain ⟨rfl, hname⟩ := h
  have h1 := (Begun.refl hs).next
  refine .bind (.eatName (fun _ => .ite (fun _ => ?_) (absurd rfl)) fun _ => .ite nofun fun _ => ?_)
  · refine .step (lays_bindingName _ _ h1.placed.next) ?_
    intro binding s2 hb
    exact (h1.next.append hb).makes rfl rfl
  · refine .ite (fun hb => .bind (.get (.bind (.nodeAt ?_)))) fun _ => .bind .fail
    exact (hs.name (name_of_bindable (hshort hb) hname)).makes rfl rfl

theorem lays_importDefaultSpecifier : Lays source Grammar.importDefaultSpecifier := by
  intro c s hs
  refine .bind (.here (.step (lays_bindingName c s hs) ?_))
  intro binding s1 hb
  exact hb.makes rfl rfl

theorem lays_importList (hs : s.Ready source) :
    Ensures Grammar.importList c s fun specifiers s' => Laid source s s' specifiers := by
  have h1 := (Begun.refl hs).next
  refine .bind (.here (.bind (.eat (fun _ => .ite (fun _ => ?_) (absurd rfl)) fun _ =>
    .ite nofun fun _ => ?_)))
  · refine .bind (.expectName fun _ => .step (lays_bindingName _ _ h1.next.placed) ?_)
    intro binding s2 hb
    exact .step ((h1.next.append hb).makes rfl rfl) fun _ _ h => .pure h
  refine .bind (.eat (fun _ => .ite (fun _ => ?_) (absurd rfl)) fun _ =>
    .ite nofun fun _ => .unexpected)
  refine .step (P := fun ss s' => Laid source s s' ss) ?_ ?_
  · refine .listUntil _ h1 (fun _ _ h => h) ?_
    intro ss s2 h2
    refine .step (lays_importSpecifier c s2 h2.placed) ?_
    intro n s3 hn
    exact .bind (.eat (fun _ => .pure (h2.append hn).next) fun _ => .pure (h2.append hn))
  · intro ss s2 h2
    exact .bind (.expect fun _ => .pure h2.next)

theorem spans_importDeclaration : Spans source Grammar.importDeclaration := by
  intro c s hs
  have h1 := (Begun.refl hs).next
  refine .bind (.here (.bind (.advance (.bind (.current ?_)))))
  split
  · exact .bind (.advance (h1.next.endsWithSemicolon rfl rfl))
  refine .step (P := fun _ s' => s' = s.next) (.atBindingName (fun _ => rfl) rfl) ?_
  intro b s1 hs1
  subst hs1
  refine .ite (fun _ => ?_) fun _ => ?_
  · refine .step (lays_importDefaultSpecifier c _ h1.placed) ?_
    intro first s2 hf
    have h2 := h1.append hf
    refine .bind (.eat (fun _ => ?_) fun _ => ?_)
    · refine .ite (fun _ => ?_) (absurd rfl)
      refine .step (lays_importList h2.next.placed) ?_
      intro more s3 hm
      exact spans_importEnd (h2.next.append hm)
    · exact .ite nofun fun _ => spans_importEnd h2
  · refine .step (lays_importList h1.placed) ?_
    intro specifiers s2 h2
    exact spans_importEnd (h1.append h2)

/-! ## Exports -/

theorem spans_exportedDeclaration {declaration : Parser Node}
    (h : Ensures declaration c s' fun n s'' => Laid source s s'' [n]) :
    Ensures (Grammar.exportedDeclaration s.current.span.start declaration) c s'
      (Spanned source s) := .step h fun _ _ hn => hn.spans rfl rfl

theorem spans_exportAll (h : Laid source s s' []) :
    Ensures (Grammar.exportAll s.current.span.start) c s' (Spanned source s) := by
  refine .bind (.advance ?_)
  refine .bind (.eatName (fun _ => .ite (fun _ => ?_) (absurd rfl)) fun _ => .ite nofun fun _ => ?_)
  · refine .step moves_exportName ?_
    intro exported s2 hs2
    obtain ⟨rfl, -⟩ := hs2
    exact .bind (.pure (.bind (.expectName fun _ => .bind (.moduleSpecifier fun _ =>
      h.next.next.next.next.next.endsWithSemicolon rfl rfl))))
  · exact .bind (.pure (.bind (.expectName fun _ => .bind (.moduleSpecifier fun _ =>
      h.next.next.next.endsWithSemicolon rfl rfl))))

theorem spans_exportDefault (hg : g.Lays source) (h : Laid source s s' []) :
    Ensures (g.exportDefault s.current.span.start) c s' (Spanned source s) := by
  have h1 := h.next
  refine .bind (.advance ?_)
  refine .bind (.startsAsyncFunction fun _ _ => ?_)
  extract_lets behind
  have hbehind : ∀ n s2, Laid source s s2 [n] → Ensures (behind n) c s2 (Spanned source s) :=
    fun n s2 h2 => h2.spans rfl rfl
  refine .ite (fun _ => ?_) fun _ => ?_
  · refine .bind (.advance (.step (spans_functionDeclaration hg
      (Begun.refl h1.placed).next.toBegun true none rfl) ?_))
    intro n s2 hn
    exact hbehind n s2 (h1.append hn.1)
  refine .bind (.current ?_)
  split
  · refine .step (spans_functionDeclaration hg (.refl h1.placed) false none rfl) ?_
    intro n s2 hn
    exact hbehind n s2 (h1.append hn.1)
  · refine .step (spans_classRule hg (fun _ => rfl) (fun _ => rfl) none _ _ h1.placed) ?_
    intro n s2 hn
    exact hbehind n s2 (h1.append hn.1)
  · refine .step (.withIn (hg.assignment _ _ h1.placed)) ?_
    intro e s2 he
    have h2 := h1.append he
    exact .bind (.semicolon (.bind (.pure (hbehind _ _ h2.next))) (.bind (.pure (hbehind _ _ h2))))

/-- A new name in a list of exports, whose own name is written as a name or as a string. -/
theorem State.Ready.exportSpecifier (hs : s.Ready source) {name : String}
    (hname : s.current.kind = .string name ∨ s.current.kind.name? = some name)
    (h : Laid source s s' []) (hstop : s.current.span.stop ≤ s'.previous.stop)
    (hid : s.nextId < s'.nextId) (exported : String) : Laid source s s'.counted
      [.mk s'.nextId (Laid.whole s s')
        (.exportSpecifier (.mk s.nextId s.current.span (.identifier name)) exported)] := by
  have hlocal : Node.Fits source (.mk s.nextId s.current.span (.identifier name)) :=
    ⟨hs.boundary_start, (Begun.refl hs).next.boundary_stop, hs.start_le_stop, nofun,
      fun _ => .nil, nofun⟩
  have hwritten : Node.Spelled source (.mk s.nextId s.current.span (.identifier name)) ∨
      Node.Quoted source (.mk s.nextId s.current.span (.identifier name)) := by
    cases hname with
    | inl hstring =>
      have hread := hs.read.tokenHere.1
      exact .inr ⟨name, _, _, rfl, hs.start_at, hstring ▸ hread, hs.span⟩
    | inr hname =>
      refine .inl ?_
      intro own hown
      obtain rfl := Kind.identifier.inj hown
      exact hs.spelled hname
  have hfits : Node.Fits source (.mk s'.nextId (Laid.whole s s')
      (.exportSpecifier (.mk s.nextId s.current.span (.identifier name)) exported)) := by
    refine ⟨h.boundary, h.boundary_stop, h.reached, ?_, fun _ => List.pairwise_singleton _ _, ?_⟩
    · exact List.forall_mem_singleton.mpr ⟨Nat.le_refl _, hstop⟩
    · exact List.forall_mem_singleton.mpr (hwritten.imp id fun hq => ⟨rfl, hq⟩)
  refine h.made rfl ⟨?_, ?_, ?_, Nat.lt_succ_self _, nofun⟩
  · exact Node.forall_nodes hfits (List.forall_mem_singleton.mpr (Node.forall_nodes hlocal nofun))
  · exact Node.forall_nodes trivial (List.forall_mem_singleton.mpr (Node.forall_nodes trivial nofun))
  · exact Node.forall_nodes (List.forall_mem_singleton.mpr hid)
      (List.forall_mem_singleton.mpr (Node.forall_nodes nofun nofun))

theorem lays_exportSpecifier (hs : s.Ready source) :
    Ensures Grammar.exportSpecifier c s fun r s' => Laid source s s' [r.1] := by
  refine .bind (.here (.step (P := fun _ s' => s' = s) (.atBindingName (fun _ => rfl) rfl) ?_))
  intro plain s1 hs1
  subst hs1
  refine .step moves_exportName ?_
  intro name s2 h
  obtain ⟨rfl, hname⟩ := h
  have h1 := (Begun.refl hs).next.counted
  refine .bind (.get (.bind (.nodeAt (.bind (.eatName (fun _ => ?_) fun _ => ?_)))))
  all_goals
    extract_lets behind
    have hbehind : ∀ exported s3, Laid source s1 s3 [] →
        s1.current.span.stop ≤ s3.previous.stop → s1.nextId < s3.nextId →
        Ensures (behind exported) c s3 fun r s' => Laid source s1 s' [r.1] := by
      intro exported s3 h3 hstop hid
      refine .bind (.nodeOf (.pure ?_))
      rw [h3.nodeSpan]
      exact hs.exportSpecifier hname h3 hstop hid exported
    refine .ite (fun _ => ?_) fun _ => ?_
  · refine .step moves_exportName ?_
    intro exported s3 h
    obtain ⟨rfl, -⟩ := h
    have hmore := (Begun.refl h1.placed).next.next
    exact hbehind _ _ h1.next.next (Nat.le_trans h1.placed.previous_le hmore.reached)
      (Nat.lt_succ_self _)
  · contradiction
  · contradiction
  · exact .bind (.pure (hbehind _ _ h1 (Nat.le_refl _) (Nat.lt_succ_self _)))

theorem spans_exportList (h : Laid source s s' []) :
    Ensures (Grammar.exportList s.current.span.start) c s' (Spanned source s) := by
  refine .bind (.advance ?_)
  refine .step (P := fun (ms : List (Node × Option String)) s'' =>
    Laid source s s'' (ms.map (·.1))) ?_ ?_
  · refine .listUntil _ h.next (fun _ _ h => h) ?_
    intro ms s1 h1
    refine .step (lays_exportSpecifier h1.placed) ?_
    intro m s2 h2
    have h12 : Laid source s s2 ((ms ++ [m]).map (·.1)) := (h1.append h2).of_eq (by simp)
    exact .bind (.eat (fun _ => .pure h12.next) fun _ => .pure h12)
  intro ms s1 h1
  refine .bind (.expect fun _ => .bind (.eatName (fun _ => ?_) fun _ => ?_))
  all_goals
    extract_lets behind
    have hbehind : ∀ module s2, Laid source s s2 (ms.map (·.1)) →
        Ensures (behind module) c s2 (Spanned source s) :=
      fun module s2 h2 => h2.endsWithSemicolon (List.nil_append _) rfl
    refine .ite (fun _ => ?_) fun _ => ?_
  · exact .bind (.moduleSpecifier fun module => .bind (.pure (hbehind _ _ h1.next.next.next)))
  · contradiction
  · contradiction
  · split
    · exact .bind .fail
    · exact .bind (.pure (hbehind none _ h1.next))

theorem spans_exportDeclaration (hg : g.Lays source) : Spans source g.exportDeclaration := by
  intro c s hs
  have h1 := (Begun.refl hs).next
  refine .bind (.here (.bind (.advance (.bind (.current ?_)))))
  extract_lets kind
  clear_value kind
  split
  · rename_i declared _
    refine spans_exportedDeclaration (.step (spans_variableDeclaration hg h1.placed declared) ?_)
    intro n s2 hn
    have h2 := h1.append hn.1.1
    exact .bind (.semicolon (.pure h2.next) (.pure h2))
  refine .bind (.peek (.ite (fun _ => ?_) fun _ => ?_))
  · refine .bind (.advance (spans_exportedDeclaration (.mono (spans_functionDeclaration hg
      (Begun.refl h1.placed).next.toBegun true _ rfl) ?_)))
    exact fun n s' h => h1.append h.1
  split
  · exact spans_exportAll h1
  · exact spans_exportList h1
  · exact spans_exportDefault hg h1
  · refine spans_exportedDeclaration (.mono (spans_functionDeclaration hg
      (.refl h1.placed) false _ rfl) ?_)
    exact fun n s' h => h1.append h.1
  · refine spans_exportedDeclaration (.mono (spans_classRule hg (fun _ => rfl) (fun _ => rfl) _ _ _
      h1.placed) ?_)
    exact fun n s' h => h1.append h.1
  · exact .unexpected

/-! ## Modules -/

theorem spans_moduleItem (hg : g.Lays source) : Spans source g.moduleItem := by
  intro c s hs
  refine .bind (.current ?_)
  split
  · exact .bind (.peek (.ite (fun _ => hg.statement c s hs)
      fun _ => spans_importDeclaration c s hs))
  · exact spans_exportDeclaration hg c s hs
  · exact hg.statement c s hs

end

theorem lays_ofDepth (source : List Char) (depth : Nat) :
    (Grammar.ofDepth depth).Lays source := by
  induction depth with
  | zero =>
    exact ⟨fun _ _ _ => .fail, fun _ _ _ => .fail, fun _ _ _ _ => .fail, fun _ _ _ => .fail,
      fun _ _ _ => .fail, fun _ _ _ => .fail, fun _ _ _ => .fail⟩
  | succ depth ih =>
    exact ⟨spans_statementRule ih, lays_assignmentRule ih, lays_binaryRule ih, lays_unaryRule ih,
      lays_leftHandSideRule ih, lays_newExpressionRule ih, lays_bindingTargetRule ih⟩

end EsModule.Syntax
