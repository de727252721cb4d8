import EsModule.Proofs.Grammar.Function
import EsModule.Syntax.Grammar.Primary

/-!
# What rules read: operands

Two tokens are read a second time by another rule: the mark that opens a regular expression, and the
brace that ends a substitution in a template. In between the state is not normal, so for these two
the numbers of nodes are followed without the token.

The items in parentheses are expressions, and where they are not, an arrow has to follow.
-/

namespace EsModule.Syntax

open EsModule.Text

/-! ## Reading a token again -/

/-- The state after the current token was read again by `rule`. -/
def State.rescanned (s : State) (rule : Nat → Cursor → Token × Cursor) : State :=
  let read := rule s.current.span.start (skipTrivia s.before).2.advance
  { s with
    current := { read.1 with newlineBefore := s.current.newlineBefore }
    behind := read.2 }

theorem Ensures.rescan {rule : Nat → Cursor → Token × Cursor} {c : Context} {s : State}
    {Q : Token → State → Prop} (h : Q (s.rescanned rule).current (s.rescanned rule)) :
    Ensures (Parser.rescan rule) c s Q := by
  intro a s' hp
  obtain ⟨rfl, rfl⟩ := Prod.mk.inj (Except.ok.inj hp)
  exact h

theorem skipOne?_skipTrivia (c : Cursor) : skipOne? (skipTrivia c).2 = none := by
  fun_induction skipTrivia c with
  | case1 c h => exact h
  | case2 c newline c' h newlines c'' hs ih =>
    rw [hs] at ih
    exact ih

theorem tokenHere_punctuator {c c' : Cursor} {mark : Punctuator}
    (h : tokenHere c = (.punctuator mark, c')) : ∃ cs, c.rest = mark.text.toList ++ cs := by
  obtain ⟨first, cs, hc, hby⟩ := tokenHere_by h (by simp)
  cases hby with
  | punctuator hlongest =>
    have hstarts := List.find?_some hlongest
    simp only [Punctuator.startsAt, Bool.and_eq_true, List.isPrefixOf_iff_prefix] at hstarts
    obtain ⟨cs, hcs⟩ := hstarts.1
    exact ⟨cs, hcs.symm⟩

/-- Where a slash is read, neither a slash nor a star follows. -/
theorem State.Normal.rest_of_slash {s : State} (h : s.Normal)
    (hk : s.current.kind = .punctuator .slash ∨ s.current.kind = .punctuator .slashEqual) :
    ∃ cs, (skipTrivia s.before).2.rest = '/' :: cs ∧ cs.head? ≠ some '/' ∧ cs.head? ≠ some '*' := by
  have hskip := skipOne?_skipTrivia s.before
  obtain ⟨cs, hcs⟩ : ∃ cs, (skipTrivia s.before).2.rest = '/' :: cs := by
    rcases hk with hk | hk
    · exact tokenHere_punctuator (hk ▸ h.tokenHere.1)
    · obtain ⟨cs, hcs⟩ := tokenHere_punctuator (hk ▸ h.tokenHere.1)
      exact ⟨_, hcs⟩
  refine ⟨cs, hcs, ?_, ?_⟩
  all_goals
    intro hhead
    obtain ⟨r, rfl⟩ := List.head?_eq_some_iff.mp hhead
    simp [skipOne?, hcs] at hskip

section

variable {g : Grammar}

theorem ensures_regExp {c : Context} {s : State} (hs : s.Normal)
    (hk : s.current.kind = .punctuator .slash ∨ s.current.kind = .punctuator .slashEqual) :
    Ensures Grammar.regExp c s fun n s' => Made s s' [n] ∧ Derives c.inGenerator .expression n := by
  refine .bind (.here (.bind (.rescan ?_)))
  split
  · rename_i pattern flags hread
    have hm : Made s (s.rescanned rescanRegExp).next [] :=
      ⟨State.normal_next _, .nil (Nat.le_refl _)⟩
    refine .bind (.advance (.node fun span => ⟨hm.node rfl span, .literal ?_⟩))
    obtain ⟨cs, hcs, hslash, hstar⟩ := hs.rest_of_slash hk
    obtain ⟨hbody, hflags, hmoves⟩ := regExpBody_takes (Prod.ext (by exact hread) rfl)
    refine ⟨?_, hbody, hflags⟩
    have hrest := hmoves.rest
    simp only [Cursor.advance, hcs] at hrest
    cases hp : pattern.toList with
    | nil =>
      rw [hp] at hrest
      rw [hrest] at hslash
      exact absurd rfl hslash
    | cons ch p =>
      rw [hp] at hrest
      rw [hrest] at hslash hstar
      exact ⟨ch, rfl, fun h => hslash (by simp [h]), fun h => hstar (by simp [h])⟩
  · exact .unexpected

/-! ## Templates -/

/-- The last chunk of a template closes it and the others do not. -/
theorem TemplateChunks.concat {chunks : List Chunk} {chunk : Chunk}
    (h : ∀ q ∈ chunks, q.Spelled false) (hlast : chunk.Spelled true) :
    TemplateChunks (chunks ++ [chunk]) chunks.length := by
  induction chunks with
  | nil => exact .last hlast
  | cons q qs ih =>
    exact .more (h q List.mem_cons_self) (ih fun q' hq' => h q' (List.mem_cons_of_mem _ hq'))

theorem State.Normal.chunk {s : State} (h : s.Normal) {chunk : Chunk} {closes : Bool}
    (hk : s.current.kind = .template chunk closes) : chunk.Spelled closes := by
  obtain ⟨cs, -, hread⟩ := tokenHere_template (hk ▸ h.tokenHere.1)
  exact (templateChunk_takes hread).2

theorem State.chunk_rescanned {s : State} {chunk : Chunk} {closes : Bool}
    (hk : (s.rescanned rescanTemplate).current.kind = .template chunk closes) :
    chunk.Spelled closes :=
  (templateChunk_takes (Prod.ext (by exact hk) rfl)).2

theorem sound_template (hg : g.Sound) : Sound .template g.template := by
  intro c s hs
  refine .bind (.here ?_)
  refine .step (P := fun r s' => Made s s' r.2 ∧ TemplateChunks r.1 r.2.length ∧
    ∀ e ∈ r.2, Derives c.inGenerator .expression e) ?_ ?_
  · -- between two rounds the token to look at may be a chunk that was read again
    refine .loop (fun r s' => Within s.nextId s'.nextId (idsOf r.2) ∧ r.1.length = r.2.length ∧
      (∀ q ∈ r.1, q.Spelled false) ∧ (∀ e ∈ r.2, Derives c.inGenerator .expression e) ∧
      ∀ chunk closes, s'.current.kind = .template chunk closes → chunk.Spelled closes) ?_ ?_
    · exact ⟨.nil (Nat.le_refl _), rfl, nofun, nofun, fun _ _ h => hs.chunk h⟩
    · rintro ⟨quasis, expressions⟩ s1 ⟨hw, hl, hq, he, hchunk⟩
      have hm : Made s s1.next expressions := ⟨s1.normal_next, hw⟩
      refine .bind (.current ?_)
      split
      · rename_i chunk closes hk
        have hspelled := hchunk chunk closes hk
        refine .bind (.advance (.ite (fun hc => .pure ?_) fun hc => ?_))
        · subst hc
          exact ⟨hm, hl ▸ .concat hq hspelled, he⟩
        · rw [Bool.not_eq_true] at hc
          subst hc
          refine .step (.withIn (sound_expression hg _ _ hm.normal)) ?_
          rintro e s2 ⟨hm2, hd⟩
          refine .bind (.sees (.ite (fun _ => .bind (.rescan ?_)) fun _ => .bind .unexpected))
          split
          · exact .fail
          · refine .pure ⟨(hm.append hm2).within, by simp [hl], ?_, ?_, ?_⟩
            · exact forall_mem_concat hq hspelled
            · exact forall_mem_concat he hd
            · exact fun _ _ => State.chunk_rescanned
      · exact .unexpected
  · rintro ⟨quasis, expressions⟩ s1 ⟨hm, hq, he⟩
    exact .node fun span => ⟨hm.node rfl span, .template hq he⟩

/-! ## Arrays and objects -/

theorem sound_spreadOrAssignment (hg : g.Sound) : Sound .argument g.spreadOrAssignment := by
  intro c s hs
  refine .bind (.here (.bind (.eat (fun _ => .ite (fun _ => ?_) (absurd rfl)) fun _ =>
    .ite nofun fun _ => ?_)))
  · refine .step (hg.assignment _ _ s.normal_next) ?_
    rintro e s1 ⟨hm, hd⟩
    exact .node fun span => ⟨((Made.start hs).next.append hm).node rfl span, .spreadElement hd⟩
  · exact (hg.assignment c s hs).mono fun n s' h => ⟨h.1, .plainArgument h.2⟩

theorem ensures_arrayLiteral (hg : g.Sound) {c : Context} {s : State} (hs : s.Normal) :
    Ensures g.arrayLiteral c s fun n s' =>
      Made s s' [n] ∧ Derives c.inGenerator .expression n := by
  refine .bind (.here (.bind (.advance ?_)))
  refine .step (P := fun es s' => Made s s' (es.filterMap id) ∧
    ∀ e ∈ es, ∀ n, e = some n → Derives c.inGenerator .argument n) (.withIn ?_) ?_
  · refine .listUntil _ ⟨(Made.start hs).next, nofun⟩ (fun _ _ h => h) ?_
    rintro es s1 ⟨hm, hd⟩
    refine .bind (.eat (fun _ => .ite (fun _ => .pure ?_) (absurd rfl)) fun _ =>
      .ite nofun fun _ => ?_)
    · exact ⟨by simpa using hm.next, forall_mem_concat hd nofun⟩
    · refine .step (sound_spreadOrAssignment hg _ s1 hm.normal) ?_
      rintro n s2 ⟨hn, hdn⟩
      have hd' : ∀ e ∈ es ++ [some n], ∀ m, e = some m → Derives c.inGenerator .argument m := by
        refine forall_mem_concat hd ?_
        rintro m ⟨⟩
        exact hdn
      have hm' := hm.append_of_eq (l := (es ++ [some n]).filterMap id) hn (by simp)
      exact .bind (.commaUnless (.pure ⟨hm'.next, hd'⟩) (.pure ⟨hm', hd'⟩))
  · rintro es s1 ⟨hm, hd⟩
    exact .bind (.expect fun _ => .node fun span => ⟨hm.next.node rfl span, .arrayExpression hd⟩)

theorem sound_objectMember (hg : g.Sound) : Sound .objectMember g.objectMember := by
  intro c s hs
  refine .bind (.here (.bind (.eat (fun _ => .ite (fun _ => ?_) (absurd rfl)) fun _ =>
    .ite nofun fun _ => ?_)))
  · refine .step (hg.assignment _ _ s.normal_next) ?_
    rintro e s1 ⟨hm, hd⟩
    exact .node fun span => ⟨((Made.start hs).next.append hm).node rfl span, .spreadMember hd⟩
  refine .step (ensures_modifiers hs) ?_
  rintro ⟨isAsync, isGenerator, accessor⟩ s1 ⟨h1, hplain⟩
  refine .step (P := fun short s' => s' = s1 ∧ (short = true →
    (∃ name, s1.current.kind = .identifier name) ∨ s1.current.kind = .keyword .kwAsync))
    (.atBindingName (fun h => ⟨rfl, fun _ => h⟩) ⟨rfl, nofun⟩) ?_
  rintro short s2 ⟨rfl, hshort⟩
  refine .step (ensures_propertyKey hg h1.normal) ?_
  rintro ⟨key, computed⟩ s3 ⟨h3, hk, hkey⟩
  have hm := h1.append h3
  refine .bind (.sees (.ite (fun _ => ?_) fun hno => ?_))
  · refine .step (ensures_method hg h3.normal isAsync isGenerator
      (decide (accessor = .plain)) fun h => hplain (of_decide_eq_false h)) ?_
    rintro value s4 ⟨h4, hv⟩
    exact .node fun span => ⟨(hm.append h4).node rfl span, .methodMember rfl hk hv⟩
  obtain rfl : accessor = .plain := by
    simp only [Bool.or_eq_true, decide_eq_true_eq, not_or] at hno
    exact Decidable.not_not.mp hno.1.1.1
  refine .bind (.eat (fun _ => .ite (fun _ => ?_) (absurd rfl)) fun _ => .ite nofun fun _ => ?_)
  · refine .step (hg.assignment _ _ s3.normal_next) ?_
    rintro value s4 ⟨h4, hv⟩
    exact .node fun span => ⟨(hm.next.append h4).node rfl span, .valueMember hk hv⟩
  refine .ite (fun _ => .bind .unexpected) fun hb => ?_
  simp only [Bool.or_eq_true, Bool.not_eq_true', not_or, Bool.not_eq_false, Bool.not_eq_true] at hb
  obtain ⟨id, span, name, rfl, hname⟩ := hkey hb.2 (hshort hb.1)
  obtain rfl := hb.2
  refine .step (ensures_shorthandValue hg h3.normal id span name) ?_
  rintro value s4 ⟨h4, hv⟩
  exact .node fun _ => ⟨(hm.append h4).node rfl _, .shorthandMember hname hv⟩

theorem ensures_objectLiteral (hg : g.Sound) {c : Context} {s : State} (hs : s.Normal) :
    Ensures g.objectLiteral c s fun n s' =>
      Made s s' [n] ∧ Derives c.inGenerator .expression n := by
  refine .bind (.here (.bind (.advance ?_)))
  refine .step (P := fun ps s' => Made s s' ps ∧
    ∀ p ∈ ps, Derives c.inGenerator .objectMember p) (.withIn ?_) ?_
  · refine .listUntil _ ⟨(Made.start hs).next, nofun⟩ (fun _ _ h => h) ?_
    rintro ps s1 ⟨hm, hd⟩
    refine .step (sound_objectMember hg _ s1 hm.normal) ?_
    rintro p s2 ⟨hp, hdp⟩
    have hd' := forall_mem_concat hd hdp
    exact .bind (.commaUnless (.pure ⟨(hm.append hp).next, hd'⟩) (.pure ⟨hm.append hp, hd'⟩))
  · rintro ps s1 ⟨hm, hd⟩
    exact .bind (.expect fun _ => .node fun span => ⟨hm.next.node rfl span, .objectExpression hd⟩)

/-! ## Lists in parentheses -/

theorem ensures_parenthesizedItems (hg : g.Sound) {c : Context} {s : State} (hs : s.Normal) :
    Ensures g.parenthesizedItems c s fun marked s' => Made s s' (marked.map (·.1)) ∧
      (∀ m ∈ marked, IsItem c.inGenerator m.1) ∧ RestLast (marked.map (·.1)) ∧
      ∀ m ∈ marked, m.2 = false → Derives c.inGenerator .expression m.1 := by
  refine .withIn ?_
  have hend : ∀ (marked : List (Node × Bool)) s', (Made s s' (marked.map (·.1)) ∧
      ∀ m ∈ marked, Derives c.inGenerator .expression m.1) →
      Made s s' (marked.map (·.1)) ∧ (∀ m ∈ marked, IsItem c.inGenerator m.1) ∧
        RestLast (marked.map (·.1)) ∧
        ∀ m ∈ marked, m.2 = false → Derives c.inGenerator .expression m.1 := by
    rintro marked s' ⟨hm, hd⟩
    refine ⟨hm, fun m h => .inl (hd m h), .of_forall ?_, fun m h _ => hd m h⟩
    intro n hn
    obtain ⟨m, hmem, rfl⟩ := List.mem_map.mp hn
    exact (hd m hmem).isRest_of_expression
  refine .listUntil (fun marked s' => Made s s' (marked.map (·.1)) ∧
    ∀ m ∈ marked, Derives c.inGenerator .expression m.1) ⟨.start hs, nofun⟩ hend ?_
  rintro marked s1 ⟨hm, hd⟩
  refine .bind (.here (.bind (.eat (fun _ => .ite (fun _ => ?_) (absurd rfl)) fun _ =>
    .ite nofun fun _ => ?_)))
  · refine .step (ensures_restElement hg.bindingTarget s1.normal_next _) ?_
    rintro n s2 ⟨hn, id, span, argument, rfl, ha⟩
    refine .pure ⟨hm.next.append_of_eq hn (by simp), ?_, ?_, ?_⟩
    · exact forall_mem_concat (fun m h => .inl (hd m h)) (.inr ⟨_, _, _, rfl, ha⟩)
    · rw [List.map_append]
      refine .concat ?_ _
      intro n hn
      obtain ⟨m, hmem, rfl⟩ := List.mem_map.mp hn
      exact (hd m hmem).isRest_of_expression
    · exact forall_mem_concat (fun m h _ => hd m h) nofun
  · refine .step (hg.assignment _ s1 hm.normal) ?_
    rintro n s2 ⟨hn, hdn⟩
    refine .bind (.eat (fun _ => .bind (.sees (.pure ?_))) fun _ => .bind (.sees (.pure ?_)))
    · exact ⟨(hm.append_of_eq hn (by simp)).next, forall_mem_concat hd hdn⟩
    · exact hend _ _ ⟨hm.append_of_eq hn (by simp), forall_mem_concat hd hdn⟩

theorem ensures_parenthesized (hg : g.Sound) {c : Context} {s : State} (hs : s.Normal) :
    Ensures g.parenthesized c s fun o s' => o.Read c.inGenerator s s' := by
  refine .bind (.here (.bind (.advance ?_)))
  refine .step (ensures_parenthesizedItems hg s.normal_next) ?_
  rintro marked s1 ⟨hm, hitems, hrest, hplain⟩
  have hm1 := ((Made.start hs).next.append hm).next
  have hitem : ∀ i ∈ marked.map (·.1), IsItem c.inGenerator i := by
    intro i hi
    obtain ⟨m, hmem, rfl⟩ := List.mem_map.mp hi
    exact hitems m hmem
  refine .bind (.expect fun _ => .bind (.sees (.ite (fun _ => .bind .unexpected) fun hno => ?_)))
  have harrow : ((marked.map (·.1)).isEmpty || marked.any (·.2)) = true →
      s1.next.current.kind = .punctuator .arrow := by
    intro hneeds
    rw [hneeds, Bool.true_and, Bool.not_eq_true', Bool.not_eq_false, decide_eq_true_eq] at hno
    exact hno
  split
  · rename_i item hlist hneeds
    rw [Bool.or_eq_false_iff, List.any_eq_false] at hneeds
    have hsingle : ∃ m, marked = [m] ∧ m.1 = item := by
      match marked, hlist with
      | [m], h => exact ⟨m, rfl, (List.cons.inj h).1⟩
    obtain ⟨m, rfl, rfl⟩ := hsingle
    refine .pure ⟨hm1, ?_, fun _ => hplain m List.mem_cons_self ?_⟩
    · rintro items ⟨⟩
      exact .list hitem hrest (.inl rfl)
    · simpa using hneeds.2 m List.mem_cons_self
  · rename_i hnot
    refine .bind (.node fun span => .pure ⟨hm1.node rfl span, ?_, ?_⟩)
    · rintro items ⟨⟩
      exact .list hitem hrest (.inr rfl)
    · intro hno'
      have hneeds : ((marked.map (·.1)).isEmpty || marked.any (·.2)) = false := by
        rw [← Bool.not_eq_true]
        exact fun h => hno' (harrow h)
      have hmarks := Bool.or_eq_false_iff.mp hneeds
      refine .sequenceExpression ?_ ?_
      · match marked, hmarks.1, hneeds, hnot with
        | [m], _, hneeds, hnot => exact (hnot m.1 rfl hneeds).elim
        | _ :: _ :: _, _, _, _ => simp
      · intro e he
        obtain ⟨m, hmem, rfl⟩ := List.mem_map.mp he
        exact hplain m hmem (by simpa using List.any_eq_false.mp hmarks.2 m hmem)

/-! ## Operands -/

theorem ensures_importExpression (hg : g.Sound) {c : Context} {s : State} (hs : s.Normal) :
    Ensures g.importExpression c s fun n s' =>
      Made s s' [n] ∧ Derives c.inGenerator .expression n := by
  have h1 := (Made.start hs).next
  refine .bind (.here (.bind (.advance (.bind (.eat (fun _ => .ite (fun _ => ?_) (absurd rfl))
    fun _ => .ite nofun fun _ => ?_)))))
  · exact .bind (.expectName fun _ => .node fun span => ⟨h1.next.next.node rfl span, .metaProperty⟩)
  refine .bind (.expect fun _ => .step (.withIn (hg.assignment _ _ (State.normal_next _))) ?_)
  rintro source s2 ⟨hm, hd⟩
  have h2 := h1.next.append hm
  refine .bind (.eat (fun _ => .bind (.expect fun _ => ?_)) fun _ => .bind (.expect fun _ => ?_))
  · exact .node fun span => ⟨h2.next.next.node rfl span, .importExpression hd⟩
  · exact .node fun span => ⟨h2.next.node rfl span, .importExpression hd⟩

theorem Ensures.startsAsyncFunction {c : Context} {s : State} {Q : Bool → State → Prop}
    (h : ∀ b, (b = true → s.current.kind = .keyword .kwAsync ∧
      (nextToken s.behind).1.kind = .keyword .kwFunction) → Q b s) :
    Ensures Grammar.startsAsyncFunction c s Q := by
  refine .bind (.peek (.bind (.seesWord (.pure (h _ fun hb => ?_)))))
  simp only [Bool.and_eq_true, decide_eq_true_eq] at hb
  exact ⟨hb.1.1, hb.1.2⟩

/-- An operand that is no list in parentheses and no call is an expression. -/
theorem Ensures.operand {p : Parser Node} {c : Context} {s : State}
    (h : Ensures p c s fun n s' => Made s s' [n] ∧ Derives c.inGenerator .expression n) :
    Ensures (p >>= fun n => Pure.pure (⟨n, none⟩ : Operand)) c s fun o s' =>
      o.Read c.inGenerator s s' := by
  refine .step h ?_
  rintro n s1 ⟨hm, hd⟩
  exact .pure ⟨hm, nofun, fun _ => hd⟩

/-- What one token is read as. -/
theorem State.Normal.atom {s : State} (h : s.Normal) {kind : Kind Node}
    (hk : Grammar.atomKind? s.current.kind s.text = some kind) :
    kind.children = [] ∧ ∀ y id span, Derives y .expression (.mk id span kind) := by
  unfold Grammar.atomKind? at hk
  split at hk
  · obtain rfl := Option.some.inj hk
    exact ⟨rfl, fun _ _ _ => .thisExpression⟩
  · obtain rfl := Option.some.inj hk
    exact ⟨rfl, fun _ _ _ => .superExpression⟩
  · rename_i name hn
    obtain rfl := Option.some.inj hk
    exact ⟨rfl, fun _ _ _ => .identifier (.name (.inr (h.isOwnName hn)))⟩
  · obtain rfl := Option.some.inj hk
    exact ⟨rfl, fun _ _ _ => .identifier (.name (.inl rfl))⟩
  · obtain rfl := Option.some.inj hk
    exact ⟨rfl, fun _ _ _ => .literal trivial⟩
  · obtain rfl := Option.some.inj hk
    exact ⟨rfl, fun _ _ _ => .literal trivial⟩
  · obtain rfl := Option.some.inj hk
    exact ⟨rfl, fun _ _ _ => .literal trivial⟩
  · obtain ⟨v, rfl, hv, -⟩ := h.literalKey hk
    exact ⟨rfl, fun _ _ _ => .literal hv⟩

/-- A function as an operand. -/
theorem ensures_functionOperand (hg : g.Sound) {c : Context} {s : State} (hs : s.Normal)
    (isAsync : Bool) (start : Nat) :
    Ensures (do
        let f ← g.function isAsync none
        return (⟨← Parser.node (.functionExpression f) start, none⟩ : Operand)) c s fun o s' =>
      o.Read c.inGenerator s s' := by
  refine .step (ensures_function hg hs isAsync none) ?_
  rintro f s1 ⟨hm, hf, -⟩
  refine .bind (.node fun span => .pure ⟨hm.node rfl span, nofun, fun _ => ?_⟩)
  exact .functionExpression hf.isName hf.isParameter hf.restLast hf.isBlock

theorem ensures_classExpression (hg : g.Sound) {c : Context} {s : State} (hs : s.Normal) :
    Ensures (g.classRule .classExpression none) c s fun n s' =>
      Made s s' [n] ∧ Derives c.inGenerator .expression n := by
  refine (ensures_classRule hg hs (fun _ => rfl) none).mono ?_
  rintro n s' ⟨hm, id, span, d, rfl, hd, -⟩
  exact ⟨hm, .classExpression hd.isName hd.isParent hd.isBody⟩

theorem sound_primary (hg : g.Sound) : SoundOperand g.primary := by
  intro c s hs
  refine .bind (.here (.bind (.startsAsyncFunction fun _ _ => .ite (fun _ => ?_) fun _ => ?_)))
  · exact .bind (.advance ((ensures_functionOperand hg s.normal_next true _).mono fun o s' h =>
      ⟨(Made.start hs).next.append h.made, h.items, h.expression⟩))
  refine .bind (.current ?_)
  split
  · rename_i hk
    exact .operand (ensures_regExp hs (.inl hk))
  · rename_i hk
    exact .operand (ensures_regExp hs (.inr hk))
  · refine .operand ((sound_template hg c s hs).mono fun n s' h => ?_)
    exact ⟨h.1, .templateLiteral h.2⟩
  · exact .operand (ensures_arrayLiteral hg hs)
  · exact .operand (ensures_objectLiteral hg hs)
  · exact ensures_parenthesized hg hs
  · exact ensures_functionOperand hg hs false _
  · exact .operand (ensures_classExpression hg hs)
  · exact .operand (ensures_importExpression hg hs)
  · refine .bind (.currentText ?_)
    split
    · rename_i atom hatom
      obtain ⟨hchildren, hd⟩ := hs.atom hatom
      refine .bind (.advance (.bind (.node fun span => .pure ⟨?_, nofun, fun _ => hd _ _ _⟩)))
      exact (Made.start hs).next.node hchildren span
    · exact .unexpected

end

end EsModule.Syntax
