import EsModule.Proofs.Layout.Target
import EsModule.Proofs.Grammar.Primary

/-!
# Where rules lay their nodes: operands

A token that is read again starts where it started, and ends at the place behind its new text. While
the chunks of a template are read, what is kept is said of the state behind the current chunk.
-/

namespace EsModule.Syntax

open EsModule.Text

section

variable {source : List Char} {g : Grammar} {c : Context} {s s' : State} {ns : List Node}

/-! ## Reading a token again -/

/-- A punctuator that is read again stands for some other text from its first character on. -/
theorem State.Placed.rescanned {rule : Nat → Cursor → Token × Cursor} (h : s.Placed source)
    {mark : Punctuator} (hk : s.current.kind = .punctuator mark)
    (hread : (s.rescanned rule).current.kind.isReread = true)
    (hspan : ∀ start c, (rule start c).1.span = ⟨start, (rule start c).2.pos⟩)
    (hmoves : ∃ w, (skipTrivia s.before).2.advance.Moves w (s.rescanned rule).behind) :
    (s.rescanned rule).Placed source := by
  obtain ⟨cs, hcs⟩ := tokenHere_punctuator (hk ▸ (h.normal (by rw [hk]; rfl)).tokenHere.1)
  obtain ⟨first, rest, htext⟩ : ∃ first rest, mark.text.toList = first :: rest :=
    List.exists_cons_of_length_pos (String.length_toList ▸ mark.length_text_pos)
  rw [htext, List.cons_append] at hcs
  obtain ⟨w, hm⟩ := hmoves
  refine ⟨h.before, ⟨_, (Cursor.moves_advance hcs).trans hm⟩, ?_, ?_, h.previous⟩
  · have hstart := congrArg Span.start h.span
    exact (hspan _ _).trans (congrArg (Span.mk · _) hstart)
  · intro hnot
    rw [hread] at hnot
    cases hnot

theorem lays_regExp (hs : s.Ready source)
    (hk : s.current.kind = .punctuator .slash ∨ s.current.kind = .punctuator .slashEqual) :
    Ensures Grammar.regExp c s fun n s' => Laid source s s' [n] := by
  refine .bind (.here (.bind (.rescan ?_)))
  split
  · rename_i pattern flags hread
    obtain ⟨cs, hcs, -⟩ := hs.read.rest_of_slash hk
    have hmoves := (regExpBody_takes (Prod.ext (by exact hread) rfl)).2.2
    have hplaced : ∀ mark, s.current.kind = .punctuator mark →
        (s.rescanned rescanRegExp).Placed source := fun mark hmark =>
      hs.rescanned hmark (by rw [hread]; rfl) (fun _ _ => rfl) ⟨_, hmoves⟩
    have hover := (Begun.refl hs).movesOver (hk.elim (hplaced _) (hplaced _)) rfl rfl
    refine .bind (.advance (hover.makesWorded rfl nofun fun _ => ?_))
    have hcovers := covers_of_moves hs.start_at ((Cursor.moves_advance hcs).trans hmoves)
    rw [← hs.start_eq] at hcovers
    exact hcovers
  · exact .unexpected

/-! ## Templates -/

theorem State.Placed.rescannedTemplate (h : s.Placed source)
    (hk : s.current.kind = .punctuator .rightBrace)
    (hvalid : ∀ cause, (s.rescanned rescanTemplate).current.kind ≠ .invalid cause) :
    (s.rescanned rescanTemplate).Placed source := by
  cases templateChunk_gives (skipTrivia s.before).2.advance with
  | inl ht =>
    obtain ⟨chunk, closes, ht⟩ := ht
    have hread : (s.rescanned rescanTemplate).current.kind = .template chunk closes := ht
    refine h.rescanned hk (by rw [hread]; rfl) (fun _ _ => rfl) ?_
    exact ⟨_, (templateChunk_takes (Prod.ext ht rfl)).1⟩
  | inr hi =>
    obtain ⟨cause, hi⟩ := hi
    exact absurd hi (hvalid cause)

/-- A chunk covers its text between the delimiters, the first of which was read before. -/
theorem covers_chunk {c c' : Cursor} {chunk : Chunk} {closes : Bool} {opening : Char}
    {cs : List Char} (h : c.At source) (hc : c.rest = opening :: cs)
    (hread : templateChunk c.advance = (.template chunk closes, c')) :
    Span.Covers source (opening :: chunk.raw.toList ++ chunkEnd closes) ⟨c.pos, c'.pos⟩ :=
  covers_of_moves h ((Cursor.moves_advance hc).trans (templateChunk_takes hread).1)

/-- The current token is the chunk behind the chunks and substitutions that were read, if it is a
chunk at all. -/
def State.AtChunk (source : List Char) (start : Nat) (quasis : List Chunk) (expressions : List Node)
    (s : State) : Prop :=
  ∃ opening low, ChunksUpTo source start quasis (expressions.map Node.span) opening low ∧
    ∀ chunk closes, s.current.kind = .template chunk closes →
      Span.Covers source (opening :: chunk.raw.toList ++ chunkEnd closes)
        ⟨low, s.current.span.stop⟩

theorem State.Ready.atChunk (h : s.Ready source) :
    s.AtChunk source s.current.span.start [] [] := by
  refine ⟨_, _, .first, fun chunk closes hk => ?_⟩
  obtain ⟨cs, hcs, hread⟩ := tokenHere_template (hk ▸ h.read.tokenHere.1)
  have hcovers := covers_chunk h.start_at hcs hread
  rw [h.span]
  exact hcovers

/-- Behind a substitution the next chunk is read from the brace on. -/
theorem State.AtChunk.rescanned {start : Nat} {quasis : List Chunk} {expressions : List Node}
    {chunk : Chunk} {e : Node} (h : s.AtChunk source start quasis expressions)
    (hk : s.current.kind = .template chunk false) (hs : s.Placed source)
    (he : Laid source s.next s' [e]) (hb : s'.current.kind = .punctuator .rightBrace) :
    (s'.rescanned rescanTemplate).AtChunk source start (quasis ++ [chunk])
      (expressions ++ [e]) := by
  obtain ⟨opening, low, hupTo, hchunk⟩ := h
  obtain ⟨hlow, hle, hhigh⟩ := he.ordered.inside e.span List.mem_cons_self
  have hbefore : s.current.span.stop ≤ s.next.current.span.start := hs.next.previous_le
  have hbehind := he.placed.previous_le
  refine ⟨'}', s'.current.span.start, ?_, fun chunk' closes hk' => ?_⟩
  · rw [List.map_append]
    exact hupTo.more (hchunk chunk false hk)
      ⟨Nat.le_trans hbefore hlow, hle, Nat.le_trans hhigh hbehind⟩
  · obtain ⟨cs, hcs⟩ := tokenHere_punctuator (hb ▸ he.placed.read.tokenHere.1)
    have hcovers := covers_chunk he.placed.start_at hcs (Prod.ext (by exact hk') rfl)
    rw [← he.placed.start_eq] at hcovers
    exact hcovers

theorem lays_template (hg : g.Lays source) : Lays source g.template := by
  intro c s hs
  refine .bind (.here ?_)
  refine .step (P := fun r s' => Laid source s s' r.2 ∧
    (Laid.whole s s').CoversTemplate source r.1 (r.2.map Node.span)) ?_ ?_
  · -- what is laid is said of the state behind the chunk, which may have been read again
    refine .loop (fun r s' => s'.Placed source ∧ Laid source s s'.next r.2 ∧
      s'.AtChunk source s.current.span.start r.1 r.2) ?_ ?_
    · exact ⟨hs.toPlaced, (Begun.refl hs).next, hs.atChunk⟩
    rintro ⟨quasis, expressions⟩ s1 ⟨hs1, h1, hchunk⟩
    refine .bind (.current ?_)
    split
    · rename_i chunk closes hk
      refine .bind (.advance (.ite (fun hcloses => .pure ⟨h1, ?_⟩) fun hcloses => ?_))
      · subst hcloses
        obtain ⟨opening, low, hupTo, hlast⟩ := hchunk
        exact ⟨quasis, chunk, opening, low, rfl, hupTo, hlast chunk true hk⟩
      rw [Bool.not_eq_true] at hcloses
      subst hcloses
      refine .step (.withIn (lays_expression hg _ _ h1.placed)) ?_
      intro e s2 he
      have h2 := h1.append he
      refine .bind (.sees (.ite (fun hb => .bind (.rescan ?_)) fun _ => .bind .unexpected))
      have hb := of_decide_eq_true hb
      split
      · exact .fail
      · rename_i hvalid
        have hplaced := h2.placed.rescannedTemplate hb hvalid
        exact .pure ⟨hplaced, h2.grow ((Begun.refl h2.placed).movesOver hplaced rfl rfl),
          hchunk.rescanned hk hs1 he hb⟩
    · exact .unexpected
  · intro r s1 h1
    exact h1.1.makesWorded rfl nofun fun _ => h1.2

/-! ## Arrays and objects -/

theorem lays_spreadOrAssignment (hg : g.Lays source) : Lays source g.spreadOrAssignment := by
  intro c s hs
  refine .bind (.here (.bind (.eat (fun _ => .ite (fun _ => ?_) (absurd rfl)) fun _ =>
    .ite nofun fun _ => hg.assignment c s hs)))
  refine .step (hg.assignment _ _ hs.next) ?_
  intro e s1 he
  exact ((Begun.refl hs).next.append he).makes rfl rfl

theorem lays_arrayLiteral (hg : g.Lays source) : Lays source g.arrayLiteral := by
  intro c s hs
  refine .bind (.here (.bind (.advance ?_)))
  refine .step (P := fun es s' => Laid source s s' (es.filterMap id)) (.withIn ?_) ?_
  · refine .listUntil _ (Begun.refl hs).next (fun _ _ h => h) ?_
    intro es s1 hes
    refine .bind (.eat (fun _ => .ite (fun _ => .pure ?_) (absurd rfl)) fun _ =>
      .ite nofun fun _ => ?_)
    · exact hes.next.of_eq (by simp)
    · refine .step (lays_spreadOrAssignment hg _ s1 hes.placed) ?_
      intro n s2 hn
      have hmore : Laid source s s2 ((es ++ [some n]).filterMap id) :=
        (hes.append hn).of_eq (by simp)
      exact .bind (.commaUnless (.pure hmore.next) (.pure hmore))
  · intro es s1 hes
    exact .bind (.expect fun _ => hes.next.makes rfl rfl)

theorem lays_objectMember (hg : g.Lays source) : Lays source g.objectMember := by
  intro c s hs
  refine .bind (.here (.bind (.eat (fun _ => .ite (fun _ => ?_) (absurd rfl)) fun _ =>
    .ite nofun fun _ => ?_)))
  · refine .step (hg.assignment _ _ hs.next) ?_
    intro e s1 he
    exact ((Begun.refl hs).next.append he).makes rfl rfl
  refine .step (begun_modifiers (.refl hs)) ?_
  intro modifiers s1 h1
  refine .step (P := fun short s' => s' = s1 ∧ (short = true →
    (∃ name, s1.current.kind = .identifier name) ∨ s1.current.kind = .keyword .kwAsync))
    (.atBindingName (fun h => ⟨rfl, fun _ => h⟩) ⟨rfl, nofun⟩) ?_
  intro short s2 h
  obtain ⟨rfl, hshort⟩ := h
  refine .step (lays_propertyKey hg h1.placed) ?_
  intro r s3 h
  obtain ⟨key, computed⟩ := r
  obtain ⟨hkey, hplain⟩ := h
  have h3 := h1.laid hkey
  refine .bind (.sees (.ite (fun _ => ?_) fun _ => ?_))
  · refine .step (lays_method hg _ _ c s3 h3.placed) ?_
    intro value s4 hv
    exact (h3.append hv).makes rfl rfl
  refine .bind (.eat (fun _ => .ite (fun _ => ?_) (absurd rfl)) fun _ => .ite nofun fun _ => ?_)
  · refine .step (hg.assignment _ _ h3.placed.next) ?_
    intro value s4 hv
    exact (h3.next.append hv).makes rfl rfl
  refine .ite (fun _ => .bind .unexpected) fun hb => ?_
  simp only [Bool.or_eq_true, Bool.not_eq_true', not_or, Bool.not_eq_false, Bool.not_eq_true] at hb
  obtain ⟨id, span, name, rfl, hstart⟩ := hplain hb.2 (hshort hb.1)
  refine .step (lays_shorthandValue hg hkey hstart) ?_
  intro value s4 h
  obtain ⟨hk, hv⟩ := h
  exact (h1.laid hk).makesShorthand (h1.laid hv) _ _ _

theorem lays_objectLiteral (hg : g.Lays source) : Lays source g.objectLiteral := by
  intro c s hs
  refine .bind (.here (.bind (.advance ?_)))
  refine .step (P := fun ps s' => Laid source s s' ps) (.withIn ?_) ?_
  · refine .listUntil _ (Begun.refl hs).next (fun _ _ h => h) ?_
    intro ps s1 hps
    refine .step (lays_objectMember hg _ s1 hps.placed) ?_
    intro p s2 hp
    exact .bind (.commaUnless (.pure (hps.append hp).next) (.pure (hps.append hp)))
  · intro ps s1 hps
    exact .bind (.expect fun _ => hps.next.makes rfl rfl)

/-! ## Lists in parentheses -/

theorem lays_parenthesizedItems (hg : g.Lays source) (h : Laid source s s' []) :
    Ensures g.parenthesizedItems c s' fun marked s'' =>
      Laid source s s'' (marked.map (·.1)) := by
  refine .withIn (.listUntil (fun marked s'' => Laid source s s'' (marked.map (·.1))) h
    (fun _ _ h => h) ?_)
  intro marked s1 hm
  have hmore : ∀ {n s2} (mark : Bool), Laid source s1 s2 [n] →
      Laid source s s2 ((marked ++ [(n, mark)]).map (·.1)) := fun mark hn =>
    (hm.append hn).of_eq (by simp)
  refine .bind (.here (.bind (.eat (fun _ => .ite (fun _ => ?_) (absurd rfl)) fun _ =>
    .ite nofun fun _ => ?_)))
  · refine .step (lays_restElement hg.bindingTarget hm.placed) ?_
    intro n s2 hn
    exact .pure (hmore _ hn)
  · refine .step (hg.assignment _ s1 hm.placed) ?_
    intro n s2 hn
    exact .bind (.eat (fun _ => .bind (.sees (.pure (hmore _ hn).next)))
      fun _ => .bind (.sees (.pure (hmore _ hn))))

theorem lays_parenthesized (hg : g.Lays source) : LaysOperand source g.parenthesized := by
  intro c s hs
  refine .bind (.here (.bind (.advance ?_)))
  refine .step (lays_parenthesizedItems hg (Begun.refl hs).next) ?_
  intro marked s1 hm
  refine .bind (.expect fun _ => .bind (.sees (.ite (fun _ => .bind .unexpected) fun _ => ?_)))
  split
  · rename_i item hlist _
    have hitem : Laid source s s1.next [item] := hlist ▸ hm.next
    refine .pure ⟨hitem, ?_⟩
    intro items hitems
    exact Option.some.inj hitems ▸ hm.next
  · refine .bind (.nodeOf (.pure ⟨?_, ?_⟩))
    · rw [hm.next.nodeSpan]
      exact hm.next.node rfl rfl
    · intro items hitems
      exact Option.some.inj hitems ▸ hm.next.counted

/-! ## Operands -/

/-- An operand without items. -/
theorem Operand.Laid.of_node {n : Node} (h : Syntax.Laid source s s' [n]) :
    Operand.Laid source s s' ⟨n, none⟩ := ⟨h, nofun⟩

theorem lays_importExpression (hg : g.Lays source) : Lays source g.importExpression := by
  intro c s hs
  have h1 := (Begun.refl hs).next
  refine .bind (.here (.bind (.advance (.bind (.eat (fun _ => .ite (fun _ => ?_) (absurd rfl))
    fun _ => .ite nofun fun _ => ?_)))))
  · exact .bind (.expectName fun _ => h1.next.next.makes rfl rfl)
  refine .bind (.expect fun _ => .step (.withIn (hg.assignment _ _ h1.next.placed)) ?_)
  intro n s2 hn
  have h2 := h1.next.append hn
  exact .bind (.eat (fun _ => .bind (.expect fun _ => h2.next.next.makes rfl rfl))
    fun _ => .bind (.expect fun _ => h2.next.makes rfl rfl))

/-- What one token is read as. -/
theorem State.Ready.atom (hs : s.Ready source) {kind : Kind Node}
    (hk : Grammar.atomKind? s.current.kind s.text = some kind) :
    Laid source s s.next.counted [.mk s.nextId s.current.span kind] := by
  have hleaf : kind.children = [] ∧ kind.isPlain = true →
      Laid source s s.next.counted [.mk s.nextId s.current.span kind] := fun h =>
    (Begun.refl hs).next.node h.1 h.2
  unfold Grammar.atomKind? at hk
  split at hk
  · exact hleaf (Option.some.inj hk ▸ ⟨rfl, rfl⟩)
  · exact hleaf (Option.some.inj hk ▸ ⟨rfl, rfl⟩)
  · rename_i name hn
    exact Option.some.inj hk ▸ hs.name (by rw [hn]; rfl)
  · rename_i hn
    exact Option.some.inj hk ▸ hs.name (by rw [hn]; rfl)
  · exact hleaf (Option.some.inj hk ▸ ⟨rfl, rfl⟩)
  · exact hleaf (Option.some.inj hk ▸ ⟨rfl, rfl⟩)
  · exact hleaf (Option.some.inj hk ▸ ⟨rfl, rfl⟩)
  · exact hleaf (literalKey?_leaf hk)

theorem lays_operand {p : Parser Node}
    (h : Ensures p c s' fun n s'' => Laid source s s'' [n]) :
    Ensures (p >>= fun n => Pure.pure (⟨n, none⟩ : Operand)) c s' fun o s'' =>
      o.Laid source s s'' := .step h fun _ _ hn => .pure (.of_node hn)

theorem lays_functionOperand (hg : g.Lays source) (hb : Begun source s s') (isAsync : Bool) :
    Ensures (do
        let f ← g.function isAsync none
        return (⟨← Parser.node (.functionExpression f) s.current.span.start, none⟩ : Operand)) c s'
      fun o s'' => o.Laid source s s'' := by
  refine .step (lays_function hg hb isAsync none) ?_
  intro f s1 hf
  exact lays_operand (hf.makes rfl rfl)

theorem lays_primary (hg : g.Lays source) : LaysOperand source g.primary := by
  intro c s hs
  refine .bind (.here (.bind (.startsAsyncFunction fun _ _ => .ite (fun _ => ?_) fun _ => ?_)))
  · exact .bind (.advance (lays_functionOperand hg (Begun.refl hs).next.toBegun true))
  refine .bind (.current ?_)
  split
  · rename_i hk
    exact lays_operand (lays_regExp hs (.inl hk))
  · rename_i hk
    exact lays_operand (lays_regExp hs (.inr hk))
  · exact lays_operand (lays_template hg c s hs)
  · exact lays_operand (lays_arrayLiteral hg c s hs)
  · exact lays_operand (lays_objectLiteral hg c s hs)
  · exact lays_parenthesized hg c s hs
  · exact lays_functionOperand hg (.refl hs) false
  · exact lays_operand ((spans_classRule hg (fun _ => rfl) (fun _ => rfl) none).lays c s hs)
  · exact lays_operand (lays_importExpression hg c s hs)
  · refine .bind (.currentText ?_)
    split
    · rename_i atom hatom
      refine .bind (.advance (.bind (.nodeOf (.pure (.of_node ?_)))))
      rw [(Begun.refl hs).next.nodeSpan]
      exact hs.atom hatom
    · exact .unexpected

end

end EsModule.Syntax
