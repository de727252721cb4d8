import EsModule.Proofs.Layout.Tree
import EsModule.Proofs.Pairing.Item
import EsModule.Proofs.Spacing.Tracked

/-!
# Text between two tokens does not matter

White space or a comment that is put between two tokens of a module changes nothing but spans
(`readModule_changed`). The run on the changed source goes along with the one on the source if no
token that is read is at the place (`Insertion.Clear`). The tokens that were read tell that at the
end: they stand one behind the other, and two of them stand on either side of the place.

The text between the two tokens has to stay blank. It does where no comment is cut in two
(`Trivia.insert`); inside a comment a space may keep it from ending, and behind a line comment that
is put in nothing more is read on its line.
-/

namespace EsModule.Syntax

open EsModule.Text

/-! ## The tokens that are read -/

/-- The tokens that are moved over when a module is read. A token that is read again counts as it is
read last. -/
def tokensRead (source : List Char) : List Token :=
  match readModule source with
  | .ok (_, s) => s.read.reverse
  | .error _ => []

theorem ends_moduleBody (g : Grammar) {c : Context} {s : State} :
    Ensures g.moduleBody c s fun _ s' => s'.current.kind = .eof := by
  refine .mono (.listUntil_ends (fun _ _ => True) trivial fun acc s1 _ => ?_) ?_
  · exact .step (P := fun _ _ => True) (fun _ _ _ => trivial) fun _ _ _ => .pure ⟨rfl, trivial⟩
  · exact fun _ _ h => of_decide_eq_true h.2

namespace Insertion

variable {i : Insertion}

/-! ## The start -/

theorem pos_firstCursor_mark (rest : List Char) :
    (firstCursor ('#' :: '!' :: rest)).pos =
      byteSize (('#' :: '!' :: rest).takeWhile fun ch => !isLineTerminator ch) :=
  Nat.zero_add _

theorem pos_firstCursor_of_not {source : List Char} (h : ∀ rest, source ≠ '#' :: '!' :: rest) :
    (firstCursor source).pos = 0 := by
  unfold firstCursor
  split
  · exact absurd rfl (h _)
  · rfl

theorem takeWhile_append_of_lt {p : Char → Bool} {u v : List Char}
    (h : byteSize ((u ++ v).takeWhile p) < byteSize u) (v' : List Char) :
    (u ++ v').takeWhile p = (u ++ v).takeWhile p := by
  have hends : (u.takeWhile p).length ≠ u.length := by
    intro hall
    rw [List.takeWhile_append, if_pos hall, byteSize_append] at h
    omega
  rw [List.takeWhile_append, List.takeWhile_append, if_neg hends, if_neg hends]

/-- A first line that ends in `u` is the same whatever stands behind `u`. -/
theorem pos_firstCursor_append {u v v' : List Char} (hv : Near v v')
    (h : (firstCursor (u ++ v)).pos < byteSize u) :
    (firstCursor (u ++ v')).pos = (firstCursor (u ++ v)).pos := by
  -- the mark has two characters, and the second one may stand behind `u`
  match u with
  | [] => exact absurd h (Nat.not_lt_zero _)
  | [a] =>
    have hno : ∀ rest, a :: v ≠ '#' :: '!' :: rest := by
      intro rest heq
      obtain ⟨rfl, rfl⟩ := List.cons.inj heq
      have htwo : 2 ≤ (firstCursor ('#' :: '!' :: rest)).pos := by
        rw [pos_firstCursor_mark]
        show 2 ≤ byteSize (['#', '!'] ++ rest.takeWhile _)
        rw [byteSize_append]
        exact Nat.le_add_right 2 _
      have hone : (firstCursor ('#' :: '!' :: rest)).pos < 1 := h
      omega
    have hno' : ∀ rest, a :: v' ≠ '#' :: '!' :: rest := by
      intro rest heq
      obtain ⟨rfl, rfl⟩ := List.cons.inj heq
      obtain ⟨rest', rfl⟩ := List.head?_eq_some_iff.mp (hv.head (by decide) rfl)
      exact hno rest' rfl
    exact (pos_firstCursor_of_not hno').trans (pos_firstCursor_of_not hno).symm
  | a :: b :: u =>
    by_cases hmark : a = '#' ∧ b = '!'
    · obtain ⟨rfl, rfl⟩ := hmark
      have hline := pos_firstCursor_mark (u ++ v)
      have hline' := pos_firstCursor_mark (u ++ v')
      have hlt : byteSize (('#' :: '!' :: u ++ v).takeWhile fun ch => !isLineTerminator ch) <
          byteSize ('#' :: '!' :: u) := hline ▸ h
      exact hline'.trans ((congrArg byteSize (takeWhile_append_of_lt hlt v')).trans hline.symm)
    · have hno : ∀ w rest, a :: b :: w ≠ '#' :: '!' :: rest := by
        intro w rest heq
        obtain ⟨ha, heq⟩ := List.cons.inj heq
        exact hmark ⟨ha, (List.cons.inj heq).1⟩
      exact (pos_firstCursor_of_not (hno _)).trans (pos_firstCursor_of_not (hno _)).symm

/-- The first line is left out of both sources, or of none. -/
theorem firstCursor_changed (h : (firstCursor i.source).pos < byteSize i.head) :
    firstCursor i.changed = i.cursor (firstCursor i.source) := by
  have hplace := i.head_le_place
  have hstop : i.stop (firstCursor i.source).pos = (firstCursor i.source).pos := if_neg (by omega)
  have hnear : Near (i.front ++ i.back ++ i.tail) (i.front ++ i.text ++ i.back ++ i.tail) :=
    (i.parts_text []).near
  rw [(firstCursor_at i.changed).eq_seek, cursor, hstop, changed,
    pos_firstCursor_append hnear h]
  rfl

theorem state_start (h : i.Clear (State.start i.source))
    (hlt : (firstCursor i.source).pos < byteSize i.head) :
    i.transfer.state (State.start i.source) = State.start i.changed := by
  have hplace := i.head_le_place
  have hclears : i.Clears (firstCursor i.source) := by
    by_cases hlast : (nextToken (firstCursor i.source)).1.kind.isLast = true
    · exact .last h.current hlast
    · exact .more h.current (h.ahead (Bool.not_eq_true _ ▸ hlast))
  have hnext := nextToken_cursor (firstCursor_at i.source) hclears
  have hspan : i.span ⟨0, 0⟩ = ⟨0, 0⟩ := by
    have hstart : i.start 0 = 0 := if_neg (by omega)
    have hstop : i.stop 0 = 0 := if_neg (by omega)
    rw [span, hstart, hstop, Nat.max_self]
  rw [State.start, State.start, firstCursor_changed hlt, hnext]
  exact congrArg (fun previous => State.mk _ _ _ previous _ _) hspan

variable (i) in
theorem tracked_start : i.Tracked (State.start i.source) where
  toPlaced := State.placed_start i.source
  trail := .nil
  moved := by
    have hplace := i.place_pos
    show i.start 0 ≤ i.stop 0
    rw [start, if_neg (by omega)]
    exact Nat.zero_le _
  text := nextToken_lt

/-! ## The end -/

theorem cleanRead_front {before : Nat} {ts : List Token}
    (h : Trail (firstCursor i.source).pos before ts) (hle : before ≤ byteSize i.head) :
    i.CleanRead ts := by
  induction h with
  | nil => trivial
  | cons h hstart hlt hvalid ih =>
    exact ⟨⟨hvalid, .inl ⟨hlt, .inl hle⟩⟩, ih (by omega)⟩

/-- If two tokens stand on either side of the place, no token is at the place. -/
theorem cleanRead_around {before : Nat} {t t' : Token} {front behind : List Token}
    (hstop : t.span.stop = byteSize i.head) (hstart : t'.span.start = i.resume)
    (h : Trail (firstCursor i.source).pos before (behind ++ t' :: t :: front)) :
    i.CleanRead (behind ++ t' :: t :: front) ∧ i.resume < before ∧
      (firstCursor i.source).pos < byteSize i.head := by
  induction behind generalizing before with
  | nil =>
    cases h with
    | cons h hle hlt hvalid =>
      have hend : t.span.stop = _ := h.endOf_eq
      have hfront := cleanRead_front h (by omega)
      refine ⟨⟨⟨hvalid, .inl ⟨hlt, .inr ⟨hstop, hstart⟩⟩⟩, hfront⟩, by omega, ?_⟩
      cases h with
      | cons h hle' hlt' _ =>
        have hfirst := h.le
        omega
  | cons u behind ih =>
    cases h with
    | cons h hle hlt hvalid =>
      obtain ⟨hread, hresume, hfirst⟩ := ih h
      refine ⟨⟨⟨hvalid, .inr ?_⟩, hread⟩, by omega, hfirst⟩
      rw [h.endOf_eq]
      exact hresume

theorem byteSize_changed : byteSize i.changed = byteSize i.source + i.size := by
  simp only [changed, source, size, byteSize_append]
  omega

theorem length_le : i.source.length ≤ i.changed.length := by
  simp only [changed, source, List.length_append]
  omega

end Insertion

/-! ## Modules -/

/-- The items of the changed source are those of the source, moved. -/
theorem readModule_changed (i : Insertion) {items : List Node} {s : State}
    (h : readModule i.source = .ok (items, s)) {t t' : Token}
    (ht : [t, t'] <:+: s.read.reverse) (hstop : t.span.stop = byteSize i.head)
    (hstart : t'.span.start = i.resume) :
    readModule i.changed = .ok (items.map i.node, i.transfer.state s) ∧
      i.place < byteSize i.source := by
  obtain ⟨front, behind, hread⟩ := ht
  -- tokens are kept with the last one in front
  have hread : s.read = behind.reverse ++ t' :: t :: front.reverse := by
    rw [← List.reverse_reverse s.read, ← hread]
    simp
  have hlength := i.length_le
  have hdepth : i.pairing.Reaches (2 * (i.source.length + 1) + 1) (depthBound i.source)
      (depthBound i.changed) := by
    refine ⟨.inr ?_, nofun, nofun⟩
    unfold depthBound
    omega
  have hplaced := State.placed_start i.source
  have hsuits : Context.Suits (State.start i.source) ⟨true, false, i.source.length + 2⟩
      ⟨true, false, i.changed.length + 2⟩ := hplaced.suits (by omega) (by omega)
  obtain ⟨htracked, -, -, hechoes⟩ := ((follows_moduleBody (follows_ofDepth hdepth)).echoes _
    (Nat.lt_succ_of_le hplaced.left_le) i.tracked_start _ _ hsuits).1 _ _ h
  have htrail := htracked.trail
  rw [hread] at htrail
  obtain ⟨hclean, hresume, hfirst⟩ := Insertion.cleanRead_around hstop hstart htrail
  have hend : s.current.kind = .eof := ends_moduleBody _ _ _ h
  have hclear : i.Clear s := by
    refine ⟨⟨?_, .inr hresume⟩, hread ▸ hclean, ?_⟩
    · rw [hend]
      exact nofun
    · rw [hend]
      exact nofun
  obtain ⟨hclear', hrun⟩ := hechoes hclear
  have hbegin : i.pairing.state (State.start i.source) = _ := Insertion.state_start hclear' hfirst
  rw [hbegin] at hrun
  refine ⟨hrun, ?_⟩
  have hplace := i.place_le_resume
  obtain ⟨read, hsource, hpos⟩ := htracked.before
  rw [hsource, byteSize_append]
  omega

/-- **White space or a comment between two tokens of a module moves its tree and changes nothing
else.** -/
theorem parseModule_changed (i : Insertion) {file : String} {root : Node}
    (h : parseModule (String.ofList i.source) file = .ok root) {t t' : Token}
    (ht : [t, t'] <:+: tokensRead i.source) (hstop : t.span.stop = byteSize i.head)
    (hstart : t'.span.start = i.resume) :
    parseModule (String.ofList i.changed) file = .ok (i.node root) := by
  rw [parseModule_eq_ok, String.toList_ofList] at h ⊢
  obtain ⟨items, s, hread, rfl⟩ := h
  rw [tokensRead, hread] at ht
  obtain ⟨hagain, hplace⟩ := readModule_changed i hread ht hstop hstart
  refine ⟨_, _, hagain, ?_⟩
  have hpos := i.place_pos
  have hspan : i.span ⟨0, byteSize i.source⟩ = ⟨0, byteSize i.changed⟩ := by
    have hfirst : i.start 0 = 0 := if_neg (by omega)
    have hlast : i.stop (byteSize i.source) = byteSize i.changed := by
      rw [Insertion.stop, if_pos hplace, Insertion.byteSize_changed]
    rw [Insertion.span, hfirst, hlast, Nat.max_eq_left (Nat.zero_le _)]
  rw [Insertion.node, Node.mapSpans_mk, hspan]
  rfl

/-- A comment in front of a line end and the brace that ends a value inside a template. -/
def Insertion.inTemplate : Insertion where
  head := "x = `$\x7ba".toList
  front := []
  text := " /* b */ ".toList
  back := "\n".toList
  tail := "\x7d`;".toList
  behindToken := nofun
  space := rfl
  line := by decide
  blank := by
    have hspace : isBlank ' ' = true := by decide
    have hline : isLineTerminator '\n' = true := by decide
    have hbody : ¬['*', '/'] <:+: " b ".toList := by decide
    have hcomment : ∀ r, Trivia r ([' '] ++ (('/' :: '*' :: " b ".toList ++ ['*', '/']) ++
        ([' '] ++ []))) :=
      fun _ => .cons (.blank hspace) (.cons (.blockComment hbody) (.cons (.blank hspace) .nil))
    have hback : Trivia "\x7d`;".toList (['\n'] ++ []) := .cons (.lineEnd hline) .nil
    exact .insert .nil hback (by decide) hcomment (by decide)

theorem parseModule_changed_template : ∃ root,
    parseModule (String.ofList Insertion.inTemplate.source) "test.js" = .ok root ∧
    parseModule (String.ofList Insertion.inTemplate.changed) "test.js" =
      .ok (Insertion.inTemplate.node root) := by
  have hok : (parseModule (String.ofList Insertion.inTemplate.source) "test.js").isOk = true := by
    decide +kernel
  have ht : [⟨.identifier "a", ⟨7, 8⟩, false⟩, ⟨.template ⟨some "", ""⟩ true, ⟨9, 11⟩, true⟩] <:+:
      tokensRead Insertion.inTemplate.source := by
    decide +kernel
  cases h : parseModule (String.ofList Insertion.inTemplate.source) "test.js" with
  | ok root =>
    exact ⟨root, rfl, parseModule_changed _ h ht (by decide +kernel) (by decide +kernel)⟩
  | error e =>
    rw [h] at hok
    cases hok

/-- Inside a comment even a space may change what is read, and so may a comment that goes on to the
end of the line, wherever it is put in. -/
theorem parseModule_insert_fails :
    (parseModule (String.ofList ("f(/**".toList ++ "/);".toList)) "test.js").isOk = true ∧
    (tokensRead ("f(/**".toList ++ "/);".toList)).map Token.span =
      [⟨0, 1⟩, ⟨1, 2⟩, ⟨6, 7⟩, ⟨7, 8⟩] ∧
    (parseModule (String.ofList ("f(/**".toList ++ " ".toList ++ "/);".toList))
      "test.js").isOk = false ∧
    (parseModule (String.ofList ("f(".toList ++ " // x ".toList ++ "/**/);".toList))
      "test.js").isOk = false := by
  decide +kernel

end EsModule.Syntax
