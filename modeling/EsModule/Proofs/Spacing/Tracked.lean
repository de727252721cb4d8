import EsModule.Proofs.Spacing.Insertion

/-!
# A source and the changed one

A rule runs on a source and, with the text put in, on the changed one. The two runs are a pairing
(`Insertion.pairing`): they go the same way as long as no token that is read is at the place. Whether
a token is read, or read again by another rule, is known at the end of a run only, so
`Insertion.Clear` is asked of the last state. The tokens that were moved over tell then.
-/

namespace EsModule.Syntax

open EsModule.Text

/-- The tokens of a list were read one behind the other, the last one first, from the offset `first`
on. All of them are text. -/
inductive Trail (first : Nat) : Nat → List Token → Prop where
  /-- No token was read. -/
  | nil : Trail first first []
  /-- One more token was read. -/
  | cons {before : Nat} {t : Token} {ts : List Token} (h : Trail first before ts)
      (hle : before ≤ t.span.start) (hlt : t.span.start < t.span.stop)
      (hvalid : ∀ cause, t.kind ≠ .invalid cause) : Trail first t.span.stop (t :: ts)

/-- Where the last of some tokens ends that were read from the offset `first` on. -/
def endOf (first : Nat) : List Token → Nat
  | [] => first
  | t :: _ => t.span.stop

theorem Trail.endOf_eq {first before : Nat} {ts : List Token} (h : Trail first before ts) :
    endOf first ts = before := by
  cases h with
  | nil => rfl
  | cons => rfl

theorem Trail.le {first before : Nat} {ts : List Token} (h : Trail first before ts) :
    first ≤ before := by
  induction h with
  | nil => exact Nat.le_refl _
  | cons h hle hlt _ ih => omega

namespace Insertion

variable (i : Insertion)

/-- Says that a state is one of a run on the source. -/
structure Tracked (s : State) : Prop extends s.Placed i.source where
  /-- The tokens that were moved over stand one behind the other. -/
  trail : Trail (firstCursor i.source).pos s.before.pos s.read
  /-- The token before covers some text in the changed source, or it is no token. -/
  moved : i.start s.previous.start ≤ i.stop s.previous.stop
  /-- So does the token to look at. -/
  text : s.current.kind.isText = true → s.current.span.start < s.current.span.stop

/-- None of the tokens that were read is at the place. -/
def CleanRead : List Token → Prop
  | [] => True
  | t :: ts => i.Clean (endOf (firstCursor i.source).pos ts) t ∧ CleanRead ts

/-- No token up to a state is at the place, and neither is one that may be looked at from there. -/
structure Clear (s : State) : Prop where
  /-- The token to look at. -/
  current : i.Clean s.before.pos s.current
  /-- The tokens that were moved over. -/
  read : i.CleanRead s.read
  /-- The tokens behind it, as far as one looks ahead. -/
  ahead : s.current.kind.isLast = false → i.Clears s.behind

variable {i} {s : State}

theorem start_le_stop {start stop : Nat} (h : start < stop) : i.start start ≤ i.stop stop := by
  unfold Insertion.start Insertion.stop
  split <;> split <;> omega

theorem Tracked.counted (h : i.Tracked s) : i.Tracked s.counted :=
  ⟨h.toPlaced.counted, h.trail, h.moved, h.text⟩

/-! ## Moving on -/

theorem Tracked.next (h : i.Tracked s) (hk : s.current.kind.isText = true) : i.Tracked s.next := by
  have hlt := h.text hk
  have hstop : s.current.span.stop = s.behind.pos := congrArg Span.stop h.span
  refine ⟨h.toPlaced.next, ?_, start_le_stop hlt, nextToken_lt⟩
  show Trail _ s.behind.pos (s.current :: s.read)
  rw [← hstop]
  refine .cons h.trail ?_ hlt ?_
  · obtain ⟨gap, hgap, -⟩ := skipTrivia_moves s.before
    rw [h.span, hgap.pos]
    exact Nat.le_add_right _ _
  · intro cause hcause
    rw [hcause] at hk
    cases hk

theorem Clear.clears_behind (h : i.Clear s.next) : i.Clears s.behind := by
  by_cases hlast : s.next.current.kind.isLast = true
  · exact .last h.current hlast
  · exact .more h.current (h.ahead (Bool.not_eq_true _ ▸ hlast))

theorem Clear.of_next (h : i.Clear s.next) (ht : i.Tracked s) : i.Clear s := by
  obtain ⟨hcurrent, hread⟩ : i.CleanRead (s.current :: s.read) := h.read
  rw [ht.trail.endOf_eq] at hcurrent
  exact ⟨hcurrent, hread, fun _ => h.clears_behind⟩

theorem state_next (h : i.Clears s.behind) (ht : i.Tracked s) :
    i.transfer.state s.next = (i.transfer.state s).next := by
  have hnext := nextToken_cursor ht.behind_at h
  show _ = State.mk (nextToken (i.cursor s.behind)).1 _ (nextToken (i.cursor s.behind)).2 _ _ _
  rw [hnext]
  rfl

/-! ## The text of the token -/

/-- The text of the current token stands in the changed source, too. -/
theorem Clear.keeps (h : i.Clear s) (ht : i.Tracked s) {w : List Char}
    (hm : (skipTrivia s.before).2.Moves w s.behind) : i.transfer.Keeps s.before w s.behind := by
  have hspares := h.current.spares
  rw [ht.span] at hspares
  exact Insertion.keeps ht.before hm hspares

theorem Clear.textOf (h : i.Clear s) (ht : i.Tracked s) :
    (i.transfer.state s).text = s.text := by
  obtain ⟨w, hm⟩ := ht.token
  exact (h.keeps ht hm).text ht.toPlaced

/-! ## Reading a token again -/

section

variable {f : Cursor → TokenKind × Cursor} {rule : Nat → Cursor → Token × Cursor}
  {mark : Punctuator}

theorem Tracked.rescanned (h : i.Tracked s) (hr : Rescans f rule)
    (hk : s.current.kind = .punctuator mark) : i.Tracked (s.rescanned rule) := by
  refine ⟨h.toPlaced.readAgain hr hk, ?_, ?_, fun _ => h.toPlaced.readAgain_lt hr hk⟩
  · rw [hr.rescanned_eq]
    exact h.trail
  · rw [hr.rescanned_eq]
    exact h.moved

/-- A mark that is read again is no longer than what is read. -/
theorem Clear.of_rescanned (h : i.Clear (s.rescanned rule)) (ht : i.Tracked s)
    (hr : Rescans f rule) (hk : s.current.kind = .punctuator mark)
    (hlast : s.current.kind.isLast = true) : i.Clear s := by
  have hle := ht.toPlaced.readAgain_le hr hk hlast h.current.valid
  have hspares := h.current.spares
  have hread := h.read
  rw [hr.rescanned_eq] at hle hspares hread
  have hlt := ht.text (by rw [hk]; rfl)
  refine ⟨⟨?_, ?_⟩, hread, ?_⟩
  · intro cause hcause
    rw [hk] at hcause
    cases hcause
  · rcases hspares with ⟨-, hstop | hplace⟩ | hresume
    · exact .inl ⟨hlt, .inl (Nat.le_trans hle hstop)⟩
    · exact .inl ⟨hlt, .inr hplace⟩
    · exact .inr hresume
  · intro hnot
    rw [hlast] at hnot
    cases hnot

/-- A token that is read again is so in the changed source. -/
theorem state_rescanned (h : i.Clear (s.rescanned rule)) (ht : i.Tracked s) (hr : Rescans f rule)
    (hk : s.current.kind = .punctuator mark) :
    i.transfer.state (s.rescanned rule) = (i.transfer.state s).rescanned rule := by
  refine Transfer.Keeps.rescanned ht.toPlaced hr hk h.current.valid (fun _ => rfl) fun w hm => ?_
  have hkeeps := h.keeps (ht.rescanned hr hk) (w := w)
  rw [hr.rescanned_eq] at hkeeps hm ⊢
  exact hkeeps hm

end

/-! ## The two runs -/

variable (i) in
/-- The run on the source, and the one on the changed source. -/
def pairing : Pairing where
  toTransfer := i.transfer
  deep := False
  exact := False
  source := i.source
  Tracked := i.Tracked
  Clear := i.Clear
  placed := Tracked.toPlaced
  text := Tracked.text
  counted := Tracked.counted
  of_counted := fun _ h => ⟨⟨h.current, h.read, h.ahead⟩, rfl⟩
  next := Tracked.next
  of_next := fun ht _ h => ⟨h.of_next ht, state_next h.clears_behind ht⟩
  rescanned := fun ht hr hk => ht.rescanned hr.rescans hk
  of_rescanned := fun ht hr hk h =>
    ⟨h.of_rescanned ht hr.rescans hk (hk ▸ hr.isLast), state_rescanned h ht hr.rescans hk⟩
  ahead := fun ht h hlast => nextToken_cursor ht.behind_at (h.ahead hlast)
  beyond := by
    intro s ht h hlast hlast'
    obtain ⟨gap, text, hm, -⟩ := nextToken_moves s.behind
    exact nextToken_cursor (at_of_moves ht.behind_at hm) ((h.ahead hlast).next hlast')
  textOf := fun ht h => h.textOf ht
  span_start := fun _ => rfl
  span_max := by
    intro s ht first
    show i.span _ = ⟨_, max (max (i.stop s.previous.stop) (i.start s.previous.start)) _⟩
    rw [i.span_max, Nat.max_eq_left ht.moved]
    rfl
  span_through := fun ht _ => i.span_through ht.moved
  same := nofun

end Insertion

/-! ## Trees -/

/-- The tree with its spans changed. -/
def Node.mapSpans (f : Span → Span) : Node → Node := fold fun id span kind => .mk id (f span) kind

theorem Node.mapSpans_mk (f : Span → Span) (id : Nat) (span : Span) (kind : Kind Node) :
    (mk id span kind).mapSpans f = .mk id (f span) (kind.map (mapSpans f)) := by
  rw [mapSpans, fold, para_eq, Kind.map_map]
  rfl

/-- The node with its spans at their places in the changed source. -/
def Insertion.node (i : Insertion) (n : Node) : Node := n.mapSpans i.span

end EsModule.Syntax
