import EsModule.Proofs.Lexis.Quoted
import EsModule.Proofs.Printing.Reread

/-!
# Printed imports and exports are read back

An import or export names another module by a string, and its exports by strings where they are no
identifiers. Strings are printed between quotes, which reading undoes, so every import and every
list of exports is read back as it is, whatever the strings in it (`quoting_undone`).

A list of names between braces is read name by name up to the brace that closes it
(`gives_entryRounds`); it is the same for imports and for exports but for the rule for one entry.
-/

namespace EsModule.Syntax

open EsModule.Text EsModule.Syntax.Parser Pieces

/-! ## Names -/

/-- The name of an export as a token: a name or a word, or else a string. -/
def exportLexeme (name : String) : Lexeme :=
  .of (if isIdentifierName name.toList then wordKind name else .string name)

/-- A name, and behind it another one if that is not the same. -/
def renamed (name other : String) : List Lexeme :=
  exportLexeme name :: if name = other then [] else [.name "as", exportLexeme other]

/-- Entries of a list with commas between them. -/
def listed (entries : List (String × String)) : List Lexeme :=
  commaJoin (entries.map fun e => renamed e.1 e.2)

theorem listed_cons_cons (e e' : String × String) (entries : List (String × String)) :
    listed (e :: e' :: entries) =
      renamed e.1 e.2 ++ .mark .comma :: listed (e' :: entries) :=
  commaJoin_cons_cons ..

theorem listed_singleton (e : String × String) : listed [e] = renamed e.1 e.2 := by
  simp [listed, commaJoin]

/-- The text of such names. -/
def renamedText (name other : String) : String :=
  exportNameText name ++ if name = other then "" else " as " ++ exportNameText other

theorem IsPlainName.isIdentifierName {name : String} (h : IsPlainName name) :
    isIdentifierName name.toList = true := by
  rcases h with rfl | h
  · exact Keyword.isIdentifierName .kwAsync
  · exact h.1

theorem IsPlainName.wordKind {name : String} (h : IsPlainName name) :
    (name = Keyword.kwAsync.text ∧ Syntax.wordKind name = .keyword .kwAsync) ∨
      Syntax.wordKind name = .identifier name := by
  rcases h with rfl | h
  · exact .inl ⟨rfl, by rw [Syntax.wordKind, Keyword.ofText?_text]⟩
  · exact .inr (by rw [Syntax.wordKind, h.2])

theorem exportLexeme_of_isPlainName {name : String} (h : IsPlainName name) :
    exportLexeme name = .of (Syntax.wordKind name) := by
  rw [exportLexeme, if_pos h.isIdentifierName]

/-- The kinds of tokens that can be the name of an export. -/
theorem exportLexeme_cases (name : String) :
    (exportLexeme name).kind = .string name ∨ (exportLexeme name).kind.name? = some name ∧
      ∀ value, (exportLexeme name).kind ≠ .string value := by
  unfold exportLexeme
  split
  · refine .inr ?_
    unfold Syntax.wordKind
    split
    · rename_i word hword
      exact ⟨congrArg some (Keyword.text_ofText? hword), nofun⟩
    · exact ⟨rfl, nofun⟩
  · exact .inl rfl

theorem exportLexeme_ne_eof (name : String) : (exportLexeme name).kind ≠ .eof := by
  intro h
  rcases exportLexeme_cases name with hk | ⟨hk, -⟩ <;> rw [h] at hk <;> cases hk

theorem ne_eof_listed (entries : List (String × String)) : ∀ x ∈ listed entries, x.kind ≠ .eof := by
  induction entries with
  | nil => exact List.forall_mem_nil _
  | cons e entries ih =>
    have he : ∀ x ∈ renamed e.1 e.2, x.kind ≠ .eof := by
      refine List.forall_mem_cons.mpr ⟨exportLexeme_ne_eof _, ?_⟩
      split
      · exact List.forall_mem_nil _
      · exact List.forall_mem_cons.mpr
          ⟨nofun, List.forall_mem_singleton.mpr (exportLexeme_ne_eof _)⟩
    cases entries with
    | nil => rwa [listed_singleton]
    | cons e' entries =>
      rw [listed_cons_cons]
      exact List.forall_mem_append.mpr ⟨he, List.forall_mem_cons.mpr ⟨nofun, ih⟩⟩

theorem exportLexeme_ne_mark (name : String) (mark : Punctuator) :
    (exportLexeme name).kind ≠ .punctuator mark := by
  intro h
  rcases exportLexeme_cases name with hk | ⟨hk, -⟩ <;> rw [h] at hk <;> cases hk

namespace Writes

variable {t : List Char} {x : Lexeme} {xs ys : List Lexeme}

theorem string (value : String) {B : List Char → Prop} :
    Writes (quote value).toList [.of (.string value)] B := by
  refine token fun r _ => ?_
  rw [quote, String.toList_ofList]
  have htoken := isToken_quoted value.toList r
  rwa [String.ofList_toList] at htoken

theorem exportName (name : String) :
    Writes (exportNameText name).toList [exportLexeme name] NameEnds := by
  unfold exportNameText exportLexeme
  split
  · rename_i h
    exact token fun r hr => isToken_name h hr
  · exact string _

theorem plainName {name : String} (h : IsPlainName name) :
    Writes name.toList [.of (Syntax.wordKind name)] NameEnds :=
  token fun _ hr => isToken_name h.isIdentifierName hr

/-- A word that is a name elsewhere, between spaces. -/
theorem between (name : String) {B : List Char → Prop} (h : IsOwnName name)
    (hx : Writes t (x :: xs) B) :
    Writes (' ' :: (name.toList ++ ' ' :: t)) (.name name :: x :: xs) B :=
  ((Writes.name h).append hx.space fun _ _ => nameEnds_space _).space

theorem renamed (name other : String) :
    Writes (renamedText name other).toList (renamed name other) NameEnds := by
  unfold renamedText Syntax.renamed
  split
  · simpa using exportName name
  · have hother := (exportName other).between "as" ⟨by decide, by decide⟩
    simpa using (exportName name).append hother fun _ _ => nameEnds_space _

/-- Names with commas between them. -/
theorem commaList (entries : List (String × String)) :
    Writes (Pieces.commaList (entries.map fun e => say (renamedText e.1 e.2))).chars
      (listed entries) NameEnds := by
  induction entries with
  | nil => exact .nil
  | cons e entries ih =>
    have he := renamed e.1 e.2
    cases entries with
    | nil => simpa [Pieces.commaList, listed_singleton] using he
    | cons e' entries =>
      have hcomma : Writes [','] [.mark .comma] Anything := .closed rfl
      have hrest := hcomma.append ih.space fun _ _ => trivial
      rw [listed_cons_cons]
      refine of_eq (he.append hrest fun _ _ => nameEnds_cons (by decide) _) ?_
      simp [Pieces.commaList]

end Writes

/-! ## Reading names -/

/-- A node without a number and a place. -/
def Kind.plain (kind : Kind Node) : Node := .mk 0 ⟨0, 0⟩ kind

/-- Whether a token is a name that can be bound. -/
def TokenKind.isPlainName : TokenKind → Bool
  | .identifier _ | .keyword .kwAsync => true
  | _ => false

theorem IsPlainName.isPlainName {name : String} (h : IsPlainName name) :
    (Syntax.wordKind name).isPlainName = true := by
  rcases h.wordKind with ⟨-, hk⟩ | hk <;> rw [hk] <;> rfl

namespace Gives

variable {c : Context} {s : State}

theorem eatName {name : String} {Q : Bool → State → Prop}
    (hk : s.current.kind = .identifier name) (h : Q true s.next) :
    Gives (Parser.eatName name) c s Q :=
  bind (seesName (iteTrue (decide_eq_true hk) (bind (advance (pure h)))))

theorem eatNameNot {name : String} {Q : Bool → State → Prop}
    (hk : s.current.kind ≠ .identifier name) (h : Q false s) :
    Gives (Parser.eatName name) c s Q :=
  bind (seesName (iteFalse (fun hd => hk (of_decide_eq_true hd)) (pure h)))

theorem expectName {name : String} {Q : Unit → State → Prop}
    (hk : s.current.kind = .identifier name) (h : Q () s.next) :
    Gives (Parser.expectName name) c s Q :=
  bind (eatName hk (iteTrue rfl (pure h)))

theorem nodeAt {kind : Kind Node} {span : Span} {Q : Node → State → Prop}
    (h : Q (.mk s.nextId span kind) s.counted) : Gives (Parser.nodeAt kind span) c s Q :=
  ⟨_, _, rfl, h⟩

theorem moduleSpecifier {value : String} {Q : String → State → Prop}
    (hk : s.current.kind = .string value) (h : Q value s.next) :
    Gives Grammar.moduleSpecifier c s Q := by
  refine bind (current ?_)
  rw [hk]
  exact bind (advance (pure h))

theorem exportName {name : String} {Q : String → State → Prop}
    (hk : s.current.kind = (exportLexeme name).kind) (h : Q name s.next) :
    Gives Grammar.exportName c s Q := by
  refine bind (current ?_)
  rcases exportLexeme_cases name with hstring | ⟨hname, hnot⟩
  · rw [hk, hstring]
    exact bind (advance (pure h))
  · split
    · rename_i value hvalue
      exact absurd (hk.symm.trans hvalue) (hnot value)
    · refine bind (current ?_)
      rw [hk, hname]
      exact bind (advance (pure h))

theorem atBindingName {Q : Bool → State → Prop} (h : Q s.current.kind.isPlainName s) :
    Gives Parser.atBindingName c s Q := by
  refine bind (current ?_)
  unfold TokenKind.isPlainName at h
  split <;> simp_all only <;> exact pure h

theorem bindingName {name : String} {rest : List Lexeme} (hn : IsPlainName name)
    (hs : s.Faces (.of (Syntax.wordKind name) :: rest)) :
    Gives Parser.bindingName c s (Stands (Kind.plain (.identifier name)) rest) := by
  have hk : s.current.kind = Syntax.wordKind name := hs.kind
  refine bind (here (bind (current ?_)))
  rcases hn.wordKind with ⟨rfl, hword⟩ | hword
  · rw [hk, hword]
    exact bind (pure (bind (advance (node fun span => ⟨Node.shape_congr rfl, hs.next.counted⟩))))
  · rw [hk, hword]
    exact bind (pure (bind (advance (node fun span => ⟨Node.shape_congr rfl, hs.next.counted⟩))))

end Gives

/-! ## Reading lists of names -/

section

variable {c : Context} {s : State} {x : Lexeme} {rest : List Lexeme}

/-- An import of one export. -/
def importEntry (imported name : String) : Node :=
  Kind.plain (.importSpecifier imported (Kind.plain (.identifier name)))

/-- The import of a default export. -/
def importDefault (name : String) : Node :=
  Kind.plain (.importDefaultSpecifier (Kind.plain (.identifier name)))

/-- The import of all exports together. -/
def importNamespace (name : String) : Node :=
  Kind.plain (.importNamespaceSpecifier (Kind.plain (.identifier name)))

/-- An export in a list. -/
def exportEntry (name exported : String) : Node :=
  Kind.plain (.exportSpecifier (Kind.plain (.identifier name)) exported)

theorem gives_importSpecifier {imported name : String} (hn : IsPlainName name)
    (hx : x.kind ≠ .identifier "as") (hs : s.Faces (renamed imported name ++ x :: rest)) :
    Gives Grammar.importSpecifier c s (Stands (importEntry imported name) (x :: rest)) := by
  have hkind : s.current.kind = (exportLexeme imported).kind := hs.kind
  refine .bind (.here (.bind (.atBindingName (.bind (.exportName hkind ?_)))))
  -- one name for both is the name that is bound, so it is no string
  by_cases hsame : imported = name
  · subst hsame
    rw [renamed, if_pos rfl] at hs
    have hshort : s.current.kind.isPlainName = true := by
      rw [hkind, exportLexeme_of_isPlainName hn]
      exact hn.isPlainName
    refine .bind (.eatNameNot (hs.next.kind ▸ hx) (.iteFalse nofun (.iteTrue hshort ?_)))
    refine .bind (.get (.bind (.nodeAt (.node fun span => ⟨?_, hs.next.counted.counted⟩))))
    exact Node.shape_congr rfl
  · rw [renamed, if_neg hsame] at hs
    rw [List.cons_append, List.cons_append, exportLexeme_of_isPlainName hn] at hs
    refine .bind (.eatName hs.next.kind (.iteTrue rfl (.step (.bindingName hn hs.next.next) ?_)))
    intro n s1 hn1
    exact .node fun span => ⟨Node.shape_congr (by simp [Kind.map, hn1.1]), hn1.2.counted⟩

/-- The name of an export in a list is marked if it can be no name of this module. -/
theorem gives_exportSpecifier {name exported : String} (hx : x.kind ≠ .identifier "as")
    (hs : s.Faces (renamed name exported ++ x :: rest)) :
    Gives Grammar.exportSpecifier c s fun r s' =>
      Stands (exportEntry name exported) (x :: rest) r.1 s' ∧ (IsPlainName name → r.2 = none) := by
  have hkind : s.current.kind = (exportLexeme name).kind := hs.kind
  have hmark : ∀ m : Option String, (if s.current.kind.isPlainName then none else m) = none ∨
      ¬IsPlainName name := by
    intro m
    refine or_iff_not_imp_right.mpr fun hn => ?_
    have hn := not_not.mp hn
    rw [hkind, exportLexeme_of_isPlainName hn]
    exact if_pos hn.isPlainName
  refine .bind (.here (.bind (.atBindingName (.bind (.exportName hkind ?_)))))
  refine .bind (.get (.bind (.nodeAt ?_)))
  by_cases hsame : name = exported
  · subst hsame
    rw [renamed, if_pos rfl] at hs
    refine .bind (.eatNameNot (hs.next.kind ▸ hx) (.iteFalse nofun (.bind (.pure ?_))))
    refine .bind (.node fun span => .pure ⟨⟨Node.shape_congr rfl, hs.next.counted.counted⟩, ?_⟩)
    exact fun hn => (hmark _).resolve_right (not_not.mpr hn)
  · rw [renamed, if_neg hsame, List.cons_append, List.cons_append] at hs
    refine .bind (.eatName hs.next.kind (.iteTrue rfl (.bind (.exportName hs.next.next.kind ?_))))
    refine .bind (.node fun span =>
      .pure ⟨⟨Node.shape_congr rfl, hs.next.next.next.counted⟩, ?_⟩)
    exact fun hn => (hmark _).resolve_right (not_not.mpr hn)

theorem gives_entryItem {α : Type} {entry : Parser α} {P : α → Prop}
    (h : Gives entry c s fun a s' => P a ∧ s'.Faces (x :: rest)) :
    Gives (Grammar.entryItem entry) c s fun r s' => ∃ a, P a ∧
      if x.kind = .punctuator .comma then r = ([a], true) ∧ s'.Faces rest
      else r = ([a], false) ∧ s'.Faces (x :: rest) := by
  refine .step h fun a s' ha => ?_
  by_cases hx : x.kind = .punctuator .comma
  · simp only [hx, if_true]
    exact .bind (.eat (ha.2.kind.trans hx) (.pure ⟨a, ha.1, rfl, ha.2.next⟩))
  · simp only [hx, if_false]
    exact .bind (.eatNot (ha.2.kind ▸ hx) (.pure ⟨a, ha.1, rfl, ha.2⟩))

/-- The loop over the entries between braces reads all of them, if `entry` reads each of them. -/
theorem gives_entryRounds {α : Type} {entry : Parser α} {P : String × String → α → Prop}
    {entries : List (String × String)}
    (hentry : ∀ e ∈ entries, ∀ s x zs, x.kind ≠ .identifier "as" →
      s.Faces (renamed e.1 e.2 ++ x :: zs) →
      Gives entry c s fun a s' => P e a ∧ s'.Faces (x :: zs))
    (acc : List α) (s : State) (bound : Nat) (hbound : entries.length < bound)
    (hs : s.Faces (listed entries ++ .mark .rightBrace :: rest)) :
    Gives (loopWithin (Grammar.listRound (· = .punctuator .rightBrace) (Grammar.entryItem entry))
      bound acc) c s fun as s' => ∃ more, List.Forall₂ P entries more ∧ as = acc ++ more ∧
        s'.Faces (.mark .rightBrace :: rest) := by
  have hopen : ∀ (e : String × String) (s : State) zs, s.Faces (renamed e.1 e.2 ++ zs) →
      ¬decide (s.current.kind = .punctuator .rightBrace) = true := by
    intro e s zs hs hbrace
    have hkind : s.current.kind = (exportLexeme e.1).kind := hs.kind
    exact exportLexeme_ne_mark _ _ (hkind ▸ of_decide_eq_true hbrace)
  induction entries generalizing acc s bound with
  | nil =>
    obtain ⟨bound, rfl⟩ : ∃ b, bound = b + 1 := ⟨bound - 1, by omega⟩
    refine .round (.bind (.current (.iteTrue (decide_eq_true hs.kind) (.pure ?_))))
    exact ⟨[], .nil, (List.append_nil acc).symm, hs⟩
  | cons e entries ih =>
    -- only between two entries a comma is printed
    obtain ⟨bound, rfl⟩ : ∃ b, bound = b + 1 := ⟨bound - 1, by omega⟩
    rw [List.length_cons, Nat.add_lt_add_iff_right] at hbound
    cases entries with
    | nil =>
      have hs : s.Faces (renamed e.1 e.2 ++ .mark .rightBrace :: rest) := by
        simpa [listed_singleton] using hs
      have hread := hentry e List.mem_cons_self s (.mark .rightBrace) rest nofun hs
      refine .round (.bind (.current (.iteFalse (hopen e s _ hs) ?_)))
      refine .step (gives_entryItem hread) ?_
      rintro r s' ⟨a, ha, rfl, hs'⟩
      exact .iteFalse nofun (.pure ⟨[a], .cons ha .nil, rfl, hs'⟩)
    | cons e' entries =>
      have hs : s.Faces (renamed e.1 e.2 ++ .mark .comma ::
          (listed (e' :: entries) ++
            .mark .rightBrace :: rest)) := by
        simpa [listed_cons_cons] using hs
      have hread := hentry e List.mem_cons_self s (.mark .comma) _ nofun hs
      refine .round (.bind (.current (.iteFalse (hopen e s _ hs) ?_)))
      refine .step (gives_entryItem hread) ?_
      rintro r s' ⟨a, ha, rfl, hs'⟩
      refine .iteTrue rfl (.pure ?_)
      refine (ih (fun e he => hentry e (List.mem_cons_of_mem _ he)) _ s' bound hbound hs').mono ?_
      rintro as s'' ⟨more, hmore, rfl, hs''⟩
      exact ⟨a :: more, .cons ha hmore, by simp, hs''⟩

/-- Entries between braces, with the brace that closes them. -/
theorem gives_entries {α : Type} (entry : Parser α) {P : String × String → α → Prop}
    {entries : List (String × String)}
    (hentry : ∀ e ∈ entries, ∀ s x zs, x.kind ≠ .identifier "as" →
      s.Faces (renamed e.1 e.2 ++ x :: zs) →
      Gives entry c s fun a s' => P e a ∧ s'.Faces (x :: zs))
    (hbound : (listed entries).length < c.bound)
    (hs : s.Faces (listed entries ++ .mark .rightBrace :: rest)) :
    Gives (listUntil (· = .punctuator .rightBrace) (Grammar.entryItem entry)) c s fun as s' =>
      List.Forall₂ P entries as ∧ s'.Faces (.mark .rightBrace :: rest) := by
  have hcount : entries.length ≤ (listed entries).length := by
    clear hs hbound hentry
    induction entries with
    | nil => exact Nat.le_refl _
    | cons e entries ih =>
      cases entries with
      | nil => simp [listed_singleton, renamed]
      | cons e' entries =>
        rw [listed_cons_cons, List.length_append, List.length_cons,
          List.length_cons (a := Lexeme.mark .comma)]
        omega
  rw [Grammar.listUntil_eq]
  refine .loop ((gives_entryRounds hentry [] s c.bound (by omega) hs).mono ?_)
  rintro as s' ⟨more, hmore, rfl, hs'⟩
  exact ⟨hmore, hs'⟩

/-! ## Reading imports and exports -/

/-- The lexemes are read as an item of a module. -/
def ReadsItem (xs : List Lexeme) (n : Node) : Prop :=
  ∀ (g : Grammar) (c : Context) (s : State) (rest : List Lexeme), xs.length < c.bound →
    s.Faces (xs ++ rest) → Gives g.moduleItem c s (Stands n rest)

/-- The name of another module, and the end of the statement. -/
def fromLexemes (source : String) : List Lexeme :=
  [.name "from", .of (.string source), .mark .semicolon]

theorem ne_eof_fromLexemes (source : String) : ∀ x ∈ fromLexemes source, x.kind ≠ .eof := by
  simp [fromLexemes]

/-- The lexemes are read as the part of an import behind the default import. They start with a mark
that starts no name. -/
structure ReadsList (xs : List Lexeme) (ns : List Node) : Prop where
  starts : ∃ mark xs', xs = .mark mark :: xs' ∧ (mark = .star ∨ mark = .leftBrace)
  ne_eof : ∀ x ∈ xs, x.kind ≠ .eof
  gives : ∀ (c : Context) (s : State) (rest : List Lexeme), xs.length < c.bound →
    s.Faces (xs ++ rest) → Gives Grammar.importList c s fun ms s' =>
      ms.map Node.shape = ns.map Node.shape ∧ s'.Faces rest

theorem ne_eof_of_isPlainName {name : String} (hn : IsPlainName name) :
    (Lexeme.of (Syntax.wordKind name)).kind ≠ .eof :=
  exportLexeme_of_isPlainName hn ▸ exportLexeme_ne_eof name

theorem readsList_namespace {name : String} (hn : IsPlainName name) :
    ReadsList [.mark .star, .name "as", .of (Syntax.wordKind name)] [importNamespace name] := by
  refine ⟨⟨_, _, rfl, .inl rfl⟩, ?_, fun c s rest _ hs => ?_⟩
  · refine List.forall_mem_cons.mpr ⟨nofun, List.forall_mem_cons.mpr ⟨nofun, ?_⟩⟩
    exact List.forall_mem_singleton.mpr (ne_eof_of_isPlainName hn)
  refine .bind (.here (.bind (.eat hs.kind (.iteTrue rfl (.bind (.expectName hs.next.kind ?_))))))
  refine .step (.bindingName hn hs.next.next) fun n s1 hn1 => ?_
  refine .bind (.node fun span => .pure ⟨?_, hn1.2.counted⟩)
  exact congrArg (· :: []) (Node.shape_congr (by rw [Kind.map, Kind.map, hn1.1]))

/-- The shapes of entries that were read. -/
theorem shapes_of_forall₂ {α : Type} {f : α → Node} {entry : String → String → Node}
    {entries : List (String × String)} {as : List α}
    (h : List.Forall₂ (fun e a => (f a).shape = (entry e.1 e.2).shape) entries as) :
    (as.map f).map Node.shape = (entries.map fun e => entry e.1 e.2).map Node.shape := by
  induction h with
  | nil => rfl
  | cons h _ ih => exact congrArg₂ List.cons h ih

theorem readsList_named {entries : List (String × String)}
    (hn : ∀ e ∈ entries, IsPlainName e.2) :
    ReadsList (inBraces (listed entries))
      (entries.map fun e => importEntry e.1 e.2) := by
  refine ⟨⟨_, _, rfl, .inr rfl⟩, ?_, fun c s rest hbound hs => ?_⟩
  · refine List.forall_mem_cons.mpr ⟨Lexeme.mark_ne_eof _, ?_⟩
    refine List.forall_mem_append.mpr ⟨ne_eof_listed entries, ?_⟩
    exact List.forall_mem_singleton.mpr (Lexeme.mark_ne_eof _)
  have hstar : s.current.kind ≠ .punctuator .star := by
    rw [hs.kind]
    simp
  have hnext : s.next.Faces (listed entries ++
      .mark .rightBrace :: rest) := by
    simpa [inBraces] using hs.next
  rw [length_inBraces] at hbound
  refine .bind (.here (.bind (.eatNot hstar (.iteFalse Bool.false_ne_true
    (.bind (.eat hs.kind ?_))))))
  refine .iteTrue rfl (.step (gives_entries Grammar.importSpecifier
    (P := fun e n => n.shape = (importEntry e.1 e.2).shape)
    (fun e he s x zs hx hs => gives_importSpecifier (hn e he) hx hs) (by omega) hnext) ?_)
  rintro ns s1 ⟨hns, hs1⟩
  refine .bind (.expect hs1.kind (.pure ⟨?_, hs1.next⟩))
  have hshapes := shapes_of_forall₂ (f := id) hns
  rwa [List.map_id] at hshapes

theorem gives_importEnd {specifiers ns : List Node} {source : String}
    (hns : specifiers.map Node.shape = ns.map Node.shape)
    (hs : s.Faces (fromLexemes source ++ rest)) (start : Nat) :
    Gives (Grammar.importEnd start specifiers) c s
      (Stands (Kind.plain (.importDeclaration ns source)) rest) := by
  refine .bind (.expectName hs.kind (.bind (.moduleSpecifier hs.next.kind ?_)))
  refine .bind (.semicolon hs.next.next.kind (.node fun span => ⟨?_, hs.next.next.next.counted⟩))
  exact Node.shape_congr (by rw [Kind.map, Kind.map, hns])

/-- An import is no call of `import` if a token other than `(` and `.` follows the word. -/
theorem readsItem_import {x : Lexeme} {xs : List Lexeme} {n : Node}
    (hx : x.kind ≠ .punctuator .leftParen ∧ x.kind ≠ .punctuator .dot)
    (h : ∀ c (s : State) rest, xs.length < c.bound → s.Faces (.word .kwImport :: x :: xs ++ rest) →
      Gives Grammar.importDeclaration c s (Stands n rest)) :
    ReadsItem (.word .kwImport :: x :: xs) n := by
  intro g c s rest hbound hs
  -- the other items that start with the word are expressions
  have hnot : ¬(decide ((nextToken s.behind).1.kind = .punctuator .leftParen) ||
      decide ((nextToken s.behind).1.kind = .punctuator .dot)) = true := by
    rw [hs.peek, Bool.or_eq_true, decide_eq_true_eq, decide_eq_true_eq]
    exact not_or.mpr hx
  refine .bind (.current ?_)
  rw [hs.kind]
  simp only [List.length_cons] at hbound
  exact .bind (.peek (.iteFalse hnot (h c s rest (by omega) hs)))

theorem readsItem_bareImport (source : String) :
    ReadsItem [.word .kwImport, .of (.string source), .mark .semicolon]
      (Kind.plain (.importDeclaration [] source)) := by
  refine readsItem_import ⟨nofun, nofun⟩ fun c s rest _ hs => ?_
  refine .bind (.here (.bind (.advance (.bind (.current ?_)))))
  rw [hs.next.kind]
  refine .bind (.advance (.bind (.semicolon hs.next.next.kind (.node fun span => ⟨?_, ?_⟩))))
  · exact Node.shape_congr rfl
  · exact hs.next.next.next.counted

theorem readsItem_listImport {xs : List Lexeme} {ns : List Node} (h : ReadsList xs ns)
    (source : String) : ReadsItem (.word .kwImport :: (xs ++ fromLexemes source))
      (Kind.plain (.importDeclaration ns source)) := by
  obtain ⟨mark, xs', rfl, hmark⟩ := h.starts
  refine readsItem_import ?_ fun c s rest hbound hs => ?_
  · rcases hmark with rfl | rfl <;> exact ⟨nofun, nofun⟩
  have hnext : s.next.Faces (.mark mark :: xs' ++ (fromLexemes source ++ rest)) := by
    simpa using hs.next
  have hkind : s.next.current.kind = .punctuator mark := hnext.kind
  have hname : ¬s.next.current.kind.isPlainName = true := by
    rw [hkind]
    exact nofun
  refine .bind (.here (.bind (.advance (.bind (.current ?_)))))
  rw [hkind]
  have hlength : (xs' ++ fromLexemes source).length < c.bound := hbound
  simp only [List.length_append, fromLexemes, List.length_cons] at hlength
  have hread := h.gives c _ _ (by rw [List.length_cons]; omega) hnext
  exact .bind (.atBindingName (.iteFalse hname (.step hread fun ms s1 hms =>
    gives_importEnd hms.1 hms.2 _)))

theorem gives_importDefault {name : String} (hn : IsPlainName name)
    (hs : s.Faces (.of (Syntax.wordKind name) :: rest)) :
    Gives Grammar.importDefaultSpecifier c s (Stands (importDefault name) rest) := by
  refine .bind (.here (.step (.bindingName hn hs) fun n s1 hn1 => .node fun span => ?_))
  exact ⟨Node.shape_congr (by rw [Kind.map, Kind.map, hn1.1]), hn1.2.counted⟩

theorem ne_mark_of_isPlainName {name : String} (hn : IsPlainName name) :
    (Lexeme.of (Syntax.wordKind name)).kind ≠ .punctuator .leftParen ∧
      (Lexeme.of (Syntax.wordKind name)).kind ≠ .punctuator .dot := by
  rcases hn.wordKind with ⟨-, hk⟩ | hk
  · rw [Lexeme.kind_of, hk]
    exact ⟨nofun, nofun⟩
  · rw [Lexeme.kind_of, hk]
    exact ⟨nofun, nofun⟩

/-- An import that starts with a default import goes on behind it. -/
theorem gives_importBehind {name : String} (hn : IsPlainName name) {n : Node} {ys : List Lexeme}
    (hs : s.next.Faces (.of (Syntax.wordKind name) :: ys))
    (h : ∀ first s', Stands (importDefault name) ys first s' →
      Gives (do
        unless ← eat .comma do return ← Grammar.importEnd s.current.span.start [first]
        Grammar.importEnd s.current.span.start (first :: (← Grammar.importList))) c s'
        (Stands n rest)) :
    Gives Grammar.importDeclaration c s (Stands n rest) := by
  have hkind : s.next.current.kind = Syntax.wordKind name := hs.kind
  have hname : s.next.current.kind.isPlainName = true := hkind ▸ hn.isPlainName
  refine .bind (.here (.bind (.advance (.bind (.current ?_)))))
  split
  · rename_i value hvalue
    rw [hvalue] at hname
    cases hname
  · exact .bind (.atBindingName (.iteTrue hname (.step (gives_importDefault hn hs) h)))

theorem readsItem_defaultImport {name : String} (hn : IsPlainName name) (source : String) :
    ReadsItem (.word .kwImport :: .of (Syntax.wordKind name) :: fromLexemes source)
      (Kind.plain (.importDeclaration [importDefault name] source)) := by
  refine readsItem_import (ne_mark_of_isPlainName hn) fun c s rest _ hs => ?_
  refine gives_importBehind hn hs.next ?_
  intro first s1 hfirst
  have hcomma : s1.current.kind ≠ .punctuator .comma := hfirst.2.kind ▸ nofun
  refine .bind (.eatNot hcomma (.iteFalse nofun (gives_importEnd ?_ hfirst.2 _)))
  exact congrArg (· :: []) hfirst.1

theorem readsItem_fullImport {name : String} (hn : IsPlainName name) {xs : List Lexeme}
    {ns : List Node} (h : ReadsList xs ns) (source : String) :
    ReadsItem (.word .kwImport :: .of (Syntax.wordKind name) :: .mark .comma ::
        (xs ++ fromLexemes source))
      (Kind.plain (.importDeclaration (importDefault name :: ns) source)) := by
  refine readsItem_import (ne_mark_of_isPlainName hn) fun c s rest hbound hs => ?_
  refine gives_importBehind hn hs.next ?_
  intro first s1 hfirst
  have hnext : s1.next.Faces (xs ++ (fromLexemes source ++ rest)) := by
    simpa using hfirst.2.next
  simp only [List.length_cons, List.length_append] at hbound
  refine .bind (.eat hfirst.2.kind (.iteTrue rfl (.step (h.gives c _ _ (by omega) hnext) ?_)))
  intro ms s2 hms
  refine gives_importEnd ?_ hms.2 _
  exact congrArg₂ List.cons hfirst.1 hms.1

/-! ### Exports -/

/-- Behind the word, a star or a brace says which kind of export follows. -/
theorem readsItem_export {mark : Punctuator} {xs : List Lexeme} {n : Node}
    (h : ∀ c (s : State) rest start, xs.length < c.bound → s.Faces (.mark mark :: xs ++ rest) →
      Gives (if mark = .star then Grammar.exportAll start else Grammar.exportList start) c s
        (Stands n rest)) (hmark : mark = .star ∨ mark = .leftBrace) :
    ReadsItem (.word .kwExport :: .mark mark :: xs) n := by
  intro g c s rest hbound hs
  have hkind : s.next.current.kind = .punctuator mark := hs.next.kind
  have hread := h c s.next rest s.current.span.start (by simp at hbound; omega) hs.next
  refine .bind (.current ?_)
  rw [hs.kind]
  refine .bind (.here (.bind (.advance (.bind (.current ?_)))))
  rw [hkind]
  rcases hmark with rfl | rfl
  · exact .bind (p := peek) (.peek (.iteFalse nofun hread))
  · exact .bind (p := peek) (.peek (.iteFalse nofun hread))

theorem readsItem_exportAll (exported : Option String) (source : String) :
    ReadsItem (.word .kwExport :: .mark .star ::
        (exported.elim [] (fun name => [.name "as", exportLexeme name]) ++ fromLexemes source))
      (Kind.plain (.exportAllDeclaration exported source)) := by
  refine readsItem_export (fun c s rest start _ hs => .iteTrue rfl ?_) (.inl rfl)
  have hend : ∀ s : State, s.Faces (fromLexemes source ++ rest) →
      Gives (do
        expectName "from"
        let source ← Grammar.moduleSpecifier
        semicolon
        node (.exportAllDeclaration exported source) start) c s
        (Stands (Kind.plain (.exportAllDeclaration exported source)) rest) := by
    intro s hs
    refine .bind (.expectName hs.kind (.bind (.moduleSpecifier hs.next.kind ?_)))
    refine .bind (.semicolon hs.next.next.kind (.node fun span => ⟨?_, ?_⟩))
    · exact Node.shape_congr rfl
    · exact hs.next.next.next.counted
  refine .bind (.advance ?_)
  cases exported with
  | some name =>
    exact .bind (.eatName hs.next.kind (.iteTrue rfl (.bind (.exportName hs.next.next.kind
      (.bind (.pure (hend _ hs.next.next.next)))))))
  | none =>
    have has : s.next.current.kind ≠ .identifier "as" := by
      rw [hs.next.kind]
      decide
    exact .bind (.eatNameNot has (.iteFalse nofun (.bind (.pure (hend _ hs.next)))))

/-- No entry is marked if all of them are names of this module. -/
theorem findSome?_of_forall₂ {entries : List (String × String)}
    {marked : List (Node × Option String)}
    (h : List.Forall₂ (fun e r => IsPlainName e.1 → r.2 = none) entries marked)
    (hn : ∀ e ∈ entries, IsPlainName e.1) : marked.findSome? (·.2) = none := by
  induction h with
  | nil => rfl
  | cons h _ ih =>
    obtain ⟨he, hes⟩ := List.forall_mem_cons.mp hn
    rw [List.findSome?_cons, h he]
    exact ih hes

/-- Without another module all names in the list have to be names of this one. -/
theorem readsItem_exportList {entries : List (String × String)} (source : Option String)
    (hn : source = none → ∀ e ∈ entries, IsPlainName e.1) :
    ReadsItem (.word .kwExport :: (inBraces (listed entries) ++
        source.elim [.mark .semicolon] fromLexemes))
      (Kind.plain (.exportNamedDeclaration none (entries.map fun e => exportEntry e.1 e.2)
        source)) := by
  refine readsItem_export (fun c s rest start hbound hs => .iteFalse (by decide) ?_) (.inr rfl)
  have hlength : (listed entries ++ [Lexeme.mark .rightBrace] ++
      source.elim [Lexeme.mark .semicolon] fromLexemes).length < c.bound := hbound
  rw [List.length_append, List.length_append] at hlength
  have hnext : s.next.Faces (listed entries ++
      .mark .rightBrace :: (source.elim [.mark .semicolon] fromLexemes ++ rest)) := by
    simpa using hs.next
  refine .bind (.advance (.step (gives_entries Grammar.exportSpecifier
    (P := fun e r => r.1.shape = (exportEntry e.1 e.2).shape ∧ (IsPlainName e.1 → r.2 = none))
    ?_ (by omega) hnext) ?_))
  · intro e _ s x zs hx hs
    exact (gives_exportSpecifier hx hs).mono fun r s' h => ⟨⟨h.1.1, h.2⟩, h.1.2⟩
  rintro marked s1 ⟨hmarked, hs1⟩
  have hshapes := shapes_of_forall₂ (f := Prod.fst) (hmarked.imp fun _ _ h => h.1)
  have hend : ∀ s' : State, s'.Faces (.mark .semicolon :: rest) →
      Gives (do
        semicolon
        node (.exportNamedDeclaration none (marked.map (·.1)) source) start) c s'
        (Stands (Kind.plain (.exportNamedDeclaration none
          (entries.map fun e => exportEntry e.1 e.2) source)) rest) := by
    intro s' hs'
    refine .bind (.semicolon hs'.kind (.node fun span => ⟨?_, hs'.next.counted⟩))
    exact Node.shape_congr (by rw [Kind.map, Kind.map, hshapes])
  refine .bind (.expect hs1.kind ?_)
  cases source with
  | some value =>
    exact .bind (.eatName hs1.next.kind (.iteTrue rfl (.bind (.moduleSpecifier hs1.next.next.kind
      (.bind (.pure (hend _ hs1.next.next.next)))))))
  | none =>
    have hfrom : s1.next.current.kind ≠ .identifier "from" := by
      rw [hs1.next.kind]
      simp
    -- a marked name is an error here: there is no other module that could have it
    have hnone := findSome?_of_forall₂ (hmarked.imp fun _ _ h => h.2) (hn rfl)
    refine .bind (.eatNameNot hfrom (.iteFalse Bool.false_ne_true ?_))
    rw [hnone]
    exact .bind (.pure (hend _ hs1.next))

end

/-! ## Printed imports and exports -/

/-- Imports, and exports of names and of all there is, as reading gives them. -/
inductive Node.IsLink : Node → Prop where
  | imports {y id span specifiers source} (hc : ImportClause specifiers)
      (h : ∀ n ∈ specifiers, Derives y .importSpecifier n) :
      IsLink (.mk id span (.importDeclaration specifiers source))
  | exports {y id span specifiers source}
      (h : ∀ n ∈ specifiers, Derives y (.exportSpecifier source.isNone) n) :
      IsLink (.mk id span (.exportNamedDeclaration none specifiers source))
  | exportAll {id span exported source} :
      IsLink (.mk id span (.exportAllDeclaration exported source))

/-- The text is read as an item of the shape of `n`, whatever stands behind it. The item starts with
a word, and the end of the source is no part of it. -/
def WritesItem (text : List Char) (n : Node) : Prop :=
  ∃ word xs m, ReadsItem (.word word :: xs) m ∧ m.shape = n.shape ∧ (∀ x ∈ xs, x.kind ≠ .eof) ∧
    Writes text (.word word :: xs) Anything

theorem WritesItem.of_reads {word : Keyword} {x : Lexeme} {xs : List Lexeme} {m n : Node}
    {t u : List Char} (h : ReadsItem (.word word :: x :: xs) m) (hshape : m.shape = n.shape)
    (heof : ∀ y ∈ x :: xs, y.kind ≠ .eof) (hw : Writes t (x :: xs) Anything)
    (hu : u = word.text.toList ++ ' ' :: t) : WritesItem u n :=
  ⟨word, _, m, h, hshape, heof,
    .of_eq ((Writes.word word).append hw.space fun _ _ => nameEnds_space _) hu⟩

namespace Writes

/-- The name of another module, and the end of the statement. -/
theorem fromModule (source : String) :
    Writes (" from " ++ (quote source ++ ";")).toList (fromLexemes source) Anything := by
  have hend : Writes [';'] [.mark .semicolon] Anything := .closed rfl
  have hsource := (string source (B := Anything)).append hend fun _ _ => trivial
  have hname : IsOwnName "from" := ⟨by decide, by decide⟩
  have hfrom := (Writes.name hname).append hsource.space
    fun _ _ => nameEnds_space _
  simpa [fromLexemes] using hfrom.space

/-- Entries between braces. -/
theorem entries {entries : List (String × String)} (hne : entries ≠ []) :
    Writes (braced (entries.map fun e => say (renamedText e.1 e.2))).chars
      (inBraces (listed entries)) Anything := by
  have hopen : Writes ['\x7b'] [.mark .leftBrace] Anything := .closed rfl
  have hclose : Writes ['\x7d'] [.mark .rightBrace] Anything := .closed rfl
  have hlist := (commaList entries).append hclose.space fun _ _ => nameEnds_space _
  obtain ⟨x, xs, hx⟩ : ∃ x xs, listed entries = x :: xs := by
    obtain ⟨e, entries, rfl⟩ := List.exists_cons_of_ne_nil hne
    exact ⟨_, _, rfl⟩
  rw [hx] at hlist ⊢
  refine of_eq (hopen.append hlist.space fun _ _ => trivial) ?_
  simp [braced, openBrace, closeBrace]

end Writes

/-! ### The parts of an import -/

/-- What stands between the word and the name of the other module. -/
def importClauses (before : Pieces) (specifiers : List Node) : Pieces :=
  let lead := specifiers.foldl (fun before n => addImportLead before n.kind) before
  let names := specifiers.filterMap fun n => importNameText n.kind
  if names.isEmpty then lead else addClause lead (braced (names.map say))

theorem importText_eq (specifiers : List Node) (source : String) :
    importText (specifiers.map fun n => (n, n.roles)) source =
      say "import " ++ importClauses [] specifiers ++
        sayIf (!(importClauses [] specifiers).isEmpty) " from " ++ say (quote source ++ ";") := by
  simp only [importText, importClauses, List.foldl_map, List.filterMap_map]
  rfl

theorem exportNameText_of_isPlainName {name : String} (h : IsPlainName name) :
    exportNameText name = name := if_pos h.isIdentifierName

theorem renamedText_of_isPlainName {name other : String} (h : IsPlainName other) :
    renamedText name other =
      if name = other then other else exportNameText name ++ " as " ++ other := by
  unfold renamedText
  split
  · rename_i hsame
    rw [hsame, exportNameText_of_isPlainName h, String.append_empty]
  · rw [exportNameText_of_isPlainName h, String.append_assoc]

theorem exists_name_of_derives {y : Bool} {binding : Node} (h : Derives y .name binding) :
    ∃ name, IsPlainName name ∧ binding.name? = some name ∧
      binding.shape = (Kind.plain (.identifier name)).shape := by
  cases h with
  | name h => exact ⟨_, h, rfl, Node.shape_congr rfl⟩

theorem exists_default {y : Bool} {d : Node} (h : Derives y .importSpecifier d)
    (hd : d.isDefaultImport = true) :
    ∃ name, IsPlainName name ∧ d.shape = (importDefault name).shape ∧
      ∀ before rest, importClauses before (d :: rest) = importClauses (before ++ say name) rest := by
  cases h with
  | importDefaultSpecifier h =>
    obtain ⟨name, hn, hname, hshape⟩ := exists_name_of_derives h
    refine ⟨name, hn, Node.shape_congr (by rw [Kind.map, Kind.map, hshape]), fun before rest => ?_⟩
    simp [importClauses, addImportLead, importNameText, hname, Node.kind]
  | importSpecifier | importNamespaceSpecifier => cases hd

/-- All exports together, as they are printed. -/
theorem exists_namespace {y : Bool} {n : Node} (h : Derives y .importSpecifier n)
    (hn : n.isNamespaceImport = true) :
    ∃ name, IsPlainName name ∧ n.shape = (importNamespace name).shape ∧
      ∀ before, importClauses before [n] = addClause before (say ("* as " ++ name)) := by
  cases h with
  | importNamespaceSpecifier h =>
    obtain ⟨name, hn, hname, hshape⟩ := exists_name_of_derives h
    refine ⟨name, hn, Node.shape_congr (by rw [Kind.map, Kind.map, hshape]), fun before => ?_⟩
    simp [importClauses, addImportLead, importNameText, hname, Node.kind]
  | importSpecifier | importDefaultSpecifier => cases hn

/-- Imports of single exports, as they are printed. -/
theorem exists_named {y : Bool} {ns : List Node} (h : ∀ n ∈ ns, Derives y .importSpecifier n)
    (hn : ∀ n ∈ ns, n.isNamedImport = true) :
    ∃ entries : List (String × String), (∀ e ∈ entries, IsPlainName e.2) ∧
      ns.map Node.shape = (entries.map fun e => importEntry e.1 e.2).map Node.shape ∧
      (∀ before, ns.foldl (fun before n => addImportLead before n.kind) before = before) ∧
      (ns.filterMap fun n => importNameText n.kind) = entries.map fun e => renamedText e.1 e.2 := by
  induction ns with
  | nil => exact ⟨[], List.forall_mem_nil _, rfl, fun _ => rfl, rfl⟩
  | cons n ns ih =>
    obtain ⟨hd, hds⟩ := List.forall_mem_cons.mp h
    obtain ⟨hn, hns⟩ := List.forall_mem_cons.mp hn
    obtain ⟨entries, hentries, hshapes, hlead, hnames⟩ := ih hds hns
    cases hd with
    | @importSpecifier _ _ _ imported _ hb =>
      obtain ⟨name, hname, htext, hshape⟩ := exists_name_of_derives hb
      refine ⟨(imported, name) :: entries, List.forall_mem_cons.mpr ⟨hname, hentries⟩, ?_, hlead, ?_⟩
      · exact congrArg₂ List.cons (Node.shape_congr (by rw [Kind.map, Kind.map, hshape])) hshapes
      · rw [List.filterMap_cons_some (b := renamedText imported name), hnames, List.map_cons]
        rw [renamedText_of_isPlainName hname]
        simp [importNameText, htext, Node.kind]
    | importDefaultSpecifier | importNamespaceSpecifier => cases hn

/-- The part of an import behind the default import, as it is printed. -/
theorem exists_list {y : Bool} {ns : List Node} (hne : ns ≠ [])
    (h : ∀ n ∈ ns, Derives y .importSpecifier n)
    (hform : (∃ n : Node, ns = [n] ∧ n.isNamespaceImport = true) ∨
      ∀ n ∈ ns, n.isNamedImport = true) :
    ∃ xs ms t, ReadsList xs ms ∧ ms.map Node.shape = ns.map Node.shape ∧
      Writes (Pieces.chars t) xs NameEnds ∧ t ≠ [] ∧
      ∀ before, importClauses before ns = addClause before t := by
  rcases hform with ⟨n, rfl, hn⟩ | hn
  · obtain ⟨name, hname, hshape, htext⟩ := exists_namespace (h n List.mem_cons_self) hn
    refine ⟨_, _, say ("* as " ++ name), readsList_namespace hname,
      congrArg (· :: []) hshape.symm, ?_, List.cons_ne_nil _ _, htext⟩
    have hbehind := (Writes.plainName hname).between "as" ⟨by decide, by decide⟩
    refine .of_eq ((Writes.spaced .star).append hbehind fun _ _ => rfl) ?_
    simp [Punctuator.text]
  · obtain ⟨entries, hentries, hshapes, hlead, hnames⟩ := exists_named h hn
    have hsome : entries ≠ [] := by
      rintro rfl
      exact hne (List.map_eq_nil_iff.mp hshapes)
    refine ⟨_, _, _, readsList_named hentries, hshapes.symm,
      (Writes.entries hsome).mono fun _ _ => trivial, List.cons_ne_nil _ _, fun before => ?_⟩
    rw [importClauses, hlead, hnames, List.map_map]
    simp only [List.isEmpty_map, List.isEmpty_eq_false_iff.mpr hsome]
    rfl

theorem nameEnds_fromModule (source : String) (r : List Char) :
    NameEnds ((" from " ++ (quote source ++ ";")).toList ++ r) := by
  rw [String.toList_append]
  exact nameEnds_space _

/-- The text of an import in which something is imported. -/
theorem chars_importText {specifiers : List Node} {t : Pieces} (source : String) (ht : t ≠ [])
    (h : importClauses [] specifiers = t) :
    (importText (specifiers.map fun n => (n, n.roles)) source).chars =
      Keyword.kwImport.text.toList ++
        ' ' :: (t.chars ++ (" from " ++ (quote source ++ ";")).toList) := by
  rw [importText_eq, h, List.isEmpty_eq_false_iff.mpr ht]
  simp [Keyword.text, sayIf]

theorem writesItem_imports {y : Bool} {id : Nat} {span : Span} {specifiers : List Node}
    {source : String} (hc : ImportClause specifiers)
    (h : ∀ n ∈ specifiers, Derives y .importSpecifier n) :
    WritesItem (importText (specifiers.map fun n => (n, n.roles)) source).chars
      (.mk id span (.importDeclaration specifiers source)) := by
  have hshape : ∀ {ms : List Node}, ms.map Node.shape = specifiers.map Node.shape →
      (Kind.plain (.importDeclaration ms source)).shape =
        (Node.mk id span (.importDeclaration specifiers source)).shape :=
    fun hms => Node.shape_congr (by rw [Kind.map, Kind.map, hms])
  have hfrom := Writes.fromModule source
  obtain ⟨lead, rest, rfl, hlead, hform⟩ := hc
  obtain ⟨hds, hns⟩ := List.forall_mem_append.mp h
  by_cases hrest : rest = []
  · subst hrest
    rcases hlead with rfl | ⟨d, rfl, hd⟩
    -- nothing is imported
    · have hend : Writes [';'] [.mark .semicolon] Anything := .closed rfl
      have htext := (Writes.string source (B := Anything)).append hend
        fun _ _ => trivial
      refine .of_reads (readsItem_bareImport source) (hshape rfl) (by simp) htext ?_
      simp [importText, sayIf, Keyword.text]
    -- the default export alone
    · obtain ⟨name, hname, hd, hclauses⟩ := exists_default (hds d List.mem_cons_self) hd
      have htext := (Writes.plainName hname).append hfrom fun r _ => nameEnds_fromModule source r
      refine .of_reads (readsItem_defaultImport hname source) (hshape (congrArg (· :: []) hd.symm))
        (List.forall_mem_cons.mpr ⟨ne_eof_of_isPlainName hname, ne_eof_fromLexemes source⟩) htext ?_
      have hall := chars_importText (t := say name) source (List.cons_ne_nil _ _) (hclauses [] [])
      rwa [chars_say] at hall
  · obtain ⟨xs, ms, t, hread, hshapes, hw, ht, hlist⟩ := exists_list hrest hns hform
    have hbehind := hw.append hfrom fun r _ => nameEnds_fromModule source r
    have hne := List.forall_mem_append.mpr ⟨hread.ne_eof, ne_eof_fromLexemes source⟩
    obtain ⟨mark, xs', rfl, -⟩ := hread.starts
    rcases hlead with rfl | ⟨d, rfl, hd⟩
    -- no default export
    · refine .of_reads (readsItem_listImport hread source) (hshape hshapes) hne hbehind ?_
      rw [List.nil_append, chars_importText source ht (hlist [])]
    -- the default export and others
    · obtain ⟨name, hname, hd, hclauses⟩ := exists_default (hds d List.mem_cons_self) hd
      have hcomma : Writes [','] [.mark .comma] Anything := .closed rfl
      have hall := (Writes.plainName hname).append
        (hcomma.append hbehind.space fun _ _ => trivial) fun _ _ => nameEnds_cons (by decide) _
      have htext : importClauses [] ([d] ++ rest) = say name ++ say ", " ++ t :=
        (hclauses [] rest).trans (hlist _)
      refine .of_reads (readsItem_fullImport hname hread source)
        (hshape (congrArg₂ List.cons hd.symm hshapes)) ?_ hall ?_
      · exact List.forall_mem_cons.mpr ⟨ne_eof_of_isPlainName hname,
          List.forall_mem_cons.mpr ⟨Lexeme.mark_ne_eof _, hne⟩⟩
      · rw [chars_importText (t := say name ++ say ", " ++ t) source (List.cons_ne_nil _ _) htext]
        simp

/-! ### The parts of an export -/

theorem writesItem_exportAll {id : Nat} {span : Span} {exported : Option String}
    {source : String} :
    WritesItem (exportAllText exported source).chars
      (.mk id span (.exportAllDeclaration exported source)) := by
  have hfrom := Writes.fromModule source
  cases exported with
  | none =>
    have htext := (Writes.spaced .star).append hfrom fun r _ => by
      rw [String.toList_append]
      rfl
    refine .of_reads (readsItem_exportAll none source) (Node.shape_congr rfl)
      (List.forall_mem_cons.mpr ⟨Lexeme.mark_ne_eof _, ne_eof_fromLexemes source⟩) htext ?_
    simp [exportAllText, Keyword.text, Punctuator.text]
  | some name =>
    have hname := (Writes.exportName name).append hfrom fun r _ => nameEnds_fromModule source r
    have htext := (Writes.spaced .star).append
      (hname.between "as" ⟨by decide, by decide⟩) fun _ _ => rfl
    refine .of_reads (readsItem_exportAll (some name) source) (Node.shape_congr rfl) ?_ htext ?_
    · refine List.forall_mem_cons.mpr ⟨Lexeme.mark_ne_eof _, ?_⟩
      refine List.forall_mem_cons.mpr ⟨Lexeme.name_ne_eof _, ?_⟩
      exact List.forall_mem_cons.mpr ⟨exportLexeme_ne_eof name, ne_eof_fromLexemes source⟩
    · simp [exportAllText, Keyword.text, Punctuator.text]

theorem exists_exports {y isLocal : Bool} {ns : List Node}
    (h : ∀ n ∈ ns, Derives y (.exportSpecifier isLocal) n) :
    ∃ entries : List (String × String), (isLocal = true → ∀ e ∈ entries, IsPlainName e.1) ∧
      ns.map Node.shape = (entries.map fun e => exportEntry e.1 e.2).map Node.shape ∧
      (ns.map fun n => (exportSpecifierText n.kind).chars) =
        entries.map fun e => (renamedText e.1 e.2).toList := by
  induction ns with
  | nil => exact ⟨[], fun _ => List.forall_mem_nil _, rfl, rfl⟩
  | cons n ns ih =>
    obtain ⟨hd, hds⟩ := List.forall_mem_cons.mp h
    obtain ⟨entries, hentries, hshapes, htexts⟩ := ih hds
    cases hd with
    | @exportSpecifier _ _ _ _ _ _ name exported hn =>
      refine ⟨(name, exported) :: entries,
        fun hl => List.forall_mem_cons.mpr ⟨hn hl, hentries hl⟩, ?_, ?_⟩
      · exact congrArg₂ List.cons (Node.shape_congr rfl) hshapes
      · refine congrArg₂ List.cons ?_ htexts
        by_cases hsame : name = exported
        · simp [exportSpecifierText, renamedText, Node.kind, Node.name?, sayIf, hsame]
        · simp [exportSpecifierText, renamedText, Node.kind, Node.name?, sayIf, hsame]

/-- The text of a list depends on the texts of its parts. -/
theorem chars_commaList_congr {ps qs : List Pieces} (h : ps.map chars = qs.map chars) :
    (commaList ps).chars = (commaList qs).chars := by
  fun_induction Pieces.commaList ps generalizing qs with
  | case1 => rw [List.map_eq_nil_iff.mp h.symm]; rfl
  | case2 p =>
    obtain ⟨q, rfl, hq⟩ := List.map_eq_singleton_iff.mp h.symm
    exact hq.symm
  | case3 p p' ps ih =>
    obtain ⟨q, qs, rfl, hq, hqs⟩ := List.map_eq_cons_iff.mp h.symm
    obtain ⟨q', qs, rfl, -, -⟩ := List.map_eq_cons_iff.mp hqs
    rw [commaList, chars_append, chars_append, chars_append, chars_append, hq, ih hqs.symm]

theorem writesItem_exports {y : Bool} {id : Nat} {span : Span} {specifiers : List Node}
    {source : Option String} (h : ∀ n ∈ specifiers, Derives y (.exportSpecifier source.isNone) n) :
    WritesItem (say "export " ++ exportListText (specifiers.map fun n => (n, n.roles)) source).chars
      (.mk id span (.exportNamedDeclaration none specifiers source)) := by
  obtain ⟨entries, hentries, hshapes, htexts⟩ := exists_exports h
  have hread := readsItem_exportList source fun hs => hentries (by rw [hs]; rfl)
  have hshape : (Kind.plain (.exportNamedDeclaration none
      (entries.map fun e => exportEntry e.1 e.2) source)).shape =
      (Node.mk id span (.exportNamedDeclaration none specifiers source)).shape :=
    Node.shape_congr (by rw [Kind.map, Kind.map, hshapes])
  have hlist : Writes (if specifiers.isEmpty then emptyBraces
      else braced (specifiers.map fun n => exportSpecifierText n.kind)).chars
      (inBraces (listed entries)) Anything := by
    cases specifiers with
    | nil =>
      -- no space stands between empty braces
      obtain rfl : entries = [] := List.map_eq_nil_iff.mp htexts.symm
      have hopen : Writes ['\x7b'] [.mark .leftBrace] Anything := .closed rfl
      have hclose : Writes ['\x7d'] [.mark .rightBrace] Anything := .closed rfl
      refine .of_eq (hopen.append hclose fun _ _ => trivial) ?_
      simp [emptyBraces, openBrace, closeBrace]
    | cons n ns =>
      have hne : entries ≠ [] := by
        rintro rfl
        cases htexts
      refine .of_eq (Writes.entries hne) ?_
      rw [if_neg (by simp), braced, braced, chars_append, chars_append, chars_append, chars_append]
      rw [chars_commaList_congr]
      rw [List.map_map, List.map_map]
      simpa [Function.comp_def] using htexts
  have hend : Writes [';'] [.mark .semicolon] Anything := .closed rfl
  have hbraces : ∀ x ∈ inBraces (listed entries), x.kind ≠ .eof :=
    List.forall_mem_cons.mpr ⟨Lexeme.mark_ne_eof _, List.forall_mem_append.mpr
      ⟨ne_eof_listed entries, List.forall_mem_singleton.mpr (Lexeme.mark_ne_eof _)⟩⟩
  cases source with
  | none =>
    refine .of_reads hread hshape (List.forall_mem_append.mpr ⟨hbraces, ?_⟩)
      (hlist.append hend fun _ _ => trivial) ?_
    · exact List.forall_mem_singleton.mpr (Lexeme.mark_ne_eof .semicolon)
    · simp [exportListText, Keyword.text, Function.comp_def]
  | some value =>
    refine .of_reads hread hshape (List.forall_mem_append.mpr ⟨hbraces, ne_eof_fromLexemes value⟩)
      (hlist.append (Writes.fromModule value) fun _ _ => trivial) ?_
    simp [exportListText, Keyword.text, Function.comp_def]

/-! ## Modules -/

theorem Node.IsLink.not_isRemoved {n : Node} (h : n.IsLink) : n.isRemoved = false := by
  cases h <;> rfl

/-- As it is printed, an import or export is read as itself. -/
theorem Node.IsLink.writesItem {n : Node} (h : n.IsLink) (l : Layout) :
    WritesItem (n.roles.statement l).chars n := by
  cases h with
  | imports hc h =>
    rw [chars_statement]
    exact writesItem_imports hc h
  | exports h =>
    rw [chars_statement]
    exact writesItem_exports h
  | exportAll =>
    rw [chars_statement]
    exact writesItem_exportAll

/-- A module that has one item is read up to its end. -/
theorem gives_moduleBody_single {xs : List Lexeme} {n : Node} (hread : ReadsItem xs n)
    (hopen : ∃ x ys, xs = x :: ys ∧ x.kind ≠ .eof) (g : Grammar) {c : Context} {s : State}
    (hbound : xs.length < c.bound) (hs : s.Faces (xs ++ [.of .eof])) :
    Gives g.moduleBody c s fun ns _ => ns.map Node.shape = [n.shape] := by
  obtain ⟨x, ys, rfl, hx⟩ := hopen
  obtain ⟨bound, hc⟩ : ∃ b, c.bound = b + 2 := by
    rw [List.length_cons] at hbound
    exact ⟨c.bound - 2, by omega⟩
  have hkind : s.current.kind ≠ .eof := hs.kind ▸ hx
  refine .loop (hc ▸ .round (.bind (.current (.iteFalse (by simpa using hkind) ?_))))
  refine .step (.step (hread g c s _ hbound hs) fun m s1 hm => .pure (Q := fun r s' =>
    ∃ m, r = ([m], true) ∧ Stands n [.of .eof] m s') ⟨m, rfl, hm⟩) ?_
  rintro r s1 ⟨m, rfl, hm⟩
  refine .iteTrue rfl (.pure (.round (.bind (.current (.iteTrue ?_ (.pure ?_))))))
  · exact decide_eq_true hm.2.kind
  · exact congrArg (· :: []) hm.1

/-- An import or export alone in a module is read back as it is. -/
theorem Node.IsLink.rereadAs {n : Node} (h : n.IsLink) (id : Nat) (span : Span) :
    (Node.mk id span (.program [n])).RereadAs (.mk id span (.program [n])) := by
  intro source file file'
  obtain ⟨word, xs, m, hread, hshape, heof, hw⟩ := h.writesItem .top
  have hreads := hw.append (Writes.eof.newline rfl) (fun _ _ => trivial) 0 [] rfl
  have htext : (n.roles.statement .top).chars ++ ['\n'] =
      (Node.mk id span (.program [n])).printed.chars := by
    simp [Node.printed, Node.kind, lines, h.not_isRemoved, chars_indentation, Layout.top]
  rw [htext, List.append_nil] at hreads
  generalize hprinted : (Node.mk id span (.program [n])).printed.chars = printed at hreads
  have hfirst : firstCursor printed = ⟨0, printed⟩ := firstCursor_of_reads hreads (by simp)
  have hall : ∀ x ∈ Lexeme.word word :: xs, x.kind ≠ .eof :=
    List.forall_mem_cons.mpr ⟨Lexeme.word_ne_eof _, heof⟩
  -- repetitions have a round for each character, and so for each token
  have hlength : (Lexeme.word word :: xs).length ≤ printed.length := by
    obtain ⟨c, hfront, -⟩ := hreads.split
    exact Nat.le_trans (Nat.le_add_right _ _) (hfront.length_le hall)
  obtain ⟨items, s, hbody, hitems⟩ := gives_moduleBody_single hread
    ⟨_, _, rfl, hall _ List.mem_cons_self⟩ (Grammar.ofDepth (depthBound printed))
    (c := ⟨true, false, printed.length + 2⟩) (by simp only; omega)
    (State.Faces.start (hfirst ▸ hreads))
  refine ⟨_, parseModule_eq_ok.mpr ⟨items, s, ?_, rfl⟩, Node.shape_congr ?_⟩
  · subst hprinted
    exact hbody
  · rw [Kind.map, Kind.map, hitems, hshape]
    rfl

/-- **Quoting is undone by reading.** A quoted text is one string token with that text for its
value, and nothing behind it. So imports and exports are read back as they are, whatever the
strings that name modules and exports in them. -/
theorem quoting_undone :
    (∀ text : String, tokens (quote text).toList =
      [⟨.string text, ⟨0, byteSize (quote text).toList⟩, false⟩,
        ⟨.eof, ⟨byteSize (quote text).toList, byteSize (quote text).toList⟩, false⟩]) ∧
    ∀ n : Node, n.IsLink → ∀ (id : Nat) (span : Span),
      (Node.mk id span (.program [n])).RereadAs (.mk id span (.program [n])) := by
  refine ⟨fun text => ?_, fun n h id span => h.rereadAs id span⟩
  rw [quote, String.toList_ofList, tokens_quoted, String.ofList_toList]

/-- A quote in the name of a module and a line separator in the name of an export. -/
theorem quoting_undone_import :
    let name : Node := .mk 1 ⟨0, 0⟩ (.identifier "a")
    let n : Node := .mk 2 ⟨0, 0⟩ (.importDeclaration
      [.mk 3 ⟨0, 0⟩ (.importSpecifier "x\u2028\\" name)] "\"m\"")
    n.IsLink ∧ (Node.mk 0 ⟨0, 0⟩ (.program [n])).RereadAs (.mk 0 ⟨0, 0⟩ (.program [n])) := by
  intro name n
  have hname : Derives false .name name := .name (.inr ⟨by decide, by decide⟩)
  have hn : n.IsLink := .imports (y := false) ⟨[], _, rfl, .inl rfl, .inr ?_⟩
    (List.forall_mem_singleton.mpr (.importSpecifier hname))
  · exact ⟨hn, quoting_undone.2 n hn 0 ⟨0, 0⟩⟩
  · exact List.forall_mem_singleton.mpr rfl

end EsModule.Syntax
