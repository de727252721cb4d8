import EsModule.Proofs.Compile.ExportTable
import EsModule.Proofs.SourceMap.Decode
import EsModule.Proofs.SourceMap.Marks

/-!
# Source maps are faithful

The mappings of a printed tree, read back, are segments in the order of the printed text. Each ties
the place where a node is printed to the place in the source where that node starts (`Traces`), and
no node that comes from the source goes without one. This holds for every tree, so for one that was
read from a source and for the tree of a compiled module alike.
-/

namespace EsModule.SourceMap

open EsModule.Text EsModule.Syntax EsModule.Scope EsModule.Compile

/-! ### Segments come from marks -/

theorem text_cons_text (s : String) (ps : Pieces) : Pieces.text (.text s :: ps) = s ++ ps.text := by
  simp [Pieces.text]

theorem text_cons_mark (offset : Nat) (ps : Pieces) :
    Pieces.text (.mark offset :: ps) = ps.text := by
  simp [Pieces.text]

theorem text_append (ps qs : Pieces) : Pieces.text (ps ++ qs) = ps.text ++ qs.text := by
  simp [Pieces.text]

/-- The segment of a mark with some pieces in front of it, when these start at a line and a
column. -/
def segmentBehind (index : LineIndex) (line column : Nat) (front : Pieces) (offset : Nat) : Segment :=
  ⟨(moveOver line column front.text.toList).1, (moveOver line column front.text.toList).2,
    (index.locate offset).1, (index.locate offset).2⟩

theorem segmentBehind_text (index : LineIndex) (line column : Nat) (s : String) (front : Pieces)
    (offset : Nat) :
    segmentBehind index line column (.text s :: front) offset =
      segmentBehind index (moveOver line column s.toList).1 (moveOver line column s.toList).2 front
        offset := by
  simp only [segmentBehind, text_cons_text, String.toList_append, moveOver_append]

theorem segmentBehind_mark (index : LineIndex) (line column : Nat) (first : Nat) (front : Pieces)
    (offset : Nat) :
    segmentBehind index line column (.mark first :: front) offset =
      segmentBehind index line column front offset := by
  simp only [segmentBehind, text_cons_mark]

/-- There is a segment for each mark, and no other. -/
theorem mem_segmentsFrom {index : LineIndex} {line column : Nat} {ps : Pieces} {s : Segment} :
    s ∈ segmentsFrom index line column ps ↔
      ∃ (front : Pieces) (offset : Nat) (rest : Pieces), ps = front ++ .mark offset :: rest ∧
        s = segmentBehind index line column front offset := by
  induction ps generalizing line column with
  | nil => simp [segmentsFrom]
  | cons piece ps ih =>
    cases piece with
    | text t =>
      rw [segmentsFrom, ih]
      constructor
      · rintro ⟨front, offset, rest, rfl, rfl⟩
        exact ⟨.text t :: front, offset, rest, rfl, (segmentBehind_text ..).symm⟩
      · rintro ⟨front, offset, rest, h, rfl⟩
        cases front with
        | nil => simp at h
        | cons piece front =>
          obtain ⟨rfl, rfl⟩ := List.cons.inj h
          exact ⟨front, offset, rest, rfl, segmentBehind_text ..⟩
    | mark first =>
      rw [segmentsFrom, List.mem_cons, ih]
      constructor
      · rintro (rfl | ⟨front, offset, rest, rfl, rfl⟩)
        · exact ⟨[], first, ps, rfl, rfl⟩
        · exact ⟨.mark first :: front, offset, rest, rfl, (segmentBehind_mark ..).symm⟩
      · rintro ⟨front, offset, rest, h, rfl⟩
        cases front with
        | nil =>
          obtain ⟨hmark, rfl⟩ := List.cons.inj h
          obtain rfl := Piece.mark.inj hmark
          exact .inl rfl
        | cons piece front =>
          obtain ⟨rfl, rfl⟩ := List.cons.inj h
          exact .inr ⟨front, offset, rest, rfl, segmentBehind_mark ..⟩

/-- Segments come in the order of the printed text. -/
theorem segmentsFrom_pairwise (index : LineIndex) (line column : Nat) (ps : Pieces) :
    (segmentsFrom index line column ps).Pairwise fun s t => PlaceLE s.place t.place := by
  induction ps generalizing line column with
  | nil => exact .nil
  | cons piece ps ih =>
    cases piece with
    | text t => exact ih _ _
    | mark first =>
      refine List.pairwise_cons.mpr ⟨fun s hs => ?_, ih _ _⟩
      obtain ⟨front, offset, rest, -, rfl⟩ := mem_segmentsFrom.mp hs
      exact placeLE_moveOver line column front.text.toList

/-! ### Faithful maps -/

/-- The segment is for a node of the tree that is printed at its place and starts in the source at
the other one. -/
def Traces (root : Node) (source : List Char) (code : String) (s : Segment) : Prop :=
  ∃ n ∈ root.nodes, n.span.isEmpty = false ∧
    (s.srcLine, s.srcColumn) = placeAt source n.span.start ∧
    ∃ front own back, root.printed = front ++ own ++ back ∧ n.Prints own ∧
      (s.genLine, s.genColumn) = placeBehind front.text.toList ∧
      code = front.text ++ (own.text ++ back.text) ∧ own.text ++ back.text ≠ ""

/-- What the mappings of a printed tree say. -/
structure Faithful (root : Node) (source : List Char) (g : Generated) (segments : List Segment) :
    Prop where
  /-- The segments are what the mappings are read back as. -/
  read : decodeMappings g.map.mappings.toList = some segments
  /-- They stand in the order of the printed text, at most one at each place. -/
  ordered : segments.Pairwise Segment.Before
  /-- Each of them is for a node, and lies inside the printed text. -/
  traces : ∀ s ∈ segments, Traces root source g.code s
  /-- Wherever a node from the source is printed, there is a segment. -/
  complete : ∀ (n : Node) (front own back : Pieces), n.span.isEmpty = false →
    root.printed = front ++ own ++ back → n.Prints own →
      ∃ s ∈ segments, (s.genLine, s.genColumn) = placeBehind front.text.toList

theorem text_ne_empty {ps : Pieces} {s : String} (hs : .text s ∈ ps) (hne : s ≠ "") :
    ps.text ≠ "" := by
  obtain ⟨front, back, rfl⟩ := List.append_of_mem hs
  rw [text_append, text_cons_text]
  intro h
  refine hne (String.toList_inj.mp ?_)
  have := congrArg String.toList h
  simp only [String.toList_append, String.toList_empty, List.append_eq_nil_iff] at this
  simpa using this.2.1

theorem generate_faithful (root : Node) (source file : String) :
    ∃ segments, Faithful root source.toList (generate root source file) segments := by
  have hpairs := segmentsFrom_pairwise (.ofSource source.toList) 0 0 root.printed
  obtain ⟨hordered, hmem, hcover⟩ := distinctPlaces_spec hpairs
  refine ⟨segments source.toList root.printed, ?read, hordered, ?traces, ?complete⟩
  case read =>
    have hlines : (segments source.toList root.printed).Pairwise
        fun s t => s.genLine ≤ t.genLine :=
      hordered.imp fun h => h.le.genLine_le
    simpa [generate] using decodeMappings_encodeMappings hlines
  case traces =>
    intro s hs
    obtain ⟨front, offset, rest, hprinted, rfl⟩ := mem_segmentsFrom.mp (hmem s hs)
    obtain ⟨n, hn, hspan, rfl, own, back, hown, hprints⟩ := owned_printed root _ _ _ hprinted
    obtain ⟨t, ht, hne⟩ := followed_printed root _ _ _ hprinted
    have htext : own.text ++ back.text = Pieces.text rest := by
      rw [← text_append, ← hown, text_cons_mark]
    refine ⟨n, hn, hspan, locate_eq_placeAt _ _, front, own, back, ?_, hprints,
      moveOver_eq_placeBehind _, ?_, ?_⟩
    · rw [hprinted, hown, List.append_assoc]
    · rw [htext]
      show root.printed.text = _
      rw [hprinted, text_append, text_cons_mark]
    · rw [htext]
      exact text_ne_empty ht hne
  case complete =>
    intro n front own back hspan hprinted hprints
    obtain ⟨rest, rfl⟩ := hprints.starts
    have hmark : Pieces.mark n.span = [.mark n.span.start] := by simp [Pieces.mark, hspan]
    have hat : segmentBehind (.ofSource source.toList) 0 0 front n.span.start ∈
        segmentsFrom (.ofSource source.toList) 0 0 root.printed :=
      mem_segmentsFrom.mpr ⟨front, _, rest ++ back, by simp [hprinted, hmark], rfl⟩
    obtain ⟨t, ht, hplace⟩ := hcover _ hat
    exact ⟨t, ht, hplace.trans (moveOver_eq_placeBehind _)⟩

/-- The source maps of an accepted source are faithful: that of its printed tree, and that of the
module compiled from it. -/
theorem mappings_faithful (source file : String) :
    (∀ root, parseModule source file = .ok root →
      ∃ segments, Faithful root source.toList (generate root source file) segments) ∧
    ∀ m, Module.ofSource source file = .ok m → ∀ lookup out, m.output lookup = .ok out →
      ∃ segments, Faithful (m.finalTree lookup) source.toList ⟨out.code, out.map⟩ segments := by
  refine ⟨fun root _ => generate_faithful root source file, ?_⟩
  intro m hm lookup out hout
  obtain ⟨rfl, rfl, -⟩ := isRead_of_ofSource hm
  obtain ⟨-, rfl⟩ := output_eq_ok.mp hout
  have hfaithful := generate_faithful (m.finalTree lookup) m.source m.file
  dsimp only
  generalize generate (m.finalTree lookup) m.source m.file = g at hfaithful
  exact hfaithful

/-- A template that holds a line end and a character of two units, with names behind it on a line. -/
theorem mappings_faithful_template : ∃ root m out,
    parseModule "import {a} from 'x'; f(`\n😀${a}`, a);" "test.js" = .ok root ∧
    Module.ofSource "import {a} from 'x'; f(`\n😀${a}`, a);" "test.js" = .ok m ∧
    m.output noExports = .ok out ∧
    (∃ segments, Faithful root "import {a} from 'x'; f(`\n😀${a}`, a);".toList
      (generate root "import {a} from 'x'; f(`\n😀${a}`, a);" "test.js") segments) ∧
    ∃ segments, Faithful (m.finalTree noExports) "import {a} from 'x'; f(`\n😀${a}`, a);".toList
      ⟨out.code, out.map⟩ segments := by
  have hok : (Module.ofSource "import {a} from 'x'; f(`\n😀${a}`, a);" "test.js" >>=
      fun m => m.output noExports).isOk = true := by
    decide +kernel
  obtain ⟨out, h⟩ := exists_of_isOk hok
  obtain ⟨m, hm, hout⟩ := bind_eq_ok.mp h
  obtain ⟨root, hroot, -⟩ := bind_eq_ok.mp hm
  rw [mapError_eq_ok] at hroot
  obtain ⟨hprinted, hcompiled⟩ := mappings_faithful "import {a} from 'x'; f(`\n😀${a}`, a);" "test.js"
  exact ⟨root, m, out, hroot, hm, hout, hprinted root hroot, hcompiled m hm noExports out hout⟩

end EsModule.SourceMap
