import EsModule.Proofs.SourceMap.Place
import Mathlib.Data.List.Destutter

/-!
# Mappings are read back

`decodeMappings` reads the mappings of a source map as version 3 of the format says: semicolons
count the printed lines, commas part segments, and each segment is four numbers, which are added to
those of the segment before; the column in the printed text starts again on each line. The second
number chooses the source, and there is only one. A number is written by its difference to another
one, and `readVlq` reads one difference.

Segments are recorded in the order of the printed text. Of those that come to one place the first is
kept, so that what is written goes up from segment to segment (`distinctPlaces_spec`).

Main statements: what `encodeMappings` writes is read back, if the lines of the segments do not go
down (`decodeMappings_encodeMappings`). So reading what was written gives back the segments that
were recorded, less each whose place is that of the one kept before it (`decodeMappings_recorded`).
-/

namespace EsModule.SourceMap

open EsModule.Text

/-! ### Numbers -/

/-- The value of a digit. -/
def base64Value? (c : Char) : Option Nat := base64Alphabet.findIdx? (· == c)

theorem base64Value?_base64Digit {n : Nat} (h : n < 64) :
    base64Value? (base64Digit n) = some n := by
  have hall : ∀ i : Fin 64, base64Value? (base64Digit i) = some i.val := by decide +kernel
  exact hall ⟨n, h⟩

-- Capital letters come first, then small letters and figures, and two signs at the end.
example : "AZaz09+/".toList.map base64Value? =
    [some 0, some 25, some 26, some 51, some 52, some 61, some 62, some 63] := by decide

/-- The number at the front of a text in digits of five bits, and the text behind it. -/
def readGroups : List Char → Option (Nat × List Char)
  | [] => none
  | c :: cs =>
    match base64Value? c with
    | none => none
    | some group =>
      if group < 32 then some (group, cs)
      else (readGroups cs).map fun (high, rest) => (group - 32 + 32 * high, rest)

theorem readGroups_vlqGroups (n : Nat) (r : List Char) :
    readGroups ((vlqGroups n).map base64Digit ++ r) = some (n, r) := by
  fun_induction vlqGroups n with
  | case1 n h => simp [readGroups, base64Value?_base64Digit (show n < 64 by omega), h]
  | case2 n h ih =>
    have hvalue := base64Value?_base64Digit (show 32 + n % 32 < 64 by omega)
    simp only [List.map_cons, List.cons_append, readGroups, hvalue, ih,
      show ¬32 + n % 32 < 32 by omega, if_false, Option.map_some, Option.some.injEq,
      Prod.mk.injEq, and_true]
    omega

theorem length_readGroups {cs rest : List Char} {n : Nat} (h : readGroups cs = some (n, rest)) :
    rest.length < cs.length := by
  induction cs generalizing n with
  | nil => simp [readGroups] at h
  | cons c cs ih =>
    unfold readGroups at h
    split at h
    · cases h
    · split at h
      · obtain ⟨-, rfl⟩ := Prod.mk.inj (Option.some.inj h)
        simp
      · obtain ⟨⟨high, rest'⟩, hread, heq⟩ := Option.map_eq_some_iff.mp h
        obtain ⟨-, rfl⟩ := Prod.mk.inj heq
        exact Nat.lt_succ_of_lt (ih hread)

/-- The number whose sign stands in the lowest bit. -/
def unzigzag (n : Nat) : Int := if n % 2 = 1 then -((n / 2 : Nat) : Int) else ((n / 2 : Nat) : Int)

theorem unzigzag_zigzag (value : Int) : unzigzag (zigzag value) = value := by
  unfold unzigzag zigzag
  split <;> split <;> omega

/-- The signed number at the front of a text, and the text behind it. -/
def readVlq (cs : List Char) : Option (Int × List Char) :=
  (readGroups cs).map fun (n, rest) => (unzigzag n, rest)

/-- A difference is read back, whatever follows. -/
theorem readVlq_encodeVlq (value : Int) (rest : List Char) :
    readVlq (encodeVlq value ++ rest) = some (value, rest) := by
  simp only [readVlq, encodeVlq, readGroups_vlqGroups, Option.map_some, unzigzag_zigzag]

/-- A number that is given by its difference to another one, and the text behind it. -/
def readStep (last : Nat) (cs : List Char) : Option (Nat × List Char) :=
  (readGroups cs).bind fun (n, rest) => (last + unzigzag n).toNat?.map (·, rest)

theorem readStep_encodeStep (last n : Nat) (r : List Char) :
    readStep last (encodeStep last n ++ r) = some (n, r) := by
  have hsum : (last : Int) + ((n : Int) - last) = (n : Int) := by omega
  simp only [readStep, encodeStep, encodeVlq, readGroups_vlqGroups, Option.bind_some,
    unzigzag_zigzag, hsum]
  rfl

theorem length_readStep {last n : Nat} {cs rest : List Char}
    (h : readStep last cs = some (n, rest)) : rest.length < cs.length := by
  obtain ⟨⟨m, rest'⟩, hread, h⟩ := Option.bind_eq_some_iff.mp h
  obtain ⟨k, -, h⟩ := Option.map_eq_some_iff.mp h
  obtain ⟨-, rfl⟩ := Prod.mk.inj h
  exact length_readGroups hread

/-! ### Segments -/

/-- Whether a segment may end in front of a text. -/
def segmentEnds (cs : List Char) : Bool := cs.head?.all fun c => c == ',' || c == ';'

/-- The four numbers of a segment behind `last`, and the text behind them. -/
def readSegment (last : Segment) (cs : List Char) : Option (Segment × List Char) := do
  let (genColumn, cs) ← readStep last.genColumn cs
  let (fromSource, cs) ← readStep 0 cs
  let (srcLine, cs) ← readStep last.srcLine cs
  let (srcColumn, cs) ← readStep last.srcColumn cs
  if fromSource = 0 && segmentEnds cs then
    return (⟨last.genLine, genColumn, srcLine, srcColumn⟩, cs)
  else none

theorem length_readSegment {last s : Segment} {cs rest : List Char}
    (h : readSegment last cs = some (s, rest)) : rest.length < cs.length := by
  simp only [readSegment, Option.bind_eq_bind, Option.bind_eq_some_iff] at h
  obtain ⟨⟨_, cs1⟩, h1, ⟨_, cs2⟩, h2, ⟨_, cs3⟩, h3, ⟨_, cs4⟩, h4, h⟩ := h
  have h1 := length_readStep h1
  have h2 := length_readStep h2
  have h3 := length_readStep h3
  have h4 := length_readStep h4
  dsimp only at h1 h2 h3 h4 h
  split at h
  · obtain ⟨-, rfl⟩ := Prod.mk.inj (Option.some.inj h)
    omega
  · cases h

/-- The segments behind `last` in a text. -/
def decodeBehind (last : Segment) (cs : List Char) : Option (List Segment) :=
  match cs with
  | [] => some []
  | ';' :: cs => decodeBehind { last with genLine := last.genLine + 1, genColumn := 0 } cs
  | ',' :: cs => decodeBehind last cs
  | c :: cs =>
    match _h : readSegment last (c :: cs) with
    | some (s, rest) => (decodeBehind s rest).map (s :: ·)
    | none => none
termination_by cs.length
decreasing_by
  · simp
  · simp
  · exact length_readSegment _h

/-- The segments that are written in a text. -/
def decodeMappings (text : List Char) : Option (List Segment) := decodeBehind .zero text

theorem readSegment_encode (last s : Segment) {r : List Char} (hr : segmentEnds r = true)
    (hline : s.genLine = last.genLine) :
    readSegment last (encodeStep last.genColumn s.genColumn ++ encodeVlq 0 ++
      encodeStep last.srcLine s.srcLine ++ encodeStep last.srcColumn s.srcColumn ++ r) =
        some (s, r) := by
  have hzero : encodeVlq 0 = encodeStep 0 0 := rfl
  simp only [readSegment, hzero, List.append_assoc, readStep_encodeStep, Option.bind_eq_bind,
    Option.bind_some, hr, ← hline]
  rfl

/-- A text that starts with a segment. -/
theorem decodeBehind_of_readSegment {last s : Segment} {cs rest : List Char}
    (h : readSegment last cs = some (s, rest)) :
    decodeBehind last cs = (decodeBehind s rest).map (s :: ·) := by
  have hnone : ∀ {c : Char} {cs : List Char}, base64Value? c = none →
      readSegment last (c :: cs) ≠ some (s, rest) := by
    intro c cs hc
    simp [readSegment, readStep, readGroups, hc]
  cases cs with
  | nil => simp [readSegment, readStep, readGroups] at h
  | cons c cs =>
    rw [decodeBehind]
    · split
      · rename_i h'
        obtain ⟨rfl, rfl⟩ := Prod.mk.inj (Option.some.inj (h.symm.trans h'))
        rfl
      · rename_i h'
        cases h.symm.trans h'
    · rintro rfl
      exact hnone (by decide) h
    · rintro rfl
      exact hnone (by decide) h

/-- Semicolons move on by lines and back to the first column. -/
theorem decodeBehind_newLines (last : Segment) (n : Nat) (r : List Char) :
    decodeBehind last (List.replicate (n + 1) ';' ++ r) =
      decodeBehind { last with genLine := last.genLine + (n + 1), genColumn := 0 } r := by
  induction n generalizing last with
  | zero => simp [decodeBehind]
  | succ n ih =>
    rw [List.replicate_succ, List.cons_append, decodeBehind, ih]
    simp only [Nat.add_assoc, Nat.add_comm 1]

theorem segmentEnds_encodeBehind (last : Segment) (segments : List Segment) :
    segmentEnds (encodeBehind last segments) = true := by
  cases segments with
  | nil => rfl
  | cons s rest =>
    rw [encodeBehind]
    by_cases h : s.genLine - last.genLine = 0
    · simp [h, segmentEnds]
    · obtain ⟨n, hn⟩ := Nat.exists_eq_succ_of_ne_zero h
      simp [hn, segmentEnds, List.replicate_succ]

theorem decodeBehind_encodeBehind {last : Segment} {segments : List Segment}
    (h : (last :: segments).Pairwise fun s t => s.genLine ≤ t.genLine) :
    decodeBehind last (encodeBehind last segments) = some segments := by
  induction segments generalizing last with
  | nil => simp [encodeBehind, decodeBehind]
  | cons s rest ih =>
    rw [List.pairwise_cons] at h
    have hle := h.1 s List.mem_cons_self
    have hends := segmentEnds_encodeBehind s rest
    rw [encodeBehind]
    dsimp only
    split
    · rename_i hzero
      have hline : s.genLine = last.genLine := by omega
      rw [List.singleton_append, List.cons_append, List.cons_append, List.cons_append,
        List.cons_append, decodeBehind, decodeBehind_of_readSegment (readSegment_encode _ s hends hline),
        ih h.2]
      rfl
    · rename_i hlines
      obtain ⟨n, hn⟩ := Nat.exists_eq_succ_of_ne_zero hlines
      have hline : s.genLine = last.genLine + (n + 1) := by omega
      have hread := readSegment_encode
        { last with genLine := last.genLine + (n + 1), genColumn := 0 } s hends hline
      simp only [List.append_assoc] at hread
      rw [hn, List.append_assoc, List.append_assoc, List.append_assoc, List.append_assoc,
        decodeBehind_newLines, decodeBehind_of_readSegment hread, ih h.2]
      rfl

/-- Segments whose lines do not go down are read back. -/
theorem decodeMappings_encodeMappings {segments : List Segment}
    (h : segments.Pairwise fun s t => s.genLine ≤ t.genLine) :
    decodeMappings (encodeMappings segments) = some segments := by
  have hread : decodeBehind .zero (encodeBehind .zero segments) = some segments :=
    decodeBehind_encodeBehind (List.pairwise_cons.mpr ⟨fun s _ => Nat.zero_le _, h⟩)
  unfold decodeMappings encodeMappings
  dsimp only
  split
  · rename_i rest hcomma
    rwa [hcomma, decodeBehind] at hread
  · exact hread

/-! ### The order of segments -/

/-- The place of a segment in the printed text. -/
def Segment.place (s : Segment) : Nat × Nat := (s.genLine, s.genColumn)

/-- Whether a segment stands in front of another one in the printed text. -/
def Segment.Before (s t : Segment) : Prop :=
  s.genLine < t.genLine ∨ s.genLine = t.genLine ∧ s.genColumn < t.genColumn

/-- Lines do not go down where places do not. -/
theorem PlaceLE.genLine_le {s t : Segment} (h : PlaceLE s.place t.place) :
    s.genLine ≤ t.genLine := by
  unfold PlaceLE at h
  simp only [Segment.place] at h
  omega

theorem Segment.samePlace_iff {s t : Segment} : s.samePlace t = true ↔ s.place = t.place := by
  simp [samePlace, place]

theorem Segment.before_of_le {s t : Segment} (h : PlaceLE s.place t.place)
    (hne : s.samePlace t = false) : s.Before t := by
  rw [← Bool.not_eq_true, samePlace_iff] at hne
  unfold PlaceLE at h
  unfold Before
  simp only [place, Prod.mk.injEq] at h hne
  omega

theorem Segment.Before.le {s t : Segment} (h : s.Before t) : PlaceLE s.place t.place := by
  unfold Before at h
  unfold PlaceLE
  simp only [place]
  omega

/-! ### At most one segment for each place -/

theorem distinctPlaces_go {last : Segment} {segments : List Segment}
    (h : (last :: segments).Pairwise fun s t => PlaceLE s.place t.place) :
    (last :: distinctPlaces.go last segments).Pairwise Segment.Before ∧
      (∀ t ∈ distinctPlaces.go last segments, t ∈ segments) ∧
      ∀ s ∈ segments, ∃ t ∈ last :: distinctPlaces.go last segments, t.place = s.place := by
  fun_induction distinctPlaces.go last segments with
  | case1 last => exact ⟨List.pairwise_singleton _ _, by simp, by simp⟩
  | case2 last s rest hsame ih =>
    have hrest : (last :: rest).Pairwise fun s t => PlaceLE s.place t.place :=
      h.sublist ((List.sublist_cons_self s rest).cons_cons last)
    obtain ⟨hpair, hmem, hcover⟩ := ih hrest
    refine ⟨hpair, fun t ht => List.mem_cons_of_mem _ (hmem t ht), ?_⟩
    refine List.forall_mem_cons.mpr ⟨⟨last, List.mem_cons_self, ?_⟩, hcover⟩
    exact Segment.samePlace_iff.mp hsame
  | case3 last s rest hsame ih =>
    obtain ⟨hlast, hrest⟩ := List.pairwise_cons.mp h
    obtain ⟨hpair, hmem, hcover⟩ := ih hrest
    have hbefore : last.Before s :=
      Segment.before_of_le (hlast s List.mem_cons_self) (by simpa using hsame)
    refine ⟨List.pairwise_cons.mpr ⟨?_, hpair⟩, ?_, ?_⟩
    · refine List.forall_mem_cons.mpr ⟨hbefore, fun t ht => ?_⟩
      have := (List.pairwise_cons.mp hpair).1 t ht
      unfold Segment.Before at hbefore this ⊢
      omega
    · refine List.forall_mem_cons.mpr ⟨List.mem_cons_self, fun t ht => ?_⟩
      exact List.mem_cons_of_mem _ (hmem t ht)
    · refine List.forall_mem_cons.mpr ⟨⟨s, by simp, rfl⟩, fun t ht => ?_⟩
      obtain ⟨u, hu, hplace⟩ := hcover t ht
      exact ⟨u, List.mem_cons_of_mem _ hu, hplace⟩

/-- Of segments whose places do not go down, one is kept for each place. -/
theorem distinctPlaces_spec {segments : List Segment}
    (h : segments.Pairwise fun s t => PlaceLE s.place t.place) :
    (distinctPlaces segments).Pairwise Segment.Before ∧
      (∀ t ∈ distinctPlaces segments, t ∈ segments) ∧
      ∀ s ∈ segments, ∃ t ∈ distinctPlaces segments, t.place = s.place := by
  cases segments with
  | nil => exact ⟨.nil, by simp [distinctPlaces], by simp⟩
  | cons s rest =>
    obtain ⟨hpair, hmem, hcover⟩ := distinctPlaces_go h
    refine ⟨hpair, ?_, ?_⟩
    · exact List.forall_mem_cons.mpr ⟨List.mem_cons_self,
        fun t ht => List.mem_cons_of_mem _ (hmem t ht)⟩
    · exact List.forall_mem_cons.mpr ⟨⟨s, List.mem_cons_self, rfl⟩, hcover⟩

theorem distinctPlaces_go_eq (last : Segment) (added : List Segment) :
    last :: distinctPlaces.go last added =
      added.destutter' (fun s t => s.place ≠ t.place) last := by
  induction added generalizing last with
  | nil => rfl
  | cons s rest ih =>
    rw [distinctPlaces.go]
    by_cases hsame : last.place = s.place
    · rw [if_pos (Segment.samePlace_iff.mpr hsame), List.destutter'_cons_neg _ (not_not.mpr hsame),
        ih]
    · rw [if_neg (mt Segment.samePlace_iff.mp hsame), List.destutter'_cons_pos _ hsame, ih]

/-- What is kept are the segments that change the place of the one kept before them. -/
theorem distinctPlaces_eq_destutter (added : List Segment) :
    distinctPlaces added = added.destutter fun s t => s.place ≠ t.place := by
  cases added with
  | nil => rfl
  | cons s rest => exact distinctPlaces_go_eq s rest

/-! ### Recorded segments -/

/-- Segments that are recorded in the order of the printed text are read back as they were, in order
and without those at the place of the one kept before them; and each difference that is written is
read back with what follows it untouched. -/
theorem decodeMappings_recorded {added : List Segment}
    (h : added.Pairwise fun s t => PlaceLE s.place t.place) :
    decodeMappings (encodeMappings (distinctPlaces added)) =
        some (added.destutter fun s t => s.place ≠ t.place) ∧
      ∀ (value : Int) (rest : List Char),
        readVlq (encodeVlq value ++ rest) = some (value, rest) := by
  refine ⟨?_, readVlq_encodeVlq⟩
  rw [distinctPlaces_eq_destutter]
  have hkept := h.sublist (List.destutter_sublist (fun s t : Segment => s.place ≠ t.place) added)
  exact decodeMappings_encodeMappings (hkept.imp PlaceLE.genLine_le)

/-- Two segments at one place, lines without a segment, and differences of the greatest size in both
directions. -/
theorem decodeMappings_recorded_far :
    decodeMappings (encodeMappings (distinctPlaces
        [⟨0, 4, 0, 4294967295⟩, ⟨0, 4, 7, 7⟩, ⟨0, 9, 4294967295, 0⟩, ⟨3, 0, 0, 4294967295⟩])) =
      some [⟨0, 4, 0, 4294967295⟩, ⟨0, 9, 4294967295, 0⟩, ⟨3, 0, 0, 4294967295⟩] := by
  have hordered : ([⟨0, 4, 0, 4294967295⟩, ⟨0, 4, 7, 7⟩, ⟨0, 9, 4294967295, 0⟩,
      ⟨3, 0, 0, 4294967295⟩] : List Segment).Pairwise fun s t => PlaceLE s.place t.place := by
    simp [PlaceLE, Segment.place]
  exact (decodeMappings_recorded hordered).1

end EsModule.SourceMap
