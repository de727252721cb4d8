import Mathlib.Data.List.Nodup
import Mathlib.Data.List.Perm.Basic
import Mathlib.Logic.Relation

/-!
# Depth-first traversals

A graph is given by what each place leads to, in order. A traversal takes places one after the
other. A place that was visited before is passed over; any other one is visited, and all that it
leads to is traversed before the next place is taken. `DepthFirst` says so by a rule for each case,
so the course of a traversal is fixed by the graph and the places that it begins with
(`DepthFirst.unique`), also if the graph has cycles.

Places are entered in pre-order and left in post-order. From a place where nothing was visited
before, exactly the places that can be reached are entered, each once.
-/

namespace EsModule.Loader

open Relation

/-! ## The course of a traversal -/

/-- The course of a traversal. -/
inductive Traversal where
  /-- Nothing is left. -/
  | done
  /-- A place is met that was visited before. -/
  | again (s : String) (rest : Traversal)
  /-- A place is visited: what it leads to comes before the rest. -/
  | first (s : String) (inner rest : Traversal)

/-- What happens in the course of a traversal. -/
inductive Mark where
  /-- A place is entered. -/
  | enter (s : String)
  /-- A place is met again and passed over. -/
  | again (s : String)
  /-- A place is left. -/
  | leave (s : String)
deriving DecidableEq

namespace Traversal

/-- The places in the order in which they are entered. -/
def preorder : Traversal → List String
  | .done => []
  | .again _ rest => rest.preorder
  | .first s inner rest => s :: inner.preorder ++ rest.preorder

/-- The places in the order in which they are left. -/
def postorder : Traversal → List String
  | .done => []
  | .again _ rest => rest.postorder
  | .first s inner rest => inner.postorder ++ s :: rest.postorder

/-- All that happens, in order. -/
def marks : Traversal → List Mark
  | .done => []
  | .again s rest => .again s :: rest.marks
  | .first s inner rest => .enter s :: inner.marks ++ .leave s :: rest.marks

/-- One traversal after the other. -/
def append : Traversal → Traversal → Traversal
  | .done, t => t
  | .again s rest, t => .again s (rest.append t)
  | .first s inner rest, t => .first s inner (rest.append t)

@[simp] theorem preorder_append (t t' : Traversal) :
    (t.append t').preorder = t.preorder ++ t'.preorder := by
  induction t with
  | done => rfl
  | again s rest ih => exact ih
  | first s inner rest _ ih => simp [append, preorder, ih]

@[simp] theorem marks_append (t t' : Traversal) :
    (t.append t').marks = t.marks ++ t'.marks := by
  induction t with
  | done => rfl
  | again s rest ih => simp [append, marks, ih]
  | first s inner rest _ ih => simp [append, marks, ih]

end Traversal

/-- The place that is entered. -/
def Mark.entered? : Mark → Option String
  | .enter s => some s
  | .again _ | .leave _ => none

/-- The place that is left. -/
def Mark.left? : Mark → Option String
  | .leave s => some s
  | .enter _ | .again _ => none

namespace Traversal

theorem entered_marks (t : Traversal) : t.marks.filterMap Mark.entered? = t.preorder := by
  induction t with
  | done => rfl
  | again s rest ih => exact ih
  | first s inner rest ihInner ih =>
    simp [marks, preorder, List.filterMap_cons, Mark.entered?, ihInner, ih]

theorem left_marks (t : Traversal) : t.marks.filterMap Mark.left? = t.postorder := by
  induction t with
  | done => rfl
  | again s rest ih => exact ih
  | first s inner rest ihInner ih =>
    simp [marks, postorder, List.filterMap_cons, Mark.left?, ihInner, ih]

/-- Every place that is entered is left. -/
theorem postorder_perm (t : Traversal) : t.postorder.Perm t.preorder := by
  induction t with
  | done => exact .refl _
  | again s rest ih => exact ih
  | first s inner rest ihInner ih =>
    exact List.perm_middle.trans ((ihInner.append ih).cons s)

end Traversal

/-! ## Traversals that go into the depth first -/

/-- A traversal of some places, after some were visited before, goes into the depth first. Also says
which places are visited then. -/
inductive DepthFirst (next : String → List String) :
    List String → List String → Traversal → List String → Prop where
  | done (seen : List String) : DepthFirst next seen [] .done seen
  | again {seen places seen' : List String} {s : String} {rest : Traversal} (hs : s ∈ seen)
    (hrest : DepthFirst next seen places rest seen') :
    DepthFirst next seen (s :: places) (.again s rest) seen'
  | first {seen places seen₁ seen₂ : List String} {s : String} {inner rest : Traversal}
    (hs : s ∉ seen) (hinner : DepthFirst next (s :: seen) (next s) inner seen₁)
    (hrest : DepthFirst next seen₁ places rest seen₂) :
    DepthFirst next seen (s :: places) (.first s inner rest) seen₂

namespace DepthFirst

variable {next : String → List String} {seen places seen' : List String} {t : Traversal}

/-- The course of a traversal is fixed. -/
theorem unique (h : DepthFirst next seen places t seen') {t' : Traversal} {seen'' : List String}
    (h' : DepthFirst next seen places t' seen'') : t = t' ∧ seen' = seen'' := by
  induction h generalizing t' seen'' with
  | done => cases h'; exact ⟨rfl, rfl⟩
  | again hs _ ih =>
    cases h' with
    | again _ hrest =>
      obtain ⟨rfl, rfl⟩ := ih hrest
      exact ⟨rfl, rfl⟩
    | first hs' => exact absurd hs hs'
  | first hs _ _ ihInner ih =>
    cases h' with
    | again hs' => exact absurd hs' hs
    | first _ hinner hrest =>
      obtain ⟨rfl, rfl⟩ := ihInner hinner
      obtain ⟨rfl, rfl⟩ := ih hrest
      exact ⟨rfl, rfl⟩

/-- A traversal may be taken up where another one has ended. -/
theorem append (h : DepthFirst next seen places t seen') {places' seen'' : List String}
    {t' : Traversal} (h' : DepthFirst next seen' places' t' seen'') :
    DepthFirst next seen (places ++ places') (t.append t') seen'' := by
  induction h with
  | done => exact h'
  | again hs _ ih => exact .again hs (ih h')
  | first hs hinner _ _ ih => exact .first hs hinner (ih h')

/-! ### Which places are entered -/

/-- The places that are visited in the end are those from before and those that were entered. -/
theorem mem_seen (h : DepthFirst next seen places t seen') (s : String) :
    s ∈ seen' ↔ s ∈ seen ∨ s ∈ t.preorder := by
  induction h with
  | done => simp [Traversal.preorder]
  | again _ _ ih => exact ih
  | first _ _ _ ihInner ih =>
    rw [ih, ihInner]
    simp only [Traversal.preorder, List.mem_cons, List.mem_append, List.cons_append]
    tauto

/-- A place that was visited is not entered again. -/
theorem notMem_preorder (h : DepthFirst next seen places t seen') {s : String} (hs : s ∈ seen) :
    s ∉ t.preorder := by
  induction h with
  | done => exact List.not_mem_nil
  | again _ _ ih => exact ih hs
  | @first seen places seen₁ seen₂ s' inner rest hs' hinner _ ihInner ih =>
    have hne : s ≠ s' := fun heq => hs' (heq ▸ hs)
    have hrest : s ∉ rest.preorder :=
      ih ((hinner.mem_seen s).mpr (.inl (List.mem_cons_of_mem _ hs)))
    simpa [Traversal.preorder, hne, hrest] using ihInner (List.mem_cons_of_mem _ hs)

/-- No place is entered twice. -/
theorem nodup_preorder (h : DepthFirst next seen places t seen') : t.preorder.Nodup := by
  induction h with
  | done => exact .nil
  | again _ _ ih => exact ih
  | @first seen places seen₁ seen₂ s inner rest _ hinner hrest ihInner ih =>
    -- what is visited by the end of the inner part is not entered in the rest
    have hlater : ∀ s' ∈ seen₁, s' ∉ rest.preorder := fun s' hs' => hrest.notMem_preorder hs'
    have hs : s ∈ seen₁ := (hinner.mem_seen s).mpr (.inl List.mem_cons_self)
    have hdisjoint : List.Disjoint inner.preorder rest.preorder := fun s' hs' =>
      hlater s' ((hinner.mem_seen s').mpr (.inr hs'))
    refine List.nodup_cons.mpr ⟨fun hmem => ?_, List.nodup_append'.mpr ⟨ihInner, ih, hdisjoint⟩⟩
    rcases List.mem_append.mp hmem with hmem | hmem
    · exact hinner.notMem_preorder List.mem_cons_self hmem
    · exact hlater s hs hmem

/-- The places that a traversal begins with are visited in the end. -/
theorem places_subset (h : DepthFirst next seen places t seen') : ∀ s ∈ places, s ∈ seen' := by
  induction h with
  | done => simp
  | again hs hrest ih =>
    exact List.forall_mem_cons.mpr ⟨(hrest.mem_seen _).mpr (.inl hs), ih⟩
  | @first seen places seen₁ seen₂ s inner rest _ hinner hrest _ ih =>
    have hs : s ∈ seen₁ := (hinner.mem_seen s).mpr (.inl List.mem_cons_self)
    exact List.forall_mem_cons.mpr ⟨(hrest.mem_seen s).mpr (.inl hs), ih⟩

/-- Wherever a place that was entered leads to, that is visited in the end. -/
theorem next_subset (h : DepthFirst next seen places t seen') :
    ∀ s ∈ t.preorder, ∀ s' ∈ next s, s' ∈ seen' := by
  induction h with
  | done => simp [Traversal.preorder]
  | again _ _ ih => exact ih
  | @first seen places seen₁ seen₂ s inner rest _ hinner hrest ihInner ih =>
    intro s₁ hs₁ s' hs'
    have hlater : s' ∈ seen₁ → s' ∈ seen₂ := fun h => (hrest.mem_seen s').mpr (.inl h)
    rcases List.mem_cons.mp hs₁ with rfl | hs₁
    · exact hlater (hinner.places_subset s' hs')
    rcases List.mem_append.mp hs₁ with hs₁ | hs₁
    · exact hlater (ihInner s₁ hs₁ s' hs')
    · exact ih s₁ hs₁ s' hs'

/-- A place that is entered can be reached from where the traversal begins. -/
theorem reached (h : DepthFirst next seen places t seen') :
    ∀ s ∈ t.preorder, ∃ s₀ ∈ places, ReflTransGen (fun a b => b ∈ next a) s₀ s := by
  induction h with
  | done => simp [Traversal.preorder]
  | again _ _ ih =>
    intro s hs
    obtain ⟨s₀, hs₀, hreach⟩ := ih s hs
    exact ⟨s₀, List.mem_cons_of_mem _ hs₀, hreach⟩
  | first _ _ _ ihInner ih =>
    intro s hs
    rcases List.mem_cons.mp hs with rfl | hs
    · exact ⟨s, List.mem_cons_self, .refl⟩
    rcases List.mem_append.mp hs with hs | hs
    · obtain ⟨s₁, hs₁, hreach⟩ := ihInner s hs
      exact ⟨_, List.mem_cons_self, .head hs₁ hreach⟩
    · obtain ⟨s₀, hs₀, hreach⟩ := ih s hs
      exact ⟨s₀, List.mem_cons_of_mem _ hs₀, hreach⟩

/-- If nothing was visited before, exactly those places are entered that can be reached. -/
theorem mem_preorder {s : String} (h : DepthFirst next [] [s] t seen') (s' : String) :
    s' ∈ t.preorder ↔ ReflTransGen (fun a b => b ∈ next a) s s' := by
  have hseen : ∀ s₁, s₁ ∈ seen' → s₁ ∈ t.preorder := fun s₁ hs₁ =>
    ((h.mem_seen s₁).mp hs₁).resolve_left List.not_mem_nil
  constructor
  · intro hs'
    obtain ⟨s₀, hs₀, hreach⟩ := h.reached s' hs'
    rwa [List.mem_singleton.mp hs₀] at hreach
  · intro hreach
    induction hreach with
    | refl => exact hseen s (h.places_subset s List.mem_cons_self)
    | tail _ hnext ih => exact hseen _ (h.next_subset _ ih _ hnext)

end DepthFirst

end EsModule.Loader
