import EsModule.Proofs.Loader.Following
import EsModule.Proofs.Loader.Turns

/-!
# Waits never form a circle

A wait is made only if its target does not wait for the waiting store id, and finding that out and
making the wait are one step. Since the search finds out rightly who waits for whom, also through
others (`Graph.reaches_iff`), no wait ever closes a circle; and waits that end cannot make one. So
at every moment no store id waits for itself, whoever asks for what, whatever fails or is dropped,
and also if the loader is torn down in between (`waits_acyclic`).
-/

namespace EsModule.Loader

open Relation

namespace Graph

/-- No store id waits for itself, neither directly nor through others. -/
def WaitsAcyclic (g : Graph) : Prop := ∀ s, ¬ TransGen g.WaitsOn s s

variable {site : Site} {g g' : Graph}

/-! ## Waits that are made and waits that end -/

/-- Where waits only end, no circle arises. -/
theorem WaitsAcyclic.thin (h : g.WaitsAcyclic) (hthin : ∀ w ∈ g'.waits, w ∈ g.waits) :
    g'.WaitsAcyclic :=
  fun s hs => h s (TransGen.mono (fun _ _ hw => hthin _ hw) _ _ hs)

/-- A path that may take one more wait either does without it, or leads to its waiter and goes on
from its target. -/
theorem transGen_addWait {w : Wait} {a b : String} (h : TransGen (g.addWait w).WaitsOn a b) :
    TransGen g.WaitsOn a b ∨
      ReflTransGen g.WaitsOn a w.waiter ∧ ReflTransGen g.WaitsOn w.target b := by
  induction h with
  | single hw =>
    rcases mem_addWait hw with hw | rfl
    · exact .inl (.single hw)
    · exact .inr ⟨.refl, .refl⟩
  | tail _ hw ih =>
    rcases mem_addWait hw with hw | rfl
    · exact ih.imp (·.tail hw) fun hpath => ⟨hpath.1, hpath.2.tail hw⟩
    · exact .inr ⟨ih.elim TransGen.to_reflTransGen (·.1), .refl⟩

/-- A wait closes no circle if its target does not wait for its waiter. -/
theorem WaitsAcyclic.addWait (h : g.WaitsAcyclic) {w : Wait}
    (hw : ¬ ReflTransGen g.WaitsOn w.target w.waiter) : (g.addWait w).WaitsAcyclic := by
  intro s hs
  rcases transGen_addWait hs with hs | ⟨hto, hfrom⟩
  · exact h s hs
  · exact hw (hfrom.trans hto)

/-! ## What happens keeps the waits without circles -/

theorem waits_taskFor (g : Graph) (storeId : String) (request : Url) :
    (g.taskFor storeId request).2.waits = g.waits := by
  unfold taskFor
  split <;> rfl

theorem WaitsAcyclic.ensure (h : g.WaitsAcyclic) (storeId : String) (request : Url)
    (waiter : Option String) : (g.ensure storeId request waiter).2.WaitsAcyclic := by
  have htask : (g.taskFor storeId request).2.WaitsAcyclic :=
    h.thin fun _ hw => waits_taskFor g storeId request ▸ hw
  unfold Graph.ensure
  split
  · rename_i heq
    rwa [heq] at htask
  · rename_i heq
    rwa [heq] at htask
  · rename_i heq
    rw [heq] at htask
    split
    · exact htask
    · rename_i hreaches
      exact htask.addWait fun hpath => hreaches ((reaches_iff _ _ _).mpr hpath)

theorem WaitsAcyclic.askForAll (h : g.WaitsAcyclic) (storeId : String) (realUrl : Url)
    (specifiers : List String) (children : Children) :
    (askForAll storeId realUrl specifiers children g).2.WaitsAcyclic := by
  induction specifiers generalizing children g with
  | nil => exact h
  | cons specifier specifiers ih =>
    unfold Graph.askForAll
    split
    · exact ih (h.ensure _ _ _) _
    · exact h
    · exact h

theorem WaitsAcyclic.finish (h : g.WaitsAcyclic) (t : Nat) (outcome : Outcome) :
    (g.finish t outcome).WaitsAcyclic :=
  h.thin fun _ hw => waits_finish g t outcome ▸ hw

theorem WaitsAcyclic.abandon (h : g.WaitsAcyclic) (t : Nat) (storeId : String)
    (awaits : List Await) (e : LoadError) : (g.abandon t storeId awaits e).WaitsAcyclic :=
  WaitsAcyclic.finish (h.thin fun _ => waits_removeWaits) t _

theorem WaitsAcyclic.analyse (h : g.WaitsAcyclic) (t : Nat) (storeId : String) (r : Response) :
    (g.analyse t storeId r).WaitsAcyclic := by
  unfold Graph.analyse
  split
  · exact h.finish _ _
  · rename_i m _
    have hstart : (if hasStars m.interface then g
        else { g with declared := g.declared.insert storeId m.interface.declared }).WaitsAcyclic :=
      h.thin fun _ hw => by split at hw <;> exact hw
    have hask := hstart.askForAll storeId r.finalUrl m.interface.dependencies ⟨[], []⟩
    dsimp only
    split
    all_goals
      rename_i heq
      rw [heq] at hask
    · exact hask.thin fun _ => id
    · exact hask.abandon _ _ _ _

theorem TaskStep.waitsAcyclic (hs : TaskStep site g g') (h : g.WaitsAcyclic) :
    g'.WaitsAcyclic := by
  cases hs.acts with
  | nothing => exact h
  | request => exact h.thin fun _ => id
  | nearer => exact h.thin fun _ => id
  | finish => exact h.finish _ _
  | analyse => exact h.analyse _ _ _
  | arrive => exact h.thin fun _ => List.mem_of_mem_filter
  | giveUp => exact h.abandon _ _ _ _

theorem Turn.waitsAcyclic (ht : g.Turn g') (h : g.WaitsAcyclic) : g'.WaitsAcyclic := by
  cases ht with
  | task hs => exact hs.waitsAcyclic h
  | ensure storeId request waiter => exact h.ensure storeId request waiter
  | provide => exact h.thin fun _ => id
  | preload resource =>
    refine h.thin fun _ hw => ?_
    unfold Graph.preload at hw
    split at hw <;> exact hw
  | drop hthin => exact h.thin hthin

/-! ## All moments -/

theorem Turns.waitsAcyclic (ht : Turns g g') (h : g.WaitsAcyclic) : g'.WaitsAcyclic := by
  induction ht with
  | refl => exact h
  | tail _ hturn ih => exact hturn.waitsAcyclic ih

end Graph

/-- Whatever calls a loader serves, no store id ever comes to wait for itself. -/
theorem Serves.waitsAcyclic {s s' : Service} (hs : Serves s s')
    (h : s.world.graph.WaitsAcyclic) : s'.world.graph.WaitsAcyclic :=
  hs.turns.waitsAcyclic h

namespace Graph

/-- Whoever asks for what, and whatever comes to an end, fails, is dropped or is torn down in
between, no store id ever waits for itself. -/
theorem waits_acyclic {g : Graph}
    (h : ReflTransGen (fun g g' => g.Turn g' ∨ g' = g.clear) .empty g) : g.WaitsAcyclic := by
  have hclear : ∀ g : Graph, g.clear.WaitsAcyclic := fun g s hs => by
    obtain ⟨_, hw, -⟩ := TransGen.head'_iff.mp hs
    cases hw
  induction h with
  | refl => exact hclear .empty
  | tail _ hstep ih =>
    rcases hstep with hturn | rfl
    · exact hturn.waitsAcyclic ih
    · exact hclear _

/-- Three modules that depend on each other in a circle: the third one does not wait. -/
theorem waits_acyclic_circle : ∃ g : Graph,
    ReflTransGen (fun g g' => g.Turn g' ∨ g' = g.clear) .empty g ∧
    g.waits = [⟨"app:a", "app:b"⟩, ⟨"app:b", "app:c"⟩] ∧ g.tasks.size = 3 ∧ g.WaitsAcyclic := by
  let url (name : String) : Url := ⟨"app", none, .opaqueText name, none, none⟩
  let first := (empty.ensure "app:b" (url "b") (some "app:a")).2
  let second := (first.ensure "app:c" (url "c") (some "app:b")).2
  let third := (second.ensure "app:a" (url "a") (some "app:c")).2
  have hreach : ReflTransGen (fun g g' => Turn g g' ∨ g' = g.clear) empty third :=
    ((ReflTransGen.single (.inl (.ensure _ _ _))).tail (.inl (.ensure _ _ _))).tail
      (.inl (.ensure _ _ _))
  exact ⟨third, hreach, by decide +kernel, by decide +kernel, waits_acyclic hreach⟩

end Graph

end EsModule.Loader
