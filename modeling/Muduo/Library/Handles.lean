import Mathlib.Data.List.Perm.Basic
import Muduo.Library.Ownership

/-!
# Numbered resources under handles that are used again

A handle names a resource only as long as the resource is there, and may name
another one later.  The resources that are watched therefore have numbers, and
`released` lists the numbers of those that are gone.  A release by someone who
does not hold what the handle names is a stray one.
-/

namespace Muduo.Library

universe u v

/-- Someone's resource; only those that are watched have a number. -/
structure Resource (Holder : Type v) where
  holder : Holder
  serial : Option Nat
  deriving DecidableEq, Repr

structure Handles (Handle : Type u) (Holder : Type v) where
  table : Handle → Option (Resource Holder)
  created : Nat
  released : List Nat
  strays : List Handle

namespace Handles

variable {Handle : Type u} {Holder : Type v}

def empty : Handles Handle Holder :=
  { table := fun _ => none, created := 0, released := [], strays := [] }

/-- Who holds what a handle names now. -/
def holder (handles : Handles Handle Holder) (handle : Handle) :
    Option Holder :=
  (handles.table handle).map Resource.holder

variable [DecidableEq Handle]

/-- A new resource with the next number. -/
def acquire (handles : Handles Handle Holder) (holder : Holder)
    (handle : Handle) : Handles Handle Holder :=
  { handles with
    table := write handles.table handle (some ⟨holder, some handles.created⟩)
    created := handles.created + 1 }

/-- A new resource that is not watched. -/
def adopt (handles : Handles Handle Holder) (holder : Holder)
    (handle : Handle) : Handles Handle Holder :=
  { handles with table := write handles.table handle (some ⟨holder, none⟩) }

/-- Somebody else becomes responsible for a resource. -/
def pass (handles : Handles Handle Holder) (holder : Holder)
    (handle : Handle) : Handles Handle Holder :=
  { handles with
    table := write handles.table handle
      ((handles.table handle).map fun resource => { resource with holder }) }

def release [DecidableEq Holder] (handles : Handles Handle Holder)
    (holder : Holder) (handle : Handle) : Handles Handle Holder :=
  let resource := handles.table handle
  { handles with
    table := write handles.table handle none
    released := handles.released ++ (resource.bind Resource.serial).toList
    strays := if handles.holder handle = some holder then handles.strays
      else handles.strays ++ [handle] }

/-- The watched resources that are there, under their handles; together with
those that are gone they are all that were ever created. -/
structure Accounted (handles : Handles Handle Holder)
    (live : List (Handle × Nat)) : Prop where
  nodup : (live.map Prod.fst).Nodup
  mem_iff : ∀ handle serial, (handle, serial) ∈ live ↔
    (handles.table handle).bind Resource.serial = some serial
  serials : (handles.released ++ live.map Prod.snd).Perm
    (List.range handles.created)

/-- Every watched resource is there or was released, and not twice. -/
def Balanced (handles : Handles Handle Holder) : Prop :=
  ∃ live, handles.Accounted live

variable {handles : Handles Handle Holder} {live : List (Handle × Nat)}
variable {holder : Holder} {handle : Handle}

omit [DecidableEq Handle] in
theorem holder_eq_none :
    handles.holder handle = none ↔ handles.table handle = none :=
  Option.map_eq_none_iff

theorem holder_acquire : (handles.acquire holder handle).holder =
    write handles.holder handle (some holder) := by
  funext other
  by_cases here : other = handle
  · simp [Handles.holder, acquire, here]
  · simp [Handles.holder, acquire, write_other here]

theorem holder_adopt : (handles.adopt holder handle).holder =
    write handles.holder handle (some holder) := by
  funext other
  by_cases here : other = handle
  · simp [Handles.holder, adopt, here]
  · simp [Handles.holder, adopt, write_other here]

theorem holder_pass (present : handles.holder handle ≠ none) :
    (handles.pass holder handle).holder =
      write handles.holder handle (some holder) := by
  obtain ⟨resource, found⟩ := Option.ne_none_iff_exists'.mp
    (mt holder_eq_none.mpr present)
  funext other
  by_cases here : other = handle
  · simp [Handles.holder, pass, here, found]
  · simp [Handles.holder, pass, write_other here]

theorem holder_release [DecidableEq Holder] :
    (handles.release holder handle).holder =
      write handles.holder handle none := by
  funext other
  by_cases here : other = handle
  · simp [Handles.holder, release, here]
  · simp [Handles.holder, release, write_other here]

namespace Accounted

omit [DecidableEq Handle] in
theorem empty : (Handles.empty : Handles Handle Holder).Accounted [] where
  nodup := List.nodup_nil
  mem_iff := by simp [Handles.empty]
  serials := by simp [Handles.empty]

omit [DecidableEq Handle] in
theorem perm (accounted : handles.Accounted live)
    {after : List (Handle × Nat)} (moved : live.Perm after) :
    handles.Accounted after where
  nodup := (moved.map Prod.fst).nodup_iff.mp accounted.nodup
  mem_iff handle serial := by
    rw [← accounted.mem_iff, moved.mem_iff]
  serials :=
    ((moved.map Prod.snd).append_left _).symm.trans accounted.serials

/-- Only the numbers in the table matter. -/
theorem renamed (accounted : handles.Accounted live)
    {resource : Option (Resource Holder)}
    (same : resource.bind Resource.serial =
      (handles.table handle).bind Resource.serial) :
    ({ handles with table := write handles.table handle resource } :
      Handles Handle Holder).Accounted live where
  nodup := accounted.nodup
  mem_iff other serial := by
    rw [accounted.mem_iff]
    by_cases here : other = handle
    · simp [here, same]
    · simp [write_other here]
  serials := accounted.serials

theorem acquire (accounted : handles.Accounted live)
    (free : handles.table handle = none) :
    (handles.acquire holder handle).Accounted
      ((handle, handles.created) :: live) where
  nodup := by
    rw [List.map_cons, List.nodup_cons]
    refine ⟨?_, accounted.nodup⟩
    intro member
    obtain ⟨⟨_, serial⟩, listed, rfl⟩ := List.mem_map.mp member
    have present := (accounted.mem_iff _ _).mp listed
    simp [free] at present
  mem_iff other serial := by
    rw [List.mem_cons, accounted.mem_iff]
    by_cases here : other = handle
    · subst here
      simp [Handles.acquire, free, eq_comm]
    · simp [Handles.acquire, write_other here, here]
  serials := by
    have moved : (handles.released ++ handles.created :: live.map Prod.snd).Perm
        ((handles.released ++ live.map Prod.snd) ++ [handles.created]) :=
      List.perm_middle.trans (List.perm_append_singleton _ _).symm
    simp only [Handles.acquire, List.map_cons, List.range_succ]
    exact moved.trans (accounted.serials.append_right _)

theorem release_head [DecidableEq Holder] {serial : Nat}
    (accounted : handles.Accounted ((handle, serial) :: live)) :
    (handles.release holder handle).Accounted live where
  nodup := (List.nodup_cons.mp accounted.nodup).2
  mem_iff other number := by
    have listed := accounted.mem_iff other number
    by_cases here : other = handle
    · subst here
      have absent := (List.nodup_cons.mp accounted.nodup).1
      simp only [Handles.release, write_same, Option.bind_none, reduceCtorEq,
        iff_false]
      intro member
      exact absent (List.mem_map.mpr ⟨(other, number), member, rfl⟩)
    · simpa [Handles.release, write_other here, here] using listed
  serials := by
    have number := (accounted.mem_iff handle serial).mp List.mem_cons_self
    simpa [Handles.release, number] using accounted.serials

end Accounted

omit [DecidableEq Handle] in
theorem Balanced.empty : (Handles.empty : Handles Handle Holder).Balanced :=
  ⟨[], .empty⟩

namespace Balanced

theorem acquire (balanced : handles.Balanced)
    (free : handles.table handle = none) :
    (handles.acquire holder handle).Balanced := by
  obtain ⟨live, accounted⟩ := balanced
  exact ⟨_, accounted.acquire free⟩

theorem adopt (balanced : handles.Balanced)
    (free : handles.table handle = none) :
    (handles.adopt holder handle).Balanced := by
  obtain ⟨live, accounted⟩ := balanced
  exact ⟨live, accounted.renamed (by simp [free])⟩

theorem pass (balanced : handles.Balanced) :
    (handles.pass holder handle).Balanced := by
  obtain ⟨live, accounted⟩ := balanced
  refine ⟨live, accounted.renamed ?_⟩
  cases handles.table handle with
  | none => rfl
  | some resource => rfl

theorem release [DecidableEq Holder] (balanced : handles.Balanced) :
    (handles.release holder handle).Balanced := by
  obtain ⟨live, accounted⟩ := balanced
  cases number : (handles.table handle).bind Resource.serial with
  | none =>
      have gone : ({ handles with table := write handles.table handle none } :
          Handles Handle Holder).Accounted live :=
        accounted.renamed (by simp [number])
      exact ⟨live, gone.nodup, gone.mem_iff, by
        simpa [Handles.release, number] using gone.serials⟩
  | some serial =>
      have member := (accounted.mem_iff handle serial).mpr number
      exact ⟨_, (accounted.perm (List.perm_cons_erase member)).release_head⟩

omit [DecidableEq Handle] in
/-- Nothing is released twice. -/
theorem released_nodup (balanced : handles.Balanced) :
    handles.released.Nodup := by
  obtain ⟨live, accounted⟩ := balanced
  have all := accounted.serials.nodup_iff.mpr List.nodup_range
  exact (List.nodup_append.mp all).1

omit [DecidableEq Handle] in
/-- Once no watched resource is left, each one was released exactly once. -/
theorem released_perm (balanced : handles.Balanced)
    (none : ∀ handle resource, handles.table handle = some resource →
      resource.serial = none) :
    handles.released.Perm (List.range handles.created) := by
  obtain ⟨live, accounted⟩ := balanced
  have nothing : live = [] := by
    apply List.eq_nil_iff_forall_not_mem.mpr
    intro ⟨handle, serial⟩ member
    obtain ⟨resource, found, number⟩ :=
      Option.bind_eq_some_iff.mp ((accounted.mem_iff handle serial).mp member)
    cases (none handle resource found).symm.trans number
  simpa [nothing] using accounted.serials

end Balanced

end Handles

end Muduo.Library
