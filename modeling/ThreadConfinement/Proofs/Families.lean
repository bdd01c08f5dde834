import ThreadConfinement.Pass.Call
import Mathlib.Data.List.Induction

/-!
Children and their parents: the tables by which a pass finds the methods that
others override, and what it makes of their tags.

Both tables are filled edge by edge.  `getElem?_parentTable` reads them off the
edges: an entry has the parents of the child, joined in the order of their
edges.  `Agreement.tag?_foldl_add` says that the loop over the tags of parents
compares all of them with the first.
-/

namespace ThreadConfinement

/-- The parents of a child by its edges, in their order and with repetitions. -/
def parentsOf (overrides : List OverrideEdge) (child : DeclId) : List DeclId :=
  (overrides.filter (fun e => e.child == child)).map OverrideEdge.parent

theorem parentsOf_append (done rest : List OverrideEdge) (child : DeclId) :
    parentsOf (done ++ rest) child =
      parentsOf done child ++ parentsOf rest child := by
  simp [parentsOf]

theorem parentsOf_singleton (e : OverrideEdge) (child : DeclId) :
    parentsOf [e] child = if e.child = child then [e.parent] else [] := by
  by_cases hchild : e.child = child <;> simp [parentsOf, hchild]

theorem mem_parentsOf {overrides : List OverrideEdge} {child parent : DeclId} :
    parent ∈ parentsOf overrides child ↔ ⟨child, parent⟩ ∈ overrides := by
  rw [parentsOf, List.mem_map]
  constructor
  · rintro ⟨e, he, rfl⟩
    obtain ⟨he, hchild⟩ := List.mem_filter.mp he
    rw [← beq_iff_eq.mp hchild]
    exact he
  · intro he
    exact ⟨_, List.mem_filter.mpr ⟨he, beq_self_eq_true child⟩, rfl⟩

/-! ### Tables -/

/-- An entry has the parents of its child, joined in the order of their
edges. -/
theorem getElem?_parentTable (keep : DeclId → Bool)
    (join : List DeclId → DeclId → List DeclId) (overrides : List OverrideEdge)
    (id : DeclId) :
    (parentTable keep join overrides)[id]? =
      if keep id ∧ parentsOf overrides id ≠ [] then
        some ((parentsOf overrides id).foldl join [])
      else none := by
  induction overrides using List.reverseRecOn generalizing id with
  | nil => simp [parentTable, parentsOf]
  | append_singleton known e ih =>
      have hstep : parentTable keep join (known ++ [e]) =
          if keep e.child then
            (parentTable keep join known).insert e.child
              (join ((parentTable keep join known).getD e.child []) e.parent)
          else parentTable keep join known := by
        simp [parentTable]
      rw [hstep, parentsOf_append, parentsOf_singleton]
      by_cases hkeep : keep e.child = true
      · by_cases hid : e.child = id
        · subst hid
          have hknown : (parentTable keep join known).getD e.child [] =
              (parentsOf known e.child).foldl join [] := by
            rw [Std.ExtTreeMap.getD_eq_getD_getElem?, ih]
            by_cases hnone : parentsOf known e.child = []
            · simp [hnone]
            · simp [hnone, hkeep]
          simp [hkeep, hknown]
        · simp [hkeep, hid, Std.ExtTreeMap.getElem?_insert, ih]
      · by_cases hid : e.child = id
        · subst hid
          simp [hkeep, ih]
        · simp [hkeep, hid, ih]

/-- One more item goes to the end, unless it is known. -/
theorem eraseDups_append_singleton {α : Type} [DecidableEq α]
    (known : List α) (a : α) :
    (known ++ [a]).eraseDups =
      if a ∈ known.eraseDups then known.eraseDups
      else known.eraseDups ++ [a] := by
  rw [List.eraseDups_append]
  by_cases hknown : a ∈ known
  · simp [List.removeAll, hknown]
  · simp [List.removeAll, hknown, List.eraseDups_cons]

/-- Items that go to the end unless they are known make a list without
repetitions. -/
theorem foldl_append_new {α : Type} [DecidableEq α] (items : List α) :
    items.foldl (fun known a => if a ∈ known then known else known ++ [a]) [] =
      items.eraseDups := by
  induction items using List.reverseRecOn with
  | nil => rfl
  | append_singleton known a ih =>
      rw [List.foldl_append, ih, eraseDups_append_singleton]
      rfl

namespace Context

theorem checks_eq_true_iff {ctx : Context} {id : DeclId} :
    ctx.checks id = true ↔
      ∃ d, ctx.model.find? id = some d ∧ ctx.skipReason? d = none := by
  simp [checks, Option.any_eq_true]

/-- A child that is checked stands in the table with its distinct parents, and
no other does. -/
theorem getElem?_parentsByChild (ctx : Context) (overrides : List OverrideEdge)
    (id : DeclId) :
    (ctx.parentsByChild overrides)[id]? =
      if ctx.checks id ∧ parentsOf overrides id ≠ [] then
        some (parentsOf overrides id).eraseDups
      else none := by
  rw [parentsByChild, getElem?_parentTable, foldl_append_new]

end Context

/-- Every child has all of its parents in the index. -/
theorem getD_parentIndex (overrides : List OverrideEdge) (id : DeclId) :
    (parentIndex overrides).getD id [] = parentsOf overrides id := by
  have hjoin (parents : List DeclId) :
      parents.foldl (fun known parent => known ++ [parent]) [] = parents := by
    rw [List.foldl_append_eq_append, List.nil_append, ← List.flatMap_def,
      List.flatMap_singleton']
  rw [Std.ExtTreeMap.getD_eq_getD_getElem?, parentIndex,
    getElem?_parentTable, hjoin]
  by_cases hnone : parentsOf overrides id = []
  · simp [hnone]
  · simp [hnone]

/-! ### Tags that agree -/

/-- Without repetitions a list is its first item alone exactly when all items
are the same. -/
theorem length_eraseDups_cons_eq_one_iff {α : Type} [DecidableEq α] {a : α}
    {rest : List α} :
    (a :: rest).eraseDups.length = 1 ↔ ∀ b ∈ rest, b = a := by
  have hnil (items : List α) : items.eraseDups.length = 0 ↔ items = [] := by
    cases items with
    | nil => simp
    | cons b items => simp [List.eraseDups_cons]
  rw [List.eraseDups_cons, List.length_cons, Nat.add_eq_right, hnil,
    List.filter_eq_nil_iff]
  simp

/-- The first tag, if all mean the same thread. -/
def agreedTag? : List LocatedTag → Option LocatedTag
  | [] => none
  | first :: rest => if rest.all (first.sameTag ·) then some first else none

theorem agreedTag?_eq_some_iff {tags : List LocatedTag} {tag : LocatedTag} :
    agreedTag? tags = some tag ↔
      tags.head? = some tag ∧ ∀ other ∈ tags, other.tag = tag.tag := by
  cases tags with
  | nil => simp [agreedTag?]
  | cons first rest =>
      have hall : rest.all (first.sameTag ·) = true ↔
          ∀ other ∈ first :: rest, other.tag = first.tag := by
        simp [LocatedTag.sameTag, eq_comm (a := first.tag)]
      rw [agreedTag?, Option.ite_none_right_eq_some, hall,
        List.head?_cons, and_comm]
      refine and_congr_right (fun hfirst => ?_)
      rw [Option.some.inj hfirst]

namespace Agreement

/-- After a loop over tags the first one is found, and the threads are those of
all tags, each once. -/
theorem foldl_add_eq (tags : List LocatedTag) :
    (tags.foldl add {}).found = tags.head? ∧
      (tags.foldl add {}).threads = (tags.map (·.tag)).eraseDups := by
  induction tags using List.reverseRecOn with
  | nil => exact ⟨rfl, rfl⟩
  | append_singleton known tag ih =>
      obtain ⟨hfound, hthreads⟩ := ih
      rw [List.foldl_append, List.foldl_cons, List.foldl_nil, add, hfound,
        hthreads, List.map_append, List.map_singleton,
        eraseDups_append_singleton, List.head?_append]
      exact ⟨rfl, rfl⟩

/-- One thread is left over exactly when all tags mean the thread of the
first. -/
theorem tag?_foldl_add (tags : List LocatedTag) :
    (tags.foldl add {}).tag? = agreedTag? tags := by
  obtain ⟨hfound, hthreads⟩ := foldl_add_eq tags
  rw [tag?, hfound, hthreads]
  ext tag
  rw [agreedTag?_eq_some_iff, Option.ite_none_right_eq_some, and_comm]
  refine and_congr_right (fun hfirst => ?_)
  obtain ⟨rest, rfl⟩ := List.head?_eq_some_iff.mp hfirst
  rw [List.map_cons, length_eraseDups_cons_eq_one_iff, List.forall_mem_map,
    List.forall_mem_cons]
  simp

end Agreement

end ThreadConfinement
