import ThreadConfinement.Model
import Mathlib.Data.List.Perm.Subperm
import Mathlib.Logic.Relation

/-!
Subtypes at any depth.

The search takes positions from a queue and is cut off after as many steps as
there are types.  This is no loss: `Hierarchy.mem_search_iff` says that it takes
exactly the positions that can be reached downward, whatever cycles and diamonds
there are.  `Hierarchy.transitiveSubtypes_exact` says the same of the edges by
which a hierarchy was built, in whatever order they came.
-/

namespace ThreadConfinement

theorem DeclId.compare_eq_lt_iff {a b : DeclId} :
    compare a b = .lt ↔ a.toNat < b.toNat := by
  rw [toNat, toNat, ← UInt32.lt_iff_toNat_lt]
  exact Std.compare_eq_lt (a := a.raw)

theorem nodup_of_ascending {α : Type} {key : α → Nat} {as : List α}
    (has : as.Pairwise (fun first second => key first < key second)) :
    as.Nodup := by
  apply has.imp
  rintro first _ hlt rfl
  exact Nat.lt_irrefl _ hlt

/-- Two lists in ascending order with the same members are the same. -/
theorem eq_of_ascending {α : Type} {key : α → Nat} {as bs : List α}
    (has : as.Pairwise (fun first second => key first < key second))
    (hbs : bs.Pairwise (fun first second => key first < key second))
    (hmem : ∀ a, a ∈ as ↔ a ∈ bs) : as = bs := by
  apply List.Perm.eq_of_pairwise
    (fun _ _ _ _ hlt hgt => absurd hgt (Nat.lt_asymm hlt)) has hbs
  exact (List.perm_ext_iff_of_nodup (nodup_of_ascending has)
    (nodup_of_ascending hbs)).mpr hmem

namespace Hierarchy

/-! ### The search by positions -/

/-- Going down from the type at `top`, one comes to the one at `n`. -/
def Reaches (h : Hierarchy) : Nat → Nat → Prop :=
  Relation.ReflTransGen (fun sup sub => sub ∈ h.below sup)

/-- The positions that are met for the first time are visited and queued, each
once. -/
theorem exists_foldl_meet (ns : List Nat) (visited : PositionSet)
    (queue : List Nat) :
    ∃ fresh : List Nat, fresh.Nodup ∧ (∀ n, n ∈ fresh ↔ n ∈ ns ∧ n ∉ visited) ∧
      ns.foldl meet (visited, queue) =
        (visited.insertMany fresh, queue ++ fresh) := by
  induction ns generalizing visited queue with
  | nil => exact ⟨[], by simp⟩
  | cons first rest ih =>
      rw [List.foldl_cons, meet]
      by_cases hfirst : first ∈ visited
      · rw [if_pos hfirst]
        obtain ⟨fresh, hnodup, hmem, hfold⟩ := ih visited queue
        refine ⟨fresh, hnodup, ?_, hfold⟩
        intro n
        rw [hmem, List.mem_cons]
        constructor
        · rintro ⟨hrest, hnew⟩
          exact ⟨Or.inr hrest, hnew⟩
        · rintro ⟨rfl | hrest, hnew⟩
          · exact absurd hfirst hnew
          · exact ⟨hrest, hnew⟩
      · rw [if_neg hfirst]
        obtain ⟨fresh, hnodup, hmem, hfold⟩ :=
          ih (visited.insert first) (queue ++ [first])
        refine ⟨first :: fresh, List.nodup_cons.mpr ⟨?_, hnodup⟩, ?_, ?_⟩
        · intro hagain
          exact ((hmem first).mp hagain).2 (by simp)
        · intro n
          rw [List.mem_cons, hmem, List.mem_cons, Std.ExtTreeSet.mem_insert,
            Std.LawfulEqCmp.compare_eq_iff_eq]
          by_cases hn : n = first
          · simp [hn, hfirst]
          · simp [hn, Ne.symm hn]
        · rw [hfold, Std.ExtTreeSet.insertMany_cons, List.append_assoc,
            List.singleton_append]

/-- What holds of the search before each step: only what is queued has subtypes
that were not visited, and there are steps enough for the queue and all that was
not visited. -/
structure Search (h : Hierarchy) (start steps : Nat) (visited : PositionSet)
    (queue : List Nat) : Prop where
  root : start ∈ visited
  pending : ∀ n ∈ queue, n ∈ visited
  once : queue.Nodup
  reached : ∀ n ∈ visited, h.Reaches start n
  explored : ∀ n ∈ visited, n ∉ queue → ∀ sub ∈ h.below n, sub ∈ visited
  enough : ((List.range h.types.size).filter
    (fun n => n ∉ visited)).length + queue.length ≤ steps

theorem search_start (h : Hierarchy) {start : Nat}
    (hstart : start < h.types.size) :
    h.Search start h.types.size ((∅ : PositionSet).insert start) [start] where
  root := by simp
  pending n hn := by simpa using (List.mem_singleton.mp hn).symm
  once := by simp
  reached n hn := by
    have heq : start = n := by simpa using hn
    rw [heq]
    exact .refl
  explored n hn hnot := by
    have heq : start = n := by simpa using hn
    exact absurd (List.mem_singleton.mpr heq.symm) hnot
  enough := by
    have hfewer : ((List.range h.types.size).filter (fun n =>
        n ∉ (∅ : PositionSet).insert start)).length <
        (List.range h.types.size).length := by
      rw [List.length_filter_lt_length_iff_exists]
      exact ⟨start, List.mem_range.mpr hstart, by simp⟩
    rw [List.length_range] at hfewer
    rw [List.length_singleton]
    omega

/-- What was not visited before is met now or is still not visited. -/
theorem length_unvisited_insertMany {size : Nat} {visited : PositionSet}
    {fresh : List Nat} (hfresh : fresh.Nodup)
    (hmet : ∀ m ∈ fresh, m < size ∧ m ∉ visited) :
    fresh.length + ((List.range size).filter
        (fun m => m ∉ visited.insertMany fresh)).length ≤
      ((List.range size).filter (fun m => m ∉ visited)).length := by
  have hnodup : (fresh ++ (List.range size).filter
      (fun m => m ∉ visited.insertMany fresh)).Nodup := by
    refine List.nodup_append.mpr ⟨hfresh, List.nodup_range.filter _, ?_⟩
    rintro m hnew _ hleft rfl
    simp [hnew] at hleft
  have hsubset : fresh ++ (List.range size).filter
        (fun m => m ∉ visited.insertMany fresh) ⊆
      (List.range size).filter (fun m => m ∉ visited) := by
    intro m hm
    rw [List.mem_filter, List.mem_range, decide_eq_true_eq]
    rcases List.mem_append.mp hm with hnew | hleft
    · exact hmet m hnew
    · simp only [List.mem_filter, List.mem_range,
        Std.ExtTreeSet.mem_insertMany_list, decide_eq_true_eq, not_or] at hleft
      exact ⟨hleft.1, hleft.2.1⟩
  rw [← List.length_append]
  exact (hnodup.subperm hsubset).length_le

namespace Search

variable {h : Hierarchy} {start steps n : Nat} {visited : PositionSet}
  {queue fresh : List Nat}

/-- A step takes one position and queues what it meets, so that steps enough are
left. -/
theorem next (hsearch : h.Search start (steps + 1) visited (n :: queue))
    (hfresh : fresh.Nodup)
    (hmem : ∀ m, m ∈ fresh ↔ m ∈ h.below n ∧ m ∉ visited) :
    h.Search start steps (visited.insertMany fresh) (queue ++ fresh) where
  root := by simp [hsearch.root]
  pending m hm := by
    rw [Std.ExtTreeSet.mem_insertMany_list, List.contains_iff_mem]
    exact (List.mem_append.mp hm).imp_left (fun hold =>
      hsearch.pending m (List.mem_cons_of_mem n hold))
  once := by
    refine List.nodup_append.mpr ⟨(List.nodup_cons.mp hsearch.once).2,
      hfresh, ?_⟩
    rintro m hold _ hnew rfl
    exact ((hmem m).mp hnew).2 (hsearch.pending m (List.mem_cons_of_mem n hold))
  reached m hm := by
    rw [Std.ExtTreeSet.mem_insertMany_list, List.contains_iff_mem] at hm
    rcases hm with hold | hnew
    · exact hsearch.reached m hold
    · exact (hsearch.reached n (hsearch.pending n List.mem_cons_self)).tail
        ((hmem m).mp hnew).1
  explored m hm hnot sub hsub := by
    rw [Std.ExtTreeSet.mem_insertMany_list, List.contains_iff_mem] at hm ⊢
    rw [List.mem_append, not_or] at hnot
    have hold : m ∈ visited := hm.resolve_right hnot.2
    by_cases htaken : m = n
    · subst htaken
      by_cases hvisited : sub ∈ visited
      · exact Or.inl hvisited
      · exact Or.inr ((hmem sub).mpr ⟨hsub, hvisited⟩)
    · exact Or.inl (hsearch.explored m hold (by simp [htaken, hnot.1]) sub hsub)
  enough := by
    have hleft := length_unvisited_insertMany hfresh (fun m hm =>
      ⟨(h.within n m ((hmem m).mp hm).1).2, ((hmem m).mp hm).2⟩)
    have henough := hsearch.enough
    rw [List.length_append]
    rw [List.length_cons] at henough
    omega

/-- When the queue is empty, everything that can be reached was visited. -/
theorem mem_visited_iff (hsearch : h.Search start steps visited []) {m : Nat} :
    m ∈ visited ↔ h.Reaches start m := by
  refine ⟨hsearch.reached m, ?_⟩
  intro hpath
  induction hpath with
  | refl => exact hsearch.root
  | tail _ hsub ih => exact hsearch.explored _ ih (by simp) _ hsub

/-- What was taken before and what is taken from here on is together what can be
reached. -/
theorem mem_search_or_iff
    (hsearch : h.Search start steps visited queue) {m : Nat} :
    (m ∈ visited ∧ m ∉ queue) ∨ m ∈ h.search steps visited queue ↔
      h.Reaches start m := by
  induction steps generalizing visited queue with
  | zero =>
      have hnone : queue = [] := by
        have henough := hsearch.enough
        exact List.eq_nil_of_length_eq_zero (by omega)
      subst hnone
      rw [← hsearch.mem_visited_iff, search]
      simp
  | succ steps ih =>
      cases queue with
      | nil =>
          rw [← hsearch.mem_visited_iff, search]
          simp
      | cons n queue =>
          obtain ⟨fresh, hfresh, hmem, hfold⟩ :=
            exists_foldl_meet (h.below n) visited queue
          have htaken : n ∈ visited ∧ n ∉ queue :=
            ⟨hsearch.pending n List.mem_cons_self,
              (List.nodup_cons.mp hsearch.once).1⟩
          rw [← ih (hsearch.next hfresh hmem), search, hfold]
          simp only [List.mem_cons (l := h.search _ _ _), ← or_assoc]
          refine or_congr_left ?_
          simp only [List.mem_cons, List.mem_append, not_or,
            Std.ExtTreeSet.mem_insertMany_list, List.contains_iff_mem, hmem]
          by_cases hm : m = n
          · simp [hm, htaken]
          · simp only [hm, not_false_eq_true, true_and, or_false]
            constructor
            · rintro ⟨hvisited, hqueue⟩
              exact ⟨Or.inl hvisited, hqueue, fun hnew => hnew.2 hvisited⟩
            · rintro ⟨hvisited | hnew, hqueue, hnot⟩
              · exact ⟨hvisited, hqueue⟩
              · exact absurd hnew hnot

end Search

/-- The search takes exactly the positions that can be reached. -/
theorem mem_search_iff (h : Hierarchy) {start n : Nat}
    (hstart : start < h.types.size) :
    n ∈ h.search h.types.size ((∅ : PositionSet).insert start) [start] ↔
      h.Reaches start n := by
  rw [← (h.search_start hstart).mem_search_or_iff]
  simp [eq_comm (a := n)]

/-! ### From positions to types -/

/-- The type `sub` has `sup` among its direct supertypes. -/
def Extends (h : Hierarchy) (sup sub : DeclId) : Prop :=
  ∃ n m, n ∈ h.below m ∧ h.position? sub = some n ∧ h.position? sup = some m

/-- Positions that can be reached are those of types that can be reached. -/
theorem reaches_iff {h : Hierarchy} {root : DeclId} {start n : Nat}
    (hroot : h.position? root = some start) :
    h.Reaches start n ↔
      ∃ id, h.position? id = some n ∧
        Relation.ReflTransGen h.Extends root id := by
  constructor
  · intro hpath
    induction hpath with
    | refl => exact ⟨root, hroot, .refl⟩
    | @tail m n _ hsub ih =>
        obtain ⟨sup, hsup, hreach⟩ := ih
        obtain ⟨id, hid⟩ : ∃ id, h.types[n]? = some id :=
          ⟨_, Array.getElem?_eq_getElem (h.within m n hsub).2⟩
        have hposition := position?_eq_some_iff.mpr hid
        exact ⟨id, hposition, hreach.tail ⟨n, m, hsub, hposition, hsup⟩⟩
  · rintro ⟨id, hid, hpath⟩
    induction hpath generalizing n with
    | refl =>
        obtain rfl := Option.some.inj (hroot.symm.trans hid)
        exact .refl
    | tail _ hsub ih =>
        obtain ⟨sub, sup, hbelow, hsubAt, hsupAt⟩ := hsub
        obtain rfl := Option.some.inj (hsubAt.symm.trans hid)
        exact (ih hsupAt).tail hbelow

theorem mem_transitiveSubtypes_iff_reaches {h : Hierarchy}
    {root id : DeclId} {start : Nat} (hroot : h.position? root = some start) :
    id ∈ h.transitiveSubtypes root ↔
      ∃ n, h.Reaches start n ∧ n ≠ start ∧ h.position? id = some n := by
  simp [transitiveSubtypes, hroot,
    h.mem_search_iff (lt_size_of_position? hroot),
    position?_eq_some_iff, and_assoc]

/-- The types below a type are those that can be reached from it and differ from
it. -/
theorem mem_transitiveSubtypes_iff {h : Hierarchy} {root id : DeclId} :
    id ∈ h.transitiveSubtypes root ↔
      id ≠ root ∧ Relation.TransGen h.Extends root id := by
  cases hroot : h.position? root with
  | none =>
      simp only [transitiveSubtypes, hroot, List.not_mem_nil,
        false_iff, not_and]
      intro _ hpath
      obtain ⟨sub, ⟨n, m, -, -, hroot'⟩, -⟩ :=
        Relation.TransGen.head'_iff.mp hpath
      rw [hroot] at hroot'
      cases hroot'
  | some start =>
      rw [mem_transitiveSubtypes_iff_reaches hroot]
      constructor
      · rintro ⟨n, hreaches, hother, hid⟩
        obtain ⟨other, hotherAt, hpath⟩ := (reaches_iff hroot).mp hreaches
        obtain rfl := position?_inj hotherAt hid
        have hne : other ≠ root := by
          rintro rfl
          exact hother (Option.some.inj (hid.symm.trans hroot))
        rcases Relation.reflTransGen_iff_eq_or_transGen.mp hpath with
          heq | hpath
        · exact absurd heq hne
        · exact ⟨hne, hpath⟩
      · rintro ⟨hne, hpath⟩
        obtain ⟨sup, -, n, m, -, hid, -⟩ := Relation.TransGen.tail'_iff.mp hpath
        refine ⟨n, (reaches_iff hroot).mpr ⟨id, hid, hpath.to_reflTransGen⟩,
          ?_, hid⟩
        rintro rfl
        exact hne (position?_inj hid hroot)

/-- The types below a type come in ascending order, each once. -/
theorem pairwise_transitiveSubtypes (h : Hierarchy) (root : DeclId) :
    (h.transitiveSubtypes root).Pairwise
      (fun first second => first.toNat < second.toNat) := by
  rw [transitiveSubtypes]
  cases h.position? root with
  | none => exact .nil
  | some start =>
    exact Std.ExtTreeSet.ordered_toList.imp DeclId.compare_eq_lt_iff.mp

/-- Only which edges there are counts, not when they were added. -/
theorem transitiveSubtypes_congr {h h' : Hierarchy}
    (hsame : ∀ sup sub, h'.Extends sup sub ↔ h.Extends sup sub)
    (root : DeclId) :
    h'.transitiveSubtypes root = h.transitiveSubtypes root := by
  have hedges : h'.Extends = h.Extends := by
    funext sup sub
    exact propext (hsame sup sub)
  apply eq_of_ascending (h'.pairwise_transitiveSubtypes root)
    (h.pairwise_transitiveSubtypes root)
  intro id
  rw [mem_transitiveSubtypes_iff, mem_transitiveSubtypes_iff, hedges]

/-! ### Edges one by one -/

theorem below_addType (h : Hierarchy) (id : DeclId) (n : Nat) :
    (h.addType id).below n = h.below n := by
  unfold addType
  split <;> rfl

/-- A new type takes no position that was given before. -/
theorem position?_addType_iff {h : Hierarchy} {n : Nat}
    (hn : n < h.types.size) (id : DeclId) {other : DeclId} :
    (h.addType id).position? other = some n ↔ h.position? other = some n := by
  rw [position?_eq_some_iff, position?_eq_some_iff, addType]
  split
  · rw [Array.getElem?_push, if_neg (Nat.ne_of_lt hn)]
  · rfl

theorem exists_position?_addType (h : Hierarchy) (id : DeclId) :
    ∃ n, (h.addType id).position? id = some n := by
  unfold addType
  split
  · exact ⟨h.types.size, by simp [position?]⟩
  · next hknown => exact Option.ne_none_iff_exists'.mp hknown

theorem extends_addType {h : Hierarchy} {id sub sup : DeclId} :
    (h.addType id).Extends sup sub ↔ h.Extends sup sub := by
  refine exists_congr (fun n => exists_congr (fun m => ?_))
  rw [below_addType]
  refine and_congr_right (fun hbelow => ?_)
  obtain ⟨hm, hn⟩ := h.within m n hbelow
  rw [position?_addType_iff hn, position?_addType_iff hm]

theorem mem_below_addEdge {h : Hierarchy} {n m k j : Nat}
    {hn : n < h.types.size} {hm : m < h.types.size} :
    k ∈ (h.addEdge n m hn hm).below j ↔ (k = n ∧ j = m) ∨ k ∈ h.below j := by
  rw [addEdge]
  split
  · next hknown =>
      rw [iff_or_self]
      rintro ⟨rfl, rfl⟩
      exact hknown
  · rw [below, Std.ExtTreeMap.getD_insert]
    simp only [Std.LawfulEqCmp.compare_eq_iff_eq]
    by_cases hj : m = j
    · subst hj
      simp
    · simp only [hj, Ne.symm hj, if_false, and_false, false_or]
      rfl

theorem position?_addEdge {h : Hierarchy} {n m : Nat} {hn : n < h.types.size}
    {hm : m < h.types.size} (id : DeclId) :
    (h.addEdge n m hn hm).position? id = h.position? id := by
  rw [addEdge]
  split <;> rfl

/-- The new edge joins the types at its two ends. -/
theorem extends_addEdge {h : Hierarchy} {n m : Nat} {hn : n < h.types.size}
    {hm : m < h.types.size} {sub sup : DeclId} (hsub : h.position? sub = some n)
    (hsup : h.position? sup = some m) {sub' sup' : DeclId} :
    (h.addEdge n m hn hm).Extends sup' sub' ↔
      (sub' = sub ∧ sup' = sup) ∨ h.Extends sup' sub' := by
  unfold Extends
  simp only [mem_below_addEdge, position?_addEdge]
  constructor
  · rintro ⟨k, j, ⟨rfl, rfl⟩ | hbelow, hsub', hsup'⟩
    · exact Or.inl ⟨position?_inj hsub' hsub, position?_inj hsup' hsup⟩
    · exact Or.inr ⟨k, j, hbelow, hsub', hsup'⟩
  · rintro (⟨rfl, rfl⟩ | ⟨k, j, hbelow, hsub', hsup'⟩)
    · exact ⟨n, m, Or.inl ⟨rfl, rfl⟩, hsub, hsup⟩
    · exact ⟨k, j, Or.inr hbelow, hsub', hsup'⟩

/-- Both ends of an edge are mentioned before it is added. -/
theorem exists_addSupertype_eq (h : Hierarchy) (sub sup : DeclId) :
    ∃ n m, ∃ (hn : n < ((h.addType sub).addType sup).types.size)
      (hm : m < ((h.addType sub).addType sup).types.size),
      ((h.addType sub).addType sup).position? sub = some n ∧
      ((h.addType sub).addType sup).position? sup = some m ∧
      h.addSupertype sub sup =
        ((h.addType sub).addType sup).addEdge n m hn hm := by
  obtain ⟨n, hn⟩ := h.exists_position?_addType sub
  have hsub := (position?_addType_iff (lt_size_of_position? hn) sup).mpr hn
  obtain ⟨m, hsup⟩ := (h.addType sub).exists_position?_addType sup
  refine ⟨n, m, lt_size_of_position? hsub, lt_size_of_position? hsup,
    hsub, hsup, ?_⟩
  simp only [addSupertype]
  split
  · next hsubAt hsupAt =>
      obtain rfl := Option.some.inj (hsubAt.symm.trans hsub)
      obtain rfl := Option.some.inj (hsupAt.symm.trans hsup)
      rfl
  · next hnone => exact absurd hsup (hnone n m hsub)

theorem extends_addSupertype {h : Hierarchy} {sub sup sub' sup' : DeclId} :
    (h.addSupertype sub sup).Extends sup' sub' ↔
      (sub' = sub ∧ sup' = sup) ∨ h.Extends sup' sub' := by
  obtain ⟨n, m, hn, hm, hsub, hsup, heq⟩ := h.exists_addSupertype_eq sub sup
  rw [heq, extends_addEdge hsub hsup, extends_addType, extends_addType]

/-! ### Hierarchies that grow step by step -/

/-- One step by which a hierarchy grows. -/
inductive Addition where
  | type (id : DeclId)
  | supertype (sub sup : DeclId)
deriving DecidableEq

def Addition.types : Addition → List DeclId
  | type id => [id]
  | supertype sub sup => [sub, sup]

def add (h : Hierarchy) : Addition → Hierarchy
  | .type id => h.addType id
  | .supertype sub sup => h.addSupertype sub sup

def ofAdditions (additions : List Addition) : Hierarchy :=
  additions.foldl add .empty

theorem extends_add {h : Hierarchy} {addition : Addition} {sub sup : DeclId} :
    (h.add addition).Extends sup sub ↔
      addition = .supertype sub sup ∨ h.Extends sup sub := by
  cases addition with
  | type id => simp [add, extends_addType]
  | supertype other above =>
      rw [add, extends_addSupertype, Addition.supertype.injEq,
        eq_comm (a := sub), eq_comm (a := sup)]

theorem extends_foldl_add {h : Hierarchy} {additions : List Addition}
    {sub sup : DeclId} :
    (additions.foldl add h).Extends sup sub ↔
      .supertype sub sup ∈ additions ∨ h.Extends sup sub := by
  induction additions generalizing h with
  | nil => simp
  | cons first rest ih =>
      rw [List.foldl_cons, ih, extends_add, List.mem_cons,
        eq_comm (a := first), or_assoc, or_left_comm]

/-- The direct supertypes are those that some step has added, in whatever order
and however often. -/
theorem extends_ofAdditions {additions : List Addition} {sub sup : DeclId} :
    (ofAdditions additions).Extends sup sub ↔
      .supertype sub sup ∈ additions := by
  have hempty : ¬ empty.Extends sup sub := by simp [Extends, below, empty]
  exact extends_foldl_add.trans (or_iff_left hempty)

/-- The types below a type are exactly those that come up to it along one or
more of the edges added, in ascending order and without the type itself; a type
that no step mentions has none below it. -/
theorem transitiveSubtypes_exact (additions : List Addition) (root : DeclId) :
    ((ofAdditions additions).transitiveSubtypes root).Pairwise
        (fun first second => first.toNat < second.toNat) ∧
      (∀ id, id ∈ (ofAdditions additions).transitiveSubtypes root ↔
        id ≠ root ∧
          Relation.TransGen
            (fun sub sup => .supertype sub sup ∈ additions) id root) ∧
      ((∀ addition ∈ additions, root ∉ addition.types) →
        (ofAdditions additions).transitiveSubtypes root = []) := by
  have hexact : ∀ id, id ∈ (ofAdditions additions).transitiveSubtypes root ↔
      id ≠ root ∧
        Relation.TransGen
          (fun sub sup => .supertype sub sup ∈ additions) id root := by
    intro id
    have hedges : (ofAdditions additions).Extends =
        Function.swap (fun sub sup => .supertype sub sup ∈ additions) := by
      funext sup sub
      exact propext extends_ofAdditions
    rw [mem_transitiveSubtypes_iff, hedges, Relation.transGen_swap]
  refine ⟨pairwise_transitiveSubtypes _ root, hexact, fun hunknown => ?_⟩
  apply List.eq_nil_iff_forall_not_mem.mpr
  intro id hid
  obtain ⟨-, hpath⟩ := (hexact id).mp hid
  obtain ⟨sub, -, hedge⟩ := Relation.TransGen.tail'_iff.mp hpath
  exact hunknown _ hedge (by simp [Addition.types])

/-- A diamond from `4` up to `1` that a chain closes to a cycle, with an edge
added twice and a type that names itself. -/
def ringAdditions : List Addition :=
  [.type ⟨7⟩, .supertype ⟨2⟩ ⟨1⟩, .supertype ⟨3⟩ ⟨1⟩, .supertype ⟨4⟩ ⟨3⟩,
    .supertype ⟨4⟩ ⟨2⟩, .supertype ⟨5⟩ ⟨4⟩, .supertype ⟨1⟩ ⟨5⟩,
    .supertype ⟨3⟩ ⟨1⟩, .supertype ⟨2⟩ ⟨2⟩]

theorem ring_transitiveSubtypes :
    (ofAdditions ringAdditions).transitiveSubtypes ⟨4⟩ = [⟨1⟩, ⟨2⟩, ⟨3⟩, ⟨5⟩] ∧
      Relation.TransGen (fun sub sup => .supertype sub sup ∈ ringAdditions)
        ⟨2⟩ ⟨4⟩ ∧
      (ofAdditions ringAdditions).transitiveSubtypes ⟨9⟩ = [] := by
  have hlist : (ofAdditions ringAdditions).transitiveSubtypes ⟨4⟩ = [⟨1⟩, ⟨2⟩,
      ⟨3⟩, ⟨5⟩] := by
    decide +kernel
  obtain ⟨-, hexact, -⟩ := transitiveSubtypes_exact ringAdditions ⟨4⟩
  obtain ⟨-, -, hunknown⟩ := transitiveSubtypes_exact ringAdditions ⟨9⟩
  exact ⟨hlist, ((hexact ⟨2⟩).mp (by rw [hlist]; simp)).2, hunknown (by decide)⟩

end Hierarchy

namespace Model

/-- The steps by which a declaration makes the hierarchy grow. -/
def additionsOf (d : Declaration) : List Hierarchy.Addition :=
  if d.kind = .type then .type d.id :: d.supertypes.map
    (.supertype d.id) else []

theorem addToHierarchy_eq (h : Hierarchy) (d : Declaration) :
    addToHierarchy h d = (additionsOf d).foldl Hierarchy.add h := by
  rw [addToHierarchy, additionsOf]
  split
  · rw [List.foldl_cons, List.foldl_map]
    rfl
  · rfl

/-- The hierarchy of a model is built by the steps of its declarations. -/
theorem hierarchy_ofDeclarations (ds : List Declaration) :
    (ofDeclarations ds).hierarchy = .ofAdditions (ds.flatMap additionsOf) := by
  rw [Hierarchy.ofAdditions, List.foldl_flatMap]
  simp only [← addToHierarchy_eq]
  rfl

/-- A type extends those that it names among its supertypes. -/
theorem extends_hierarchy_iff {ds : List Declaration} {sup sub : DeclId} :
    (ofDeclarations ds).hierarchy.Extends sup sub ↔
      ∃ d ∈ ds, d.kind = .type ∧ d.id = sub ∧ sup ∈ d.supertypes := by
  have hstep (d : Declaration) : .supertype sub sup ∈ additionsOf d ↔
      d.kind = .type ∧ d.id = sub ∧ sup ∈ d.supertypes := by
    rw [additionsOf]
    split
    · rename_i hkind
      simp only [List.mem_cons, reduceCtorEq, List.mem_map,
        Hierarchy.Addition.supertype.injEq, false_or, hkind, true_and]
      constructor
      · rintro ⟨above, hmem, hid, rfl⟩
        exact ⟨hid, hmem⟩
      · rintro ⟨hid, hmem⟩
        exact ⟨sup, hmem, hid, rfl⟩
    · rename_i hkind
      simp [hkind]
  rw [hierarchy_ofDeclarations, Hierarchy.extends_ofAdditions, List.mem_flatMap]
  simp only [hstep]

/-- The members of a declaration are those that stand directly in it, in the
order of the host. -/
theorem membersOf_ofDeclarations (ds : List Declaration) (outer : DeclId) :
    (ofDeclarations ds).membersOf outer =
      (ds.filter (fun d => d.enclosing == some outer)).map Declaration.id := by
  have hfold : ∀ (ds : List Declaration) (members : IdMap (List DeclId)),
      (ds.foldl addMember members).getD outer [] =
        members.getD outer []
          ++ (ds.filter (fun d => d.enclosing == some outer)).map
          Declaration.id := by
    intro ds
    induction ds with
    | nil => simp
    | cons d rest ih =>
        intro members
        rw [List.foldl_cons, ih, addMember]
        cases henclosing : d.enclosing with
        | none => simp [henclosing]
        | some around =>
            by_cases hsame : around = outer
            · subst hsame
              simp [henclosing]
            · simp [henclosing, hsame, Std.ExtTreeMap.getD_insert]
  have hmembers := hfold ds ∅
  rwa [Std.ExtTreeMap.getD_empty, List.nil_append] at hmembers

end Model

end ThreadConfinement
