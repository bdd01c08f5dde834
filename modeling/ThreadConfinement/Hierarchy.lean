import ThreadConfinement.Declaration

/-!
The type hierarchy: which types extend or implement which, and the subtypes at
any depth.

Types are numbered in the order of their first mention, and edges and search go
by the numbers.  Nothing is asked of the edges: a type may reach another on
several ways, and even itself.
-/

namespace ThreadConfinement

/-- A set of positions. -/
abbrev PositionSet : Type :=
  Std.ExtTreeSet Nat compare

structure Hierarchy where
  /-- The types, each at its position. -/
  types : Array DeclId
  positions : IdMap Nat
  /-- The positions of the direct subtypes, by the position of the type. -/
  subtypes : Std.ExtTreeMap Nat (List Nat) compare
  numbered : ∀ (id : DeclId) (n : Nat), positions[id]? = some n ↔
    types[n]? = some id
  within : ∀ (n : Nat), ∀ sub ∈ subtypes.getD n [], n < types.size ∧
    sub < types.size

namespace Hierarchy

def empty : Hierarchy where
  types := #[]
  positions := ∅
  subtypes := ∅
  numbered := by simp
  within := by simp

/-- The position of a type, if it was mentioned. -/
def position? (h : Hierarchy) (id : DeclId) : Option Nat :=
  h.positions[id]?

/-- The positions of the types that name the one at `n` among their supertypes,
each once. -/
def below (h : Hierarchy) (n : Nat) : List Nat :=
  h.subtypes.getD n []

theorem position?_eq_some_iff {h : Hierarchy} {id : DeclId} {n : Nat} :
    h.position? id = some n ↔ h.types[n]? = some id :=
  h.numbered id n

theorem position?_inj {h : Hierarchy} {id other : DeclId} {n : Nat}
    (hid : h.position? id = some n) (hother : h.position? other = some n) :
    id = other :=
  Option.some.inj ((position?_eq_some_iff.mp hid).symm.trans
    (position?_eq_some_iff.mp hother))

theorem lt_size_of_position? {h : Hierarchy} {id : DeclId} {n : Nat}
    (hposition : h.position? id = some n) : n < h.types.size :=
  (Array.getElem?_eq_some_iff.mp (position?_eq_some_iff.mp hposition)).1

/-- A new type gets the next position, and all others keep theirs. -/
theorem numbered_push (h : Hierarchy) {id : DeclId}
    (hnew : h.position? id = none) (other : DeclId) (n : Nat) :
    (h.positions.insert id h.types.size)[other]? = some n ↔
      (h.types.push id)[n]? = some other := by
  have hold : h.positions[other]? = some n ↔ h.types[n]? = some other :=
    h.numbered other n
  rw [Std.ExtTreeMap.getElem?_insert, Array.getElem?_push]
  simp only [Std.LawfulEqCmp.compare_eq_iff_eq]
  by_cases hid : id = other
  · subst hid
    by_cases hn : n = h.types.size
    · simp [hn]
    · have hother : h.types[n]? ≠ some id := fun htype => by
        rw [position?_eq_some_iff.mpr htype] at hnew
        cases hnew
      simp [hn, Ne.symm hn, hother]
  · by_cases hn : n = h.types.size
    · subst hn
      simp [hid, hold]
    · simp [hid, hn, hold]

/-- Mentions a type; a known one keeps its position. -/
def addType (h : Hierarchy) (id : DeclId) : Hierarchy :=
  if hnew : h.position? id = none then
    { types := h.types.push id
      positions := h.positions.insert id h.types.size
      subtypes := h.subtypes
      numbered := h.numbered_push hnew
      within := fun n sub hsub => by
        rw [Array.size_push]
        exact (h.within n sub hsub).imp Nat.lt_succ_of_lt Nat.lt_succ_of_lt }
  else h

/-- An edge from the type at `sub` to the one at `sup`; it counts once. -/
def addEdge (h : Hierarchy) (sub sup : Nat) (hsub : sub < h.types.size)
    (hsup : sup < h.types.size) : Hierarchy :=
  if sub ∈ h.below sup then h
  else
    { h with
      subtypes := h.subtypes.insert sup (sub :: h.below sup)
      within := fun n other hother => by
        rw [Std.ExtTreeMap.getD_insert] at hother
        split at hother
        · next hsame =>
            obtain rfl := Std.LawfulEqCmp.compare_eq_iff_eq.mp hsame
            rcases List.mem_cons.mp hother with rfl | hold
            · exact ⟨hsup, hsub⟩
            · exact h.within sup other hold
        · exact h.within n other hother }

/-- Adds an edge from a type to one of its supertypes and mentions both. -/
def addSupertype (h : Hierarchy) (sub sup : DeclId) : Hierarchy :=
  let grown := (h.addType sub).addType sup
  match hsub : grown.position? sub, hsup : grown.position? sup with
  | some subAt, some supAt =>
    grown.addEdge subAt supAt (lt_size_of_position? hsub)
      (lt_size_of_position? hsup)
  | _, _ => grown

/-- Meets a position: one that was not visited is now, and goes to the end of
the queue. -/
def meet (state : PositionSet × List Nat) (n : Nat) : PositionSet × List Nat :=
  if n ∈ state.1 then state else (state.1.insert n, state.2 ++ [n])

/-- Takes positions from the queue, at most `steps` of them, and meets all that
are directly below. -/
def search (h : Hierarchy) : Nat → PositionSet → List Nat → List Nat
  | 0, _, _ => []
  | _ + 1, _, [] => []
  | steps + 1, visited, n :: queue =>
    let (visited, queue) := (h.below n).foldl meet (visited, queue)
    n :: search h steps visited queue

/-- The types below `id` at any depth, in ascending order and without `id`
itself.  No position is taken twice, so the number of types bounds the steps. -/
def transitiveSubtypes (h : Hierarchy) (id : DeclId) : List DeclId :=
  match h.position? id with
  | none => []
  | some start =>
    let reached :=
      h.search h.types.size ((∅ : PositionSet).insert start) [start]
    let found := (reached.filter (· ≠ start)).filterMap (h.types[·]?)
    (Std.ExtTreeSet.ofList found : IdSet).toList

end Hierarchy

end ThreadConfinement
