import Mathlib.Data.Nat.Notation
import Mathlib.Logic.Relation

/-!
# Rose Trees and Answered Queries

A rose tree has any number of children at each node, in an order. It is read here through
queries: `query a` is the list of the children of `a`, or no answer. A finite tree `Fits`
the queries when each answer is what the tree has. `preorder` lists the nodes of a tree as a
depth-first search meets them that asks at each node, a parent before its children and the
children in order, and that goes no further where there is no answer.

## Main results

* `RoseTree.ind`: induction with the hypothesis for every child.
* `height_lt`: the children are less high, the measure of a search that descends.
* `Fits.mem_preorder_iff`: **the search meets what can be reached by answers**.
* `passed_append_of_none`, `passed_append_of_some`: what a search for a first match passes
  over, list by list.
-/

set_option autoImplicit false

/-- A tree with a label at each node and a list of children. -/
inductive RoseTree (α : Type*)
  | node (a : α) (children : List (RoseTree α))

namespace RoseTree

variable {α : Type*}

/-- Induction over trees, with the hypothesis for every child of a node. -/
@[elab_as_elim]
theorem ind {motive : RoseTree α → Prop}
    (node : ∀ a ts, (∀ t ∈ ts, motive t) → motive (node a ts)) (t : RoseTree α) : motive t :=
  @RoseTree.rec α motive (fun ts => ∀ t ∈ ts, motive t) node (by simp)
    (fun _ _ ht hts => List.forall_mem_cons.mpr ⟨ht, hts⟩) t

/-- The label of the root. -/
def root : RoseTree α → α
  | node a _ => a

/-- The root of a node is its label. -/
@[simp] theorem root_node (a : α) (ts : List (RoseTree α)) : (node a ts).root = a := rfl

/-! ### The height -/

mutual
/-- The number of nodes on the longest way down. -/
def height : RoseTree α → ℕ
  | node _ ts => heights ts + 1

/-- The height of the highest of the trees. -/
def heights : List (RoseTree α) → ℕ
  | [] => 0
  | t :: ts => max (height t) (heights ts)
end

/-- A tree of a list is no higher than the highest. -/
theorem height_le_heights {t : RoseTree α} {ts : List (RoseTree α)} (ht : t ∈ ts) :
    t.height ≤ heights ts := by
  induction ts with
  | nil => simp at ht
  | cons u ts ih =>
      rw [heights]
      rcases List.mem_cons.mp ht with rfl | ht
      · exact Nat.le_max_left ..
      · exact Nat.le_trans (ih ht) (Nat.le_max_right ..)

/-- A child is less high than its parent. -/
theorem height_lt {a : α} {t : RoseTree α} {ts : List (RoseTree α)} (ht : t ∈ ts) :
    t.height < (node a ts).height := by
  have hle := height_le_heights ht
  rw [height]
  omega

/-! ### The search order -/

variable (query : α → Option (List α))

mutual
/-- The nodes that a depth-first search meets, in its order: it asks at each node and
descends where there is an answer. -/
def preorder : RoseTree α → List α
  | node a ts => a :: if (query a).isSome = true then preorders ts else []

/-- The nodes met in a list of trees, one tree after the other. -/
def preorders : List (RoseTree α) → List α
  | [] => []
  | t :: ts => preorder t ++ preorders ts
end

variable {query}

/-- What is visited in a list of trees is visited in one of them. -/
theorem mem_preorders {b : α} {ts : List (RoseTree α)} :
    b ∈ preorders query ts ↔ ∃ t ∈ ts, b ∈ t.preorder query := by
  induction ts with
  | nil => simp [preorders]
  | cons t ts ih => simp only [preorders, List.mem_append, ih, List.mem_cons, exists_eq_or_imp]

variable (query) in
/-- The tree is what the queries say, as far as they are answered. -/
inductive Fits : RoseTree α → Prop
  | node {a : α} {ts : List (RoseTree α)} :
      (∀ bs, query a = some bs → bs = ts.map root) → (∀ t ∈ ts, Fits t) → Fits (node a ts)

variable (query) in
/-- `b` is among the children that the query of `a` answers. -/
def Child (a b : α) : Prop :=
  ∃ bs, query a = some bs ∧ b ∈ bs

variable (query) in
/-- From `a` a number of answers lead to `b`. -/
def Reaches : α → α → Prop :=
  Relation.ReflTransGen (Child query)

/-- **The search meets exactly what can be reached by answers** from the root. -/
theorem Fits.mem_preorder_iff {t : RoseTree α} (ht : Fits query t) {b : α} :
    b ∈ t.preorder query ↔ Reaches query t.root b := by
  induction t using RoseTree.ind with
  | node a ts ih =>
      obtain ⟨hanswer, hts⟩ := ht
      rw [preorder, root_node, List.mem_cons]
      constructor
      · rintro (rfl | hb)
        · exact .refl
        · cases hquery : query a with
          | none => simp [hquery] at hb
          | some bs =>
              obtain ⟨t, ht, hbt⟩ : ∃ t ∈ ts, b ∈ t.preorder query := by
                simpa [hquery, mem_preorders] using hb
              have hchild : Child query a t.root :=
                ⟨bs, hquery, hanswer bs hquery ▸ List.mem_map_of_mem ht⟩
              exact .head hchild ((ih t ht (hts t ht)).mp hbt)
      · intro hreach
        rcases Relation.ReflTransGen.cases_head hreach with rfl | ⟨c, ⟨bs, hquery, hc⟩, hreach⟩
        · exact Or.inl rfl
        · right
          rw [hanswer bs hquery] at hc
          obtain ⟨t, ht, rfl⟩ := List.mem_map.mp hc
          rw [hquery, Option.isSome_some, if_pos rfl, mem_preorders]
          exact ⟨t, ht, (ih t ht (hts t ht)).mpr hreach⟩

/-! ### Up to the first match -/

variable {p : α → Bool} {l : List α}

/-- What a search for a first match passes over. -/
def passed (p : α → Bool) (l : List α) : List α :=
  l.takeWhile fun a => !p a

/-- What a search for a first match visits: what it passes over, and the match. -/
def visited (p : α → Bool) (l : List α) : List α :=
  passed p l ++ (l.find? p).toList

/-- Nothing is passed where the first element is the one. -/
theorem passed_cons_of_pos {a : α} (ha : p a = true) (l : List α) : passed p (a :: l) = [] := by
  simp [passed, ha]

/-- The first element is passed if it is not the one. -/
theorem passed_cons_of_neg {a : α} (ha : p a = false) (l : List α) :
    passed p (a :: l) = a :: passed p l := by
  simp [passed, ha]

/-- The search ends with the first element if it is the one. -/
theorem visited_cons_of_pos {a : α} (ha : p a = true) (l : List α) :
    visited p (a :: l) = [a] := by
  simp [visited, passed, ha]

/-- The first element is visited and the search goes on. -/
theorem visited_cons_of_neg {a : α} (ha : p a = false) (l : List α) :
    visited p (a :: l) = a :: visited p l := by
  simp [visited, passed, ha]

/-- A search that finds nothing in a list goes on behind it. -/
theorem passed_append_of_none (h : l.find? p = none) (m : List α) :
    passed p (l ++ m) = l ++ passed p m := by
  refine List.takeWhile_append_of_pos fun a ha => ?_
  simp [List.find?_eq_none.mp h a ha]

/-- A search that finds something in a list does not leave it. -/
theorem passed_append_of_some {b : α} (h : l.find? p = some b) (m : List α) :
    passed p (l ++ m) = passed p l := by
  induction l with
  | nil => simp at h
  | cons a l ih =>
      rw [List.cons_append]
      cases ha : p a with
      | true => rw [passed_cons_of_pos ha, passed_cons_of_pos ha]
      | false =>
          rw [List.find?_cons_of_neg (by simp [ha])] at h
          rw [passed_cons_of_neg ha, passed_cons_of_neg ha, ih h]

/-- A search visits a first part of the list. -/
theorem visited_prefix : visited p l <+: l := by
  induction l with
  | nil => exact List.prefix_rfl
  | cons a l ih =>
      cases ha : p a with
      | true =>
          rw [visited_cons_of_pos ha]
          exact List.prefix_append [a] l
      | false =>
          rw [visited_cons_of_neg ha]
          exact (List.prefix_cons_inj a).mpr ih

/-- A search without success passes everything. -/
theorem passed_eq_self (h : l.find? p = none) : passed p l = l := by
  simpa [passed] using passed_append_of_none h []

/-- A search without success in the first part goes on in the second. -/
theorem visited_append_of_none (h : l.find? p = none) (m : List α) :
    visited p (l ++ m) = l ++ visited p m := by
  rw [visited, passed_append_of_none h, List.find?_append, h, Option.none_or, visited,
    List.append_assoc]

/-- A search with success in the first part does not reach the second. -/
theorem visited_append_of_some {b : α} (h : l.find? p = some b) (m : List α) :
    visited p (l ++ m) = visited p l := by
  rw [visited, passed_append_of_some h, List.find?_append, h, Option.some_or, visited, h]

end RoseTree
