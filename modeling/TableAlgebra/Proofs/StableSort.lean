import Mathlib.Data.List.Basic

/-!
Stable sorting by a comparison that is a total preorder on the values at hand, which
may call different values level. A stable arrangement of values is then one only,
and merge sort finds it. What is left of it under a filter arranges what is left of
the values; and values arranged by one comparison and then by another are arranged
by the other one first and by the one where that leaves them level.
-/
namespace TableAlgebra

variable {α β : Type} {cmp first second : α → α → Ordering} {values between part out : List α}

/-- On these values the comparison is a total preorder: turned round it says the
opposite, and steps that do not go down carry through. -/
structure PreorderOn (cmp : α → α → Ordering) (values : List α) : Prop where
  turned : ∀ a ∈ values, ∀ b ∈ values, cmp a b = (cmp b a).swap
  carried : ∀ a ∈ values, ∀ b ∈ values, ∀ c ∈ values,
    (cmp a b).isLE → (cmp b c).isLE → (cmp a c).isLE

/-- A stable arrangement: the values that are there, none before a lesser one, and
any that are level in the order in which they were. -/
structure Arranges (cmp : α → α → Ordering) (values out : List α) : Prop where
  perm : out.Perm values
  ascending : out.Pairwise fun a b => (cmp a b).isLE
  stable : ∀ v ∈ values,
    out.filter (fun x => (cmp v x).isEq) = values.filter fun x => (cmp v x).isEq

instance [DecidableEq α] : Decidable (Arranges cmp values out) :=
  decidable_of_iff (out.Perm values ∧ (out.Pairwise fun a b => (cmp a b).isLE) ∧
      ∀ v ∈ values,
        out.filter (fun x => (cmp v x).isEq) = values.filter fun x => (cmp v x).isEq)
    ⟨fun ⟨perm, ascending, stable⟩ => ⟨perm, ascending, stable⟩,
      fun arranged => ⟨arranged.perm, arranged.ascending, arranged.stable⟩⟩

section Preorders

theorem preorder_iff_trans_cmp :
    PreorderOn cmp values ↔ Std.TransCmp fun a b : {v // v ∈ values} => cmp a b := by
  constructor
  · intro preorder
    have turned : Std.OrientedCmp fun a b : {v // v ∈ values} => cmp a b := by
      constructor
      intro a b
      exact preorder.turned a a.2 b b.2
    constructor
    intro a b c
    exact preorder.carried a a.2 b b.2 c c.2
  · intro lawful
    constructor
    · intro a ha b hb
      exact @lawful.eq_swap ⟨a, ha⟩ ⟨b, hb⟩
    · intro a ha b hb c hc
      exact @lawful.isLE_trans ⟨a, ha⟩ ⟨b, hb⟩ ⟨c, hc⟩

theorem preorder_among (preorder : PreorderOn cmp values) (inside : ∀ v ∈ part, v ∈ values) :
    PreorderOn cmp part where
  turned a ha b hb := preorder.turned a (inside a ha) b (inside b hb)
  carried a ha b hb c hc := preorder.carried a (inside a ha) b (inside b hb) c (inside c hc)

theorem preorder_by {f : β → α} {values : List β} (preorder : PreorderOn cmp (values.map f)) :
    PreorderOn (fun a b => cmp (f a) (f b)) values := by
  have inside {v : β} (member : v ∈ values) : f v ∈ values.map f := List.mem_map_of_mem member
  constructor
  · intro a ha b hb
    exact preorder.turned _ (inside ha) _ (inside hb)
  · intro a ha b hb c hc
    exact preorder.carried _ (inside ha) _ (inside hb) _ (inside hc)

theorem preorder_compare [Ord α] [Std.TransOrd α] (values : List α) :
    PreorderOn compare values where
  turned _ _ _ _ := Std.OrientedOrd.eq_swap
  carried _ _ _ _ _ _ := Std.TransOrd.isLE_trans

theorem preorder_swap (preorder : PreorderOn cmp values) :
    PreorderOn (fun a b => (cmp a b).swap) values where
  turned a ha b hb := congrArg Ordering.swap (preorder.turned a ha b hb)
  carried a ha b hb c hc down further := by
    rw [← preorder.turned b hb a ha] at down
    rw [← preorder.turned c hc b hb] at further
    rw [← preorder.turned c hc a ha]
    exact preorder.carried c hc b hb a ha further down

theorem preorder_then (preorder : PreorderOn first values) (next : PreorderOn second values) :
    PreorderOn (fun a b => (first a b).then (second a b)) values := by
  rw [preorder_iff_trans_cmp] at preorder next ⊢
  change Std.TransCmp (compareLex (fun a b : {v // v ∈ values} => first a b)
    fun a b : {v // v ∈ values} => second a b)
  infer_instance

theorem level_self (preorder : PreorderOn cmp values) {v : α} (member : v ∈ values) :
    cmp v v = .eq :=
  Ordering.eq_eq_of_eq_swap (preorder.turned v member v member)

theorem level_class (preorder : PreorderOn cmp values) {v : α} (member : v ∈ values) :
    (values.filter fun x => (cmp v x).isEq).Pairwise fun a b => (cmp a b).isLE := by
  apply List.pairwise_of_forall_mem_list
  intro a ha b hb
  obtain ⟨insideA, levelA⟩ := List.mem_filter.mp ha
  obtain ⟨insideB, levelB⟩ := List.mem_filter.mp hb
  rw [Ordering.isEq_iff_eq_eq] at levelA levelB
  have down : (cmp a v).isLE := by
    rw [preorder.turned a insideA v member, levelA]
    rfl
  have up : (cmp v b).isLE := by
    rw [levelB]
    rfl
  exact preorder.carried a insideA v member b insideB down up

end Preorders

section Sorting

theorem merge_sort_attached (cmp : α → α → Ordering) (values : List α) :
    (values.attach.mergeSort fun a b => (cmp a b).isLE).map Subtype.val =
      values.mergeSort fun a b => (cmp a b).isLE := by
  rw [List.map_mergeSort (s := fun a b => (cmp a b).isLE) fun _ _ _ _ => rfl,
    List.attach_map_subtype_val]

theorem one_way (preorder : PreorderOn cmp values) (a b : {v // v ∈ values}) :
    ((cmp a b).isLE || (cmp b a).isLE) = true := by
  rw [preorder.turned b b.2 a a.2]
  cases cmp a b <;> rfl

theorem merge_sort_ascending (preorder : PreorderOn cmp values) :
    (values.mergeSort fun a b => (cmp a b).isLE).Pairwise fun a b => (cmp a b).isLE := by
  rw [← merge_sort_attached, List.pairwise_map]
  apply List.pairwise_mergeSort
  · intro a b c
    exact preorder.carried a a.2 b b.2 c c.2
  · exact one_way preorder

theorem sublist_merge_sort (preorder : PreorderOn cmp values)
    (ascending : part.Pairwise fun a b => (cmp a b).isLE) (inside : part.Sublist values) :
    part.Sublist (values.mergeSort fun a b => (cmp a b).isLE) := by
  rw [← List.attach_map_subtype_val values] at inside
  obtain ⟨chosen, within, rfl⟩ := List.sublist_map_iff.mp inside
  rw [List.pairwise_map] at ascending
  rw [← merge_sort_attached]
  apply List.Sublist.map
  refine List.sublist_mergeSort ?_ (one_way preorder) ascending within
  intro a b c
  exact preorder.carried a a.2 b b.2 c c.2

theorem merge_sort_arranges (preorder : PreorderOn cmp values) :
    Arranges cmp values (values.mergeSort fun a b => (cmp a b).isLE) where
  perm := List.mergeSort_perm _ _
  ascending := merge_sort_ascending preorder
  stable v member := by
    have stays := sublist_merge_sort preorder (level_class preorder member) List.filter_sublist
    have same := (List.mergeSort_perm values fun a b => (cmp a b).isLE).filter
      fun x => (cmp v x).isEq
    refine (List.Sublist.eq_of_length ?_ same.length_eq.symm).symm
    simpa only [List.filter_filter, Bool.and_self] using stays.filter fun x => (cmp v x).isEq

end Sorting

section Uniqueness

theorem first_is_least {a x : α} (preorder : PreorderOn cmp (a :: values))
    (ascending : (a :: values).Pairwise fun a b => (cmp a b).isLE) (member : x ∈ a :: values) :
    (cmp a x).isLE := by
  rcases List.mem_cons.mp member with rfl | later
  · rw [level_self preorder member]
    rfl
  · exact List.rel_of_pairwise_cons ascending later

theorem eq_of_classes {as bs : List α} (preorder : PreorderOn cmp as) (perm : as.Perm bs)
    (ascending : as.Pairwise fun a b => (cmp a b).isLE)
    (ascending' : bs.Pairwise fun a b => (cmp a b).isLE)
    (classes : ∀ v ∈ as,
      as.filter (fun x => (cmp v x).isEq) = bs.filter fun x => (cmp v x).isEq) : as = bs := by
  induction as generalizing bs with
  | nil => exact perm.nil_eq
  | cons a as ih =>
    cases bs with
    | nil => exact absurd perm.symm.nil_eq (List.cons_ne_nil a as).symm
    | cons b bs =>
      have memberA : a ∈ a :: as := List.mem_cons_self
      have memberB : b ∈ a :: as := perm.mem_iff.mpr List.mem_cons_self
      have preorder' : PreorderOn cmp (b :: bs) :=
        preorder_among preorder fun v => perm.mem_iff.mpr
      -- each of the two heads is least, so they are level and head one class
      have up := first_is_least preorder ascending memberB
      have down := first_is_least preorder' ascending' (perm.mem_iff.mp memberA)
      rw [preorder.turned b memberB a memberA] at down
      have level : cmp a b = .eq := Ordering.eq_eq_of_isLE_of_isLE_swap up down
      have heads := classes a memberA
      rw [List.filter_cons_of_pos (by rw [level_self preorder memberA]; rfl),
        List.filter_cons_of_pos (by rw [level]; rfl)] at heads
      obtain ⟨rfl, -⟩ := List.cons.inj heads
      have inside : ∀ v ∈ as, v ∈ a :: as := fun v => List.mem_cons_of_mem a
      refine congrArg (a :: ·) (ih (preorder_among preorder inside) perm.cons_inv
        ascending.of_cons ascending'.of_cons fun v member => ?_)
      have same := classes v (inside v member)
      rw [List.filter_cons, List.filter_cons] at same
      split at same
      · exact (List.cons.inj same).2
      · exact same

theorem arranges_unique (preorder : PreorderOn cmp values) (one : Arranges cmp values part)
    (other : Arranges cmp values out) : part = out := by
  have inside : ∀ v ∈ part, v ∈ values := fun v => one.perm.mem_iff.mp
  refine eq_of_classes (preorder_among preorder inside) (one.perm.trans other.perm.symm)
    one.ascending other.ascending fun v member => ?_
  rw [one.stable v (inside v member), other.stable v (inside v member)]

end Uniqueness

section Combination

theorem arranges_filter (p : α → Bool) (arranged : Arranges cmp values out) :
    Arranges cmp (values.filter p) (out.filter p) where
  perm := arranged.perm.filter p
  ascending := arranged.ascending.filter p
  stable v member := by
    rw [List.filter_comm, arranged.stable v (List.mem_of_mem_filter member), List.filter_comm]

theorem arranges_map {order : List β} (f : β → α) (names : List β)
    (arranged : Arranges (fun i j => cmp (f i) (f j)) names order) :
    Arranges cmp (names.map f) (order.map f) where
  perm := arranged.perm.map f
  ascending := List.pairwise_map.mpr arranged.ascending
  stable := by
    rw [List.forall_mem_map]
    intro i member
    rw [List.filter_map, List.filter_map]
    exact congrArg (List.map f) (arranged.stable i member)

/-- Arranging anew by another comparison leaves the old arrangement in force where
the other one finds values level. -/
theorem arranges_then (preorder : PreorderOn first values) (inner : Arranges second values between)
    (outer : Arranges first between out) :
    Arranges (fun a b => (first a b).then (second a b)) values out where
  perm := outer.perm.trans inner.perm
  ascending := by
    apply List.pairwise_of_forall_sublist
    intro a b pair
    have up : (first a b).isLE := outer.ascending.forall_sublist pair
    rw [Ordering.isLE_then_iff_or]
    refine (Ordering.isLE_iff_eq_lt_or_eq_eq.mp up).imp_right fun level => ⟨level, ?_⟩
    have member : a ∈ between := outer.perm.mem_iff.mp (pair.subset List.mem_cons_self)
    have self := level_self preorder (inner.perm.mem_iff.mp member)
    -- both are in one class of the outer comparison, which has kept the inner order
    have kept := pair.filter fun x => (first a x).isEq
    rw [outer.stable a member] at kept
    simp only [List.filter_cons, self, level, Ordering.isEq_eq, if_true, List.filter_nil] at kept
    exact inner.ascending.forall_sublist (kept.trans List.filter_sublist)
  stable v member := by
    have both (x : α) : ((first v x).then (second v x)).isEq =
        ((first v x).isEq && (second v x).isEq) := by
      cases first v x <;> rfl
    simp only [both, ← List.filter_filter]
    rw [List.filter_comm, outer.stable v (inner.perm.mem_iff.mpr member), List.filter_comm,
      inner.stable v member]

theorem merge_sort_filter (preorder : PreorderOn cmp values) (p : α → Bool) :
    (values.mergeSort fun a b => (cmp a b).isLE).filter p =
      (values.filter p).mergeSort fun a b => (cmp a b).isLE := by
  have left : PreorderOn cmp (values.filter p) :=
    preorder_among preorder fun _ => List.mem_of_mem_filter
  exact arranges_unique left (arranges_filter p (merge_sort_arranges preorder))
    (merge_sort_arranges left)

theorem merge_sort_then (preorder : PreorderOn first values) (next : PreorderOn second values) :
    (values.mergeSort fun a b => ((first a b).then (second a b)).isLE) =
      (values.mergeSort fun a b => (second a b).isLE).mergeSort fun a b => (first a b).isLE := by
  have again : PreorderOn first (values.mergeSort fun a b => (second a b).isLE) :=
    preorder_among preorder fun _ => List.mem_mergeSort.mp
  exact arranges_unique (preorder_then preorder next)
    (merge_sort_arranges (preorder_then preorder next))
    (arranges_then preorder (merge_sort_arranges next) (merge_sort_arranges again))

end Combination

theorem split_of_sides {side : α → Bool}
    (ascending : values.Pairwise fun a b => (compare (side a) (side b)).isLE) :
    values = (values.filter fun v => !side v) ++ values.filter side := by
  induction values with
  | nil => rfl
  | cons v rest ih =>
    obtain ⟨ahead, later⟩ := List.pairwise_cons.mp ascending
    cases here : side v with
    | false =>
      rw [List.filter_cons_of_pos (by simp [here]), List.filter_cons_of_neg (by simp [here]),
        List.cons_append, ← ih later]
    | true =>
      have all : ∀ u ∈ v :: rest, side u = true := by
        refine List.forall_mem_cons.mpr ⟨here, fun u member => ?_⟩
        have up := ahead u member
        rw [here] at up
        cases there : side u with
        | false =>
          rw [there] at up
          cases up
        | true => rfl
      have none : ((v :: rest).filter fun u => !side u) = [] := by
        rw [List.filter_eq_nil_iff]
        intro u member
        simp [all u member]
      rw [none, List.filter_eq_self.mpr all, List.nil_append]

end TableAlgebra
