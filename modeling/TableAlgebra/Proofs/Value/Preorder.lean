import TableAlgebra.Proofs.Value.Order

/-!
The order of values as a preorder. Turning the values round turns the order
round, whatever they hold. Along a chain of three values the order is carried
through as soon as no number is compared with another through a rounding. Lists
and records take both from their parts, since they are compared part by part.
-/
namespace TableAlgebra

section Chains

variable {α : Type}

/-- What a chain of two ascending steps makes of its ends: they are apart if one
of the steps is strict, and else equal. -/
def Chained (first second ends : Ordering) : Prop :=
  first.isLE → second.isLE → ends = first.then second

theorem chained_compare [Ord α] [Std.TransOrd α] (a b c : α) :
    Chained (compare a b) (compare b c) (compare a c) := by
  intro first second
  cases ab : compare a b with
  | lt => exact Std.TransCmp.lt_of_lt_of_isLE ab second
  | eq => exact Std.TransCmp.congr_left ab
  | gt =>
    rw [ab] at first
    cases first

theorem chained_then {first second ends first' second' ends' : Ordering}
    (chain : Chained first second ends)
    (next : first = .eq → second = .eq → Chained first' second' ends') :
    Chained (first.then first') (second.then second') (ends.then ends') := by
  intro le le'
  have settled := chain (Ordering.isLE_left_of_isLE_then le) (Ordering.isLE_left_of_isLE_then le')
  subst settled
  cases first with
  | lt => rfl
  | gt => cases le
  | eq =>
    cases second with
    | lt =>
      cases first' with
      | lt => rfl
      | eq => rfl
      | gt => cases le
    | gt => cases le'
    | eq => exact next rfl rfl le le'

theorem chained_ends {first second ends : Ordering} (chain : Chained first second ends)
    (le : first.isLE) (le' : second.isLE) :
    ends.isLE ∧ (ends = .eq ↔ first = .eq ∧ second = .eq) := by
  rw [chain le le']
  cases first <;> cases second <;> simp_all

variable {cmp : α → α → Ordering} {as bs cs : List α}

theorem lex_swap (turn : ∀ a ∈ as, ∀ b ∈ bs, (cmp a b).swap = cmp b a) :
    (List.compareLex cmp as bs).swap = List.compareLex cmp bs as := by
  induction as generalizing bs with
  | nil => cases bs <;> rfl
  | cons a as ih =>
    cases bs with
    | nil => rfl
    | cons b bs =>
      rw [List.compareLex_cons_cons, List.compareLex_cons_cons, Ordering.swap_then]
      rw [turn a List.mem_cons_self b List.mem_cons_self]
      rw [ih fun a ha b hb => turn a (List.mem_cons_of_mem _ ha) b (List.mem_cons_of_mem _ hb)]

theorem lex_chained
    (chain : ∀ a ∈ as, ∀ b ∈ bs, ∀ c ∈ cs, Chained (cmp a b) (cmp b c) (cmp a c)) :
    Chained (List.compareLex cmp as bs) (List.compareLex cmp bs cs)
      (List.compareLex cmp as cs) := by
  induction as generalizing bs cs with
  | nil =>
    intro _ le'
    cases bs with
    | nil => rfl
    | cons b bs =>
      cases cs with
      | nil => cases le'
      | cons c cs => rfl
  | cons a as ih =>
    cases bs with
    | nil =>
      intro le
      cases le
    | cons b bs =>
      cases cs with
      | nil =>
        intro _ le'
        cases le'
      | cons c cs =>
        simp only [List.compareLex_cons_cons]
        simp only [List.forall_mem_cons] at chain
        refine chained_then chain.1.1.1 fun _ _ => ih ?_
        intro a ha b hb c hc
        exact (((chain.2 a ha).2 b hb).2 c hc)

end Chains

namespace Binary64

theorem order_swap (x y : Binary64) : (x.order y).swap = y.order x := by
  simp only [order]
  cases x.isNaN with
  | true => cases y.isNaN <;> rfl
  | false =>
    cases y.isNaN with
    | true => rfl
    | false => exact Std.OrientedOrd.eq_swap.symm

theorem order_eq_then (x y : Binary64) :
    x.order y =
      (compare x.isNaN y.isNaN).then (if x.isNaN then .eq else compare x.units y.units) := by
  simp only [order]
  cases x.isNaN <;> cases y.isNaN <;> rfl

theorem order_chained (x y z : Binary64) :
    Chained (x.order y) (y.order z) (x.order z) := by
  rw [order_eq_then, order_eq_then, order_eq_then]
  refine chained_then (chained_compare _ _ _) ?_
  intro same same'
  rw [Std.compare_eq_iff_eq] at same same'
  rw [same]
  cases y.isNaN with
  | true => exact fun _ _ => rfl
  | false => exact chained_compare _ _ _

theorem order_of_small_ints {i j : Int64} (small : i.toInt.natAbs ≤ 0x20000000000000)
    (small' : j.toInt.natAbs ≤ 0x20000000000000) :
    (ofInt i.toInt).order (ofInt j.toInt) = compare i j := by
  have positive : (0 : Int) < unitsPerOne := by exact_mod_cast units_per_one_pos
  simp only [order, of_int_not_nan, of_small_int small, of_small_int small']
  simp only [compare, compareOfLessAndEq, Int64.lt_iff_toInt_lt, ← Int64.toInt_inj]
  simp only [Int.mul_lt_mul_right positive, Int.mul_eq_mul_right_iff positive.ne']

end Binary64

namespace Value

theorem order_items_eq (as bs : List Value) : orderItems as bs = List.compareLex order as bs := by
  induction as generalizing bs with
  | nil => cases bs <;> rfl
  | cons a as ih =>
    cases bs with
    | nil => rfl
    | cons b bs => rw [orderItems, ih, List.compareLex_cons_cons]

def orderEntry (e f : String × Value) : Ordering := (compare e.1 f.1).then (e.2.order f.2)

theorem order_entries_eq (es fs : List (String × Value)) :
    orderEntries es fs = List.compareLex orderEntry es fs := by
  induction es generalizing fs with
  | nil => cases fs <;> rfl
  | cons e es ih =>
    cases fs with
    | nil => rfl
    | cons f fs => rw [orderEntries, ih, List.compareLex_cons_cons, orderEntry]

theorem swap_of_kinds {a b : Value} (within : a.kind = b.kind → (a.order b).swap = b.order a) :
    (a.order b).swap = b.order a := by
  by_cases kinds : a.kind = b.kind
  · exact within kinds
  · rw [order_of_kinds kinds, order_of_kinds (Ne.symm kinds)]
    exact Std.OrientedOrd.eq_swap.symm

theorem order_swap (a b : Value) : (a.order b).swap = b.order a := by
  -- values of different kinds are told apart by the rank of the kinds
  refine swap_of_kinds fun kinds => ?_
  induction a using structural_induction generalizing b with
  | null =>
    cases b with
    | null => rfl
    | _ => cases kinds
  | bool x =>
    cases b with
    | bool y => exact Std.OrientedOrd.eq_swap.symm
    | _ => cases kinds
  | str x =>
    cases b with
    | str y => exact Std.OrientedOrd.eq_swap.symm
    | _ => cases kinds
  | int i =>
    cases b with
    | int j => exact Std.OrientedOrd.eq_swap.symm
    | float y => exact Binary64.order_swap _ _
    | _ => cases kinds
  | float x =>
    cases b with
    | int j => exact Binary64.order_swap _ _
    | float y => exact Binary64.order_swap _ _
    | _ => cases kinds
  | list as ih =>
    cases b with
    | list bs =>
      rw [order, order, order_items_eq, order_items_eq]
      exact lex_swap fun x hx y _ => swap_of_kinds (ih x hx y)
    | _ => cases kinds
  | record es ih =>
    cases b with
    | record fs =>
      rw [order, order, order_entries_eq, order_entries_eq]
      refine lex_swap fun e he f _ => ?_
      rw [orderEntry, orderEntry, Ordering.swap_then, swap_of_kinds (ih e he f.2),
        ← Std.OrientedOrd.eq_swap]
    | _ => cases kinds

theorem order_self (a : Value) : a.order a = .eq :=
  Ordering.eq_eq_of_eq_swap (order_swap a a).symm

section Three

variable {a b c : Value}

theorem unmixed_three_items {as bs cs : List Value}
    (unmixed : Unmixed [list as, list bs, list cs]) (ha : a ∈ as) (hb : b ∈ bs) (hc : c ∈ cs) :
    Unmixed [a, b, c] := by
  refine unmixed_of unmixed fun holds everywhere => ?_
  simp only [List.forall_mem_cons, everywhere_list] at everywhere ⊢
  exact ⟨everywhere.1.2 a ha, everywhere.2.1.2 b hb, everywhere.2.2.1.2 c hc, everywhere.2.2.2⟩

theorem unmixed_three_entries {es fs gs : List (String × Value)} {e f g : String × Value}
    (unmixed : Unmixed [record es, record fs, record gs]) (he : e ∈ es) (hf : f ∈ fs)
    (hg : g ∈ gs) : Unmixed [e.2, f.2, g.2] := by
  refine unmixed_of unmixed fun holds everywhere => ?_
  simp only [List.forall_mem_cons, everywhere_record] at everywhere ⊢
  exact ⟨everywhere.1.2 e he, everywhere.2.1.2 f hf, everywhere.2.2.1.2 g hg, everywhere.2.2.2⟩

theorem order_eq_then (a b : Value) :
    a.order b = (compare a.kind.rank b.kind.rank).then (a.order b) := by
  by_cases kinds : a.kind = b.kind
  · rw [kinds, Std.ReflOrd.compare_self]
    rfl
  · rw [order_of_kinds kinds]
    cases compare a.kind.rank b.kind.rank <;> rfl

theorem int_of_number (number : a.kind = .number) (whole : a.Everywhere NotReal) :
    ∃ i, a = int i := by
  cases a with
  | int i => exact ⟨i, rfl⟩
  | float x => exact absurd whole id
  | _ => cases number

theorem real_of_number (number : a.kind = .number) : ∃ x, a.toReal? = some x := by
  cases a with
  | int i => exact ⟨_, rfl⟩
  | float x => exact ⟨x, rfl⟩
  | _ => cases number

theorem order_of_small_numbers {x y : Binary64} (real : a.toReal? = some x)
    (real' : b.toReal? = some y) (small : a.Everywhere SmallInt) (small' : b.Everywhere SmallInt) :
    a.order b = x.order y := by
  cases a <;> cases b <;> cases real <;> cases real' <;> try rfl
  exact (Binary64.order_of_small_ints small small').symm

theorem numbers_chained (unmixed : Unmixed [a, b, c]) (ka : a.kind = .number)
    (kb : b.kind = .number) (kc : c.kind = .number) :
    Chained (a.order b) (b.order c) (a.order c) := by
  rcases unmixed with integers | small
  · obtain ⟨i, rfl⟩ := int_of_number ka (integers a (by simp))
    obtain ⟨j, rfl⟩ := int_of_number kb (integers b (by simp))
    obtain ⟨k, rfl⟩ := int_of_number kc (integers c (by simp))
    exact chained_compare i j k
  · have smallA := small a (by simp)
    have smallB := small b (by simp)
    have smallC := small c (by simp)
    obtain ⟨x, realA⟩ := real_of_number ka
    obtain ⟨y, realB⟩ := real_of_number kb
    obtain ⟨z, realC⟩ := real_of_number kc
    rw [order_of_small_numbers realA realB smallA smallB,
      order_of_small_numbers realB realC smallB smallC,
      order_of_small_numbers realA realC smallA smallC]
    exact Binary64.order_chained x y z

theorem chained_of_kinds
    (within : a.kind = b.kind → b.kind = c.kind → Chained (a.order b) (b.order c) (a.order c)) :
    Chained (a.order b) (b.order c) (a.order c) := by
  rw [order_eq_then a b, order_eq_then b c, order_eq_then a c]
  refine chained_then (chained_compare _ _ _) ?_
  intro same same'
  rw [Std.compare_eq_iff_eq] at same same'
  exact within (Kind.rank_injective same) (Kind.rank_injective same')

theorem order_chained (unmixed : Unmixed [a, b, c]) :
    Chained (a.order b) (b.order c) (a.order c) := by
  refine chained_of_kinds fun kinds kinds' => ?_
  induction a using structural_induction generalizing b c with
  | int i => exact numbers_chained unmixed rfl kinds.symm (kinds.trans kinds').symm
  | float x => exact numbers_chained unmixed rfl kinds.symm (kinds.trans kinds').symm
  | null =>
    cases b with
    | null =>
      cases c with
      | null => exact fun _ _ => rfl
      | _ => cases kinds'
    | _ => cases kinds
  | bool x =>
    cases b with
    | bool y =>
      cases c with
      | bool z => exact chained_compare x y z
      | _ => cases kinds'
    | _ => cases kinds
  | str x =>
    cases b with
    | str y =>
      cases c with
      | str z => exact chained_compare x y z
      | _ => cases kinds'
    | _ => cases kinds
  | list as ih =>
    cases b with
    | list bs =>
      cases c with
      | list cs =>
        simp only [order, order_items_eq]
        refine lex_chained fun x hx y hy z hz => chained_of_kinds ?_
        exact ih x hx (unmixed_three_items unmixed hx hy hz)
      | _ => cases kinds'
    | _ => cases kinds
  | record es ih =>
    cases b with
    | record fs =>
      cases c with
      | record gs =>
        simp only [order, order_entries_eq]
        refine lex_chained fun e he f hf g hg => chained_then (chained_compare _ _ _) ?_
        intro _ _
        exact chained_of_kinds (ih e he (unmixed_three_entries unmixed he hf hg))
      | _ => cases kinds'
    | _ => cases kinds

end Three

/-- The order of values is a total preorder wherever no rounding comes in. Every
value has its own place, and two values turned round compare the other way round,
whatever they hold. If three values together hold no binary64 number at all or no
integer beyond 2^53, ascending steps carry through, and the ends are equal only
where every step is. -/
theorem order_is_total_preorder (a b c : Value) :
    a.order a = .eq ∧ b.order a = (a.order b).swap ∧
    (Unmixed [a, b, c] → (a.order b).isLE → (b.order c).isLE →
      (a.order c).isLE ∧ (a.order c = .eq ↔ a.order b = .eq ∧ b.order c = .eq)) := by
  refine ⟨order_self a, (order_swap a b).symm, ?_⟩
  intro unmixed first second
  exact chained_ends (order_chained unmixed) first second

example :
    (int 9007199254740993).order (float ⟨0x4340000000000000⟩) = .eq ∧
    (float ⟨0x4340000000000000⟩).order (int 9007199254740992) = .eq ∧
    (int 9007199254740993).order (int 9007199254740992) = .gt := by
  decide +kernel

def reading (time : Value) (levels : Value) : Value := .record [("time", time), ("levels", levels)]

def unread : Value := reading (.float .negativeZero) .null

def unclear : Value := reading (.int 0) (.list [.float .nan])

def unbounded : Value := reading (.float .zero) (.list [.float .nan, .float ⟨0x7ff0000000000000⟩])

theorem readings_ascend :
    Unmixed [unread, unclear, unbounded] ∧ (unread.order unclear).isLE ∧
    (unclear.order unbounded).isLE ∧ (unread.order unbounded).isLE ∧
    unread.order unbounded ≠ .eq ∧ unclear.order unread = .gt := by
  have unmixed : Unmixed [unread, unclear, unbounded] := by decide
  have first : unread.order unclear = .lt := by decide +kernel
  have second : unclear.order unbounded = .lt := by decide +kernel
  obtain ⟨-, turned, chain⟩ := order_is_total_preorder unread unclear unbounded
  obtain ⟨carried, equal⟩ := chain unmixed (by rw [first]; rfl) (by rw [second]; rfl)
  have apart : unread.order unbounded ≠ .eq := by
    intro same
    rw [first] at equal
    cases (equal.mp same).1
  refine ⟨unmixed, by rw [first]; rfl, by rw [second]; rfl, carried, apart, ?_⟩
  rw [turned, first]
  rfl

end Value
end TableAlgebra
