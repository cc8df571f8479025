import Mathlib.Data.List.Forall2

namespace TableAlgebra

variable {α β γ δ ε : Type}

theorem bind_eq_ok_iff {x : Except ε α} {f : α → Except ε β} {b : β} :
    x >>= f = .ok b ↔ ∃ a, x = .ok a ∧ f a = .ok b := by
  cases x with
  | error e => simp [bind, Except.bind]
  | ok a => simp [bind, Except.bind]

theorem mapM_eq_ok_iff {f : α → Except ε β} {as : List α} {bs : List β} :
    as.mapM f = .ok bs ↔ List.Forall₂ (fun a b => f a = .ok b) as bs := by
  induction as generalizing bs with
  | nil =>
    rw [List.mapM_nil, List.forall₂_nil_left_iff]
    simp [pure, Except.pure, eq_comm]
  | cons a as ih =>
    rw [List.mapM_cons, bind_eq_ok_iff, List.forall₂_cons_left_iff]
    simp only [bind_eq_ok_iff, ih, pure, Except.pure, Except.ok.injEq]
    constructor
    · rintro ⟨b, first, later, rest, rfl⟩
      exact ⟨b, later, first, rest, rfl⟩
    · rintro ⟨b, later, first, rest, rfl⟩
      exact ⟨b, first, later, rest, rfl⟩

theorem bind_eq_error_iff {x : Except ε α} {f : α → Except ε β} {e : ε} :
    x >>= f = .error e ↔ x = .error e ∨ ∃ a, x = .ok a ∧ f a = .error e := by
  cases x with
  | error d => simp [bind, Except.bind]
  | ok a => simp [bind, Except.bind]

theorem bind_pure_eq_error_iff {x : Except ε α} {f : α → β} {e : ε} :
    (x >>= fun a => pure (f a)) = .error e ↔ x = .error e := by
  cases x with
  | error d => simp [bind, Except.bind]
  | ok a => simp [bind, Except.bind, pure, Except.pure]

/-- The failure of a sequence of steps is that of the first step that fails. -/
theorem mapM_eq_error_iff {f : α → Except ε β} {as : List α} {e : ε} :
    as.mapM f = .error e ↔ ∃ before a after, as = before ++ a :: after ∧
      (∀ b ∈ before, ∃ value, f b = .ok value) ∧ f a = .error e := by
  induction as with
  | nil => simp [pure, Except.pure]
  | cons first rest ih =>
    rw [List.mapM_cons, bind_eq_error_iff]
    simp only [bind_eq_error_iff, ih, pure, Except.pure, reduceCtorEq, and_false, exists_false,
      or_false]
    constructor
    · rintro (failed | ⟨value, given, before, a, after, rfl, passed, failed⟩)
      · exact ⟨[], first, rest, rfl, by simp, failed⟩
      · refine ⟨first :: before, a, after, rfl, ?_, failed⟩
        exact List.forall_mem_cons.mpr ⟨⟨value, given⟩, passed⟩
    · rintro ⟨before, a, after, split, passed, failed⟩
      cases before with
      | nil =>
        cases split
        exact .inl failed
      | cons b before =>
        cases split
        obtain ⟨value, given⟩ := passed _ (List.mem_cons_self ..)
        exact .inr ⟨value, given, before, a, after, rfl,
          fun c member => passed c (List.mem_cons_of_mem _ member), failed⟩

theorem mapM_error_iff_of_all {f : α → Except ε β} {as : List α} {e : ε} {p : Prop}
    (all : ∀ a ∈ as, f a = .error e ↔ p) : as.mapM f = .error e ↔ as ≠ [] ∧ p := by
  rw [mapM_eq_error_iff]
  constructor
  · rintro ⟨before, a, after, rfl, -, failed⟩
    exact ⟨by simp, (all a (by simp)).mp failed⟩
  · rintro ⟨some_step, holds⟩
    obtain ⟨first, rest, rfl⟩ := List.exists_cons_of_ne_nil some_step
    exact ⟨[], first, rest, rfl, by simp, (all first List.mem_cons_self).mpr holds⟩

theorem mapM_error_iff_at {f : α → Except ε β} {as : List α} {e : ε} :
    as.mapM f = .error e ↔ ∃ (i : Nat) (a : α), as[i]? = some a ∧ f a = .error e ∧
      ∀ k < i, ∀ b, as[k]? = some b → ∃ value, f b = .ok value := by
  rw [mapM_eq_error_iff]
  constructor
  · rintro ⟨before, a, after, rfl, passed, failed⟩
    refine ⟨before.length, a, by simp, failed, fun k earlier b here => passed b ?_⟩
    rw [List.getElem?_append_left earlier] at here
    exact List.mem_of_getElem? here
  · rintro ⟨i, a, place, failed, passed⟩
    obtain ⟨inside, rfl⟩ := List.getElem?_eq_some_iff.mp place
    refine ⟨as.take i, as[i], as.drop (i + 1), ?_, fun b member => ?_, failed⟩
    · rw [← List.drop_eq_getElem_cons inside, List.take_append_drop]
    · obtain ⟨k, small, rfl⟩ := List.mem_take_iff_getElem.mp member
      exact passed k (by omega) _ (List.getElem?_eq_getElem _)

theorem mapM_positions_error_iff {g : Nat → α → Except ε β} {as : List α} {e : ε} :
    as.zipIdx.mapM (fun (a, i) => g i a) = .error e ↔
      ∃ i a, as[i]? = some a ∧ g i a = .error e ∧
        ∀ k < i, ∀ b, as[k]? = some b → ∃ value, g k b = .ok value := by
  have placed {k : Nat} {p : α × Nat} : as.zipIdx[k]? = some p ↔ as[k]? = some p.1 ∧ p.2 = k := by
    rw [List.getElem?_zipIdx, Option.map_eq_some_iff]
    constructor
    · rintro ⟨a, here, rfl⟩
      exact ⟨here, Nat.zero_add k⟩
    · rintro ⟨here, position⟩
      exact ⟨p.1, here, Prod.ext rfl ((Nat.zero_add k).trans position.symm)⟩
  simp only [mapM_error_iff_at, placed, Prod.exists, Prod.forall, and_imp]
  constructor
  · rintro ⟨i, a, _, ⟨place, rfl⟩, failed, passed⟩
    exact ⟨_, a, place, failed, fun k earlier b here => passed k earlier b k here rfl⟩
  · rintro ⟨i, a, place, failed, passed⟩
    refine ⟨i, a, i, ⟨place, rfl⟩, failed, ?_⟩
    rintro k earlier b _ here rfl
    exact passed _ earlier b here

theorem same_view_cases {x y : Except ε α} {view : α → γ} (same : x.map view = y.map view) :
    (∃ e, x = .error e ∧ y = .error e) ∨
      ∃ a b, x = .ok a ∧ y = .ok b ∧ view a = view b := by
  cases x with
  | error e =>
    cases y with
    | error d =>
      cases same
      exact .inl ⟨e, rfl, rfl⟩
    | ok b => cases same
  | ok a =>
    cases y with
    | error d => cases same
    | ok b => exact .inr ⟨a, b, rfl, rfl, Except.ok.inj same⟩

theorem coarser_view {x y : Except ε α} {view : α → γ} {seen : α → δ}
    (same : x.map view = y.map view) (coarser : ∀ a b, view a = view b → seen a = seen b) :
    x.map seen = y.map seen := by
  rcases same_view_cases same with ⟨e, rfl, rfl⟩ | ⟨a, b, rfl, rfl, alike⟩
  · rfl
  · exact congrArg Except.ok (coarser a b alike)

theorem bind_view {x y : Except ε α} {f : α → Except ε β} {view : α → γ} {seen : β → δ}
    (same : x.map view = y.map view)
    (next : ∀ a b, view a = view b → (f a).map seen = (f b).map seen) :
    (x >>= f).map seen = (y >>= f).map seen := by
  rcases same_view_cases same with ⟨e, rfl, rfl⟩ | ⟨a, b, rfl, rfl, alike⟩
  · rfl
  · exact next a b alike

end TableAlgebra
