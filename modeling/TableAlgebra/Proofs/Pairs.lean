import Mathlib.Data.List.Forall2

namespace TableAlgebra

variable {α β γ : Type}

theorem pairs_imp {R S : α → β → Prop} {as : List α} {bs : List β}
    (pairs : List.Forall₂ R as bs) (imp : ∀ a ∈ as, ∀ b ∈ bs, R a b → S a b) :
    List.Forall₂ S as bs := by
  induction pairs with
  | nil => exact .nil
  | cons first rest ih =>
    refine .cons (imp _ (by simp) _ (by simp) first) (ih ?_)
    intro a ha b hb
    exact imp a (List.mem_cons_of_mem _ ha) b (List.mem_cons_of_mem _ hb)

theorem pairs_trans {R : α → β → Prop} {S : β → γ → Prop} {T : α → γ → Prop} {as : List α}
    {bs : List β} {cs : List γ} (left : List.Forall₂ R as bs) (right : List.Forall₂ S bs cs)
    (through : ∀ a ∈ as, ∀ b c, R a b → S b c → T a c) : List.Forall₂ T as cs := by
  induction left generalizing cs with
  | nil => cases right; exact .nil
  | cons first rest ih =>
    cases right with
    | cons second others =>
      refine .cons (through _ (by simp) _ _ first second) (ih others ?_)
      intro a ha
      exact through a (List.mem_cons_of_mem _ ha)

theorem pairs_left {R : α → β → Prop} {as : List α} {bs : List β} (pairs : List.Forall₂ R as bs)
    {a : α} (member : a ∈ as) : ∃ b ∈ bs, R a b := by
  induction pairs with
  | nil => simp at member
  | cons first rest ih =>
    rcases List.mem_cons.mp member with rfl | later
    · exact ⟨_, by simp, first⟩
    · obtain ⟨b, hb, related⟩ := ih later
      exact ⟨b, List.mem_cons_of_mem _ hb, related⟩

theorem pairs_of_forall {R : α → β → Prop} {as : List α} (each : ∀ a ∈ as, ∃ b, R a b) :
    ∃ bs, List.Forall₂ R as bs := by
  induction as with
  | nil => exact ⟨[], .nil⟩
  | cons a as ih =>
    obtain ⟨⟨b, first⟩, later⟩ := List.forall_mem_cons.mp each
    obtain ⟨bs, rest⟩ := ih later
    exact ⟨b :: bs, .cons first rest⟩

theorem map_eq_of_pairs {f : α → γ} {g : β → γ} {as : List α} {bs : List β}
    (pairs : List.Forall₂ (fun a b => f a = g b) as bs) : as.map f = bs.map g := by
  rw [← List.forall₂_eq_eq_eq, List.forall₂_map_left_iff, List.forall₂_map_right_iff]
  exact pairs

section Parts

variable {f : α → List γ} {g : β → List γ} {R : α → β → Prop}

theorem parts_join {as : List α} {bs : List β}
    (pairs : List.Forall₂ (fun a b => f a = g b) as bs) : as.flatMap f = bs.flatMap g := by
  rw [List.flatMap_def, map_eq_of_pairs pairs, ← List.flatMap_def]

/-- Two sequences of one length, whose parts can be split off, match part by part. -/
theorem parts_split {as : List α} {bs : List β} {s t : List γ}
    (split : ∀ a ∈ as, ∀ b ∈ bs, ∀ s t, f a ++ s = g b ++ t → R a b ∧ s = t)
    (size : as.length = bs.length) (same : as.flatMap f ++ s = bs.flatMap g ++ t) :
    List.Forall₂ R as bs ∧ s = t := by
  induction as generalizing bs with
  | nil =>
    cases bs with
    | nil => exact ⟨.nil, same⟩
    | cons b bs => simp at size
  | cons a as ih =>
    cases bs with
    | nil => simp at size
    | cons b bs =>
      simp only [List.flatMap_cons, List.append_assoc] at same
      obtain ⟨first, rest⟩ := split a (by simp) b (by simp) _ _ same
      have later : ∀ a ∈ as, ∀ b ∈ bs, ∀ s t, f a ++ s = g b ++ t → R a b ∧ s = t :=
        fun a ha b hb => split a (List.mem_cons_of_mem _ ha) b (List.mem_cons_of_mem _ hb)
      obtain ⟨pairs, tails⟩ := ih later (by simpa using size) rest
      exact ⟨.cons first pairs, tails⟩

theorem parts_split_all {as : List α} {bs : List β}
    (split : ∀ a ∈ as, ∀ b ∈ bs, ∀ s t, f a ++ s = g b ++ t → R a b ∧ s = t)
    (someF : ∀ a, f a ≠ []) (someG : ∀ b, g b ≠ []) (same : as.flatMap f = bs.flatMap g) :
    List.Forall₂ R as bs := by
  induction as generalizing bs with
  | nil =>
    cases bs with
    | nil => exact .nil
    | cons b bs => simp [someG b] at same
  | cons a as ih =>
    cases bs with
    | nil => simp [someF a] at same
    | cons b bs =>
      simp only [List.flatMap_cons] at same
      obtain ⟨first, rest⟩ := split a (by simp) b (by simp) _ _ same
      have later : ∀ a ∈ as, ∀ b ∈ bs, ∀ s t, f a ++ s = g b ++ t → R a b ∧ s = t :=
        fun a ha b hb => split a (List.mem_cons_of_mem _ ha) b (List.mem_cons_of_mem _ hb)
      exact .cons first (ih later rest)

end Parts

end TableAlgebra
