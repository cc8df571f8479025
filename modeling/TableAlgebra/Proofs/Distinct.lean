import Mathlib.Data.List.Induction
import Mathlib.Data.List.Nodup

namespace TableAlgebra

variable {α β : Type} [BEq α] [LawfulBEq α] [BEq β] [LawfulBEq β]

theorem erase_dups_concat (l : List α) (a : α) :
    (l ++ [a]).eraseDups = if a ∈ l then l.eraseDups else l.eraseDups ++ [a] := by
  rw [List.eraseDups_append, List.cons_removeAll, List.nil_removeAll]
  by_cases old : a ∈ l
  · simp [old]
  · simp [old, List.eraseDups_cons]

theorem erase_dups_nodup (l : List α) : l.eraseDups.Nodup := by
  induction l using List.reverseRecOn with
  | nil => exact List.nodup_nil
  | append_singleton l a ih =>
    rw [erase_dups_concat]
    split
    · exact ih
    · rename_i new
      exact List.nodup_append.mpr ⟨ih, List.nodup_singleton a, by
        intro b old c last same
        rw [List.mem_singleton.mp last] at same
        exact new (List.mem_eraseDups.mp (same ▸ old))⟩

theorem erase_dups_of_nodup {l : List α} (distinct : l.Nodup) : l.eraseDups = l := by
  induction l using List.reverseRecOn with
  | nil => rfl
  | append_singleton l a ih =>
    obtain ⟨before, -, apart⟩ := List.nodup_append.mp distinct
    have new : a ∉ l := fun old => apart a old a (List.mem_singleton_self a) rfl
    rw [erase_dups_concat, if_neg new, ih before]

theorem erase_dups_perm {l l' : List α} (perm : l.Perm l') :
    l.eraseDups.Perm l'.eraseDups := by
  rw [List.perm_ext_iff_of_nodup (erase_dups_nodup l) (erase_dups_nodup l')]
  intro a
  rw [List.mem_eraseDups, List.mem_eraseDups, perm.mem_iff]

theorem erase_dups_map {f : α → β} {l : List α}
    (injective : ∀ a ∈ l, ∀ b ∈ l, f a = f b → a = b) :
    (l.map f).eraseDups = l.eraseDups.map f := by
  induction l using List.reverseRecOn with
  | nil => rfl
  | append_singleton l a ih =>
    have before := ih fun b hb c hc =>
      injective b (List.mem_append_left _ hb) c (List.mem_append_left _ hc)
    have same : f a ∈ l.map f ↔ a ∈ l := by
      constructor
      · intro image
        obtain ⟨b, hb, equal⟩ := List.mem_map.mp image
        rw [← injective b (List.mem_append_left _ hb) a (by simp) equal]
        exact hb
      · exact List.mem_map_of_mem
    rw [List.map_append, List.map_singleton, erase_dups_concat, erase_dups_concat, before]
    by_cases old : a ∈ l
    · rw [if_pos old, if_pos (same.mpr old)]
    · rw [if_neg old, if_neg (mt same.mp old), List.map_append, List.map_singleton]

theorem erase_dups_filter (keep : α → Bool) (l : List α) :
    (l.filter keep).eraseDups = l.eraseDups.filter keep := by
  induction l using List.reverseRecOn with
  | nil => rfl
  | append_singleton l a ih =>
    rw [erase_dups_concat]
    by_cases kept : keep a = true
    · rw [List.filter_append, List.filter_cons_of_pos kept, List.filter_nil, erase_dups_concat, ih]
      by_cases old : a ∈ l
      · rw [if_pos old, if_pos (List.mem_filter.mpr ⟨old, kept⟩)]
      · have new : a ∉ l.filter keep := fun member => old (List.mem_of_mem_filter member)
        rw [if_neg old, if_neg new, List.filter_append, List.filter_cons_of_pos kept,
          List.filter_nil]
    · have left (l : List α) : (l ++ [a]).filter keep = l.filter keep := by
        rw [List.filter_append, List.filter_cons_of_neg kept, List.filter_nil, List.append_nil]
      rw [left, ih]
      split
      · rfl
      · rw [left]

end TableAlgebra
