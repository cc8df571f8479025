import Mathlib.Data.List.Forall2
import TableAlgebra.Value.Encoding
import TableAlgebra.Value.Equality

namespace TableAlgebra
namespace Value

/-- A property holds of every value if the items of a list and the values of a
record hand it on to the whole. -/
@[elab_as_elim]
theorem structural_induction {motive : Value → Prop} (null : motive .null)
    (bool : ∀ b, motive (.bool b)) (int : ∀ i, motive (.int i))
    (float : ∀ x, motive (.float x)) (str : ∀ s, motive (.str s))
    (list : ∀ items, (∀ item ∈ items, motive item) → motive (.list items))
    (record : ∀ entries, (∀ entry ∈ entries, motive entry.2) → motive (.record entries))
    (v : Value) : motive v := by
  refine @Value.rec motive (fun items => ∀ item ∈ items, motive item)
    (fun entries => ∀ entry ∈ entries, motive entry.2) (fun entry => motive entry.2)
    null bool int float str list record ?_ ?_ ?_ ?_ (fun _ _ value => value) v
  · simp
  · intro head tail first rest item member
    rcases List.mem_cons.mp member with rfl | later
    · exact first
    · exact rest item later
  · simp
  · intro head tail first rest entry member
    rcases List.mem_cons.mp member with rfl | later
    · exact first
    · exact rest entry later

theorem everywhere_items {holds : Value → Prop} (items : List Value) :
    EverywhereItems holds items ↔ ∀ item ∈ items, item.Everywhere holds := by
  induction items with
  | nil => simp [EverywhereItems]
  | cons item rest ih => simp [EverywhereItems, ih]

theorem everywhere_entries {holds : Value → Prop} (entries : List (String × Value)) :
    EverywhereEntries holds entries ↔ ∀ entry ∈ entries, entry.2.Everywhere holds := by
  induction entries with
  | nil => simp [EverywhereEntries]
  | cons entry rest ih => simp [EverywhereEntries, ih]

@[simp] theorem everywhere_list {holds : Value → Prop} (items : List Value) :
    (list items).Everywhere holds ↔
      holds (list items) ∧ ∀ item ∈ items, item.Everywhere holds := by
  rw [Everywhere, everywhere_items]

@[simp] theorem everywhere_record {holds : Value → Prop} (entries : List (String × Value)) :
    (record entries).Everywhere holds ↔
      holds (record entries) ∧ ∀ entry ∈ entries, entry.2.Everywhere holds := by
  rw [Everywhere, everywhere_entries]

section Equality

variable (sameReal : Binary64 → Binary64 → Bool)

theorem equal_items_iff (as bs : List Value) :
    equalItemsBy sameReal as bs = true ↔
      List.Forall₂ (fun a b => equalBy sameReal a b = true) as bs := by
  induction as generalizing bs with
  | nil => cases bs <;> simp [equalItemsBy]
  | cons a as ih => cases bs <;> simp [equalItemsBy, ih]

theorem entries_found_iff (es fs : List (String × Value)) :
    entriesFoundBy sameReal es fs = true ↔
      ∀ e ∈ es, ∃ w, fs.lookup e.1 = some w ∧ equalBy sameReal e.2 w = true := by
  induction es with
  | nil => simp [entriesFoundBy]
  | cons e es ih =>
    obtain ⟨name, value⟩ := e
    simp only [entriesFoundBy, Bool.and_eq_true, ih, List.forall_mem_cons]
    cases fs.lookup name <;> simp

theorem equal_list_iff (as bs : List Value) :
    equalBy sameReal (list as) (list bs) = true ↔
      List.Forall₂ (fun a b => equalBy sameReal a b = true) as bs := by
  rw [equalBy, equal_items_iff]

theorem equal_record_iff (es fs : List (String × Value)) :
    equalBy sameReal (record es) (record fs) = true ↔
      es.length = fs.length ∧
        ∀ e ∈ es, ∃ w, fs.lookup e.1 = some w ∧ equalBy sameReal e.2 w = true := by
  rw [equalBy, Bool.and_eq_true, beq_iff_eq, entries_found_iff]

end Equality

theorem encode_items_eq (items : List Value) : encodeItems items = items.flatMap encode := by
  induction items with
  | nil => rfl
  | cons item rest ih => simp [encodeItems, ih]

theorem encode_entries_eq (entries : List (String × Value)) :
    encodeEntries entries = entries.map fun entry => (entry.1, entry.2.encode) := by
  induction entries with
  | nil => rfl
  | cons entry rest ih => simp [encodeEntries, ih]

end Value
end TableAlgebra
