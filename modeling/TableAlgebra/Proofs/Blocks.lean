import Mathlib.Data.List.Induction
import Mathlib.Data.List.Nodup

namespace TableAlgebra

variable {α β : Type} {tag : β → Option Nat} {f : α × Nat → List β}

theorem no_block_before (tagged : ∀ x i, ∀ y ∈ f (x, i), tag y = some i) (xs : List α)
    {i start : Nat} (before : i < start) :
    ((xs.zipIdx start).flatMap f).filter (fun y => tag y == some i) = [] := by
  rw [List.filter_eq_nil_iff]
  intro y member
  obtain ⟨⟨x, k⟩, place, inside⟩ := List.mem_flatMap.mp member
  have later := (List.mem_zipIdx place).1
  rw [tagged x k y inside]
  simp only [beq_iff_eq, Option.some.injEq]
  omega

theorem block_of_position_from (tagged : ∀ x i, ∀ y ∈ f (x, i), tag y = some i) {xs : List α}
    {i : Nat} (start : Nat) {x : α} (place : xs[i]? = some x) :
    ((xs.zipIdx start).flatMap f).filter (fun y => tag y == some (start + i)) =
      f (x, start + i) := by
  induction xs generalizing start i with
  | nil => simp at place
  | cons first rest ih =>
    rw [List.zipIdx_cons, List.flatMap_cons, List.filter_append]
    cases i with
    | zero =>
      have same : first = x := by simpa using place
      subst same
      have whole : (f (first, start)).filter (fun y => tag y == some (start + 0)) =
          f (first, start) := by
        rw [List.filter_eq_self]
        intro y inside
        simp [tagged first start y inside]
      rw [whole, no_block_before tagged rest (by omega), List.append_nil, Nat.add_zero]
    | succ i =>
      have other : (f (first, start)).filter (fun y => tag y == some (start + (i + 1))) = [] := by
        rw [List.filter_eq_nil_iff]
        intro y inside
        simp [tagged first start y inside]
      have later := ih (start + 1) place
      rw [show start + 1 + i = start + (i + 1) by omega] at later
      rw [other, later, List.nil_append]

theorem block_of_position (tagged : ∀ x i, ∀ y ∈ f (x, i), tag y = some i) {xs : List α}
    {i : Nat} {x : α} (place : xs[i]? = some x) :
    (xs.zipIdx.flatMap f).filter (fun y => tag y == some i) = f (x, i) := by
  simpa using block_of_position_from tagged 0 place

theorem place_in_blocks {g : α → List β} {size : Nat} (each : ∀ x, (g x).length = size)
    {xs : List α} {i j : Nat} {x : α} (place : xs[i]? = some x) (inside : j < size) :
    (xs.flatMap g)[i * size + j]? = (g x)[j]? := by
  induction xs generalizing i with
  | nil => simp at place
  | cons first rest ih =>
    rw [List.flatMap_cons]
    cases i with
    | zero =>
      have same : first = x := by simpa using place
      rw [Nat.zero_mul, Nat.zero_add, List.getElem?_append_left (by rw [each]; exact inside), same]
    | succ i =>
      have further : (i + 1) * size + j = (g first).length + (i * size + j) := by
        rw [each, Nat.succ_mul]
        omega
      rw [further, List.getElem?_append_right (Nat.le_add_right _ _), Nat.add_sub_cancel_left]
      exact ih (by simpa using place)

theorem positions_eq_range (xs : List α) : xs.zipIdx.map Prod.snd = List.range xs.length := by
  rw [List.zipIdx_map_snd, List.range_eq_range']

theorem nodup_blocks {κ : Type} {key : β → κ} (side : κ → Option Nat)
    (tagged : ∀ x i, ∀ y ∈ f (x, i), side (key y) = some i)
    (each : ∀ x i, ((f (x, i)).map key).Nodup) (xs : List α) :
    ((xs.zipIdx.flatMap f).map key).Nodup := by
  have positions : xs.zipIdx.Pairwise fun p q => p.2 ≠ q.2 := by
    have distinct : (xs.zipIdx.map Prod.snd).Nodup := by
      rw [positions_eq_range]
      exact List.nodup_range
    exact List.pairwise_map.mp distinct
  rw [List.map_flatMap, List.nodup_flatMap]
  refine ⟨fun (x, i) _ => each x i, positions.imp ?_⟩
  rintro ⟨x, i⟩ ⟨x', i'⟩ differ k left right
  obtain ⟨y, inside, rfl⟩ := List.mem_map.mp left
  obtain ⟨y', inside', same⟩ := List.mem_map.mp right
  have sides := tagged x i y inside
  rw [← same, tagged x' i' y' inside'] at sides
  exact differ (Option.some.inj sides).symm

theorem zip_positions (xs : List α) (g : Nat → β) :
    xs.zipIdx.zip ((List.range xs.length).map g) =
      xs.zipIdx.map fun (x, i) => ((x, i), g i) := by
  have same : xs.zipIdx.zip (xs.zipIdx.map fun p => g p.2) =
      (xs.zipIdx.map id).zip (xs.zipIdx.map fun p => g p.2) := by rw [List.map_id]
  rw [← positions_eq_range, List.map_map]
  exact same.trans List.zip_map'

/-- If a step changes each cell by its position alone, and the content of a cell
grows in the same way with the rows, then that is what the loop leaves in it. -/
theorem fold_by_position {ρ σ : Type} {step : List σ → ρ → List σ} {put : Nat → σ → ρ → σ}
    (content : Nat → List ρ → σ)
    (each : ∀ cells row i, (step cells row)[i]? = cells[i]?.map (put i · row))
    (grows : ∀ i rows row, content i (rows ++ [row]) = put i (content i rows) row)
    (count : Nat) (rows : List ρ) :
    rows.foldl step ((List.range count).map (content · [])) =
      (List.range count).map (content · rows) := by
  -- from the end, since the loop carries the cells from the front
  induction rows using List.reverseRecOn with
  | nil => rfl
  | append_singleton rows row ih =>
    rw [List.foldl_append, ih, List.foldl_cons, List.foldl_nil]
    apply List.ext_getElem?
    intro i
    rw [each, List.getElem?_map, List.getElem?_map]
    by_cases inside : i < count
    · rw [List.getElem?_range inside, Option.map_some, Option.map_some, Option.map_some, grows]
    · rw [List.getElem?_eq_none (by simpa using inside)]
      rfl

end TableAlgebra
