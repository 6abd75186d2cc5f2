import SpriteField.Grid
import Mathlib.Tactic

/-!
# Spans on the wrapped grid

A run that is no longer than an axis has its places without repetition, and a span of two such runs
has its chunk ids without repetition.  On the ids that the grid can produce, the membership test of
a span agrees with its list of ids.
-/

namespace SpriteField

namespace Grid

theorem validate_eq_ok_iff (g : Grid) :
    g.validate = .ok () ↔
      0 < g.gridBits ∧ g.gridBits ≤ maxGridBits ∧ g.chunkWidthBits ≤ maxChunkWidthBits := by
  unfold validate
  split
  next h =>
    constructor
    · intro herror
      cases herror
    · omega
  next h =>
    split
    next h' =>
      constructor
      · intro herror
        cases herror
      · omega
    next h' =>
      constructor
      · intro _
        omega
      · intro _
        rfl

theorem size_eq (g : Grid) : g.size = 2 ^ g.gridBits :=
  Nat.one_shiftLeft _

theorem size_pos (g : Grid) : 0 < g.size := by
  rw [size_eq]
  exact Nat.two_pow_pos _

theorem size_le {g : Grid} (hg : g.validate = .ok ()) : g.size ≤ 2 ^ 12 := by
  obtain ⟨-, hbits, -⟩ := (validate_eq_ok_iff g).mp hg
  rw [size_eq]
  exact Nat.pow_le_pow_right (by decide) hbits

theorem wrap_lt (g : Grid) (chunk : Int) : g.wrap chunk < g.size := by
  have hpos : (0 : Int) < g.size := by exact_mod_cast g.size_pos
  have hnonneg := Int.emod_nonneg chunk (Int.ne_of_gt hpos)
  have hlt := Int.emod_lt_of_pos chunk hpos
  rw [wrap]
  omega

theorem cast_wrap (g : Grid) (chunk : Int) : (g.wrap chunk : Int) = chunk % g.size := by
  have hpos : (0 : Int) < g.size := by exact_mod_cast g.size_pos
  exact Int.toNat_of_nonneg (Int.emod_nonneg chunk (Int.ne_of_gt hpos))

theorem wrap_eq_wrap_iff (g : Grid) (a b : Int) : g.wrap a = g.wrap b ↔ (g.size : Int) ∣ a - b := by
  rw [← Int.natCast_inj, cast_wrap, cast_wrap]
  exact Int.emod_eq_emod_iff_emod_sub_eq_zero.trans Int.dvd_iff_emod_eq_zero.symm

theorem wrap_of_lt (g : Grid) {n : Nat} (h : n < g.size) : g.wrap n = n := by
  rw [← Int.natCast_inj, cast_wrap]
  exact Int.emod_eq_of_lt (by omega) (by omega)

theorem chunkId_eq {g : Grid} (hg : g.validate = .ok ()) {column row : Nat}
    (hcolumn : column < g.size) (hrow : row < g.size) :
    g.chunkId column row = column + row * g.size := by
  have hsize := size_le hg
  have hbound : row * g.size ≤ (2 ^ 12 - 1) * 2 ^ 12 := Nat.mul_le_mul (by omega) hsize
  rw [chunkId]
  exact Nat.mod_eq_of_lt (by omega)

end Grid

namespace Run

variable {g : Grid} {run : Run}

theorem mem_places {place : Nat} :
    place ∈ run.places g ↔ ∃ k < run.count, g.wrap (run.first + k) = place := by
  simp only [places, List.mem_map, List.mem_range]

theorem lt_of_mem_places {place : Nat} (h : place ∈ run.places g) : place < g.size := by
  obtain ⟨k, -, rfl⟩ := mem_places.mp h
  exact g.wrap_lt _

theorem length_places : (run.places g).length = run.count := by
  rw [places, List.length_map, List.length_range]

theorem nodup_places (h : run.count ≤ g.size) : (run.places g).Nodup := by
  refine List.Nodup.map_on ?_ List.nodup_range
  intro k hk k' hk' heq
  have hk := List.mem_range.mp hk
  have hk' := List.mem_range.mp hk'
  rw [Grid.wrap_eq_wrap_iff] at heq
  have hzero : run.first + k - (run.first + k') = 0 :=
    Int.eq_zero_of_abs_lt_dvd heq (abs_lt.mpr ⟨by omega, by omega⟩)
  omega

theorem covers_iff_mem_places (h : run.count ≤ g.size) {place : Nat} (hplace : place < g.size) :
    run.covers g place = true ↔ place ∈ run.places g := by
  rw [covers, decide_eq_true_eq, mem_places]
  constructor
  · intro hlt
    refine ⟨g.wrap (place - run.first), hlt, ?_⟩
    rw [← g.wrap_of_lt hplace, Grid.wrap_eq_wrap_iff, Grid.cast_wrap, g.wrap_of_lt hplace]
    have hdvd : (g.size : Int) ∣ (place - run.first) % g.size - (place - run.first) :=
      Int.dvd_sub_self_of_emod_eq rfl
    have heq : run.first + (place - run.first) % g.size - place =
        (place - run.first) % g.size - (place - run.first) := by ring
    rw [heq]
    exact hdvd
  · rintro ⟨k, hk, rfl⟩
    have hwrap : g.wrap (g.wrap (run.first + k) - run.first) = g.wrap k := by
      rw [Grid.wrap_eq_wrap_iff, Grid.cast_wrap]
      have hdvd : (g.size : Int) ∣ (run.first + k) % g.size - (run.first + k) :=
        Int.dvd_sub_self_of_emod_eq rfl
      have heq : (run.first + k) % g.size - run.first - k =
          (run.first + k) % g.size - (run.first + k) := by ring
      rw [heq]
      exact hdvd
    rw [hwrap, g.wrap_of_lt (by omega)]
    exact hk

end Run

namespace Span

variable {g : Grid} {bounds : Rect}

@[simp] theorem grid_ofRect : (ofRect g bounds).grid = g := by
  unfold ofRect
  split <;> rfl

theorem columns_ofRect (h : bounds.hasArea = true) :
    (ofRect g bounds).columns = .ofInterval g bounds.x1 bounds.x2 := by
  rw [ofRect, if_pos h]

theorem rows_ofRect (h : bounds.hasArea = true) :
    (ofRect g bounds).rows = .ofInterval g bounds.y1 bounds.y2 := by
  rw [ofRect, if_pos h]

theorem count_columns_ofRect_le (g : Grid) (bounds : Rect) :
    (ofRect g bounds).columns.count ≤ g.size := by
  unfold ofRect
  split
  · exact Nat.min_le_right _ _
  · exact Nat.zero_le _

theorem count_rows_ofRect_le (g : Grid) (bounds : Rect) :
    (ofRect g bounds).rows.count ≤ g.size := by
  unfold ofRect
  split
  · exact Nat.min_le_right _ _
  · exact Nat.zero_le _

theorem mem_ids {s : Span} {id : Nat} :
    id ∈ s.ids ↔ ∃ row ∈ s.rows.places s.grid, ∃ column ∈ s.columns.places s.grid,
      s.grid.chunkId column row = id := by
  simp only [ids, List.mem_flatMap, List.mem_map]

theorem length_ids (s : Span) : s.ids.length = s.size := by
  rw [ids, List.length_flatMap]
  simp only [List.length_map, Run.length_places, List.map_const', List.sum_replicate, size,
    smul_eq_mul]
  exact Nat.mul_comm _ _

theorem lt_of_mem_ids (hg : g.validate = .ok ()) {id : Nat} (h : id ∈ (ofRect g bounds).ids) :
    id < g.size * g.size := by
  obtain ⟨row, hrow, column, hcolumn, rfl⟩ := mem_ids.mp h
  have hrow := Run.lt_of_mem_places hrow
  have hcolumn := Run.lt_of_mem_places hcolumn
  rw [grid_ofRect] at hrow hcolumn ⊢
  rw [Grid.chunkId_eq hg hcolumn hrow]
  calc
    column + row * g.size < g.size + row * g.size := by omega
    _ = (row + 1) * g.size := by ring
    _ ≤ g.size * g.size := Nat.mul_le_mul_right _ hrow

theorem nodup_ids (hg : g.validate = .ok ()) : (ofRect g bounds).ids.Nodup := by
  have hcolumns := Run.nodup_places (count_columns_ofRect_le g bounds)
  have hrows := Run.nodup_places (count_rows_ofRect_le g bounds)
  have hsplit : ∀ {column row column' row' : Nat}, column < g.size → row < g.size →
      column' < g.size → row' < g.size → g.chunkId column row = g.chunkId column' row' →
      column = column' ∧ row = row' := by
    intro column row column' row' hcolumn hrow hcolumn' hrow' heq
    rw [Grid.chunkId_eq hg hcolumn hrow, Grid.chunkId_eq hg hcolumn' hrow'] at heq
    have hmod := congrArg (· % g.size) heq
    have hdiv := congrArg (· / g.size) heq
    simp only [Nat.add_mul_mod_self_right, Nat.mod_eq_of_lt hcolumn,
      Nat.mod_eq_of_lt hcolumn'] at hmod
    simp only [Nat.add_mul_div_right _ _ g.size_pos, Nat.div_eq_of_lt hcolumn,
      Nat.div_eq_of_lt hcolumn', Nat.zero_add] at hdiv
    exact ⟨hmod, hdiv⟩
  rw [ids, grid_ofRect, List.nodup_flatMap]
  constructor
  · intro row hrow
    refine List.Nodup.map_on ?_ hcolumns
    intro column hcolumn column' hcolumn' heq
    exact (hsplit (Run.lt_of_mem_places hcolumn) (Run.lt_of_mem_places hrow)
      (Run.lt_of_mem_places hcolumn') (Run.lt_of_mem_places hrow) heq).1
  · refine List.Pairwise.imp_of_mem ?_ hrows
    intro row row' hrow hrow' hne
    change List.Disjoint _ _
    intro id hid hid'
    obtain ⟨column, hcolumn, rfl⟩ := List.mem_map.mp hid
    obtain ⟨column', hcolumn', heq⟩ := List.mem_map.mp hid'
    exact hne (hsplit (Run.lt_of_mem_places hcolumn) (Run.lt_of_mem_places hrow)
      (Run.lt_of_mem_places hcolumn') (Run.lt_of_mem_places hrow') heq.symm).2

/-- On the ids of the grid, the membership test and the list of ids agree. -/
theorem contains_iff_mem_ids (hg : g.validate = .ok ()) {id : Nat} (hid : id < g.size * g.size) :
    (ofRect g bounds).contains id = true ↔ id ∈ (ofRect g bounds).ids := by
  have hcolumn : id % g.size < g.size := Nat.mod_lt _ g.size_pos
  have hrow : id / g.size < g.size := Nat.div_lt_of_lt_mul hid
  rw [contains, grid_ofRect, Nat.mod_eq_of_lt hrow, Bool.and_eq_true,
    Run.covers_iff_mem_places (count_columns_ofRect_le g bounds) hcolumn,
    Run.covers_iff_mem_places (count_rows_ofRect_le g bounds) hrow, mem_ids, grid_ofRect]
  constructor
  · rintro ⟨hmem, hmem'⟩
    refine ⟨_, hmem', _, hmem, ?_⟩
    rw [Grid.chunkId_eq hg hcolumn hrow]
    exact Nat.mod_add_div' id g.size
  · rintro ⟨row, hmem', column, hmem, rfl⟩
    have hrow := Run.lt_of_mem_places hmem'
    have hcolumn := Run.lt_of_mem_places hmem
    rw [Grid.chunkId_eq hg hcolumn hrow, Nat.add_mul_mod_self_right, Nat.mod_eq_of_lt hcolumn,
      Nat.add_mul_div_right _ _ g.size_pos, Nat.div_eq_of_lt hcolumn, Nat.zero_add]
    exact ⟨hmem, hmem'⟩

end Span

end SpriteField
