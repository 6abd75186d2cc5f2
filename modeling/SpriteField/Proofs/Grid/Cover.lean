import SpriteField.Proofs.Grid.Overlap

/-!
# The exact cover of a rectangle

The units of an interval lie in consecutive chunks, from that of its first unit to that of its last
one.  Its run is cut off only where it has been all around the grid and has every place already.
So the ids of a span are, without repetition, those of the chunks that hold a unit of the rectangle.
-/

namespace SpriteField

/-- Every coordinate is below the limit in magnitude. -/
structure Rect.Below (bounds : Rect) (limit : ℚ) : Prop where
  x1 : |bounds.x1.value| < limit
  y1 : |bounds.y1.value| < limit
  x2 : |bounds.x2.value| < limit
  y2 : |bounds.y2.value| < limit

namespace Grid

variable {g : Grid}

/-- The place is that of a chunk with a unit of the interval.  The units of an interval are those
from the one that holds its lower end to the last one that starts before its upper end. -/
def Overlaps (g : Grid) (low high : ℚ) (place : Nat) : Prop :=
  ∃ unit : ℤ, ⌊low⌋ ≤ unit ∧ unit ≤ ⌈high⌉ - 1 ∧
    (place : ℤ) = (unit >>> g.chunkWidthBits) % 2 ^ g.gridBits

theorem chunkOf_mul_edge (g : Grid) (chunk : Int) :
    g.chunkOf (chunk * (2 ^ g.chunkWidthBits : Nat)) = chunk := by
  have hedge : ((2 ^ g.chunkWidthBits : Nat) : Int) ≠ 0 := by
    exact_mod_cast (Nat.two_pow_pos g.chunkWidthBits).ne'
  rw [chunkOf_eq_div, Int.mul_ediv_cancel _ hedge]

/-- Each of the chunks from that of `m` to that of `n` holds a unit from `m` to `n`. -/
theorem exists_unit_of_chunk (g : Grid) {m n chunk : Int} (hmn : m ≤ n)
    (hm : g.chunkOf m ≤ chunk) (hn : chunk ≤ g.chunkOf n) :
    ∃ unit, m ≤ unit ∧ unit ≤ n ∧ g.chunkOf unit = chunk := by
  have hedge : (0 : Int) < (2 ^ g.chunkWidthBits : Nat) := by
    exact_mod_cast Nat.two_pow_pos g.chunkWidthBits
  -- The first unit of the chunk will do, unless it lies before `m`.
  have hfirst : chunk * (2 ^ g.chunkWidthBits : Nat) ≤ n := by
    rw [chunkOf_eq_div] at hn
    exact (Int.le_ediv_iff_mul_le hedge).mp hn
  rcases Int.le_total m (chunk * (2 ^ g.chunkWidthBits : Nat)) with hle | hle
  · exact ⟨_, hle, hfirst, g.chunkOf_mul_edge chunk⟩
  · have hchunk : chunk ≤ g.chunkOf m := by
      rw [← g.chunkOf_mul_edge chunk]
      exact g.chunkOf_mono hle
    exact ⟨m, Int.le_refl m, hmn, Int.le_antisymm hm hchunk⟩

theorem wrap_chunkOf_eq_iff (g : Grid) (unit : Int) (place : Nat) :
    g.wrap (g.chunkOf unit) = place ↔
      (place : Int) = (unit >>> g.chunkWidthBits) % 2 ^ g.gridBits := by
  rw [← Int.natCast_inj, cast_wrap, size_eq, Nat.cast_pow, Nat.cast_ofNat, eq_comm]
  rfl

end Grid

namespace Run

variable {g : Grid} {low high : Binary32}

/-- An interval that has a unit has the chunks of its units. -/
theorem mem_places_ofInterval_iff (hle : low.floor ≤ high.ceil - 1) {place : Nat} :
    place ∈ (ofInterval g low high).places g ↔
      ∃ unit, low.floor ≤ unit ∧ unit ≤ high.ceil - 1 ∧ g.wrap (g.chunkOf unit) = place := by
  have hlast : lastChunk g high = g.chunkOf (high.ceil - 1) := by
    have hmin := low.min_le_floor
    rw [lastChunk, Int.max_eq_left (by omega)]
  have horder := g.chunkOf_mono hle
  constructor
  · intro hmem
    obtain ⟨k, hk, rfl⟩ := mem_places.mp hmem
    rw [count_ofInterval, hlast] at hk
    have hstart : g.chunkOf low.floor ≤ g.chunkOf low.floor + k := by omega
    obtain ⟨unit, hfirst, hunit, hchunk⟩ := g.exists_unit_of_chunk hle hstart (by omega)
    exact ⟨unit, hfirst, hunit, by rw [hchunk, first_ofInterval]⟩
  · rintro ⟨unit, hfirst, hunit, rfl⟩
    apply wrap_mem_places_of_le (g.chunkOf_mono hfirst)
    rw [hlast]
    exact (g.chunkOf_mono hunit).trans (Int.le_max_left _ _)

theorem overlaps_iff_mem_places (hlt : low < high) (hlow : |low.value| < 2 ^ 62)
    (hhigh : |high.value| < 2 ^ 62) {place : Nat} :
    g.Overlaps low.value high.value place ↔ place ∈ (ofInterval g low high).places g := by
  have hfloor := Binary32.floor_eq_floor_value hlt.1 hlow
  have hceil := Binary32.ceil_eq_ceil_value hlt.2.1 hhigh
  have horder : ⌊low.value⌋ < ⌈high.value⌉ :=
    Int.floor_lt_ceil_of_lt (Binary32.value_lt_value hlt)
  rw [mem_places_ofInterval_iff (by omega), hfloor, hceil, Grid.Overlaps]
  simp only [Grid.wrap_chunkOf_eq_iff]

end Run

namespace Span

variable {g : Grid} {bounds : Rect}

/-- The span of a rectangle is its exact cover on the wrapped grid. -/
structure Covers (g : Grid) (bounds : Rect) : Prop where
  distinct : (ofRect g bounds).ids.Nodup
  length : (ofRect g bounds).ids.length = (ofRect g bounds).size
  mem_iff : ∀ id, id ∈ (ofRect g bounds).ids ↔
    ∃ column row : Nat, g.Overlaps bounds.x1.value bounds.x2.value column ∧
      g.Overlaps bounds.y1.value bounds.y2.value row ∧ id = column + row * 2 ^ g.gridBits
  contains_iff : ∀ id < 4 ^ g.gridBits,
    (ofRect g bounds).contains id = true ↔ id ∈ (ofRect g bounds).ids

theorem covers_of_below (hg : g.validate = .ok ()) (harea : bounds.hasArea = true)
    (hbelow : bounds.Below (2 ^ 62)) : Covers g bounds := by
  have hcolumns := columns_ofRect (g := g) harea
  have hrows := rows_ofRect (g := g) harea
  rw [Rect.hasArea_iff] at harea
  have hid : ∀ {column row : Nat}, column ∈ (Run.ofInterval g bounds.x1 bounds.x2).places g →
      row ∈ (Run.ofInterval g bounds.y1 bounds.y2).places g →
      g.chunkId column row = column + row * 2 ^ g.gridBits := by
    intro column row hcolumn hrow
    rw [Grid.chunkId_eq hg (Run.lt_of_mem_places hcolumn) (Run.lt_of_mem_places hrow),
      Grid.size_eq]
  constructor
  · exact nodup_ids hg
  · exact length_ids _
  · intro id
    simp only [mem_ids, grid_ofRect, hcolumns, hrows,
      Run.overlaps_iff_mem_places harea.1 hbelow.x1 hbelow.x2,
      Run.overlaps_iff_mem_places harea.2 hbelow.y1 hbelow.y2]
    constructor
    · rintro ⟨row, hrow, column, hcolumn, rfl⟩
      exact ⟨column, row, hcolumn, hrow, hid hcolumn hrow⟩
    · rintro ⟨column, row, hcolumn, hrow, rfl⟩
      exact ⟨row, hrow, column, hcolumn, hid hcolumn hrow⟩
  · intro id hlt
    apply contains_iff_mem_ids hg
    rwa [Grid.size_eq, ← Nat.mul_pow]

theorem eq_nil_of_not_hasArea (g : Grid) (harea : bounds.hasArea = false) :
    (ofRect g bounds).ids = [] ∧ ∀ id, (ofRect g bounds).contains id = false := by
  simp [ofRect, harea, ids, contains, Run.places, Run.covers]

/-- The span of a rectangle with area is its exact cover, and that of any other one is empty. -/
theorem exact_cover {g : Grid} (hbits : 1 ≤ g.gridBits ∧ g.gridBits ≤ 12)
    (hwidth : g.chunkWidthBits ≤ 16) (bounds : Rect) :
    (bounds.hasArea = true → bounds.Below (2 ^ 62) → Covers g bounds) ∧
    (bounds.hasArea = false →
      (ofRect g bounds).ids = [] ∧ ∀ id, (ofRect g bounds).contains id = false) := by
  have hg : g.validate = .ok () := (Grid.validate_eq_ok_iff g).mpr ⟨hbits.1, hbits.2, hwidth⟩
  constructor
  · exact covers_of_below hg
  · exact eq_nil_of_not_hasArea g

/-- A rectangle on both sides of the origin lies in the last column and in the first one. -/
theorem exact_cover_around_origin :
    let bounds : Rect := ⟨-.one, .zero, .one, .one⟩
    (1 ≤ Grid.standard.gridBits ∧ Grid.standard.gridBits ≤ 12) ∧
      Grid.standard.chunkWidthBits ≤ 16 ∧ bounds.hasArea = true ∧ bounds.Below (2 ^ 62) ∧
      Covers .standard bounds ∧ (ofRect .standard bounds).ids = [255, 0] := by
  intro bounds
  have hbits : 1 ≤ Grid.standard.gridBits ∧ Grid.standard.gridBits ≤ 12 := by decide
  have hwidth : Grid.standard.chunkWidthBits ≤ 16 := by decide
  have harea : bounds.hasArea = true := by decide
  have hbelow : bounds.Below (2 ^ 62) := by
    constructor <;> decide +kernel
  exact ⟨hbits, hwidth, harea, hbelow, (exact_cover hbits hwidth bounds).1 harea hbelow,
    by decide⟩

end Span

end SpriteField
