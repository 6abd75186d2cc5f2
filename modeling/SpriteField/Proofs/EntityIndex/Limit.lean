import SpriteField.Proofs.EntityIndex.Plans
import Mathlib.Data.List.Perm.Subperm

/-!
# Searches that fill a buffer

A search that is given a buffer ends as soon as the buffer is full.  Up to there it walks the
candidates that a search without a limit walks, so what it finds is the beginning of what the other
one finds, and the places behind are left as they were.

No entity is found twice, so a buffer with one place for each entity is large enough.
-/

namespace SpriteField

namespace Walk

variable {query : Query} {walk : Walk}

theorem found_visit (query : Query) (walk : Walk) (entry : ChunkEntry) :
    (walk.visit query entry).found = walk.found ∨
      (walk.visit query entry).found = walk.found.push entry.id := by
  unfold visit
  split
  · exact .inl rfl
  · split
    · exact .inr rfl
    · split
      · exact .inl rfl
      · exact .inr rfl

theorem found_prefix_run (query : Query) (entries : List ChunkEntry) (walk : Walk) :
    walk.found.toList <+: (run query none entries walk).found.toList := by
  induction entries generalizing walk with
  | nil => exact List.prefix_refl _
  | cons entry entries ih =>
    rw [run, if_neg (by simp)]
    refine .trans ?_ (ih _)
    rcases walk.found_visit query entry with hfound | hfound
    · rw [hfound]
    · simp [hfound]

/-- A walk with a limit finds the beginning of what it would find without. -/
theorem found_run_some {limit : Nat} {entries : List ChunkEntry} (h : walk.found.size < limit) :
    (run query (some limit) entries walk).found.toList =
      (run query none entries walk).found.toList.take limit := by
  induction entries generalizing walk with
  | nil =>
    simp only [run]
    rw [List.take_of_length_le (by simpa using h.le)]
  | cons entry entries ih =>
    have hsize : (walk.visit query entry).found.size ≤ limit := by
      rcases walk.found_visit query entry with hfound | hfound
      · rw [hfound]
        exact h.le
      · rw [hfound, Array.size_push]
        exact h
    rw [run, run, if_neg (by simp : ¬none = some (walk.visit query entry).found.size)]
    split
    next hfull =>
      -- Whatever the rest of the candidates would add comes after the limit.
      have hbegin := found_prefix_run query entries (walk.visit query entry)
      rw [List.prefix_iff_eq_take] at hbegin
      rw [hbegin, Array.length_toList, Option.some.inj hfull]
    next hroom =>
      exact ih (Nat.lt_of_le_of_ne hsize fun heq => hroom (by rw [heq]))

end Walk

namespace EntityIndex

variable {ix : EntityIndex} {query : Query}

theorem toList_scan_some (ix : EntityIndex) (query : Query) {limit : Nat} (hlimit : 0 < limit) :
    (ix.scan query (some limit)).1.toList = (ix.searchAll query).1.toList.take limit := by
  unfold searchAll
  by_cases h : query.bounds.isValid = false ∨ query.bounds.hasArea = false
  · simp [scan_of_nothing h]
  · simp only [not_or, Bool.not_eq_false] at h
    rw [scan_of_hasArea h.1 h.2, scan_of_hasArea h.1 h.2]
    exact Walk.found_run_some hlimit

/-- Writes ids to one place of a buffer after the other, starting at `written`, until the last place
is written.  A place outside of the buffer has no answer. -/
def fill (buffer : Array Nat) (written : Nat) : List Nat → Option (Nat × Array Nat)
  | [] => some (written, buffer)
  | id :: ids =>
    if h : written < buffer.size then
      if written + 1 = buffer.size then some (written + 1, buffer.set written id)
      else fill (buffer.set written id) (written + 1) ids
    else none

/-- The front of the buffer has been written, and there is a place left in its back. -/
theorem fill_append (front : List Nat) {back : List Nat} (hback : back ≠ []) (ids : List Nat) :
    fill (front ++ back).toArray front.length ids =
      some (front.length + min ids.length back.length,
        (front ++ ids.take back.length ++ back.drop ids.length).toArray) := by
  induction ids generalizing front back with
  | nil => simp [fill]
  | cons id ids ih =>
    obtain ⟨next, back, rfl⟩ := List.exists_cons_of_ne_nil hback
    have hset : (front ++ next :: back).set front.length id = (front ++ [id]) ++ back := by
      simp
    by_cases hlast : back = []
    · subst hlast
      simp [fill]
    · have hrest := ih (front ++ [id]) hlast
      have hroom : front.length + 1 ≠ (front ++ next :: back).toArray.size := by
        have hlength := List.length_pos_iff.mpr hlast
        simp only [List.size_toArray, List.length_append, List.length_cons]
        omega
      rw [fill, dif_pos (by simp), if_neg hroom, List.set_toArray, hset]
      rw [List.length_append, List.length_singleton] at hrest
      rw [hrest]
      simp [Nat.add_assoc, Nat.add_comm 1, Nat.add_min_add_right]

theorem fill_eq (found : Array Nat) {buffer : Array Nat} (h : 0 < buffer.size) :
    fill buffer 0 found.toList = some (min found.size buffer.size,
      (found.toList.take buffer.size ++ buffer.toList.drop found.size).toArray) := by
  have hback : buffer.toList ≠ [] := by
    rw [← List.length_pos_iff]
    exact h
  simpa using fill_append [] hback found.toList

/-- The answer is a buffer to which as many of the ids found as it holds have been written, and
their number. -/
structure Capped (found buffer : Array Nat) (answer : Nat × Array Nat) : Prop where
  count : answer.1 = min found.size buffer.size
  size : answer.2.size = buffer.size
  front : ∀ place < answer.1, answer.2[place]? = found[place]?
  rest : ∀ place, answer.1 ≤ place → answer.2[place]? = buffer[place]?
  /-- Writing one id after the other stays inside of the buffer and comes to the same. -/
  written : 0 < buffer.size → fill buffer 0 found.toList = some answer

theorem capped_of_take {found cut buffer : Array Nat}
    (hcut : cut.toList = found.toList.take buffer.size) :
    Capped found buffer (cut.size, cut ++ buffer.extract cut.size buffer.size) := by
  have hcount : cut.size = min found.size buffer.size := by
    rw [← Array.length_toList, hcut, List.length_take, Array.length_toList, Nat.min_comm]
  constructor
  · exact hcount
  · rw [Array.size_append, Array.size_extract]
    omega
  · intro place hplace
    dsimp only at hplace ⊢
    rw [Array.getElem?_append_left hplace, ← Array.getElem?_toList, hcut,
      List.getElem?_take_of_lt (by omega), Array.getElem?_toList]
  · intro place hplace
    dsimp only at hplace ⊢
    rw [Array.getElem?_append_right hplace, Array.getElem?_extract, Nat.add_sub_cancel' hplace]
    split
    · rfl
    · rw [Array.getElem?_eq_none (by omega)]
  · intro hpos
    have hdrop : buffer.toList.drop found.size = buffer.toList.drop cut.size := by
      rcases Nat.le_total found.size buffer.size with hle | hge
      · rw [hcount, Nat.min_eq_left hle]
      · rw [hcount, Nat.min_eq_right hge, List.drop_of_length_le (by simpa using hge),
          List.drop_of_length_le (by simp)]
    rw [fill_eq found hpos, ← hcount, ← hcut, hdrop]
    simp

theorem capped_search (ix : EntityIndex) (query : Query) (buffer : Array Nat) :
    Capped (ix.searchAll query).1 buffer (ix.search query buffer).1 := by
  rcases Nat.eq_zero_or_pos buffer.size with hempty | hpos
  · rw [Array.eq_empty_of_size_eq_zero hempty, search_empty]
    exact @capped_of_take _ #[] _ (by simp)
  · rw [search_of_pos query hpos]
    exact capped_of_take (ix.toList_scan_some query hpos)

/-- All ids found are at the front of the answer, which says how many they are. -/
structure Complete (found : Array Nat) (answer : Nat × Array Nat) : Prop where
  count : answer.1 = found.size
  front : answer.2.extract 0 found.size = found

theorem Capped.complete {found buffer : Array Nat} {answer : Nat × Array Nat}
    (h : Capped found buffer answer) (hsize : found.size ≤ buffer.size) :
    Complete found answer := by
  have hcount : answer.1 = found.size := by
    rw [h.count, Nat.min_eq_left hsize]
  refine ⟨hcount, ?_⟩
  apply Array.ext_getElem?
  intro place
  rw [Array.getElem?_extract, Nat.zero_add]
  split
  next hplace => exact h.front place (by omega)
  next hplace =>
    rw [Array.getElem?_eq_none]
    have hanswer := h.size
    omega

theorem Consistent.size_searchAll_le (h : ix.Consistent) (query : Query) :
    (ix.searchAll query).1.size ≤ ix.size := by
  cases hvalid : query.bounds.isValid with
  | false =>
    rw [EntityIndex.searchAll, scan_of_invalid hvalid]
    exact Nat.zero_le _
  | true =>
    obtain ⟨hnodup, hmem⟩ := Consistent.searchAll h hvalid
    have hsubset : (ix.searchAll query).1.toList ⊆ ix.entities.map (·.id) := by
      intro id hid
      obtain ⟨entity, hentity, rfl, -⟩ := (hmem id).mp (Array.mem_toList_iff.mp hid)
      exact List.mem_map_of_mem hentity
    have hle := (hnodup.subperm hsubset).length_le
    simpa [entities, size] using hle

/-- In every state that calls reach from an empty index, a search writes the beginning of what a
search without a limit finds, and all of it if the buffer has one place for each entity. -/
theorem run_capped {grid : Grid} {start : EntityIndex} (hnew : new grid = .ok start)
    (calls : List Call) (query : Query) (buffer : Array Nat) :
    Capped ((start.run calls).searchAll query).1 buffer
        ((start.run calls).search query buffer).1 ∧
      ((start.run calls).size ≤ buffer.size →
        Complete ((start.run calls).searchAll query).1
          ((start.run calls).search query buffer).1) := by
  obtain ⟨h, -⟩ := consistent_run hnew calls
  have hcapped := capped_search (start.run calls) query buffer
  refine ⟨hcapped, ?_⟩
  intro hsize
  exact hcapped.complete ((h.size_searchAll_le query).trans hsize)

/-- Three entities are found: a buffer of two places is full before the last one, and one of four
places keeps what its last place held. -/
theorem capped_short_and_long :
    let square : Rect := .ofSize .zero .zero .one .one
    let calls : List Call :=
      [.setCollider ⟨7, square, .empty⟩, .setCollider ⟨9, square, .empty⟩,
        .setCollider ⟨1, square, .empty⟩]
    let ix := (onGrid .standard).run calls
    let query : Query := ⟨square, .empty, none⟩
    let found := (ix.searchAll query).1
    new .standard = .ok (onGrid .standard) ∧ Capped found #[50, 60] (2, #[7, 9]) ∧
      ix.size ≤ #[50, 60, 70, 80].size ∧
      (ix.search query #[50, 60, 70, 80]).1 = (3, #[7, 9, 1, 80]) ∧
      Complete found (3, #[7, 9, 1, 80]) := by
  intro square calls ix query found
  have hnew : new .standard = .ok (onGrid .standard) := rfl
  have hshort : (ix.search query #[50, 60]).1 = (2, #[7, 9]) := by decide +kernel
  have hlong : (ix.search query #[50, 60, 70, 80]).1 = (3, #[7, 9, 1, 80]) := by decide +kernel
  have hsize : ix.size ≤ #[50, 60, 70, 80].size := by decide +kernel
  obtain ⟨hcapped, -⟩ := run_capped hnew calls query #[50, 60]
  obtain ⟨-, hcomplete⟩ := run_capped hnew calls query #[50, 60, 70, 80]
  rw [hshort] at hcapped
  rw [hlong] at hcomplete
  exact ⟨hnew, hcapped, hsize, hlong, hcomplete hsize⟩

end EntityIndex

end SpriteField
