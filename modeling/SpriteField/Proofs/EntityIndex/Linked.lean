import SpriteField.EntityIndex.Update
import SpriteField.Proofs.Bucket

/-!
# Entries and references that name each other

Both tables of the entity index keep buckets of entries, and every slot keeps references to its own
entries.  The two sides are linked when each names the other exactly.  Leaving a bucket and joining
one preserve the link, although leaving moves the entry of another slot.
-/

namespace SpriteField

/-- The reference of a slot to the place that an entry of its bucket has moved to. -/
def BackRef.follow (bucket : Nat) (move : Relocation) (ref : BackRef) : BackRef :=
  if ref = ⟨bucket, move.source⟩ then ⟨bucket, move.target⟩ else ref

@[simp] theorem BackRef.bucket_follow (bucket : Nat) (move : Relocation) (ref : BackRef) :
    (ref.follow bucket move).bucket = ref.bucket := by
  unfold follow
  split
  next h => rw [h]
  next => rfl

theorem BackRef.follow_of_bucket_ne {bucket : Nat} {move : Relocation} {ref : BackRef}
    (h : ref.bucket ≠ bucket) : ref.follow bucket move = ref :=
  if_neg fun heq => h (congrArg BackRef.bucket heq)

theorem BackRef.follow_of_position_ne {bucket : Nat} {move : Relocation} {ref : BackRef}
    (h : ref.position ≠ move.source) : ref.follow bucket move = ref :=
  if_neg fun heq => h (congrArg BackRef.position heq)

theorem BackRef.follow_source {bucket : Nat} {move : Relocation} {ref : BackRef}
    (hbucket : ref.bucket = bucket) (hposition : ref.position = move.source) :
    ref.follow bucket move = ⟨bucket, move.target⟩ := by
  obtain ⟨refBucket, refPosition⟩ := ref
  subst hbucket hposition
  exact if_pos rfl

theorem BackRef.map_follow_self (refs : List BackRef) (bucket position : Nat) :
    refs.map (·.follow bucket ⟨position, position⟩) = refs := by
  apply List.map_id''
  intro ref
  rw [follow]
  split
  next h => exact h.symm
  next => rfl

/-- Pointing the reference to the old place at the new one is following the move. -/
theorem EntityIndex.exists_refTo? {refs : Array BackRef} {bucket : Nat} {move : Relocation}
    (hmem : ⟨bucket, move.source⟩ ∈ refs.toList)
    (hnodup : (refs.toList.map (·.bucket)).Nodup) :
    ∃ i, refTo? refs bucket move.source = some i ∧
      (refs.modify i (withPosition move.target)).toList =
        refs.toList.map (·.follow bucket move) := by
  obtain ⟨i, hi, hget⟩ := List.mem_iff_getElem.mp hmem
  have hunique : ∀ {j ref}, refs.toList[j]? = some ref → ref.bucket = bucket → j = i := by
    intro j ref hj hbucket
    have hlt := (List.getElem?_eq_some_iff.mp hj).1
    have heq : (refs.toList.map (·.bucket))[j]? = (refs.toList.map (·.bucket))[i]? := by
      rw [List.getElem?_map, List.getElem?_map, hj, List.getElem?_eq_getElem hi, hget,
        Option.map_some, Option.map_some, hbucket]
    exact (List.getElem?_inj (by rwa [List.length_map]) hnodup).mp heq
  refine ⟨i, ?_, ?_⟩
  · rw [refTo?, Array.findIdx?_eq_some_iff_getElem]
    rw [Array.getElem_toList] at hget
    refine ⟨hi, by rw [hget]; simp, ?_⟩
    intro j hj htest
    simp only [Bool.and_eq_true, beq_iff_eq] at htest
    have hlt : j < refs.size := Nat.lt_trans hj hi
    have hsome : refs.toList[j]? = some refs[j] := by
      rw [Array.getElem?_toList, Array.getElem?_eq_getElem]
    exact absurd (hunique hsome htest.1) (Nat.ne_of_lt hj)
  · rw [Array.toList_modify]
    apply List.ext_getElem?
    intro j
    rw [List.getElem?_modify, List.getElem?_map]
    cases hj : refs.toList[j]? with
    | none => rfl
    | some ref =>
      by_cases heq : i = j
      · subst heq
        rw [List.getElem?_eq_getElem hi, hget] at hj
        simp [← Option.some.inj hj, withPosition, BackRef.follow]
      · have hbucket : ref.bucket ≠ bucket := fun hbucket => heq (hunique hj hbucket).symm
        rw [Option.map_some, BackRef.follow_of_bucket_ne hbucket]
        simp [heq]

/-- Entries and references name each other, and no slot is twice in one bucket. -/
structure Linked (owner : α → Nat) (buckets : Nat → Array α) (refs : Nat → List BackRef) :
    Prop where
  named : ∀ {slot ref}, ref ∈ refs slot →
    ∃ entry, (buckets ref.bucket)[ref.position]? = some entry ∧ owner entry = slot
  listed : ∀ {bucket position entry}, (buckets bucket)[position]? = some entry →
    ⟨bucket, position⟩ ∈ refs (owner entry)
  once : ∀ slot, ((refs slot).map (·.bucket)).Nodup

namespace Linked

variable {owner : α → Nat} {buckets buckets' : Nat → Array α}
  {refs refs' : Nat → List BackRef} {slot : Nat}

theorem eq_of_bucket_eq (h : Linked owner buckets refs) {ref ref' : BackRef}
    (href : ref ∈ refs slot) (href' : ref' ∈ refs slot) (heq : ref.bucket = ref'.bucket) :
    ref = ref' :=
  List.inj_on_of_nodup_map (h.once slot) href href' heq

theorem owner_eq (h : Linked owner buckets refs) {ref : BackRef} {entry : α}
    (href : ref ∈ refs slot) (hentry : (buckets ref.bucket)[ref.position]? = some entry) :
    owner entry = slot := by
  obtain ⟨entry', hentry', howner⟩ := h.named href
  rw [hentry] at hentry'
  rw [Option.some.inj hentry', howner]

theorem owner_ne (h : Linked owner buckets refs) {ref : BackRef} (href : ref ∈ refs slot)
    {position : Nat} {entry : α} (hentry : (buckets ref.bucket)[position]? = some entry)
    (hne : position ≠ ref.position) : owner entry ≠ slot := by
  intro howner
  have hmem := h.listed hentry
  rw [howner] at hmem
  exact hne (congrArg BackRef.position (h.eq_of_bucket_eq hmem href rfl))

theorem pairwise_owner_ne (h : Linked owner buckets refs) (bucket : Nat) :
    (buckets bucket).toList.Pairwise fun entry entry' => owner entry ≠ owner entry' := by
  rw [List.pairwise_iff_getElem]
  intro i j hi hj hij
  have hentry := Array.getElem?_eq_getElem (show i < (buckets bucket).size from hi)
  have hentry' := Array.getElem?_eq_getElem (show j < (buckets bucket).size from hj)
  exact (h.owner_ne (h.listed hentry) hentry' (Nat.ne_of_gt hij)).symm

theorem position_lt (h : Linked owner buckets refs) {ref : BackRef} (href : ref ∈ refs slot) :
    ref.position < (buckets ref.bucket).size := by
  obtain ⟨entry, hentry, -⟩ := h.named href
  exact (Array.getElem?_eq_some_iff.mp hentry).1

theorem map_follow_of_owner_ne (h : Linked owner buckets refs) {bucket : Nat}
    (move : Relocation) {entry : α} (hentry : (buckets bucket)[move.source]? = some entry)
    (hne : owner entry ≠ slot) : (refs slot).map (·.follow bucket move) = refs slot := by
  have hfollow : ∀ ref ∈ refs slot, ref.follow bucket move = id ref := by
    intro ref href
    apply if_neg
    rintro rfl
    exact hne (h.owner_eq href hentry)
  rw [List.map_congr_left hfollow, List.map_id]

/-! ## Leaving a bucket -/

section Leave

variable {ref : BackRef} {rest : List BackRef}

/-- The entry that fills the gap that a slot leaves is known to its owner, and to no third slot. -/
theorem exists_moved (h : Linked owner buckets (Function.update refs slot (ref :: rest)))
    (hnext : ref.position + 1 < (buckets ref.bucket).size) :
    ∃ entry, (buckets ref.bucket).back? = some entry ∧
      ⟨ref.bucket, (buckets ref.bucket).size - 1⟩ ∈ refs (owner entry) ∧
      ((refs (owner entry)).map (·.bucket)).Nodup ∧
      ∀ other, other ≠ slot → other ≠ owner entry → (refs other).map
        (·.follow ref.bucket ⟨(buckets ref.bucket).size - 1, ref.position⟩) = refs other := by
  have hlast : (buckets ref.bucket).size - 1 < (buckets ref.bucket).size := by omega
  have hentry := Array.getElem?_eq_getElem hlast
  have hne : owner (buckets ref.bucket)[(buckets ref.bucket).size - 1] ≠ slot :=
    h.owner_ne (by simp) hentry (by omega)
  have hlisted := h.listed hentry
  have hnodup := h.once (owner (buckets ref.bucket)[(buckets ref.bucket).size - 1])
  rw [Function.update_of_ne hne] at hlisted hnodup
  refine ⟨_, hentry, hlisted, hnodup, ?_⟩
  intro other hother hthird
  have hstays := h.map_follow_of_owner_ne ⟨_, ref.position⟩ hentry (Ne.symm hthird)
  rw [Function.update_of_ne hother] at hstays
  exact hstays

/-- What is left of two tables after a slot has left the bucket of its first reference: the entry
that filled the gap is followed by the reference of its owner. -/
structure Left (buckets buckets' : Nat → Array α) (refs refs' : Nat → List BackRef)
    (slot : Nat) (ref : BackRef) (rest : List BackRef) : Prop where
  before : refs slot = ref :: rest
  after : refs' slot = rest
  bucket : ∀ key, buckets' key =
    if key = ref.bucket then swapPop (buckets key) ref.position else buckets key
  others : ∀ other, other ≠ slot → refs' other =
    (refs other).map (·.follow ref.bucket ⟨(buckets ref.bucket).size - 1, ref.position⟩)

theorem Left.mem (hleft : Left buckets buckets' refs refs' slot ref rest) : ref ∈ refs slot := by
  rw [hleft.before]
  exact List.mem_cons_self

theorem Left.getElem? (hleft : Left buckets buckets' refs refs' slot ref rest)
    (h : Linked owner buckets refs) (position : Nat) :
    (buckets' ref.bucket)[position]? =
      if position + 1 < (buckets ref.bucket).size then
        (if position = ref.position then
          (buckets ref.bucket)[(buckets ref.bucket).size - 1]?
        else (buckets ref.bucket)[position]?)
      else none := by
  rw [hleft.bucket, if_pos rfl, getElem?_swapPop (h.position_lt hleft.mem)]
  rfl

theorem Left.named (hleft : Left buckets buckets' refs refs' slot ref rest)
    (h : Linked owner buckets refs) {other : Nat} {ref' : BackRef} (href' : ref' ∈ refs' other) :
    ∃ entry, (buckets' ref'.bucket)[ref'.position]? = some entry ∧ owner entry = other := by
  have hlt := h.position_lt hleft.mem
  by_cases heq : other = slot
  · subst heq
    rw [hleft.after] at href'
    have hnodup := h.once other
    rw [hleft.before, List.map_cons, List.nodup_cons] at hnodup
    have hne : ref'.bucket ≠ ref.bucket := by
      intro hbucket
      exact hnodup.1 (List.mem_map.mpr ⟨ref', href', hbucket⟩)
    rw [hleft.bucket, if_neg hne]
    exact h.named (by rw [hleft.before]; exact List.mem_cons_of_mem _ href')
  · rw [hleft.others other heq] at href'
    obtain ⟨origin, horigin, rfl⟩ := List.mem_map.mp href'
    obtain ⟨entry, hentry, howner⟩ := h.named horigin
    refine ⟨entry, ?_, howner⟩
    rw [BackRef.bucket_follow]
    by_cases hbucket : origin.bucket = ref.bucket
    · have hpositionLt := (Array.getElem?_eq_some_iff.mp hentry).1
      rw [hbucket] at hentry hpositionLt ⊢
      have hposition : origin.position ≠ ref.position := by
        intro hposition
        rw [hposition] at hentry
        exact heq (howner.symm.trans (h.owner_eq hleft.mem hentry))
      rw [hleft.getElem? h]
      -- Only the reference to the last place has something to follow.
      by_cases hmoved : origin.position = (buckets ref.bucket).size - 1
      · rw [BackRef.follow_source hbucket hmoved, if_pos (by simp only; omega), if_pos rfl,
          ← hmoved, hentry]
      · rw [BackRef.follow_of_position_ne hmoved, if_pos (by omega), if_neg hposition, hentry]
    · rw [BackRef.follow_of_bucket_ne hbucket, hleft.bucket, if_neg hbucket, hentry]

theorem Left.listed (hleft : Left buckets buckets' refs refs' slot ref rest)
    (h : Linked owner buckets refs) {bucket position : Nat} {entry : α}
    (hentry : (buckets' bucket)[position]? = some entry) :
    ⟨bucket, position⟩ ∈ refs' (owner entry) := by
  by_cases hbucket : bucket = ref.bucket
  · subst hbucket
    rw [hleft.getElem? h] at hentry
    split at hentry
    next hpositionLt =>
      by_cases hposition : position = ref.position
      · rw [if_pos hposition] at hentry
        rw [hleft.others _ (h.owner_ne hleft.mem hentry (by omega))]
        rw [hposition]
        exact List.mem_map.mpr ⟨_, h.listed hentry, BackRef.follow_source rfl rfl⟩
      · rw [if_neg hposition] at hentry
        rw [hleft.others _ (h.owner_ne hleft.mem hentry hposition)]
        refine List.mem_map.mpr ⟨_, h.listed hentry, BackRef.follow_of_position_ne ?_⟩
        simp only
        omega
    next => exact absurd hentry (by simp)
  · rw [hleft.bucket, if_neg hbucket] at hentry
    have hmem := h.listed hentry
    by_cases howner : owner entry = slot
    · rw [howner, hleft.before] at hmem
      rw [howner, hleft.after]
      rcases List.mem_cons.mp hmem with heq | hmem
      · exact absurd (congrArg BackRef.bucket heq) hbucket
      · exact hmem
    · rw [hleft.others _ howner]
      exact List.mem_map.mpr ⟨_, hmem, BackRef.follow_of_bucket_ne hbucket⟩

theorem Left.map_bucket (hleft : Left buckets buckets' refs refs' slot ref rest) {other : Nat}
    (hne : other ≠ slot) : (refs' other).map (·.bucket) = (refs other).map (·.bucket) := by
  rw [hleft.others other hne, List.map_map]
  exact List.map_congr_left fun ref' _ => BackRef.bucket_follow _ _ ref'

theorem leave (h : Linked owner buckets refs)
    (hleft : Left buckets buckets' refs refs' slot ref rest) : Linked owner buckets' refs' where
  named := hleft.named h
  listed := hleft.listed h
  once other := by
    by_cases heq : other = slot
    · have hnodup := h.once slot
      rw [hleft.before, List.map_cons, List.nodup_cons] at hnodup
      rw [heq, hleft.after]
      exact hnodup.2
    · rw [hleft.map_bucket heq]
      exact h.once other

end Leave

/-! ## Joining a bucket -/

section Join

variable {bucket : Nat} {entry : α}

/-- What two tables become when a slot joins a bucket that it is not in. -/
structure Joined (buckets buckets' : Nat → Array α) (refs refs' : Nat → List BackRef)
    (slot bucket : Nat) (entry : α) : Prop where
  fresh : bucket ∉ (refs slot).map (·.bucket)
  entries : ∀ key, buckets' key =
    if key = bucket then (buckets key).push entry else buckets key
  after : refs' slot = refs slot ++ [⟨bucket, (buckets bucket).size⟩]
  others : ∀ other, other ≠ slot → refs' other = refs other

theorem Joined.subset (hjoined : Joined buckets buckets' refs refs' slot bucket entry) {other : Nat}
    {ref : BackRef} (href : ref ∈ refs other) : ref ∈ refs' other := by
  by_cases heq : other = slot
  · subst heq
    rw [hjoined.after]
    exact List.mem_append_left _ href
  · rw [hjoined.others other heq]
    exact href

theorem Joined.mem_cases (hjoined : Joined buckets buckets' refs refs' slot bucket entry)
    {other : Nat} {ref : BackRef} (href : ref ∈ refs' other) :
    ref ∈ refs other ∨ other = slot ∧ ref = ⟨bucket, (buckets bucket).size⟩ := by
  by_cases heq : other = slot
  · subst heq
    rw [hjoined.after, List.mem_append, List.mem_singleton] at href
    exact href.imp_right fun hnew => ⟨rfl, hnew⟩
  · rw [hjoined.others other heq] at href
    exact Or.inl href

theorem Joined.named (hjoined : Joined buckets buckets' refs refs' slot bucket entry)
    (h : Linked owner buckets refs) (howner : owner entry = slot) {other : Nat} {ref : BackRef}
    (href : ref ∈ refs' other) :
    ∃ found, (buckets' ref.bucket)[ref.position]? = some found ∧ owner found = other := by
  rw [hjoined.entries]
  rcases hjoined.mem_cases href with href | ⟨rfl, rfl⟩
  · obtain ⟨found, hfound, hfoundOwner⟩ := h.named href
    have hlt := (Array.getElem?_eq_some_iff.mp hfound).1
    refine ⟨found, ?_, hfoundOwner⟩
    split
    · rw [Array.getElem?_push, if_neg (Nat.ne_of_lt hlt), hfound]
    · exact hfound
  · exact ⟨entry, by simp, howner⟩

theorem Joined.listed (hjoined : Joined buckets buckets' refs refs' slot bucket entry)
    (h : Linked owner buckets refs) (howner : owner entry = slot) {key position : Nat} {found : α}
    (hfound : (buckets' key)[position]? = some found) :
    ⟨key, position⟩ ∈ refs' (owner found) := by
  rw [hjoined.entries] at hfound
  split at hfound
  next hkey =>
    subst hkey
    rw [Array.getElem?_push] at hfound
    split at hfound
    next hposition =>
      rw [← Option.some.inj hfound, howner, hjoined.after, hposition]
      simp
    next => exact hjoined.subset (h.listed hfound)
  next => exact hjoined.subset (h.listed hfound)

theorem join (h : Linked owner buckets refs) (howner : owner entry = slot)
    (hjoined : Joined buckets buckets' refs refs' slot bucket entry) :
    Linked owner buckets' refs' where
  named := hjoined.named h howner
  listed := hjoined.listed h howner
  once other := by
    by_cases heq : other = slot
    · rw [heq, hjoined.after, List.map_append, List.map_singleton, ← List.concat_eq_append]
      exact (h.once slot).concat hjoined.fresh
    · rw [hjoined.others other heq]
      exact h.once other

end Join

end Linked

end SpriteField
