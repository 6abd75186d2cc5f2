import SpriteField.Proofs.EntityIndex.Replace

/-!
# Assertions of an update

Whenever an update takes an entry out of a bucket, the entry is one of the slot that leaves.  The
update that asserts this before each removal, and fails where it does not hold, is the same update:
no assertion ever fails.
-/

namespace SpriteField
namespace EntityIndex

/-- A step that is taken only where an assertion holds. -/
def asserting (holds : EntityIndex → Bool) (fault : ConsistencyFault) (step : IndexM Unit) :
    IndexM Unit := do
  if holds (← get) then step else throw (.inconsistent fault)

def leaveChunkAsserting (slot : Nat) (kept : Span) (ref : BackRef) : IndexM Unit :=
  asserting (·.namesChunkEntry slot ref) (.staleChunkRef slot ref) (leaveChunk slot kept ref)

def leaveTagAsserting (slot : Nat) (ref : BackRef) : IndexM Unit :=
  asserting (·.namesTagEntry slot ref) (.staleTagRef slot ref) (leaveTag slot ref)

/-- The update of a collider, by the given ways to leave one chunk and one tag. -/
def replaceColliderBy (leaveChunk : Nat → Span → BackRef → IndexM Unit)
    (leaveTag : Nat → BackRef → IndexM Unit) (slot : Nat) (collider : Collider) :
    IndexM Unit := do
  let grid := (← get).grid
  let span := Span.ofRect grid collider.bounds
  modify (·.openChunks span.ids)
  let chunkRefs := (← get).chunkRefs slot
  modify (·.takeChunkRefs slot)
  chunkRefs.toList.forM (leaveChunk slot span)
  let tagRefs := (← get).tagRefs slot
  modify (·.takeTagRefs slot)
  tagRefs.toList.forM (leaveTag slot)
  let chunkRefs ← span.ids.mapM (joinChunk (.ofCollider grid slot collider))
  let tagRefs ← collider.tags.toList.mapM (joinTag slot)
  modify (·.settle slot collider chunkRefs tagRefs)

theorem replaceColliderBy_leave : replaceColliderBy leaveChunk leaveTag = replaceCollider := rfl

theorem leaveChunkAsserting_eq {start ix : EntityIndex} {slot : Nat} {kept : Span} {ref : BackRef}
    {rest : List BackRef} (h : LeavingChunks start ix slot kept (ref :: rest)) :
    leaveChunkAsserting slot kept ref ix = leaveChunk slot kept ref ix := by
  have hnames : ix.namesChunkEntry slot ref = true := by
    apply namesChunkEntry_of_linked h.linked
    rw [Function.update_self]
    exact List.mem_cons_self
  unfold leaveChunkAsserting asserting
  rw [get_bind, if_pos hnames]

theorem leaveTagAsserting_eq {start ix : EntityIndex} {slot : Nat} {ref : BackRef}
    {rest : List BackRef} (h : LeavingTags start ix slot (ref :: rest)) :
    leaveTagAsserting slot ref ix = leaveTag slot ref ix := by
  have hnames : ix.namesTagEntry slot ref = true := by
    apply namesTagEntry_of_linked h.linked
    rw [Function.update_self]
    exact List.mem_cons_self
  unfold leaveTagAsserting asserting
  rw [get_bind, if_pos hnames]

theorem forM_leaveChunkAsserting {ix : EntityIndex} {slot : Nat} {kept : Span}
    (h : LeavingChunks ix (ix.takeChunkRefs slot) slot kept (ix.chunkRefList slot)) :
    (ix.chunkRefs slot).toList.forM (leaveChunkAsserting slot kept) (ix.takeChunkRefs slot) =
      leaveChunks slot kept ix :=
  forM_congr_of_step (motive := fun pending state => LeavingChunks ix state slot kept pending)
    (fun hleaving => ⟨leaveChunkAsserting_eq hleaving, leaveChunk_ok hleaving⟩) h

theorem forM_leaveTagAsserting {ix : EntityIndex} (slot : Nat)
    (h : Linked id ix.tagSlots ix.tagRefList) :
    (ix.tagRefs slot).toList.forM (leaveTagAsserting slot) (ix.takeTagRefs slot) =
      leaveTags slot ix :=
  forM_congr_of_step (motive := fun pending state => LeavingTags ix state slot pending)
    (fun hleaving => ⟨leaveTagAsserting_eq hleaving, leaveTag_ok hleaving⟩)
    (LeavingTags.start slot h)

/-- No assertion fails while the collider of a slot is replaced. -/
theorem Consistent.replaceCollider_asserting {ix : EntityIndex} (h : ix.Consistent) (slot : Nat)
    (collider : Collider) :
    replaceColliderBy leaveChunkAsserting leaveTagAsserting slot collider ix =
      replaceCollider slot collider ix := by
  have hstart := leavingChunks_openChunks h slot collider.bounds
  obtain ⟨leftChunks, hleaveChunks, hc⟩ := leaveChunks_ok hstart
  have htags := linked_tags_of_withoutChunks h hc.frame
  unfold replaceColliderBy replaceCollider
  rw [get_bind, get_bind, modify_bind, modify_bind, get_bind, modify_bind,
    bind_of_ok ((forM_leaveChunkAsserting hstart).trans hleaveChunks), get_bind, modify_bind]
  change _ = (leaveChunks slot _ >>= _) (ix.openChunks _)
  rw [bind_of_ok hleaveChunks]
  exact bind_congr_of_eq _ (forM_leaveTagAsserting slot htags)

end EntityIndex
end SpriteField
