import SpriteField.Json.Value
import Mathlib.Tactic

/-!
# Members of an object

A record takes from an object the members that it has fields for.  It can be read if all names of
the object have texts and none of its fields occurs more than once; neither the order of the
members nor any other member makes a difference then.
-/

namespace SpriteField.Json

/-- The members of an object, in the order in which they are written. -/
abbrev Members := List (Option String × Value)

namespace Members

/-- The values that the members have under a name. -/
def valuesOf (members : Members) (name : String) : List Value :=
  (members.filter (·.1 == some name)).map (·.2)

/-- The names of all members have texts. -/
def Named (members : Members) : Prop :=
  ∀ member ∈ members, member.1.isSome = true

/-- The members with one of the names. -/
def known (members : Members) (names : List String) : Members :=
  members.filter fun member => member.1.any names.contains

theorem member?_eq (members : Members) (name : String) :
    Value.member? members name =
      match members.valuesOf name with
      | [] => some none
      | [value] => some (some value)
      | _ => none := by
  rw [Value.member?, valuesOf]
  cases members.filter (·.1 == some name) with
  | nil => rfl
  | cons member rest => cases rest <;> rfl

theorem member?_eq_none {members : Members} {name : String}
    (h : 2 ≤ (members.valuesOf name).length) : Value.member? members name = none := by
  rw [member?_eq]
  split
  next heq => simp [heq] at h
  next heq => simp [heq] at h
  next => rfl

theorem member?_eq_some {members : Members} {name : String} {value : Option Value}
    (h : members.valuesOf name = value.toList) : Value.member? members name = some value := by
  rw [member?_eq, h]
  cases value <;> rfl

/-- A value of a member is the one that is read, unless there are more. -/
theorem member?_of_mem {members : Members} {name : String} {value : Value}
    (h : value ∈ members.valuesOf name) :
    Value.member? members name = none ∨ Value.member? members name = some (some value) := by
  rw [member?_eq]
  cases hvalues : members.valuesOf name with
  | nil =>
    rw [hvalues] at h
    cases h
  | cons first rest =>
    cases rest with
    | nil =>
      rw [hvalues, List.mem_singleton] at h
      rw [h]
      exact Or.inr rfl
    | cons => exact Or.inl rfl

theorem record?_of_not_named {members : Members} (h : ¬members.Named) (names : List String) :
    (Value.object members).record? names = none := by
  have hall : ¬members.all (·.1.isSome) = true := by
    rw [List.all_eq_true]
    exact h
  exact if_neg hall

theorem record?_eq {members : Members} (h : members.Named) (first second : String) :
    (Value.object members).record? [first, second] = do
      return [← Value.member? members first, ← Value.member? members second] := by
  have hall : members.all (·.1.isSome) = true := List.all_eq_true.mpr h
  rw [Value.record?, if_pos hall, List.mapM_cons, List.mapM_cons, List.mapM_nil]
  cases Value.member? members first <;> cases Value.member? members second <;> rfl

/-- A name without text, or a field that occurs more than once. -/
def Spoilt (members : Members) (names : List String) : Prop :=
  ¬members.Named ∨ ∃ name ∈ names, 2 ≤ (members.valuesOf name).length

theorem Spoilt.record? {members : Members} {first second : String}
    (h : members.Spoilt [first, second]) :
    (Value.object members).record? [first, second] = none := by
  by_cases hnamed : members.Named
  · obtain ⟨name, hname, hlength⟩ := h.resolve_left (not_not_intro hnamed)
    have hnone := member?_eq_none hlength
    rw [record?_eq hnamed]
    simp only [List.mem_cons, List.not_mem_nil, or_false] at hname
    rcases hname with rfl | rfl
    · rw [hnone]
      rfl
    · rw [hnone]
      cases Value.member? members first <;> rfl
  · exact record?_of_not_named hnamed _

/-! ## Fields -/

/-- The field is set at most once, to a plain number of 32 bits. -/
structure SetsField (members : Members) (name : String) (field : Option Nat) : Prop where
  values : members.valuesOf name = field.toList.map fun n => .number (some n)
  fits : ∀ n ∈ field, n < 2 ^ 32

/-- The record occurs at most once, and then as an object; this object, which is empty if there is
none, sets the fields. -/
def SetsRecord (members : Members) (record first second : String) (x y : Option Nat) : Prop :=
  ∃ fields : Members, (members.valuesOf record = [.object fields] ∨
      members.valuesOf record = [] ∧ fields = []) ∧
    fields.SetsField first x ∧ fields.SetsField second y

/-- The values are objects that have the same members with these names, up to their order. -/
def SameFields (names : List String) (value value' : Value) : Prop :=
  ∃ fields fields' : Members, value = .object fields ∧ value' = .object fields' ∧
    (fields.known names).Perm (fields'.known names)

variable {members fields : Members} {record first second name : String} {x y field : Option Nat}

theorem SetsField.member? (h : members.SetsField name field) :
    Value.member? members name = some (field.map fun n => .number (some n)) := by
  apply member?_eq_some
  rw [h.values]
  cases field <;> rfl

theorem record?_of_setsField (hnamed : members.Named) (hx : members.SetsField first x)
    (hy : members.SetsField second y) :
    (Value.object members).record? [first, second] =
      some [x.map fun n => .number (some n), y.map fun n => .number (some n)] := by
  rw [record?_eq hnamed, hx.member?, hy.member?]
  rfl

theorem setsField_none (h : members.valuesOf name = []) : members.SetsField name none where
  values := h
  fits n hn := absurd hn (Option.not_mem_none n)

theorem SetsField.eq_none (h : SetsField [] name field) : field = none := by
  cases field with
  | none => rfl
  | some n => cases h.values

theorem valuesOf_known {names : List String} (h : name ∈ names) :
    (members.known names).valuesOf name = members.valuesOf name := by
  rw [valuesOf, valuesOf, known, List.filter_filter]
  congr 1
  apply List.filter_congr
  rintro ⟨text, value⟩ -
  by_cases htext : text = some name <;> simp [htext, h]

/-- The order of the members does not matter to a field that is set at most once. -/
theorem SetsField.eq_of_perm {members' : Members} {field' : Option Nat} {names : List String}
    (h : members.SetsField name field) (h' : members'.SetsField name field') (hname : name ∈ names)
    (hperm : (members.known names).Perm (members'.known names)) : field = field' := by
  have hvalues :
      ((members.known names).valuesOf name).Perm ((members'.known names).valuesOf name) :=
    (hperm.filter _).map _
  rw [valuesOf_known hname, valuesOf_known hname, h.values, h'.values] at hvalues
  cases field with
  | none =>
    cases field' with
    | none => rfl
    | some n' => simp at hvalues
  | some n =>
    cases field' with
    | none => simp at hvalues
    | some n' => simpa using hvalues

theorem SetsRecord.eq_of_alike {members' : Members} {x' y' : Option Nat}
    (h : members.SetsRecord record first second x y)
    (h' : members'.SetsRecord record first second x' y')
    (halike : List.Forall₂ (SameFields [first, second]) (members.valuesOf record)
      (members'.valuesOf record)) : x = x' ∧ y = y' := by
  obtain ⟨fields, hvalues, hx, hy⟩ := h
  obtain ⟨fields', hvalues', hx', hy'⟩ := h'
  have hperm : (fields.known [first, second]).Perm (fields'.known [first, second]) := by
    rcases hvalues with hvalues | ⟨hvalues, rfl⟩ <;>
      rcases hvalues' with hvalues' | ⟨hvalues', rfl⟩
    · rw [hvalues, hvalues', List.forall₂_cons] at halike
      obtain ⟨⟨_, _, heq, heq', hperm⟩, -⟩ := halike
      cases heq
      cases heq'
      exact hperm
    · rw [hvalues, hvalues'] at halike
      cases halike
    · rw [hvalues, hvalues'] at halike
      cases halike
    · exact .refl _
  exact ⟨hx.eq_of_perm hx' List.mem_cons_self hperm,
    hy.eq_of_perm hy' (List.mem_cons_of_mem _ List.mem_cons_self) hperm⟩

/-- A record is read as an object, or replaced by its default if it is missing. -/
theorem SetsRecord.exists_member? {α : Type} {read : Value → Option α} {default result : α}
    (h : members.SetsRecord record first second x y)
    (hread : ∀ fields : Members, .object fields ∈ members.valuesOf record →
      fields.SetsField first x → fields.SetsField second y → read (.object fields) = some result)
    (hdefault : x = none → y = none → default = result) :
    ∃ value, Value.member? members record = some value ∧
      value.elim (some default) read = some result := by
  obtain ⟨fields, hvalues | ⟨hvalues, rfl⟩, hx, hy⟩ := h
  · refine ⟨some (.object fields), member?_eq_some hvalues, ?_⟩
    exact hread fields (hvalues ▸ List.mem_singleton_self _) hx hy
  · refine ⟨none, member?_eq_some hvalues, ?_⟩
    exact congrArg some (hdefault hx.eq_none hy.eq_none)

end Members

end SpriteField.Json
