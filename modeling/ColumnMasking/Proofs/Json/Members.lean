/-
ColumnMasking.Proofs.Json.Members — the members of an object by name, and values
that are names.

`field?` takes what a name says: nothing where no member has it, the value of the
one member that has it, and a fault where there are two or more. The three cases
are told on the list of members (`Absent`, `Once`, `Repeated`), where neither
their order nor what stands between them makes a difference, and there is no
fourth one (`absent_or_once_or_repeated`).

`choice?` takes a value for what it names, and `Names` says which values name
what.
-/
import ColumnMasking.Proofs.Json.StringsAndNumbers
import ColumnMasking.Proofs.Text.Utf16RoundTrip

namespace ColumnMasking.Json

/-! ## 1. Members by name -/

/-- No member has the name. -/
def Absent (name : String) (members : List (String × Json)) : Prop :=
  ∀ member ∈ members, member.1 ≠ name

instance (name : String) (members : List (String × Json)) : Decidable (Absent name members) :=
  inferInstanceAs (Decidable (∀ member ∈ members, member.1 ≠ name))

/-- One member has the name, and it has the value. -/
def Once (name : String) (value : Json) (members : List (String × Json)) : Prop :=
  ∃ before after, members = before ++ (name, value) :: after
    ∧ Absent name before ∧ Absent name after

/-- Two members have the name, or more. -/
def Repeated (name : String) (members : List (String × Json)) : Prop :=
  ∃ before value between other after,
    members = before ++ (name, value) :: between ++ (name, other) :: after

section

variable {α : Type} {name : String} {members : List (String × Json)}

theorem filter_of_absent (h : Absent name members) : members.filter (·.1 = name) = [] :=
  List.filter_eq_nil_iff.mpr fun member hmember => by simpa using h member hmember

/-- A name has no member, one, or more than one. -/
theorem absent_or_once_or_repeated (name : String) (members : List (String × Json)) :
    Absent name members ∨ (∃ value, Once name value members) ∨ Repeated name members := by
  induction members with
  | nil => exact .inl nofun
  | cons member members ih =>
    obtain ⟨key, value⟩ := member
    by_cases hkey : key = name
    · subst hkey
      rcases ih with habsent | ⟨other, before, after, rfl, -, -⟩
        | ⟨before, other, between, another, after, rfl⟩
      · exact .inr (.inl ⟨value, [], members, rfl, nofun, habsent⟩)
      · exact .inr (.inr ⟨[], value, before, other, after, rfl⟩)
      · exact .inr (.inr ⟨[], value, before, other, between ++ (key, another) :: after, by simp⟩)
    · rcases ih with habsent | ⟨other, before, after, rfl, hbefore, hafter⟩
        | ⟨before, other, between, another, after, rfl⟩
      · exact .inl (List.forall_mem_cons.mpr ⟨hkey, habsent⟩)
      · exact .inr (.inl ⟨other, (key, value) :: before, after, rfl,
          List.forall_mem_cons.mpr ⟨hkey, hbefore⟩, hafter⟩)
      · exact .inr (.inr ⟨(key, value) :: before, other, between, another, after, rfl⟩)

theorem field?_of_absent (h : Absent name members) (unset : α) (read : Json → Option α) :
    field? members name unset read = some unset := by
  rw [field?, filter_of_absent h]

theorem field?_of_once {value : Json} (h : Once name value members) (unset : α)
    (read : Json → Option α) : field? members name unset read = read value := by
  obtain ⟨before, after, rfl, hbefore, hafter⟩ := h
  rw [field?, List.filter_append, filter_of_absent hbefore, List.filter_cons_of_pos (by simp),
    filter_of_absent hafter]
  rfl

theorem field?_of_repeated (h : Repeated name members) (unset : α) (read : Json → Option α) :
    field? members name unset read = none := by
  obtain ⟨before, value, between, other, after, rfl⟩ := h
  rw [field?]
  split
  · rename_i hnone
    simp at hnone
  · rename_i hone
    have hlength := congrArg List.length hone
    simp at hlength
    omega
  · rfl

/-- A member whose value cannot be read is as bad as one too many. -/
theorem field?_of_unread {value : Json} (hmem : (name, value) ∈ members) (unset : α)
    {read : Json → Option α} (hread : read value = none) :
    field? members name unset read = none := by
  rcases absent_or_once_or_repeated name members with habsent | ⟨other, honce⟩ | hrepeated
  · exact absurd rfl (habsent _ hmem)
  · rw [field?_of_once honce]
    obtain ⟨before, after, rfl, hbefore, hafter⟩ := honce
    rcases List.mem_append.mp hmem with h | h
    · exact absurd rfl (hbefore _ h)
    · rcases List.mem_cons.mp h with h | h
      · obtain ⟨-, rfl⟩ := Prod.mk.inj h
        exact hread
      · exact absurd rfl (hafter _ h)
  · exact field?_of_repeated hrepeated unset read

/-- An object whose names are texts has its members. -/
theorem members?_record (members : List (String × Json)) :
    members? (.record members) = some members := by
  rw [record, members?, List.mapM_map]
  induction members with
  | nil => rfl
  | cons member members ih =>
    rw [List.mapM_cons, ih]
    simp

/-- A name that is no text spoils an object. -/
theorem members?_eq_none {raw : List (List UInt16 × Json)} {units : List UInt16} {value : Json}
    (hmem : (units, value) ∈ raw) (hunits : ∀ text, units ≠ Utf16.encode text) :
    members? (.object raw) = none := by
  have hdecode : Utf16.decode? units = none :=
    Option.eq_none_iff_forall_ne_some.mpr fun text htext =>
      hunits text (Utf16.decode?_eq_some_iff.mp htext)
  rw [members?]
  induction raw with
  | nil => simp at hmem
  | cons member raw ih =>
    rw [List.mapM_cons]
    rcases List.mem_cons.mp hmem with rfl | hmem
    · simp [hdecode]
    · simp [ih hmem]

end

/-! ## 2. Names as values -/

/-- The values that name something: its name, or an object with a member of that
name alone and null for its value. -/
inductive Names (name : String) : Json → Prop
  | text : Names name (.ofText name)
  | object : Names name (.record [(name, .null)])

/-- The value names the choice. -/
def Chooses {α : Type} (choices : List (String × α)) (value : Json) (choice : α) : Prop :=
  ∃ name, (name, choice) ∈ choices ∧ Names name value

theorem choice?_eq_some_iff {α : Type} {choices : List (String × α)}
    (hdistinct : (choices.map Prod.fst).Nodup) {value : Json} {choice : α} :
    choice? choices value = some choice ↔ Chooses choices value choice := by
  constructor
  · intro h
    unfold choice? at h
    split at h
    · obtain ⟨name, hname, hlookup⟩ := Option.bind_eq_some_iff.mp h
      obtain rfl := Utf16.decode?_eq_some_iff.mp hname
      exact ⟨name, (lookup_eq_some_iff_mem hdistinct).mp hlookup, .object⟩
    · obtain ⟨name, hname, hlookup⟩ := Option.bind_eq_some_iff.mp h
      obtain rfl := Utf16.decode?_eq_some_iff.mp hname
      exact ⟨name, (lookup_eq_some_iff_mem hdistinct).mp hlookup, .text⟩
    · simp at h
  · rintro ⟨name, hmem, hvalue⟩
    have hlookup := (lookup_eq_some_iff_mem hdistinct).mpr hmem
    cases hvalue with
    | text => simp [choice?, ofText, hlookup]
    | object => simp [choice?, record, hlookup]

theorem not_chooses_null {α : Type} (choices : List (String × α)) (choice : α) :
    ¬ Chooses choices .null choice := by
  rintro ⟨name, -, hvalue⟩
  cases hvalue

theorem bool?_eq_some_iff {value : Json} {b : Bool} : bool? value = some b ↔ value = .bool b := by
  cases value <;> simp [bool?]

end ColumnMasking.Json
