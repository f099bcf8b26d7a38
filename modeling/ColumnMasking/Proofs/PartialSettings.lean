/-
ColumnMasking.Proofs.PartialSettings — a settings file changes the settings that
it names, and no others.

A file holds a JSON object, and the settings are members of its member `crypto`.
`loads_named` goes over every text of such an object: the members that it knows
may be any of the four, in any order and with any others between them, and what
each of them says is stated on the values, by `Entry`. A setting without a
member keeps its default. A member that is there twice, or whose value says
nothing, spoils the whole file (`Entry.Faulty`); there is no third case
(`saidBy_or_faulty`).

Texts are told by the grammar (`Json.Written`), so their white space, their
escapes and the values of members that are not known play no part after
`Json.parse?_eq_some_iff`. From there on a file is a list of members, and the
same statements on the members of a name serve the file and each setting in it.
-/
import ColumnMasking.Engine
import ColumnMasking.Proofs.Json.Members
import ColumnMasking.Proofs.Json.ReaderTheorems
import ColumnMasking.Proofs.Text.Utf8RoundTrip

namespace ColumnMasking.Settings

/-! ## 1. What members say about a setting -/

/-- How a file tells one of the settings: the name of its member, and what the
values of the member stand for. -/
structure Entry (α : Type) where
  name : String
  Means : Json → α → Prop
  /-- Null is not a way to say nothing. -/
  not_null : ∀ a, ¬ Means .null a

namespace Entry

variable {α : Type} (entry : Entry α) (members : List (String × Json))

/-- What the members say about the setting: nothing if none has its name, and
otherwise what the value of the one member of that name stands for. -/
def Says : Option α → Prop
  | none => Json.Absent entry.name members
  | some a => ∃ value, Json.Once entry.name value members ∧ entry.Means value a

/-- What the members say about the setting cannot be taken. -/
inductive Faulty : Prop
  | repeated (h : Json.Repeated entry.name members)
  | null (h : (entry.name, .null) ∈ members)
  | invalid (value : Json) (h : (entry.name, value) ∈ members)
      (hvalue : ∀ a, ¬ entry.Means value a)

variable {entry members}

/-- Either it can be taken or it cannot. -/
theorem says_or_faulty : (∃ given, entry.Says members given) ∨ entry.Faulty members := by
  rcases Json.absent_or_once_or_repeated entry.name members with habsent | ⟨value, honce⟩
    | hrepeated
  · exact .inl ⟨none, habsent⟩
  · by_cases hvalue : ∃ a, entry.Means value a
    · obtain ⟨a, ha⟩ := hvalue
      exact .inl ⟨some a, value, honce, ha⟩
    · obtain ⟨before, after, rfl, -, -⟩ := honce
      exact .inr (.invalid value (by simp) (not_exists.mp hvalue))
  · exact .inr (.repeated hrepeated)

variable {read : Json → Option α} (hread : ∀ value a, read value = some a ↔ entry.Means value a)
include hread

theorem field?_of_says {given : Option α} (h : entry.Says members given) (unset : α) :
    Json.field? members entry.name unset read = some (given.getD unset) := by
  cases given with
  | none => exact Json.field?_of_absent h unset read
  | some a =>
    obtain ⟨value, honce, ha⟩ := h
    rw [Json.field?_of_once honce, (hread value a).mpr ha]
    rfl

theorem field?_of_faulty (h : entry.Faulty members) (unset : α) :
    Json.field? members entry.name unset read = none := by
  have hunread : ∀ {value}, (∀ a, ¬ entry.Means value a) → read value = none := fun hvalue =>
    Option.eq_none_iff_forall_ne_some.mpr fun a ha => hvalue a ((hread _ a).mp ha)
  cases h with
  | repeated h => exact Json.field?_of_repeated h unset read
  | null h => exact Json.field?_of_unread h unset (hunread entry.not_null)
  | invalid value h hvalue => exact Json.field?_of_unread h unset (hunread hvalue)

end Entry

/-- A setting that is one of several named choices. -/
def choiceEntry {α : Type} (name : String) (choices : List (String × α)) : Entry α :=
  ⟨name, Json.Chooses choices, Json.not_chooses_null choices⟩

def layoutEntry : Entry Sm2.Layout :=
  choiceEntry "sm2_mode" [("C1C2C3", .c1c2c3), ("C1C3C2", .c1c3c2)]

def keyEncodingEntry : Entry Encoding :=
  choiceEntry "sm2_key_encoding" [("hex", .hex), ("base64", .base64)]

def strictPublicKeyEntry : Entry Bool :=
  ⟨"strict_sm2_public_key", fun value b => value = .bool b, nofun⟩

def noncePolicyEntry : Entry NoncePolicy :=
  choiceEntry "gcm_nonce_policy"
    [("explicit", .explicit), ("legacy-key-derived", .legacyKeyDerived)]

theorem readsLayout (value : Json) (layout : Sm2.Layout) :
    Sm2.Layout.ofJson? value = some layout ↔ layoutEntry.Means value layout :=
  Json.choice?_eq_some_iff (by decide)

theorem readsKeyEncoding (value : Json) (encoding : Encoding) :
    Encoding.ofJson? value = some encoding ↔ keyEncodingEntry.Means value encoding :=
  Json.choice?_eq_some_iff (by decide)

theorem readsStrictPublicKey (value : Json) (b : Bool) :
    Json.bool? value = some b ↔ strictPublicKeyEntry.Means value b :=
  Json.bool?_eq_some_iff

theorem readsNoncePolicy (value : Json) (policy : NoncePolicy) :
    NoncePolicy.ofJson? value = some policy ↔ noncePolicyEntry.Means value policy :=
  Json.choice?_eq_some_iff (by decide)

/-! ## 2. The settings of an object -/

/-- Some of the settings. -/
structure Overrides where
  layout : Option Sm2.Layout := none
  keyEncoding : Option Encoding := none
  strictPublicKey : Option Bool := none
  noncePolicy : Option NoncePolicy := none

namespace Overrides

/-- Settings, with those that are given in place of their own. -/
def applyTo (given : Overrides) (s : Settings) : Settings where
  layout := given.layout.getD s.layout
  keyEncoding := given.keyEncoding.getD s.keyEncoding
  strictPublicKey := given.strictPublicKey.getD s.strictPublicKey
  noncePolicy := given.noncePolicy.getD s.noncePolicy

/-- The members give these settings and no others. -/
structure SaidBy (given : Overrides) (members : List (String × Json)) : Prop where
  layout : layoutEntry.Says members given.layout
  keyEncoding : keyEncodingEntry.Says members given.keyEncoding
  strictPublicKey : strictPublicKeyEntry.Says members given.strictPublicKey
  noncePolicy : noncePolicyEntry.Says members given.noncePolicy

end Overrides

/-- What the members say about one of the settings cannot be taken. -/
def Faulty (members : List (String × Json)) : Prop :=
  layoutEntry.Faulty members ∨ keyEncodingEntry.Faulty members
    ∨ strictPublicKeyEntry.Faulty members ∨ noncePolicyEntry.Faulty members

/-- Members give settings, or something they say cannot be taken. -/
theorem saidBy_or_faulty (members : List (String × Json)) :
    (∃ given : Overrides, given.SaidBy members) ∨ Faulty members := by
  by_cases hfaulty : Faulty members
  · exact .inr hfaulty
  · obtain ⟨hlayout, hencoding, hstrict, hpolicy⟩ : ¬ layoutEntry.Faulty members
        ∧ ¬ keyEncodingEntry.Faulty members ∧ ¬ strictPublicKeyEntry.Faulty members
        ∧ ¬ noncePolicyEntry.Faulty members := by
      simpa only [Faulty, not_or] using hfaulty
    obtain ⟨layout, hlayout⟩ := Entry.says_or_faulty.resolve_right hlayout
    obtain ⟨encoding, hencoding⟩ := Entry.says_or_faulty.resolve_right hencoding
    obtain ⟨strict, hstrict⟩ := Entry.says_or_faulty.resolve_right hstrict
    obtain ⟨policy, hpolicy⟩ := Entry.says_or_faulty.resolve_right hpolicy
    exact .inl ⟨⟨layout, encoding, strict, policy⟩, hlayout, hencoding, hstrict, hpolicy⟩

/-- Settings are read from the members of an object one by one. -/
theorem ofJson?_record (members : List (String × Json)) :
    ofJson? (.record members) = (do
      let layout ← Json.field? members layoutEntry.name default.layout Sm2.Layout.ofJson?
      let keyEncoding ←
        Json.field? members keyEncodingEntry.name default.keyEncoding Encoding.ofJson?
      let strictPublicKey ←
        Json.field? members strictPublicKeyEntry.name default.strictPublicKey Json.bool?
      let noncePolicy ←
        Json.field? members noncePolicyEntry.name default.noncePolicy NoncePolicy.ofJson?
      return ⟨layout, keyEncoding, strictPublicKey, noncePolicy⟩) := by
  have hmembers : (Json.object _).members? = some members := Json.members?_record members
  simp only [ofJson?, Json.record, hmembers]
  rfl

theorem ofJson?_of_saidBy {given : Overrides} {members : List (String × Json)}
    (h : given.SaidBy members) : ofJson? (.record members) = some (given.applyTo default) := by
  rw [ofJson?_record, Entry.field?_of_says readsLayout h.layout,
    Entry.field?_of_says readsKeyEncoding h.keyEncoding,
    Entry.field?_of_says readsStrictPublicKey h.strictPublicKey,
    Entry.field?_of_says readsNoncePolicy h.noncePolicy]
  rfl

theorem ofJson?_of_faulty {members : List (String × Json)} (h : Faulty members) :
    ofJson? (.record members) = none := by
  rw [ofJson?_record]
  rcases h with h | h | h | h
  · simp [Entry.field?_of_faulty readsLayout h]
  · simp [Entry.field?_of_faulty readsKeyEncoding h]
  · simp [Entry.field?_of_faulty readsStrictPublicKey h]
  · simp [Entry.field?_of_faulty readsNoncePolicy h]

/-! ## 3. Files -/

/-- The file of the text gives the settings, and the engine that has them. -/
structure Loads (text : String) (s : Settings) : Prop where
  settings : load (some (Utf8.encode text)) = .ok s
  engine : Engine.load (some (Utf8.encode text)) = .ok ⟨s⟩

/-- The file of the text gives neither settings nor an engine, for a reason that
has to do with settings. -/
def Refused (text : String) : Prop :=
  ∃ error, error.kind = .configuration ∧ load (some (Utf8.encode text)) = .error error
    ∧ Engine.load (some (Utf8.encode text)) = .error error

theorem loads_of_written {text : String} {value : Json} {s : Settings}
    (hwritten : Json.Written value text.toList) (h : ofFileJson? value = some s) :
    Loads text s := by
  have hload : load (some (Utf8.encode text)) = .ok s := by
    rw [load, Utf8.encode, Utf8.decode?_encodeChars]
    simp [Json.parse?_eq_some_iff.mpr hwritten, h]
  exact ⟨hload, by rw [Engine.load, hload]; rfl⟩

theorem refused_of_written {text : String} {value : Json}
    (hwritten : Json.Written value text.toList) (h : ofFileJson? value = none) :
    Refused text := by
  have hload : load (some (Utf8.encode text)) = .error .json := by
    rw [load, Utf8.encode, Utf8.decode?_encodeChars]
    simp [Json.parse?_eq_some_iff.mpr hwritten, h]
  exact ⟨.json, rfl, hload, by rw [Engine.load, hload]; rfl⟩

theorem ofFileJson?_record (members : List (String × Json)) :
    ofFileJson? (.record members) = Json.field? members "crypto" default ofJson? := by
  have hmembers : (Json.object _).members? = some members := Json.members?_record members
  simp only [ofFileJson?, Json.record, hmembers]
  rfl

/-- A value that is neither an object nor an array holds no settings. -/
theorem ofJson?_eq_none {value : Json} (hobject : ∀ raw, value ≠ .object raw)
    (harray : ∀ elements, value ≠ .array elements) : ofJson? value = none := by
  cases value with
  | object raw => exact absurd rfl (hobject raw)
  | array elements => exact absurd rfl (harray elements)
  | _ => rfl

/-- An object whose members are known in part, or not at all, gives the default
settings, with those that its member `crypto` names in place of the default. A
member that is known and there twice, or is null, or has a value that stands for
nothing, gives nothing at all. -/
theorem loads_named (text : String) (members : List (String × Json))
    (hwritten : Json.Written (.record members) text.toList) :
    (Json.Absent "crypto" members → Loads text default) ∧
    (∀ (fields : List (String × Json)) (given : Overrides),
      Json.Once "crypto" (.record fields) members → given.SaidBy fields →
        Loads text (given.applyTo default)) ∧
    (∀ fields, Json.Once "crypto" (.record fields) members → Faulty fields → Refused text) ∧
    (Json.Repeated "crypto" members → Refused text) ∧
    (∀ value, ("crypto", value) ∈ members → (∀ raw, value ≠ .object raw) →
      (∀ elements, value ≠ .array elements) → Refused text) := by
  have hfile := ofFileJson?_record members
  refine ⟨fun habsent => ?_, fun fields given honce hsaid => ?_, fun fields honce hfaulty => ?_,
    fun hrepeated => ?_, fun value hmem hobject harray => ?_⟩
  · exact loads_of_written hwritten (hfile.trans (Json.field?_of_absent habsent _ _))
  · refine loads_of_written hwritten (hfile.trans ?_)
    rw [Json.field?_of_once honce, ofJson?_of_saidBy hsaid]
  · refine refused_of_written hwritten (hfile.trans ?_)
    rw [Json.field?_of_once honce, ofJson?_of_faulty hfaulty]
  · exact refused_of_written hwritten (hfile.trans (Json.field?_of_repeated hrepeated _ _))
  · exact refused_of_written hwritten
      (hfile.trans (Json.field?_of_unread hmem _ (ofJson?_eq_none hobject harray)))

/-- A name that is no text, for want of half a surrogate pair, is refused where
names are looked at, even if no setting has it: in the file and in its member
`crypto`. In the values of other members nothing is looked at. -/
theorem refused_of_no_text (text : String) (units : List UInt16)
    (hunits : ∀ name, units ≠ Utf16.encode name) (value : Json) :
    (∀ raw, Json.Written (.object raw) text.toList → (units, value) ∈ raw → Refused text) ∧
    (∀ members raw, Json.Written (.record members) text.toList →
      Json.Once "crypto" (.object raw) members → (units, value) ∈ raw → Refused text) := by
  refine ⟨fun raw hwritten hmem => ?_, fun members raw hwritten honce hmem => ?_⟩
  · refine refused_of_written hwritten ?_
    simp [ofFileJson?, Json.members?_eq_none hmem hunits]
  · refine refused_of_written hwritten ?_
    rw [ofFileJson?_record, Json.field?_of_once honce]
    simp [ofJson?, Json.members?_eq_none hmem hunits]

/-- A file that names two settings, one of them by an escape, and says other
things besides. -/
def namingFile : String :=
  "\x7b\x22v\x22: 1e3, \x22crypto\x22: \x7b \x22strict\\u005fsm2_public_key\x22:true, " ++
    "\x22x\x22:\x7b\x22sm2_mode\x22:[]\x7d, " ++
    "\x22gcm_nonce_policy\x22:\x22legacy-key-derived\x22\x7d\x7d"

/-- The members of its member `crypto`. -/
def namingFields : List (String × Json) :=
  [("strict_sm2_public_key", .bool true), ("x", .record [("sm2_mode", .array [])]),
   ("gcm_nonce_policy", .ofText "legacy-key-derived")]

/-- A file that names two settings and gives one of them null. -/
def nullFile : String :=
  "\x7b\x22crypto\x22:\x7b\x22strict_sm2_public_key\x22:true,\x22sm2_mode\x22:null\x7d\x7d"

set_option maxRecDepth 2000 in
theorem written_namingFile :
    Json.Written (.record [("v", .number "1e3"), ("crypto", .record namingFields)])
      namingFile.toList := by
  refine Json.parse?_eq_some_iff.mp ?_
  unfold namingFile
  simp only [String.reduceAppend, String.reduceToList]
  rfl

set_option maxRecDepth 2000 in
theorem written_nullFile :
    Json.Written (.record [("crypto", .record [("strict_sm2_public_key", .bool true),
      ("sm2_mode", .null)])]) nullFile.toList := by
  refine Json.parse?_eq_some_iff.mp ?_
  unfold nullFile
  simp only [String.reduceToList]
  rfl

theorem saidBy_namingFields : Overrides.SaidBy
    { strictPublicKey := some true, noncePolicy := some .legacyKeyDerived } namingFields where
  layout := show Json.Absent _ _ by decide
  keyEncoding := show Json.Absent _ _ by decide
  strictPublicKey := ⟨.bool true, ⟨[], _, rfl, by decide, by decide⟩, rfl⟩
  noncePolicy := ⟨.ofText "legacy-key-derived", ⟨[_, _], [], rfl, by decide, by decide⟩,
    "legacy-key-derived", by simp, .text⟩

/-- The first file leaves the other two settings as they are; the second one
changes nothing, not even the setting that it names first. -/
theorem loads_namingFile :
    Loads namingFile { default with strictPublicKey := true, noncePolicy := .legacyKeyDerived } ∧
    Refused nullFile :=
  ⟨(loads_named namingFile _ written_namingFile).right.left namingFields _
      ⟨[_], [], rfl, by decide, by decide⟩ saidBy_namingFields,
    (loads_named nullFile _ written_nullFile).right.right.left _
      ⟨[], [], rfl, by decide, by decide⟩ (.inl (.null (by simp [layoutEntry, choiceEntry])))⟩

end ColumnMasking.Settings
