/-
ColumnMasking.Proofs.EnvironmentVariables — which variable says what, and what
is said of a variable that is not understood.

Three of the four settings are read by name (`ReadByName`): a variable that is
not set leaves the default, a name in any letter case and with white space
around it is taken, and anything else leaves the default with one warning of
that variable.

The fourth, the switch, is not read in this way. It is on for one word and off
for all other texts, the same word with a space before it included, and no text
is warned of. `ofEnvironment_reads_variables` says for which values this makes
no difference, and `switch_not_readByName` that there is no table of names by
which the switch is read.
-/
import ColumnMasking.Proofs.CallResults
import ColumnMasking.Proofs.Text.WrittenNames

namespace ColumnMasking.Settings

/-! ## 1. Variables that are read by name -/

/-- What is read of a variable with some value when its values are the names of
a table. -/
structure ReadByName {α : Type} (table : List (String × α)) (unset : α) (variableName : String)
    (value : Option String) (outcome : Reported α) : Prop where
  /-- A variable that is not set leaves the default. -/
  of_unset : value = none → outcome = .quiet unset
  /-- A name is taken, and nothing is said. -/
  of_named : ∀ text name a, value = some text → (name, a) ∈ table → Named text name →
    outcome = .quiet a
  /-- Any other text leaves the default, with one warning of the variable. -/
  of_unnamed : ∀ text, value = some text → (∀ entry ∈ table, ¬ Named text entry.1) →
    ∃ reason, outcome = ⟨unset, [.settingIgnored variableName reason]⟩

/-- The setting of a variable, by the value of that variable alone. -/
def ofValue {α : Type} (suffix : String) (unset : α) (read : String → Except UnknownName α)
    (value : Option String) : Reported α :=
  ofVariable (fun _ => value) suffix unset read

theorem ofVariable_eq {α : Type} (lookup : String → Option String) (suffix : String) (unset : α)
    (read : String → Except UnknownName α) :
    ofVariable lookup suffix unset read
      = ofValue suffix unset read (lookup (variableStem ++ suffix)) := rfl

/-- A reader of names gives a variable that is read by name. -/
theorem readByName_ofValue {α : Type} {table : List (String × α)}
    {read : String → Except UnknownName α} (h : ReadsNames table read)
    {suffix variableName : String} (hvariable : variableStem ++ suffix = variableName) (unset : α)
    (value : Option String) :
    ReadByName table unset variableName value (ofValue suffix unset read value) where
  of_unset := by
    rintro rfl
    rfl
  of_named := by
    rintro text name a rfl hname hnamed
    have hread : read text = .ok a := (h text a).mpr ⟨name, hname, hnamed⟩
    rw [ofValue, ofVariable]
    dsimp only
    rw [hread]
  of_unnamed := by
    rintro text rfl hnone
    obtain ⟨reason, hread⟩ := exists_error_of_ne_ok fun a ha => by
      obtain ⟨name, hname, hnamed⟩ := (h text a).mp ha
      exact hnone _ hname hnamed
    refine ⟨reason.message, ?_⟩
    rw [ofValue, ofVariable]
    dsimp only
    rw [hread, hvariable]

/-! ## 2. The settings, each by its own variable -/

/-- The order of SM2 segments. -/
def readLayout : Option String → Reported Sm2.Layout :=
  ofValue "SM2_MODE" default.layout Sm2.Layout.ofName

/-- How the texts of SM2 keys are written. -/
def readKeyEncoding : Option String → Reported Encoding :=
  ofValue "SM2_KEY_ENCODING" default.keyEncoding Encoding.ofName

/-- Where the nonce of GCM comes from when none is given. -/
def readNoncePolicy : Option String → Reported NoncePolicy :=
  ofValue "GCM_NONCE_POLICY" default.noncePolicy NoncePolicy.ofName

/-- Whether a public key that is too long is refused. Nothing is said of this
variable, whatever its value. -/
def readSwitch (value : Option String) : Reported Bool :=
  .quiet (switch (fun _ => value) "STRICT_SM2_PUBLIC_KEY" default.strictPublicKey)

/-- The settings of an environment, each from its own variable. -/
theorem ofEnvironment_eq (lookup : String → Option String) :
    ofEnvironment lookup =
      let layout := readLayout (lookup "SM_SEAL_SM2_MODE")
      let keyEncoding := readKeyEncoding (lookup "SM_SEAL_SM2_KEY_ENCODING")
      let strict := readSwitch (lookup "SM_SEAL_STRICT_SM2_PUBLIC_KEY")
      let noncePolicy := readNoncePolicy (lookup "SM_SEAL_GCM_NONCE_POLICY")
      ⟨⟨layout.result, keyEncoding.result, strict.result, noncePolicy.result⟩,
        layout.warnings ++ keyEncoding.warnings ++ strict.warnings ++ noncePolicy.warnings⟩ := by
  have hnames : variableStem ++ "SM2_MODE" = "SM_SEAL_SM2_MODE"
      ∧ variableStem ++ "SM2_KEY_ENCODING" = "SM_SEAL_SM2_KEY_ENCODING"
      ∧ variableStem ++ "STRICT_SM2_PUBLIC_KEY" = "SM_SEAL_STRICT_SM2_PUBLIC_KEY"
      ∧ variableStem ++ "GCM_NONCE_POLICY" = "SM_SEAL_GCM_NONCE_POLICY" := by decide
  obtain ⟨hlayout, hencoding, hstrict, hpolicy⟩ := hnames
  have hswitch : ⟨switch lookup "STRICT_SM2_PUBLIC_KEY" default.strictPublicKey, []⟩
      = readSwitch (lookup (variableStem ++ "STRICT_SM2_PUBLIC_KEY")) := rfl
  rw [hstrict] at hswitch
  rw [ofEnvironment, ofVariable_eq, ofVariable_eq, ofVariable_eq, hlayout, hencoding, hpolicy,
    ← hswitch]
  show Reported.mk _ (_ ++ (_ ++ (_ ++ []))) = _
  simp only [List.append_nil, ← List.append_assoc]
  rfl

/-! ## 3. The switch -/

/-- The switch is on for one word in any letter case, and for nothing else. -/
theorem readSwitch_some (text : String) :
    readSwitch (some text) = .quiet (text.toList.map Char.toLower = "true".toList) := by
  have hiff : text.toLower = "true" ↔ text.toList.map Char.toLower = "true".toList := by
    rw [← String.toList_inj, ← String.toList_map]
    rfl
  exact congrArg Reported.quiet (decide_eq_decide.mpr hiff)

theorem readSwitch_eq_true_iff {text : String} :
    readSwitch (some text) = .quiet true ↔ text.toList.map Char.toLower = "true".toList := by
  rw [readSwitch_some]
  exact ⟨fun h => of_decide_eq_true (congrArg Reported.result h),
    fun h => congrArg Reported.quiet (decide_eq_true h)⟩

/-- Any other text leaves it off. -/
theorem readSwitch_eq_false {text : String}
    (h : text.toList.map Char.toLower ≠ "true".toList) : readSwitch (some text) = .quiet false := by
  rw [readSwitch_some, decide_eq_false h]

/-- The names of the two values of a switch. -/
def switchNames : List (String × Bool) := [("true", true), ("false", false)]

/-- No text names both of them. -/
theorem eq_of_named {text name name' : String} {a a' : Bool} (hname : (name, a) ∈ switchNames)
    (hname' : (name', a') ∈ switchNames) (h : Named text name) (h' : Named text name') :
    a = a' := by
  have htrue : Named text "true" ↔ _ :=
    named_iff_toLower (by simp [Blank.Graphic]) (by decide)
  have hfalse : Named text "false" ↔ _ :=
    named_iff_toLower (by simp [Blank.Graphic]) (by decide)
  have hnot : ¬ (Named text "true" ∧ Named text "false") := by
    rintro ⟨h, h'⟩
    exact absurd ((htrue.mp h).symm.trans (hfalse.mp h')) (by decide)
  simp only [switchNames, List.mem_cons, Prod.mk.injEq, List.not_mem_nil, or_false]
    at hname hname'
  rcases hname with ⟨rfl, rfl⟩ | ⟨rfl, rfl⟩ <;> rcases hname' with ⟨rfl, rfl⟩ | ⟨rfl, rfl⟩
  · rfl
  · exact (hnot ⟨h, h'⟩).elim
  · exact (hnot ⟨h', h⟩).elim
  · rfl

/-- A switch is read by name where it takes the value that its variable
names. -/
theorem readByName_of_named {unset : Bool} {variableName text name : String} {a : Bool}
    (hname : (name, a) ∈ switchNames) (h : Named text name) :
    ReadByName switchNames unset variableName (some text) (.quiet a) where
  of_unset := nofun
  of_named := by
    rintro text' name' a' ⟨⟩ hname' h'
    rw [eq_of_named hname hname' h h']
  of_unnamed := by
    rintro text' ⟨⟩ hnone
    exact absurd h (hnone _ hname)

/-- It makes no difference that the switch is not read by name where its
variable is not set, where its value is the word as it stands, and where the
value means off. -/
theorem readByName_readSwitch_iff (value : Option String) :
    ReadByName switchNames default.strictPublicKey "SM_SEAL_STRICT_SM2_PUBLIC_KEY" value
        (readSwitch value)
      ↔ value = none ∨ ∃ text, value = some text
          ∧ (text.toList.map Char.toLower = "true".toList ∨ Named text "false") := by
  have htrueName : ("true", true) ∈ switchNames := by simp [switchNames]
  have hfalseName : ("false", false) ∈ switchNames := by simp [switchNames]
  constructor
  · intro h
    cases value with
    | none => exact .inl rfl
    | some text =>
      refine .inr ⟨text, rfl, ?_⟩
      by_cases htrue : Named text "true"
      · exact .inl (readSwitch_eq_true_iff.mp (h.of_named text _ _ rfl htrueName htrue))
      by_cases hfalse : Named text "false"
      · exact .inr hfalse
      · obtain ⟨reason, hreason⟩ := h.of_unnamed text rfl (by simp [switchNames, htrue, hfalse])
        have hwarnings := congrArg Reported.warnings hreason
        cases hwarnings
  · rintro (rfl | ⟨text, rfl, hword | hfalse⟩)
    · exact ⟨fun _ => rfl, nofun, nofun⟩
    · rw [readSwitch_eq_true_iff.mpr hword]
      exact readByName_of_named htrueName (.of_toLower hword)
    · rw [readSwitch_eq_false fun hword =>
        absurd (eq_of_named htrueName hfalseName (.of_toLower hword) hfalse) (by decide)]
      exact readByName_of_named hfalseName hfalse

/-! ## 4. Environments -/

/-- Each setting comes from its own variable, and three of them are read by
name. The switch is read as if it were where its variable is not set, where the
value is the word `true` in any letter case, and where the value means off. -/
theorem ofEnvironment_reads_variables (lookup : String → Option String) :
    ReadByName [("C1C2C3", .c1c2c3), ("C1C3C2", .c1c3c2)] default.layout "SM_SEAL_SM2_MODE"
      (lookup "SM_SEAL_SM2_MODE") (readLayout (lookup "SM_SEAL_SM2_MODE")) ∧
    ReadByName [("hex", .hex), ("base64", .base64)] default.keyEncoding "SM_SEAL_SM2_KEY_ENCODING"
      (lookup "SM_SEAL_SM2_KEY_ENCODING")
      (readKeyEncoding (lookup "SM_SEAL_SM2_KEY_ENCODING")) ∧
    ReadByName [("explicit", .explicit), ("legacy-key-derived", .legacyKeyDerived),
        ("legacy", .legacyKeyDerived)] default.noncePolicy "SM_SEAL_GCM_NONCE_POLICY"
      (lookup "SM_SEAL_GCM_NONCE_POLICY")
      (readNoncePolicy (lookup "SM_SEAL_GCM_NONCE_POLICY")) ∧
    (ReadByName switchNames default.strictPublicKey "SM_SEAL_STRICT_SM2_PUBLIC_KEY"
        (lookup "SM_SEAL_STRICT_SM2_PUBLIC_KEY")
        (readSwitch (lookup "SM_SEAL_STRICT_SM2_PUBLIC_KEY"))
      ↔ lookup "SM_SEAL_STRICT_SM2_PUBLIC_KEY" = none
        ∨ ∃ text, lookup "SM_SEAL_STRICT_SM2_PUBLIC_KEY" = some text
          ∧ (text.toList.map Char.toLower = "true".toList ∨ Named text "false")) ∧
    ofEnvironment lookup =
      ⟨⟨(readLayout (lookup "SM_SEAL_SM2_MODE")).result,
          (readKeyEncoding (lookup "SM_SEAL_SM2_KEY_ENCODING")).result,
          (readSwitch (lookup "SM_SEAL_STRICT_SM2_PUBLIC_KEY")).result,
          (readNoncePolicy (lookup "SM_SEAL_GCM_NONCE_POLICY")).result⟩,
        (readLayout (lookup "SM_SEAL_SM2_MODE")).warnings
          ++ (readKeyEncoding (lookup "SM_SEAL_SM2_KEY_ENCODING")).warnings
          ++ (readSwitch (lookup "SM_SEAL_STRICT_SM2_PUBLIC_KEY")).warnings
          ++ (readNoncePolicy (lookup "SM_SEAL_GCM_NONCE_POLICY")).warnings⟩ :=
  ⟨readByName_ofValue Sm2.Layout.readsNames (by decide) _ _,
    readByName_ofValue Encoding.readsNames (by decide) _ _,
    readByName_ofValue NoncePolicy.readsNames (by decide) _ _,
    readByName_readSwitch_iff _, ofEnvironment_eq lookup⟩

/-- The environment of the switch alone. -/
def switchAlone (value : Option String) : String → Option String := fun variableName =>
  if variableName = "SM_SEAL_STRICT_SM2_PUBLIC_KEY" then value else none

theorem ofEnvironment_switchAlone (value : Option String) :
    ofEnvironment (switchAlone value)
      = .quiet { default with strictPublicKey := (readSwitch value).result } := by
  have hothers : switchAlone value "SM_SEAL_SM2_MODE" = none
      ∧ switchAlone value "SM_SEAL_SM2_KEY_ENCODING" = none
      ∧ switchAlone value "SM_SEAL_STRICT_SM2_PUBLIC_KEY" = value
      ∧ switchAlone value "SM_SEAL_GCM_NONCE_POLICY" = none :=
    ⟨if_neg (by decide), if_neg (by decide), if_pos rfl, if_neg (by decide)⟩
  obtain ⟨hlayout, hencoding, hstrict, hpolicy⟩ := hothers
  rw [ofEnvironment_eq, hlayout, hencoding, hstrict, hpolicy]
  rfl

/-- The word `true` turns the switch on; with a space before it, it leaves the
switch off without a warning, and so does a word that means nothing. So there is
no table of names by which the switch is read. -/
theorem switch_not_readByName :
    Named " true" "true" ∧
    ofEnvironment (switchAlone (some "true")) = .quiet { default with strictPublicKey := true } ∧
    ofEnvironment (switchAlone (some " true")) = .quiet default ∧
    ofEnvironment (switchAlone (some "yes")) = .quiet default ∧
    ∀ table : List (String × Bool), ¬ ∀ value,
      ReadByName table default.strictPublicKey "SM_SEAL_STRICT_SM2_PUBLIC_KEY" value
        ((·.strictPublicKey) <$> ofEnvironment (switchAlone value)) := by
  have hon : readSwitch (some "true") = .quiet true := readSwitch_eq_true_iff.mpr (by decide)
  have hspaced : readSwitch (some " true") = .quiet false := readSwitch_eq_false (by decide)
  have hyes : readSwitch (some "yes") = .quiet false := readSwitch_eq_false (by decide)
  have hpadded : Blank.Padded " true".toList "true".toList :=
    ⟨[' '], [], by decide, by simp [Blank.isBlank, Blank.ranges], nofun⟩
  refine ⟨(Named.of_toLower rfl).of_padded hpadded, ?_, ?_, ?_, fun table h => ?_⟩
  · rw [ofEnvironment_switchAlone, hon]
    rfl
  · rw [ofEnvironment_switchAlone, hspaced]
    rfl
  · rw [ofEnvironment_switchAlone, hyes]
    rfl
  · have htrue := h (some "true")
    have hspacedTrue := h (some " true")
    rw [ofEnvironment_switchAlone, hon] at htrue
    rw [ofEnvironment_switchAlone, hspaced] at hspacedTrue
    by_cases hnamed : ∃ entry ∈ table, Named "true" entry.1
    · -- a name that the word is, it is with a space before it as well
      obtain ⟨⟨name, a⟩, hname, hnamed⟩ := hnamed
      have hvalue := htrue.of_named _ _ _ rfl hname hnamed
      have hvalue' := hspacedTrue.of_named _ _ _ rfl hname (hnamed.of_padded hpadded)
      exact absurd (hvalue.trans hvalue'.symm) (by decide)
    · obtain ⟨reason, hreason⟩ := htrue.of_unnamed _ rfl fun entry hentry hname =>
        hnamed ⟨entry, hentry, hname⟩
      have hwarnings := congrArg Reported.warnings hreason
      cases hwarnings

end ColumnMasking.Settings
