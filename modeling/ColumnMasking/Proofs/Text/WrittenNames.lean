/-
ColumnMasking.Proofs.Text.WrittenNames — names that are read with white space
around them and in any letter case.

The readers of names trim a text, change its letters to one case and compare.
`Named` says what a text looks like that is read so, without a word on either
step; `named_iff_toLower` and `named_iff_toUpper` say that both ways of
reading come to that. A name of a setting has no white space in it, and
letter case makes none (`isBlank_toLower`), so that what is trimmed off is
what stands around the name.

`ReadsNames` is the statement on a whole reader: it takes the texts that are
named in its table, for what the table says, and no others.
-/
import Mathlib.Data.List.TakeWhile
import ColumnMasking.Settings

namespace ColumnMasking

/-! ## 1. Letter case -/

namespace Letter

/-- The small letter of a capital one comes 32 places after it. -/
theorem toNat_toLower (c : Char) :
    c.toLower.toNat = if 65 ≤ c.toNat ∧ c.toNat ≤ 90 then c.toNat + 32 else c.toNat := by
  by_cases h : 65 ≤ c.toNat ∧ c.toNat ≤ 90
  · have hsmall : c.toLower.val = c.val + 32 := congrArg Char.val (dif_pos h)
    have hfits : c.toNat + 32 < 2 ^ 32 := by omega
    rw [if_pos h, Char.toNat, hsmall, UInt32.toNat_add]
    exact Nat.mod_eq_of_lt hfits
  · have hsame : c.toLower = c := dif_neg h
    rw [if_neg h, hsame]

/-- The capital letter of a small one comes 32 places before it. -/
theorem toNat_toUpper (c : Char) :
    c.toUpper.toNat = if 97 ≤ c.toNat ∧ c.toNat ≤ 122 then c.toNat - 32 else c.toNat := by
  by_cases h : 97 ≤ c.toNat ∧ c.toNat ≤ 122
  · have hrange : 'a'.val ≤ c.val ∧ c.val ≤ 'z'.val := h
    have hcapital : c.toUpper = ⟨c.val + ('A'.val - 'a'.val), _⟩ := dif_pos hrange
    -- the distance of the two cases, as its complement
    have hdistance : ('A'.val - 'a'.val).toNat = 2 ^ 32 - 32 := by decide
    rw [if_pos h, hcapital, Char.toNat, UInt32.toNat_add, hdistance, Char.toNat_val]
    omega
  · have hsame : c.toUpper = c := dif_neg h
    rw [if_neg h, hsame]

/-- The small letter does not depend on the case that a letter is in. -/
theorem toLower_toUpper (c : Char) : c.toUpper.toLower = c.toLower := by
  rw [← Char.toNat_inj]
  simp only [toNat_toLower, toNat_toUpper]
  grind

/-- The capital letter does not depend on the case that a letter is in. -/
theorem toUpper_toLower (c : Char) : c.toLower.toUpper = c.toUpper := by
  rw [← Char.toNat_inj]
  simp only [toNat_toLower, toNat_toUpper]
  grind

end Letter

/-! ## 2. White space around a text -/

namespace Blank

/-- The text is the core with nothing but white space around it. -/
def Padded (text core : List Char) : Prop :=
  ∃ before after, text = before ++ core ++ after ∧
    (∀ c ∈ before, isBlank c = true) ∧ ∀ c ∈ after, isBlank c = true

/-- What is trimmed off is white space. -/
theorem padded_trimChars (text : List Char) : Padded text (trimChars text) := by
  let rest := text.dropWhile isBlank
  have hrest : trimChars text ++ (rest.reverse.takeWhile isBlank).reverse = rest := by
    rw [trimChars, ← List.reverse_append, List.takeWhile_append_dropWhile, List.reverse_reverse]
  refine ⟨text.takeWhile isBlank, (rest.reverse.takeWhile isBlank).reverse, ?_, ?_, ?_⟩
  · rw [List.append_assoc, hrest, List.takeWhile_append_dropWhile]
  · exact fun c hc => List.mem_takeWhile_imp hc
  · exact fun c hc => List.mem_takeWhile_imp (List.mem_reverse.mp hc)

/-- A text that does not begin with white space is not shortened, whatever
comes after it. -/
theorem dropWhile_append_of_head {core : List Char} (hne : core ≠ [])
    (hcore : ∀ c ∈ core, isBlank c = false) (after : List Char) :
    (core ++ after).dropWhile isBlank = core ++ after := by
  cases core with
  | nil => exact absurd rfl hne
  | cons c rest =>
    rw [List.cons_append]
    exact List.dropWhile_cons_of_neg (by rw [hcore c List.mem_cons_self]; exact Bool.false_ne_true)

/-- All white space around a text is trimmed off. -/
theorem trimChars_of_padded {text core : List Char} (h : Padded text core)
    (hcore : ∀ c ∈ core, isBlank c = false) : trimChars text = core := by
  obtain ⟨before, after, rfl, hbefore, hafter⟩ := h
  have hafter' : ∀ c ∈ after.reverse, isBlank c = true := fun c hc =>
    hafter c (List.mem_reverse.mp hc)
  rw [trimChars, List.append_assoc, List.dropWhile_append_of_pos hbefore]
  by_cases hne : core = []
  · subst hne
    rw [List.nil_append, List.dropWhile_eq_nil_iff.mpr hafter]
    rfl
  · have hne' : core.reverse ≠ [] := fun h => hne (List.reverse_eq_nil_iff.mp h)
    have hcore' : ∀ c ∈ core.reverse, isBlank c = false := fun c hc =>
      hcore c (List.mem_reverse.mp hc)
    have hend := dropWhile_append_of_head hne' hcore' []
    rw [List.append_nil] at hend
    rw [dropWhile_append_of_head hne hcore, List.reverse_append,
      List.dropWhile_append_of_pos hafter', hend, List.reverse_reverse]

/-- A character of ASCII that shows. -/
def Graphic (c : Char) : Prop := 33 ≤ c.toNat ∧ c.toNat ≤ 126

/-- No character that shows is white space. -/
theorem isBlank_of_graphic {c : Char} (h : Graphic c) : isBlank c = false := by
  rw [isBlank, List.any_eq_false]
  intro r hr
  obtain ⟨hlow, hhigh⟩ := h
  simp only [ranges, List.mem_cons, List.not_mem_nil, or_false] at hr
  rcases hr with rfl | rfl | rfl | rfl | rfl | rfl | rfl | rfl | rfl | rfl <;> simp <;> omega

/-- Letter case makes no white space and undoes none. -/
theorem isBlank_toLower (c : Char) : isBlank c.toLower = isBlank c := by
  by_cases h : 65 ≤ c.toNat ∧ c.toNat ≤ 90
  · have hcapital : Graphic c := ⟨by omega, by omega⟩
    have hsmall : Graphic c.toLower := by
      rw [Graphic, Letter.toNat_toLower, if_pos h]
      omega
    rw [isBlank_of_graphic hcapital, isBlank_of_graphic hsmall]
  · have hsame : c.toLower = c := by
      rw [← Char.toNat_inj, Letter.toNat_toLower, if_neg h]
    rw [hsame]

end Blank

/-! ## 3. Names -/

/-- The text is the name, white space around it and letter case aside. -/
def Named (text name : String) : Prop :=
  ∃ core, Blank.Padded text.toList core ∧
    core.map Char.toLower = name.toList.map Char.toLower

section

variable {text name : String}

/-- A name in any letter case, with nothing around it. -/
theorem Named.of_toLower (h : text.toList.map Char.toLower = name.toList.map Char.toLower) :
    Named text name :=
  ⟨text.toList, ⟨[], [], (List.append_nil _).symm, nofun, nofun⟩, h⟩

/-- More white space around it makes no difference to what a text names. -/
theorem Named.of_padded {other : String} (h : Named text name)
    (hother : Blank.Padded other.toList text.toList) : Named other name := by
  obtain ⟨core, ⟨before, after, htext, hbefore, hafter⟩, hcore⟩ := h
  obtain ⟨front, back, hchars, hfront, hback⟩ := hother
  refine ⟨core, ⟨front ++ before, after ++ back, ?_, ?_, ?_⟩, hcore⟩
  · rw [hchars, htext]
    simp only [List.append_assoc]
  · exact fun c hc => (List.mem_append.mp hc).elim (hfront c) (hbefore c)
  · exact fun c hc => (List.mem_append.mp hc).elim (hafter c) (hback c)

/-- Letters that agree in one case agree in the other. -/
theorem map_toUpper_eq_iff {cs ds : List Char} :
    cs.map Char.toUpper = ds.map Char.toUpper ↔ cs.map Char.toLower = ds.map Char.toLower := by
  have hlower : Char.toLower ∘ Char.toUpper = Char.toLower :=
    funext Letter.toLower_toUpper
  have hupper : Char.toUpper ∘ Char.toLower = Char.toUpper :=
    funext Letter.toUpper_toLower
  constructor
  · intro h
    rw [← hlower, ← List.map_map, h, List.map_map]
  · intro h
    rw [← hupper, ← List.map_map, h, List.map_map]

/-- A name without white space in it is found by trimming. -/
theorem named_iff_trim (hname : ∀ c ∈ name.toList, Blank.Graphic c) :
    Named text name
      ↔ (Blank.trim text).toList.map Char.toLower = name.toList.map Char.toLower := by
  rw [Blank.trim, String.toList_ofList]
  constructor
  · rintro ⟨core, hpadded, hcore⟩
    have hblank : ∀ c ∈ core, Blank.isBlank c = false := by
      intro c hc
      have hlower : c.toLower ∈ name.toList.map Char.toLower :=
        hcore ▸ List.mem_map_of_mem hc
      obtain ⟨d, hd, hdc⟩ := List.mem_map.mp hlower
      rw [← Blank.isBlank_toLower, ← hdc, Blank.isBlank_toLower,
        Blank.isBlank_of_graphic (hname d hd)]
    rw [Blank.trimChars_of_padded hpadded hblank, hcore]
  · exact fun h => ⟨_, Blank.padded_trimChars text.toList, h⟩

/-- A reader that goes by small letters. -/
theorem named_iff_toLower (hname : ∀ c ∈ name.toList, Blank.Graphic c)
    (hcase : name.toList.map Char.toLower = name.toList) :
    Named text name ↔ (Blank.trim text).toLower = name := by
  rw [named_iff_trim hname, hcase, ← String.toList_map, String.toList_inj]
  rfl

/-- A reader that goes by capital letters. -/
theorem named_iff_toUpper (hname : ∀ c ∈ name.toList, Blank.Graphic c)
    (hcase : name.toList.map Char.toUpper = name.toList) :
    Named text name ↔ (Blank.trim text).toUpper = name := by
  rw [named_iff_trim hname, ← map_toUpper_eq_iff, hcase, ← String.toList_map, String.toList_inj]
  rfl

end

/-! ## 4. Readers of names -/

/-- The reader takes the texts that are named in the table, for what the table
says, and no others. -/
def ReadsNames {α : Type} (table : List (String × α)) (read : String → Except UnknownName α) :
    Prop :=
  ∀ text a, read text = .ok a ↔ ∃ name, (name, a) ∈ table ∧ Named text name

section

variable {α : Type} {table : List (String × α)} {read : String → Except UnknownName α}

/-- A reader that looks for some form of the text in its table, when each name
there is found in that form. -/
theorem ReadsNames.of_form (form : String → String)
    (hnames : ∀ entry ∈ table, ∀ text, Named text entry.1 ↔ form text = entry.1)
    (hread : ∀ text a, read text = .ok a ↔ (form text, a) ∈ table) : ReadsNames table read := by
  intro text a
  rw [hread]
  constructor
  · exact fun h => ⟨_, h, (hnames _ h text).mpr rfl⟩
  · rintro ⟨name, hname, hnamed⟩
    rwa [(hnames _ hname text).mp hnamed]

theorem ReadsNames.of_toLower
    (hgraphic : ∀ entry ∈ table, ∀ c ∈ entry.1.toList, Blank.Graphic c)
    (hcase : ∀ entry ∈ table, entry.1.toList.map Char.toLower = entry.1.toList)
    (hread : ∀ text a, read text = .ok a ↔ ((Blank.trim text).toLower, a) ∈ table) :
    ReadsNames table read :=
  .of_form _ (fun entry h _ => named_iff_toLower (hgraphic entry h) (hcase entry h)) hread

theorem ReadsNames.of_toUpper
    (hgraphic : ∀ entry ∈ table, ∀ c ∈ entry.1.toList, Blank.Graphic c)
    (hcase : ∀ entry ∈ table, entry.1.toList.map Char.toUpper = entry.1.toList)
    (hread : ∀ text a, read text = .ok a ↔ ((Blank.trim text).toUpper, a) ∈ table) :
    ReadsNames table read :=
  .of_form _ (fun entry h _ => named_iff_toUpper (hgraphic entry h) (hcase entry h)) hread

end

theorem Sm2.Layout.readsNames :
    ReadsNames [("C1C2C3", c1c2c3), ("C1C3C2", c1c3c2)] ofName := by
  refine .of_toUpper (by simp [Blank.Graphic]) (by decide) fun text layout => ?_
  rw [ofName]
  generalize (Blank.trim text).toUpper = given
  grind

theorem Encoding.readsNames : ReadsNames [("hex", hex), ("base64", base64)] ofName := by
  refine .of_toLower (by simp [Blank.Graphic]) (by decide) fun text encoding => ?_
  rw [ofName]
  generalize (Blank.trim text).toLower = given
  grind

theorem NoncePolicy.readsNames :
    ReadsNames [("explicit", explicit), ("legacy-key-derived", legacyKeyDerived),
      ("legacy", legacyKeyDerived)] ofName := by
  refine .of_toLower (by simp [Blank.Graphic]) (by decide) fun text policy => ?_
  rw [ofName]
  generalize (Blank.trim text).toLower = given
  grind

end ColumnMasking
