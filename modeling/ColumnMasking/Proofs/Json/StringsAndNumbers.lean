/-
ColumnMasking.Proofs.Json.StringsAndNumbers — strings and numbers as the JSON
reader takes them.

For each part of the grammar there are two statements. A part that is written is
read to its end (`readUnits_append`, `readNumber_append`), and a part that is
read was written (`stringText_of_readUnits`, `numeral_of_readNumber`).

A string says itself where it ends. A number does not: a digit after it would be
read as part of it, so reading one needs to know what may follow a value, which
`Ends` says.
-/
import ColumnMasking.Proofs.Json.Grammar

namespace ColumnMasking.Json

/-! ## 1. White space -/

theorem skipSpace_append {before : List Char} (h : Spaces before) (rest : List Char) :
    skipSpace (before ++ rest) = skipSpace rest :=
  List.dropWhile_append_of_pos h

theorem skipSpace_cons {c : Char} (h : isSpace c = false) (rest : List Char) :
    skipSpace (c :: rest) = c :: rest :=
  List.dropWhile_cons_of_neg (by simp [h])

theorem skipSpace_skipSpace (cs : List Char) : skipSpace (skipSpace cs) = skipSpace cs :=
  List.dropWhile_idempotent isSpace cs

/-- What is passed over is white space. -/
theorem exists_spaces (cs : List Char) : ∃ before, Spaces before ∧ cs = before ++ skipSpace cs :=
  ⟨cs.takeWhile isSpace, fun _ hc => List.mem_takeWhile_imp hc,
    List.takeWhile_append_dropWhile.symm⟩

/-- What may follow a value: nothing, white space, or a mark of what the value is
part of. -/
def Ends (rest : List Char) : Prop :=
  ∀ c ∈ rest.head?, isSpace c = true ∨ c ∈ [',', ']', '\x7d']

/-! ## 2. Strings -/

/-- The value of an ASCII character as a digit is that of the digit. -/
theorem value?_ofNat : ∀ n < 128, Hex.value? (UInt8.ofNat n)
    = if Hex.IsDigit (Char.ofNat n) then some (Hex.digitValue (Char.ofNat n)) else none := by
  decide

/-- A character has a value where it is a digit. -/
theorem ite_value?_eq_some_iff {c : Char} {n : Nat} :
    (if c.toNat < 128 then Hex.value? (UInt8.ofNat c.toNat) else none) = some n
      ↔ Hex.IsDigit c ∧ n = Hex.digitValue c := by
  by_cases hascii : c.toNat < 128
  · rw [if_pos hascii, value?_ofNat _ hascii, Char.ofNat_toNat, Option.ite_none_right_eq_some,
      Option.some.injEq, eq_comm (a := n)]
  · rw [if_neg hascii]
    exact ⟨nofun, fun h => absurd h.left.lt hascii⟩

/-- Characters have values where they are all digits. -/
theorem mapM_value?_eq_some_iff {cs : List Char} {values : List Nat} :
    (cs.mapM fun c => if c.toNat < 128 then Hex.value? (UInt8.ofNat c.toNat) else none)
        = some values
      ↔ (∀ c ∈ cs, Hex.IsDigit c) ∧ values = cs.map Hex.digitValue := by
  induction cs generalizing values with
  | nil => simp [eq_comm]
  | cons c cs ih =>
    rw [List.mapM_cons, List.forall_mem_cons, List.map_cons]
    constructor
    · intro h
      obtain ⟨n, hn, hrest⟩ := Option.bind_eq_some_iff.mp h
      obtain ⟨rest, hmap, hvalues⟩ := Option.bind_eq_some_iff.mp hrest
      obtain ⟨hc, rfl⟩ := ite_value?_eq_some_iff.mp hn
      obtain ⟨hcs, rfl⟩ := ih.mp hmap
      exact ⟨⟨hc, hcs⟩, (Option.some.inj hvalues).symm⟩
    · rintro ⟨⟨hc, hcs⟩, rfl⟩
      rw [ite_value?_eq_some_iff.mpr ⟨hc, rfl⟩, ih.mpr ⟨hcs, rfl⟩]
      rfl

/-- Four characters are read as a unit when they are digits, and then as the unit
of their number. -/
theorem fourDigits?_eq_some_iff {p q r s : Char} {u : UInt16} :
    fourDigits? p q r s = some u
      ↔ (∀ c ∈ [p, q, r, s], Hex.IsDigit c) ∧ u = UInt16.ofNat (Hex.number [p, q, r, s]) := by
  have hnumber : ([p, q, r, s].map Hex.digitValue).foldl (fun n v => 16 * n + v) 0
      = Hex.number [p, q, r, s] := List.foldl_map
  constructor
  · intro h
    obtain ⟨values, hvalues, hu⟩ := Option.bind_eq_some_iff.mp h
    obtain ⟨hdigits, rfl⟩ := mapM_value?_eq_some_iff.mp hvalues
    rw [hnumber] at hu
    exact ⟨hdigits, (Option.some.inj hu).symm⟩
  · rintro ⟨hdigits, rfl⟩
    rw [fourDigits?, mapM_value?_eq_some_iff.mpr ⟨hdigits, rfl⟩]
    exact congrArg (fun n => some (UInt16.ofNat n)) hnumber

/-- In a table without repeated names, looking up a name finds its entry. -/
theorem lookup_eq_some_iff_mem {α β : Type} [BEq α] [LawfulBEq α] {table : List (α × β)}
    (hdistinct : (table.map Prod.fst).Nodup) {name : α} {value : β} :
    table.lookup name = some value ↔ (name, value) ∈ table := by
  induction table with
  | nil => simp
  | cons entry table ih =>
    obtain ⟨key, first⟩ := entry
    obtain ⟨hnew, hrest⟩ := List.nodup_cons.mp hdistinct
    rw [List.lookup_cons, List.mem_cons, Prod.mk.injEq, ← ih hrest]
    cases hname : name == key with
    | false =>
      have hne : name ≠ key := by simpa using hname
      simp [hne]
    | true =>
      obtain rfl : name = key := by simpa using hname
      have hmem : (name, value) ∉ table := fun h => hnew (List.mem_map.mpr ⟨_, h, rfl⟩)
      simp [ih hrest, hmem, eq_comm]

/-- A string that is written is read up to its closing quote. -/
theorem readUnits_append {cs : List Char} {units : List UInt16} (h : StringText cs units)
    (rest : List Char) :
    readUnits false (cs ++ Char.ofNat 0x22 :: rest) = some (units, rest) := by
  induction h with
  | nil =>
    rw [List.nil_append, readUnits.eq_def]
    simp
  | plain hquote hescape hcontrol _ ih =>
    rw [List.cons_append, readUnits.eq_def]
    simp [hquote, hescape, ih, hcontrol]
  | @letter c code cs units hletter _ ih =>
    have hcode := (lookup_eq_some_iff_mem (by decide)).mpr hletter
    have hu : c ≠ 'u' := by
      rintro rfl
      simp [simpleEscapes] at hletter
    rw [List.cons_append, List.cons_append, readUnits.eq_def]
    simp [hcode, hu, ih]
  | digits hdigits _ ih =>
    rw [List.cons_append, List.cons_append, readUnits.eq_def]
    simp [fourDigits?_eq_some_iff.mpr ⟨hdigits, rfl⟩, ih]

/-- A string that is read up to a closing quote was written. -/
theorem stringText_of_readUnits {cs rest : List Char} {units : List UInt16}
    (h : readUnits false cs = some (units, rest)) :
    ∃ body, StringText body units ∧ cs = body ++ Char.ofNat 0x22 :: rest := by
  fun_induction readUnits false cs generalizing units with
  | case1 => simp at h
  | case2 tail =>
    obtain ⟨rfl, rfl⟩ := Prod.mk.inj (Option.some.inj h)
    exact ⟨[], .nil, rfl⟩
  | case3 p q r s tail _ ih =>
    simp only [Option.bind_eq_bind, Option.bind_eq_some_iff] at h
    obtain ⟨u, hu, ⟨units, rest⟩, hread, h⟩ := h
    obtain ⟨rfl, rfl⟩ := Prod.mk.inj (Option.some.inj h)
    obtain ⟨hdigits, rfl⟩ := fourDigits?_eq_some_iff.mp hu
    obtain ⟨body, hbody, rfl⟩ := ih hread
    exact ⟨_, .digits hdigits hbody, rfl⟩
  | case4 e tail _ _ ih =>
    simp only [Option.bind_eq_bind, Option.bind_eq_some_iff] at h
    obtain ⟨code, hcode, ⟨units, rest⟩, hread, h⟩ := h
    obtain ⟨rfl, rfl⟩ := Prod.mk.inj (Option.some.inj h)
    obtain ⟨body, hbody, rfl⟩ := ih hread
    exact ⟨_, .letter ((lookup_eq_some_iff_mem (by decide)).mp hcode) hbody, rfl⟩
  | case5 => simp at h
  | case6 => simp at h
  | case7 c tail hquote hescape hcontrol ih =>
    simp only [Option.bind_eq_bind, Option.bind_eq_some_iff] at h
    obtain ⟨⟨units, rest⟩, hread, h⟩ := h
    obtain ⟨rfl, rfl⟩ := Prod.mk.inj (Option.some.inj h)
    obtain ⟨body, hbody, rfl⟩ := ih hread
    exact ⟨_, .plain hquote hescape (by simpa using hcontrol) hbody, rfl⟩

/-! ## 3. Numbers -/

theorem readDigits_append {digits rest : List Char} (h : Digits digits)
    (hrest : ∀ c ∈ rest.head?, c.isDigit = false) :
    readDigits (digits ++ rest) = some (digits, rest) := by
  obtain ⟨hne, hdigits⟩ := h
  have hstop : rest.takeWhile Char.isDigit = [] ∧ rest.dropWhile Char.isDigit = rest := by
    cases rest with
    | nil => simp
    | cons c rest => simp [hrest c rfl]
  rw [readDigits, List.takeWhile_append_of_pos hdigits, List.dropWhile_append_of_pos hdigits,
    hstop.left, hstop.right]
  simp [hne]

theorem readWhole_append {whole rest : List Char} (h : Whole whole)
    (hrest : ∀ c ∈ rest.head?, c.isDigit = false) :
    readWhole (whole ++ rest) = some (whole, rest) := by
  rcases h with rfl | ⟨hdigits, hzero⟩
  · cases rest with
    | nil => rfl
    | cons c rest => simp [readWhole, hrest c rfl]
  · rw [readWhole.eq_def]
    split
    · rename_i tail htail
      cases whole with
      | nil => exact absurd rfl hdigits.left
      | cons c whole => simp_all
    · exact readDigits_append hdigits hrest

theorem readFraction_append {fraction rest : List Char} (h : Fraction fraction)
    (hrest : ∀ c ∈ rest.head?, c.isDigit = false ∧ c ≠ '.') :
    readFraction (fraction ++ rest) = some (fraction, rest) := by
  rcases h with rfl | ⟨digits, hdigits, rfl⟩
  · cases rest with
    | nil => rfl
    | cons c rest =>
      obtain ⟨-, hpoint⟩ := hrest c rfl
      simp [readFraction, hpoint]
  · simp [readFraction, readDigits_append hdigits fun c hc => (hrest c hc).left]

theorem readExponent_append {exponent rest : List Char} (h : Exponent exponent)
    (hrest : ∀ c ∈ rest.head?, c.isDigit = false ∧ c ≠ 'e' ∧ c ≠ 'E') :
    readExponent (exponent ++ rest) = some (exponent, rest) := by
  rcases h with rfl | ⟨e, sign, digits, he, hsign, hdigits, rfl⟩
  · cases rest with
    | nil => rfl
    | cons c rest =>
      obtain ⟨-, he, hE⟩ := hrest c rfl
      simp [readExponent, he, hE]
  · have hread := readDigits_append hdigits fun c hc => (hrest c hc).left
    rcases hsign with rfl | rfl | rfl
    · cases digits with
      | nil => exact absurd rfl hdigits.left
      | cons d digits =>
        have hd := hdigits.right d List.mem_cons_self
        have hsign : d ≠ '+' ∧ d ≠ '-' := by constructor <;> rintro rfl <;> simp at hd
        rw [List.cons_append] at hread
        simp [readExponent, he, hsign, hread]
    · simp [readExponent, he, hread]
    · simp [readExponent, he, hread]

/-- Nothing that may follow a value goes on with a number. -/
theorem Ends.head {rest : List Char} (h : Ends rest) :
    ∀ c ∈ rest.head?, c.isDigit = false ∧ c ≠ '.' ∧ c ≠ 'e' ∧ c ≠ 'E' := by
  intro c hc
  have hchar := h c hc
  simp only [isSpace, Bool.or_eq_true, decide_eq_true_eq, List.mem_cons, List.not_mem_nil,
    or_false] at hchar
  rcases hchar with ((((rfl | rfl) | rfl) | rfl) | rfl | rfl | rfl) <;> decide

/-- What follows the fraction of a number is its exponent or its end. -/
theorem head_exponent {exponent rest : List Char} (h : Exponent exponent) (hrest : Ends rest) :
    ∀ c ∈ (exponent ++ rest).head?, c.isDigit = false ∧ c ≠ '.' := by
  rcases h with rfl | ⟨e, sign, digits, he, -, -, rfl⟩
  · exact fun c hc => ⟨(hrest.head c hc).left, (hrest.head c hc).right.left⟩
  · rcases he with rfl | rfl <;> simp

/-- What follows the whole part of a number is not one more digit. -/
theorem head_fraction {fraction rest : List Char} (h : Fraction fraction)
    (hrest : ∀ c ∈ rest.head?, c.isDigit = false ∧ c ≠ '.') :
    ∀ c ∈ (fraction ++ rest).head?, c.isDigit = false := by
  rcases h with rfl | ⟨digits, -, rfl⟩
  · exact fun c hc => (hrest c hc).left
  · simp

/-- A number starts with its sign or with a digit. -/
theorem Whole.exists_digit {whole : List Char} (h : Whole whole) :
    ∃ c rest, whole = c :: rest ∧ c.isDigit = true := by
  rcases h with rfl | ⟨⟨hne, hdigits⟩, -⟩
  · exact ⟨'0', [], rfl, rfl⟩
  · obtain ⟨c, rest, rfl⟩ := List.exists_cons_of_ne_nil hne
    exact ⟨c, rest, rfl, hdigits c List.mem_cons_self⟩

/-- A number that is written is read to its end. -/
theorem readNumber_append {cs rest : List Char} (h : Numeral cs) (hrest : Ends rest) :
    readNumber (cs ++ rest) = some (.number (String.ofList cs), rest) := by
  obtain @⟨sign, whole, fraction, exponent, hsign, hwhole, hfraction, hexponent⟩ := h
  have hafter := head_exponent hexponent hrest
  have hread := readExponent_append hexponent fun c hc =>
    ⟨(hrest.head c hc).left, (hrest.head c hc).right.right⟩
  have hread' := readFraction_append hfraction hafter
  have hread'' := readWhole_append hwhole (head_fraction hfraction hafter)
  rcases hsign with rfl | rfl
  · obtain ⟨c, digits, rfl, hc⟩ := hwhole.exists_digit
    have hminus : c ≠ '-' := by
      rintro rfl
      simp at hc
    simp only [List.cons_append] at hread''
    simp [readNumber, hminus, hread, hread', hread'', String.append_assoc]
  · simp [readNumber, hread, hread', hread'']

theorem eq_append_of_readDigits {cs digits rest : List Char}
    (h : readDigits cs = some (digits, rest)) : Digits digits ∧ cs = digits ++ rest := by
  simp only [readDigits, ite_eq_iff, reduceCtorEq, and_false, false_or, Option.some.injEq,
    Prod.mk.injEq] at h
  obtain ⟨hne, rfl, rfl⟩ := h
  exact ⟨⟨hne, fun c hc => List.mem_takeWhile_imp hc⟩, List.takeWhile_append_dropWhile.symm⟩

/-- Digits that are read and passed on were written. -/
theorem digits_of_map_readDigits {cs part rest : List Char} {f : List Char → List Char}
    (h : ((readDigits cs).map fun (digits, rest) => (f digits, rest)) = some (part, rest)) :
    ∃ digits, Digits digits ∧ part = f digits ∧ cs = digits ++ rest := by
  obtain ⟨⟨digits, tail⟩, hread, h⟩ := Option.map_eq_some_iff.mp h
  obtain ⟨rfl, rfl⟩ := Prod.mk.inj h
  obtain ⟨hdigits, hcs⟩ := eq_append_of_readDigits hread
  exact ⟨digits, hdigits, rfl, hcs⟩

theorem eq_append_of_readWhole {cs whole rest : List Char}
    (h : readWhole cs = some (whole, rest)) : Whole whole ∧ cs = whole ++ rest := by
  rw [readWhole.eq_def] at h
  split at h
  · split at h
    · split at h
      · simp at h
      · obtain ⟨rfl, rfl⟩ := Prod.mk.inj (Option.some.inj h)
        exact ⟨.inl rfl, rfl⟩
    · obtain ⟨rfl, rfl⟩ := Prod.mk.inj (Option.some.inj h)
      exact ⟨.inl rfl, rfl⟩
  · rename_i hzero
    obtain ⟨hdigits, rfl⟩ := eq_append_of_readDigits h
    refine ⟨.inr ⟨hdigits, ?_⟩, rfl⟩
    intro hhead
    obtain ⟨tail, htail⟩ := List.head?_eq_some_iff.mp hhead
    exact hzero (tail ++ rest) (by rw [htail, List.cons_append])

theorem eq_append_of_readFraction {cs fraction rest : List Char}
    (h : readFraction cs = some (fraction, rest)) : Fraction fraction ∧ cs = fraction ++ rest := by
  rw [readFraction.eq_def] at h
  split at h
  · obtain ⟨digits, hdigits, rfl, rfl⟩ := digits_of_map_readDigits h
    exact ⟨.inr ⟨digits, hdigits, rfl⟩, rfl⟩
  · obtain ⟨rfl, rfl⟩ := Prod.mk.inj (Option.some.inj h)
    exact ⟨.inl rfl, rfl⟩

theorem eq_append_of_readExponent {cs exponent rest : List Char}
    (h : readExponent cs = some (exponent, rest)) : Exponent exponent ∧ cs = exponent ++ rest := by
  rw [readExponent.eq_def] at h
  split at h
  · rename_i c tail
    split at h
    · rename_i he
      split at h
      · rename_i s digits
        split at h
        · rename_i hsign
          obtain ⟨digits, hdigits, rfl, rfl⟩ := digits_of_map_readDigits (f := (c :: s :: ·)) h
          refine ⟨.inr ⟨c, [s], digits, he, ?_, hdigits, rfl⟩, rfl⟩
          simpa using hsign
        · obtain ⟨digits, hdigits, rfl, heq⟩ := digits_of_map_readDigits (f := (c :: ·)) h
          exact ⟨.inr ⟨c, [], digits, he, .inl rfl, hdigits, rfl⟩, by rw [heq, List.cons_append]⟩
      · simp at h
    · obtain ⟨rfl, rfl⟩ := Prod.mk.inj (Option.some.inj h)
      exact ⟨.inl rfl, rfl⟩
  · obtain ⟨rfl, rfl⟩ := Prod.mk.inj (Option.some.inj h)
    exact ⟨.inl rfl, rfl⟩

/-- A number that is read was written. -/
theorem numeral_of_readNumber {cs rest : List Char} {value : Json}
    (h : readNumber cs = some (value, rest)) :
    ∃ body, Numeral body ∧ value = .number (String.ofList body) ∧ cs = body ++ rest := by
  unfold readNumber at h
  split at h
  rename_i sign unsigned hsplit
  simp only [Option.bind_eq_bind, Option.bind_eq_some_iff] at h
  obtain ⟨⟨whole, tail⟩, hread, ⟨fraction, tail'⟩, hread', ⟨exponent, rest⟩, hread'', h⟩ := h
  obtain ⟨rfl, rfl⟩ := Prod.mk.inj (Option.some.inj h)
  obtain ⟨hwhole, rfl⟩ := eq_append_of_readWhole hread
  obtain ⟨hfraction, rfl⟩ := eq_append_of_readFraction hread'
  obtain ⟨hexponent, rfl⟩ := eq_append_of_readExponent hread''
  have hsign : (sign = [] ∨ sign = ['-'])
      ∧ cs = sign ++ (whole ++ (fraction ++ (exponent ++ rest))) := by
    split at hsplit
    · obtain ⟨rfl, rfl⟩ := Prod.mk.inj hsplit
      exact ⟨.inr rfl, rfl⟩
    · obtain ⟨rfl, rfl⟩ := Prod.mk.inj hsplit
      exact ⟨.inl rfl, rfl⟩
  refine ⟨_, .mk hsign.left hwhole hfraction hexponent, rfl, ?_⟩
  rw [hsign.right]
  simp only [List.append_assoc]

end ColumnMasking.Json
