/-
ColumnMasking.Proofs.Json.ReaderTheorems — the reader of JSON takes the texts of
the grammar, and no others.

`parse?_eq_some_iff` is the main statement: a text is read as a value exactly
when it is a text of that value. So no text of the grammar is refused, whatever
its white space, its escapes and the depth of its nesting; nothing else is
taken; and a text has one value at most.

Both directions are by induction on the depth that is left to the reader.
Reading what is written (`reads_written`) needs the depth to last. Every step
down takes a character, a bracket or a comma, so a depth that covers the
characters does. That what is read was written (`written_of_read`) holds at any
depth.
-/
import ColumnMasking.Proofs.Json.StringsAndNumbers

namespace ColumnMasking.Json

/-! ## 1. Reading what is written -/

theorem readValue_skipSpace (depth : Nat) (cs : List Char) :
    readValue depth (skipSpace cs) = readValue depth cs := by
  cases depth with
  | zero => rfl
  | succ depth => rw [readValue, readValue, skipSpace_skipSpace]

theorem readElements_skipSpace (depth : Nat) (cs : List Char) :
    readElements depth (skipSpace cs) = readElements depth cs := by
  cases depth with
  | zero => rfl
  | succ depth => rw [readElements, readElements, readValue_skipSpace]

theorem readMembers_skipSpace (depth : Nat) (cs : List Char) :
    readMembers depth (skipSpace cs) = readMembers depth cs := by
  cases depth with
  | zero => rfl
  | succ depth => rw [readMembers, readMembers, skipSpace_skipSpace]

/-- No element starts with a closing bracket. -/
theorem readElements_close (depth : Nat) (rest : List Char) :
    readElements depth (']' :: rest) = none := by
  have hvalue : ∀ depth, readValue depth (']' :: rest) = none := by
    intro depth
    cases depth with
    | zero => rfl
    | succ depth => rfl
  cases depth with
  | zero => rfl
  | succ depth =>
    rw [readElements, hvalue]
    rfl

/-- No member starts with a closing brace. -/
theorem readMembers_close (depth : Nat) (rest : List Char) :
    readMembers depth ('\x7d' :: rest) = none := by
  cases depth with
  | zero => rfl
  | succ depth => rfl

/-- A number starts with its sign or with a digit, and so does no other value. -/
theorem Numeral.exists_head {cs : List Char} (h : Numeral cs) : ∃ c rest, cs = c :: rest
    ∧ isSpace c = false ∧ ∀ d ∈ [Char.ofNat 0x22, '[', '\x7b', 'n', 't', 'f'], c ≠ d := by
  obtain @⟨sign, whole, fraction, exponent, hsign, hwhole, -, -⟩ := h
  rcases hsign with rfl | rfl
  · obtain ⟨c, rest, rfl, hdigit⟩ := hwhole.exists_digit
    have hother : ∀ d : Char, d.isDigit = false → c ≠ d := by
      rintro d hd rfl
      simp [hdigit] at hd
    refine ⟨c, rest ++ fraction ++ exponent, by simp, ?_, ?_⟩
    · simp [isSpace, hother]
    · simp [hother]
  · exact ⟨'-', whole ++ fraction ++ exponent, by simp, rfl, by simp⟩

/-- A value has a text of one character at least. -/
theorem Spelled.length_pos {value : Json} {body : List Char} (h : Spelled value body) :
    0 < body.length := by
  cases h with
  | number h =>
    obtain ⟨c, rest, rfl, -, -⟩ := h.exists_head
    simp
  | _ => simp [quoted]

theorem Ends.of_spaces {after rest : List Char} (hrest : Ends rest) (h : Spaces after) :
    Ends (after ++ rest) := by
  cases after with
  | nil => exact hrest
  | cons c after =>
    intro d hd
    obtain rfl : c = d := by simpa using hd
    exact .inl (h c List.mem_cons_self)

/-- A member is read by its name and the value after the colon. What comes after
it closes the object or goes on with members. -/
theorem readMembers_append {depth : Nat} {before name after cs tail rest : List Char}
    {units : List UInt16} {value : Json} {members : List (List UInt16 × Json)}
    (hbefore : Spaces before) (hname : StringText name units) (hafter : Spaces after)
    (hvalue : readValue depth cs = some (value, tail))
    (hnext : (skipSpace tail = '\x7d' :: rest ∧ members = [(units, value)]) ∨
      ∃ next others, skipSpace tail = ',' :: next ∧ readMembers depth next = some (others, rest)
        ∧ members = (units, value) :: others) :
    readMembers (depth + 1) (before ++ quoted name ++ after ++ ':' :: cs)
      = some (members, rest) := by
  have hread := readUnits_append hname (after ++ ':' :: cs)
  have hcolon : skipSpace (after ++ ':' :: cs) = ':' :: cs := by
    rw [skipSpace_append hafter, skipSpace_cons rfl]
  have hquote : ∀ rest, skipSpace (Char.ofNat 0x22 :: rest) = Char.ofNat 0x22 :: rest :=
    skipSpace_cons rfl
  rw [readMembers]
  simp only [List.append_assoc, skipSpace_append hbefore]
  rcases hnext with ⟨hclose, rfl⟩ | ⟨next, others, hcomma, hothers, rfl⟩
  · simp [quoted, hquote, hread, hcolon, afterWord?, hvalue, hclose]
  · simp [quoted, hquote, hread, hcolon, afterWord?, hvalue, hcomma, hothers]

/-- Texts of values are read off the front, as far as the depth covers them. What
is left may start with the white space after the value. -/
def ReadsValues (depth : Nat) : Prop :=
  ∀ value cs rest, Written value cs → cs.length ≤ depth → Ends rest →
    ∃ tail, readValue depth (cs ++ rest) = some (value, tail) ∧ skipSpace tail = skipSpace rest

/-- So are elements, and the bracket that closes them. -/
def ReadsElements (depth : Nat) : Prop :=
  ∀ elements cs rest, WrittenElements elements cs → cs.length + 1 ≤ depth →
    readElements depth (cs ++ ']' :: rest) = some (elements, rest)

/-- So are members, and the brace that closes them. -/
def ReadsMembers (depth : Nat) : Prop :=
  ∀ members cs rest, WrittenMembers members cs → cs.length + 1 ≤ depth →
    readMembers depth (cs ++ '\x7d' :: rest) = some (members, rest)

section

variable {depth : Nat}

/-- A value is read when its parts are. -/
theorem readValue_of_spelled (helements : ReadsElements depth) (hmembers : ReadsMembers depth)
    {value : Json} {body rest : List Char} (h : Spelled value body)
    (hlength : body.length ≤ depth + 1) (hrest : Ends rest) :
    readValue (depth + 1) (body ++ rest) = some (value, rest) := by
  cases h with
  | null => rfl
  | on => rfl
  | off => rfl
  | number h =>
    have hread := readNumber_append h hrest
    obtain ⟨c, tail, rfl, hspace, hother⟩ := h.exists_head
    simp only [List.mem_cons, List.not_mem_nil, or_false, forall_eq_or_imp, forall_eq] at hother
    rw [readValue]
    simpa [skipSpace_cons hspace, hother] using hread
  | string h =>
    have hread := readUnits_append h rest
    rw [readValue]
    simp [quoted, skipSpace_cons (c := Char.ofNat 0x22) rfl, hread]
  | emptyArray h =>
    rw [readValue]
    simp [skipSpace_cons (c := '[') rfl, skipSpace_append h, skipSpace_cons (c := ']') rfl]
  | @array elements cs h =>
    simp only [List.cons_append, List.length_cons, List.length_append, List.length_nil] at hlength
    have hread := helements elements cs rest h (by omega)
    rw [← readElements_skipSpace] at hread
    rw [readValue]
    simp only [List.cons_append, List.append_assoc, List.nil_append,
      skipSpace_cons (c := '[') rfl, Char.reduceEq, reduceIte]
    split
    · rename_i tail hclose
      rw [hclose, readElements_close] at hread
      simp at hread
    · simp [hread]
  | emptyObject h =>
    rw [readValue]
    simp [skipSpace_cons (c := '\x7b') rfl, skipSpace_append h,
      skipSpace_cons (c := '\x7d') rfl]
  | @object members cs h =>
    simp only [List.cons_append, List.length_cons, List.length_append, List.length_nil] at hlength
    have hread := hmembers members cs rest h (by omega)
    rw [← readMembers_skipSpace] at hread
    rw [readValue]
    simp only [List.cons_append, List.append_assoc, List.nil_append,
      skipSpace_cons (c := '\x7b') rfl, Char.reduceEq, reduceIte]
    split
    · rename_i tail hclose
      rw [hclose, readMembers_close] at hread
      simp at hread
    · simp [hread]

theorem readsValues_succ (helements : ReadsElements depth) (hmembers : ReadsMembers depth) :
    ReadsValues (depth + 1) := by
  intro value cs rest h hlength hrest
  obtain @⟨_, before, body, after, hbefore, hbody, hafter⟩ := h
  simp only [List.length_append] at hlength
  have hread := readValue_of_spelled helements hmembers hbody (by omega) (hrest.of_spaces hafter)
  refine ⟨after ++ rest, ?_, skipSpace_append hafter rest⟩
  rw [← readValue_skipSpace, List.append_assoc, List.append_assoc, skipSpace_append hbefore,
    readValue_skipSpace, hread]

theorem readsElements_succ (hvalues : ReadsValues depth) (helements : ReadsElements depth) :
    ReadsElements (depth + 1) := by
  intro elements cs rest h hlength
  rw [readElements]
  cases h with
  | last h =>
    obtain ⟨tail, hread, htail⟩ := hvalues _ _ (']' :: rest) h (by omega) (by simp [Ends])
    simp [hread, htail, skipSpace_cons (c := ']') rfl]
  | @more value values cs others h hothers =>
    simp only [List.length_append, List.length_cons] at hlength
    obtain ⟨tail, hread, htail⟩ :=
      hvalues _ _ (',' :: (others ++ ']' :: rest)) h (by omega) (by simp [Ends])
    have hread' := helements _ _ rest hothers (by omega)
    simp [hread, htail, skipSpace_cons (c := ',') rfl, hread']

theorem readsMembers_succ (hvalues : ReadsValues depth) (hmembers : ReadsMembers depth) :
    ReadsMembers (depth + 1) := by
  intro members cs rest h hlength
  cases h with
  | last h =>
    obtain @⟨before, name, after, cs, units, value, hbefore, hname, hafter, h⟩ := h
    simp only [List.length_append, List.length_cons] at hlength
    obtain ⟨tail, hread, htail⟩ := hvalues _ _ ('\x7d' :: rest) h (by omega) (by simp [Ends])
    rw [skipSpace_cons rfl] at htail
    simpa using readMembers_append hbefore hname hafter hread (.inl ⟨htail, rfl⟩)
  | @more member members cs others h hothers =>
    obtain @⟨before, name, after, cs, units, value, hbefore, hname, hafter, h⟩ := h
    simp only [List.length_append, List.length_cons] at hlength
    obtain ⟨tail, hread, htail⟩ :=
      hvalues _ _ (',' :: (others ++ '\x7d' :: rest)) h (by omega) (by simp [Ends])
    have hread' := hmembers _ _ rest hothers (by omega)
    rw [skipSpace_cons rfl] at htail
    simpa using readMembers_append hbefore hname hafter hread
      (.inr ⟨_, members, htail, hread', rfl⟩)

end

/-- What is written is read off the front, as far as the depth covers it. -/
theorem reads_written (depth : Nat) :
    ReadsValues depth ∧ ReadsElements depth ∧ ReadsMembers depth := by
  induction depth with
  | zero =>
    refine ⟨?_, fun _ _ _ _ h => by omega, fun _ _ _ _ h => by omega⟩
    intro value cs rest h hlength
    obtain @⟨_, before, body, after, -, hbody, -⟩ := h
    have hpos := hbody.length_pos
    simp only [List.length_append] at hlength
    omega
  | succ depth ih =>
    obtain ⟨hvalues, helements, hmembers⟩ := ih
    exact ⟨readsValues_succ helements hmembers, readsElements_succ hvalues helements,
      readsMembers_succ hvalues hmembers⟩

/-! ## 2. What is read was written -/

/-- A word that is read stands at the front. -/
theorem eq_append_of_afterWord? {word cs rest : List Char} (h : afterWord? word cs = some rest) :
    cs = word ++ rest := by
  induction word generalizing cs with
  | nil => simpa [afterWord?] using h
  | cons w word ih =>
    cases cs with
    | nil => simp [afterWord?] at h
    | cons c cs =>
      simp only [afterWord?, ite_eq_iff, reduceCtorEq, and_false, or_false] at h
      rw [h.left, ih h.right, List.cons_append]

/-- A value that is read as a word was written as that word. -/
theorem spelled_of_word {first : Char} {word cs rest : List Char} {value value' : Json}
    (hspelled : Spelled value (first :: word))
    (h : (afterWord? word cs).map (value, ·) = some (value', rest)) :
    ∃ body, Spelled value' body ∧ first :: cs = body ++ rest := by
  obtain ⟨rest, hword, h⟩ := Option.map_eq_some_iff.mp h
  obtain ⟨rfl, rfl⟩ := Prod.mk.inj h
  exact ⟨_, hspelled, congrArg _ (eq_append_of_afterWord? hword)⟩

/-- Values that are read off the front were written. -/
def ValuesWritten (depth : Nat) : Prop :=
  ∀ cs value rest, readValue depth cs = some (value, rest) →
    ∃ before body, Spaces before ∧ Spelled value body ∧ cs = before ++ body ++ rest

/-- So were elements, up to the bracket that closes them. -/
def ElementsWritten (depth : Nat) : Prop :=
  ∀ cs elements rest, readElements depth cs = some (elements, rest) →
    ∃ body, WrittenElements elements body ∧ cs = body ++ ']' :: rest

/-- So were members, up to the brace that closes them. -/
def MembersWritten (depth : Nat) : Prop :=
  ∀ cs members rest, readMembers depth cs = some (members, rest) →
    ∃ body, WrittenMembers members body ∧ cs = body ++ '\x7d' :: rest

section

variable {depth : Nat}

theorem valuesWritten_succ (helements : ElementsWritten depth) (hmembers : MembersWritten depth) :
    ValuesWritten (depth + 1) := by
  intro cs value rest h
  obtain ⟨before, hbefore, hcs⟩ := exists_spaces cs
  suffices ∃ body, Spelled value body ∧ skipSpace cs = body ++ rest by
    obtain ⟨body, hbody, hskip⟩ := this
    exact ⟨before, body, hbefore, hbody, by rw [hcs, hskip, List.append_assoc]⟩
  rw [readValue] at h
  split at h
  · simp at h
  rename_i c tail hskip
  rw [hskip]
  obtain ⟨inner, hinner, htail⟩ := exists_spaces tail
  -- the first character tells which kind of value it is
  split at h
  · subst c
    obtain ⟨⟨units, rest⟩, hread, h⟩ := Option.map_eq_some_iff.mp h
    obtain ⟨rfl, rfl⟩ := Prod.mk.inj h
    obtain ⟨body, hbody, rfl⟩ := stringText_of_readUnits hread
    exact ⟨quoted body, .string hbody, by simp [quoted]⟩
  split at h
  · subst c
    split at h
    · rename_i rest hclose
      obtain ⟨rfl, rfl⟩ := Prod.mk.inj (Option.some.inj h)
      exact ⟨_, .emptyArray hinner, by rw [htail, hclose]; simp⟩
    · rw [readElements_skipSpace] at h
      obtain ⟨⟨elements, rest⟩, hread, h⟩ := Option.map_eq_some_iff.mp h
      obtain ⟨rfl, rfl⟩ := Prod.mk.inj h
      obtain ⟨body, hbody, rfl⟩ := helements _ _ _ hread
      exact ⟨_, .array hbody, by simp⟩
  split at h
  · subst c
    split at h
    · rename_i rest hclose
      obtain ⟨rfl, rfl⟩ := Prod.mk.inj (Option.some.inj h)
      exact ⟨_, .emptyObject hinner, by rw [htail, hclose]; simp⟩
    · rw [readMembers_skipSpace] at h
      obtain ⟨⟨members, rest⟩, hread, h⟩ := Option.map_eq_some_iff.mp h
      obtain ⟨rfl, rfl⟩ := Prod.mk.inj h
      obtain ⟨body, hbody, rfl⟩ := hmembers _ _ _ hread
      exact ⟨_, .object hbody, by simp⟩
  split at h
  · subst c
    exact spelled_of_word .null h
  split at h
  · subst c
    exact spelled_of_word .on h
  split at h
  · subst c
    exact spelled_of_word .off h
  · obtain ⟨body, hbody, rfl, hnumber⟩ := numeral_of_readNumber h
    exact ⟨body, .number hbody, hnumber⟩

theorem elementsWritten_succ (hvalues : ValuesWritten depth) (helements : ElementsWritten depth) :
    ElementsWritten (depth + 1) := by
  intro cs elements rest h
  rw [readElements] at h
  obtain ⟨⟨value, tail⟩, hread, hnext⟩ := Option.bind_eq_some_iff.mp h
  clear h
  obtain ⟨before, body, hbefore, hbody, rfl⟩ := hvalues _ _ _ hread
  obtain ⟨after, hafter, htail⟩ := exists_spaces tail
  have hwritten := Written.mk hbefore hbody hafter
  dsimp only at hnext
  split at hnext
  · rename_i rest hclose
    obtain ⟨rfl, rfl⟩ := Prod.mk.inj (Option.some.inj hnext)
    exact ⟨_, .last hwritten, by rw [htail, hclose]; simp⟩
  · rename_i rest hcomma
    obtain ⟨⟨values, rest⟩, hread', hlast⟩ := Option.bind_eq_some_iff.mp hnext
    obtain ⟨rfl, rfl⟩ := Prod.mk.inj (Option.some.inj hlast)
    obtain ⟨body', hbody', rfl⟩ := helements _ _ _ hread'
    exact ⟨_, .more hwritten hbody', by rw [htail, hcomma]; simp⟩
  · simp at hnext

theorem membersWritten_succ (hvalues : ValuesWritten depth) (hmembers : MembersWritten depth) :
    MembersWritten (depth + 1) := by
  intro cs members rest h
  obtain ⟨before, hbefore, hcs⟩ := exists_spaces cs
  rw [readMembers] at h
  split at h
  · simp at h
  rename_i c tail hskip
  by_cases hquote : c = Char.ofNat 0x22
  · subst c
    simp only [ne_eq, not_true_eq_false, if_false] at h
    obtain ⟨⟨units, afterName⟩, hunits, h⟩ := Option.bind_eq_some_iff.mp h
    obtain ⟨afterColon, hcolon, h⟩ := Option.bind_eq_some_iff.mp h
    obtain ⟨⟨value, afterValue⟩, hread, hnext⟩ := Option.bind_eq_some_iff.mp h
    clear h
    obtain ⟨name, hname, rfl⟩ := stringText_of_readUnits hunits
    obtain ⟨between, hbetween, hafterName⟩ := exists_spaces afterName
    rw [eq_append_of_afterWord? hcolon] at hafterName
    obtain ⟨lead, body, hlead, hbody, rfl⟩ := hvalues _ _ _ hread
    obtain ⟨after, hafter, hafterValue⟩ := exists_spaces afterValue
    have hmember := WrittenMember.mk hbefore hname hbetween (Written.mk hlead hbody hafter)
    rw [hskip, hafterName] at hcs
    dsimp only at hnext
    split at hnext
    · rename_i rest hclose
      obtain ⟨rfl, rfl⟩ := Prod.mk.inj (Option.some.inj hnext)
      exact ⟨_, .last hmember, by rw [hcs, hafterValue, hclose]; simp [quoted]⟩
    · rename_i rest hcomma
      obtain ⟨⟨others, rest⟩, hread', hlast⟩ := Option.bind_eq_some_iff.mp hnext
      obtain ⟨rfl, rfl⟩ := Prod.mk.inj (Option.some.inj hlast)
      obtain ⟨body', hbody', rfl⟩ := hmembers _ _ _ hread'
      exact ⟨_, .more hmember hbody', by rw [hcs, hafterValue, hcomma]; simp [quoted]⟩
    · simp at hnext
  · simp [hquote] at h

end

/-- What is read was written, at any depth. -/
theorem written_of_read (depth : Nat) :
    ValuesWritten depth ∧ ElementsWritten depth ∧ MembersWritten depth := by
  induction depth with
  | zero => exact ⟨nofun, nofun, nofun⟩
  | succ depth ih =>
    obtain ⟨hvalues, helements, hmembers⟩ := ih
    exact ⟨valuesWritten_succ helements hmembers, elementsWritten_succ hvalues helements,
      membersWritten_succ hvalues hmembers⟩

/-! ## 3. Texts -/

/-- A text is read as a value exactly when it is a text of that value. -/
theorem parse?_eq_some_iff {text : List Char} {value : Json} :
    parse? text = some value ↔ Written value text := by
  constructor
  · intro h
    obtain ⟨⟨value, rest⟩, hread, h⟩ := Option.bind_eq_some_iff.mp h
    simp only [ite_eq_iff, reduceCtorEq, and_false, or_false, Option.some.injEq] at h
    obtain ⟨hend, rfl⟩ := h
    obtain ⟨before, body, hbefore, hbody, rfl⟩ := (written_of_read _).left _ _ _ hread
    obtain ⟨after, hafter, hrest⟩ := exists_spaces rest
    rw [hend, List.append_nil] at hrest
    exact .mk hbefore hbody (hrest ▸ hafter)
  · intro h
    obtain ⟨tail, hread, htail⟩ :=
      (reads_written (2 * text.length + 1)).left value text [] h (by omega) (by simp [Ends])
    rw [List.append_nil] at hread
    rw [parse?, hread]
    exact if_pos htail

end ColumnMasking.Json
