/-
ColumnMasking.Proofs.Engine.HexTexts — under hexadecimal only the digits of
a ciphertext or a signature count.

`hexTexts_read_by_digits` says how a text is read: it has a byte for every
two digits, which are those of the strict reading of the digits, the halves
of the bytes being the digits in order; and writing them one by one into a
buffer of that many bytes never misses it. What stands between the digits,
and their letter case, is therefore invisible to every call that reads a
text: two texts of the same digits give the same result with the same
warnings. The text with no digit at all is left out, as it is an error
unless it is empty.
-/
import ColumnMasking.Engine.Sm2
import ColumnMasking.Engine.Sm4
import ColumnMasking.Proofs.Text.LenientReading

namespace ColumnMasking

/-- Rows that are mapped alike one by one are mapped alike as a list. -/
theorem mapM_congr_of_forall₂ {ε α β : Type} {f : α → Except ε β} {xs ys : List α}
    (h : List.Forall₂ (fun x y => f x = f y) xs ys) : xs.mapM f = ys.mapM f := by
  induction h with
  | nil => rfl
  | cons hfirst _ ih => rw [List.mapM_cons, List.mapM_cons, hfirst, ih]

namespace Engine

variable {text other : String}

/-- Texts of the same digits are deciphered alike. -/
theorem sm4Decrypt_of_sameDigits (engine : Engine) (h : Hex.SameDigits text other) (key : String)
    (mode : Sm4.Mode) (iv aad : Option String) :
    engine.sm4Decrypt key text mode iv aad .hex = engine.sm4Decrypt key other mode iv aad .hex := by
  obtain ⟨htext, hother⟩ := h.ne_empty
  simp only [sm4Decrypt, if_neg htext, if_neg hother, h.decode_eq]

/-- Columns whose rows have the same digits are deciphered alike. -/
theorem sm4DecryptColumn_of_sameDigits (engine : Engine) {values others : List String}
    (h : List.Forall₂ (fun value other => value = other ∨ Hex.SameDigits value other) values others)
    (key : String) (mode : Sm4.Mode) (iv : Option String) :
    engine.sm4DecryptColumn key values mode iv .hex
      = engine.sm4DecryptColumn key others mode iv .hex := by
  have hrows : values.mapM Encoding.hex.decode = others.mapM Encoding.hex.decode := by
    refine mapM_congr_of_forall₂ (h.imp ?_)
    rintro value other (rfl | hsame)
    · rfl
    · exact hsame.decode_eq
  simp only [sm4DecryptColumn, hrows]

/-- Texts of the same digits are unmasked alike. -/
theorem sm2Decrypt_of_sameDigits (engine : Engine) (h : Hex.SameDigits text other)
    (privateKey : String) (layout : Sm2.Layout) :
    engine.sm2Decrypt privateKey text layout .hex
      = engine.sm2Decrypt privateKey other layout .hex := by
  obtain ⟨htext, hother⟩ := h.ne_empty
  simp only [sm2Decrypt, htext, hother, false_or, h.decode_eq]

/-- Signatures of the same digits are verified alike. -/
theorem sm2Verify_of_sameDigits (engine : Engine) (h : Hex.SameDigits text other)
    (publicKey message : String) (identity : Option String) :
    engine.sm2Verify publicKey message text identity .hex
      = engine.sm2Verify publicKey message other identity .hex := by
  simp only [sm2Verify, h.decode_eq]

/-- A hexadecimal text is read by its digits alone. Their strict reading,
with a zero in front of an odd count, is what is read; no digit is lost, and
writing them one by one into the bytes that they need never misses these.
Two texts of the same digits, letter case aside and whatever stands between
them, give the same in every call that reads them. -/
theorem hexTexts_read_by_digits :
    (∀ text : String,
      (Hex.decodeLenient text).length = ((Hex.digitChars text).length + 1) / 2 ∧
      Hex.decode (String.ofList (Hex.evened (Hex.digitChars text)))
        = .ok (Hex.decodeLenient text) ∧
      Hex.fill? (List.replicate (((Hex.digitChars text).length + 1) / 2) 0)
          ((Hex.digitChars text).length % 2) ((Hex.digitChars text).map Hex.digitValue)
        = some (Hex.decodeLenient text) ∧
      (Hex.decodeLenient text).flatMap Hex.halves
        = (Hex.evened (Hex.digitChars text)).map Hex.digitValue) ∧
    (∀ text other : String, Hex.SameDigits text other → ∀ engine : Engine,
      (∀ key mode iv aad, engine.sm4Decrypt key text mode iv aad .hex
        = engine.sm4Decrypt key other mode iv aad .hex) ∧
      (∀ privateKey layout, engine.sm2Decrypt privateKey text layout .hex
        = engine.sm2Decrypt privateKey other layout .hex) ∧
      (∀ publicKey message identity, engine.sm2Verify publicKey message text identity .hex
        = engine.sm2Verify publicKey message other identity .hex)) ∧
    (∀ values others : List String,
      List.Forall₂ (fun value other => value = other ∨ Hex.SameDigits value other) values others →
      ∀ (engine : Engine) (key : String) (mode : Sm4.Mode) (iv : Option String),
        engine.sm4DecryptColumn key values mode iv .hex
          = engine.sm4DecryptColumn key others mode iv .hex) := by
  refine ⟨?_, ?_, ?_⟩
  · intro text
    exact ⟨Hex.length_decodeLenient text, Hex.decode_evened_digitChars text,
      Hex.fill?_digitChars text, Hex.flatMap_halves_decodeLenient text⟩
  · intro text other hsame engine
    exact ⟨engine.sm4Decrypt_of_sameDigits hsame, engine.sm2Decrypt_of_sameDigits hsame,
      engine.sm2Verify_of_sameDigits hsame⟩
  · intro values others hrows engine
    exact engine.sm4DecryptColumn_of_sameDigits hrows

/-- A ciphertext with digits of both letter cases, a dash of three bytes, a
line break and letters among them is deciphered like its digits. -/
theorem hexTexts_read_by_digits_dash :
    Hex.SameDigits "3E14fe74—A5C26180\n336aa2f7 zz 5bf19387" "3e14fe74a5c26180336aa2f75bf19387" ∧
    (Engine.default.sm4Decrypt "0123456789abcdeffedcba9876543210"
      "3E14fe74—A5C26180\n336aa2f7 zz 5bf19387" .ecb none none .hex).result = .ok "é" := by
  have hsame : Hex.SameDigits "3E14fe74—A5C26180\n336aa2f7 zz 5bf19387"
      "3e14fe74a5c26180336aa2f75bf19387" := ⟨by decide +kernel, by decide +kernel⟩
  obtain ⟨hsm4, -⟩ := hexTexts_read_by_digits.right.left _ _ hsame Engine.default
  refine ⟨hsame, ?_⟩
  rw [hsm4]
  decide +kernel

end Engine
end ColumnMasking
