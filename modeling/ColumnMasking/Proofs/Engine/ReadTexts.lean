/-
ColumnMasking.Proofs.Engine.ReadTexts — what the calls read of a ciphertext
or a signature text.

The byte-level calls give the empty text for no bytes, without a look at key
or tag. That is meant for the empty text alone: nothing else is read as no
bytes (`Encoding.decode_eq_nil_iff`), not even a text without a single digit.

A call that reads a text can therefore be told as one on bytes that are
known not to be empty. `exists_nonempty_read` and `exists_rows_read` give
such a reading, and `readTexts_nonempty` says that the calls are made of it.
-/
import ColumnMasking.Engine.Sm2
import ColumnMasking.Proofs.Engine.Sm4Inputs

namespace ColumnMasking

/-! ## 1. Results that carry a proof -/

/-- A result of which something is known carries the proof of it. -/
theorem exists_map_val {ε α : Type} {r : Except ε α} {P : α → Prop}
    (h : ∀ a, r = .ok a → P a) : ∃ read : Except ε {a // P a}, r = read.map Subtype.val := by
  cases r with
  | error error => exact ⟨.error error, rfl⟩
  | ok a => exact ⟨.ok ⟨a, h a rfl⟩, rfl⟩

/-- What follows on the result follows on the one that carries the proof. -/
theorem map_val_bind {ε α β : Type} {P : α → Prop} (read : Except ε {a // P a})
    (f : α → Except ε β) : (read.map Subtype.val >>= f) = read >>= fun a => f a.val := by
  cases read <;> rfl

/-! ## 2. Texts that are not empty -/

namespace Encoding

/-- Nothing but the empty text is read as no bytes. -/
theorem decode_eq_nil_iff (encoding : Encoding) {text : String} :
    encoding.decode text = .ok [] ↔ text = "" := by
  constructor
  · intro h
    cases encoding with
    | hex =>
      simp only [decode] at h
      split at h
      · simp at h
      · rename_i hdigits
        by_contra hne
        exact hdigits ⟨Except.ok.inj h, hne⟩
    | base64 => exact Encoding.decodeBase64_eq_ok_iff.mp h
  · rintro rfl
    exact decode_empty encoding

/-- What is read of a text that is not empty is not empty. -/
theorem exists_nonempty_read (encoding : Encoding) {text : String} (hne : text ≠ "") :
    ∃ read : Except ColumnMasking.Error {bs : Bytes // bs ≠ []},
      (encoding.decode text).mapError .decoding = read.map Subtype.val := by
  refine exists_map_val ?_
  rintro bs hread rfl
  exact hne (encoding.decode_eq_nil_iff.mp (mapError_eq_ok_iff.mp hread))

/-- Of the rows that are read of a column, those of the empty texts are
empty and no others. -/
theorem exists_rows_read (encoding : Encoding) (values : List String) :
    ∃ read : Except ColumnMasking.Error
        {rows : List Bytes // List.Forall₂ (fun value row => row = [] ↔ value = "") values rows},
      (values.mapM encoding.decode).mapError .decoding = read.map Subtype.val := by
  refine exists_map_val ?_
  intro rows hread
  have hrows := (mapM_eq_ok_iff values rows).mp (mapError_eq_ok_iff.mp hread)
  refine hrows.imp ?_
  intro value row hrow
  rw [← encoding.decode_eq_nil_iff, hrow, Except.ok.injEq]

end Encoding

/-! ## 3. The calls -/

namespace Engine

/-- Bytes are read back from their text, and nothing but the empty text is
read as no bytes. So of a text that is not empty the calls that decipher it
or verify it are given an error or bytes, and the bytes are never empty;
and so it is for each row of a column. -/
theorem readTexts_nonempty (encoding : Encoding) :
    (∀ bs, encoding.decode (encoding.encode bs) = .ok bs) ∧
    (∀ text, encoding.decode text = .ok [] ↔ text = "") ∧
    (∀ text, text ≠ "" → ∃ read : Except Error {bs : Bytes // bs ≠ []},
      (encoding.decode text).mapError .decoding = read.map Subtype.val ∧
      ∀ engine : Engine,
        (∀ key mode iv aad, (engine.sm4Decrypt key text mode iv aad encoding).result
          = engine.sm4Inputs key mode iv encoding >>= fun p => read >>= fun bytes =>
              (engine.sm4DecryptBytes p.1 p.2 bytes.val (aad.map Utf8.encode) mode).map
                Utf8.decodeLossy) ∧
        (∀ privateKey layout, privateKey ≠ "" →
          engine.sm2Decrypt privateKey text layout encoding
            = engine.sm2PrivateKey privateKey >>= fun key => read >>= fun bytes =>
                (engine.sm2DecryptBytes key bytes.val layout).map
                  fun plaintext => some (Utf8.decodeLossy plaintext)) ∧
        (∀ publicKey message identity,
          (engine.sm2Verify publicKey message text identity encoding).result
            = (engine.sm2PublicKey publicKey).result >>= fun key => read >>= fun bytes =>
                (key.verify (Utf8.encode message) bytes.val (identityOr identity)).mapError
                  .sm2)) ∧
    (∀ values, ∃ read : Except Error
        {rows : List Bytes // List.Forall₂ (fun value row => row = [] ↔ value = "") values rows},
      ∀ (engine : Engine) (key : String) (mode : Sm4.Mode) (iv : Option String),
        (engine.sm4DecryptColumn key values mode iv encoding).result
          = engine.sm4Inputs key mode iv encoding >>= fun p => read >>= fun rows =>
              ((mode.decryptRows p.1 p.2 rows.val).mapError .sm4).map
                (List.map Utf8.decodeLossy)) := by
  refine ⟨encoding.decode_encode, fun text => encoding.decode_eq_nil_iff, ?_, ?_⟩
  · intro text hne
    obtain ⟨read, hread⟩ := encoding.exists_nonempty_read hne
    refine ⟨read, hread, ?_⟩
    intro engine
    refine ⟨?_, ?_, ?_⟩
    · intro key mode iv aad
      rw [result_sm4Decrypt, if_neg hne]
      simp only [hread, map_val_bind, sm4DecryptBytes]
    · intro privateKey layout hkey
      unfold sm2Decrypt
      rw [if_neg (not_or_intro hne hkey)]
      simp only [hread, map_val_bind]
      rfl
    · intro publicKey message identity
      unfold sm2Verify
      simp only [Checked.result_bind, Checked.result_ofExcept, hread, map_val_bind]
  · intro values
    obtain ⟨read, hread⟩ := encoding.exists_rows_read values
    refine ⟨read, ?_⟩
    intro engine key mode iv
    simp only [result_sm4DecryptColumn, hread, map_val_bind]

end Engine
end ColumnMasking
