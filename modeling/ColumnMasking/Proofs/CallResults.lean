/-
ColumnMasking.Proofs.CallResults — what a call in several steps gives,
step by step.

A call made of steps succeeds exactly when each step does, on what the
steps before it gave. For plain results that is `bind_eq_ok_iff`; calls
that warn are reduced to their results by `Checked.result_bind`, calls that
draw by `Call.result_runOn_bind`.
-/
import Mathlib.Data.List.Forall2
import ColumnMasking.Engine

namespace ColumnMasking

/-! ## Plain results -/

/-- Two steps succeed exactly when the first one does and the second one
does on what it gave. -/
theorem bind_eq_ok_iff {ε α β : Type} {x : Except ε α} {f : α → Except ε β} {b : β} :
    (x >>= f) = .ok b ↔ ∃ a, x = .ok a ∧ f a = .ok b := by
  cases x with
  | error e => simp [bind, Except.bind]
  | ok a => simp [bind, Except.bind]

/-- Two steps fail when the first one does, or the second one on what the
first one gave. -/
theorem bind_eq_error_iff {ε α β : Type} {x : Except ε α} {f : α → Except ε β} {e : ε} :
    (x >>= f) = .error e ↔ x = .error e ∨ ∃ a, x = .ok a ∧ f a = .error e := by
  cases x with
  | error e => simp [bind, Except.bind]
  | ok a => simp [bind, Except.bind]

/-- Telling an error in other words makes no difference to success. -/
theorem mapError_eq_ok_iff {ε ε' α : Type} {g : ε → ε'} {x : Except ε α} {a : α} :
    x.mapError g = .ok a ↔ x = .ok a := by
  cases x <;> simp [Except.mapError]

/-- An error told in other words is one that was there. -/
theorem mapError_eq_error_iff {ε ε' α : Type} {g : ε → ε'} {x : Except ε α} {e : ε'} :
    x.mapError g = .error e ↔ ∃ cause, x = .error cause ∧ g cause = e := by
  cases x <;> simp [Except.mapError]

/-- A result that is transformed is one that was there. -/
theorem map_eq_ok_iff {ε α β : Type} {f : α → β} {x : Except ε α} {b : β} :
    x.map f = .ok b ↔ ∃ a, x = .ok a ∧ f a = b := by
  cases x <;> simp [Except.map]

/-- Transforming a result makes no difference to failure. -/
theorem map_eq_error_iff {ε α β : Type} {f : α → β} {x : Except ε α} {e : ε} :
    x.map f = .error e ↔ x = .error e := by
  cases x <;> simp [Except.map]

/-- What never succeeds fails. -/
theorem exists_error_of_ne_ok {ε α : Type} {x : Except ε α} (h : ∀ a, x ≠ .ok a) :
    ∃ e, x = .error e := by
  cases x with
  | error e => exact ⟨e, rfl⟩
  | ok a => exact absurd rfl (h a)

/-! ## Rows -/

section Rows

variable {ε ε' α β γ : Type}

/-- All rows succeed exactly when each one does, with the results in
order. -/
theorem mapM_eq_ok_iff {f : α → Except ε β} : ∀ (xs : List α) (ys : List β),
    xs.mapM f = .ok ys ↔ List.Forall₂ (fun x y => f x = .ok y) xs ys
  | [], ys => by
    rw [List.mapM_nil, List.forall₂_nil_left_iff]
    exact ⟨fun h => (Except.ok.inj h).symm, fun h => congrArg Except.ok h.symm⟩
  | x :: xs, ys => by
    rw [List.mapM_cons, List.forall₂_cons_left_iff]
    simp only [bind_eq_ok_iff, mapM_eq_ok_iff xs]
    constructor
    · rintro ⟨y, hy, tail, htail, h⟩
      exact ⟨y, tail, hy, htail, (Except.ok.inj h).symm⟩
    · rintro ⟨y, tail, hy, htail, rfl⟩
      exact ⟨y, hy, tail, htail, rfl⟩

/-- Where all rows succeed, each one does. -/
theorem exists_of_mapM_eq_ok {f : α → Except ε β} : ∀ {xs : List α} {ys : List β},
    xs.mapM f = .ok ys → ∀ x ∈ xs, ∃ y, f x = .ok y
  | [], _, _, x, hx => absurd hx List.not_mem_nil
  | x :: xs, ys, h, z, hz => by
    rw [List.mapM_cons] at h
    obtain ⟨y, hy, h⟩ := bind_eq_ok_iff.mp h
    obtain ⟨tail, htail, -⟩ := bind_eq_ok_iff.mp h
    rcases List.mem_cons.mp hz with rfl | hz
    · exact ⟨y, hy⟩
    · exact exists_of_mapM_eq_ok htail z hz

/-- Two passes over the rows succeed exactly when one pass that does both
steps on each row does. -/
theorem mapM_bind_mapM_eq_ok_iff {f : α → Except ε β} {g : β → Except ε γ} :
    ∀ (xs : List α) (zs : List γ),
      (xs.mapM f >>= fun ys => ys.mapM g) = .ok zs ↔ xs.mapM (fun x => f x >>= g) = .ok zs
  | [], zs => by
    rw [List.mapM_nil, List.mapM_nil, pure_bind, List.mapM_nil]
  | x :: xs, zs => by
    have ih : ∀ rest, (∃ tail, xs.mapM f = .ok tail ∧ tail.mapM g = .ok rest)
        ↔ xs.mapM (fun x => f x >>= g) = .ok rest := by
      intro rest
      rw [← mapM_bind_mapM_eq_ok_iff xs rest, bind_eq_ok_iff]
    simp only [List.mapM_cons, bind_eq_ok_iff]
    constructor
    · rintro ⟨ys, ⟨y, hy, tail, htail, h⟩, hzs⟩
      obtain rfl := Except.ok.inj h
      rw [List.mapM_cons] at hzs
      obtain ⟨z, hz, hzs⟩ := bind_eq_ok_iff.mp hzs
      obtain ⟨rest, hrest, h⟩ := bind_eq_ok_iff.mp hzs
      exact ⟨z, ⟨y, hy, hz⟩, rest, (ih rest).mp ⟨tail, htail, hrest⟩, h⟩
    · rintro ⟨z, ⟨y, hy, hz⟩, rest, hrest, h⟩
      obtain ⟨tail, htail, htailRest⟩ := (ih rest).mpr hrest
      refine ⟨y :: tail, ⟨y, hy, tail, htail, rfl⟩, ?_⟩
      rw [List.mapM_cons]
      exact bind_eq_ok_iff.mpr ⟨z, hz, bind_eq_ok_iff.mpr ⟨rest, htailRest, h⟩⟩

/-- The errors of the rows can be told in other words before or after. -/
theorem mapM_mapError (f : α → Except ε β) (g : ε → ε') : ∀ xs : List α,
    (xs.mapM f).mapError g = xs.mapM fun x => (f x).mapError g
  | [] => rfl
  | x :: xs => by
    rw [List.mapM_cons, List.mapM_cons, ← mapM_mapError f g xs]
    cases f x with
    | error e => rfl
    | ok y => cases xs.mapM f <;> rfl

/-- The results of the rows can be transformed before or after. -/
theorem mapM_map (f : α → Except ε β) (g : β → γ) : ∀ xs : List α,
    (xs.mapM f).map (List.map g) = xs.mapM fun x => (f x).map g
  | [] => rfl
  | x :: xs => by
    rw [List.mapM_cons, List.mapM_cons, ← mapM_map f g xs]
    cases f x with
    | error e => rfl
    | ok y => cases xs.mapM f <;> rfl

/-- Rows that fail do so with the error of one of them. -/
theorem exists_of_mapM_eq_error {f : α → Except ε β} {e : ε} : ∀ {xs : List α},
    xs.mapM f = .error e → ∃ x ∈ xs, f x = .error e
  | [], h => absurd h nofun
  | x :: xs, h => by
    rw [List.mapM_cons] at h
    cases hx : f x with
    | error e' =>
      rw [hx] at h
      obtain rfl := Except.error.inj h
      exact ⟨x, List.mem_cons_self, hx⟩
    | ok y =>
      rw [hx] at h
      cases hxs : xs.mapM f with
      | error e' =>
        rw [hxs] at h
        obtain rfl := Except.error.inj h
        obtain ⟨z, hz, herror⟩ := exists_of_mapM_eq_error hxs
        exact ⟨z, List.mem_cons_of_mem x hz, herror⟩
      | ok ys =>
        rw [hxs] at h
        exact absurd h nofun

end Rows

/-! ## Calls that warn -/

namespace Checked

variable {ε α β : Type}

/-- Giving a value succeeds with it. -/
@[simp] theorem result_pure (a : α) : (pure a : Checked ε α).result = .ok a := rfl

/-- A call without a warning has its own result. -/
@[simp] theorem result_ofExcept (r : Except ε α) : (ofExcept r).result = r := rfl

/-- A call given by its result and its warnings has that result. -/
@[simp] theorem result_mk (r : Except ε α) (warnings : List Warning) :
    result (ExceptT.mk ⟨r, warnings⟩) = r := rfl

/-- The result of two steps is that of the steps' results. -/
theorem result_bind (c : Checked ε α) (f : α → Checked ε β) :
    (c >>= f).result = c.result >>= fun a => (f a).result := by
  obtain ⟨result, warnings⟩ := c
  cases result <;> rfl

/-- Two steps succeed exactly when the first one does and the second one
does on what it gave. -/
theorem result_bind_eq_ok_iff {c : Checked ε α} {f : α → Checked ε β} {b : β} :
    (c >>= f).result = .ok b ↔ ∃ a, c.result = .ok a ∧ (f a).result = .ok b := by
  rw [result_bind, bind_eq_ok_iff]

/-- Telling an error in other words makes no difference to the warnings. -/
@[simp] theorem warnings_adapt {ε' : Type} (c : Checked ε α) (g : ε → ε') :
    warnings (c.adapt g) = c.warnings :=
  List.append_nil c.warnings

@[simp] theorem warnings_ofExcept (r : Except ε α) : (ofExcept r).warnings = [] := rfl

/-- A second step warns after the first one, where the first one succeeds. -/
theorem warnings_bind (c : Checked ε α) (f : α → Checked ε β) :
    (c >>= f).warnings
      = c.warnings ++ match c.result with
        | .ok a => (f a).warnings
        | .error _ => [] := by
  obtain ⟨result, warnings⟩ := c
  cases result <;> rfl

/-- A second step that warns of nothing leaves the warnings of the first
one. -/
theorem warnings_bind_of_quiet {c : Checked ε α} {f : α → Checked ε β}
    (hquiet : ∀ a, (f a).warnings = []) : (c >>= f).warnings = c.warnings := by
  rw [warnings_bind]
  split
  · rw [hquiet, List.append_nil]
  · exact List.append_nil _

/-- Steps that warn of nothing after a plain result warn of nothing. -/
theorem warnings_ofExcept_bind {r : Except ε α} {f : α → Checked ε β}
    (hquiet : ∀ a, (f a).warnings = []) : (ofExcept r >>= f).warnings = [] :=
  warnings_bind_of_quiet hquiet

end Checked

/-! ## Calls that draw -/

/-- Telling the error of a drawing in other words changes nothing else. -/
theorem Drawing.run_adapt {ε ε' α : Type} (d : Drawing ε α) (g : ε → ε') (e : Entropy) :
    (d.adapt g).run e = ((d.run e).1.mapError g, (d.run e).2) := rfl

/-- What a drawing gives can be transformed at its end. -/
theorem Drawing.run_bind_pure {ε α β : Type} (d : Drawing ε α) (g : α → β) (e : Entropy) :
    (d >>= fun a => pure (g a)).run e = ((d.run e).1.map g, (d.run e).2) := by
  let last : α → Drawing ε β := fun a => pure (g a)
  have hsteps : (d >>= last).run e = ExceptT.bindCont last (d.run e).1 (d.run e).2 := rfl
  rw [hsteps]
  cases (d.run e).1 <;> rfl

namespace Call

variable {α β : Type}

/-- A step is followed on what it gave and on the stream that it leaves. -/
theorem result_runOn_bind (c : Call α) (f : α → Call β) (e : Entropy) :
    ((c >>= f).runOn e).result
      = match (c.runOn e).result with
        | (.ok a, rest) => ((f a).runOn rest).result
        | (.error error, rest) => (.error error, rest) := by
  have hsteps : ((c >>= f).runOn e).result
      = (ExceptT.bindCont f (c.runOn e).result.1 (c.runOn e).result.2).result := rfl
  rw [hsteps]
  cases (c.runOn e).result with
  | mk result rest => cases result <;> rfl

/-- A step that draws nothing is followed on the same stream. -/
theorem result_runOn_ofChecked_bind (c : Checked Error α) (f : α → Call β) (e : Entropy) :
    ((ofChecked c >>= f).runOn e).result
      = match c.result with
        | .ok a => ((f a).runOn e).result
        | .error error => (.error error, e) := by
  obtain ⟨result, warnings⟩ := c
  cases result <;> rfl

/-- A first step that draws nothing succeeds together with the second one
on what it gave. -/
theorem fst_runOn_ofChecked_bind_eq_ok_iff {c : Checked Error α} {f : α → Call β} {e : Entropy}
    {b : β} : ((ofChecked c >>= f).runOn e).result.1 = .ok b
      ↔ ∃ a, c.result = .ok a ∧ ((f a).runOn e).result.1 = .ok b := by
  rw [result_runOn_ofChecked_bind]
  cases c.result with
  | error error => simp
  | ok a => simp

/-- What a call gives can be transformed at its end. -/
theorem fst_runOn_bind_pure_eq_ok_iff {c : Call α} {g : α → β} {e : Entropy} {b : β} :
    ((c >>= fun a => pure (g a)).runOn e).result.1 = .ok b
      ↔ ∃ a, (c.runOn e).result.1 = .ok a ∧ g a = b := by
  rw [result_runOn_bind]
  obtain ⟨result, rest⟩ := (c.runOn e).result
  cases result with
  | error error => simp
  | ok a =>
    show Except.ok (g a) = .ok b ↔ _
    simp

/-- Transforming what a call gives makes no difference to failure. -/
theorem fst_runOn_map_eq_error_iff {c : Call α} {g : α → β} {e : Entropy} {error : Error} :
    ((g <$> c).runOn e).result.1 = .error error ↔ (c.runOn e).result.1 = .error error := by
  rw [map_eq_pure_bind, result_runOn_bind]
  obtain ⟨result, rest⟩ := (c.runOn e).result
  cases result with
  | error cause => simp
  | ok a =>
    show Except.ok (g a) = .error error ↔ _
    simp

/-- A step that draws is followed on the stream that it leaves. -/
theorem result_runOn_ofDrawing_bind (d : Drawing Error α) (f : α → Call β) (e : Entropy) :
    ((ofDrawing d >>= f).runOn e).result
      = match d.run e with
        | (.ok a, rest) => ((f a).runOn rest).result
        | (.error error, rest) => (.error error, rest) := by
  rw [result_runOn_bind]
  rfl

end Call
end ColumnMasking
